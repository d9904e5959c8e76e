import AgentClaimNetwork.Library.Trace
import AgentClaimNetwork.Maintainer.ResolutionScheduler

/-!
An accepted refresh is not lost: until it is started its marker is there, and the loop has it
queued, dirty or to be found by a scan.
-/

namespace AgentClaimNetwork.Maintainer

open Library Durable List
open Prod (fst snd)

variable {target : ResolutionEventTarget} {state later : SchedulerState} {event : ResolutionEvent}
  {capacity : Nat}

def SchedulerState.queued (state : SchedulerState) : List ResolutionEvent :=
  state.channel ++ state.ready ++ state.delayed.map snd

def SchedulerState.held (state : SchedulerState) : List ResolutionEvent :=
  state.queued ++ state.phase.current.toList

open SchedulerState (held queued)

def Phase.remaining : Phase → List ResolutionEvent
  | .refilling _ remaining => remaining.map fst
  | .top | .listing _ | .dispatch | .waiting | .executing _ | .completing _ | .retrying _ _
  | .closing | .stopped => []

def Phase.scanning : Phase → Bool
  | .listing _ | .refilling _ _ => true
  | .top | .dispatch | .waiting | .executing _ | .completing _ | .retrying _ _ | .closing
  | .stopped => false

def Requested (target : ResolutionEventTarget) (state : SchedulerState) : Prop :=
  match state.phase with
  | .listing refill => refill.stage = .adoptions → refill.morePending = true
  | .refilling refill remaining => refill.stage = .deliveries ∨ refill.morePending = true ∨
      .refresh target ∈ remaining.map fst
  | .top | .dispatch | .waiting | .executing _ | .completing _ | .retrying _ _ | .closing
  | .stopped => state.recoveryRequested = true

structure SchedulerInvariant (target : ResolutionEventTarget) (state : SchedulerState) : Prop where
  distinct : state.held.Nodup
  scheduled : state.phase.running → ∀ event, event ∈ state.scheduled ↔ event ∈ state.held
  marked : target ∈ state.owed → target ∈ state.pendingObservations.values
  marking : state.enqueuing = some (.refresh target) → target ∈ state.pendingObservations.values
  dirty : state.phase.current = some (.refresh target) → target ∈ state.owed →
    .refresh target ∈ state.dirtyRefreshes
  supported : state.phase.running → target ∈ state.owed →
    .refresh target ∈ state.held ∨ state.recoveryWake = true ∨ Requested target state
  scanning : state.phase.scanning → state.recoveryRequested = true
  alive : state.closed = false → state.phase.running
  retries : ∀ event, state.phase = .retrying event false → ∃ other, event = .refresh other
  ownMarker : ∀ other ∈ state.pendingObservations.values,
    other.resolutionId = target.resolutionId → other = target
  ownEvent : ∀ other, .refresh other ∈ state.held ++ state.enqueuing.toList ++
    state.phase.remaining → other.resolutionId = target.resolutionId → other = target

theorem retries_of_current {phase : Phase} (noCurrent : phase.current = none) :
    ∀ event, phase = .retrying event false → ∃ other, event = .refresh other := by
  rintro event rfl
  cases noCurrent

theorem SchedulerInvariant.move (inv : SchedulerInvariant target state)
    (held : later.held.Perm state.held) (scheduled : later.scheduled = state.scheduled)
    (dirtyRefreshes : later.dirtyRefreshes = state.dirtyRefreshes)
    (markers : later.pendingObservations = state.pendingObservations)
    (enqueuing : later.enqueuing = state.enqueuing) (owed : later.owed ⊆ state.owed)
    (running : later.phase.running → state.phase.running)
    (current : later.phase.current = some (.refresh target) → target ∈ later.owed →
      state.phase.current = some (.refresh target))
    (requested : later.phase.running → target ∈ later.owed →
      state.recoveryWake = true ∨ Requested target state →
      .refresh target ∈ later.held ∨ later.recoveryWake = true ∨ Requested target later)
    (scanning : later.phase.scanning → later.recoveryRequested = true)
    (alive : later.closed = false → later.phase.running)
    (retries : ∀ event, later.phase = .retrying event false → ∃ other, event = .refresh other)
    (remaining : ∀ other, .refresh other ∈ later.phase.remaining →
      other.resolutionId = target.resolutionId → other = target) :
    SchedulerInvariant target later where
  distinct := held.nodup_iff.mpr inv.distinct
  scheduled := by
    intro isRunning event
    rw [scheduled, inv.scheduled (running isRunning), held.mem_iff]
  marked := by
    rw [markers]
    exact fun isOwed => inv.marked (owed isOwed)
  marking := by
    rw [markers, enqueuing]
    exact inv.marking
  dirty := by
    rw [dirtyRefreshes]
    exact fun isCurrent isOwed => inv.dirty (current isCurrent isOwed) (owed isOwed)
  supported := by
    intro isRunning isOwed
    rcases inv.supported (running isRunning) (owed isOwed) with isHeld | isRequested
    · exact .inl (held.mem_iff.mpr isHeld)
    · exact requested isRunning isOwed isRequested
  scanning := scanning
  alive := alive
  retries := retries
  ownMarker := by
    rw [markers]
    exact inv.ownMarker
  ownEvent := by
    intro other member
    rcases mem_append.mp member with earlier | found
    · refine inv.ownEvent other (mem_append_left _ ?_)
      rw [enqueuing] at earlier
      rcases mem_append.mp earlier with isHeld | isEnqueuing
      · exact mem_append_left _ (held.mem_iff.mp isHeld)
      · exact mem_append_right _ isEnqueuing
    · exact remaining other found

theorem SchedulerInvariant.add (inv : SchedulerInvariant target state)
    (isRunning : state.phase.running) (fresh : event ∉ state.scheduled)
    (held : later.held.Perm (event :: state.held))
    (scheduled : later.scheduled = insert event state.scheduled)
    (dirtyRefreshes : later.dirtyRefreshes = state.dirtyRefreshes)
    (markers : later.pendingObservations = state.pendingObservations)
    (enqueuing : later.enqueuing = none)
    (owed : ∀ other ∈ later.owed, other ∈ state.owed ∨
      event = .refresh other ∧ state.enqueuing = some event)
    (current : later.phase.current = state.phase.current)
    (requested : state.recoveryWake = true ∨ Requested target state →
      .refresh target ∈ later.held ∨ later.recoveryWake = true ∨ Requested target later)
    (scanning : later.phase.scanning → later.recoveryRequested = true)
    (alive : later.closed = false → later.phase.running)
    (retries : ∀ event, later.phase = .retrying event false → ∃ other, event = .refresh other)
    (own : ∀ other, event = .refresh other → other.resolutionId = target.resolutionId →
      other = target)
    (remaining : ∀ other, .refresh other ∈ later.phase.remaining →
      other.resolutionId = target.resolutionId → other = target) :
    SchedulerInvariant target later := by
  have unheld : event ∉ state.held := fun isHeld => fresh ((inv.scheduled isRunning event).mpr isHeld)
  refine ⟨?_, ?_, ?_, ?_, ?_, ?_, scanning, alive, retries, ?_, ?_⟩
  · exact held.nodup_iff.mpr (nodup_cons.mpr ⟨unheld, inv.distinct⟩)
  · intro _ other
    rw [scheduled, Finset.mem_insert, inv.scheduled isRunning, held.mem_iff, mem_cons]
  · rw [markers]
    intro isOwed
    rcases owed target isOwed with already | ⟨isEvent, isEnqueuing⟩
    · exact inv.marked already
    · exact inv.marking (isEvent ▸ isEnqueuing)
  · rw [enqueuing]
    intro isEnqueuing
    cases isEnqueuing
  · rw [dirtyRefreshes, current]
    intro isCurrent isOwed
    rcases owed target isOwed with already | ⟨isEvent, _⟩
    · exact inv.dirty isCurrent already
    · -- the event in hand is scheduled, so it is not the new one
      refine absurd ?_ unheld
      rw [isEvent, SchedulerState.held, isCurrent]
      exact mem_append_right _ (by simp)
  · intro _ isOwed
    rcases owed target isOwed with already | ⟨isEvent, _⟩
    · rcases inv.supported isRunning already with isHeld | isRequested
      · exact .inl (held.mem_iff.mpr (mem_cons_of_mem _ isHeld))
      · exact requested isRequested
    · rw [← isEvent]
      exact .inl (held.mem_iff.mpr mem_cons_self)
  · rw [markers]
    exact inv.ownMarker
  · intro other member
    rw [enqueuing, Option.toList_none, append_nil] at member
    rcases mem_append.mp member with isHeld | found
    · rcases mem_cons.mp (held.mem_iff.mp isHeld) with isEvent | older
      · exact own other isEvent.symm
      · exact inv.ownEvent other (mem_append_left _ (mem_append_left _ older))
    · exact remaining other found

section

variable (inv : SchedulerInvariant target state)

include inv

theorem SchedulerInvariant.mark
    (own : observed.resolutionId = target.resolutionId → observed = target)
    (lock : enqueuing = state.enqueuing ∨ enqueuing = some (.refresh observed)) :
    SchedulerInvariant target
      { state with
        pendingObservations := state.pendingObservations.insert observed
        enqueuing := enqueuing } := by
  have kept : target ∈ state.pendingObservations.values →
      target ∈ (state.pendingObservations.insert observed).values := by
    intro member
    rw [KeyedMap.mem_insert]
    by_cases same : target.resolutionId = observed.resolutionId
    · exact .inl (own same.symm).symm
    · exact .inr ⟨member, same⟩
  refine ⟨inv.distinct, inv.scheduled, fun isOwed => kept (inv.marked isOwed), ?_, inv.dirty,
    inv.supported, inv.scanning, inv.alive, inv.retries, ?_, ?_⟩
  · rintro (rfl : enqueuing = _)
    rcases lock with before | isObserved
    · exact kept (inv.marking before.symm)
    · cases isObserved
      exact KeyedMap.mem_insert.mpr (.inl rfl)
  · intro other member
    rcases KeyedMap.mem_insert.mp member with rfl | ⟨older, _⟩
    · exact own
    · exact inv.ownMarker other older
  · intro other member
    rcases mem_append.mp member with earlier | found
    · rcases mem_append.mp earlier with isHeld | isEnqueuing
      · exact inv.ownEvent other (mem_append_left _ (mem_append_left _ isHeld))
      · rcases lock with rfl | rfl
        · exact inv.ownEvent other (mem_append_left _ (mem_append_right _ isEnqueuing))
        · simp only [Option.toList_some, mem_singleton, ResolutionEvent.refresh.injEq]
            at isEnqueuing
          rw [isEnqueuing]
          exact own
    · exact inv.ownEvent other (mem_append_right _ found)

theorem enqueue_invariant
    (own : ∀ other, event = .refresh other → other.resolutionId = target.resolutionId →
      other = target) (stepped : enqueue state event fate = some later) :
    SchedulerInvariant target later := by
  unfold enqueue at stepped
  split_ifs at stepped with locked
  have unlocked : state.enqueuing = none := by simpa using locked
  have others : (∀ other, event ≠ .refresh other) →
      SchedulerInvariant target { state with enqueuing := some event } := by
    intro different
    refine ⟨inv.distinct, inv.scheduled, inv.marked, ?_, inv.dirty, inv.supported, inv.scanning,
      inv.alive, inv.retries, inv.ownMarker, ?_⟩
    · intro isEnqueuing
      exact absurd (Option.some.inj isEnqueuing) (different target)
    · intro other member
      refine inv.ownEvent other ?_
      rw [unlocked]
      simp only [Option.toList_some, append_assoc, mem_append, mem_singleton,
        Option.toList_none, not_mem_nil, false_or] at member ⊢
      rcases member with isHeld | isEvent | found
      · exact .inl isHeld
      · exact absurd isEvent.symm (different other)
      · exact .inr found
  cases event with
  | refresh observed =>
    cases fate with
    | done =>
      cases stepped
      exact inv.mark (own observed rfl) (.inr rfl)
    | failed =>
      cases stepped
      exact inv
  | deliver observed | recoverAdoption job =>
    cases stepped
    exact others fun _ same => by cases same

omit inv

theorem mem_owing : other ∈ owing event ↔ event = .refresh other := by
  cases event with
  | refresh observed => simp [owing, eq_comm]
  | deliver observed | recoverAdoption job => simp [owing]

include inv

theorem SchedulerInvariant.accept
    (isEnqueuing : state.enqueuing = some event) {dirty : Finset ResolutionEvent}
    (kept : state.dirtyRefreshes ⊆ dirty) (wakes : state.recoveryWake = true → woken = true)
    (accepted : event ∈ state.scheduled ∧ (∀ other, event = .refresh other → event ∈ dirty) ∨
      event ∉ state.scheduled ∧ woken = true) :
    SchedulerInvariant target
      { state with
        enqueuing := none
        dirtyRefreshes := dirty
        recoveryWake := woken
        owed := state.owed ∪ owing event } := by
  refine ⟨inv.distinct, inv.scheduled, ?_, ?_, ?_, ?_, inv.scanning, inv.alive, inv.retries,
    inv.ownMarker, ?_⟩
  · intro isOwed
    rcases Finset.mem_union.mp isOwed with already | isNew
    · exact inv.marked already
    · exact inv.marking ((mem_owing.mp isNew) ▸ isEnqueuing)
  · intro none
    cases none
  · intro isCurrent isOwed
    rcases Finset.mem_union.mp isOwed with already | isNew
    · exact kept (inv.dirty isCurrent already)
    · have isEvent := mem_owing.mp isNew
      rcases accepted with ⟨_, isDirty⟩ | ⟨fresh, _⟩
      · rw [← isEvent]
        exact isDirty target isEvent
      · -- while the loop has an event in hand it runs, and the event is scheduled
        have isRunning : state.phase.running = true := by
          cases isPhase : state.phase <;> simp_all [Phase.current, Phase.running]
        refine absurd ((inv.scheduled isRunning event).mpr ?_) fresh
        rw [isEvent, held]
        exact mem_append_right _ (by simp [show state.phase.current = _ from isCurrent])
  · intro isRunning isOwed
    rcases Finset.mem_union.mp isOwed with already | isNew
    · rcases inv.supported isRunning already with isHeld | isWoken | isRequested
      · exact .inl isHeld
      · exact .inr (.inl (wakes isWoken))
      · exact .inr (.inr isRequested)
    · rcases accepted with ⟨isScheduled, _⟩ | ⟨_, isWoken⟩
      · rw [← mem_owing.mp isNew]
        exact .inl ((inv.scheduled isRunning event).mp isScheduled)
      · exact .inr (.inl isWoken)
  · intro other member
    refine inv.ownEvent other ?_
    simp only [Option.toList_none, append_nil, mem_append] at member ⊢
    rcases member with isHeld | found
    · exact .inl (.inl isHeld)
    · exact .inr found

theorem SchedulerInvariant.release :
    SchedulerInvariant target { state with enqueuing := none } := by
  refine ⟨inv.distinct, inv.scheduled, inv.marked, ?_, inv.dirty, inv.supported, inv.scanning,
    inv.alive, inv.retries, inv.ownMarker, ?_⟩
  · intro none
    cases none
  · intro other member
    refine inv.ownEvent other ?_
    simp only [Option.toList_none, append_nil, mem_append] at member ⊢
    rcases member with isHeld | found
    · exact .inl (.inl isHeld)
    · exact .inr found

theorem finishEnqueue_invariant
    (stepped : finishEnqueue capacity state = some later) : SchedulerInvariant target later := by
  unfold finishEnqueue at stepped
  split at stepped
  · cases stepped
  · rename_i event isEnqueuing
    split_ifs at stepped with isScheduled isClosed room
    · cases stepped
      refine inv.accept isEnqueuing ?_ (fun isWoken => isWoken) (.inl ⟨isScheduled, ?_⟩)
      · cases event <;> simp [markDirty]
      · rintro other rfl
        exact Finset.mem_insert_self _ _
    · cases stepped
      exact inv.release
    · cases stepped
      have isRunning := inv.alive (by simpa using isClosed)
      refine inv.add isRunning isScheduled ?_ rfl rfl rfl rfl ?_ rfl Or.inr inv.scanning
        inv.alive inv.retries ?_ ?_
      · simp only [held, queued, append_assoc]
        exact perm_middle
      · intro other isOwed
        rcases Finset.mem_union.mp isOwed with already | isNew
        · exact .inl already
        · exact .inr ⟨mem_owing.mp isNew, isEnqueuing⟩
      · rintro other rfl
        refine inv.ownEvent other ?_
        rw [isEnqueuing]
        simp
      · exact fun other found => inv.ownEvent other (mem_append_right _ found)
    · cases stepped
      exact inv.accept isEnqueuing (fun _ member => member) (fun _ => rfl)
        (.inr ⟨isScheduled, rfl⟩)

omit inv

end

section

theorem delayUntil_perm (deadline : Instant) (event : ResolutionEvent)
    (delayed : List (Instant × ResolutionEvent)) :
    (delayUntil deadline event delayed).Perm ((deadline, event) :: delayed) := by
  induction delayed with
  | nil => exact List.Perm.refl _
  | cons first rest ih =>
    unfold delayUntil
    split_ifs
    · exact List.Perm.refl _
    · exact (ih.cons first).trans (List.Perm.swap _ _ _)

theorem moveDue_queued (now : Instant) (state : SchedulerState) :
    (moveDue now state).queued = state.queued := by
  simp only [moveDue, queued, append_assoc]
  rw [← map_append, takeWhile_append_dropWhile]

section

variable (inv : SchedulerInvariant target state)
include inv

theorem turn_invariant {now : Instant}
    (stepped : turn capacity now state = some later) : SchedulerInvariant target later := by
  unfold turn at stepped
  split at stepped
  · rename_i isTop
    have moves : ∀ phase : Phase, phase.current = none → phase.remaining = [] →
        phase.running = true → (phase.scanning = true → state.recoveryRequested = true) →
        (state.recoveryRequested = true →
          Requested target { moveDue now state with phase := phase }) →
        SchedulerInvariant target { moveDue now state with phase := phase } := by
      intro phase noCurrent noRemaining isRunning scanning requested
      refine inv.move ?_ rfl rfl rfl rfl (Finset.Subset.refl _) (by simp [isTop, Phase.running]) ?_ ?_
        scanning (fun _ => isRunning) (retries_of_current noCurrent) ?_
      · have queued := moveDue_queued now state
        simp only [SchedulerState.held, SchedulerState.queued] at queued ⊢
        rw [noCurrent, isTop]
        simpa [Phase.current] using List.Perm.of_eq queued
      · intro isCurrent
        rw [show Phase.current phase = _ from isCurrent] at noCurrent
        cases noCurrent
      · intro _ _ support
        rcases support with isWoken | isRequested
        · exact .inr (.inl isWoken)
        · rw [Requested, isTop] at isRequested
          exact .inr (.inr (requested isRequested))
      · intro other found
        rw [show Phase.remaining phase = [] from noRemaining] at found
        cases found
    split_ifs at stepped with isRequested locked room
    · cases stepped
      exact moves _ rfl rfl rfl (fun _ => isRequested) fun _ => by simp [Requested]
    all_goals
      cases stepped
      exact moves _ rfl rfl rfl (fun scans => by cases scans) fun requested => requested
  · cases stepped

theorem SchedulerInvariant.advance
    (requests adoptions : Bool) (current : phase.current = state.phase.current)
    (running : state.phase.running) (goesOn : phase.running)
    (requested : target ∈ state.owed → Requested target state → Requested target
      { state with
        recoveryRequested := requests
        recoverAdoptions := adoptions
        phase := phase })
    (scanning : phase.scanning → requests = true)
    (retries : ∀ event, phase = .retrying event false → ∃ other, event = .refresh other)
    (remaining : ∀ other, .refresh other ∈ phase.remaining →
      other.resolutionId = target.resolutionId → other = target) :
    SchedulerInvariant target
      { state with
        recoveryRequested := requests
        recoverAdoptions := adoptions
        phase := phase } := by
  refine inv.move ?_ rfl rfl rfl rfl (Finset.Subset.refl _) (fun _ => running) ?_ ?_ scanning
    (fun _ => goesOn) retries remaining
  · rw [held, held, ← current]
    exact List.Perm.refl _
  · rw [← current]
    exact fun isCurrent _ => isCurrent
  · intro _ isOwed support
    rcases support with isWoken | isRequested
    · exact .inr (.inl isWoken)
    · exact .inr (.inr (requested isOwed isRequested))

theorem SchedulerInvariant.listed {listed : Refill}
    {found : List (ResolutionEvent × Option Instant)} (isListing : state.phase = .listing refill)
    (requested : target ∈ state.owed → Requested target state →
      Requested target { state with phase := .refilling listed found })
    (own : ∀ other, .refresh other ∈ found.map fst →
      other.resolutionId = target.resolutionId → other = target) :
    SchedulerInvariant target { state with phase := .refilling listed found } := by
  refine inv.advance state.recoveryRequested state.recoverAdoptions ?_ ?_ rfl requested ?_
    (retries_of_current rfl) own
  · rw [isListing]
    rfl
  · rw [isListing]
    rfl
  · exact fun _ => inv.scanning (by rw [isListing]; rfl)

theorem listDeliveries_invariant {pending : List (ResolutionEventTarget × Option Instant)}
    (stepped : listDeliveries pending state = some later) : SchedulerInvariant target later := by
  unfold listDeliveries at stepped
  split at stepped
  · cases stepped
    exact inv.listed ‹_› (fun _ _ => .inl rfl) (by simp)
  · cases stepped

theorem listObservations_invariant {targets : List ResolutionEventTarget}
    (own : ∀ other ∈ targets, other.resolutionId = target.resolutionId → other = target)
    (stepped : listObservations targets state = some later) :
    SchedulerInvariant target later := by
  unfold listObservations at stepped
  split at stepped
  · split_ifs at stepped with complete
    cases stepped
    refine inv.listed ‹_› ?_ ?_
    · intro isOwed _
      have found := all_eq_true.mp complete target (inv.marked isOwed)
      simp only [decide_eq_true_eq] at found
      simp [Requested, found]
    · intro other found
      simp only [map_map, mem_map, Function.comp_apply] at found
      obtain ⟨known, member, same⟩ := found
      cases same
      exact own other member
  · cases stepped

theorem listAdoptions_invariant {jobs : List AnalysisJob}
    (stepped : listAdoptions jobs state = some later) : SchedulerInvariant target later := by
  unfold listAdoptions at stepped
  split at stepped
  · rename_i isListing
    cases stepped
    refine inv.listed isListing ?_ (by simp)
    intro _ isRequested
    rw [Requested, isListing] at isRequested
    exact .inr (.inl (isRequested rfl))
  · cases stepped

theorem nextStage_invariant {refill : Refill} (isRefilling : state.phase = .refilling refill []) :
    SchedulerInvariant target (nextStage refill state) := by
  have noCurrent : state.phase.current = none := by rw [isRefilling]; rfl
  have running : state.phase.running = true := by rw [isRefilling]; rfl
  have scanning := inv.scanning (by rw [isRefilling]; rfl)
  -- with nothing remaining, the scan was not complete or there was nothing to find
  have more : Requested target state → refill.stage ≠ .deliveries → refill.morePending = true := by
    intro isRequested later
    rw [Requested, isRefilling] at isRequested
    rcases isRequested with isDeliveries | isMore | found
    · exact absurd isDeliveries later
    · exact isMore
    · cases found
  unfold nextStage
  split
  · rename_i isStage
    refine inv.advance state.recoveryRequested state.recoverAdoptions noCurrent.symm running rfl
      ?_ (fun _ => scanning) (retries_of_current rfl) ?_
    · intro _ _ isAdoptions
      cases isAdoptions
    · intro other found
      cases found
  · rename_i isStage
    split_ifs
    · refine inv.advance state.recoveryRequested state.recoverAdoptions noCurrent.symm running
        rfl ?_ (fun _ => scanning) (retries_of_current rfl) ?_
      · intro _ isRequested _
        exact more isRequested (by rw [isStage]; decide)
      · intro other found
        cases found
    · refine inv.advance refill.morePending state.recoverAdoptions noCurrent.symm running rfl ?_
        ?_ (retries_of_current rfl) ?_
      · intro _ isRequested
        exact more isRequested (by rw [isStage]; decide)
      · intro scans
        cases scans
      · intro other found
        cases found
  · rename_i isStage
    refine inv.advance refill.morePending refill.moreAdoptions noCurrent.symm running rfl ?_ ?_
      (retries_of_current rfl) ?_
    · intro _ isRequested
      exact more isRequested (by rw [isStage]; decide)
    · intro scans
      cases scans
    · intro other found
      cases found

end

theorem held_push_ready (state : SchedulerState) (event : ResolutionEvent) (phase : Phase)
    (current : phase.current = state.phase.current) :
    held { state with ready := state.ready ++ [event], phase := phase } |>.Perm
      (event :: state.held) := by
  have moved := @perm_middle _ event (state.channel ++ state.ready)
    (state.delayed.map snd ++ state.phase.current.toList)
  simp only [held, queued, current]
  simpa using moved

theorem held_delay (state : SchedulerState) (deadline : Instant) (event : ResolutionEvent)
    (phase : Phase) :
    held
        { state with delayed := delayUntil deadline event state.delayed, phase := phase } |>.Perm
      (state.queued ++ event :: phase.current.toList) := by
  have inserted := (delayUntil_perm deadline event state.delayed).map snd
  simp only [held, queued, append_assoc]
  refine List.Perm.append_left _ (List.Perm.append_left _ ?_)
  refine (inserted.append_right _).trans ?_
  exact perm_middle.symm

section

variable (inv : SchedulerInvariant target state)
include inv

theorem refillOne_invariant
    (stepped : refillOne capacity state = some later) : SchedulerInvariant target later := by
  unfold refillOne at stepped
  split at stepped
  · rename_i refill isRefilling
    cases stepped
    exact nextStage_invariant inv isRefilling
  · rename_i refill event deadline remaining isRefilling
    have noCurrent : state.phase.current = none := by rw [isRefilling]; rfl
    have running : state.phase.running = true := by rw [isRefilling]; rfl
    have scanning := inv.scanning (by rw [isRefilling]; rfl)
    have isRemaining : state.phase.remaining = event :: remaining.map fst := by
      rw [isRefilling]
      rfl
    have ownLater : ∀ other, .refresh other ∈ remaining.map fst →
        other.resolutionId = target.resolutionId → other = target := by
      intro other found
      refine inv.ownEvent other (mem_append_right _ ?_)
      rw [isRemaining]
      exact mem_cons_of_mem _ found
    have ownFirst : ∀ other, event = .refresh other → other.resolutionId = target.resolutionId →
        other = target := by
      rintro other rfl
      refine inv.ownEvent other (mem_append_right _ ?_)
      rw [isRemaining]
      exact mem_cons_self
    have skips : Requested target state → event ≠ .refresh target →
        Requested target { state with phase := .refilling refill remaining } := by
      intro isRequested different
      rw [Requested, isRefilling] at isRequested
      rcases isRequested with isDeliveries | isMore | found
      · exact .inl isDeliveries
      · exact .inr (.inl isMore)
      · rcases mem_cons.mp found with isEvent | later
        · exact absurd isEvent.symm different
        · exact .inr (.inr later)
    split_ifs at stepped with locked isScheduled full
    · cases stepped
      refine inv.move (List.Perm.of_eq ?_) rfl rfl rfl rfl (Finset.Subset.refl _)
        (fun _ => running) ?_ ?_ (fun _ => scanning) (fun _ => rfl) (retries_of_current rfl)
        ownLater
      · simp only [held, noCurrent]
        rfl
      · intro isCurrent
        cases isCurrent
      · intro _ _ support
        by_cases isEvent : event = .refresh target
        · have isHeld := (inv.scheduled running event).mp isScheduled
          rw [held, noCurrent] at isHeld
          rw [← isEvent]
          exact .inl isHeld
        · rcases support with isWoken | isRequested
          · exact .inr (.inl isWoken)
          · exact .inr (.inr (skips isRequested isEvent))
    · cases stepped
      refine inv.advance state.recoveryRequested state.recoverAdoptions noCurrent.symm running
        rfl ?_ (fun _ => scanning) (retries_of_current rfl) ownLater
      intro _ _
      exact .inr (.inl rfl)
    · have unlocked : state.enqueuing = none := by simpa using locked
      have requested : ∀ next : SchedulerState, next.phase = .refilling refill remaining →
          event ∈ next.held → next.recoveryWake = state.recoveryWake →
          state.recoveryWake = true ∨ Requested target state →
          .refresh target ∈ next.held ∨ next.recoveryWake = true ∨ Requested target next := by
        intro next isPhase isHeld sameWake support
        by_cases isEvent : event = .refresh target
        · rw [← isEvent]
          exact .inl isHeld
        · rcases support with isWoken | isRequested
          · exact .inr (.inl (sameWake.trans isWoken))
          · have later := skips isRequested isEvent
            rw [Requested] at later ⊢
            rw [isPhase]
            exact .inr (.inr later)
      split at stepped
      · rename_i instant
        cases stepped
        have held := held_delay { state with scheduled := insert event state.scheduled } instant event
          (.refilling refill remaining)
        have grown := held.trans (perm_middle.trans (List.Perm.of_eq
          (show event :: (state.queued ++ []) = event :: state.held by
            rw [SchedulerState.held, noCurrent]; rfl)))
        refine inv.add running isScheduled grown rfl rfl rfl unlocked ?_ noCurrent.symm ?_
          (fun _ => scanning) (fun _ => rfl) (retries_of_current rfl) ownFirst ownLater
        · exact fun other isOwed => .inl isOwed
        · exact requested _ rfl (grown.mem_iff.mpr mem_cons_self) rfl
      · cases stepped
        have grown := held_push_ready { state with scheduled := insert event state.scheduled } event
          (.refilling refill remaining) noCurrent.symm
        refine inv.add running isScheduled grown rfl rfl rfl unlocked ?_ noCurrent.symm ?_
          (fun _ => scanning) (fun _ => rfl) (retries_of_current rfl) ownFirst ownLater
        · exact fun other isOwed => .inl isOwed
        · exact requested _ rfl (grown.mem_iff.mpr mem_cons_self) rfl
  · cases stepped

theorem dispatch_invariant
    (stepped : dispatch state = some later) : SchedulerInvariant target later := by
  unfold dispatch at stepped
  split at stepped
  · rename_i isDispatch
    have noCurrent : state.phase.current = none := by rw [isDispatch]; rfl
    have running : state.phase.running = true := by rw [isDispatch]; rfl
    split at stepped
    · rename_i event rest isReady
      cases stepped
      refine inv.move ?_ rfl rfl rfl rfl Finset.sdiff_subset (fun _ => running) ?_ ?_ ?_
        (fun _ => rfl) ?_ ?_
      · have before : state.held =
            state.channel ++ event :: (rest ++ state.delayed.map snd) := by
          rw [held, noCurrent, queued, isReady]
          simp
        have behind := perm_append_singleton event
          (state.channel ++ (rest ++ state.delayed.map snd))
        rw [before]
        refine List.Perm.trans ?_ (behind.trans perm_middle.symm)
        simp [held, queued, Phase.current]
      · intro isCurrent isOwed
        obtain rfl : event = .refresh target := Option.some.inj isCurrent
        simp [owing] at isOwed
      · intro _ _ support
        rcases support with isWoken | isRequested
        · exact .inr (.inl isWoken)
        · rw [Requested, isDispatch] at isRequested
          exact .inr (.inr isRequested)
      · intro scans
        cases scans
      · intro other isRetrying
        cases isRetrying
      · intro other found
        cases found
    · cases stepped
      refine inv.advance state.recoveryRequested state.recoverAdoptions noCurrent.symm running
        rfl ?_ (fun scans => by cases scans) (retries_of_current rfl)
        (fun other found => by cases found)
      intro _ isRequested
      rw [Requested, isDispatch] at isRequested
      exact isRequested
  · cases stepped

theorem receive_invariant
    (stepped : receive state = some later) : SchedulerInvariant target later := by
  unfold receive at stepped
  split at stepped
  · rename_i event rest isWaiting isChannel
    have noCurrent : state.phase.current = none := by rw [isWaiting]; rfl
    cases stepped
    refine inv.move ?_ rfl rfl rfl rfl (Finset.Subset.refl _)
      (fun _ => by rw [isWaiting]; rfl) ?_ ?_ (fun scans => by cases scans) (fun _ => rfl)
      (retries_of_current rfl) (fun other found => by cases found)
    · have before : state.held =
          event :: (rest ++ state.ready ++ state.delayed.map snd) := by
        rw [held, noCurrent, queued, isChannel]
        simp
      rw [before]
      refine List.Perm.trans (List.Perm.of_eq ?_) perm_middle
      simp [held, queued, Phase.current]
    · intro isCurrent
      cases isCurrent
    · intro _ _ support
      rcases support with isWoken | isRequested
      · exact .inr (.inl isWoken)
      · rw [Requested, isWaiting] at isRequested
        exact .inr (.inr isRequested)
  · cases stepped

theorem wake_invariant (stepped : wake state = some later) : SchedulerInvariant target later := by
  unfold wake at stepped
  split_ifs at stepped with waiting
  cases stepped
  refine inv.move (List.Perm.of_eq ?_) rfl rfl rfl rfl (Finset.Subset.refl _)
    (fun _ => by rw [waiting.1]; rfl) ?_ ?_ (fun scans => by cases scans) (fun _ => rfl)
    (retries_of_current rfl) (fun other found => by cases found)
  · rw [held, held, waiting.1]
    rfl
  · intro isCurrent
    cases isCurrent
  · intro _ _ _
    exact .inr (.inr rfl)

theorem sleepOver_invariant
    (stepped : sleepOver state = some later) : SchedulerInvariant target later := by
  unfold sleepOver at stepped
  split_ifs at stepped with waiting
  cases stepped
  refine inv.advance state.recoveryRequested state.recoverAdoptions
    (by rw [waiting.1]; rfl) (by rw [waiting.1]; rfl) rfl ?_ (fun scans => by cases scans)
    (retries_of_current rfl) (fun other found => by cases found)
  intro _ isRequested
  rw [Requested, waiting.1] at isRequested
  exact isRequested

theorem processed_invariant (stepped : processed succeeded state = some later) :
    SchedulerInvariant target later := by
  unfold processed at stepped
  split at stepped
  · rename_i event isExecuting
    cases stepped
    have goesOn : ∀ phase : Phase, phase.current = some event → phase.running = true →
        phase.scanning = false → phase.remaining = [] → (∀ event, phase ≠ .retrying event false) →
        Requested target { state with phase := phase } = (state.recoveryRequested = true) →
        SchedulerInvariant target { state with phase := phase } := by
      intro phase isCurrent isRunning noScan noRemaining unretried requested
      refine inv.advance state.recoveryRequested state.recoverAdoptions
        (by rw [isCurrent, isExecuting]; rfl) (by rw [isExecuting]; rfl) isRunning ?_ ?_
        (fun other isRetrying => absurd isRetrying (unretried other)) ?_
      · intro _ isRequested
        rw [Requested, isExecuting] at isRequested
        exact requested.mpr isRequested
      · intro scans
        rw [noScan] at scans
        cases scans
      · intro other found
        rw [noRemaining] at found
        cases found
    cases succeeded with
    | true => exact goesOn (.completing event) rfl rfl rfl rfl (by simp) rfl
    | false => exact goesOn (.retrying event true) rfl rfl rfl rfl (by simp) rfl
  · cases stepped

end

theorem SchedulerInvariant.finish (inv : SchedulerInvariant target state)
    (isCurrent : state.phase.current = some event) (running : state.phase.running)
    (unlocked : state.enqueuing = none) {dirty : Finset ResolutionEvent}
    {markers : KeyedMap ResolutionEventTarget.resolutionId}
    (marked : target ∈ state.owed → target ∈ markers.values)
    (own : ∀ other ∈ markers.values, other ∈ state.pendingObservations.values) :
    SchedulerInvariant target (finished event
      { state with
        dirtyRefreshes := dirty
        pendingObservations := markers }) := by
  have isHeld : state.held = state.queued ++ [event] := by
    rw [held, isCurrent]
    rfl
  have distinct := inv.distinct
  rw [isHeld, nodup_append] at distinct
  have remains : held (finished event { state with
        dirtyRefreshes := dirty
        pendingObservations := markers }) = state.queued := append_nil _
  refine ⟨?_, ?_, marked, ?_, ?_, ?_, ?_, ?_, retries_of_current rfl, ?_, ?_⟩
  · rw [remains]
    exact distinct.1
  · intro _ other
    rw [remains]
    show other ∈ state.scheduled.erase event ↔ _
    rw [Finset.mem_erase, inv.scheduled running, isHeld, mem_append, mem_singleton]
    constructor
    · rintro ⟨different, queued | same⟩
      · exact queued
      · exact absurd same different
    · intro queued
      exact ⟨distinct.2.2 other queued event (mem_singleton.mpr rfl), .inl queued⟩
  · intro isEnqueuing
    rw [show state.enqueuing = _ from isEnqueuing] at unlocked
    cases unlocked
  · intro none
    cases none
  · intro _ _
    exact .inr (.inr rfl)
  · intro scans
    cases scans
  · intro _
    rfl
  · exact fun other member => inv.ownMarker other (own other member)
  · intro other member
    rw [remains] at member
    refine inv.ownEvent other ?_
    rw [isHeld]
    simp only [append_assoc, mem_append] at member ⊢
    rcases member with queued | isEnqueuing | found
    · exact .inl queued
    · exact .inr (.inr (.inl isEnqueuing))
    · cases found

section

variable (inv : SchedulerInvariant target state)
include inv

theorem completeEvent_invariant (stepped : completeEvent fate state = some later) :
    SchedulerInvariant target later := by
  unfold completeEvent at stepped
  split at stepped
  · rename_i event isCompleting
    have isCurrent : state.phase.current = some event := by rw [isCompleting]; rfl
    have running : state.phase.running = true := by rw [isCompleting]; rfl
    by_cases locked : state.enqueuing.isSome = true
    · rw [if_pos locked] at stepped
      cases stepped
    rw [if_neg locked] at stepped
    have unlocked : state.enqueuing = none := by simpa using locked
    cases event with
    | refresh observed =>
      split_ifs at stepped with isDirty
      · cases stepped
        exact inv.finish isCurrent running unlocked inv.marked fun _ member => member
      · cases fate with
        | done =>
          cases stepped
          refine inv.finish isCurrent running unlocked ?_ ?_
          · intro isOwed
            refine KeyedMap.mem_erase.mpr ⟨inv.marked isOwed, ?_⟩
            intro same
            have isTarget : observed = target := by
              refine inv.ownEvent observed ?_ same.symm
              rw [held, isCurrent]
              simp
            rw [isTarget] at isCurrent isDirty
            exact isDirty (inv.dirty isCurrent isOwed)
          · exact fun other member => (KeyedMap.mem_erase.mp member).1
        | failed =>
          cases stepped
          refine inv.advance state.recoveryRequested state.recoverAdoptions isCurrent.symm
            running rfl ?_ (fun scans => by cases scans) ?_ (fun other found => by cases found)
          · intro _ isRequested
            rw [Requested, isCompleting] at isRequested
            exact isRequested
          · intro event isRetrying
            cases isRetrying
            exact ⟨observed, rfl⟩
    | deliver observed | recoverAdoption job =>
      cases stepped
      exact inv.finish isCurrent running unlocked inv.marked fun _ member => member
  · cases stepped

theorem SchedulerInvariant.delay
    (isCurrent : state.phase.current = some event) (running : state.phase.running)
    (requested : Requested target state → state.recoveryRequested = true) (instant : Instant) :
    SchedulerInvariant target
      { state with
        delayed := delayUntil instant event state.delayed
        phase := .top } := by
  refine inv.move ?_ rfl rfl rfl rfl (Finset.Subset.refl _) (fun _ => running) ?_ ?_
    (fun scans => by cases scans) (fun _ => rfl) (retries_of_current rfl)
    (fun other found => by cases found)
  · refine (held_delay state instant event .top).trans (List.Perm.of_eq ?_)
    rw [held, isCurrent]
    rfl
  · intro none
    cases none
  · intro _ _ support
    rcases support with isWoken | isRequested
    · exact .inr (.inl isWoken)
    · exact .inr (.inr (requested isRequested))

theorem persistRetry_invariant (stepped : persistRetry deadline state = some later) :
    SchedulerInvariant target later := by
  unfold persistRetry at stepped
  split at stepped
  · rename_i event afterProcess isRetrying
    have isCurrent : state.phase.current = some event := by rw [isRetrying]; rfl
    have running : state.phase.running = true := by rw [isRetrying]; rfl
    have requested : Requested target state → state.recoveryRequested = true := by
      intro isRequested
      rwa [Requested, isRetrying] at isRequested
    cases event with
    | refresh observed =>
      cases deadline with
      | none => cases stepped
      | some instant =>
        cases stepped
        have own : observed.resolutionId = target.resolutionId → observed = target := by
          refine inv.ownEvent observed ?_
          rw [held, isCurrent]
          simp
        exact (inv.mark own (.inl rfl)).delay isCurrent running requested
          instant
    | deliver observed =>
      cases deadline with
      | some instant =>
        cases stepped
        exact inv.delay isCurrent running requested instant
      | none =>
        split_ifs at stepped with after locked
        · cases stepped
          exact inv.finish isCurrent running (by simpa using locked) inv.marked
            fun _ member => member
        · rw [Bool.not_eq_true] at after
          rw [after] at isRetrying
          obtain ⟨other, isRefresh⟩ := inv.retries _ isRetrying
          cases isRefresh
    | recoverAdoption job =>
      cases deadline with
      | none => cases stepped
      | some instant =>
        cases stepped
        exact inv.delay isCurrent running requested instant
  · cases stepped

theorem cancel_invariant
    (stepped : cancel state = some later) : SchedulerInvariant target later := by
  unfold cancel at stepped
  split_ifs at stepped with leaves
  have noCurrent : state.phase.current = none := by
    rcases leaves with isTop | isWaiting
    · rw [isTop]
      rfl
    · rw [isWaiting]
      rfl
  cases stepped
  refine inv.move (List.Perm.of_eq ?_) rfl rfl rfl rfl (Finset.Subset.refl _)
    (fun runs => by cases runs) ?_ (fun runs => by cases runs) (fun scans => by cases scans)
    (fun isOpen => by cases isOpen) (retries_of_current rfl) (fun other found => by cases found)
  · rw [held, held, noCurrent]
    rfl
  · intro isCurrent
    cases isCurrent

end

section

variable (inv : SchedulerInvariant target state)
include inv

theorem SchedulerInvariant.stop (phase : later.phase = .stopped) (held : later.held = [])
    (closed : later.closed = true) (markers : later.pendingObservations = state.pendingObservations)
    (enqueuing : later.enqueuing = state.enqueuing) (owed : later.owed = state.owed) :
    SchedulerInvariant target later := by
  refine ⟨?_, ?_, ?_, ?_, ?_, ?_, ?_, ?_, ?_, ?_, ?_⟩
  · rw [held]
    exact nodup_nil
  · rw [phase]
    intro runs
    cases runs
  · rw [owed, markers]
    exact inv.marked
  · rw [enqueuing, markers]
    exact inv.marking
  · rw [phase]
    intro isCurrent
    cases isCurrent
  · rw [phase]
    intro runs
    cases runs
  · rw [phase]
    intro scans
    cases scans
  · rw [closed]
    intro isOpen
    cases isOpen
  · rw [phase]
    exact retries_of_current rfl
  · rw [markers]
    exact inv.ownMarker
  · intro other member
    rw [held, phase, enqueuing] at member
    refine inv.ownEvent other (mem_append_left _ (mem_append_right _ ?_))
    simpa [Phase.remaining] using member

theorem clear_invariant (stepped : clear state = some later) : SchedulerInvariant target later := by
  unfold clear at stepped
  split_ifs at stepped with closing
  cases stepped
  refine inv.stop rfl rfl ?_ rfl rfl rfl
  by_contra isOpen
  have runs := inv.alive (by simpa using isOpen)
  rw [closing.1] at runs
  cases runs

theorem abort_invariant (stepped : abort state = some later) : SchedulerInvariant target later := by
  unfold abort at stepped
  split at stepped
  · cases stepped
    exact inv.stop rfl rfl rfl rfl rfl rfl
  · cases stepped
    exact inv.stop rfl rfl rfl rfl rfl rfl
  · cases stepped

end

end

section

def SchedulerLabel.targets : SchedulerLabel → List ResolutionEventTarget
  | .enqueue (.refresh target) _ => [target]
  | .observed target => [target]
  | .listedObservations targets => targets
  | .enqueue (.deliver _) _ | .enqueue (.recoverAdoption _) _ | .enqueued | .notified | .turned _
  | .listedDeliveries _ | .listedAdoptions _ | .refilled | .dispatched | .received | .woken
  | .slept | .processed _ | .completed _ | .retried _ | .cancelled | .cleared | .aborted => []

def OwnsResolution (target : ResolutionEventTarget) (targets : List ResolutionEventTarget) : Prop :=
  ∀ other ∈ targets, other.resolutionId = target.resolutionId → other = target

variable {first state later : SchedulerState} {labels : List SchedulerLabel}

theorem Spawned.invariant (spawned : Spawned state)
    (own : OwnsResolution target state.pendingObservations.values) :
    SchedulerInvariant target state := by
  have held : state.held = [] := by
    rw [held, queued, spawned.channel, spawned.ready,
      spawned.delayed, spawned.phase]
    rfl
  refine ⟨?_, ?_, ?_, ?_, ?_, ?_, ?_, ?_, ?_, own, ?_⟩
  · rw [held]
    exact nodup_nil
  · intro _ event
    rw [spawned.scheduled, held]
    simp
  · rw [spawned.owed]
    intro isOwed
    cases isOwed
  · rw [spawned.enqueuing]
    intro isEnqueuing
    cases isEnqueuing
  · rw [spawned.phase]
    intro isCurrent
    cases isCurrent
  · rw [spawned.owed]
    intro _ isOwed
    cases isOwed
  · exact fun _ => spawned.recoveryRequested
  · rw [spawned.phase]
    exact fun _ => rfl
  · rw [spawned.phase]
    exact retries_of_current rfl
  · intro other member
    rw [held, spawned.enqueuing, spawned.phase] at member
    cases member

theorem schedulerStep_invariant (inv : SchedulerInvariant target state)
    (own : OwnsResolution target label.targets)
    (stepped : schedulerStep capacity state label = some later) :
    SchedulerInvariant target later := by
  cases label with
  | enqueue event fate =>
    refine enqueue_invariant inv ?_ stepped
    rintro other rfl
    exact own other (mem_singleton.mpr rfl)
  | enqueued => exact finishEnqueue_invariant inv stepped
  | observed observed =>
    cases stepped
    exact inv.mark (own observed (mem_singleton.mpr rfl)) (.inl rfl)
  | notified =>
    cases stepped
    refine ⟨inv.distinct, inv.scheduled, inv.marked, inv.marking, inv.dirty, ?_, inv.scanning,
      inv.alive, inv.retries, inv.ownMarker, inv.ownEvent⟩
    exact fun _ _ => .inr (.inl rfl)
  | turned now => exact turn_invariant inv stepped
  | listedDeliveries pending => exact listDeliveries_invariant inv stepped
  | listedObservations targets => exact listObservations_invariant inv own stepped
  | listedAdoptions jobs => exact listAdoptions_invariant inv stepped
  | refilled => exact refillOne_invariant inv stepped
  | dispatched => exact dispatch_invariant inv stepped
  | received => exact receive_invariant inv stepped
  | woken => exact wake_invariant inv stepped
  | slept => exact sleepOver_invariant inv stepped
  | processed succeeded => exact processed_invariant inv stepped
  | completed fate => exact completeEvent_invariant inv stepped
  | retried deadline => exact persistRetry_invariant inv stepped
  | cancelled => exact cancel_invariant inv stepped
  | cleared => exact clear_invariant inv stepped
  | aborted => exact abort_invariant inv stepped

def SchedulerStep (capacity : Nat) (state : SchedulerState) (label : SchedulerLabel)
    (later : SchedulerState) : Prop :=
  schedulerStep capacity state label = some later

def Awaited (target : ResolutionEventTarget) (state : SchedulerState) : Prop :=
  .refresh target ∈ state.channel ∨ .refresh target ∈ state.ready ∨
    .refresh target ∈ state.delayed.map snd ∨ .refresh target ∈ state.dirtyRefreshes ∨
    state.recoveryRequested = true ∨ state.recoveryWake = true

theorem SchedulerInvariant.awaited (inv : SchedulerInvariant target state)
    (running : state.phase.running) (isOwed : target ∈ state.owed) : Awaited target state := by
  rcases inv.supported running isOwed with isHeld | isWoken | isRequested
  · rcases mem_append.mp isHeld with queued | inHand
    · simp only [SchedulerState.queued, mem_append] at queued
      rcases queued with (inChannel | isReady) | isDelayed
      · exact .inl inChannel
      · exact .inr (.inl isReady)
      · exact .inr (.inr (.inl isDelayed))
    · have isDirty := inv.dirty (by simpa using inHand) isOwed
      exact .inr (.inr (.inr (.inl isDirty)))
  · exact .inr (.inr (.inr (.inr (.inr isWoken))))
  · have requested : state.recoveryRequested = true := by
      cases isPhase : state.phase with
      | listing refill | refilling refill remaining => exact inv.scanning (by rw [isPhase]; rfl)
      | _ => simpa [Requested, isPhase] using isRequested
    exact .inr (.inr (.inr (.inr (.inl requested))))

/-- Until it is started, a refresh that was accepted has its marker, and is awaited while the loop
runs; no event is held twice, so none is executed twice at once. -/
theorem accepted_refresh_not_lost (spawned : Spawned first)
    (markers : OwnsResolution target first.pendingObservations.values)
    (run : Trace (SchedulerStep capacity) first labels last)
    (own : ∀ label ∈ labels, OwnsResolution target label.targets) :
    (target ∈ last.owed → target ∈ last.pendingObservations.values ∧
      (last.phase.running → Awaited target last)) ∧ last.held.Nodup := by
  have inv : SchedulerInvariant target last := by
    induction run with
    | nil => exact spawned.invariant markers
    | snoc _ taken ih =>
      have earlier := ih fun label member => own label (mem_append_left _ member)
      exact schedulerStep_invariant earlier (own _ (by simp)) taken
  refine ⟨fun isOwed => ⟨inv.marked isOwed, fun running => inv.awaited running isOwed⟩, ?_⟩
  exact inv.distinct

end

namespace TwoDisputes

def left : ResolutionEventTarget := ⟨"dispute_1", "resolution_1"⟩

def right : ResolutionEventTarget := ⟨"dispute_2", "resolution_1"⟩

def start : SchedulerState where
  channel := []
  closed := false
  scheduled := ∅
  dirtyRefreshes := ∅
  recoveryWake := false
  pendingObservations := .empty
  enqueuing := none
  ready := []
  delayed := []
  recoveryRequested := true
  recoverAdoptions := false
  phase := .top
  owed := ∅

theorem spawned : Spawned start := ⟨rfl, rfl, rfl, rfl, rfl, rfl, rfl, rfl⟩

def idles : List SchedulerLabel :=
  [.turned 0, .listedDeliveries [], .refilled, .listedObservations [], .refilled, .dispatched]

def asks (target : ResolutionEventTarget) : List SchedulerLabel :=
  [.enqueue (.refresh target) .done, .enqueued]

def collides : List SchedulerLabel :=
  idles ++ asks left ++ asks right ++
    [.received, .turned 0, .dispatched, .processed true, .completed .done]

def leaves : List SchedulerLabel := idles ++ asks left ++ [.cancelled, .cleared]

def reached (labels : List SchedulerLabel) : Option SchedulerState :=
  Trace.execute (schedulerStep 4) start labels

theorem reached_run {labels : List SchedulerLabel} (isLast : reached labels = some last) :
    Trace (SchedulerStep 4) start labels last :=
  Trace.of_execute isLast

/-- The first of two refreshes under one id takes the marker of the other; and behind the end of
the loop nothing but the marker is left of a refresh. -/
theorem refresh_lost :
    (∃ labels last, Trace (SchedulerStep 4) start labels last ∧ last.phase.running ∧
      right ∈ last.owed ∧ right ∉ last.pendingObservations.values) ∧
    ∃ labels last, Trace (SchedulerStep 4) start labels last ∧ left ∈ last.owed ∧
      ¬Awaited left last := by
  constructor
  · have facts : (reached collides).map (fun last => decide (last.phase.running ∧
        right ∈ last.owed ∧ right ∉ last.pendingObservations.values)) = some true := by decide
    obtain ⟨last, isLast, holds⟩ := Option.map_eq_some_iff.mp facts
    exact ⟨collides, last, reached_run isLast, of_decide_eq_true holds⟩
  · have facts : (reached leaves).map (fun last => decide (left ∈ last.owed ∧
        .refresh left ∉ last.channel ++ last.ready ++ last.delayed.map snd ∧
        .refresh left ∉ last.dirtyRefreshes ∧ last.recoveryRequested = false ∧
        last.recoveryWake = false)) = some true := by decide
    obtain ⟨last, isLast, holds⟩ := Option.map_eq_some_iff.mp facts
    obtain ⟨isOwed, unqueued, clean, unrequested, asleep⟩ := of_decide_eq_true holds
    refine ⟨leaves, last, reached_run isLast, isOwed, ?_⟩
    simp only [mem_append, not_or] at unqueued
    simp [Awaited, unqueued, clean, unrequested, asleep]

/-- One dispute alone keeps its refresh. -/
theorem refresh_kept : ∃ last, reached (idles ++ asks left) = some last ∧ left ∈ last.owed ∧
    left ∈ last.pendingObservations.values ∧ Awaited left last := by
  have facts : (reached (idles ++ asks left)).map (fun last => decide (left ∈ last.owed ∧
      last.phase.running)) = some true := by decide
  obtain ⟨last, isLast, holds⟩ := Option.map_eq_some_iff.mp facts
  obtain ⟨isOwed, running⟩ := of_decide_eq_true holds
  have own : ∀ label ∈ idles ++ asks left, OwnsResolution left label.targets := by
    unfold OwnsResolution
    decide
  have markers : OwnsResolution left start.pendingObservations.values := by
    intro other member
    cases member
  have kept := accepted_refresh_not_lost spawned markers (reached_run isLast) own
  obtain ⟨isMarked, awaited⟩ := kept.1 isOwed
  exact ⟨last, isLast, isOwed, isMarked, awaited running⟩

end TwoDisputes

end AgentClaimNetwork.Maintainer
