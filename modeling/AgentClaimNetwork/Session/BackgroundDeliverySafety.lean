import AgentClaimNetwork.Session.BackgroundDelivery

/-!
Completions reach the main model once, unless the completion lock is let go of with an append
still in the hands of the journal thread.
-/

namespace AgentClaimNetwork.Session.BackgroundDelivery

open Library Tool List

variable {Stamp History : Type} {turn : TurnRun Stamp}

section

variable {events later : List (Event Stamp)}

theorem lt_nextSeq (listed : event ∈ events) (room : nextSeq events < maxSeq) :
    event.seq < nextSeq events := by
  have high : event.seq ≤ events.foldl (fun highest event => max highest event.seq) 0 :=
    seq_le_foldl_max listed 0
  unfold nextSeq at room ⊢
  omega

theorem nextSeq_pos (events : List (Event Stamp)) : 0 < nextSeq events := by
  unfold nextSeq maxSeq
  omega

theorem mem_journaledInstances : allocation ∈ journaledInstances events ↔
      ∃ event ∈ events, ∃ completion, completionOf event = some completion ∧
        completion.allocation = allocation := by
  unfold journaledInstances
  simp only [mem_map, mem_filterMap]
  constructor
  · rintro ⟨completion, ⟨event, listed, isCompletion⟩, same⟩
    exact ⟨event, listed, completion, isCompletion, same⟩
  · rintro ⟨event, listed, completion, isCompletion, same⟩
    exact ⟨completion, ⟨event, listed, isCompletion⟩, same⟩

theorem journaledInstances_append (events later : List (Event Stamp)) :
    journaledInstances (events ++ later) =
      journaledInstances events ++ journaledInstances later := by
  unfold journaledInstances
  rw [filterMap_append, map_append]

theorem completionOf_completed (seq : Nat) (createdAt : Stamp)
    (turn : completion.originatingTurnId = some turnId)
    (toolUse : completion.originatingToolUseId = some toolUseId) :
    completionOf ⟨seq, turnId, createdAt, completedKind toolUseId completion⟩ =
      some completion := by
  cases completion
  cases turn
  cases toolUse
  rfl

theorem mem_prefix_of_seq_le (rising : later.Pairwise fun before after => before.seq < after.seq)
    (isPrefix : events <+: later) (listed : event ∈ later) (isLast : last ∈ events)
    (low : event.seq ≤ last.seq) : event ∈ events := by
  obtain ⟨rest, rfl⟩ := isPrefix
  rcases mem_append.mp listed with early | late
  · exact early
  · have above := (pairwise_append.mp rising).2.2 last isLast event late
    omega

def Reached (events : List (Event Stamp)) (seq : Nat) : Prop :=
  seq = 0 ∨ ∃ event ∈ events, event.seq = seq

theorem Reached.mono (reached : Reached events seq) (isPrefix : events <+: later) :
    Reached later seq :=
  reached.imp_right fun ⟨event, listed, same⟩ => ⟨event, isPrefix.subset listed, same⟩

theorem foldl_max_reached (events : List (Event Stamp)) (first : Nat) :
    events.foldl (fun passed event => max passed event.seq) first = first ∨
      ∃ event ∈ events,
        event.seq = events.foldl (fun passed event => max passed event.seq) first := by
  induction events generalizing first with
  | nil => exact .inl rfl
  | cons event events ih =>
    rcases ih (max first event.seq) with unchanged | ⟨other, listed, same⟩
    · rw [foldl_cons, unchanged]
      rcases le_total event.seq first with low | high
      · exact .inl (max_eq_left low)
      · exact .inr ⟨event, mem_cons_self, (max_eq_right high).symm⟩
    · exact .inr ⟨other, mem_cons_of_mem _ listed, same⟩

end

/-- The manager, the journal, the stored cursor and the successful requests agree. -/
structure Ledger (manager : ProcessManager) (journal : List (Event Stamp)) (stored : Nat)
    (succeeded : List (List BackgroundProjection)) : Prop where
  sound : manager.Sound (journaledInstances journal)
  rising : journal.Pairwise fun before after => before.seq < after.seq
  genuine : ∀ event ∈ journal, ∀ completion, completionOf event = some completion →
    manager.Ended completion
  once : (journaledInstances journal).Nodup
  reached : Reached journal stored
  delivered : ∀ event ∈ journal, ∀ completion, completionOf event = some completion →
    event.seq ≤ stored →
      ∃ request ∈ succeeded, ∃ projection ∈ request, projection.Shows completion

def Idle (queue : List (IoRequest Stamp)) : Prop :=
  ∀ request ∈ queue, request = ⟨.openWriter, false⟩

/-- What the journal thread still has to do: opens nobody waits for, and then what the holder of
the completion lock waits for. -/
inductive QueueFits : List (IoRequest Stamp) → Option Persisting → Prop
  | free {queue} : Idle queue → QueueFits queue none
  | checking {queue party todo journaled} : Idle queue →
      QueueFits queue (some ⟨party, todo, journaled, .checking⟩)
  | opening {queue party todo journaled} : Idle queue →
      QueueFits (queue ++ [⟨.openWriter, true⟩]) (some ⟨party, todo, journaled, .opening⟩)
  | appending {queue party completion rest journaled turnId toolUseId} (createdAt : Stamp) :
      Idle queue → completion.originatingTurnId = some turnId →
      completion.originatingToolUseId = some toolUseId →
      completion.allocation ∉ journaled →
      QueueFits (queue ++ [⟨.append turnId createdAt (completedKind toolUseId completion), true⟩])
        (some ⟨party, completion :: rest, journaled, .appending⟩)

structure Holds (manager : ProcessManager) (journal : List (Event Stamp))
    (turn : Option (TurnRun Stamp)) (persisting : Persisting) : Prop where
  ended : ∀ completion ∈ persisting.todo, manager.Ended completion
  journaled : ∀ allocation,
    allocation ∈ persisting.journaled ↔ allocation ∈ journaledInstances journal
  owner : persisting.party = .turn → ∃ run, turn = some run ∧ run.phase = .persisting

structure OfferFits (journal : List (Event Stamp)) (turn : TurnRun Stamp) (stored : Nat)
    (offer : Offer Stamp) : Prop where
  current : turn.untilSeq = stored
  read : offer.events <+: journal
  reached : Reached offer.events turn.deliverySeq
  fresh : ∀ event ∈ offer.fresh, stored < event.seq
  shows : ∀ event ∈ offer.events, ∀ completion, completionOf event = some completion →
    stored < event.seq → offer.projection.Shows completion

def PhaseFits (manager : ProcessManager) (journal : List (Event Stamp)) (stored : Nat)
    (succeeded : List (List BackgroundProjection)) (turn : TurnRun Stamp) : Prop :=
  match turn.phase with
  | .ready | .rolledBack | .persisting | .persisted =>
    turn.untilSeq = stored ∧ Reached journal turn.deliverySeq
  | .frozen completions =>
    (turn.untilSeq = stored ∧ Reached journal turn.deliverySeq) ∧
      ∀ completion ∈ completions, manager.Ended completion
  | .observed events =>
    turn.untilSeq = stored ∧ events <+: journal ∧ Reached events turn.deliverySeq
  | .offering offer => OfferFits journal turn stored offer
  | .requesting offer => OfferFits journal turn stored offer ∧ offer.projection ∈ turn.messages
  | .answered offer =>
    OfferFits journal turn stored offer ∧ ∃ request ∈ succeeded, offer.projection ∈ request
  | .stored => max turn.untilSeq turn.deliverySeq = stored

structure TurnFits (manager : ProcessManager) (journal : List (Event Stamp)) (stored : Nat)
    (succeeded : List (List BackgroundProjection)) (turn : TurnRun Stamp) : Prop where
  ahead : turn.deliverySeq = 0 ∨ turn.untilSeq < turn.deliverySeq
  phase : PhaseFits manager journal stored succeeded turn

structure Invariant (delivery : Delivery Stamp History) : Prop where
  ledger : Ledger delivery.manager delivery.journal delivery.storedSeq delivery.succeeded
  queue : QueueFits delivery.ioQueue delivery.lock
  holds : ∀ persisting, delivery.lock = some persisting →
    Holds delivery.manager delivery.journal delivery.turn persisting
  waiting : ∀ completions ∈ delivery.drains, ∀ completion ∈ completions,
    delivery.manager.Ended completion
  turn : ∀ turn, delivery.turn = some turn →
    TurnFits delivery.manager delivery.journal delivery.storedSeq delivery.succeeded turn

section

variable {manager after : ProcessManager} {journal : List (Event Stamp)}
  {succeeded : List (List BackgroundProjection)}

section

variable (ledger : Ledger manager journal stored succeeded)
include ledger

theorem Ledger.change (sound : after.Sound (journaledInstances journal))
    (still : ∀ completion, manager.Ended completion → after.Ended completion) :
    Ledger after journal stored succeeded :=
  { ledger with
    sound
    genuine := fun event listed completion isCompletion =>
      still _ (ledger.genuine event listed completion isCompletion) }

theorem Ledger.append (numbered : event.seq = nextSeq journal) (room : nextSeq journal < maxSeq)
    (novel : ∀ completion, completionOf event = some completion → manager.Ended completion ∧
      completion.allocation ∉ journaledInstances journal) :
    Ledger manager (journal ++ [event]) stored succeeded where
  sound := by
    refine ledger.sound.journal_more fun allocation listed => ?_
    rw [journaledInstances_append]
    exact mem_append_left _ listed
  rising := by
    refine pairwise_append.mpr ⟨ledger.rising, pairwise_singleton _ _, ?_⟩
    intro earlier listed last isLast
    cases mem_singleton.mp isLast
    rw [numbered]
    exact lt_nextSeq listed room
  genuine other listed completion isCompletion := by
    rcases mem_concat listed with early | rfl
    · exact ledger.genuine other early completion isCompletion
    · exact (novel completion isCompletion).1
  once := by
    rw [journaledInstances_append]
    refine nodup_append.mpr ⟨ledger.once, ?_, ?_⟩
    · unfold journaledInstances
      cases found : completionOf event with
      | none | some completion => simp [found]
    · intro allocation old again isAgain same
      obtain ⟨other, isOther, completion, isCompletion, rfl⟩ := mem_journaledInstances.mp isAgain
      cases mem_singleton.mp isOther
      exact (novel completion isCompletion).2 (same ▸ old)
  reached := ledger.reached.mono (prefix_append _ _)
  delivered other listed completion isCompletion passed := by
    rcases mem_concat listed with early | rfl
    · exact ledger.delivered other early completion isCompletion passed
    · rcases ledger.reached with nothing | ⟨last, isLast, rfl⟩
      · have := nextSeq_pos journal
        omega
      · have := lt_nextSeq isLast room
        omega

theorem Ledger.succeed : Ledger manager journal stored (succeeded ++ [request]) :=
  { ledger with
    delivered := fun event listed completion isCompletion passed =>
      let ⟨other, isOther, shown⟩ := ledger.delivered event listed completion isCompletion passed
      ⟨other, mem_append_left _ isOther, shown⟩ }

end

variable {later : List (Event Stamp)}

theorem OfferFits.grow (fits : OfferFits journal turn stored offer) (grows : journal <+: later) :
    OfferFits later turn stored offer :=
  { fits with read := fits.read.trans grows }

theorem TurnFits.grow (fits : TurnFits manager journal stored succeeded turn)
    (grows : journal <+: later)
    (still : ∀ completion, manager.Ended completion → after.Ended completion) :
    TurnFits after later stored succeeded turn where
  ahead := fits.ahead
  phase := by
    have phase := fits.phase
    unfold PhaseFits at phase ⊢
    split at phase
    · exact ⟨phase.1, phase.2.mono grows⟩
    · exact ⟨phase.1, phase.2.mono grows⟩
    · exact ⟨phase.1, phase.2.mono grows⟩
    · exact ⟨phase.1, phase.2.mono grows⟩
    · exact ⟨⟨phase.1.1, phase.1.2.mono grows⟩, fun completion listed =>
        still _ (phase.2 completion listed)⟩
    · exact ⟨phase.1, phase.2.1.trans grows, phase.2.2⟩
    · exact phase.grow grows
    · exact ⟨phase.1.grow grows, phase.2⟩
    · exact ⟨phase.1.grow grows, phase.2⟩
    · exact phase

end

section

variable {queue : List (IoRequest Stamp)}

theorem Idle.abandon (idle : Idle queue) : Idle (queue.map IoRequest.abandon) := by
  intro request listed
  obtain ⟨before, isBefore, rfl⟩ := mem_map.mp listed
  rw [idle before isBefore]
  rfl

theorem QueueFits.idle (fits : QueueFits queue none) : Idle queue := by
  cases fits with
  | free idle => exact idle

theorem QueueFits.checked (fits : QueueFits queue (some ⟨party, todo, journaled, .checking⟩)) :
    Idle queue := by
  cases fits with
  | checking idle => exact idle

theorem QueueFits.abandon (fits : QueueFits queue (some persisting))
    (unasked : persisting.stage ≠ .appending) : Idle (queue.map IoRequest.abandon) := by
  cases fits with
  | checking idle => exact idle.abandon
  | opening idle =>
    intro request listed
    rw [map_append] at listed
    rcases mem_concat listed with early | last
    · exact idle.abandon request early
    · exact last
  | appending => exact absurd rfl unasked

theorem QueueFits.pop (fits : QueueFits (request :: rest) lock) :
    (request = ⟨.openWriter, false⟩ ∧ QueueFits rest lock) ∨
      (rest = [] ∧ request = ⟨.openWriter, true⟩ ∧
        ∃ party todo journaled, lock = some ⟨party, todo, journaled, .opening⟩) ∨
      (rest = [] ∧ ∃ party completion later journaled turnId toolUseId createdAt,
        request = ⟨.append turnId createdAt (completedKind toolUseId completion), true⟩ ∧
        completion.originatingTurnId = some turnId ∧
        completion.originatingToolUseId = some toolUseId ∧
        completion.allocation ∉ journaled ∧
        lock = some ⟨party, completion :: later, journaled, .appending⟩) := by
  generalize whole : request :: rest = queue at fits
  cases fits with
  | free idle =>
    subst whole
    exact .inl ⟨idle request mem_cons_self,
      .free fun other listed => idle other (mem_cons_of_mem _ listed)⟩
  | checking idle =>
    subst whole
    exact .inl ⟨idle request mem_cons_self,
      .checking fun other listed => idle other (mem_cons_of_mem _ listed)⟩
  | @opening queue _ _ _ idle =>
    cases queue with
    | nil =>
      cases whole
      exact .inr (.inl ⟨rfl, rfl, _, _, _, rfl⟩)
    | cons first queue =>
      cases whole
      exact .inl ⟨idle request mem_cons_self,
        .opening fun other listed => idle other (mem_cons_of_mem _ listed)⟩
  | @appending queue _ _ _ _ _ _ createdAt idle turnId toolUse novel =>
    cases queue with
    | nil =>
      cases whole
      exact .inr (.inr ⟨rfl, _, _, _, _, _, _, _, rfl, turnId, toolUse, novel, rfl⟩)
    | cons first queue =>
      cases whole
      exact .inl ⟨idle request mem_cons_self,
        .appending createdAt (fun other listed => idle other (mem_cons_of_mem _ listed))
          turnId toolUse novel⟩

end

namespace Invariant

variable {delivery next : Delivery Stamp History}

theorem created : Invariant (Delivery.created metadata) where
  ledger :=
    { sound := ProcessManager.sound_initial
      rising := List.Pairwise.nil
      genuine := fun _ listed => by cases listed
      once := nodup_nil
      reached := .inl rfl
      delivered := fun _ listed => by cases listed }
  queue := .free fun _ listed => by cases listed
  holds _ held := by cases held
  waiting _ listed := by cases listed
  turn _ running := by cases running

variable (kept : Invariant delivery)

include kept

theorem change {manager : ProcessManager}
    (sound : manager.Sound (journaledInstances delivery.journal))
    (still : ∀ completion, delivery.manager.Ended completion → manager.Ended completion) :
    Invariant { delivery with manager } where
  ledger := kept.ledger.change sound still
  queue := kept.queue
  holds persisting held :=
    { kept.holds persisting held with
      ended := fun completion listed =>
        still _ ((kept.holds persisting held).ended completion listed) }
  waiting completions listed completion isCompletion :=
    still _ (kept.waiting completions listed completion isCompletion)
  turn turn running := (kept.turn turn running).grow prefix_rfl still

theorem setTurn (free : ∀ persisting, delivery.lock = some persisting → persisting.party ≠ .turn)
    (fits : TurnFits delivery.manager delivery.journal delivery.storedSeq delivery.succeeded
      turn) : Invariant { delivery with turn := some turn } where
  ledger := kept.ledger
  queue := kept.queue
  holds persisting held :=
    { kept.holds persisting held with
      owner := fun own => absurd own (free persisting held) }
  waiting := kept.waiting
  turn running isRunning := by
    cases isRunning
    exact fits

theorem release (party : Party) {queue : List (IoRequest Stamp)} (idle : Idle queue) :
    Invariant { delivery.failPersist party with ioQueue := queue } where
  ledger := kept.ledger
  queue := .free idle
  holds _ held := by cases held
  waiting := kept.waiting
  turn turn running := by
    unfold Delivery.failPersist at running
    split at running
    · cases running
    · exact kept.turn turn running

theorem failPersist (idle : Idle (delivery.ioQueue.map IoRequest.abandon)) :
    Invariant (delivery.failPersist party) :=
  kept.release party idle

theorem free (running : delivery.turn = some turn) (elsewhere : turn.phase ≠ .persisting)
    (persisting : Persisting) (held : delivery.lock = some persisting) :
    persisting.party ≠ .turn := by
  intro own
  obtain ⟨run, isRun, phase⟩ := (kept.holds persisting held).owner own
  rw [running] at isRun
  cases isRun
  exact elsewhere phase

omit kept

section

variable (kept : Invariant delivery)
include kept

theorem drain : Invariant delivery.drain := by
  unfold Delivery.drain
  split
  · exact kept
  · refine { kept with waiting := fun completions listed completion isCompletion => ?_ }
    rcases mem_concat listed with earlier | rfl
    · exact kept.waiting completions earlier completion isCompletion
    · exact kept.ledger.sound.obligations completion isCompletion

theorem takeLock (unlocked : delivery.lock = none)
    (ended : ∀ completion ∈ completions, delivery.manager.Ended completion)
    (owner : party = .turn → ∃ run, delivery.turn = some run ∧ run.phase = .persisting) :
    Invariant (delivery.takeLock party completions) where
  ledger := kept.ledger
  queue := by
    have fits := kept.queue
    rw [unlocked] at fits
    exact .opening fits.idle
  holds persisting held := by
    cases held
    exact ⟨ended, fun _ => Iff.rfl, owner⟩
  waiting := kept.waiting
  turn := kept.turn

theorem enterDrain (taken : delivery.enterDrain index = some next) : Invariant next := by
  unfold Delivery.enterDrain at taken
  split at taken
  · rename_i completions unlocked found
    cases taken
    have listed := mem_of_getElem? found
    exact
      { kept.takeLock unlocked (kept.waiting completions listed)
          fun own : Party.heartbeat = .turn => Party.noConfusion own with
        waiting := fun other isOther =>
          kept.waiting other (mem_of_mem_eraseIdx isOther) }
  · cases taken

theorem leave (holds : Holds delivery.manager delivery.journal delivery.turn persisting)
    (idle : Idle delivery.ioQueue) : Invariant
      { delivery with
        lock := none
        turn := if persisting.party = .turn then
            delivery.turn.map fun turn => { turn with phase := .persisted }
          else delivery.turn } where
  ledger := kept.ledger
  queue := .free idle
  holds _ held := by cases held
  waiting := kept.waiting
  turn turn running := by
    split at running
    · rename_i own
      obtain ⟨run, isRun, phase⟩ := holds.owner own
      rw [isRun] at running
      cases running
      have fits := kept.turn run isRun
      have persisted := fits.phase
      unfold PhaseFits at persisted
      rw [phase] at persisted
      exact ⟨fits.ahead, persisted⟩
    · exact kept.turn turn running

theorem acknowledge (holds : Holds delivery.manager delivery.journal delivery.turn
      ⟨party, completion :: rest, journaled, .checking⟩)
    (idle : Idle delivery.ioQueue) (known : completion.allocation ∈ journaled) :
    Invariant
      { delivery with
        manager := delivery.manager.acknowledge completion.instanceId
        lock := some ⟨party, rest, journaled, .checking⟩ } :=
  { kept.change (kept.ledger.sound.acknowledge (holds.ended completion mem_cons_self)
        ((holds.journaled _).mp known))
      fun _ ended => ended with
    queue := .checking idle
    holds := fun _ same => by
      cases same
      exact ⟨fun other listed => holds.ended other (mem_cons_of_mem _ listed),
        holds.journaled, holds.owner⟩ }

theorem check (taken : delivery.check createdAt = some next) : Invariant next := by
  unfold Delivery.check at taken
  split at taken
  · rename_i persisting held
    obtain ⟨party, todo, journaled, stage⟩ := persisting
    have holds := kept.holds _ held
    have fits := kept.queue
    rw [held] at fits
    cases stage with
    | opening | appending => cases taken
    | checking =>
      rw [if_neg (not_not.mpr rfl)] at taken
      cases todo with
      | nil =>
        cases taken
        exact kept.leave holds fits.checked
      | cons completion rest =>
        dsimp only at taken
        split at taken
        · rename_i known
          cases taken
          exact kept.acknowledge holds fits.checked (contains_iff_mem.mp known)
        · rename_i novel
          split at taken
          · rename_i turnId toolUseId isTurn isToolUse
            cases taken
            exact
              { kept with
                queue := .appending createdAt fits.checked isTurn isToolUse
                  fun listed => novel (contains_iff_mem.mpr listed)
                holds := fun _ same => by
                  cases same
                  exact ⟨holds.ended, holds.journaled, holds.owner⟩ }
          · cases taken
            exact kept.failPersist fits.checked.abandon
  · cases taken

theorem giveUp (patient : delivery.Patient (.giveUp : Delivery.Label Stamp))
    (taken : delivery.giveUp = some next) : Invariant next := by
  unfold Delivery.giveUp at taken
  split at taken
  · rename_i persisting held
    have fits := kept.queue
    rw [held] at fits
    split at taken
    · cases taken
    · cases taken
      exact kept.failPersist (fits.abandon (patient persisting held))
  · cases taken

theorem endTurn
    (patient : delivery.Patient (.endTurn : Delivery.Label Stamp)) : Invariant delivery.endTurn := by
  unfold Delivery.endTurn
  split
  · rename_i persisting held
    have fits := kept.queue
    rw [held] at fits
    split
    · rename_i own
      exact kept.failPersist (fits.abandon (patient persisting held own))
    · rename_i other
      exact
        { kept with
          holds := fun holder same =>
            { kept.holds holder same with
              owner := fun own => by
                rw [held] at same
                cases same
                exact absurd own other }
          turn := fun _ running => by cases running }
  · rename_i unlocked
    exact
      { kept with
        holds := fun holder same => by
          rw [unlocked] at same
          cases same
        turn := fun _ running => by cases running }

end

theorem appendEvent (kept : Invariant delivery) (numbered : event.seq = nextSeq delivery.journal)
    (room : nextSeq delivery.journal < maxSeq)
    (novel : ∀ completion, completionOf event = some completion →
      delivery.manager.Ended completion ∧
        completion.allocation ∉ journaledInstances delivery.journal)
    {queue : List (IoRequest Stamp)} (fits : QueueFits queue lock)
    (holds : ∀ persisting, lock = some persisting →
      Holds delivery.manager (delivery.journal ++ [event]) delivery.turn persisting) :
    Invariant
      { delivery with
        journal := delivery.journal ++ [event]
        ioQueue := queue
        lock } where
  ledger := kept.ledger.append numbered room novel
  queue := fits
  holds := holds
  waiting := kept.waiting
  turn turn running :=
    (kept.turn turn running).grow (prefix_append _ _) fun _ ended => ended

theorem appendOther (kept : Invariant delivery)
    (taken : delivery.appendOther turnId createdAt kind = some next) : Invariant next := by
  unfold Delivery.appendOther at taken
  split at taken
  · cases taken
  · rename_i other
    unfold Delivery.appendEvent at taken
    split at taken
    · rename_i room
      cases taken
      have plain : completionOf
          (⟨nextSeq delivery.journal, turnId, createdAt, kind⟩ : Event Stamp) = none := by
        unfold completionOf
        split
        · rename_i isCompletion
          exact (other _ _ _ _ _ _ _ isCompletion).elim
        · rfl
      refine kept.appendEvent rfl room (fun completion isCompletion => ?_) kept.queue
        fun persisting held => ?_
      · rw [plain] at isCompletion
        cases isCompletion
      · have holds := kept.holds persisting held
        refine { holds with journaled := fun allocation => (holds.journaled allocation).trans ?_ }
        rw [journaledInstances_append]
        have nothing : journaledInstances
            [(⟨nextSeq delivery.journal, turnId, createdAt, kind⟩ : Event Stamp)] = [] := by
          unfold journaledInstances
          rw [filterMap_cons_none plain]
          rfl
        rw [nothing, append_nil]
    · cases taken

theorem idle_nil : Idle ([] : List (IoRequest Stamp)) := fun _ listed => by cases listed

theorem perform (kept : Invariant delivery) (taken : delivery.perform outcome = some next) :
    Invariant next := by
  have fits := kept.queue
  unfold Delivery.perform at taken
  split at taken
  · cases taken
  · rename_i request rest isQueue
    rw [isQueue] at fits
    rcases fits.pop with ⟨rfl, others⟩ | ⟨rfl, rfl, party, todo, journaled, held⟩ |
        ⟨rfl, party, completion, later, journaled, turnId, toolUseId, createdAt, rfl, isTurn,
          isToolUse, novel, held⟩
    · cases taken
      exact { kept with queue := others }
    · cases taken
      dsimp only [if_true]
      unfold Delivery.answerIo
      rw [if_pos rfl]
      rw [held]
      dsimp only
      have holds := kept.holds _ held
      split
      · exact
          { kept with
            queue := .checking idle_nil
            holds := fun _ same => by
              cases same
              exact ⟨holds.ended, holds.journaled, holds.owner⟩ }
      · exact kept.release party idle_nil
    · have holds := kept.holds _ held
      have ended := holds.ended completion mem_cons_self
      have unwritten : completion.allocation ∉ journaledInstances delivery.journal :=
        fun listed => novel ((holds.journaled _).mpr listed)
      have isCompletion := completionOf_completed (nextSeq delivery.journal) createdAt isTurn
        isToolUse
      have novelty : ∀ other, completionOf
          (⟨nextSeq delivery.journal, turnId, createdAt, completedKind toolUseId completion⟩ :
            Event Stamp) = some other →
          delivery.manager.Ended other ∧
            other.allocation ∉ journaledInstances delivery.journal := by
        intro other same
        rw [isCompletion] at same
        cases same
        exact ⟨ended, unwritten⟩
      cases outcome with
      | failed =>
        cases taken
        dsimp only [if_true]
        unfold Delivery.answerIo
        rw [held]
        exact kept.release party idle_nil
      | failedWritten =>
        unfold Delivery.appendEvent at taken
        dsimp only at taken
        by_cases room : nextSeq delivery.journal < maxSeq
        · rw [if_pos room] at taken
          cases taken
          dsimp only
          rw [held]
          exact (kept.appendEvent rfl room novelty (.free idle_nil)
            fun _ same => by cases same).release party idle_nil
        · rw [if_neg room] at taken
          cases taken
      | done =>
        unfold Delivery.appendEvent at taken
        dsimp only at taken
        by_cases room : nextSeq delivery.journal < maxSeq
        · rw [if_pos room] at taken
          cases taken
          dsimp only
          rw [held]
          refine kept.appendEvent rfl room novelty (.checking idle_nil) fun _ same => ?_
          cases same
          refine ⟨holds.ended, fun allocation => ?_, holds.owner⟩
          have instances : journaledInstances [(⟨nextSeq delivery.journal, turnId, createdAt,
                completedKind toolUseId completion⟩ : Event Stamp)] =
              [completion.allocation] := by
            unfold journaledInstances
            rfl
          rw [journaledInstances_append, instances, mem_append, ← holds.journaled]
          exact mem_append.trans Or.comm
        · rw [if_neg room] at taken
          cases taken

section

variable (kept : Invariant delivery)

include kept

theorem startTurn (taken : delivery.startTurn messages = some next) : Invariant next := by
  unfold Delivery.startTurn at taken
  split at taken
  · cases taken
  · rename_i idle
    cases taken
    refine kept.setTurn (fun persisting held own => ?_) ⟨.inl rfl, rfl, .inl rfl⟩
    obtain ⟨run, isRun, _⟩ := (kept.holds persisting held).owner own
    rw [idle] at isRun
    cases isRun

theorem rewrite (taken : delivery.rewrite messages = some next) : Invariant next := by
  unfold Delivery.rewrite at taken
  split at taken
  · rename_i turn running
    split at taken
    · rename_i phase
      cases taken
      have fits := kept.turn turn running
      have place := fits.phase
      unfold PhaseFits at place
      rw [phase] at place
      refine kept.setTurn (kept.free running (by rw [phase]; nofun)) ?_
      exact ⟨fits.ahead, by unfold PhaseFits; dsimp only; rw [phase]; exact place⟩
    · cases taken
  · cases taken

omit kept

theorem offer (ledger : Ledger delivery.manager delivery.journal delivery.storedSeq
      delivery.succeeded)
    {events : List (Event Stamp)}
    (fits : TurnFits delivery.manager delivery.journal delivery.storedSeq delivery.succeeded turn)
    (place : turn.untilSeq = delivery.storedSeq ∧ events <+: delivery.journal ∧
      Reached events turn.deliverySeq)
    (isFresh : fresh = events.filter fun event =>
      (completionOf event).isSome && decide (turn.untilSeq < event.seq))
    (isDelivered : delivered =
      fresh.foldl (fun passed event => max passed event.seq) turn.untilSeq)
    (shown : List Allocation) :
    TurnFits delivery.manager delivery.journal delivery.storedSeq delivery.succeeded
      { turn with
        deliverySeq := if turn.untilSeq < delivered then delivered else turn.deliverySeq
        phase := .offering
          ⟨events, fresh, backgroundProcessProjection delivery.manager
            (fresh.filterMap completionOf) shown⟩ } where
  ahead := by
    split
    · rename_i beyond
      exact .inr beyond
    · exact fits.ahead
  phase :=
    { current := place.1
      read := place.2.1
      reached := by
        split
        · rename_i beyond
          rcases foldl_max_reached fresh turn.untilSeq with unchanged | ⟨event, listed, same⟩
          · omega
          · rw [isFresh] at listed
            exact .inr ⟨event, mem_of_mem_filter listed, same.trans isDelivered.symm⟩
        · exact place.2.2
      fresh := by
        intro event listed
        rw [isFresh] at listed
        have above := (Bool.and_eq_true_iff.mp (mem_filter.mp listed).2).2
        rw [← place.1]
        exact of_decide_eq_true above
      shows := by
        intro event listed completion isCompletion above
        refine projection_shows ledger.sound ?_
          (ledger.genuine event (place.2.1.subset listed) completion isCompletion)
        refine mem_filterMap.mpr ⟨event, ?_, isCompletion⟩
        rw [isFresh]
        refine mem_filter.mpr ⟨listed, ?_⟩
        rw [isCompletion, place.1]
        exact decide_eq_true above }

include kept in
theorem observe (taken : delivery.observe = some next) : Invariant next := by
  unfold Delivery.observe at taken
  split at taken
  · cases taken
  · rename_i turn running
    have fits := kept.turn turn running
    have place := fits.phase
    unfold PhaseFits at place
    split at taken
    · rename_i phase
      rw [phase] at place
      cases taken
      refine (kept.change kept.ledger.sound.rollbackNotifications fun _ ended => ended).setTurn
        (kept.free running (by rw [phase]; nofun)) ⟨fits.ahead, place⟩
    · rename_i phase
      rw [phase] at place
      cases taken
      exact (kept.change kept.ledger.sound.beginNotifications fun _ ended => ended).setTurn
        (kept.free running (by rw [phase]; nofun))
        ⟨fits.ahead, place, fun completion listed => kept.ledger.sound.deliverable listed⟩
    · rename_i completions phase
      rw [phase] at place
      have free := kept.free running (by rw [phase]; nofun)
      split at taken
      · cases taken
        exact kept.setTurn free ⟨fits.ahead, place.1⟩
      · split at taken
        · rename_i unlocked
          cases taken
          have stays : Invariant { delivery with turn := some { turn with phase := .persisting } } :=
            kept.setTurn free ⟨fits.ahead, place.1⟩
          exact stays.takeLock (Option.isNone_iff_eq_none.mp unlocked) place.2
            fun _ => ⟨_, rfl, rfl⟩
        · cases taken
    · rename_i phase
      rw [phase] at place
      cases taken
      exact kept.setTurn (kept.free running (by rw [phase]; nofun))
        ⟨fits.ahead, place.1, prefix_rfl, place.2⟩
    · rename_i events phase
      rw [phase] at place
      cases taken
      exact kept.setTurn (kept.free running (by rw [phase]; nofun))
        (offer kept.ledger fits place rfl rfl _)
    · cases taken

theorem mem_appendFrozenModelContext :
    projection ∈ appendFrozenModelContext messages projection := by
  unfold appendFrozenModelContext
  split
  · rename_i latest
    exact mem_of_getLast? latest
  · exact mem_append_right _ (mem_singleton.mpr rfl)

include kept

theorem settleInitial (taken : delivery.settleInitial = some next) : Invariant next := by
  unfold Delivery.settleInitial at taken
  split at taken
  · cases taken
  · rename_i turn running
    have fits := kept.turn turn running
    have place := fits.phase
    unfold PhaseFits at place
    split at taken
    · rename_i offer phase
      rw [phase] at place
      cases taken
      exact kept.setTurn (kept.free running (by rw [phase]; nofun))
        ⟨fits.ahead, place.current, place.reached.mono place.read⟩
    · cases taken

theorem send (taken : delivery.send replaced = some next) : Invariant next := by
  unfold Delivery.send at taken
  split at taken
  · cases taken
  · rename_i turn running
    have fits := kept.turn turn running
    have place := fits.phase
    unfold PhaseFits at place
    split at taken
    · rename_i offer phase
      rw [phase] at place
      cases taken
      refine kept.setTurn (kept.free running (by rw [phase]; nofun))
        ⟨fits.ahead, { place with }, ?_⟩
      cases replaced with
      | none => exact mem_appendFrozenModelContext
      | some messages => exact mem_append_right _ (mem_singleton.mpr rfl)
    · cases taken

theorem answer (taken : delivery.answer success = some next) : Invariant next := by
  unfold Delivery.answer at taken
  split at taken
  · cases taken
  · rename_i turn running
    have fits := kept.turn turn running
    have place := fits.phase
    unfold PhaseFits at place
    split at taken
    · rename_i offer phase
      rw [phase] at place
      have free := kept.free running (by rw [phase]; nofun)
      cases success with
      | false =>
        cases taken
        exact kept.setTurn free
          ⟨fits.ahead, place.1.current, place.1.reached.mono place.1.read⟩
      | true =>
        cases taken
        exact
          { kept with
            ledger := kept.ledger.succeed
            holds := fun persisting held =>
              { kept.holds persisting held with
                owner := fun own => absurd own (free persisting held) }
            turn := fun run isRun => by
              cases isRun
              exact ⟨fits.ahead, { place.1 with }, turn.messages,
                mem_append_right _ (mem_singleton.mpr rfl), place.2⟩ }
    · cases taken

omit kept

theorem advanced {manager : ProcessManager} {journal : List (Event Stamp)}
    {succeeded : List (List BackgroundProjection)} {offer : Offer Stamp}
    (ledger : Ledger manager journal stored succeeded) (fits : OfferFits journal turn stored offer)
    (answered : ∃ request ∈ succeeded, offer.projection ∈ request) :
    Ledger manager journal (max stored turn.deliverySeq) succeeded := by
  refine { ledger with reached := ?_, delivered := ?_ }
  · rcases le_total turn.deliverySeq stored with low | high
    · rw [max_eq_left low]
      exact ledger.reached
    · rw [max_eq_right high]
      exact fits.reached.mono fits.read
  · intro event listed completion isCompletion passed
    by_cases before : event.seq ≤ stored
    · exact ledger.delivered event listed completion isCompletion before
    · obtain ⟨request, isRequest, within⟩ := answered
      refine ⟨request, isRequest, offer.projection, within, ?_⟩
      have low : event.seq ≤ turn.deliverySeq := by omega
      rcases fits.reached with nothing | ⟨last, isLast, same⟩
      · omega
      · rw [← same] at low
        exact fits.shows event (mem_prefix_of_seq_le ledger.rising fits.read listed isLast low)
          completion isCompletion (by omega)

include kept

theorem storeCursor (taken : delivery.storeCursor outcome = some next) : Invariant next := by
  unfold Delivery.storeCursor at taken
  split at taken
  · cases taken
  · rename_i turn running
    have fits := kept.turn turn running
    have place := fits.phase
    unfold PhaseFits at place
    split at taken
    · rename_i offer phase
      rw [phase] at place
      have free := kept.free running (by rw [phase]; nofun)
      have unowned : ∀ (turn : Option (TurnRun Stamp)) persisting, delivery.lock = some persisting →
          Holds delivery.manager delivery.journal turn persisting :=
        fun _ persisting held =>
          { kept.holds persisting held with
            owner := fun own => absurd own (free persisting held) }
      by_cases nothing : turn.deliverySeq = 0
      · rw [if_pos nothing] at taken
        cases taken
        refine kept.setTurn free ⟨fits.ahead, ?_⟩
        exact (congrArg (max _) nothing).trans ((Nat.max_zero _).trans place.1.current)
      · rw [if_neg nothing] at taken
        have ledger := advanced kept.ledger place.1 place.2
        cases outcome with
        | done =>
          cases taken
          exact
            { kept with
              ledger
              holds := unowned _
              turn := fun run isRun => by
                cases isRun
                exact ⟨fits.ahead, congrArg (max · turn.deliverySeq) place.1.current⟩ }
        | failed =>
          cases taken
          exact { kept with holds := unowned _, turn := fun _ isRun => by cases isRun }
        | failedWritten =>
          cases taken
          exact { kept with ledger, holds := unowned _, turn := fun _ isRun => by cases isRun }
    · cases taken

theorem finishHooks (taken : delivery.finishHooks = some next) : Invariant next := by
  unfold Delivery.finishHooks at taken
  split at taken
  · cases taken
  · rename_i turn running
    have place := (kept.turn turn running).phase
    unfold PhaseFits at place
    split at taken
    · rename_i phase
      rw [phase] at place
      cases taken
      exact (kept.change kept.ledger.sound.commitNotifications
        fun _ ended => ended).setTurn (kept.free running (by rw [phase]; nofun))
        ⟨.inl rfl, place, .inl rfl⟩
    · cases taken

omit kept

end

include kept in
theorem step (patient : delivery.Patient label)
    (taken : delivery.apply label = some next) : Invariant next := by
  cases label with
  | reserve id turnId toolUseId command cwd tty =>
    obtain ⟨manager, reserved, rfl⟩ := Option.map_eq_some_iff.mp taken
    exact kept.change (kept.ledger.sound.reserve reserved) fun _ ended => ended.reserve reserved
  | advance instanceId transition =>
    cases taken
    exact kept.change kept.ledger.sound.advance
      fun _ ended => ended.update (ProcessManager.stays_advance transition)
  | evict instanceId =>
    cases taken
    exact kept.change kept.ledger.sound.evict
      fun _ ended => ended.update fun _ => ProcessManager.stays_of_state rfl rfl
  | recordCompletion instanceId =>
    cases taken
    exact kept.change (kept.ledger.sound.recordCompletion instanceId)
      fun _ ended => ended.recordCompletion
  | commitFinalOutput instanceId =>
    cases taken
    exact kept.change kept.ledger.sound.commitFinalOutput
      fun _ ended => ended.commitFinalOutput
  | drain =>
    cases taken
    exact kept.drain
  | enterDrain => exact kept.enterDrain taken
  | check => exact kept.check taken
  | perform => exact kept.perform taken
  | giveUp => exact kept.giveUp patient taken
  | appendOther => exact kept.appendOther taken
  | startTurn => exact kept.startTurn taken
  | endTurn =>
    cases taken
    exact kept.endTurn patient
  | rewrite => exact kept.rewrite taken
  | observe => exact kept.observe taken
  | settleInitial => exact kept.settleInitial taken
  | send => exact kept.send taken
  | answer => exact kept.answer taken
  | storeCursor => exact kept.storeCursor taken
  | finishHooks => exact kept.finishHooks taken

end Invariant

/-- `acknowledged` speaks of the completions that are no longer owed to the journal, `listed` and
`shown` of the projection before the provider, which is made of the journal as the observation
found it. -/
structure DeliveredOnce (delivery : Delivery Stamp History) : Prop where
  once : (journaledInstances delivery.journal).Nodup
  acknowledged : ∀ process ∈ delivery.manager.processes,
    process.registration ≠ .unrecorded → process.associated →
      process.completion ∉ delivery.manager.obligations →
        process.allocation ∈ journaledInstances delivery.journal
  shown : ∀ turn offer, delivery.turn = some turn → turn.phase.offer = some offer →
    offer.events <+: delivery.journal ∧ ∀ event ∈ offer.events, ∀ completion,
      completionOf event = some completion → delivery.storedSeq < event.seq →
        offer.projection.Shows completion
  requested : ∀ turn offer, delivery.turn = some turn → turn.phase = .requesting offer →
    offer.projection ∈ turn.messages
  listed : ∀ turn offer, delivery.turn = some turn → turn.phase.offer = some offer →
    ∀ event ∈ offer.fresh, delivery.storedSeq < event.seq
  passed : ∀ event ∈ delivery.journal, ∀ completion, completionOf event = some completion →
    event.seq ≤ delivery.storedSeq →
      ∃ request ∈ delivery.succeeded, ∃ projection ∈ request, projection.Shows completion

variable {delivery : Delivery Stamp History}

theorem Invariant.offerFits (kept : Invariant delivery) {turn : TurnRun Stamp}
    {offer : Offer Stamp} (running : delivery.turn = some turn)
    (offered : turn.phase.offer = some offer) :
    OfferFits delivery.journal turn delivery.storedSeq offer := by
  have place := (kept.turn turn running).phase
  unfold PhaseFits at place
  unfold Phase.offer at offered
  split at offered
  · rename_i phase
    cases offered
    rw [phase] at place
    exact place
  · rename_i phase
    cases offered
    rw [phase] at place
    exact place.1
  · rename_i phase
    cases offered
    rw [phase] at place
    exact place.1
  · cases offered

theorem Invariant.deliveredOnce (kept : Invariant delivery) : DeliveredOnce delivery where
  once := kept.ledger.once
  acknowledged process listed recorded associated settled :=
    ((kept.ledger.sound.kept process listed recorded).2 associated).resolve_left settled
  shown _ _ running offered :=
    ⟨(kept.offerFits running offered).read, (kept.offerFits running offered).shows⟩
  requested turn offer running phase := by
    have place := (kept.turn turn running).phase
    unfold PhaseFits at place
    rw [phase] at place
    exact place.2
  listed _ _ running offered := (kept.offerFits running offered).fresh
  passed := kept.ledger.delivered

/-- As long as no wait for an append ends before the append, every completion is journaled once
and acknowledged after that, offered until a request with it has succeeded, and passed by the
stored cursor only then. -/
theorem background_completions_are_delivered_once {metadata : SessionMetadata Stamp History}
    {labels : List (Delivery.Label Stamp)} (run : PatientRun metadata labels delivery) :
    DeliveredOnce delivery := by
  refine Invariant.deliveredOnce ?_
  induction run with
  | nil => exact Invariant.created
  | snoc _ taken ih => exact ih.step taken.1 taken.2

def exampleMetadata : SessionMetadata Unit Unit where
  id := "session".toList
  agentId := "agent".toList
  status := .opened
  closedAt := none
  model := "model".toList
  messageCount := 0
  finalizedAt := none
  recappedUntil := 0
  providerBackgroundCompletionUntilSeq := some 0
  recapBackgroundCompletionUntilSeq := some 0
  compaction := none

def endingLabels : List (Delivery.Label Unit) :=
  [.reserve "deadbeef".toList (some "turn".toList) (some "tool".toList) "make".toList
      "/work".toList false,
    .advance 1 .markRunning, .advance 1 (.markFinished (some 0) none true), .recordCompletion 1,
    .drain, .enterDrain 0, .perform .done, .check ()]

def deliveringLabels : List (Delivery.Label Unit) :=
  endingLabels ++
    [.perform .done, .check (), .check (), .startTurn [], .observe, .observe, .observe,
      .perform .done, .check (), .check (), .observe, .observe, .send none, .answer true,
      .storeCursor .done, .finishHooks]

def Delivery.Label.steady : Delivery.Label Stamp → Bool
  | .giveUp | .endTurn => false
  | _ => true

theorem Delivery.Label.steady_patient (steady : label.steady) : delivery.Patient label := by
  cases label <;> first | exact trivial | cases steady

theorem patient_of_steady (run : Run metadata labels delivery)
    (steady : labels.all Delivery.Label.steady) : PatientRun metadata labels delivery := by
  induction run with
  | nil => exact Trace.nil _
  | snoc _ taken ih =>
    rw [all_append, Bool.and_eq_true] at steady
    exact (ih steady.1).snoc
      ⟨Delivery.Label.steady_patient (all_eq_true.mp steady.2 _ mem_cons_self), taken⟩

theorem background_completions_are_delivered_once_to_the_end :
    ∃ delivery : Delivery Unit Unit, PatientRun exampleMetadata deliveringLabels delivery ∧
      delivery.storedSeq = 1 ∧ DeliveredOnce delivery := by
  have ran : (Trace.execute Delivery.apply (Delivery.created exampleMetadata)
      deliveringLabels).map Delivery.storedSeq = some 1 := rfl
  obtain ⟨delivery, isDelivery, stored⟩ := Option.map_eq_some_iff.mp ran
  have patient : PatientRun exampleMetadata deliveringLabels delivery :=
    patient_of_steady (Trace.of_execute isDelivery) rfl
  exact ⟨delivery, patient, stored, background_completions_are_delivered_once patient⟩

def doublingLabels : List (Delivery.Label Unit) :=
  endingLabels ++
    [.giveUp, .drain, .enterDrain 0, .perform .done, .perform .done, .check (), .perform .done]

theorem late_append_is_repeated :
    ¬ ∀ (labels : List (Delivery.Label Unit)) (delivery : Delivery Unit Unit),
      Run exampleMetadata labels delivery → DeliveredOnce delivery := by
  intro always
  have ran : (Trace.execute Delivery.apply (Delivery.created exampleMetadata)
      doublingLabels).map (fun delivery => journaledInstances delivery.journal) =
        some [("deadbeef".toList, 1), ("deadbeef".toList, 1)] := rfl
  obtain ⟨delivery, isDelivery, twice⟩ := Option.map_eq_some_iff.mp ran
  have once := (always _ delivery (Trace.of_execute isDelivery)).once
  rw [twice] at once
  exact (nodup_cons.mp once).1 mem_cons_self

end AgentClaimNetwork.Session.BackgroundDelivery
