import AgentClaimNetwork.Session.AssistantText

/-!
The status with which a replayed turn is projected, whatever the order of its events, and what a
rejected turn still shows of its model context.
-/

namespace AgentClaimNetwork.Session

open Library TurnAccumulator List
open TurnAccumulator (apply fresh)

def TurnJournalEventKind.isRejection : TurnJournalEventKind → Bool
  | providerRequestRejected .. => true
  | _ => false

def rejectionOutcome (discardTurn : Bool) : TurnJournalStatus :=
  if discardTurn then .rejectedByProvider else .failed

def Outstanding (kinds : List TurnJournalEventKind) (rejectionId : Nat)
    (status : TurnJournalStatus) : Prop :=
  ∃ before discardTurn after,
    kinds = before ++ .providerRequestRejected rejectionId discardTurn :: after ∧
      (∀ kind ∈ after, kind.isRejection = false) ∧
      .providerRequestRetriedAfterRejection rejectionId ∉ after ∧
      status = rejectionOutcome discardTurn
variable {kind : TurnJournalEventKind}

variable {rejectionId : Nat}

section

theorem snoc_eq_split {α : Type} {items before after : List α} {last middle : α}
    (split : items ++ [last] = before ++ middle :: after) :
    (after = [] ∧ middle = last) ∨
      ∃ rest, after = rest ++ [last] ∧ items = before ++ middle :: rest := by
  rcases eq_nil_or_concat after with rfl | ⟨rest, final, rfl⟩
  · obtain ⟨_, same⟩ := append_inj' split rfl
    cases same
    exact .inl ⟨rfl, rfl⟩
  · have shape : items ++ [last] = (before ++ middle :: rest) ++ [final] := by
      rw [split]
      simp
    obtain ⟨same, ends⟩ := append_inj' shape rfl
    cases ends
    exact .inr ⟨rest, concat_eq_append, same⟩

variable {kinds : List TurnJournalEventKind} {status : TurnJournalStatus}

theorem outstanding_rejected {discardTurn : Bool} :
    Outstanding (kinds ++ [.providerRequestRejected rejectionId discardTurn]) otherId status ↔
      otherId = rejectionId ∧ status = rejectionOutcome discardTurn := by
  constructor
  · rintro ⟨before, other, after, split, newest, _, rfl⟩
    rcases snoc_eq_split split with ⟨_, same⟩ | ⟨rest, rfl, _⟩
    · cases same
      exact ⟨rfl, rfl⟩
    · have impossible := newest _ (mem_append_right rest mem_cons_self)
      cases impossible
  · rintro ⟨rfl, rfl⟩
    exact ⟨kinds, discardTurn, [], rfl, by simp, by simp, rfl⟩

theorem outstanding_other (other : kind.isRejection = false) :
    Outstanding (kinds ++ [kind]) rejectionId status ↔
      Outstanding kinds rejectionId status ∧
        kind ≠ .providerRequestRetriedAfterRejection rejectionId := by
  constructor
  · rintro ⟨before, discardTurn, after, split, newest, kept, implied⟩
    rcases snoc_eq_split split with ⟨_, same⟩ | ⟨rest, rfl, earlier⟩
    · rw [← same] at other
      cases other
    · refine ⟨⟨before, discardTurn, rest, earlier, ?_, ?_, implied⟩, ?_⟩
      · intro later member
        exact newest later (mem_append_left _ member)
      · intro member
        exact kept (mem_append_left _ member)
      · rintro rfl
        exact kept (mem_append_right _ mem_cons_self)
  · rintro ⟨⟨before, discardTurn, after, rfl, newest, kept, implied⟩, different⟩
    refine ⟨before, discardTurn, after ++ [kind], by simp, ?_, ?_, implied⟩
    · intro later member
      rcases mem_concat member with earlier | rfl
      · exact newest later earlier
      · exact other
    · intro member
      rcases mem_concat member with earlier | latest
      · exact kept earlier
      · exact different latest.symm

structure SlotHolds (kinds : List TurnJournalEventKind) (standing : Standing) : Prop where
  outstanding : ∀ rejectionId status,
    (standing.rejectionId = some rejectionId ∧ standing.rejectionStatus = some status) ↔
      Outstanding kinds rejectionId status
  together : standing.rejectionId.isSome = standing.rejectionStatus.isSome

theorem after_slot {standing : Standing} {kind : TurnJournalEventKind}
    (other : kind.isRejection = false)
    (noRetry : ∀ rejectionId, kind ≠ .providerRequestRetriedAfterRejection rejectionId) :
    (standing.after kind).rejectionId = standing.rejectionId ∧
      (standing.after kind).rejectionStatus = standing.rejectionStatus := by
  cases kind with
  | providerRequestRejected rejectionId discardTurn => cases other
  | providerRequestRetriedAfterRejection rejectionId => exact absurd rfl (noRetry rejectionId)
  | _ => exact ⟨rfl, rfl⟩

variable {standing : Standing}

theorem SlotHolds.rejected :
    SlotHolds (kinds ++ [.providerRequestRejected rejectionId discardTurn])
      (standing.after (.providerRequestRejected rejectionId discardTurn)) where
  outstanding := by
    intro otherId status
    rw [outstanding_rejected]
    constructor
    · rintro ⟨id, implied⟩
      cases id
      cases implied
      exact ⟨rfl, rfl⟩
    · rintro ⟨rfl, rfl⟩
      exact ⟨rfl, rfl⟩
  together := rfl

theorem SlotHolds.retried (slot : SlotHolds kinds standing) :
    SlotHolds (kinds ++ [.providerRequestRetriedAfterRejection rejectionId])
      (standing.after (.providerRequestRetriedAfterRejection rejectionId)) := by
  have cancels : ∀ otherId status,
      Outstanding (kinds ++ [.providerRequestRetriedAfterRejection rejectionId]) otherId status ↔
        (standing.rejectionId = some otherId ∧ standing.rejectionStatus = some status) ∧
          rejectionId ≠ otherId := by
    intro otherId status
    rw [outstanding_other rfl, slot.outstanding]
    simp
  unfold Standing.after
  by_cases same : standing.rejectionId = some rejectionId
  · dsimp only
    rw [if_pos same]
    refine ⟨?_, rfl⟩
    intro otherId status
    rw [cancels, same]
    constructor
    · rintro ⟨impossible, _⟩
      cases impossible
    · rintro ⟨⟨id, _⟩, different⟩
      cases id
      exact absurd rfl different
  · dsimp only
    rw [if_neg same]
    refine ⟨?_, slot.together⟩
    intro otherId status
    rw [cancels]
    constructor
    · rintro ⟨id, implied⟩
      refine ⟨⟨id, implied⟩, ?_⟩
      rintro rfl
      exact same id
    · rintro ⟨held, _⟩
      exact held

theorem SlotHolds.step (slot : SlotHolds kinds standing) :
    SlotHolds (kinds ++ [kind]) (standing.after kind) := by
  by_cases rejection : kind.isRejection = true
  · cases kind with
    | providerRequestRejected rejectionId discardTurn =>
      exact SlotHolds.rejected
    | _ => cases rejection
  · have other := Bool.eq_false_iff.mpr rejection
    by_cases retry : ∃ rejectionId, kind = .providerRequestRetriedAfterRejection rejectionId
    · obtain ⟨rejectionId, rfl⟩ := retry
      exact slot.retried
    · have noRetry : ∀ rejectionId, kind ≠ .providerRequestRetriedAfterRejection rejectionId :=
        fun rejectionId same => retry ⟨rejectionId, same⟩
      obtain ⟨id, implied⟩ := @after_slot standing kind other noRetry
      refine ⟨?_, by rw [id, implied, slot.together]⟩
      intro rejectionId status
      rw [id, implied, slot.outstanding, outstanding_other other]
      exact ⟨fun held => ⟨held, noRetry rejectionId⟩, fun held => held.1⟩

theorem slot_run (turnId : Text) (kinds : List TurnJournalEventKind) :
    SlotHolds kinds (kinds.foldl Standing.after ⟨turnId, none, none, none, false⟩) := by
  induction kinds using reverseRecOn with
  | nil =>
    refine ⟨?_, rfl⟩
    intro rejectionId status
    constructor
    · rintro ⟨impossible, _⟩
      cases impossible
    · rintro ⟨before, discardTurn, after, split, _⟩
      exact absurd split.symm (by simp)
  | append_singleton kinds kind ih =>
    rw [foldl_append]
    exact ih.step

end

section

variable {Stamp : Type}

theorem after_late {standing : Standing} (late : kind.isLate = true) :
    standing.after kind = standing := by
  cases kind with
  | backgroundProcessCompleted => rfl
  | compactionAssetsExternalized => rfl
  | _ => cases late

theorem fold_standing {turnId : Text}
    {events : List (TurnJournalEvent Stamp TurnJournalEventKind)} {turn : TurnAccumulator Stamp}
    (folded : events.foldlM (applyEvent contentHash) (fresh turnId) = some turn) :
    turn.standing = (live (events.map TurnJournalEvent.kind)).foldl Standing.after
      ⟨turnId, none, none, none, false⟩ := by
  induction events using reverseRecOn generalizing turn with
  | nil =>
    cases folded
    rfl
  | append_singleton past event ih =>
    obtain ⟨before, reached, _, kept⟩ := fold_kept contentHash turnId past
    rw [foldlM_append, reached] at folded
    have applied : applyEvent contentHash before event = some turn := by simpa using folded
    unfold applyEvent apply at applied
    rw [map_append, map_singleton, live_snoc, ← kept.ended]
    cases ended : before.status.isSome with
    | true =>
      rw [if_pos rfl, ← ih reached]
      split_ifs at applied with ignored
      · cases applied
        rfl
      · rw [ended] at ignored
        rw [perform_standing applied, after_late (by simpa using ignored)]
    | false =>
      rw [if_neg (by simp [ended])] at applied
      rw [if_neg Bool.false_ne_true, foldl_append, ← ih reached]
      exact perform_standing applied

variable (standing : Standing)

theorem live_status (running : standing.status = none) (kinds : List TurnJournalEventKind)
    (status : TurnJournalStatus) :
    ((live kinds).foldl Standing.after standing).status = some status ↔
      .turnFinished status ∈ live kinds := by
  induction kinds generalizing standing with
  | nil => simp [live, running]
  | cons kind rest ih =>
    rw [live]
    by_cases finish : kind.isFinish = true
    · cases kind with
      | turnFinished other =>
        rw [if_pos finish]
        simp [Standing.after, eq_comm]
      | _ => cases finish
    · rw [if_neg finish, foldl_cons]
      have still : (standing.after kind).status = none := by
        have ended := Standing.after_ended standing kind
        rw [running, Bool.eq_false_iff.mpr finish] at ended
        exact Option.isNone_iff_eq_none.mp (by simpa using ended)
      rw [ih (standing.after kind) still, mem_cons]
      constructor
      · intro later
        exact .inr later
      · rintro (same | later)
        · rw [← same] at finish
          exact absurd rfl finish
        · exact later

theorem after_mediaCleaned (kind : TurnJournalEventKind)
    (cleaned : (standing.after kind).mediaCleaned = true) :
    standing.mediaCleaned = true ∨ kind = .historicalMediaCleaned := by
  cases kind with
  | historicalMediaCleaned => exact .inr rfl
  | providerRequestRetriedAfterRejection rejectionId =>
    rw [Standing.after] at cleaned
    split_ifs at cleaned <;> exact .inl cleaned
  | _ => exact .inl cleaned

theorem run_mediaCleaned (kinds : List TurnJournalEventKind)
    (cleaned : (kinds.foldl Standing.after standing).mediaCleaned = true) :
    standing.mediaCleaned = true ∨ .historicalMediaCleaned ∈ kinds := by
  induction kinds generalizing standing with
  | nil => exact .inl cleaned
  | cons kind rest ih =>
    rcases ih (standing.after kind) cleaned with earlier | later
    · rcases after_mediaCleaned standing kind earlier with before | rfl
      · exact .inl before
      · exact .inr mem_cons_self
    · exact .inr (mem_cons_of_mem _ later)

end

section

variable {Stamp : Type}

def Outcome (kinds : List TurnJournalEventKind) (status : TurnJournalStatus) : Prop :=
  (∃ rejectionId, Outstanding kinds rejectionId status) ∨
    (∀ rejectionId other, ¬ Outstanding kinds rejectionId other) ∧ .turnFinished status ∈ kinds

variable {events : List (TurnJournalEvent Stamp TurnJournalEventKind)} {turnId : Text}
  {turn : TurnAccumulator Stamp}

theorem finish_status
    (folded : events.foldlM (applyEvent contentHash) (fresh turnId) = some turn)
    (status : TurnJournalStatus) :
    turn.finish.status = some status ↔
      Outcome (live (events.map TurnJournalEvent.kind)) status := by
  have standing := fold_standing folded
  have slot := slot_run turnId (live (events.map TurnJournalEvent.kind))
  have finished := live_status ⟨turnId, none, none, none, false⟩ rfl
    (events.map TurnJournalEvent.kind) status
  rw [← standing] at slot finished
  have projected : turn.finish.status = turn.providerRejectionStatus.or turn.status := rfl
  have together : turn.providerRejectionId.isSome = turn.providerRejectionStatus.isSome :=
    slot.together
  rw [projected]
  cases rejected : turn.providerRejectionStatus with
  | none =>
    have none : turn.providerRejectionId = none := by
      rw [rejected] at together
      exact Option.isNone_iff_eq_none.mp (by simpa using together)
    have nothing : ∀ rejectionId other,
        ¬ Outstanding (live (events.map TurnJournalEvent.kind)) rejectionId other := by
      intro rejectionId other outstanding
      have held := ((slot.outstanding rejectionId other).mpr outstanding).1
      have empty : turn.providerRejectionId = some rejectionId := held
      rw [none] at empty
      cases empty
    rw [Option.none_or]
    constructor
    · intro ended
      exact .inr ⟨nothing, finished.mp ended⟩
    · rintro (⟨rejectionId, outstanding⟩ | ⟨_, ended⟩)
      · exact absurd outstanding (nothing rejectionId status)
      · exact finished.mpr ended
  | some implied =>
    obtain ⟨heldId, holds⟩ : ∃ heldId, turn.providerRejectionId = some heldId := by
      rw [rejected] at together
      exact Option.isSome_iff_exists.mp together
    have outstanding := (slot.outstanding heldId implied).mp ⟨holds, rejected⟩
    rw [Option.some_or]
    constructor
    · rintro ⟨⟩
      exact .inl ⟨heldId, outstanding⟩
    · rintro (⟨rejectionId, other⟩ | ⟨nothing, _⟩)
      · have same : turn.providerRejectionStatus = some status :=
          ((slot.outstanding rejectionId status).mpr other).2
        rw [← rejected, same]
      · exact absurd outstanding (nothing heldId implied)

theorem finish_context
    (folded : events.foldlM (applyEvent contentHash) (fresh turnId) = some turn)
    (rejected : turn.finish.status = some .rejectedByProvider) :
    ∀ context ∈ turn.finish.modelContext, context.source = .requestSizeRecovery ∧
      .historicalMediaCleaned ∈ live (events.map TurnJournalEvent.kind) := by
  intro context member
  have filtered : turn.finish.modelContext = turn.modelContext.filter fun context =>
      turn.historicalMediaCleaned && context.source = .requestSizeRecovery := if_pos rejected
  rw [filtered, mem_filter] at member
  obtain ⟨cleaned, source⟩ := Bool.and_eq_true_iff.mp member.2
  have media : turn.standing.mediaCleaned = true := cleaned
  rw [fold_standing folded] at media
  rcases run_mediaCleaned _ _ media with impossible | recorded
  · cases impossible
  · exact ⟨of_decide_eq_true source, recorded⟩

variable {before after : List (TurnJournalEvent Stamp TurnJournalEventKind)}

theorem fold_finished (finished : ∃ finish ∈ before, finish.kind.isFinish = true)
    (early : event.kind.isLate = false) :
    (before ++ event :: after).foldlM (applyEvent contentHash)
        (fresh turnId : TurnAccumulator Stamp) =
      (before ++ after).foldlM (applyEvent contentHash) (fresh turnId) := by
  obtain ⟨turn, reached, _, kept⟩ := fold_kept contentHash turnId before
  have ended : turn.status.isSome = true := by
    obtain ⟨finish, member, isFinish⟩ := finished
    rw [kept.ended]
    exact any_eq_true.mpr ⟨finish.kind, mem_map.mpr ⟨finish, member, rfl⟩, isFinish⟩
  have ignored : applyEvent contentHash turn event = some turn := by
    exact if_pos (by rw [ended, early]; rfl)
  rw [foldlM_append, foldlM_append, reached]
  simp [ignored]

theorem replay_finished
    (finished : ∃ finish ∈ before, finish.turnId = event.turnId ∧ finish.kind.isFinish = true)
    (early : event.kind.isLate = false) :
    replayTurnJournal contentHash ⟨before ++ event :: after, warnings⟩ =
      replayTurnJournal contentHash ⟨before ++ after, warnings⟩ := by
  obtain ⟨finish, member, sameTurn, isFinish⟩ := finished
  have same : ∀ turnId, accumulate contentHash turnId (before ++ event :: after) =
      accumulate contentHash turnId (before ++ after) := by
    intro turnId
    unfold accumulate
    rw [filter_append, filter_append, filter_cons]
    by_cases ours : event.turnId == turnId
    · rw [if_pos ours]
      refine fold_finished ⟨finish, ?_, isFinish⟩ early
      rw [mem_filter]
      exact ⟨member, by rw [sameTurn]; exact ours⟩
    · rw [if_neg ours]
  have order : ((before ++ event :: after).map TurnJournalEvent.turnId).eraseDups =
      ((before ++ after).map TurnJournalEvent.turnId).eraseDups := by
    have known : event.turnId ∈ before.map TurnJournalEvent.turnId :=
      mem_map.mpr ⟨finish, member, sameTurn⟩
    rw [map_append, map_append, map_cons]
    exact eraseDups_again known
  obtain ⟨projection, replayed, turns⟩ :=
    replay_turns contentHash ⟨before ++ event :: after, warnings⟩
  obtain ⟨other, again, otherTurns⟩ := replay_turns contentHash ⟨before ++ after, warnings⟩
  simp only [same, order] at turns
  rw [← otherTurns] at turns
  have sameTurns : projection.turns = other.turns :=
    map_injective_iff.mpr (Option.some_injective _) turns
  have warned : projection.warnings = other.warnings := by
    obtain ⟨_, _, rfl⟩ := Option.map_eq_some_iff.mp replayed
    obtain ⟨_, _, rfl⟩ := Option.map_eq_some_iff.mp again
    rfl
  rw [replayed, again]
  obtain ⟨projected, kept⟩ := projection
  obtain ⟨otherProjected, otherKept⟩ := other
  cases sameTurns
  cases warned
  rfl

end

/-- For every journal: the last rejection of a turn decides its status unless a retry of its id follows
it, else the end of the turn does; behind that end no event but the two late kinds changes the
projection; and a turn that counts as rejected only shows the context of a request size recovery, and
none when no historical media was cleaned before it ended. -/
theorem turn_outcome_follows_last_rejection {Stamp : Type}
    (contentHash : List SessionContentBlock → Option Text)
    (read : TurnJournalRead Stamp TurnJournalEventKind) :
    ∃ projection, replayTurnJournal contentHash read = some projection ∧
      projection.turns.map TurnJournalTurn.turnId =
        (read.events.map TurnJournalEvent.turnId).eraseDups ∧
      (∀ turn ∈ projection.turns,
        let events := read.events.filter fun event => event.turnId == turn.turnId
        let kinds := live (events.map TurnJournalEvent.kind)
        (∀ status, turn.status = some status ↔ Outcome kinds status) ∧
          (turn.status = some .rejectedByProvider → ∀ context ∈ turn.modelContext,
            context.source = .requestSizeRecovery ∧ .historicalMediaCleaned ∈ kinds)) ∧
      ∀ before event after, read.events = before ++ event :: after →
        (∃ finish ∈ before, finish.turnId = event.turnId ∧ finish.kind.isFinish = true) →
        event.kind.isLate = false →
        replayTurnJournal contentHash { read with events := before ++ after } =
          some projection := by
  obtain ⟨projection, replayed, turns⟩ := replay_turns contentHash read
  refine ⟨projection, replayed, turn_ids turns, ?_, ?_⟩
  · intro turn member
    obtain ⟨last, folded, finished, _⟩ := turn_accumulated replayed member
    generalize turn.turnId = turnId at folded
    rw [finished]
    exact ⟨finish_status folded, finish_context folded⟩
  · intro before event after split finished early
    obtain ⟨events, warnings⟩ := read
    cases split
    rw [← replayed]
    exact (replay_finished finished early).symm

def LastUnretried (kinds : List TurnJournalEventKind) (status : TurnJournalStatus) : Prop :=
  ∃ before rejectionId discardTurn after,
    kinds = before ++ .providerRequestRejected rejectionId discardTurn :: after ∧
      .providerRequestRetriedAfterRejection rejectionId ∉ after ∧
      (∀ early laterId laterDiscard late,
        after = early ++ .providerRequestRejected laterId laterDiscard :: late →
        .providerRequestRetriedAfterRejection laterId ∈ late) ∧
      status = rejectionOutcome discardTurn

namespace Superseded

def kinds : List TurnJournalEventKind :=
  [.providerRequestRejected 1 true, .providerRequestRejected 2 true,
    .providerRequestRetriedAfterRejection 2]

def journal : TurnJournalRead Unit TurnJournalEventKind :=
  ⟨kinds.map fun kind => ⟨1, "turn".toList, (), kind⟩, []⟩

theorem first_unretried : LastUnretried kinds .rejectedByProvider := by
  refine ⟨[], 1, true, _, rfl, by simp, ?_, rfl⟩
  rintro (_ | ⟨_, _ | ⟨_, early⟩⟩) laterId laterDiscard late split
  · cases split
    exact mem_cons_self
  · cases split
  · have tooLong := congrArg length split
    simp at tooLong

end Superseded

/-- Not every rejection that was never retried counts: a later one takes its place, and the
retry of that one clears both. -/
theorem unretried_rejection_is_superseded :
    ¬ ∀ projection, replayTurnJournal (fun _ => none) Superseded.journal = some projection →
      ∀ turn ∈ projection.turns, ∀ status, LastUnretried Superseded.kinds status →
        turn.status = some status := by
  intro stated
  obtain ⟨projection, replayed, turns⟩ := replay_turns (fun _ => none) Superseded.journal
  have single : projection.turns.map some =
      [(accumulate (fun _ => none) "turn".toList Superseded.journal.events).map
        TurnAccumulator.finish] := turns
  obtain ⟨turn, whole⟩ : ∃ turn, projection.turns = [turn] := by
    have one := congrArg length single
    rw [length_map] at one
    exact length_eq_one_iff.mp one
  have status := stated projection replayed turn (by rw [whole]; exact mem_cons_self) _
    Superseded.first_unretried
  rw [whole] at single
  have projected : some turn.status = some none := by
    have read := congrArg (map (Option.map TurnJournalTurn.status)) single
    exact (List.cons.inj read).1
  rw [status] at projected
  cases projected

end AgentClaimNetwork.Session
