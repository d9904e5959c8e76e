import AgentClaimNetwork.Api.ProviderProgress

/-!
What the stored window says of the requests of a turn, for every order of callbacks.
-/

namespace AgentClaimNetwork.Api.ProviderProgress

open Session.ProviderWal Library
open Bool (false_eq_true not_eq_true true_eq_false)
open PreflightCompactor (abandoned_none abandoned_rolledBack providerRequestStarted reaches
  ready_unreached ready_written)

variable {Message Identity Stamp : Type} [DecidableEq Message] {callback : Callback Message Stamp}

abbrev Compaction (Message Identity Stamp : Type) : Type :=
  Option (CompactionState Message Identity Stamp)

section

/-- What a run has shown so far: where the stored window comes from, what a rollback has to
bring back, and which requests are open. -/
structure Ledger (Message Identity Stamp : Type) where
  /-- The stored window was last written by preparing a request, in full. -/
  windowIsRequest : Bool := false
  /-- The same of the window in the compactor's snapshot. -/
  snapshotIsRequest : Bool := false
  /-- The compactor's snapshot was taken by a checkpoint. -/
  checkpointed : Bool := false
  /-- What was stored just before the request that is prepared and not yet sent. -/
  unsent : Option (Compaction Message Identity Stamp) := none
  /-- The started requests of this attempt that were neither resolved nor answered. -/
  unanswered : List (List Message) := []
  /-- An earlier attempt of the call left such a request, and none was answered since. -/
  lost : Bool := false

structure Turn (Message Identity Stamp : Type) where
  phase : Phase
  call : Call Message Identity Stamp
  ledger : Ledger Message Identity Stamp

variable (context : TurnContext Identity)

namespace Ledger

variable (ledger : Ledger Message Identity Stamp)

def prepared (before : Compaction Message Identity Stamp) (snapshotIsRequest succeeded : Bool) :
    Ledger Message Identity Stamp :=
  { ledger with
    windowIsRequest := succeeded, snapshotIsRequest, checkpointed := false, unsent := some before }

def rolledBack (succeeded : Bool) : Ledger Message Identity Stamp :=
  { ledger with
    windowIsRequest := succeeded && ledger.snapshotIsRequest, unsent := none, checkpointed := false }

def afterRollback (call : Call Message Identity Stamp) (succeeded : Bool) :
    Ledger Message Identity Stamp :=
  if call.preflight.beforePendingRequest.isSome then ledger.rolledBack succeeded else ledger

def after (call : Call Message Identity Stamp) (succeeded : Bool) :
    Callback Message Stamp → Ledger Message Identity Stamp
  | .nextProviderCall messages canonicalTailCount io =>
    let ledger := { ledger with unanswered := [], lost := false }
    if reaches context canonicalTailCount messages.length messages io then
      ledger.prepared call.preflight.files.read false succeeded
    else { ledger with windowIsRequest := false, snapshotIsRequest := false }
  | .beginProviderAttempt =>
    { ledger with lost := ledger.lost || !ledger.unanswered.isEmpty, unanswered := [] }
  | .beforeProviderRequest messages io =>
    if messages ≠ call.progress.latestMessages ∧
        call.progress.previousMessagesBeforePending = none ∧
        call.progress.latestMessages.isPrefixOf messages = true ∧
        reaches context call.progress.canonicalTailCount messages.length
          messages io = true then
      ledger.prepared call.preflight.files.read ledger.windowIsRequest succeeded
    else ledger
  | .providerRequestStartedAfter messages _ =>
    if succeeded then { ledger with unsent := none, unanswered := messages :: ledger.unanswered }
    else ledger
  | .providerRequestOutcomeResolved messages =>
    if succeeded then { ledger with unanswered := ledger.unanswered.filter (· ≠ messages) }
    else ledger
  | .providerResponseAccepted messages _ =>
    if messages = call.progress.latestMessages then { ledger with unanswered := [], lost := false }
    else ledger
  | .providerResponseCheckpoint history text recorded io =>
    if ((call.progress.fallbackOutputPrefix.isSome && text.isSome) && !recorded) = false ∧
        reaches context call.progress.canonicalTailCount history.length
          history io = true then
      { ledger with windowIsRequest := false, snapshotIsRequest := false, checkpointed := true }
    else ledger
  | .abandonFirstRequest _ => ledger.afterRollback call succeeded
  | .providerRequestAbandonedBeforeSend messages _ =>
    if messages = call.progress.latestMessages ∧ call.progress.latestRequestStarted = false then
      ledger.afterRollback call succeeded
    else ledger
  | .rollbackUnsentRequest _ =>
    if call.progress.latestRequestStarted then ledger else ledger.afterRollback call succeeded
  | .showText _ | .prepareFallback _ => ledger

end Ledger

section

variable (turn : Turn Message Identity Stamp)

def Turn.following (callback : Callback Message Stamp) : Turn Message Identity Stamp where
  phase := turn.phase.after (turn.call.respond context callback).2 callback
  call := (turn.call.respond context callback).1
  ledger := turn.ledger.after context turn.call (turn.call.respond context callback).2 callback

def Step (callback : Callback Message Stamp) (next : Turn Message Identity Stamp) : Prop :=
  turn.phase.permits callback = true ∧ next = turn.following context callback

def Meets : Callback Message Stamp → Prop
  | .providerRequestStartedAfter messages _ =>
    messages = turn.call.progress.latestMessages → turn.ledger.windowIsRequest = true
  | .beforeProviderRequest messages _ =>
    messages = turn.call.progress.latestMessages ∨
      turn.call.progress.previousMessagesBeforePending.isSome = true ∨
      turn.call.progress.latestRequestStarted = false
  | .abandonFirstRequest _ => turn.ledger.checkpointed = false
  | .providerRequestAbandonedBeforeSend messages _ =>
    messages = turn.call.progress.latestMessages → turn.call.progress.latestRequestStarted = false →
      turn.ledger.checkpointed = false
  | .rollbackUnsentRequest _ =>
    turn.call.progress.latestRequestStarted = false → turn.ledger.checkpointed = false
  | _ => True

def MeetingStep (callback : Callback Message Stamp) (next : Turn Message Identity Stamp) : Prop :=
  Step context turn callback next ∧ Meets turn callback

end

def starting (files : WalFiles Message Identity Stamp) : Turn Message Identity Stamp where
  phase := .idle
  call := {
    progress := { latestMessages := [], canonicalTailCount := 0 }
    preflight := {
      files
      beforePendingRequest := none
      beforeStartedRequest := none
      beforeCleanRetry := none
      lastCompactedProviderHistory := none
      responseAcceptedInTurn := false } }
  ledger := {}

end

section

variable (context : TurnContext Identity)

def StepSafe (turn next : Turn Message Identity Stamp) : Callback Message Stamp → Prop
  | .providerRequestStartedAfter messages _ => Holds context next.call.preflight.files.read messages
  | .abandonFirstRequest _ | .providerRequestAbandonedBeforeSend _ _ | .rollbackUnsentRequest _ =>
    next.call.preflight.files.read = turn.ledger.unsent.getD turn.call.preflight.files.read
  | _ => True

def Remembered (turn : Turn Message Identity Stamp) : Prop :=
  turn.ledger.lost = true → turn.call.progress.ambiguousSendSeen = true

end
variable {ambiguous : Bool}

section

structure Invariant (context : TurnContext Identity) (turn : Turn Message Identity Stamp) : Prop where
  window : turn.ledger.windowIsRequest = true →
    Holds context turn.call.preflight.files.read turn.call.progress.latestMessages
  snapshot : turn.ledger.snapshotIsRequest = true → ∀ previous,
    turn.call.preflight.beforePendingRequest = some previous →
      Holds context previous (turn.call.progress.previousMessagesBeforePending.getD
        turn.call.progress.latestMessages)
  pending : turn.ledger.checkpointed = false →
    turn.call.preflight.beforePendingRequest = turn.ledger.unsent
  started : turn.call.progress.latestRequestStarted = true → turn.ledger.unsent = none
  answered : turn.call.progress.latestRequestStarted = false → turn.ledger.unanswered = []
  current : ∀ messages ∈ turn.ledger.unanswered, messages = turn.call.progress.latestMessages
  lost : Remembered turn
  clean : turn.call.preflight.beforeCleanRetry = none
  restorable : ∀ previous, turn.call.preflight.beforePendingRequest = some previous →
    (WalFiles.written previous).read = previous
  settled : turn.ledger.windowIsRequest = true →
    turn.call.preflight.beforePendingRequest = none →
      turn.call.progress.previousMessagesBeforePending = none

variable {context : TurnContext Identity} {turn : Turn Message Identity Stamp}

omit [DecidableEq Message] in
theorem starting_invariant :
    Invariant context (starting files) := by
  constructor <;> simp [starting, Remembered]

omit [DecidableEq Message] in
theorem Call.acceptFallbackText_fields (text : Option Text)
    (progress : ProviderRequestProgress Message) :
    (acceptFallbackText text progress).latestMessages = progress.latestMessages ∧
    (acceptFallbackText text progress).canonicalTailCount = progress.canonicalTailCount ∧
    (acceptFallbackText text progress).latestRequestStarted = progress.latestRequestStarted ∧
    (acceptFallbackText text progress).ambiguousSendSeen = progress.ambiguousSendSeen ∧
    (acceptFallbackText text progress).previousMessagesBeforePending =
      progress.previousMessagesBeforePending := by
  unfold acceptFallbackText
  split <;> exact ⟨rfl, rfl, rfl, rfl, rfl⟩

section

variable (kept : Invariant context turn)

include kept

theorem beginProviderAttempt_invariant :
    Invariant context (Turn.following context turn .beginProviderAttempt) where
  window := kept.window
  snapshot := kept.snapshot
  pending := kept.pending
  started := nofun
  answered _ := rfl
  current := nofun
  lost := by
    simp only [Remembered, Turn.following, Call.respond, Call.beginProviderAttempt, Ledger.after,
      Bool.or_eq_true]
    rintro (lost | left)
    · exact .inl (kept.lost lost)
    · refine .inr ?_
      by_contra unstarted
      rw [kept.answered (not_eq_true _ ▸ unstarted)] at left
      cases left
  clean := kept.clean
  restorable := kept.restorable
  settled := kept.settled

theorem providerRequestStartedAfter_invariant : Invariant context
      (Turn.following context turn (.providerRequestStartedAfter messages ambiguous)) := by
  unfold Turn.following
  simp only [Call.respond, Call.providerRequestStartedAfter, Ledger.after, Phase.after]
  by_cases same : messages = turn.call.progress.latestMessages
  · have pending : turn.call.preflight.providerRequestStarted.beforePendingRequest = none := by
      unfold providerRequestStarted
      split
      · rfl
      · exact Option.not_isSome_iff_eq_none.mp ‹_›
    have files : turn.call.preflight.providerRequestStarted.files = turn.call.preflight.files := by
      unfold providerRequestStarted
      split <;> rfl
    have clean : turn.call.preflight.providerRequestStarted.beforeCleanRetry =
        turn.call.preflight.beforeCleanRetry := by
      unfold providerRequestStarted
      split <;> rfl
    simp only [same, ne_eq, not_true, if_false, if_true]
    exact {
      window := by
        rw [files]
        exact kept.window
      snapshot := fun _ previous taken => by rw [pending] at taken; cases taken
      pending := fun _ => pending
      started := fun _ => rfl
      answered := nofun
      current := by
        intro other member
        rcases List.mem_cons.mp member with rfl | member
        · rfl
        · exact kept.current other member
      lost := fun lost => by simp [kept.lost lost]
      clean := clean.trans kept.clean
      restorable := fun previous taken => by rw [pending] at taken; cases taken
      settled := fun _ _ => rfl }
  · simp only [same, ne_eq, not_false_eq_true, if_true, false_eq_true, if_false]
    exact { kept with }

theorem providerRequestOutcomeResolved_invariant :
    Invariant context (Turn.following context turn (.providerRequestOutcomeResolved messages)) := by
  unfold Turn.following
  simp only [Call.respond, Call.providerRequestOutcomeResolved, Ledger.after, Phase.after]
  by_cases same : messages = turn.call.progress.latestMessages
  · have answered : turn.ledger.unanswered.filter (· ≠ messages) = [] :=
      List.filter_eq_nil_iff.mpr fun other member => by simp [same, kept.current other member]
    simp only [same, ne_eq, not_true, if_false, if_true] at answered ⊢
    exact { kept with
      started := nofun
      answered := fun _ => answered
      current := by
        intro other member
        rw [show _ = _ from answered] at member
        cases member }
  · simp only [same, ne_eq, not_false_eq_true, if_true, false_eq_true, if_false]
    exact { kept with }

theorem providerResponseAccepted_invariant :
    Invariant context (Turn.following context turn (.providerResponseAccepted messages recorded)) := by
  unfold Turn.following
  simp only [Call.respond, Call.providerResponseAccepted, Call.providerRequestOutcomeResolved,
    Ledger.after, Phase.after]
  by_cases same : messages = turn.call.progress.latestMessages
  · simp only [same, ne_eq, not_true, if_false, if_true, true_eq_false]
    split
    all_goals
      exact { kept with
        started := nofun, answered := fun _ => rfl, current := nofun, lost := nofun }
  · simp only [same, ne_eq, not_false_eq_true, if_true, if_false]
    exact { kept with }

omit [DecidableEq Message] in
theorem progress_invariant
    (latest : progress.latestMessages = turn.call.progress.latestMessages)
    (started : progress.latestRequestStarted = turn.call.progress.latestRequestStarted)
    (ambiguous : progress.ambiguousSendSeen = turn.call.progress.ambiguousSendSeen)
    (previous : progress.previousMessagesBeforePending =
      turn.call.progress.previousMessagesBeforePending) :
    Invariant context { turn with call := { turn.call with progress } } where
  window := by
    rw [latest]
    exact kept.window
  snapshot := by
    rw [latest, previous]
    exact kept.snapshot
  pending := kept.pending
  started := by
    rw [started]
    exact kept.started
  answered := by
    rw [started]
    exact kept.answered
  current := by
    rw [latest]
    exact kept.current
  lost := by
    simp only [Remembered]
    rw [ambiguous]
    exact kept.lost
  clean := kept.clean
  restorable := kept.restorable
  settled := by
    rw [previous]
    exact kept.settled

omit [DecidableEq Message] in
theorem rollback_invariant (unstarted : turn.call.progress.latestRequestStarted = false) :
    Invariant context {
      phase := turn.phase
      call := (turn.call.rollbackUnsentRequest cut).1
      ledger := turn.ledger.afterRollback turn.call (turn.call.rollbackUnsentRequest cut).2 } := by
  simp only [Call.rollbackUnsentRequest, unstarted, false_eq_true, if_false,
    Ledger.afterRollback]
  have unanswered := kept.answered unstarted
  cases pending : turn.call.preflight.beforePendingRequest with
  | none =>
    simp only [abandoned_none pending, true_eq_false, if_false,
      Option.isSome_none, false_eq_true]
    exact { kept with
      started := nofun
      window := fun window => by
        rw [kept.settled window pending]
        exact kept.window window
      snapshot := fun _ previous taken => by rw [pending] at taken; cases taken
      current := fun other member => by
        rw [show _ = _ from unanswered] at member
        cases member
      answered := fun _ => unanswered
      settled := fun _ _ => rfl }
  | some previous =>
    have rolled := abandoned_rolledBack pending cut
    have restorable := kept.restorable previous pending
    simp only [Option.isSome_some, if_true, Ledger.rolledBack]
    cases done : (turn.call.preflight.providerRequestAbandonedBeforeSend cut).2 with
    | false =>
      simp only [if_true, Bool.false_and]
      exact {
        window := nofun
        snapshot := fun _ other taken => by
          rw [show _ = _ from rolled.pending] at taken
          cases taken
        pending := fun _ => rolled.pending
        started := fun _ => rfl
        answered := fun _ => unanswered
        current := kept.current
        lost := kept.lost
        clean := rolled.clean.trans kept.clean
        restorable := fun other taken => by
          rw [show _ = _ from rolled.pending] at taken
          cases taken
        settled := nofun }
    | true =>
      rw [done] at rolled
      simp only [true_eq_false, if_false, Bool.true_and]
      exact {
        window := fun window => by
          rw [rolled.restored rfl restorable]
          exact kept.snapshot window previous pending
        snapshot := fun _ other taken => by
          rw [show _ = _ from rolled.pending] at taken
          cases taken
        pending := fun _ => rolled.pending
        started := fun _ => rfl
        answered := fun _ => unanswered
        current := fun other member => by
          rw [show _ = _ from unanswered] at member
          cases member
        lost := kept.lost
        clean := rolled.clean.trans kept.clean
        restorable := fun other taken => by
          rw [show _ = _ from rolled.pending] at taken
          cases taken
        settled := fun _ _ => rfl }

omit [DecidableEq Message] in
theorem rollback_restores (unchecked : turn.ledger.checkpointed = false)
    (succeeded : (turn.call.preflight.providerRequestAbandonedBeforeSend cut).2 = true) :
    (turn.call.preflight.providerRequestAbandonedBeforeSend cut).1.files.read =
      turn.ledger.unsent.getD turn.call.preflight.files.read := by
  have same := kept.pending unchecked
  cases pending : turn.call.preflight.beforePendingRequest with
  | none =>
    rw [← same, pending, abandoned_none pending]
    rfl
  | some previous =>
    rw [← same, pending, (abandoned_rolledBack pending cut).restored succeeded
      (kept.restorable previous pending)]
    rfl

omit [DecidableEq Message] in
theorem rollbackUnsentRequest_safe (unchecked : turn.call.progress.latestRequestStarted = false →
      turn.ledger.checkpointed = false)
    (succeeded : (turn.call.rollbackUnsentRequest cut).2 = true) :
    (turn.call.rollbackUnsentRequest cut).1.preflight.files.read =
      turn.ledger.unsent.getD turn.call.preflight.files.read := by
  unfold Call.rollbackUnsentRequest at succeeded ⊢
  cases unstarted : turn.call.progress.latestRequestStarted with
  | true =>
    rw [kept.started unstarted]
    rfl
  | false =>
    simp only [unstarted, false_eq_true, if_false] at succeeded ⊢
    split at succeeded
    · cases succeeded
    · rename_i done
      rw [if_neg done]
      exact rollback_restores kept (unchecked unstarted) (by simpa using done)

theorem started_safe (meets : Meets turn (.providerRequestStartedAfter messages ambiguous))
    (succeeded : (turn.call.providerRequestStartedAfter messages ambiguous).2 = true) :
    Holds context
      (turn.call.providerRequestStartedAfter messages ambiguous).1.preflight.files.read messages := by
  unfold Call.providerRequestStartedAfter at succeeded ⊢
  split at succeeded
  · cases succeeded
  · rename_i accepted
    have same : messages = turn.call.progress.latestMessages := by simpa using accepted
    rw [if_neg accepted]
    have files : turn.call.preflight.providerRequestStarted.files = turn.call.preflight.files := by
      unfold providerRequestStarted
      split <;> rfl
    rw [files, same]
    exact kept.window (meets same)

theorem abandoned_safe (meets : Meets turn (.providerRequestAbandonedBeforeSend messages cut))
    (succeeded : (turn.call.providerRequestAbandonedBeforeSend messages cut).2 = true) :
    (turn.call.providerRequestAbandonedBeforeSend messages cut).1.preflight.files.read =
      turn.ledger.unsent.getD turn.call.preflight.files.read := by
  unfold Call.providerRequestAbandonedBeforeSend at succeeded ⊢
  split at succeeded
  · cases succeeded
  · rename_i accepted
    have same : messages = turn.call.progress.latestMessages := by simpa using accepted
    rw [if_neg accepted]
    split at succeeded
    · cases succeeded
    · rename_i unstarted
      rw [if_neg unstarted]
      exact rollbackUnsentRequest_safe kept (meets same) succeeded

theorem following_safe (meets : Meets turn callback)
    (succeeded : (turn.call.respond context callback).2 = true) :
    StepSafe context turn (Turn.following context turn callback) callback := by
  cases callback with
  | providerRequestStartedAfter => exact started_safe kept meets succeeded
  | abandonFirstRequest => exact rollback_restores kept meets succeeded
  | rollbackUnsentRequest => exact rollbackUnsentRequest_safe kept meets succeeded
  | providerRequestAbandonedBeforeSend => exact abandoned_safe kept meets succeeded
  | _ => trivial


variable (capture : context.captureProviderHistory = true)

include capture

theorem nextProviderCall_invariant :
    Invariant context (Turn.following context turn (.nextProviderCall messages tail io)) := by
  by_cases reached : reaches context tail messages.length messages io = true
  · have written := ready_written capture reached kept.clean
    simp only [Turn.following, Call.respond, Call.nextProviderCall, Ledger.after, reached, if_true,
      Ledger.prepared]
    exact {
      window := written.stored
      snapshot := nofun
      pending := fun _ => written.pending
      started := nofun
      answered := fun _ => rfl
      current := nofun
      lost := nofun
      clean := written.clean
      restorable := fun _ pending => (written.taken pending).2
      settled := fun _ _ => rfl }
  · rw [not_eq_true] at reached
    simp only [Turn.following, Call.respond, Call.nextProviderCall, Ledger.after, reached,
      ready_unreached capture reached]
    exact {
      window := nofun
      snapshot := nofun
      pending := kept.pending
      started := nofun
      answered := fun _ => rfl
      current := nofun
      lost := nofun
      clean := kept.clean
      restorable := kept.restorable
      settled := nofun }

theorem beforeProviderRequest_invariant (meets : Meets turn (.beforeProviderRequest messages io)) :
    Invariant context (Turn.following context turn (.beforeProviderRequest messages io)) := by
  unfold Turn.following
  simp only [Call.respond, Call.beforeProviderRequest, Ledger.after, Phase.after]
  by_cases same : messages = turn.call.progress.latestMessages
  · simp only [same, if_true, ne_eq, not_true, false_and, if_false]
    exact kept
  · by_cases waiting : turn.call.progress.previousMessagesBeforePending.isSome = true
    · have waits : turn.call.progress.previousMessagesBeforePending ≠ none :=
        Option.isSome_iff_ne_none.mp waiting
      simp only [same, waiting, waits, if_true, if_false, ne_eq, not_false_eq_true, true_and,
        false_and]
      exact kept
    · have idle := Option.not_isSome_iff_eq_none.mp waiting
      have unstarted : turn.call.progress.latestRequestStarted = false := by
        rcases meets with equal | waits | unstarted
        · exact absurd equal same
        · exact absurd waits waiting
        · exact unstarted
      have unanswered := kept.answered unstarted
      by_cases extends' : turn.call.progress.latestMessages.isPrefixOf messages = true
      · by_cases reached : reaches context
            turn.call.progress.canonicalTailCount messages.length messages io = true
        · have written := ready_written capture reached kept.clean
          simp only [same, idle, extends', reached, if_false, ne_eq, not_false_eq_true,
            and_self, if_true, true_eq_false, false_eq_true, Option.isSome_none,
            Ledger.prepared]
          cases ready : (turn.call.preflight.providerRequestReady context messages
              turn.call.progress.canonicalTailCount io).2 with
          | false =>
            simp only [if_true]
            exact {
              window := nofun
              snapshot := fun window _ pending => by
                rw [(written.taken pending).1]
                exact kept.window window
              pending := fun _ => written.pending
              started := nofun
              answered := fun _ => unanswered
              current := kept.current
              lost := kept.lost
              clean := written.clean
              restorable := fun _ pending => (written.taken pending).2
              settled := nofun }
          | true =>
            rw [ready] at written
            simp only [true_eq_false, if_false]
            exact {
              window := fun _ => written.stored rfl
              snapshot := fun window _ pending => by
                rw [(written.taken pending).1]
                exact kept.window window
              pending := fun _ => written.pending
              started := nofun
              answered := fun _ => unanswered
              current := by
                intro other member
                rw [unanswered] at member
                cases member
              lost := kept.lost
              clean := written.clean
              restorable := fun _ pending => (written.taken pending).2
              settled := fun _ pending => by rw [written.pending] at pending; cases pending }
        · rw [not_eq_true] at reached
          simp only [same, waiting, extends', reached, if_false, false_eq_true, and_false,
            ready_unreached capture reached, if_true, true_eq_false]
          exact { kept with started := nofun, answered := fun _ => unanswered }
      · rw [not_eq_true] at extends'
        simp only [same, waiting, extends', if_false, if_true, false_eq_true, false_and,
          and_false]
        exact { kept with started := nofun, answered := fun _ => unanswered }

omit [DecidableEq Message] in
theorem checkpoint_invariant (reached : reaches context tail history.length history io = true) :
    Invariant context {
      phase := turn.phase
      call := {
        progress := turn.call.progress
        preflight := (turn.call.preflight.providerResponseCheckpoint context history tail io).1 }
      ledger := { turn.ledger with
        windowIsRequest := false, snapshotIsRequest := false, checkpointed := true } } := by
  have written := ready_written capture reached kept.clean
  exact {
    window := nofun
    snapshot := nofun
    pending := nofun
    started := kept.started
    answered := kept.answered
    current := kept.current
    lost := kept.lost
    clean := written.clean
    restorable := by
      intro before pending
      cases written.pending.symm.trans pending
      exact WalFiles.read_written
    settled := nofun }

theorem providerResponseCheckpoint_invariant : Invariant context
      (Turn.following context turn (.providerResponseCheckpoint history text recorded io)) := by
  obtain ⟨latest, tail, started, ambiguous, previous⟩ := Call.acceptFallbackText_fields text
    { turn.call.progress with preparingWriteAhead := true }
  unfold Turn.following
  simp only [Call.respond, Call.providerResponseCheckpoint, Ledger.after, Phase.after]
  by_cases refused : ((turn.call.progress.fallbackOutputPrefix.isSome && text.isSome) &&
      !recorded) = true
  · simp only [refused, if_true, true_eq_false, false_and, if_false]
    exact progress_invariant kept rfl rfl rfl rfl
  · simp only [refused, false_eq_true, if_false, true_and, tail]
    by_cases reached : reaches context turn.call.progress.canonicalTailCount
        history.length history io = true
    · simp only [reached, if_true]
      exact progress_invariant (checkpoint_invariant kept capture reached) latest started
        ambiguous previous
    · rw [not_eq_true] at reached
      have unwritten : turn.call.preflight.providerResponseCheckpoint context history
          turn.call.progress.canonicalTailCount io = (turn.call.preflight, false) :=
        ready_unreached capture reached
      simp only [reached, unwritten, false_eq_true, if_false]
      exact progress_invariant kept latest started ambiguous previous

theorem following_invariant (meets : Meets turn callback)
    (goesOn : ∀ cut, callback ≠ .abandonFirstRequest cut) :
    Invariant context (Turn.following context turn callback) := by
  cases callback with
  | nextProviderCall messages tail io => exact nextProviderCall_invariant kept capture
  | abandonFirstRequest cut => exact absurd rfl (goesOn cut)
  | beginProviderAttempt => exact beginProviderAttempt_invariant kept
  | beforeProviderRequest messages io => exact beforeProviderRequest_invariant kept capture meets
  | providerRequestStartedAfter messages ambiguous =>
    exact providerRequestStartedAfter_invariant kept
  | providerRequestOutcomeResolved messages => exact providerRequestOutcomeResolved_invariant kept
  | providerResponseAccepted messages recorded => exact providerResponseAccepted_invariant kept
  | providerResponseCheckpoint history text recorded io =>
    exact providerResponseCheckpoint_invariant kept capture
  | showText text =>
    unfold Turn.following
    simp only [Call.respond, Call.showText, Ledger.after, Phase.after]
    split
    · exact kept
    · exact progress_invariant kept rfl rfl rfl rfl
  | prepareFallback outputPrefix => exact progress_invariant kept rfl rfl rfl rfl
  | rollbackUnsentRequest cut =>
    unfold Turn.following
    simp only [Call.respond, Ledger.after, Phase.after]
    cases unstarted : turn.call.progress.latestRequestStarted with
    | true =>
      simp only [Call.rollbackUnsentRequest, unstarted, if_true]
      exact kept
    | false =>
      exact rollback_invariant kept unstarted
  | providerRequestAbandonedBeforeSend messages cut =>
    unfold Turn.following
    simp only [Call.respond, Call.providerRequestAbandonedBeforeSend, Ledger.after, Phase.after]
    by_cases same : messages = turn.call.progress.latestMessages
    · cases unstarted : turn.call.progress.latestRequestStarted with
      | true =>
        simp only [same, ne_eq, not_true, if_false, if_true, true_eq_false, and_false]
        exact kept
      | false =>
        simp only [same, ne_eq, not_true, if_false, false_eq_true, and_self, if_true]
        exact rollback_invariant kept unstarted
    · simp only [same, ne_eq, not_false_eq_true, if_true, false_and, if_false]
      exact kept
end

end

section

variable {context : TurnContext Identity} {callbacks : List (Callback Message Stamp)}
  {turn : Turn Message Identity Stamp}

theorem following_remembered
    (capture : context.captureProviderHistory = true) (kept : Invariant context turn)
    (meets : Meets turn callback) : Remembered (Turn.following context turn callback) := by
  by_cases goesOn : ∀ cut, callback ≠ .abandonFirstRequest cut
  · exact (following_invariant kept capture meets goesOn).lost
  · push Not at goesOn
    obtain ⟨cut, rfl⟩ := goesOn
    simp only [Remembered, Turn.following, Call.respond, Call.abandonFirstRequest, Ledger.after,
      Ledger.afterRollback]
    split <;> exact kept.lost

def Sound (context : TurnContext Identity) (turn : Turn Message Identity Stamp) : Prop :=
  Remembered turn ∧ (turn.phase ≠ .ended → Invariant context turn)

omit [DecidableEq Message] in
theorem not_ended (permitted : turn.phase.permits callback = true) : turn.phase ≠ .ended := by
  intro exceeds
  rw [exceeds] at permitted
  cases permitted

theorem sound_step (capture : context.captureProviderHistory = true)
    (taken : MeetingStep context turn callback next) (sound : Sound context turn) :
    Sound context next := by
  obtain ⟨⟨permitted, rfl⟩, meets⟩ := taken
  have kept := sound.2 (not_ended permitted)
  refine ⟨following_remembered capture kept meets, fun goesOn => ?_⟩
  refine following_invariant kept capture meets ?_
  rintro cut rfl
  exact goesOn rfl

theorem run_sound (capture : context.captureProviderHistory = true)
    (run : Trace (MeetingStep context) (starting files) callbacks turn) : Sound context turn := by
  induction run with
  | nil => exact ⟨nofun, fun _ => starting_invariant⟩
  | snoc _ taken sound => exact sound_step capture taken sound

/-- In every run whose callbacks all meet the condition, the request that is marked started is
the stored window, a rollback restores what was stored before its request and removes nothing
else, and a request whose outcome stayed open is remembered. -/
theorem write_ahead_is_exact (context : TurnContext Identity)
    (capture : context.captureProviderHistory = true) (files : WalFiles Message Identity Stamp)
    {callbacks : List (Callback Message Stamp)} {turn : Turn Message Identity Stamp}
    (run : Trace (MeetingStep context) (starting files) callbacks turn) :
    Remembered turn ∧ ∀ callback, turn.phase.permits callback = true → Meets turn callback →
      (turn.call.respond context callback).2 = true →
        StepSafe context turn (turn.following context callback) callback := by
  obtain ⟨remembered, kept⟩ := run_sound capture run
  exact ⟨remembered, fun callback permitted meets succeeded =>
    following_safe (kept (not_ended permitted)) meets succeeded⟩

instance (turn : Turn Message Identity Stamp) (callback : Callback Message Stamp) :
    Decidable (Meets turn callback) := by
  cases callback <;> unfold Meets <;> infer_instance

variable (context : TurnContext Identity) (turn : Turn Message Identity Stamp)
  (callback : Callback Message Stamp)

def proceed : Option (Turn Message Identity Stamp) :=
  if turn.phase.permits callback then some (turn.following context callback) else none

def proceedMeeting : Option (Turn Message Identity Stamp) :=
  if Meets turn callback then proceed context turn callback else none

end

abbrev ExampleCallback := Callback Nat Nat

def exampleContext : TurnContext Unit where
  turnId := "turn".toList
  baseMessageCount := 0
  providerReplayIdentity := none
  captureProviderHistory := true

def exampleFiles : WalFiles Nat Unit Nat := ⟨none, none⟩

def working : WalIo Nat := ⟨true, 0, none⟩

def unreadable : WalIo Nat := ⟨false, 0, none⟩

def answeredCall : List ExampleCallback :=
  [.nextProviderCall [1] 0 working, .beginProviderAttempt, .providerRequestStartedAfter [1] false,
    .providerResponseAccepted [1] true, .providerResponseCheckpoint [1, 2] none true working]

variable {callbacks : List ExampleCallback} {turn : Turn Nat Unit Nat}

theorem meeting_of_proceed
    (ran : Trace.execute (proceedMeeting exampleContext) (starting exampleFiles) callbacks =
      some turn) :
    Trace (MeetingStep exampleContext) (starting exampleFiles) callbacks turn := by
  refine Trace.mono ?_ (Trace.of_execute ran)
  intro before callback next taken
  unfold proceedMeeting proceed at taken
  split at taken
  · split at taken
    · exact ⟨⟨‹_›, (Option.some.inj taken).symm⟩, ‹_›⟩
    · cases taken
  · cases taken

theorem step_of_proceed
    (ran : Trace.execute (proceed exampleContext) (starting exampleFiles) callbacks = some turn) :
    Trace (Step exampleContext) (starting exampleFiles) callbacks turn := by
  refine Trace.mono ?_ (Trace.of_execute ran)
  intro before callback next taken
  unfold proceed at taken
  split at taken
  · exact ⟨‹_›, (Option.some.inj taken).symm⟩
  · cases taken

/-- The continuation of a checkpointed response is prepared and given up: the response stays. -/
theorem write_ahead_is_exact_continued :
    ∃ turn, Trace.execute (proceedMeeting exampleContext) (starting exampleFiles)
        (answeredCall ++ [.beforeProviderRequest [1, 2, 3] working]) = some turn ∧
      StepSafe exampleContext turn (turn.following exampleContext (.rollbackUnsentRequest none))
        (.rollbackUnsentRequest none : ExampleCallback) := by
  refine ⟨_, rfl, ?_⟩
  have run : Trace (MeetingStep exampleContext) _ _ _ := meeting_of_proceed (Eq.refl
    (Trace.execute (proceedMeeting exampleContext) (starting exampleFiles)
      (answeredCall ++ [.beforeProviderRequest [1, 2, 3] working])))
  exact (write_ahead_is_exact exampleContext rfl exampleFiles run).2 _ rfl (by decide) rfl

theorem not_holds_of_messages {messages : List Nat}
    (different : (compaction.bind (·.providerHistory)).map (·.messages) ≠ some messages) :
    ¬ Holds exampleContext compaction messages := by
  rintro ⟨state, history, rfl, stored, rfl, _⟩
  simp [stored] at different

/-- A rollback takes a checkpointed response away again, a fallback starts a request in a window
that was not written for it, and an unresolved request is forgotten. -/
theorem write_ahead_can_miss : (∃ turn, Trace (Step exampleContext) (starting exampleFiles)
        (answeredCall ++ [.beforeProviderRequest [1, 2, 3] unreadable]) turn ∧
      (turn.call.respond exampleContext (.rollbackUnsentRequest none)).2 = true ∧
      ¬ StepSafe exampleContext turn (turn.following exampleContext (.rollbackUnsentRequest none))
        (.rollbackUnsentRequest none : ExampleCallback)) ∧
    (∃ turn, Trace (Step exampleContext) (starting exampleFiles)
        (answeredCall ++ [.beforeProviderRequest [1, 2, 3] working, .rollbackUnsentRequest none,
          .beginProviderAttempt]) turn ∧
      (turn.call.respond exampleContext (.providerRequestStartedAfter [1] false)).2 = true ∧
      ¬ StepSafe exampleContext turn
        (turn.following exampleContext (.providerRequestStartedAfter [1] false))
        (.providerRequestStartedAfter [1] false : ExampleCallback)) ∧
    (∃ turn, Trace (Step exampleContext) (starting exampleFiles)
        [.nextProviderCall [1] 0 working, .providerRequestStartedAfter [1] false,
          .beforeProviderRequest [1, 2] working, .beginProviderAttempt] turn ∧
      ¬ Remembered turn) := by
  refine ⟨⟨_, step_of_proceed rfl, rfl, ?_⟩, ⟨_, step_of_proceed rfl, rfl, ?_⟩,
    ⟨_, step_of_proceed rfl, ?_⟩⟩
  · intro kept
    have gone := congrArg (fun compaction =>
      (compaction.bind (·.providerHistory)).map (·.messages)) kept
    exact absurd gone (by decide)
  · exact not_holds_of_messages (by decide)
  · exact fun remembered => Bool.false_ne_true (remembered rfl)

end AgentClaimNetwork.Api.ProviderProgress
