import AgentClaimNetwork.Session.Metadata

/-!
The provider history stored before a request, from `src/session/mod.rs`, and the compactor of a
main turn, from `src/agent/session_engine.rs`.
-/

namespace AgentClaimNetwork.Session.ProviderWal

structure PendingProviderHistoryTurn where
  turnId : Api.Text
  baseMessageCount : Nat
  providerRequestMessageCount : Option Nat

structure CompactedProviderHistory (Message Identity : Type) where
  replayIdentity : Option Identity
  recoveryTurnId : Option Api.Text
  recoveryBaseMessageCount : Option Nat
  pendingTurn : Option PendingProviderHistoryTurn
  canonicalMessageUntil : Nat
  messages : List Message

abbrev CompactionState (Message Identity Stamp : Type) :=
  SessionCompactionState (CompactedProviderHistory Message Identity) Stamp

variable {Message Identity Stamp : Type}

section

/-- `provider_history.json`, and the compaction in `session.yaml`, which is written without its
history. -/
structure WalFiles (Message Identity Stamp : Type) where
  providerHistory : Option (CompactedProviderHistory Message Identity)
  compaction : Option (CompactionState Message Identity Stamp)

abbrev Cut := Option Nat

namespace WalFiles

variable (files : WalFiles Message Identity Stamp)

/-- The compaction that `read_metadata` returns. -/
def read : Option (CompactionState Message Identity Stamp) :=
  files.compaction.map fun compaction =>
    { compaction.normalizeActiveTurn with providerHistory := files.providerHistory }

def writeProviderHistoryFile (history : Option (CompactedProviderHistory Message Identity)) :
    WalFiles Message Identity Stamp :=
  { files with providerHistory := history }

/-- The two files after both writes of `update_compaction` or `clear_compaction`. -/
def written (compaction : Option (CompactionState Message Identity Stamp)) :
    WalFiles Message Identity Stamp where
  providerHistory := compaction.bind SessionCompactionState.providerHistory
  compaction := compaction.map fun state =>
    { state.normalizeActiveTurn with providerHistory := none }

/-- `update_compaction` or `clear_compaction`, and the sync of the directory behind it. -/
def replaceCompaction (cut : Cut)
    (compaction : Option (CompactionState Message Identity Stamp)) :
    WalFiles Message Identity Stamp × Bool :=
  match cut with
  | none => (written compaction, true)
  | some 0 => (files, false)
  | some 1 =>
    (files.writeProviderHistoryFile
      (compaction.bind SessionCompactionState.providerHistory), false)
  | some _ => (written compaction, false)

end WalFiles

variable {files : WalFiles Message Identity Stamp}

theorem WalFiles.read_written :
    (written files.read).read = files.read := by
  cases compaction : files.compaction with
  | none => simp [written, read, compaction]
  | some state =>
    simp [written, read, compaction, SessionCompactionState.normalizeActiveTurn_withHistory, SessionCompactionState.normalizeActiveTurn_idem]

theorem WalFiles.read_written_some (state : CompactionState Message Identity Stamp) :
    (written (some state)).read = some state.normalizeActiveTurn := by
  simp only [written, read, Option.map_some, Option.bind_some,
    SessionCompactionState.normalizeActiveTurn_withHistory,
    SessionCompactionState.normalizeActiveTurn_idem]
  rw [← SessionCompactionState.normalizeActiveTurn_providerHistory state]

theorem WalFiles.replaceCompaction_ok
    {compaction : Option (CompactionState Message Identity Stamp)}
    (ok : (files.replaceCompaction cut compaction).2 = true) :
    (files.replaceCompaction cut compaction).1 = written compaction := by
  unfold replaceCompaction at ok ⊢
  split at ok
  · rfl
  all_goals cases ok

end

structure TurnContext (Identity : Type) where
  turnId : Api.Text
  baseMessageCount : Nat
  providerReplayIdentity : Option Identity
  captureProviderHistory : Bool

/-- The part of `PreflightCompactor` that changes with the requests of its turn, and the files of
its session. -/
structure PreflightCompactor (Message Identity Stamp : Type) where
  files : WalFiles Message Identity Stamp
  beforePendingRequest : Option (Option (CompactionState Message Identity Stamp))
  beforeStartedRequest : Option (Option (CompactionState Message Identity Stamp))
  beforeCleanRetry : Option (Option (CompactionState Message Identity Stamp))
  lastCompactedProviderHistory : Option (List Message)
  responseAcceptedInTurn : Bool

structure WalIo (Stamp : Type) where
  readable : Bool
  now : Stamp
  cut : Cut

variable (context : TurnContext Identity)

namespace PreflightCompactor

variable (compactor : PreflightCompactor Message Identity Stamp)

section

variable (canonicalTailCount providerRequestMessageCount : Nat) (providerMessages : List Message)

def persisted (now : Stamp) :
    CompactionState Message Identity Stamp :=
  let compaction := compactor.files.read.getD
    (SessionCompactionState.fromCommittedSummary 0 [] now)
  { compaction with
    providerHistory := some {
      replayIdentity := context.providerReplayIdentity
      recoveryTurnId := compaction.providerHistory.bind (·.recoveryTurnId)
      recoveryBaseMessageCount := compaction.providerHistory.bind (·.recoveryBaseMessageCount)
      pendingTurn := some {
        turnId := context.turnId
        baseMessageCount := context.baseMessageCount
        providerRequestMessageCount := some providerRequestMessageCount }
      canonicalMessageUntil := context.baseMessageCount + canonicalTailCount
      messages := providerMessages } }

def reaches (io : WalIo Stamp) : Bool :=
  context.captureProviderHistory &&
    decide (context.baseMessageCount + canonicalTailCount < 2 ^ 64) &&
    decide (providerRequestMessageCount ≤ providerMessages.length) && io.readable

end

def persistProviderHistory (providerMessages : List Message)
    (canonicalTailCount providerRequestMessageCount : Nat) (io : WalIo Stamp) :
    PreflightCompactor Message Identity Stamp × Bool :=
  if context.captureProviderHistory = false then (compactor, true)
  else if reaches context canonicalTailCount providerRequestMessageCount providerMessages io =
      false then (compactor, false)
  else
    let previous := compactor.beforeCleanRetry.getD compactor.files.read
    let updated := compactor.files.replaceCompaction io.cut (some (compactor.persisted context
      canonicalTailCount providerRequestMessageCount providerMessages io.now))
    ({ compactor with
        files := updated.1
        beforePendingRequest := some previous
        beforeCleanRetry := none
        lastCompactedProviderHistory :=
          if updated.2 then some providerMessages else compactor.lastCompactedProviderHistory },
      updated.2)

def providerRequestReady (providerMessages : List Message) (canonicalTailCount : Nat)
    (io : WalIo Stamp) : PreflightCompactor Message Identity Stamp × Bool :=
  compactor.persistProviderHistory context providerMessages canonicalTailCount
    providerMessages.length io

def providerResponseCheckpoint (providerMessages : List Message) (canonicalTailCount : Nat)
    (io : WalIo Stamp) : PreflightCompactor Message Identity Stamp × Bool :=
  compactor.persistProviderHistory context providerMessages canonicalTailCount
    providerMessages.length io

/-- Saves the answered history behind the request that stands in the files. -/
def providerResponseReady (providerMessages : List Message) (canonicalTailCount : Nat)
    (io : WalIo Stamp) : PreflightCompactor Message Identity Stamp × Bool :=
  let providerHistory :=
    if io.readable then compactor.files.read.bind (·.providerHistory) else none
  match providerHistory with
  | none => (compactor, false)
  | some history =>
    match history.pendingTurn.filter fun pending => pending.turnId = context.turnId with
    | none => (compactor, false)
    | some pending =>
      let count := pending.providerRequestMessageCount.getD history.messages.length
      if providerMessages.length < count then (compactor, false)
      else compactor.persistProviderHistory context providerMessages canonicalTailCount count io

def providerRequestStarted : PreflightCompactor Message Identity Stamp :=
  if compactor.beforePendingRequest.isSome then
    { compactor with
      beforeStartedRequest := compactor.beforePendingRequest, beforePendingRequest := none }
  else compactor

def providerRequestAbandonedBeforeSend (cut : Cut) :
    PreflightCompactor Message Identity Stamp × Bool :=
  match compactor.beforePendingRequest with
  | none => (compactor, true)
  | some previous =>
    let updated := compactor.files.replaceCompaction cut previous
    ({ compactor with
        files := updated.1
        beforePendingRequest := none
        lastCompactedProviderHistory :=
          if updated.2 then
            (updated.1.read.bind (·.providerHistory)).map (·.messages)
          else compactor.lastCompactedProviderHistory },
      updated.2)

def providerResponseAccepted : PreflightCompactor Message Identity Stamp :=
  { compactor with responseAcceptedInTurn := true }

end PreflightCompactor

def Stores (count : Nat) (compaction : Option (CompactionState Message Identity Stamp))
    (messages : List Message) : Prop :=
  ∃ state history, compaction = some state ∧ state.providerHistory = some history ∧
    history.messages = messages ∧ history.pendingTurn = some {
      turnId := context.turnId
      baseMessageCount := context.baseMessageCount
      providerRequestMessageCount := some count }

def Holds (compaction : Option (CompactionState Message Identity Stamp))
    (messages : List Message) : Prop :=
  Stores context messages.length compaction messages

namespace PreflightCompactor

variable {context} {compactor : PreflightCompactor Message Identity Stamp} {messages : List Message}

theorem ready_unreached (capture : context.captureProviderHistory = true)
    (unreached : reaches context tail messages.length messages io = false) :
    compactor.providerRequestReady context messages tail io = (compactor, false) := by
  simp [providerRequestReady, persistProviderHistory, capture, unreached]

structure Written (context : TurnContext Identity)
    (compactor after : PreflightCompactor Message Identity Stamp) (messages : List Message)
    (succeeded : Bool) : Prop where
  pending : after.beforePendingRequest = some compactor.files.read
  clean : after.beforeCleanRetry = none
  stored : succeeded = true → Holds context after.files.read messages

theorem persisted_stores (capture : context.captureProviderHistory = true)
    (succeeded : (compactor.persistProviderHistory context messages tail count io).2 = true) :
    Stores context count (compactor.persistProviderHistory context messages tail count io).1.files.read
      messages := by
  unfold persistProviderHistory at succeeded ⊢
  rw [if_neg (by simp [capture])] at succeeded ⊢
  split_ifs at succeeded ⊢
  dsimp only at succeeded ⊢
  rw [WalFiles.replaceCompaction_ok succeeded, WalFiles.read_written_some]
  exact ⟨_, _, rfl, SessionCompactionState.normalizeActiveTurn_providerHistory _, rfl, rfl⟩

/-- The answer of a request is saved with the count of that request. -/
theorem response_ready_stores (holds : Holds context compactor.files.read messages)
    (capture : context.captureProviderHistory = true)
    (succeeded : (compactor.providerResponseReady context answered tail io).2 = true) :
    messages.length ≤ answered.length ∧ Stores context messages.length
      (compactor.providerResponseReady context answered tail io).1.files.read answered := by
  obtain ⟨state, history, isState, isHistory, -, pending⟩ := holds
  unfold providerResponseReady at succeeded ⊢
  cases readable : io.readable with
  | false => simp [readable] at succeeded
  | true =>
    simp only [readable, if_true, isState, Option.bind_some, isHistory, pending,
      Option.filter_some, decide_true, Option.getD_some] at succeeded ⊢
    split_ifs at succeeded ⊢ with shorter
    exact ⟨Nat.le_of_not_lt shorter, persisted_stores capture succeeded⟩

theorem Written.taken {after : PreflightCompactor Message Identity Stamp}
    (written : Written context compactor after messages succeeded)
    (pending : after.beforePendingRequest = some previous) :
    previous = compactor.files.read ∧ (WalFiles.written previous).read = previous := by
  rw [written.pending] at pending
  cases pending
  exact ⟨rfl, WalFiles.read_written⟩

theorem ready_written (capture : context.captureProviderHistory = true)
    (reached : reaches context tail messages.length messages io = true)
    (clean : compactor.beforeCleanRetry = none) :
    Written context compactor (compactor.providerRequestReady context messages tail io).1 messages
      (compactor.providerRequestReady context messages tail io).2 := by
  refine ⟨?_, ?_, persisted_stores capture⟩
  all_goals
    unfold providerRequestReady persistProviderHistory
    rw [if_neg (by simp [capture]), if_neg (by simp [reached])]
  simp [clean]

structure RolledBack (compactor after : PreflightCompactor Message Identity Stamp)
    (previous : Option (CompactionState Message Identity Stamp)) (succeeded : Bool) :
    Prop where
  pending : after.beforePendingRequest = none
  clean : after.beforeCleanRetry = compactor.beforeCleanRetry
  restored : succeeded = true → (WalFiles.written previous).read = previous →
    after.files.read = previous

theorem abandoned_rolledBack
    (pending : compactor.beforePendingRequest = some previous) (cut : Cut) :
    RolledBack compactor (compactor.providerRequestAbandonedBeforeSend cut).1 previous
      (compactor.providerRequestAbandonedBeforeSend cut).2 := by
  simp only [providerRequestAbandonedBeforeSend, pending]
  refine ⟨rfl, rfl, fun succeeded restorable => ?_⟩
  rw [WalFiles.replaceCompaction_ok succeeded, restorable]

theorem abandoned_none (pending : compactor.beforePendingRequest = none) (cut : Cut) :
    compactor.providerRequestAbandonedBeforeSend cut = (compactor, true) := by
  simp [providerRequestAbandonedBeforeSend, pending]

end PreflightCompactor

end AgentClaimNetwork.Session.ProviderWal
