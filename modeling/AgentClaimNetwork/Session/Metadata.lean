import AgentClaimNetwork.Api.Message
import AgentClaimNetwork.Library.LineLog

/-!
What `session.yaml` says of a session, from `src/session/mod.rs`.  Every operation reads the file
under the lock, so it is a function of the stored metadata.
-/

namespace AgentClaimNetwork.Session

open Library

inductive SessionStatus
  | opened
  | finalizing
  | closed
deriving DecidableEq

structure ActiveTurnCompactionCursor where
  turnId : Api.Text
  baseMessageCount : Nat
  compactedUntilSegment : Nat
  safeUntilEventSeq : Nat
  sourceHash : Api.Text

structure CompactionFrontier where
  committedMessageUntil : Nat
  activeTurn : Option ActiveTurnCompactionCursor

/-- `History` is the provider history, which sessions of old versions keep in the same file. -/
structure SessionCompactionState (History Stamp : Type) where
  committedSummary : Api.Text
  activeTurnSummary : Option Api.Text
  summaryUpdatedAt : Stamp
  frontier : CompactionFrontier
  providerHistory : Option History

namespace SessionCompactionState

variable {History Stamp : Type}

def fromCommittedSummary (committedMessageUntil : Nat) (committedSummary : Api.Text)
    (summaryUpdatedAt : Stamp) : SessionCompactionState History Stamp where
  committedSummary
  activeTurnSummary := none
  summaryUpdatedAt
  frontier := { committedMessageUntil, activeTurn := none }
  providerHistory := none

def hasActiveTurn (state : SessionCompactionState History Stamp) : Bool :=
  state.activeTurnSummary.any (fun summary => !summary.all LineLog.isWhitespace) &&
    state.frontier.activeTurn.isSome

def normalizeActiveTurn (state : SessionCompactionState History Stamp) :
    SessionCompactionState History Stamp :=
  if state.hasActiveTurn then state
  else { state with
    activeTurnSummary := none, frontier := { state.frontier with activeTurn := none } }

variable (state : SessionCompactionState History Stamp)
include state

theorem normalizeActiveTurn_idem :
    state.normalizeActiveTurn.normalizeActiveTurn = state.normalizeActiveTurn := by
  unfold normalizeActiveTurn
  by_cases active : state.hasActiveTurn = true
  · rw [if_pos active, if_pos active]
  · rw [if_neg active]
    rfl

@[simp] theorem normalizeActiveTurn_providerHistory :
    state.normalizeActiveTurn.providerHistory = state.providerHistory := by
  unfold normalizeActiveTurn
  split <;> rfl

theorem normalizeActiveTurn_withHistory (history : Option History) :
    { state with providerHistory := history }.normalizeActiveTurn =
      { state.normalizeActiveTurn with providerHistory := history } := by
  unfold normalizeActiveTurn hasActiveTurn
  split <;> rfl

end SessionCompactionState

structure SessionMetadata (Stamp History : Type) where
  id : Api.Text
  agentId : Api.Text
  status : SessionStatus
  closedAt : Option Stamp
  model : Api.Text
  messageCount : Nat
  finalizedAt : Option Stamp
  recappedUntil : Nat
  providerBackgroundCompletionUntilSeq : Option Nat
  recapBackgroundCompletionUntilSeq : Option Nat
  compaction : Option (SessionCompactionState History Stamp)

inductive SessionStoreError
  | wrongAgent (sessionId agentId : Api.Text)
  | closed (sessionId : Api.Text)
  | notClosed (sessionId : Api.Text) (status : SessionStatus)
  | unknownRole (role : Api.Text)
  | jsonLine (line : Nat)
  | messageIndexMismatch (sessionId : Api.Text) (line expectedIndex actualIndex : Nat)
  | messageCountMismatch (sessionId : Api.Text) (messageCount actualCount : Nat)
  | recappedUntilOutOfBounds (sessionId : Api.Text) (recappedUntil messageCount : Nat)
  | compactedUntilOutOfBounds (sessionId : Api.Text) (compactedUntil messageCount : Nat)
  | storage
  | io

namespace SessionMetadata

variable {Stamp History : Type}

variable (metadata : SessionMetadata Stamp History)

def withHistory (history : Option History) : SessionMetadata Stamp History :=
  { metadata with
    compaction := metadata.compaction.map fun state => { state with providerHistory := history } }

def commitMessages (messageCount : Nat) (model : Api.Text) : SessionMetadata Stamp History :=
  { metadata with messageCount := messageCount, model := model }

def advanceRecappedUntil (recappedUntil : Nat) : SessionMetadata Stamp History :=
  { metadata with recappedUntil := max metadata.recappedUntil recappedUntil }

def advanceProviderBackgroundCompletionUntil (seq : Nat) : SessionMetadata Stamp History :=
  { metadata with
    providerBackgroundCompletionUntilSeq :=
      some (max (metadata.providerBackgroundCompletionUntilSeq.getD 0) seq) }

def advanceRecapBackgroundCursor (seq : Nat) : SessionMetadata Stamp History :=
  { metadata with
    recapBackgroundCompletionUntilSeq :=
      some (max (metadata.recapBackgroundCompletionUntilSeq.getD 0) seq) }

def markFinalized (finalizedAt : Stamp) : SessionMetadata Stamp History :=
  { metadata with
    status := .closed
    finalizedAt := some finalizedAt
    closedAt := some finalizedAt }

def recapAndMarkFinalizedWithBackgroundCursor
    (recappedUntil backgroundCompletionUntilSeq : Nat) (finalizedAt : Stamp) :
    SessionMetadata Stamp History :=
  ((metadata.advanceRecappedUntil recappedUntil).advanceRecapBackgroundCursor
    backgroundCompletionUntilSeq).markFinalized finalizedAt

def markFinalizing : Except SessionStoreError (SessionMetadata Stamp History) :=
  if metadata.finalizedAt.isSome || metadata.closedAt.isSome || metadata.status != .opened then
    .error (.closed metadata.id)
  else .ok { metadata with status := .finalizing }

/-- Behind its checks `mark_open` removes the finalize checkpoint as well. -/
def markOpen : Except SessionStoreError (SessionMetadata Stamp History) :=
  if metadata.status = .finalizing then .error (.closed metadata.id)
  else if metadata.finalizedAt.isSome && metadata.status != .closed then
    .error (.closed metadata.id)
  else .ok { metadata with status := .opened, closedAt := none, finalizedAt := none }

def markOpenAfterFinalizeTakeover : Except SessionStoreError (SessionMetadata Stamp History) :=
  if metadata.status != .finalizing || metadata.finalizedAt.isSome || metadata.closedAt.isSome then
    .error (.notClosed metadata.id metadata.status)
  else .ok { metadata with status := .opened }

def markClosed (closedAt : Stamp) : SessionMetadata Stamp History :=
  { metadata with status := .closed, closedAt := some closedAt }

end SessionMetadata

end AgentClaimNetwork.Session
