import AgentClaimNetwork.Library.Trace
import AgentClaimNetwork.Agent.ClaimAlignment
import AgentClaimNetwork.Session.Metadata

/-!
The recap of an open session and its finalization, from `src/agent/session_engine/finalize.rs`.
Each durable write is a step, so that a crash may come between any two.
-/

namespace AgentClaimNetwork.Session

open Library

inductive FinalizeCheckpointStatus
  | prepared
  | applied
deriving DecidableEq

structure FinalizeCheckpoint (Hash : Type) where
  analysisClaims : Option (List Claim)
  appliedClaims : List Claim
  recapStartIndex : Nat
  recapEndIndex : Nat
  recapSegmentHash : Hash
  preparedClaims : List Claim
  status : FinalizeCheckpointStatus
deriving DecidableEq

def finalizeCheckpointCoversPendingRange {Hash : Type} (checkpoint : FinalizeCheckpoint Hash)
    (recappedUntil messageCount : Nat) : Prop :=
  checkpoint.recapStartIndex = recappedUntil ∧
    checkpoint.recapStartIndex ≤ checkpoint.recapEndIndex ∧
    checkpoint.recapEndIndex ≤ messageCount

instance {Hash : Type} (checkpoint : FinalizeCheckpoint Hash) (recappedUntil messageCount : Nat) :
    Decidable (finalizeCheckpointCoversPendingRange checkpoint recappedUntil messageCount) :=
  inferInstanceAs (Decidable (_ ∧ _ ∧ _))

structure SessionRecapBackgroundProcessProjection (Item : Type) where
  consumedThroughSeq : Nat
  omittedOlderCount : Nat
  items : List Item

structure RecapHasher (Message Item Hash : Type) where
  segment : List Message → Hash
  withBackground : List Message → SessionRecapBackgroundProcessProjection Item → Hash

inductive AttemptGoal
  | recap (recapEndIndex : Nat)
  | recoverPrefix (recapEndIndex : Nat)
  | finalize (messageCount consumedThroughSeq : Nat)

/-- Where the holder of `finalize.lock` stands, between two durable writes. -/
inductive Attempt (Hash : Type)
  | deciding
  | generating (recapStartIndex recapEndIndex : Nat) (hash : Hash) (goal : AttemptGoal)
  | reviewing (checkpoint : FinalizeCheckpoint Hash) (goal : AttemptGoal)
  | writing (checkpoint : FinalizeCheckpoint Hash) (goal : AttemptGoal)
  | recording (checkpoint : FinalizeCheckpoint Hash) (goal : AttemptGoal)
  | finishing (goal : AttemptGoal)

structure Generation where
  recapStartIndex : Nat
  recapEndIndex : Nat
  begun : Bool

structure RecapState (Stamp History Message Item Hash : Type) where
  metadata : SessionMetadata Stamp History
  messages : List Message
  /-- The completions of background processes in the turn journal. -/
  completions : List (Nat × Item)
  /-- The local claims. -/
  claims : List Claim
  checkpoint : Option (FinalizeCheckpoint Hash)
  attempt : Option (Attempt Hash)
  /-- The checkpoints written so far, the latest last. -/
  generations : List Generation

variable {Stamp History Message Item Hash : Type} (hasher : RecapHasher Message Item Hash)

def hashFinalizeRecapInput (messages : List Message)
    (background : SessionRecapBackgroundProcessProjection Item) : Hash :=
  if background.items.isEmpty then hasher.segment messages
  else hasher.withBackground messages background

def finalizeBackgroundCompletionMaxItems : Nat := 64

def noBackground : SessionRecapBackgroundProcessProjection Item := ⟨0, 0, []⟩

def sessionRecapBackgroundProcessCompletions (state : RecapState Stamp History Message Item Hash) :
    SessionRecapBackgroundProcessProjection Item :=
  let cursor := state.metadata.recapBackgroundCompletionUntilSeq.getD 0
  let fresh := state.completions.filter fun completion => cursor < completion.1
  { consumedThroughSeq := fresh.foldl (fun seq completion => max seq completion.1) cursor
    omittedOlderCount := fresh.length - finalizeBackgroundCompletionMaxItems
    items := (fresh.map Prod.snd).drop (fresh.length - finalizeBackgroundCompletionMaxItems) }

def segment (messages : List Message) (start stop : Nat) : List Message :=
  (messages.take stop).drop start

def coversPending (state : RecapState Stamp History Message Item Hash)
    (checkpoint : FinalizeCheckpoint Hash) : Prop :=
  finalizeCheckpointCoversPendingRange checkpoint state.metadata.recappedUntil
    state.metadata.messageCount

variable [DecidableEq Hash]

variable (state : RecapState Stamp History Message Item Hash)

/-- The head of `finalize_message_segment_checkpointed`: the checkpoint of the same range and
input is taken up, a prepared one of another input is an error. -/
def enterSegment (start stop : Nat) (background : SessionRecapBackgroundProcessProjection Item)
    (goal : AttemptGoal) : Option (Attempt Hash) :=
  let hash := hashFinalizeRecapInput hasher (segment state.messages start stop) background
  match state.checkpoint with
  | none => some (.generating start stop hash goal)
  | some checkpoint =>
    if checkpoint.recapStartIndex = start ∧ checkpoint.recapEndIndex = stop then
      if checkpoint.recapSegmentHash = hash then
        match checkpoint.status with
        | .prepared => some (.reviewing checkpoint goal)
        | .applied => some (.finishing goal)
      else if checkpoint.status = .prepared then none
      else some (.generating start stop hash goal)
    else some (.generating start stop hash goal)

/-- `recover_current_recap_checkpoint_prefix`. -/
def recoverPrefix : Attempt Hash :=
  match state.checkpoint with
  | none => .deciding
  | some checkpoint =>
    if finalizeCheckpointCoversPendingRange checkpoint state.metadata.recappedUntil
          state.metadata.messageCount ∧
        checkpoint.recapSegmentHash = hashFinalizeRecapInput hasher
          (segment state.messages checkpoint.recapStartIndex checkpoint.recapEndIndex)
          noBackground then
      match checkpoint.status with
      | .prepared => .reviewing checkpoint (.recoverPrefix checkpoint.recapEndIndex)
      | .applied => .finishing (.recoverPrefix checkpoint.recapEndIndex)
    else .deciding

/-- `discard_stale_finalize_checkpoint`, without the revisions of old checkpoints: the
checkpoint and whether it is written again. -/
def discardStaleFinalizeCheckpoint (checkpoint : FinalizeCheckpoint Hash) (current : List Claim) :
    FinalizeCheckpoint Hash × Bool :=
  let applied := Agent.observeApplied checkpoint.preparedClaims current checkpoint.appliedClaims
  let differences :=
    Agent.changes checkpoint.analysisClaims checkpoint.preparedClaims applied current
  if Agent.analysisIsStale checkpoint.analysisClaims differences then
    ({ checkpoint with
        appliedClaims := applied
        preparedClaims := []
        analysisClaims := some current }, true)
  else ({ checkpoint with appliedClaims := applied }, false)

def nextTarget (checkpoint : FinalizeCheckpoint Hash) : Option Claim :=
  let pending := checkpoint.preparedClaims.filter fun claim =>
    !checkpoint.appliedClaims.any fun applied => applied.id = claim.id
  (pending.find? fun claim => claim.status ≠ .deprecated).or pending.head?

def writeClaim (claims : List Claim) (claim : Claim) : List Claim :=
  claims.filter (fun other => other.id ≠ claim.id) ++ [claim]

def beginLatest (generations : List Generation) : List Generation :=
  match generations.getLast? with
  | none => []
  | some latest => generations.dropLast ++ [{ latest with begun := true }]

def Attempt.givesWay : Attempt Hash → Bool
  | .deciding => true
  | .generating _ _ _ (.finalize _ _) => true
  | _ => false

def Attempt.isRecap : Attempt Hash → Bool
  | .deciding => false
  | .generating _ _ _ goal | .reviewing _ goal | .writing _ goal | .recording _ goal
  | .finishing goal =>
    match goal with
    | .recap _ => true
    | _ => false

inductive RecapLabel (Stamp Message Item : Type)
  | append (new : List Message) (model : Api.Text)
  | complete (seq : Nat) (item : Item)
  | editClaims (claims : List Claim)
  | markFinalizing
  | reopen
  | takeover
  | stop
  | beginRecap (recapEndIndex : Nat)
  | beginFinalize
  | decide
  | close (finalizedAt : Stamp)
  | prepare (analysis prepared : List Claim)
  | review
  | writeClaim
  | record
  | apply
  | finish (finalizedAt : Stamp)

def afterGoal : AttemptGoal → Option (Attempt Hash)
  | .recoverPrefix _ => some .deciding
  | _ => none

def finishGoal (metadata : SessionMetadata Stamp History) (finalizedAt : Stamp) :
    AttemptGoal → SessionMetadata Stamp History
  | .recap recapEndIndex => metadata.advanceRecappedUntil recapEndIndex
  | .recoverPrefix recapEndIndex => metadata.advanceRecappedUntil recapEndIndex
  | .finalize messageCount consumedThroughSeq =>
    metadata.recapAndMarkFinalizedWithBackgroundCursor messageCount consumedThroughSeq
      finalizedAt

def nothingToRecap : Prop :=
  (state.metadata.messageCount = 0 ∨ state.metadata.recappedUntil = state.metadata.messageCount) ∧
    (sessionRecapBackgroundProcessCompletions state).items = []

inductive RecapStep (state : RecapState Stamp History Message Item Hash) :
    RecapLabel Stamp Message Item → RecapState Stamp History Message Item Hash → Prop
  | append (new : List Message) (model : Api.Text) : state.metadata.status = .opened →
      state.metadata.closedAt = none →
      RecapStep state (.append new model)
        { state with
          metadata := state.metadata.commitMessages (state.metadata.messageCount + new.length) model
          messages := state.messages ++ new }
  | complete (seq : Nat) (item : Item) :
      RecapStep state (.complete seq item)
        { state with completions := state.completions ++ [(seq, item)] }
  | editClaims (claims : List Claim) :
      RecapStep state (.editClaims claims) { state with claims := claims }
  | markFinalizing {metadata} : state.metadata.markFinalizing = .ok metadata →
      RecapStep state .markFinalizing { state with metadata := metadata }
  | reopen {metadata} : state.metadata.status = .closed → state.metadata.markOpen = .ok metadata →
      RecapStep state .reopen { state with metadata := metadata, checkpoint := none }
  | takeover {metadata} : state.metadata.markOpenAfterFinalizeTakeover = .ok metadata →
      (∀ checkpoint, state.checkpoint = some checkpoint → ¬ coversPending state checkpoint) →
      (∀ attempt, state.attempt = some attempt → attempt.givesWay ∨ attempt.isRecap) →
      RecapStep state .takeover
        { state with
          metadata := metadata
          attempt := state.attempt.filter Attempt.isRecap }
  | stop : RecapStep state .stop { state with attempt := none }
  | beginRecap (recapEndIndex : Nat) : state.attempt = none → state.metadata.status = .opened →
      state.metadata.finalizedAt = none → state.metadata.closedAt = none →
      recapEndIndex ≤ state.metadata.messageCount → state.metadata.recappedUntil < recapEndIndex →
      RecapStep state (.beginRecap recapEndIndex)
        { state with
          attempt := enterSegment hasher state state.metadata.recappedUntil recapEndIndex
            noBackground (.recap recapEndIndex) }
  | beginFinalize : state.attempt = none → state.metadata.finalizedAt = none →
      state.metadata.closedAt = none → state.metadata.status = .finalizing →
      -- sessions of old versions, which have no such cursor, are recovered in another way
      state.metadata.recapBackgroundCompletionUntilSeq.isSome →
      RecapStep state .beginFinalize { state with attempt := some (recoverPrefix hasher state) }
  | decide : state.attempt = some .deciding → ¬ nothingToRecap state →
      RecapStep state .decide
        { state with
          attempt := enterSegment hasher state state.metadata.recappedUntil
            state.metadata.messageCount (sessionRecapBackgroundProcessCompletions state)
            (.finalize state.metadata.messageCount
              (sessionRecapBackgroundProcessCompletions state).consumedThroughSeq) }
  | close (finalizedAt : Stamp) : state.attempt = some .deciding → nothingToRecap state →
      RecapStep state (.close finalizedAt)
        { state with
          metadata := state.metadata.markFinalized finalizedAt
          attempt := none }
  | prepare {start stop hash goal} (analysis prepared : List Claim) :
      state.attempt = some (.generating start stop hash goal) →
      RecapStep state (.prepare analysis prepared)
        { state with
          checkpoint := some ⟨some analysis, [], start, stop, hash, prepared, .prepared⟩
          attempt := some
            (.reviewing ⟨some analysis, [], start, stop, hash, prepared, .prepared⟩ goal)
          generations := state.generations ++ [⟨start, stop, false⟩] }
  | review {checkpoint goal} : state.attempt = some (.reviewing checkpoint goal) →
      RecapStep state .review
        { state with
          checkpoint :=
            if (discardStaleFinalizeCheckpoint checkpoint state.claims).2 then
              some (discardStaleFinalizeCheckpoint checkpoint state.claims).1
            else state.checkpoint
          attempt := some
            (.writing (discardStaleFinalizeCheckpoint checkpoint state.claims).1 goal) }
  | writeClaim {checkpoint goal claim} : state.attempt = some (.writing checkpoint goal) →
      nextTarget checkpoint = some claim →
      RecapStep state .writeClaim
        { state with
          claims := writeClaim state.claims claim
          attempt := some (.recording
            { checkpoint with appliedClaims := checkpoint.appliedClaims ++ [claim] } goal)
          generations := beginLatest state.generations }
  | record {checkpoint goal} : state.attempt = some (.recording checkpoint goal) →
      RecapStep state .record
        { state with
          checkpoint := some checkpoint
          attempt := some (.writing checkpoint goal) }
  | apply {checkpoint goal} : state.attempt = some (.writing checkpoint goal) →
      nextTarget checkpoint = none →
      RecapStep state .apply
        { state with
          checkpoint := some { checkpoint with status := .applied }
          attempt := some (.finishing goal)
          generations := beginLatest state.generations }
  | finish {goal} (finalizedAt : Stamp) : state.attempt = some (.finishing goal) →
      RecapStep state (.finish finalizedAt)
        { state with
          metadata := finishGoal state.metadata finalizedAt goal
          attempt := afterGoal goal }

end AgentClaimNetwork.Session
