import AgentClaimNetwork.Claim
import AgentClaimNetwork.Library.Durable
import AgentClaimNetwork.Library.KeyedMap
import AgentClaimNetwork.Library.LineLog

/-!
The records of an arbitration and `src/maintainer/arbitration/store.rs`: the files that a
resolution is spread over, each read and written whole.
-/

namespace AgentClaimNetwork.Maintainer

open Library Durable LineLog
open Program (bail forAll look require write)
open Function (update)

abbrev ResolutionId := String
abbrev InboxId := String
abbrev MaintainerActionId := String
abbrev AnalysisId := String

inductive ResolutionType
  | coexist
  | lifecycleUpdate
  | conflictResolved
  | unresolved
deriving DecidableEq

def ResolutionType.isResolved (kind : ResolutionType) : Bool := kind ≠ .unresolved

inductive ResolutionBasis
  | directAnalysis
  | priorResolution
  | policy
  | evidence
  | insufficientEvidence
deriving DecidableEq

inductive ResolvedBy
  | automatic
  | human
deriving DecidableEq

structure ClaimAssessment where
  claimId : ClaimId
  recommendedStatus : ClaimStatus
  assessment : String
  recommendedScope : Option String
  recommendedStatement : Option String
  reason : String
deriving DecidableEq

structure DisputeResolution where
  resolutionId : ResolutionId
  resolvedBy : ResolvedBy
  resolvedAt : Instant
  resolutionType : Option ResolutionType
  resolutionBasis : Option ResolutionBasis
  conclusion : String
  claimAssessments : List ClaimAssessment
  rejectionReason : Option String
deriving DecidableEq

structure MaintainerDisputeRecord where
  dispute : Dispute
  resolution : Option DisputeResolution

inductive PolicyMessageType
  | policyUpdate
  | claimAttributeUpdate
deriving DecidableEq

inductive PolicyStatus
  | active
  | deprecated
deriving DecidableEq

structure Policy where
  id : PolicyId
  messageType : PolicyMessageType
  name : String
  statement : String
  scope : String
  status : PolicyStatus
  createdAt : Instant
  updatedAt : Option Instant
  targetAgents : Option (List AgentId)
deriving DecidableEq

structure ArbitrationResolutionContext where
  disputeId : DisputeId
  resolution : DisputeResolution
  contextSnapshotHash : Option String
  disputeSnapshot : Dispute
  directClaimSnapshots : List Claim
  snapshotSourceResolutionId : Option ResolutionId
deriving DecidableEq

inductive InboxMessageKind
  | policyUpdate (policy : Policy)
  | claimAttributeUpdate (policy : Policy)
      (arbitrationResolution : Option ArbitrationResolutionContext)
deriving DecidableEq

structure InboxMessage where
  id : InboxId
  kind : InboxMessageKind
  handledAt : Option Instant
deriving DecidableEq

inductive OutboxTarget
  | broadcast
  | targeted (agent : AgentId)
deriving DecidableEq

structure OfferedMark where
  agentId : AgentId
  firstOfferedAt : Instant
  lastOfferedAt : Instant
  attempts : Nat
deriving DecidableEq

structure DeliveredMark where
  agentId : AgentId
  sentAt : Instant
deriving DecidableEq

/-- An outbox entry; none of the modelled functions fills its sweep items. -/
structure OutboxEntry where
  inboxId : InboxId
  maintainerActionId : MaintainerActionId
  target : OutboxTarget
  createdAt : Instant
  offeredTo : List OfferedMark
  deliveredTo : List DeliveredMark
  inboxMessage : InboxMessage
deriving DecidableEq

structure DeliveryTargetIntent where
  inboxId : InboxId
  targetAgent : AgentId
  inboxMessage : InboxMessage
deriving DecidableEq

structure DeliveryIntent where
  policy : Policy
  maintainerActionId : MaintainerActionId
  targets : List DeliveryTargetIntent
deriving DecidableEq

structure ArbitrationResolutionRecord where
  resolutionId : ResolutionId
  disputeId : DisputeId
  createdAt : Instant
  resolution : DisputeResolution
  disputeSnapshot : Dispute
  directClaimSnapshots : List Claim
  semanticFingerprint : Option String
  contextSnapshotHash : Option String
  analysisSourceId : Option AnalysisId
  deliveryIntent : Option DeliveryIntent
  snapshotSourceResolutionId : Option ResolutionId
deriving DecidableEq

structure ResolutionEventTarget where
  disputeId : DisputeId
  resolutionId : ResolutionId
deriving DecidableEq

def ArbitrationResolutionRecord.target (record : ArbitrationResolutionRecord) :
    ResolutionEventTarget :=
  ⟨record.disputeId, record.resolutionId⟩

structure PendingResolutionDelivery where
  target : ResolutionEventTarget
  resolutionRecord : Option ArbitrationResolutionRecord
  createdAt : Instant
  retryCount : Nat
  nextRetryAt : Option Instant

def PendingResolutionDelivery.file (pending : PendingResolutionDelivery) : ResolutionId :=
  pending.target.resolutionId

inductive AnalysisState
  | pending
  | waitingContext
  | waitingReanalysis
  | proposing
  | verifying
  | approved
  | unresolved
  | failed
  | adopting
  | adopted
deriving DecidableEq

def AnalysisState.isRecoverable : AnalysisState → Bool
  | .pending | .waitingContext | .waitingReanalysis | .proposing | .verifying | .adopting => true
  | .approved | .unresolved | .failed | .adopted => false

structure AnalysisError where
  code : String
  message : String

structure ArbitrationProposal where
  resolutionType : ResolutionType
  resolutionBasis : ResolutionBasis
  conclusion : String
  claimAssessments : List ClaimAssessment

structure FrozenArbitrationContext where
  dispute : Dispute
  directClaims : List Claim

structure ArbitrationAnalysis where
  analysisId : AnalysisId
  disputeId : DisputeId
  reportSnapshot : Option Dispute
  updatedAt : Instant
  semanticFingerprint : Option String
  contextSnapshotHash : Option String
  context : Option FrozenArbitrationContext
  state : AnalysisState
  analysisRound : Nat
  nextRetryAt : Option Instant
  proposal : Option ArbitrationProposal
  resolutionId : Option ResolutionId
  pendingResolution : Option ArbitrationResolutionRecord
  error : Option AnalysisError
  deliveryError : Option String
  adoptionBlockedReason : Option String

structure AnalysisJob where
  disputeId : DisputeId
  analysisId : AnalysisId
deriving DecidableEq

structure PolicyEventRecord where
  eventId : String
  policyId : PolicyId
  occurredAt : Instant
  policyName : String
  policyScope : String
  policyStatus : PolicyStatus
  messageType : PolicyMessageType
  targetAgents : List AgentId
  statement : String

structure DisputeResolutionEventRecord where
  eventId : String
  disputeId : DisputeId
  occurredAt : Instant
  summary : Option String

inductive FileState (Value : Type)
  | absent
  | reserved
  | written (value : Value)
deriving DecidableEq

inductive Milestone
  | intent (record : ArbitrationResolutionRecord)
  | commit (disputeId : DisputeId) (resolution : DisputeResolution)
      (record : Option ArbitrationResolutionRecord)
deriving DecidableEq

/-- The files of the team store that a resolution touches; `milestones` is not a file but the
order in which the intents and the commits were written. -/
structure TeamStore where
  disputes : DisputeId → Option MaintainerDisputeRecord
  analyses : DisputeId → Option ArbitrationAnalysis
  resolutionRecords : DisputeId → Option ArbitrationResolutionRecord
  pendingDeliveries : KeyedMap PendingResolutionDelivery.file
  pendingObservations : KeyedMap ResolutionEventTarget.resolutionId
  policies : PolicyId → FileState Policy
  outbox : InboxId → FileState OutboxEntry
  policyIndex : PolicyId → Option ResolutionEventTarget
  inboxIndex : InboxId → Option ResolutionEventTarget
  claimIndex : ClaimId → DisputeId → Option ResolutionEventTarget
  policyEvents : List PolicyEventRecord
  resolutionEvents : List DisputeResolutionEventRecord
  milestones : List Milestone

def validDisputeRecord (record : MaintainerDisputeRecord) : Bool :=
  match record.dispute.status with
  | .opened => record.dispute.resolvedAt.isNone && record.resolution.isNone
  | .resolved => record.dispute.resolvedAt.isSome &&
      match record.resolution with
      | none => true
      | some resolution =>
        resolution.resolutionType.all ResolutionType.isResolved &&
          resolution.resolutionBasis ≠ some .insufficientEvidence &&
          !isBlank resolution.conclusion.toList

def validAnalysis (analysis : ArbitrationAnalysis) : Bool :=
  analysis.context.isSome ==
      (analysis.semanticFingerprint.isSome && analysis.contextSnapshotHash.isSome) &&
    (decide (analysis.state = .waitingReanalysis) == analysis.nextRetryAt.isSome) &&
    decide (0 < analysis.analysisRound ∧ analysis.analysisRound ≤ 3) &&
    analysis.reportSnapshot.all fun snapshot => snapshot.id = analysis.disputeId

variable (disputeId : DisputeId)

def readDispute : Program TeamStore MaintainerDisputeRecord := do
  let store ← look
  match store.disputes disputeId with
  | some record => pure record
  | none => bail

def writeDispute (record : MaintainerDisputeRecord) : Program TeamStore Unit := do
  require (validDisputeRecord record)
  write fun store =>
    { store with
      disputes := update store.disputes record.dispute.id (some record)
      milestones := store.milestones ++
        (record.resolution.map fun resolution => Milestone.commit record.dispute.id resolution
          (store.resolutionRecords record.dispute.id)).toList }

def readCurrentAnalysis : Program TeamStore (Option ArbitrationAnalysis) := do
  let store ← look
  pure (store.analyses disputeId)

def readAnalysis (job : AnalysisJob) : Program TeamStore ArbitrationAnalysis := do
  let store ← look
  match store.analyses job.disputeId with
  | some analysis => if analysis.analysisId = job.analysisId then pure analysis else bail
  | none => bail

def writeAnalysis (analysis : ArbitrationAnalysis) : Program TeamStore Unit := do
  require (validAnalysis analysis)
  write fun store =>
    { store with analyses := update store.analyses analysis.disputeId (some analysis) }

variable (record : ArbitrationResolutionRecord)

def writeResolutionRecord : Program TeamStore Unit := do
  require (record.resolutionId = record.resolution.resolutionId)
  write fun store =>
    { store with
      resolutionRecords :=
        update store.resolutionRecords record.disputeId (some record) }

def readCurrentResolutionRecord : Program TeamStore (Option ArbitrationResolutionRecord) := do
  let store ← look
  pure (store.resolutionRecords disputeId)

variable (resolutionId : ResolutionId)

def readResolutionRecord : Program TeamStore ArbitrationResolutionRecord := do
  let store ← look
  match store.resolutionRecords disputeId with
  | some record => if record.resolutionId = resolutionId then pure record else bail
  | none => bail

def readPendingDelivery : Program TeamStore (Option PendingResolutionDelivery) := do
  let store ← look
  pure (store.pendingDeliveries.get? resolutionId)

def writePendingDelivery (pending : PendingResolutionDelivery) : Program TeamStore Unit :=
  write fun store =>
    { store with
      pendingDeliveries := store.pendingDeliveries.insert pending
      milestones := store.milestones ++ (pending.resolutionRecord.map Milestone.intent).toList }

def removePendingDelivery : Program TeamStore Unit :=
  write fun store =>
    { store with pendingDeliveries := store.pendingDeliveries.erase resolutionId }

def writePendingObservation (target : ResolutionEventTarget) : Program TeamStore Unit :=
  write fun store =>
    { store with pendingObservations := store.pendingObservations.insert target }

def registerIntentTargets : Program TeamStore Unit :=
  match record.deliveryIntent with
  | some intent => do
      write fun store =>
        { store with
          policyIndex := update store.policyIndex intent.policy.id (some record.target) }
      forAll intent.targets fun delivery => write fun store =>
        { store with
          inboxIndex := update store.inboxIndex delivery.inboxId (some record.target) }
  | none => pure ()

def registerResolutionEventTargets : Program TeamStore Unit := do
  registerIntentTargets record
  forAll record.directClaimSnapshots fun claim => write fun store =>
    { store with
      claimIndex := update store.claimIndex claim.id
        (update (store.claimIndex claim.id) record.disputeId (some record.target)) }

end AgentClaimNetwork.Maintainer
