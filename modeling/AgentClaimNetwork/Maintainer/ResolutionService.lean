import AgentClaimNetwork.Maintainer.ResolutionDelivery

/-!
Human resolutions, adoptions and recoveries of `src/maintainer/arbitration/resolution.rs`.  Every
operation holds the lock of its dispute.
-/

namespace AgentClaimNetwork.Maintainer

open Library Durable LineLog
open Program (attempt bail look require)

structure HumanResolutionInput where
  conclusion : String
  notifyAffectedAgents : Bool
  resolutionType : Option ResolutionType
  resolutionBasis : Option ResolutionBasis
  claimAssessments : List ClaimAssessment

structure RejectResolutionInput where
  expectedResolutionId : ResolutionId
  rejectionReason : String
  conclusion : String
  resolutionType : Option ResolutionType
  resolutionBasis : Option ResolutionBasis
  claimAssessments : List ClaimAssessment

def validHumanInput (input : HumanResolutionInput) : Bool :=
  !isBlank input.conclusion.toList &&
    input.resolutionType.all ResolutionType.isResolved &&
    input.resolutionBasis ≠ some .insufficientEvidence &&
    (input.claimAssessments.isEmpty || input.notifyAffectedAgents)

def validRejectInput (input : RejectResolutionInput) : Bool :=
  !(isBlank input.rejectionReason.toList || isBlank input.conclusion.toList) &&
    input.resolutionType.all ResolutionType.isResolved &&
    input.resolutionBasis ≠ some .insufficientEvidence

def validAssessment (assessment : ClaimAssessment) : Bool :=
  !(isBlank assessment.assessment.toList || isBlank assessment.reason.toList ||
    assessment.recommendedScope.any (fun scope => isBlank scope.toList) ||
    assessment.recommendedStatement.any fun statement => isBlank statement.toList)

def validAssessments (directClaimIds : List ClaimId) (assessments : List ClaimAssessment) : Bool :=
  assessments.isEmpty ||
    (decide (assessments.map ClaimAssessment.claimId).Nodup &&
      directClaimIds.all (fun claim => claim ∈ assessments.map ClaimAssessment.claimId) &&
      (assessments.map ClaimAssessment.claimId).all (fun claim => claim ∈ directClaimIds) &&
      assessments.all validAssessment)

def assessmentsMatch (left right : List ClaimAssessment) : Bool :=
  left.length = right.length && left.all fun assessment => assessment ∈ right

def humanResolutionMatchesInput (record : ArbitrationResolutionRecord)
    (input : HumanResolutionInput) : Bool :=
  record.resolution.rejectionReason.isNone &&
    record.resolution.conclusion = input.conclusion &&
    record.resolution.resolutionType = input.resolutionType &&
    record.resolution.resolutionBasis = input.resolutionBasis &&
    assessmentsMatch record.resolution.claimAssessments input.claimAssessments &&
    record.deliveryIntent.isSome = input.notifyAffectedAgents

def replacementResolutionMatchesInput (record : ArbitrationResolutionRecord)
    (input : RejectResolutionInput) : Bool :=
  record.resolution.rejectionReason = some input.rejectionReason &&
    record.resolution.conclusion = input.conclusion &&
    record.resolution.resolutionType = input.resolutionType &&
    record.resolution.resolutionBasis = input.resolutionBasis &&
    assessmentsMatch record.resolution.claimAssessments input.claimAssessments &&
    record.deliveryIntent.isSome

structure Surroundings where
  now : Instant
  resolutionDraws : List ResolutionId
  policyDraws : List PolicyId
  actionId : MaintainerActionId
  inboxDraws : AgentId → List InboxId
  statement : Dispute → List Claim → DisputeResolution → String

structure DeliveryContext where
  contextSnapshotHash : Option String
  snapshotSourceResolutionId : Option ResolutionId

def mintResolutionId (disputeId : DisputeId) : List ResolutionId → Program TeamStore ResolutionId
  | [] => bail
  | draw :: rest => do
      let store ← look
      if (store.resolutionRecords disputeId).any fun record => record.resolutionId = draw then
        mintResolutionId disputeId rest
      else pure draw

def holders (dispute : Dispute) (snapshots : List Claim) : List AgentId :=
  (((snapshots.filter fun claim => claim.id ∈ dispute.claims).map Claim.holder).dedup).insertionSort
    (· ≤ ·)

def mintTargets (draws : AgentId → List InboxId) (message : InboxMessageKind) :
    List AgentId → Program TeamStore (List DeliveryTargetIntent)
  | [] => pure []
  | agent :: rest => do
      let inboxId ← mintInboxId (draws agent)
      let later ← mintTargets draws message rest
      pure (⟨inboxId, agent, ⟨inboxId, message, none⟩⟩ :: later)

section

variable (around : Surroundings)

def buildDeliveryIntent (dispute : Dispute) (snapshots : List Claim)
    (resolution : DisputeResolution) (context : DeliveryContext) :
    Program TeamStore DeliveryIntent := do
  let agents := holders dispute snapshots
  require (agents ≠ [])
  let policyId ← mintPolicyId around.policyDraws
  let policy : Policy :=
    { id := policyId
      messageType := .claimAttributeUpdate
      name := "dispute_arbitration"
      statement := around.statement dispute snapshots resolution
      scope := "maintainer / dispute-arbitration"
      status := .active
      createdAt := around.now
      updatedAt := none
      targetAgents := some agents }
  let message := InboxMessageKind.claimAttributeUpdate policy (some
    { disputeId := dispute.id
      resolution := resolution
      contextSnapshotHash := context.contextSnapshotHash
      disputeSnapshot := dispute
      directClaimSnapshots := snapshots
      snapshotSourceResolutionId := context.snapshotSourceResolutionId })
  let targets ← mintTargets around.inboxDraws message agents
  pure ⟨policy, around.actionId, targets⟩

def persistPendingDelivery (record : ArbitrationResolutionRecord) (now : Instant) :
    Program TeamStore Unit := do
  let existing ← readPendingDelivery record.resolutionId
  match existing with
  | some pending =>
    if pending.target ≠ record.target then bail
    else
      match pending.resolutionRecord with
      | some stored => require (stored = record)
      | none => writePendingDelivery { pending with resolutionRecord := some record }
  | none => writePendingDelivery ⟨record.target, some record, now, 0, none⟩

variable (dispute : MaintainerDisputeRecord)

def MaintainerDisputeRecord.resolve (resolution : DisputeResolution) : MaintainerDisputeRecord :=
  ⟨{ dispute.dispute with status := .resolved, resolvedAt := some resolution.resolvedAt },
    some resolution⟩

def commitResolution (record : ArbitrationResolutionRecord) : Program TeamStore Unit := do
  writeResolutionRecord record
  writeDispute (dispute.resolve record.resolution)

def preemptAnalysis (now : Instant) (analysis : ArbitrationAnalysis) : Option ArbitrationAnalysis :=
  if analysis.state.isRecoverable = false ∨ analysis.state = .adopting then none
  else some
    { analysis with
      state := .failed
      nextRetryAt := none
      error := some ⟨"analysis_preempted", "Dispute 已由 Resolution 处理"⟩
      updatedAt := now }

variable (disputeId : DisputeId)

def preemptCurrentAnalysis (now : Instant) : Program TeamStore Unit := do
  let _ ← attempt do
    let current ← readCurrentAnalysis disputeId
    match current.bind (preemptAnalysis now) with
    | some stopped => writeAnalysis stopped
    | none => pure ()
  pure ()

def pendingHuman (store : TeamStore) (disputeId : DisputeId) : List ArbitrationResolutionRecord :=
  (store.pendingDeliveries.values.filterMap PendingResolutionDelivery.resolutionRecord).filter
    fun record => record.disputeId = disputeId && record.resolution.resolvedBy = .human

def recoversCommit (record : ArbitrationResolutionRecord) : Bool :=
  record.resolution.resolvedBy = .human &&
    match dispute.resolution with
    | none => true
    | some current => record.resolution.rejectionReason.isSome &&
        current.resolvedBy = .automatic && current.resolutionId ≠ record.resolutionId

def recoverHumanResolution (dispute : MaintainerDisputeRecord) :
    Program TeamStore (Option ArbitrationResolutionRecord) := do
  let store ← look
  let pending := pendingHuman store disputeId
  if 1 < pending.length then bail
  else
    match pending.head?.or (store.resolutionRecords disputeId) with
    | none =>
      match dispute.resolution with
      | some current => if current.resolvedBy = .human then bail else pure none
      | none => pure none
    | some record =>
      if recoversCommit dispute record then do
        commitResolution dispute record
        if record.resolution.resolvedBy = .human ∧
            record.resolutionId = record.resolution.resolutionId then pure (some record)
        else bail
      else
        match dispute.resolution with
        | none => pure none
        | some current =>
          if current.resolvedBy ≠ .human then pure none
          else if record.resolutionId = current.resolutionId then pure (some record)
          else bail

def deliverRecovered (record : ArbitrationResolutionRecord) (now : Instant) (sameInput : Bool) :
    Program TeamStore ArbitrationResolutionRecord := do
  preemptCurrentAnalysis disputeId now
  persistPendingDelivery record record.createdAt
  let _ ← attempt (ensureDelivery record)
  require sameInput
  pure record

def commitHuman (dispute : MaintainerDisputeRecord) (record : ArbitrationResolutionRecord)
    (now : Instant) : Program TeamStore ArbitrationResolutionRecord := do
  persistPendingDelivery record now
  commitResolution dispute record
  preemptCurrentAnalysis disputeId now
  let _ ← attempt (ensureDelivery record)
  pure record

def humanIntent (dispute : Dispute) (claims : List Claim)
    (resolution : DisputeResolution) (notifyAffectedAgents : Bool) :
    Program TeamStore (Option DeliveryIntent) :=
  if notifyAffectedAgents then do
    let intent ← buildDeliveryIntent around dispute claims resolution ⟨none, none⟩
    pure (some intent)
  else pure none

/-- `snapshots` are the claims that could be read, none for a failure. -/
def resolveHuman (input : HumanResolutionInput) (snapshots : Option (List Claim)) :
    Program TeamStore ArbitrationResolutionRecord := do
  require (validHumanInput input)
  let dispute ← readDispute disputeId
  require (validAssessments dispute.dispute.claims input.claimAssessments)
  require (dispute.dispute.status = .opened)
  let recovered ← recoverHumanResolution disputeId dispute
  match recovered with
  | some record =>
    deliverRecovered disputeId record around.now (humanResolutionMatchesInput record input)
  | none => do
      require (snapshots.isSome ||
        (!input.notifyAffectedAgents && input.claimAssessments.isEmpty))
      let claims := snapshots.getD []
      let resolutionId ← mintResolutionId disputeId around.resolutionDraws
      let resolution : DisputeResolution :=
        { resolutionId := resolutionId
          resolvedBy := .human
          resolvedAt := around.now
          resolutionType := input.resolutionType
          resolutionBasis := input.resolutionBasis
          conclusion := input.conclusion
          claimAssessments := input.claimAssessments
          rejectionReason := none }
      let intent ← humanIntent around dispute.dispute claims resolution input.notifyAffectedAgents
      commitHuman disputeId dispute
        { resolutionId := resolutionId
          disputeId := disputeId
          createdAt := around.now
          resolution := resolution
          disputeSnapshot := dispute.dispute
          directClaimSnapshots := claims
          semanticFingerprint := none
          contextSnapshotHash := none
          analysisSourceId := none
          deliveryIntent := intent
          snapshotSourceResolutionId := none } around.now

def replaceAutomatic (dispute : MaintainerDisputeRecord) (input : RejectResolutionInput)
    (snapshots : Option (List Claim)) : Program TeamStore ArbitrationResolutionRecord :=
  match dispute.resolution with
  | none => bail
  | some current => do
      require (current.resolutionId = input.expectedResolutionId)
      require (current.resolvedBy = .automatic)
      require (validAssessments dispute.dispute.claims input.claimAssessments)
      let superseded ← readResolutionRecord disputeId input.expectedResolutionId
      -- claims that cannot be read are taken from the record that is replaced
      let claims := snapshots.getD superseded.directClaimSnapshots
      let source := if snapshots.isSome then none else some superseded.resolutionId
      let resolutionId ← mintResolutionId disputeId around.resolutionDraws
      let resolution : DisputeResolution :=
        { resolutionId := resolutionId
          resolvedBy := .human
          resolvedAt := around.now
          resolutionType := input.resolutionType
          resolutionBasis := input.resolutionBasis
          conclusion := input.conclusion
          claimAssessments := input.claimAssessments
          rejectionReason := some input.rejectionReason }
      let intent ← buildDeliveryIntent around dispute.dispute claims resolution
        ⟨superseded.contextSnapshotHash, source⟩
      commitHuman disputeId dispute
        { resolutionId := resolutionId
          disputeId := disputeId
          createdAt := around.now
          resolution := resolution
          disputeSnapshot := dispute.dispute
          directClaimSnapshots := claims
          semanticFingerprint := superseded.semanticFingerprint
          contextSnapshotHash := superseded.contextSnapshotHash
          analysisSourceId := none
          deliveryIntent := some intent
          snapshotSourceResolutionId := source } around.now

def rejectAndReplace (input : RejectResolutionInput) (snapshots : Option (List Claim)) :
    Program TeamStore ArbitrationResolutionRecord := do
  require (validRejectInput input)
  let dispute ← readDispute disputeId
  let recovered ← recoverHumanResolution disputeId dispute
  match recovered.filter fun record =>
      dispute.resolution.map DisputeResolution.resolutionId ≠ some record.resolutionId with
  | some record =>
    deliverRecovered disputeId record around.now
      (replacementResolutionMatchesInput record input)
  | none => replaceAutomatic around disputeId dispute input snapshots

def fixedRecord (job : AnalysisJob) (analysis : ArbitrationAnalysis) (resolutionId : ResolutionId) :
    Program TeamStore ArbitrationResolutionRecord :=
  match analysis.pendingResolution with
  | some record => pure record
  | none => readResolutionRecord job.disputeId resolutionId

def fixedAnalysisResolution (job : AnalysisJob) (analysis : ArbitrationAnalysis) :
    Program TeamStore ArbitrationResolutionRecord :=
  match analysis.resolutionId with
  | none => bail
  | some resolutionId => do
      let record ← fixedRecord job analysis resolutionId
      require (record.resolutionId = resolutionId)
      pure record

def findHumanAnalysisAdoptionOwner : Program TeamStore (Option AnalysisJob) := do
  let current ← readCurrentAnalysis disputeId
  match current with
  | none => pure none
  | some analysis =>
    if analysis.state ≠ .adopting then pure none
    else do
      let candidate : AnalysisJob := ⟨disputeId, analysis.analysisId⟩
      let record ← fixedAnalysisResolution candidate analysis
      pure (if record.resolution.resolvedBy = .human then some candidate else none)

def ArbitrationAnalysis.afterDelivery (analysis : ArbitrationAnalysis) (delivered : Bool)
    (now : Instant) : ArbitrationAnalysis :=
  if delivered then
    { analysis with
      state := .adopted
      deliveryError := none
      pendingResolution := none
      updatedAt := now }
  else
    { analysis with
      state := .adopting
      deliveryError := some "holder 通知投递待恢复；详见 Maintainer 日志"
      updatedAt := now }

def commitIfOpen (dispute : MaintainerDisputeRecord) (resolution : DisputeResolution) :
    Program TeamStore Unit :=
  if dispute.dispute.status = .opened then writeDispute (dispute.resolve resolution) else pure ()

def finishAnalysisAdoption (analysis : ArbitrationAnalysis) (dispute : MaintainerDisputeRecord)
    (record : ArbitrationResolutionRecord) (now : Instant) :
    Program TeamStore ArbitrationAnalysis := do
  persistPendingDelivery record now
  writeResolutionRecord record
  commitIfOpen dispute record.resolution
  let delivered ← attempt (ensureDelivery record)
  let finished := analysis.afterDelivery delivered.isSome now
  writeAnalysis finished
  pure finished

/-- Fixes the resolution that an approved analysis is adopted as, and goes on to commit it. -/
def fixAdoption (job : AnalysisJob) (resolvedBy : ResolvedBy)
    (analysis : ArbitrationAnalysis) (dispute : MaintainerDisputeRecord) :
    Program TeamStore ArbitrationResolutionRecord :=
  match analysis.proposal, analysis.context, analysis.semanticFingerprint,
    analysis.contextSnapshotHash with
  | some proposal, some context, some fingerprint, some snapshotHash => do
      require proposal.resolutionType.isResolved
      let resolutionId ← mintResolutionId job.disputeId around.resolutionDraws
      let resolution : DisputeResolution :=
        { resolutionId := resolutionId
          resolvedBy := resolvedBy
          resolvedAt := around.now
          resolutionType := some proposal.resolutionType
          resolutionBasis := some proposal.resolutionBasis
          conclusion := proposal.conclusion
          claimAssessments := proposal.claimAssessments
          rejectionReason := none }
      let intent ← buildDeliveryIntent around context.dispute context.directClaims resolution
        ⟨some snapshotHash, none⟩
      let record : ArbitrationResolutionRecord :=
        { resolutionId := resolutionId
          disputeId := job.disputeId
          createdAt := around.now
          resolution := resolution
          disputeSnapshot := context.dispute
          directClaimSnapshots := context.directClaims
          semanticFingerprint := some fingerprint
          contextSnapshotHash := some snapshotHash
          analysisSourceId := some analysis.analysisId
          deliveryIntent := some intent
          snapshotSourceResolutionId := none }
      let adopting :=
        { analysis with
          state := .adopting
          resolutionId := some resolutionId
          pendingResolution := some record
          updatedAt := around.now }
      writeAnalysis adopting
      let _ ← finishAnalysisAdoption adopting dispute record around.now
      pure record
  | _, _, _, _ => bail

def beginAnalysisAdoption (job : AnalysisJob) (resolvedBy : ResolvedBy) :
    Program TeamStore ArbitrationResolutionRecord := do
  let analysis ← readAnalysis job
  require (analysis.state = .approved)
  let dispute ← readDispute job.disputeId
  let recovered ← recoverHumanResolution job.disputeId dispute
  match recovered with
  | some human => do
      let _ ← attempt (ensureDelivery human)
      bail
  | none => do
      require (dispute.dispute.status = .opened && dispute.resolution.isNone)
      fixAdoption around job resolvedBy analysis dispute

end

def ArbitrationAnalysis.preempted (analysis : ArbitrationAnalysis) (code reason : String)
    (now : Instant) : ArbitrationAnalysis :=
  { analysis with
    state := .approved
    adoptionBlockedReason := some reason
    error := some ⟨code, reason⟩
    updatedAt := now }

def ArbitrationAnalysis.overtaken (analysis : ArbitrationAnalysis) (current : DisputeResolution)
    (now : Instant) : ArbitrationAnalysis :=
  { analysis.preempted "adoption_preempted"
      ("analysis adoption 已被 current resolution=" ++ current.resolutionId ++ " 抢先") now with
    pendingResolution := none }

def otherResolution (dispute : MaintainerDisputeRecord) (record : ArbitrationResolutionRecord) :
    Option DisputeResolution :=
  dispute.resolution.filter fun current => current.resolutionId ≠ record.resolutionId

variable (job : AnalysisJob)

def adoptionOwner (record : ArbitrationResolutionRecord) : Program TeamStore (Option AnalysisJob) :=
  if record.resolution.resolvedBy = .automatic then do
    let owner ← findHumanAnalysisAdoptionOwner job.disputeId
    pure (owner.filter fun other => other ≠ job)
  else pure none

def recoverFixedAdoption (analysis : ArbitrationAnalysis) (record : ArbitrationResolutionRecord)
    (now : Instant) : Program TeamStore AnalysisState := do
  let dispute ← readDispute job.disputeId
  match otherResolution dispute record with
  | some current => do
      writeAnalysis (analysis.overtaken current now)
      pure .approved
  | none => do
      let finished ← finishAnalysisAdoption analysis dispute record now
      pure finished.state

def recoverAnalysisAdoption (now : Instant) : Program TeamStore AnalysisState := do
  let analysis ← readAnalysis job
  if analysis.state ≠ .adopting then pure analysis.state
  else do
    let record ← fixedAnalysisResolution job analysis
    let owner ← adoptionOwner job record
    match owner with
    | some other => do
        writeAnalysis (analysis.preempted "adoption_preempted_by_human"
          ("human analysis=" ++ other.analysisId ++
            " 已固定 adoption intent，automatic adoption 终止") now)
        pure .approved
    | none => recoverFixedAdoption job analysis record now

def resumeFixedAdoption (analysis : ArbitrationAnalysis) (record : ArbitrationResolutionRecord)
    (now : Instant) : Program TeamStore (Option ArbitrationResolutionRecord) := do
  let dispute ← readDispute job.disputeId
  if analysis.state = .adopted then do
    require (dispute.resolution.any fun current =>
      current.resolutionId = record.resolutionId)
    pure (some record)
  else
    match otherResolution dispute record with
    | some current => do
        writeAnalysis (analysis.overtaken current now)
        bail
    | none => do
        let _ ← finishAnalysisAdoption analysis dispute record now
        pure (some record)

def resumeMatchingAnalysisAdoption (expectedResolvedBy : ResolvedBy) (now : Instant) :
    Program TeamStore (Option ArbitrationResolutionRecord) := do
  let owner ← findHumanAnalysisAdoptionOwner job.disputeId
  require (owner.all fun other => other = job)
  let analysis ← readAnalysis job
  if analysis.state ≠ .adopting ∧ analysis.state ≠ .adopted then pure none
  else do
    let record ← fixedAnalysisResolution job analysis
    require (record.resolution.resolvedBy = expectedResolvedBy)
    resumeFixedAdoption job analysis record now

def canRecoverCommit (dispute : MaintainerDisputeRecord) (record : ArbitrationResolutionRecord) :
    Bool :=
  match dispute.resolution with
  | none => true
  | some current => record.resolution.resolvedBy = .human &&
      record.resolution.rejectionReason.isSome && current.resolvedBy = .automatic

section

variable (record : ArbitrationResolutionRecord) (onDisk : Option ArbitrationResolutionRecord)

def restoreRecord : Program TeamStore Unit :=
  if onDisk.all fun current => current.resolutionId ≠ record.resolutionId then
    writeResolutionRecord record
  else pure ()

def deliverCurrent : Program TeamStore Unit := do
  restoreRecord record onDisk
  ensureDelivery record

end

variable (target : ResolutionEventTarget)

def recoverPendingRecord (record : ArbitrationResolutionRecord)
    (onDisk : Option ArbitrationResolutionRecord) : Program TeamStore Unit := do
  require (record.target = target)
  let dispute ← readDispute target.disputeId
  if dispute.resolution.any fun current => current.resolutionId = target.resolutionId then
    deliverCurrent record onDisk
  else if canRecoverCommit dispute record then do
    commitResolution dispute record
    deliverCurrent record onDisk
  else removePendingDelivery target.resolutionId

def eventRecord (pending : Option PendingResolutionDelivery)
    (onDisk : Option ArbitrationResolutionRecord) : Option ArbitrationResolutionRecord :=
  (pending.bind PendingResolutionDelivery.resolutionRecord).or
    (onDisk.filter fun record => record.resolutionId = target.resolutionId)

def recoverPendingDelivery : Program TeamStore Unit := do
  let pending ← readPendingDelivery target.resolutionId
  let onDisk ← readCurrentResolutionRecord target.disputeId
  match eventRecord target pending onDisk with
  | none => removePendingDelivery target.resolutionId
  | some record => recoverPendingRecord target record onDisk

def adoptingSource (record : ArbitrationResolutionRecord) (target : ResolutionEventTarget)
    (analysis : Option ArbitrationAnalysis) : Option ArbitrationAnalysis :=
  if record.resolutionId = target.resolutionId then
    analysis.filter fun source =>
      record.analysisSourceId = some source.analysisId && source.state = .adopting
  else none

def completeAnalysisAdoptionAfterDelivery (now : Instant) : Program TeamStore Unit := do
  let record ← readCurrentResolutionRecord target.disputeId
  let current ← readCurrentAnalysis target.disputeId
  match record.bind fun delivered => adoptingSource delivered target current with
  | none => pure ()
  | some analysis => do
      require (analysis.resolutionId = some target.resolutionId)
      writeAnalysis (analysis.afterDelivery true now)

end AgentClaimNetwork.Maintainer
