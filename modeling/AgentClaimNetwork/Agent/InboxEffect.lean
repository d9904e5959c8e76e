import AgentClaimNetwork.Agent.ClaimAlignment
import AgentClaimNetwork.Library.Checked
import AgentClaimNetwork.Maintainer.ResolutionStore
import AgentClaimNetwork.MaintainerUpload

/-!
The effect journal of `src/agent/inbox.rs`: a plan is stored under the first message of its batch
with references under the others, and applied from there.
-/

namespace AgentClaimNetwork.Agent

open Library Durable
open Checked (ensure fail fold forAll look note ofExcept orFail write)
open Maintainer (InboxId InboxMessage InboxMessageKind ArbitrationResolutionContext ResolutionId
  DisputeResolution Policy)
open Function (update)

abbrev TraceId := String

/-- `Trace` of `src/claim/trace.rs`. -/
structure ClaimTrace where
  id : TraceId
  name : String
  task : String
  agent : AgentId
  inputClaims : List SourceId
  outputClaims : List ClaimId
  createdAt : Instant
deriving DecidableEq

inductive InboxEffectState
  | prepared
  | applied
deriving DecidableEq

structure PlannedClaimUpdate where
  target : Claim
  preimageHash : String
deriving DecidableEq

structure InboxEffectMember where
  inboxId : InboxId
  resolutionId : Option ResolutionId
  messageHash : String
deriving DecidableEq

structure InboxEffectPlan where
  schemaVersion : Nat
  inboxId : InboxId
  resolutionId : Option ResolutionId
  messageHash : String
  batchMembers : List InboxEffectMember
  batchHash : Option String
  analysisClaims : Option (List Claim)
  appliedClaims : List Claim
  state : InboxEffectState
  preparedAt : Instant
  newClaims : List Claim
  updatedClaims : List PlannedClaimUpdate
  deprecatedClaimIds : List ClaimId
  newDisputes : List Dispute
  trace : Option ClaimTrace
  warnings : List String
deriving DecidableEq

structure InboxEffectRef where
  schemaVersion : Nat
  canonicalInboxId : InboxId
  batchHash : String
deriving DecidableEq

inductive InboxEffectRecord
  | plan (plan : InboxEffectPlan)
  | ref (reference : InboxEffectRef)
deriving DecidableEq

def inboxEffectSchemaVersion : Nat := 1

def InboxEffectPlan.targets (plan : InboxEffectPlan) : List Claim :=
  plan.newClaims ++ plan.updatedClaims.map PlannedClaimUpdate.target

def effectPlanMembers (plan : InboxEffectPlan) : List InboxEffectMember :=
  if plan.batchMembers.isEmpty then [⟨plan.inboxId, plan.resolutionId, plan.messageHash⟩]
  else plan.batchMembers

/-- What a call can fail with; a failed write is not among it. -/
inductive InboxEffectError
  | notClaimAttributeUpdate
  | invalidArbitrationMessage (id : InboxId)
  | knowledgeBusy
  | emptyBatch
  | duplicateMessage (id : InboxId)
  | foreignHolder (id : ClaimId)
  | internalizationFailed
  | unknownPreimage (id : ClaimId)
  | missingCanonicalPlan (id canonical : InboxId)
  | invalidPlan (canonical : InboxId)
  | invalidRef (id : InboxId)
  | differentPlan (canonical : InboxId)
  | differentBatch (id : InboxId)
  | notMember (id canonical : InboxId)
  | differentMessage (id : InboxId)
  | staleNotDiscarded
  | differentTrace (id : TraceId)

/-- The failures that report `inbox effect 冲突`. -/
def InboxEffectError.isConflict : InboxEffectError → Bool
  | .differentPlan _ | .differentBatch _ | .notMember _ _ | .differentMessage _ => true
  | _ => false

structure AgentHome where
  effects : InboxId → Option InboxEffectRecord
  claims : KeyedMap Claim.id
  traces : TraceId → Option ClaimTrace
  uploads : PendingMaintainerUploads
  reportedClaimSets : String → Option DisputeId
  dreamPending : Bool
  asked : List (List InboxId)

abbrev HomeProgram := Checked AgentHome InboxEffectError

structure ClaimAttributeUpdateInternalizeItem where
  claimAttributeUpdate : InboxMessage
  conclusion : String
  resolution : Option DisputeResolution
  dispute : Option Dispute
  directClaims : List Claim

structure ClaimAttributeUpdateInternalizeRequest where
  agentId : AgentId
  claimAttributeUpdates : List ClaimAttributeUpdateInternalizeItem
  localClaims : List Claim

structure PreparedOutcome where
  now : Instant
  newClaims : List Claim
  updatedClaims : List Claim
  newDisputes : List Dispute

/-- The agent and what it calls: the hashes over serialised values, the derived trace ids, the
generator with the validation of its answers, and the delivery of the upload queue. -/
structure Runner where
  agentId : AgentId
  hasMaintainerClient : Bool
  hasRouter : Bool
  messageHash : InboxMessage → String
  membersHash : List InboxEffectMember → String
  claimHash : Claim → String
  traceId : Instant → String → List SourceId → List ClaimId → TraceId
  generate : ClaimAttributeUpdateInternalizeRequest → Option PreparedOutcome
  deliver : PendingMaintainerUploads → PendingMaintainerUploads

section

variable (runner : Runner)

def Runner.teamServicesConfigured : Bool :=
  runner.hasMaintainerClient && runner.hasRouter

variable (message : InboxMessage)

def cauResolutionContext : Option ArbitrationResolutionContext :=
  match message.kind with
  | .claimAttributeUpdate _ context => context
  | .policyUpdate _ => none

def messagePolicy : Policy :=
  match message.kind with
  | .claimAttributeUpdate policy _ => policy
  | .policyUpdate policy => policy

def sameMembers {Item : Type} [DecidableEq Item] (left right : List Item) : Bool :=
  (left.all fun item => item ∈ right) && right.all fun item => item ∈ left

def validArbitrationMessage (context : ArbitrationResolutionContext) : Bool :=
  let direct := context.directClaimSnapshots.map Claim.id
  let assessed := context.resolution.claimAssessments.map Maintainer.ClaimAssessment.claimId
  context.disputeId = context.disputeSnapshot.id &&
    context.resolution.resolutionType.all Maintainer.ResolutionType.isResolved &&
    context.resolution.resolutionBasis ≠ some .insufficientEvidence &&
    (decide direct.Nodup && decide context.disputeSnapshot.claims.Nodup &&
      sameMembers direct context.disputeSnapshot.claims) &&
    (context.resolution.claimAssessments.isEmpty ||
      (decide assessed.Nodup && sameMembers assessed direct)) &&
    message.id ≠ ""

def checkMessage : Except InboxEffectError Unit :=
  match message.kind with
  | .policyUpdate _ => .error .notClaimAttributeUpdate
  | .claimAttributeUpdate _ none => .ok ()
  | .claimAttributeUpdate _ (some context) =>
    if validArbitrationMessage message context then .ok ()
    else .error (.invalidArbitrationMessage message.id)

def effectMember : InboxEffectMember :=
  ⟨message.id, (cauResolutionContext message).map fun context => context.resolution.resolutionId,
    runner.messageHash message⟩

def firstRepeated (seen : List InboxId) : List InboxMessage → Option InboxId
  | [] => none
  | message :: rest =>
    if message.id ∈ seen then some message.id else firstRepeated (message.id :: seen) rest

variable (messages : List InboxMessage)

def effectMembersFromMessages : Except InboxEffectError (List InboxEffectMember) :=
  match firstRepeated [] messages with
  | some id => .error (.duplicateMessage id)
  | none => .ok (messages.map (effectMember runner))

def validateEffectPlanIntegrity (plan : InboxEffectPlan) : Bool :=
  let members := effectPlanMembers plan
  plan.schemaVersion = inboxEffectSchemaVersion &&
    members.head? = some ⟨plan.inboxId, plan.resolutionId, plan.messageHash⟩ &&
    decide (members.map InboxEffectMember.inboxId).Nodup &&
    match plan.batchHash with
    | none => plan.batchMembers.isEmpty
    | some expected => !plan.batchMembers.isEmpty && runner.membersHash members = expected

def validateEffectRef (reference : InboxEffectRef) (plan : InboxEffectPlan) : Bool :=
  reference.schemaVersion = inboxEffectSchemaVersion &&
    reference.canonicalInboxId = plan.inboxId && plan.batchHash = some reference.batchHash

def validateEffectPlanMessageMember (plan : InboxEffectPlan)
    (message : InboxMessage) : Except InboxEffectError Unit :=
  match (effectPlanMembers plan).find? fun member => member.inboxId = message.id with
  | none => .error (.notMember message.id plan.inboxId)
  | some member =>
    if member = effectMember runner message then .ok () else .error (.differentMessage message.id)

def SourceId.asStr : SourceId → String
  | .claim id => id
  | .policy id => id

def sortedSourceIds (ids : List SourceId) : List SourceId :=
  (ids.dedup).insertionSort fun left right => SourceId.asStr left ≤ SourceId.asStr right

def claimSemanticsEqual (left right : Claim) : Bool :=
  left.id = right.id && left.name = right.name && left.statement = right.statement &&
    left.scope = right.scope && left.holder = right.holder &&
    left.confidence = right.confidence && left.status = right.status &&
    left.evidenceSummary = right.evidenceSummary &&
    sameMembers left.sourceClaimIds right.sourceClaimIds

def repeatsResolvedArbitrationInput (candidate : Dispute) (context : ArbitrationResolutionContext)
    (localClaims updatedClaims : List Claim) : Bool :=
  decide candidate.claims.Nodup && decide context.disputeSnapshot.claims.Nodup &&
    sameMembers candidate.claims context.disputeSnapshot.claims &&
    (context.directClaimSnapshots.filter fun snapshot =>
      localClaims.any fun claim => claim.id = snapshot.id).all fun snapshot =>
        ((versionOf updatedClaims snapshot.id).or (versionOf localClaims snapshot.id)).all
          fun claim => claimSemanticsEqual claim snapshot

def internalizeItem : ClaimAttributeUpdateInternalizeItem :=
  let context := cauResolutionContext message
  { claimAttributeUpdate := message
    conclusion := (context.map fun context => context.resolution.conclusion).getD
      (messagePolicy message).statement
    resolution := context.map fun context => context.resolution
    dispute := context.map fun context => context.disputeSnapshot
    directClaims := ((context.map fun context => context.directClaimSnapshots).getD []).insertionSort
      fun left right => left.id ≤ right.id }

def directIds : List ClaimId :=
  (messages.filterMap cauResolutionContext).flatMap fun context =>
    context.directClaimSnapshots.map Claim.id

def internalizeTask : String :=
  match messages with
  | [message] =>
    match cauResolutionContext message with
    | none => "内化 ClaimAttributeUpdate"
    | some context => "内化 ClaimAttributeUpdate resolution " ++ context.resolution.resolutionId
  | _ => "批量内化 " ++ toString messages.length ++ " 条 ClaimAttributeUpdate"

def plannedTrace (now : Instant) (newClaims updatedClaims : List Claim) (newDisputes : List Dispute) :
    Option ClaimTrace :=
  let outputClaims := newClaims.map Claim.id ++ updatedClaims.map Claim.id
  if outputClaims.isEmpty && newDisputes.isEmpty then none
  else
    let inputClaims := sortedSourceIds <|
      messages.map (fun message => SourceId.policy (messagePolicy message).id) ++
        (directIds messages).map SourceId.claim ++ newClaims.flatMap Claim.sourceClaimIds ++
        updatedClaims.flatMap Claim.sourceClaimIds
    let name := "inbox_claim_attribute_update"
    some
      { id := runner.traceId now name inputClaims outputClaims
        name := name
        task := internalizeTask messages
        agent := runner.agentId
        inputClaims := inputClaims
        outputClaims := outputClaims
        createdAt := truncateToSecond now }

end

def planUpdates (runner : Runner) (localClaims : List Claim) :
    List Claim → Except InboxEffectError (List PlannedClaimUpdate)
  | [] => .ok []
  | target :: rest =>
    match versionOf localClaims target.id with
    | none => .error (.unknownPreimage target.id)
    | some preimage =>
      match planUpdates runner localClaims rest with
      | .error failure => .error failure
      | .ok later => .ok (⟨target, runner.claimHash preimage⟩ :: later)

def newlyDeprecated (localClaims updatedClaims : List Claim) : List ClaimId :=
  (((updatedClaims.filter fun target =>
    (versionOf localClaims target.id).any (fun preimage => preimage.status ≠ .deprecated) &&
      target.status = .deprecated).map Claim.id).dedup).insertionSort (· ≤ ·)

def batchFields (runner : Runner) (members : List InboxEffectMember) :
    List InboxEffectMember × Option String :=
  if members.length = 1 then ([], none) else (members, some (runner.membersHash members))

def preparedPlan (runner : Runner) (messages : List InboxMessage) (canonical : InboxEffectMember)
    (members : List InboxEffectMember) (localClaims : List Claim) (outcome : PreparedOutcome)
    (updates : List PlannedClaimUpdate) : InboxEffectPlan :=
  let newDisputes := outcome.newDisputes.filter fun dispute =>
    !(messages.filterMap cauResolutionContext).any fun context =>
      repeatsResolvedArbitrationInput dispute context localClaims outcome.updatedClaims
  let batch := batchFields runner members
  { schemaVersion := inboxEffectSchemaVersion
    inboxId := canonical.inboxId
    resolutionId := canonical.resolutionId
    messageHash := canonical.messageHash
    batchMembers := batch.1
    batchHash := batch.2
    analysisClaims := some localClaims
    appliedClaims := []
    state := .prepared
    preparedAt := outcome.now
    newClaims := outcome.newClaims
    updatedClaims := updates
    deprecatedClaimIds := newlyDeprecated localClaims outcome.updatedClaims
    newDisputes := newDisputes
    trace := plannedTrace runner messages outcome.now outcome.newClaims outcome.updatedClaims
      newDisputes
    warnings := [] }

def prepareClaimAttributeUpdateEffect (runner : Runner) (messages : List InboxMessage) :
    HomeProgram InboxEffectPlan := do
  let members ← ofExcept (effectMembersFromMessages runner messages)
  let canonical ← orFail .emptyBatch members.head?
  let home ← look
  match home.claims.values.find? fun claim => claim.holder ≠ runner.agentId with
  | some claim => fail (.foreignHolder claim.id)
  | none => do
      let localClaims := home.claims.values.filter fun claim =>
        claim.status ≠ .deprecated || claim.id ∈ directIds messages
      note fun home => { home with asked := home.asked ++ [messages.map InboxMessage.id] }
      let outcome ← orFail .internalizationFailed <| runner.generate
        { agentId := runner.agentId
          claimAttributeUpdates := messages.map internalizeItem
          localClaims := localClaims }
      let updates ← ofExcept (planUpdates runner localClaims outcome.updatedClaims)
      pure (preparedPlan runner messages canonical members localClaims outcome updates)

def readEffect (id : InboxId) : HomeProgram (Option InboxEffectRecord) := do
  let home ← look
  pure (home.effects id)

def writeEffect (id : InboxId) (record : InboxEffectRecord) : HomeProgram Unit :=
  write fun home => { home with effects := update home.effects id (some record) }

section

variable (plan : InboxEffectPlan)

def effectRef (batchHash : String) : InboxEffectRecord :=
  .ref ⟨inboxEffectSchemaVersion, plan.inboxId, batchHash⟩

def repairRef (batchHash : String) (member : InboxEffectMember) : HomeProgram Unit := do
  let existing ← readEffect member.inboxId
  match existing with
  | some record =>
    ensure (record = effectRef plan batchHash) (.differentBatch member.inboxId)
  | none => writeEffect member.inboxId (effectRef plan batchHash)

def repairClaimAttributeUpdateRefs : HomeProgram Unit :=
  match plan.batchHash with
  | none => pure ()
  | some batchHash => forAll ((effectPlanMembers plan).drop 1) (repairRef plan batchHash)

def persistPreparedPlan : HomeProgram Unit := do
  writeEffect plan.inboxId (.plan plan)
  repairClaimAttributeUpdateRefs plan

variable (current : List Claim)

def InboxEffectPlan.discarded : InboxEffectPlan :=
  { plan with
    newClaims := []
    updatedClaims := []
    newDisputes := []
    trace := if plan.appliedClaims.isEmpty then none else plan.trace
    deprecatedClaimIds := (plan.appliedClaims.filter fun claim => claim.status = .deprecated).map
      Claim.id
    analysisClaims := some current
    warnings :=
      if (plan.targets.any fun claim => !plan.appliedClaims.any fun applied => applied.id = claim.id)
          || !plan.newDisputes.isEmpty then
        plan.warnings ++ [stalePlanWarning]
      else plan.warnings }

def InboxEffectPlan.observed : InboxEffectPlan :=
  { plan with appliedClaims := observeApplied plan.targets current plan.appliedClaims }

def InboxEffectPlan.isStale : Bool :=
  analysisIsStale plan.analysisClaims
    (changes plan.analysisClaims plan.targets plan.appliedClaims current)

def discardStaleInboxPlan : HomeProgram InboxEffectPlan := do
  let home ← look
  let observed := plan.observed home.claims.values
  if observed.isStale home.claims.values then do
    let discarded := observed.discarded home.claims.values
    writeEffect plan.inboxId (.plan discarded)
    pure discarded
  else pure observed

def reportedDisputeClaimSetKey (claims : List ClaimId) : String :=
  String.intercalate " | " ((claims.dedup).insertionSort (· ≤ ·))

def unreportedDisputes (reported : String → Option DisputeId) (accepted : List String) :
    List Dispute → List Dispute × List String
  | [] => ([], [])
  | dispute :: rest =>
    let key := reportedDisputeClaimSetKey dispute.claims
    if (reported key).isSome then
      let later := unreportedDisputes reported accepted rest
      (later.1, ("dispute=" ++ dispute.id ++ " 的 claim-set 已报告，未再次上报") :: later.2)
    else if key ∈ accepted then
      let later := unreportedDisputes reported accepted rest
      (later.1,
        ("dispute=" ++ dispute.id ++ " 的 claim-set 在当前 CAU 中重复，未再次上报") :: later.2)
    else
      let later := unreportedDisputes reported (key :: accepted) rest
      (dispute :: later.1, later.2)

def InboxEffectPlan.unreported (reported : String → Option DisputeId) : InboxEffectPlan :=
  let kept := unreportedDisputes reported [] plan.newDisputes
  { plan with newDisputes := kept.1, warnings := plan.warnings ++ kept.2 }

def sortedTargets (targets : List Claim) : List Claim :=
  (targets.filter fun claim => claim.status ≠ .deprecated) ++
    targets.filter fun claim => claim.status = .deprecated

def writeClaim (claim : Claim) : HomeProgram Unit :=
  write fun home => { home with claims := home.claims.insert claim }

def applyTarget (target : Claim) : HomeProgram InboxEffectPlan :=
  if plan.appliedClaims.any fun claim => claim.id = target.id then pure plan
  else do
    writeClaim target
    let plan := { plan with appliedClaims := plan.appliedClaims ++ [target] }
    writeEffect plan.inboxId (.plan plan)
    pure plan

def InboxEffectPlan.traced : InboxEffectPlan :=
  { plan with trace := plan.trace.map fun trace =>
      { trace with outputClaims := plan.appliedClaims.map Claim.id } }

def ensureTrace (trace : ClaimTrace) : HomeProgram Unit := do
  let home ← look
  match home.traces trace.id with
  | some existing => ensure (existing = trace) (.differentTrace trace.id)
  | none => write fun home =>
    { home with traces := update home.traces trace.id (some trace) }

def ensurePlannedTrace : HomeProgram Unit :=
  match plan.trace with
  | some trace => ensureTrace trace
  | none => pure ()

def InboxEffectPlan.filtered (runner : Runner)
    (reported : String → Option DisputeId) : InboxEffectPlan :=
  if runner.teamServicesConfigured then plan.unreported reported else plan

end

section

variable (runner : Runner)

variable (plan : InboxEffectPlan)

def applyClaimAttributeUpdateEffect : HomeProgram (InboxEffectPlan × List Claim) := do
  let home ← look
  let plan := plan.filtered runner home.reportedClaimSets
  ensure
    ((plan.targets.all fun claim => plan.appliedClaims.any fun applied => applied.id = claim.id) ||
      !plan.isStale home.claims.values) .staleNotDiscarded
  let plan ← fold (sortedTargets plan.targets) applyTarget plan
  let latest ← look
  let claims := plan.appliedClaims.filter fun claim => claim ∈ latest.claims.values
  let plan := plan.traced
  ensurePlannedTrace plan
  pure ({ plan with warnings := (plan.warnings.dedup).insertionSort (· ≤ ·) }, claims)

/-- `stage_maintainer_batch_with_durable_claims`. -/
def stageDurableClaims (claims : List Claim) (disputes : List Dispute) : HomeProgram Unit :=
  if runner.hasMaintainerClient then
    write fun home =>
      { home with uploads := stageMaintainerBatchInner home.uploads ⟨claims, disputes, true, [], none⟩ }
  else pure ()

def recordDisputeIfNew (dispute : Dispute) : HomeProgram Unit := do
  let home ← look
  let key := reportedDisputeClaimSetKey dispute.claims
  if (home.reportedClaimSets key).isSome then pure ()
  else write fun home =>
    { home with reportedClaimSets := update home.reportedClaimSets key (some dispute.id) }

def recordDisputes (disputes : List Dispute) : HomeProgram Unit :=
  if runner.teamServicesConfigured then forAll disputes recordDisputeIfNew else pure ()

def applyPersistedPlan : HomeProgram InboxEffectPlan := do
  repairClaimAttributeUpdateRefs plan
  if plan.state = .prepared then do
    let plan ← discardStaleInboxPlan plan
    let applied ← applyClaimAttributeUpdateEffect runner plan
    stageDurableClaims runner applied.2 applied.1.newDisputes
    recordDisputes runner applied.1.newDisputes
    let plan := { applied.1 with state := .applied }
    writeEffect plan.inboxId (.plan plan)
    pure plan
  else pure plan

structure InternalizeSummary where
  traceId : Option TraceId
  newClaimIds : List ClaimId
  updatedClaimIds : List ClaimId
  deprecatedClaimIds : List ClaimId
  newDisputeIds : List DisputeId
  warnings : List String

def InternalizeSummary.empty : InternalizeSummary := ⟨none, [], [], [], [], []⟩

def InternalizeSummary.extend (summary other : InternalizeSummary) : InternalizeSummary where
  traceId := summary.traceId.or other.traceId
  newClaimIds := summary.newClaimIds ++ other.newClaimIds
  updatedClaimIds := summary.updatedClaimIds ++ other.updatedClaimIds
  deprecatedClaimIds := summary.deprecatedClaimIds ++ other.deprecatedClaimIds
  newDisputeIds := summary.newDisputeIds ++ other.newDisputeIds
  warnings := summary.warnings ++ other.warnings

def effectSummary : InternalizeSummary :=
  let claims := plan.appliedClaims.foldl (fun claims claim =>
    if claims.any fun other => other.id = claim.id then claims else claims ++ [claim]) plan.targets
  { traceId := plan.trace.map ClaimTrace.id
    newClaimIds := (claims.filter fun claim => claim.updatedAt.isNone).map Claim.id
    updatedClaimIds := (claims.filter fun claim => claim.updatedAt.isSome).map Claim.id
    deprecatedClaimIds := plan.deprecatedClaimIds
    newDisputeIds := plan.newDisputes.map Dispute.id
    warnings := plan.warnings }

structure Progress where
  batches : InboxId → Option InboxEffectPlan
  appliedBatches : List InboxId
  summary : InternalizeSummary

def canonicalId : InboxEffectRecord → InboxId
  | .plan plan => plan.inboxId
  | .ref reference => reference.canonicalInboxId

variable (message : InboxMessage)

def readCanonicalPlan : InboxEffectRecord → HomeProgram InboxEffectPlan
  | .plan plan => pure plan
  | .ref reference => do
      let stored ← readEffect reference.canonicalInboxId
      match stored with
      | some (.plan plan) => pure plan
      | some (.ref _) | none =>
        fail (.missingCanonicalPlan message.id reference.canonicalInboxId)

variable (record : InboxEffectRecord) (progress : Progress)

def loadedBatch : HomeProgram InboxEffectPlan :=
  match progress.batches (canonicalId record) with
  | some plan => pure plan
  | none => do
      let plan ← readCanonicalPlan message record
      ensure (validateEffectPlanIntegrity runner plan) (.invalidPlan plan.inboxId)
      pure plan

def matchesBatch (batch : InboxEffectPlan) : InboxEffectRecord → HomeProgram Unit
  | .plan plan => ensure (plan = batch) (.differentPlan plan.inboxId)
  | .ref reference => ensure (validateEffectRef reference batch) (.invalidRef message.id)

/-- `load_claim_attribute_update_effect_batch`, with the plan it loads. -/
def loadEffectBatch : HomeProgram (InboxEffectPlan × Progress) := do
  let batch ← loadedBatch runner message record progress
  matchesBatch message batch record
  ofExcept (validateEffectPlanMessageMember runner batch message)
  pure (batch, { progress with
    batches := update progress.batches (canonicalId record) (some batch) })

def internalizeRecorded : HomeProgram Progress := do
  let loaded ← loadEffectBatch runner message record progress
  let progress := loaded.2
  if canonicalId record ∈ progress.appliedBatches then pure progress
  else do
    let applied ← applyPersistedPlan runner loaded.1
    pure
      { batches := update progress.batches (canonicalId record) (some applied)
        appliedBatches := canonicalId record :: progress.appliedBatches
        summary := progress.summary.extend (effectSummary applied) }

def internalizeGroup (group : List InboxMessage) (progress : Progress) : HomeProgram Progress :=
  if group.isEmpty then pure progress
  else do
    let plan ← prepareClaimAttributeUpdateEffect runner group
    persistPreparedPlan plan
    let applied ← applyPersistedPlan runner plan
    pure { progress with summary := progress.summary.extend (effectSummary applied) }

end

def latestRecord (message : InboxMessage) :
    Option InboxEffectRecord → HomeProgram (Option InboxEffectRecord)
  | some record => pure (some record)
  | none => readEffect message.id

/-- The loop over the messages, each with the record it had at first.  `group` is what it has passed
since the last record. -/
def internalizeFrom (runner : Runner) (group : List InboxMessage) (progress : Progress) :
    List (InboxMessage × Option InboxEffectRecord) → HomeProgram Progress
  | [] => internalizeGroup runner group progress
  | (message, known) :: rest => do
      let record ← latestRecord message known
      match record with
      | none => internalizeFrom runner (group ++ [message]) progress rest
      | some record => do
          let progress ← internalizeGroup runner group progress
          let progress ← internalizeRecorded runner message record progress
          internalizeFrom runner [] progress rest

def loadRecorded (runner : Runner) (progress : Progress)
    (item : InboxMessage × Option InboxEffectRecord) : HomeProgram Progress :=
  match item.2 with
  | some record => do
      let loaded ← loadEffectBatch runner item.1 record progress
      pure loaded.2
  | none => pure progress

def emptyProgress : Progress := ⟨fun _ => none, [], .empty⟩

/-- `internalize_claim_attribute_update_messages`; it holds the locks of its journal files and the
knowledge lock, so that calls come one by one. -/
def internalizeClaimAttributeUpdateMessages (runner : Runner) (messages : List InboxMessage) :
    HomeProgram InternalizeSummary :=
  if messages.isEmpty then pure .empty
  else do
    forAll messages fun message => ofExcept (checkMessage message)
    let home ← look
    ensure (!home.dreamPending) .knowledgeBusy
    let recorded := messages.map fun message => (message, home.effects message.id)
    let progress ← fold recorded (loadRecorded runner) emptyProgress
    let progress ← internalizeFrom runner [] progress recorded
    write fun home => { home with uploads := runner.deliver home.uploads }
    pure progress.summary

end AgentClaimNetwork.Agent
