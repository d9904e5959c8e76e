import AgentClaimNetwork.Agent.InboxEffect
import AgentClaimNetwork.Dream.Plan

/-!
`apply_dream_checkpoint_locally` of `src/agent/session_engine/dream.rs`.  An attempt that cannot
read a file ends like one that is stopped before its next write.
-/

namespace AgentClaimNetwork.Dream

open Library Durable
open Agent (ClaimTrace TraceId sortedTargets)

abbrev Versions := KeyedMap (Prod.fst : ClaimId × String → ClaimId)

def Versions.extend (versions other : Versions) : Versions :=
  other.values.foldl KeyedMap.insert versions

structure FileVersion where
  path : String
  revision : String

structure Receipt where
  tool : String
  fileVersion : Option FileVersion

structure SafetyReview where
  after : List Update
  evidence : List Receipt

structure Checkpoint where
  snapshotAt : Instant
  inputVersions : Versions
  plan : List OperationGroup
  receipts : String → Option Receipt
  groups : List PreparedGroup
  safetyReviews : List SafetyReview
  traceId : TraceId
  applied : Bool
  successAt : Option Instant
  selfVersions : Versions
  operation : Option String

structure DreamState where
  lastSuccessAt : Option Instant
  lastInputSnapshotAt : Option Instant
  knownVersions : Versions

structure StagedBatch where
  claims : List Claim
  dependencies : List ConsolidationDelivery

structure History where
  writes : List (KeyedMap Claim.id × Claim)
  staged : List StagedBatch
  marks : List (Nat × KeyedMap Claim.id)
  authored : Finset ClaimId

structure DreamHome where
  claims : KeyedMap Claim.id
  files : String → Option String
  checkpoint : Checkpoint
  pending : Option String
  uploads : PendingMaintainerUploads
  traces : TraceId → Option ClaimTrace
  dreamState : DreamState
  history : History

structure Engine where
  agentId : AgentId
  path : String
  hasMaintainerClient : Bool
  contentHash : Claim → String
  traceTask : Checkpoint → String

structure Readings where
  traced : Instant
  succeeded : Instant

inductive DreamError
  | anotherPending
  | missingPlanGroup
  | ownerMismatch
  | missingSource

structure Report where
  traceId : TraceId
  updatedClaimIds : List ClaimId

abbrev DreamProgram := Checked DreamHome DreamError

def changedSince (current : KeyedMap Claim.id) (group : PreparedGroup) : Bool :=
  (group.before.zip group.after).any fun pair =>
    (current.get? pair.1.id).all fun actual => actual ≠ pair.1 && actual ≠ pair.2

def targetGraph (current : KeyedMap Claim.id) (group : PreparedGroup) : KeyedMap Claim.id :=
  group.after.foldl KeyedMap.insert current

def closesCycle (graph : KeyedMap Claim.id) (group : PreparedGroup) : Bool :=
  (group.before.zip group.after).any fun pair =>
    pair.2.sourceClaimIds.any fun source =>
      decide (source ∉ pair.1.sourceClaimIds) &&
        match source with
        | .claim id => reaches id pair.2.id graph
        | .policy _ => false

def dreamEvidenceIsCurrent (files : String → Option String) (receipt : Receipt) : Bool :=
  receipt.fileVersion.all fun version => files version.path = some version.revision

section

variable (files : String → Option String) (checkpoint : Checkpoint) (plan : OperationGroup)

def staleEvidence : Bool :=
  (plan.evidenceIds.any fun id =>
      (checkpoint.receipts id).any fun receipt => !dreamEvidenceIsCurrent files receipt) ||
    checkpoint.safetyReviews.any fun review =>
      decide (review.after = plan.updates) &&
        review.evidence.any fun receipt => !dreamEvidenceIsCurrent files receipt

def ownedDreamClaims (engine : Engine) (claims : KeyedMap Claim.id) : KeyedMap Claim.id :=
  KeyedMap.ofList Claim.id (claims.values.filter fun claim => claim.holder = engine.agentId)

def conflict (group : PreparedGroup) (current : KeyedMap Claim.id) : Bool :=
  changedSince current group || closesCycle (targetGraph current group) group ||
    staleEvidence files checkpoint plan

end

def DreamHome.writeClaim (home : DreamHome) (claim : Claim) : DreamHome :=
  { home with
    claims := home.claims.insert claim
    history := { home.history with
      writes := home.history.writes ++ [(home.claims, claim)]
      authored := insert claim.id home.history.authored } }

def writeTarget (engine : Engine) (current : KeyedMap Claim.id) (claim : Claim) :
    DreamProgram Unit := do
  Checked.ensure (claim.holder = engine.agentId) .ownerMismatch
  if current.get? claim.id = some claim then pure ()
  else Checked.write fun home => home.writeClaim claim

def stagedTargets (group : PreparedGroup) (current : KeyedMap Claim.id) (conflicting : Bool) :
    List Claim :=
  if conflicting then group.after.filter fun claim => current.get? claim.id = some claim
  else sortedTargets group.after

section

variable (plan : OperationGroup) (group : PreparedGroup)

def carriers (retired : ClaimId) : List Claim :=
  ((plan.coverage.filter fun coverage => coverage.inputId = retired).flatMap
    Coverage.outputIds).filterMap fun id =>
      group.after.find? fun claim => claim.id = id && claim.status ≠ .deprecated

def delivery (retired : Claim) : Except DreamError ConsolidationDelivery :=
  match group.before.find? fun claim => claim.id = retired.id with
  | none => .error .missingSource
  | some before => .ok ⟨before, retired, carriers plan group retired.id⟩

def dependencies (staged : List Claim) : Except DreamError (List ConsolidationDelivery) :=
  if plan.kind = .consolidation then
    (staged.filter fun claim => claim.status = .deprecated).mapM (delivery plan group)
  else .ok []

end

/-- `stage_consolidation_batch`; without a team service the queue stays as it is. -/
def stageConsolidationBatch (engine : Engine) (batch : StagedBatch) : DreamProgram Unit :=
  Checked.write fun home =>
    { home with
      uploads :=
        if engine.hasMaintainerClient then
          stageMaintainerBatchInner home.uploads ⟨batch.claims, [], true, batch.dependencies, none⟩
        else home.uploads
      history := { home.history with staged := home.history.staged ++ [batch] } }

def recordVersion (engine : Engine) (group : PreparedGroup) (versions : Versions) (claim : Claim) :
    Versions :=
  if claim ∈ group.before then versions else versions.insert (claim.id, engine.contentHash claim)

def Checkpoint.marked (checkpoint : Checkpoint) (engine : Engine) (index : Nat)
    (group : PreparedGroup) (staged : List Claim) (conflicting : Bool) : Checkpoint :=
  { checkpoint with
    selfVersions := staged.foldl (recordVersion engine group) checkpoint.selfVersions
    groups := checkpoint.groups.set index { group with skipped := conflicting, completed := true } }

def writeMark (index : Nat) (checkpoint : Checkpoint) : DreamProgram Unit :=
  Checked.write fun home =>
    { home with
      checkpoint := checkpoint
      history := { home.history with marks := home.history.marks ++ [(index, home.claims)] } }

section

variable (engine : Engine)

variable (checkpoint : Checkpoint)

def closeGroup (index : Nat) (group : PreparedGroup) (plan : OperationGroup) (staged : List Claim)
    (conflicting : Bool) : DreamProgram Checkpoint := do
  let waiting ← Checked.ofExcept (dependencies plan group staged)
  stageConsolidationBatch engine ⟨staged, waiting⟩
  writeMark index (checkpoint.marked engine index group staged conflicting)
  pure (checkpoint.marked engine index group staged conflicting)

def commitOpenGroup (index : Nat) (group : PreparedGroup) (plan : OperationGroup) :
    DreamProgram Checkpoint := do
  let home ← Checked.look
  let current := ownedDreamClaims engine home.claims
  let conflicting := conflict home.files checkpoint plan group current
  Checked.forAll (if conflicting then [] else sortedTargets group.after)
    (writeTarget engine current)
  closeGroup engine checkpoint index group plan (stagedTargets group current conflicting) conflicting

def commitGroup (index : Nat) : DreamProgram Checkpoint :=
  match checkpoint.groups[index]? with
  | none => pure checkpoint
  | some group =>
    if group.completed then pure checkpoint
    else do
      let plan ← Checked.orFail .missingPlanGroup checkpoint.plan[index]?
      commitOpenGroup engine checkpoint index group plan

variable (clock : Readings)

def commitTrace (checkpoint : Checkpoint) : ClaimTrace where
  id := checkpoint.traceId
  name := "dream_claim_review"
  task := engine.traceTask checkpoint
  agent := engine.agentId
  inputClaims := checkpoint.groups.flatMap fun group =>
    group.before.map fun claim => SourceId.claim claim.id
  outputClaims := checkpoint.selfVersions.values.map Prod.fst
  createdAt := truncateToSecond clock.traced

def Checkpoint.finished : Checkpoint :=
  { checkpoint with applied := true, successAt := some clock.succeeded }

def commitGroups (checkpoint : Checkpoint) : DreamProgram Checkpoint := do
  Checked.write fun home => { home with pending := some engine.path }
  let checkpoint ← Checked.fold (List.range checkpoint.groups.length) (commitGroup engine) checkpoint
  Checked.write fun home =>
    { home with
      traces := Function.update home.traces checkpoint.traceId
        (some (commitTrace engine clock checkpoint)) }
  let checkpoint := checkpoint.finished clock
  Checked.write fun home => { home with checkpoint := checkpoint }
  pure checkpoint

def notAfter : Option Instant → Option Instant → Bool
  | none, _ => true
  | some _, none => false
  | some first, some second => first ≤ second

def DreamState.after (state : DreamState) (checkpoint : Checkpoint) : DreamState :=
  if checkpoint.operation.isSome then
    { state with knownVersions := state.knownVersions.extend checkpoint.selfVersions }
  else if notAfter state.lastSuccessAt checkpoint.successAt then
    { lastSuccessAt := checkpoint.successAt
      lastInputSnapshotAt := some checkpoint.snapshotAt
      knownVersions := checkpoint.inputVersions.extend checkpoint.selfVersions }
  else { state with knownVersions := state.knownVersions.extend checkpoint.selfVersions }

def Checkpoint.report : Report :=
  ⟨checkpoint.traceId, checkpoint.selfVersions.values.map Prod.fst⟩

def closeCommit : DreamProgram Report := do
  Checked.write fun home => { home with dreamState := home.dreamState.after checkpoint }
  Checked.write fun home => { home with pending := none }
  pure checkpoint.report

def applyDreamCheckpointLocally : DreamProgram Report := do
  let home ← Checked.look
  let checkpoint := home.checkpoint
  Checked.ensure (home.pending.all fun path => path = engine.path) .anotherPending
  if checkpoint.operation.isSome && checkpoint.applied && home.pending.isNone then
    pure checkpoint.report
  else do
    let checkpoint ←
      if checkpoint.applied then pure checkpoint else commitGroups engine clock checkpoint
    closeCommit checkpoint

inductive Event
  | attempt (clock : Readings) (fates : List Fate)
  | editClaim (claim : Claim)
  | removeClaim (id : ClaimId)
  | changeFile (path : String) (revision : Option String)

def DreamHome.step (home : DreamHome) : Event → DreamHome
  | .attempt clock fates => (applyDreamCheckpointLocally engine clock home fates).store
  | .editClaim claim =>
    { home with
      claims := home.claims.insert claim
      history := { home.history with authored := home.history.authored.erase claim.id } }
  | .removeClaim id =>
    { home with
      claims := home.claims.erase id
      history := { home.history with authored := home.history.authored.erase id } }
  | .changeFile path revision => { home with files := Function.update home.files path revision }

def DreamHome.run (home : DreamHome) (events : List Event) : DreamHome :=
  events.foldl (DreamHome.step engine) home

end

def Checkpoint.openGroups (checkpoint : Checkpoint) : List PreparedGroup :=
  checkpoint.groups.filter fun group => !group.completed

/-- The groups as `validate_plan` and `final_checkpoint` leave them: the open ones lead from each claim
to a version of the same claim of this agent, no claim is in two of them, and each has its plan. -/
structure Prepared (engine : Engine) (checkpoint : Checkpoint) : Prop where
  planned : checkpoint.groups.length ≤ checkpoint.plan.length
  aligned : ∀ group ∈ checkpoint.openGroups, group.after.map Claim.id = group.before.map Claim.id
  owned : ∀ group ∈ checkpoint.openGroups, ∀ claim ∈ group.after, claim.holder = engine.agentId
  distinct : (checkpoint.openGroups.flatMap fun group => group.after.map Claim.id).Nodup

end AgentClaimNetwork.Dream
