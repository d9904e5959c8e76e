import AgentClaimNetwork.Agent.ClaimEdit
import AgentClaimNetwork.Dream.Candidates
import AgentClaimNetwork.Dream.Commit

/-!
What a group has to meet before it is staged: `expand` of
`src/agent/session_engine/dream_draft.rs`, `validate_plan` of `dream_plan.rs` and `basis_error` of
`dream_review.rs`.
-/

namespace AgentClaimNetwork.Dream

open Library

abbrev Receipts := KeyedMap (Prod.fst : String × Receipt → String)

structure Review where
  quality : String
  evidence : String
  consolidation : String

structure Plan where
  review : Review
  groups : List OperationGroup

inductive OperationAction
  | keep
  | update
  | deprecate
deriving DecidableEq

/-- An entry of `changes`; `unsupported` is any other key, or a value that does not parse. -/
inductive Change
  | name (value : String)
  | statement (value : String)
  | scope (value : String)
  | confidence (value : Confidence)
  | status (value : ClaimStatus)
  | sourceClaimIds (value : List SourceId)
  | evidenceSummary (value : String)
  | unsupported

def Change.isEvidenceSummary : Change → Bool
  | .evidenceSummary _ => true
  | _ => false

def OperationAction.permits (action : OperationAction) (changes : List Change) : Bool :=
  match action with
  | .keep => changes.isEmpty
  | .update => !changes.isEmpty
  | .deprecate => changes.all Change.isEvidenceSummary

structure Operation where
  id : ClaimId
  action : OperationAction
  reason : Option String
  changes : List Change

/-- A group as `dream_stage_group` gets it. -/
structure Group where
  kind : Kind
  reason : String
  evidenceIds : List String
  coverage : List Coverage
  changeBasis : List ChangeBasis
  operations : List Operation

def confidenceRank : Confidence → Nat
  | .low => 0
  | .medium => 1
  | .high => 2

def Update.ofClaim (claim : Claim) : Update :=
  ⟨claim.id, claim.name, claim.statement, claim.scope, claim.confidence, claim.status,
    claim.sourceClaimIds, claim.evidenceSummary⟩

def Update.change (update : Update) : Change → Option Update
  | .name value => some { update with name := value }
  | .statement value => some { update with statement := value }
  | .scope value => some { update with scope := value }
  | .confidence value => some { update with confidence := value }
  | .status value => some { update with status := value }
  | .sourceClaimIds value => some { update with sourceClaimIds := value }
  | .evidenceSummary value => some { update with evidenceSummary := value }
  | .unsupported => none

def expandOperation (kind : Kind) (readable : KeyedMap Claim.id)
    (done : List ChangeBasis × List Update) (operation : Operation) :
    Option (List ChangeBasis × List Update) := do
  let original ← readable.get? operation.id
  let changeBasis ←
    match operation.reason with
    | none => some done.1
    | some reason =>
      if kind = .quality ∧ operation.action = .deprecate ∧ operation.changes.isEmpty ∧
          !isBlank reason ∧ !(done.1.any fun basis => basis.claimId = operation.id) then
        some (done.1 ++ [⟨operation.id, "Remove this episodic record from active memory; " ++
          "preserve its original fields in history.", "", reason, []⟩])
      else none
  guard (operation.action.permits operation.changes)
  let unchanged := Update.ofClaim original
  let update ← operation.changes.foldlM Update.change <|
    if operation.action = .deprecate then { unchanged with status := .deprecated } else unchanged
  guard (operation.action = .deprecate ∨ update.status ≠ .deprecated)
  pure (changeBasis, done.2 ++ [update])

def expand (group : Group) (readable : KeyedMap Claim.id) : Option OperationGroup := do
  let (changeBasis, updates) ←
    group.operations.foldlM (expandOperation group.kind readable) (group.changeBasis, [])
  pure ⟨group.kind, group.reason, group.evidenceIds, group.coverage, changeBasis, updates⟩

/-- Evidence of `file_read` with the version of its file. -/
def Receipts.isVersioned (receipts : Receipts) (id : String) : Bool :=
  (receipts.get? id).any fun entry => entry.2.tool = "file_read" && entry.2.fileVersion.isSome

def Update.target (update : Update) (original : Claim) : Claim :=
  { original with
    name := update.name
    statement := update.statement
    scope := update.scope
    confidence := update.confidence
    status := update.status
    sourceClaimIds := update.sourceClaimIds
    evidenceSummary := update.evidenceSummary }

section

variable (group : OperationGroup) (readable : KeyedMap Claim.id) (receipts : Receipts)

def citesEvidence (id : ClaimId) : Bool :=
  group.changeBasis.any fun basis => basis.claimId = id &&
    basis.evidenceIds.any fun evidence =>
      decide (evidence ∈ group.evidenceIds) && receipts.isVersioned evidence

def prepareUpdate (owner : AgentId) (now : Instant) (update : Update) :
    Option (Claim × Claim) := do
  let original ← readable.get? update.id
  guard (original.holder = owner ∧ original.status ≠ .deprecated)
  guard ([update.name, update.statement, update.scope, update.evidenceSummary].all fun text =>
    !isBlank text)
  let direct := citesEvidence group receipts update.id
  let renewed : Bool :=
    TornLog.trimString update.evidenceSummary ≠ TornLog.trimString original.evidenceSummary
  guard (confidenceRank update.confidence ≤ confidenceRank original.confidence ∨
    direct ∧ renewed)
  let sources := (group.updates.filterMap fun other => readable.get? other.id).flatMap
    Claim.sourceClaimIds
  guard (update.sourceClaimIds.all fun source =>
    decide (source ≠ .claim update.id) && decide (source ∈ sources))
  let target := update.target original
  if target = original then pure (original, target)
  else
    guard (group.kind = .evidence → original.confidence ≠ .high ∧ renewed ∧ direct)
    pure (original,
      { target with updatedAt := some (Agent.nextClaimUpdateAt now original.effectiveUpdatedAt) })

def validateConsolidationSources (input : Claim) (after : List Claim) (outputIds : List ClaimId) :
    Bool :=
  input.sourceClaimIds.all fun source => after.any fun claim =>
    decide (claim.id ∈ outputIds) && decide (claim.status ≠ .deprecated) &&
      (decide (source ∈ claim.sourceClaimIds) || decide (source = .claim claim.id))

/-- A stronger output needs evidence of its own. -/
def keepsConfidence (input output : Claim) : Bool :=
  decide (confidenceRank output.confidence ≤ confidenceRank input.confidence) ||
    (readable.get? output.id).any fun original =>
      citesEvidence group receipts output.id &&
        decide (output.evidenceSummary ≠ original.evidenceSummary)

def consolidates (before after : List Claim) : Bool :=
  let inputs := before.map Claim.id
  let outputs := (after.filter fun claim => claim.status ≠ .deprecated).map Claim.id
  let covered := group.coverage.map Coverage.inputId
  decide (2 ≤ inputs.length) && !outputs.isEmpty &&
    decide (covered.length = inputs.length) && covered.all (· ∈ inputs) && inputs.all (· ∈ covered) &&
    (group.coverage.all fun coverage => !isBlank coverage.note && !coverage.outputIds.isEmpty &&
      coverage.outputIds.all (· ∈ outputs)) &&
    (group.coverage.all fun coverage =>
      (before.find? fun claim => claim.id = coverage.inputId).any fun input =>
        validateConsolidationSources input after coverage.outputIds &&
          (after.filter fun claim => claim.id ∈ coverage.outputIds).all fun output =>
            keepsConfidence group readable receipts input output) &&
    (before.zip after).any fun pair =>
      decide (pair.2.status ≠ .deprecated) && decide (pair.1.statement ≠ pair.2.statement)

def prepareGroup (owner : AgentId) (now : Instant) : Option PreparedGroup := do
  guard (!isBlank group.reason ∧ !group.updates.isEmpty)
  guard (group.evidenceIds.all fun id => (receipts.get? id).isSome)
  guard ((group.evidenceIds.any fun id =>
      (receipts.get? id).any fun entry => entry.2.tool = "code_run") →
    group.evidenceIds.any receipts.isVersioned)
  let pairs ← group.updates.mapM (prepareUpdate group readable receipts owner now)
  guard (group.kind = .consolidation →
    consolidates group readable receipts (pairs.map Prod.fst) (pairs.map Prod.snd))
  pure ⟨pairs.map Prod.fst, pairs.map Prod.snd, false, false⟩

def Update.isKeep (update : Update) : Bool :=
  decide (update.status ≠ .deprecated) &&
    (readable.get? update.id).any fun original => update.target original = original

def basisError : Bool :=
  let changed := (group.updates.filter fun update => !update.isKeep readable).map Update.id
  let explained := group.changeBasis.map ChangeBasis.claimId
  !(explained.all (· ∈ changed) && changed.all (· ∈ explained) &&
      decide (explained.length = changed.eraseDups.length)) ||
    group.changeBasis.any fun basis =>
      isBlank basis.removedOrChanged || isBlank basis.justification ||
        !basis.evidenceIds.all (· ∈ group.evidenceIds)

end

/-- Every check only refuses, so their order does not show. -/
def validatePlan (plan : Plan) (readable : KeyedMap Claim.id) (owner : AgentId)
    (receipts : Receipts) (now : Instant) : Option (List PreparedGroup) := do
  guard (!isBlank plan.review.quality ∧ !isBlank plan.review.evidence ∧
    !isBlank plan.review.consolidation)
  guard ((plan.groups.flatMap OperationGroup.updates).map Update.id).Nodup
  let prepared ← plan.groups.mapM fun group => prepareGroup group readable receipts owner now
  let graph := prepared.foldl targetGraph readable
  guard (!prepared.any (closesCycle graph))
  pure prepared

end AgentClaimNetwork.Dream
