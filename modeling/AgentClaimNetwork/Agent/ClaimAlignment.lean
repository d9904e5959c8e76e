import AgentClaimNetwork.Claim
import AgentClaimNetwork.Library.KeyedMap
import Mathlib.Data.List.Dedup
import Mathlib.Order.Lattice

/-!
`src/agent/claim_alignment.rs`: how a plan that was made for some claims is compared with the claims
that are there now.
-/

namespace AgentClaimNetwork.Agent

open List

def stalePlanWarning : String :=
  "恢复时 Claim 已变化或缺少分析快照，已放弃本批尚未执行的 Claim 修改及 Dispute；已执行结果保留。"

def observeApplied (targets current applied : List Claim) : List Claim :=
  targets.foldl (fun applied target =>
    if !(applied.any fun claim => claim.id = target.id) && decide (target ∈ current) then
      applied ++ [target]
    else applied) applied

structure ClaimChange where
  id : ClaimId
  before : Option Claim
  current : Option Claim
  changedFields : List String

def versionOf (claims : List Claim) (id : ClaimId) : Option Claim :=
  claims.reverse.find? fun claim => claim.id = id

section

variable (analysis : Option (List Claim))

def expectedVersion (targets applied : List Claim) (id : ClaimId) : Option Claim :=
  (versionOf (applied.filter fun claim => claim ∈ targets) id).or
    (versionOf (analysis.getD []) id)

def changedFields (before current : Claim) : List String :=
  ([("name", decide (before.name = current.name)),
    ("statement", decide (before.statement = current.statement)),
    ("scope", decide (before.scope = current.scope)),
    ("holder", decide (before.holder = current.holder)),
    ("confidence", decide (before.confidence = current.confidence)),
    ("status", decide (before.status = current.status)),
    ("created_at", decide (before.createdAt = current.createdAt)),
    ("updated_at", decide (before.updatedAt = current.updatedAt)),
    ("source_claim_ids", decide (before.sourceClaimIds = current.sourceClaimIds)),
    ("evidence_summary", decide (before.evidenceSummary = current.evidenceSummary))].filter
      fun field => !field.2).map Prod.fst

def claimChange (id : ClaimId) (before current : Option Claim) : Option ClaimChange :=
  if current = before then none
  else some ⟨id, before, current, match before, current with
    | some old, some new => changedFields old new
    | _, _ => ["existence"]⟩

def comparedIds (targets : List Claim) : List ClaimId :=
  ((((analysis.getD []).map Claim.id) ++ targets.map Claim.id).dedup).insertionSort (· ≤ ·)

def changes (targets applied current : List Claim) : List ClaimChange :=
  (comparedIds analysis targets).filterMap fun id =>
    claimChange id (expectedVersion analysis targets applied id) (versionOf current id)

def analysisIsStale (changes : List ClaimChange) : Bool :=
  analysis.isNone || !changes.isEmpty

end

variable {analysis : Option (List Claim)} {targets applied current : List Claim} {id : ClaimId}

theorem mem_comparedIds : id ∈ comparedIds analysis targets ↔
      id ∈ (analysis.getD []).map Claim.id ∨ id ∈ targets.map Claim.id := by
  simp [comparedIds]

theorem expected_of_fresh
    (fresh : analysisIsStale analysis (changes analysis targets applied current) = false)
    (compared : id ∈ comparedIds analysis targets) :
    versionOf current id = expectedVersion analysis targets applied id := by
  simp only [analysisIsStale, Bool.or_eq_false_iff, Bool.not_eq_false', List.isEmpty_iff] at fresh
  by_contra differs
  have changed := filterMap_eq_nil_iff.mp fresh.2 id compared
  simp [claimChange, differs] at changed

theorem fresh_of_expected {claims : List Claim} (analysed : analysis = some claims)
    (same : ∀ id ∈ comparedIds analysis targets,
      versionOf current id = expectedVersion analysis targets applied id) :
    analysisIsStale analysis (changes analysis targets applied current) = false := by
  simp only [analysisIsStale, Bool.or_eq_false_iff, Bool.not_eq_false', List.isEmpty_iff]
  refine ⟨by rw [analysed]; rfl, filterMap_eq_nil_iff.mpr fun id compared => ?_⟩
  simp [claimChange, same id compared]

theorem versionOf_none (absent : ∀ claim ∈ current, claim.id ≠ id) : versionOf current id = none := by
  unfold versionOf
  rw [List.find?_eq_none]
  intro claim member same
  exact absent claim (mem_reverse.mp member) (by simpa using same)

theorem versionOf_mem (distinct : (current.map Claim.id).Nodup) (member : claim ∈ current) :
    versionOf current claim.id = some claim := by
  cases found : versionOf current claim.id with
  | none =>
    have absent := List.find?_eq_none.mp found claim (mem_reverse.mpr member)
    simp at absent
  | some other =>
    have isOther : other ∈ current := mem_reverse.mp (List.mem_of_find?_eq_some found)
    have sameId : other.id = claim.id := by simpa using List.find?_some found
    rw [inj_on_of_nodup_map distinct isOther member sameId]

theorem versionOf_values (map : Library.KeyedMap Claim.id) :
    versionOf map.values id = map.get? id := by
  cases found : map.get? id with
  | none => exact versionOf_none (Library.KeyedMap.get?_eq_none.mp found)
  | some claim =>
    obtain ⟨member, rfl⟩ := Library.KeyedMap.get?_eq_some.mp found
    exact versionOf_mem map.nodup_keys member

theorem mem_observeApplied (member : claim ∈ observeApplied targets current applied) :
    claim ∈ applied ∨ claim ∈ targets ∧ claim ∈ current := by
  unfold observeApplied at member
  induction targets generalizing applied with
  | nil => exact .inl member
  | cons target rest ih =>
    rw [foldl_cons] at member
    rcases ih member with before | ⟨isTarget, isCurrent⟩
    · split_ifs at before with observed
      · rcases Library.mem_concat before with old | new
        · exact .inl old
        · simp only [Bool.and_eq_true, decide_eq_true_eq] at observed
          rw [new]
          exact .inr ⟨mem_cons_self, observed.2⟩
      · exact .inl before
    · exact .inr ⟨mem_cons_of_mem _ isTarget, isCurrent⟩

end AgentClaimNetwork.Agent
