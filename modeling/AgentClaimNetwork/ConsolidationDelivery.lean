import Mathlib.Data.Finset.Card
import AgentClaimNetwork.Claim

/-!
Delivery dependencies of `src/agent/consolidation_delivery.rs`: a retired source waits for what
carries its knowledge.
-/

namespace AgentClaimNetwork

open List

variable {groups : List ConsolidationDelivery}

structure ConsolidationDelivery where
  before : Claim
  retired : Claim
  carriers : List Claim
deriving DecidableEq

namespace ConsolidationDelivery

def acknowledge (acknowledged : List Claim) (claim : Claim) : List Claim :=
  acknowledged.filter (fun other => other.id ≠ claim.id) ++ [claim]

def relatedIds (groups : List ConsolidationDelivery) : Finset ClaimId :=
  (groups.flatMap fun group => group.retired.id :: group.carriers.map Claim.id).toFinset

/-- The `&mut visiting` recursion, bounded by `fuel`.  Every nested call enters a new
identifier that some group's `before` carries, so `groups.length + 1` is enough. -/
def carrierReadyWithin (groups : List ConsolidationDelivery)
    (acknowledged current : List Claim) : Nat → Claim → Finset ClaimId → Bool
  | 0, _, _ => false
  | fuel + 1, claim, visiting =>
    if claim.status ≠ .deprecated ∧ claim ∈ current ∧ claim ∈ acknowledged then true
    else if claim.id ∈ visiting then false
    else groups.any fun group =>
      decide (group.before = claim) && decide (group.retired ∈ current) &&
        !group.carriers.isEmpty &&
        group.carriers.all fun carrier =>
          carrierReadyWithin groups acknowledged current fuel carrier
            (insert claim.id visiting)

section

variable (claim : Claim) (groups : List ConsolidationDelivery) (acknowledged current : List Claim)

def carrierReady (visiting : Finset ClaimId) : Bool :=
  carrierReadyWithin groups acknowledged current (groups.length + 1) claim visiting

def ready : Bool :=
  (groups.filter fun group => group.retired = claim).all fun group =>
    !group.carriers.isEmpty &&
      group.carriers.all fun carrier => carrierReady carrier groups acknowledged current ∅

end

inductive Carried (groups : List ConsolidationDelivery) (acknowledged : Claim → Prop)
    (current : List Claim) : Claim → Prop
  | acknowledged {claim} : claim.status ≠ .deprecated → claim ∈ current →
      acknowledged claim → Carried groups acknowledged current claim
  | replaced {group} : group ∈ groups → group.retired ∈ current → group.carriers ≠ [] →
      (∀ carrier ∈ group.carriers, Carried groups acknowledged current carrier) →
      Carried groups acknowledged current group.before

variable {claim : Claim}

theorem Carried.mono {current : List Claim}
    {smaller larger : Claim → Prop} (implies : ∀ claim, smaller claim → larger claim)
    (carried : Carried groups smaller current claim) :
    Carried groups larger current claim := by
  induction carried with
  | acknowledged live present sent => exact Carried.acknowledged live present (implies _ sent)
  | replaced member retired nonempty _ ih => exact Carried.replaced member retired nonempty ih
variable {fuel : Nat}

section

variable {acknowledged current : List Claim}
variable {visiting : Finset ClaimId} {claim : Claim}

theorem carrierReadyWithin_sound
    (checked : carrierReadyWithin groups acknowledged current fuel claim visiting = true) :
    Carried groups (· ∈ acknowledged) current claim := by
  induction fuel generalizing claim visiting with
  | zero => simp [carrierReadyWithin] at checked
  | succ fuel ih =>
    simp only [carrierReadyWithin] at checked
    split_ifs at checked with direct revisited
    · exact Carried.acknowledged direct.1 direct.2.1 direct.2.2
    · obtain ⟨group, member, step⟩ := any_eq_true.mp checked
      simp only [Bool.and_eq_true, decide_eq_true_eq, Bool.not_eq_true',
        isEmpty_eq_false_iff, all_eq_true] at step
      obtain ⟨⟨⟨before, retired⟩, nonempty⟩, carriers⟩ := step
      rw [← before]
      exact Carried.replaced member retired nonempty
        (fun carrier belongs => ih (carriers carrier belongs))

def unvisited (groups : List ConsolidationDelivery) (visiting : Finset ClaimId) : Nat :=
  (groups.filter fun group => group.before.id ∉ visiting).length

variable {group : ConsolidationDelivery}

theorem unvisited_insert_lt (member : group ∈ groups) (fresh : group.before.id ∉ visiting) :
    unvisited groups (insert group.before.id visiting) < unvisited groups visiting := by
  unfold unvisited
  have narrowed : (groups.filter fun other => other.before.id ∉ insert group.before.id visiting) =
      (groups.filter fun other => other.before.id ∉ visiting).filter
        (fun other => other.before.id ≠ group.before.id) := by
    rw [filter_filter]
    apply filter_congr
    intro other _
    simp [Finset.mem_insert]
  rw [narrowed]
  apply length_filter_lt_length_iff_exists.mpr
  exact ⟨group, by simp [member, fresh], by simp⟩

theorem carrierReadyWithin_succ (enough : unvisited groups visiting < fuel) :
    carrierReadyWithin groups acknowledged current (fuel + 1) claim visiting =
      carrierReadyWithin groups acknowledged current fuel claim visiting := by
  induction fuel generalizing claim visiting with
  | zero => omega
  | succ fuel ih =>
    rw [carrierReadyWithin, carrierReadyWithin]
    split_ifs with direct revisited
    · rfl
    · rfl
    · rw [Bool.eq_iff_iff]
      simp only [any_eq_true, Bool.and_eq_true, decide_eq_true_eq, all_eq_true]
      -- both sides enter the same groups, and each entered group lowers `unvisited`
      have nested : ∀ group ∈ groups, group.before = claim → ∀ carrier,
          carrierReadyWithin groups acknowledged current (fuel + 1) carrier
              (insert claim.id visiting) =
            carrierReadyWithin groups acknowledged current fuel carrier
              (insert claim.id visiting) := by
        intro group member before carrier
        have lower : unvisited groups (insert claim.id visiting) < unvisited groups visiting := by
          rw [← before]
          exact unvisited_insert_lt member (by rw [before]; exact revisited)
        exact ih (by omega)
      constructor
      · rintro ⟨group, member, ⟨⟨before, retired⟩, nonempty⟩, carriers⟩
        refine ⟨group, member, ⟨⟨before, retired⟩, nonempty⟩, fun carrier belongs => ?_⟩
        rw [← nested group member before]
        exact carriers carrier belongs
      · rintro ⟨group, member, ⟨⟨before, retired⟩, nonempty⟩, carriers⟩
        refine ⟨group, member, ⟨⟨before, retired⟩, nonempty⟩, fun carrier belongs => ?_⟩
        rw [nested group member before]
        exact carriers carrier belongs

theorem unvisited_le (visiting : Finset ClaimId) : unvisited groups visiting ≤ groups.length :=
  length_filter_le _ _

theorem carrierReadyWithin_enough {extra : Nat} {claim : Claim} {visiting : Finset ClaimId} :
    carrierReadyWithin groups acknowledged current (groups.length + 1 + extra) claim visiting =
      carrierReady claim groups acknowledged current visiting := by
  induction extra with
  | zero => rfl
  | succ extra ih =>
    have bound : unvisited groups visiting ≤ groups.length := unvisited_le visiting
    rw [← ih, ← Nat.add_assoc, carrierReadyWithin_succ (by omega)]

theorem carrierReady_eq (claim : Claim) (visiting : Finset ClaimId) :
    carrierReady claim groups acknowledged current visiting =
      if claim.status ≠ .deprecated ∧ claim ∈ current ∧ claim ∈ acknowledged then true
      else if claim.id ∈ visiting then false
      else groups.any fun group =>
        decide (group.before = claim) && decide (group.retired ∈ current) &&
          !group.carriers.isEmpty &&
          group.carriers.all fun carrier =>
            carrierReady carrier groups acknowledged current (insert claim.id visiting) := by
  rw [← @carrierReadyWithin_enough groups acknowledged current 1]
  rfl

theorem ready_sound (checked : ready claim groups acknowledged current = true)
    (member : group ∈ groups) (retires : group.retired = claim) :
    group.carriers ≠ [] ∧
      ∀ carrier ∈ group.carriers, Carried groups (· ∈ acknowledged) current carrier := by
  have selected : group ∈ groups.filter fun other => other.retired = claim := by
    simp [member, retires]
  have step := all_eq_true.mp checked group selected
  simp only [Bool.and_eq_true, Bool.not_eq_true', isEmpty_eq_false_iff,
    all_eq_true] at step
  exact ⟨step.1, fun carrier belongs => carrierReadyWithin_sound (step.2 carrier belongs)⟩

end

theorem mem_relatedIds {id : ClaimId} : id ∈ relatedIds groups ↔ ∃ group ∈ groups,
      id = group.retired.id ∨ ∃ carrier ∈ group.carriers, carrier.id = id := by
  simp [relatedIds]

theorem mem_acknowledge {acknowledged : List Claim} {claim other : Claim}
    (member : other ∈ acknowledge acknowledged claim) : other ∈ acknowledged ∨ other = claim := by
  simp only [acknowledge, mem_append, mem_filter, mem_singleton] at member
  rcases member with ⟨old, _⟩ | equal
  · exact Or.inl old
  · exact Or.inr equal

def supersede (groups : List ConsolidationDelivery) (claim : Claim) : List ConsolidationDelivery :=
  if claim.status ≠ .deprecated then groups.filter fun group => group.retired.id ≠ claim.id
  else groups.map fun group =>
    if group.retired.id = claim.id then { group with retired := claim } else group

variable {group : ConsolidationDelivery}

theorem supersede_retired (member : group ∈ supersede groups claim)
    (same : group.retired.id = claim.id) :
    claim.status = .deprecated ∧ group.retired = claim := by
  simp only [supersede] at member
  split_ifs at member with live
  · simp only [mem_filter, decide_eq_true_eq] at member
    exact absurd same member.2
  · obtain ⟨old, _, replaced⟩ := mem_map.mp member
    refine ⟨by simpa using live, ?_⟩
    split_ifs at replaced with matched
    · rw [← replaced]
    · rw [replaced] at matched
      exact absurd same matched

theorem supersede_other (member : group ∈ supersede groups claim)
    (different : group.retired.id ≠ claim.id) : group ∈ groups := by
  simp only [supersede] at member
  split_ifs at member with live
  · exact (mem_filter.mp member).1
  · obtain ⟨old, oldMem, replaced⟩ := mem_map.mp member
    split_ifs at replaced with matched
    · rw [← replaced] at different
      exact absurd rfl different
    · exact replaced ▸ oldMem

/-- The groups whose `before` is a carrier of a kept group. -/
def dependents (groups : List ConsolidationDelivery) (keep : Finset Nat) : Finset Nat :=
  (Finset.range groups.length).filter fun index =>
    ∃ kept ∈ keep, ∃ carrier ∈ (groups[kept]?.map carriers).getD [],
      groups[index]?.map before = some carrier

def pruneKeep (groups : List ConsolidationDelivery) : Nat → Finset Nat → Finset Nat
  | 0, keep => keep
  | fuel + 1, keep =>
    let next := keep ∪ dependents groups keep
    if next = keep then keep else pruneKeep groups fuel next

def keptIndices (groups : List ConsolidationDelivery) (pending : List Claim) : Finset Nat :=
  pruneKeep groups groups.length <|
    (Finset.range groups.length).filter fun index =>
      ∃ group, groups[index]? = some group ∧ group.retired ∈ pending

def prune (groups : List ConsolidationDelivery) (acknowledged pending : List Claim) :
    List ConsolidationDelivery × List Claim :=
  let keep := keptIndices groups pending
  let kept := (groups.zipIdx.filter fun entry => entry.2 ∈ keep).map Prod.fst
  (kept, acknowledged.filter fun claim => claim.id ∈ relatedIds kept)

variable {acknowledged : List Claim}

theorem prune_groups_subset
    (member : group ∈ (prune groups acknowledged pending).1) : group ∈ groups := by
  simp only [prune, mem_map, mem_filter] at member
  obtain ⟨⟨kept, index⟩, ⟨listed, _⟩, rfl⟩ := member
  exact fst_mem_of_mem_zipIdx listed

theorem prune_acknowledged_subset
    (member : claim ∈ (prune groups acknowledged pending).2) : claim ∈ acknowledged := by
  simp only [prune, mem_filter] at member
  exact member.1

theorem dependents_subset :
    dependents groups keep ⊆ Finset.range groups.length :=
  Finset.filter_subset _ _

theorem pruneKeep_closed (bounded : keep ⊆ Finset.range groups.length)
    (enough : groups.length ≤ keep.card + fuel) :
    dependents groups (pruneKeep groups fuel keep) ⊆ pruneKeep groups fuel keep := by
  induction fuel generalizing keep with
  | zero =>
    have full : keep = Finset.range groups.length :=
      Finset.eq_of_subset_of_card_le bounded (by simpa using enough)
    rw [pruneKeep, full]
    exact dependents_subset
  | succ fuel ih =>
    simp only [pruneKeep]
    split_ifs with stable
    · exact Finset.union_eq_left.mp stable
    · apply ih
      · exact Finset.union_subset bounded dependents_subset
      · have grows : keep ⊂ keep ∪ dependents groups keep :=
          Finset.ssubset_iff_subset_ne.mpr ⟨Finset.subset_union_left, Ne.symm stable⟩
        have larger := Finset.card_lt_card grows
        omega

theorem keptIndices_closed :
    dependents groups (keptIndices groups pending) ⊆ keptIndices groups pending :=
  pruneKeep_closed (Finset.filter_subset _ _) (by omega)

end ConsolidationDelivery

end AgentClaimNetwork
