import AgentClaimNetwork.ConsolidationDelivery

/-!
The search of `carrier_ready` decides its inductive meaning, and `prune` keeps every decision
about a pending claim.
-/

namespace AgentClaimNetwork

open List

variable {groups : List ConsolidationDelivery} {acknowledged current : List Claim} {claim : Claim}

namespace ConsolidationDelivery

/-- `all` over the carriers: it stops at the first that is not ready. -/
def allReady (check : Claim → Finset ClaimId → Option (Bool × Finset ClaimId)) :
    List Claim → Finset ClaimId → Option (Bool × Finset ClaimId)
  | [], visiting => some (true, visiting)
  | carrier :: carriers, visiting =>
    (check carrier visiting).bind fun answer =>
      if answer.1 then allReady check carriers answer.2 else some (false, answer.2)

/-- `any` over the groups: it stops at the first whose carriers are all ready. -/
def anyReady (check : Claim → Finset ClaimId → Option (Bool × Finset ClaimId))
    (current : List Claim) (claim : Claim) :
    List ConsolidationDelivery → Finset ClaimId → Option (Bool × Finset ClaimId)
  | [], visiting => some (false, visiting)
  | group :: groups, visiting =>
    if group.before = claim ∧ group.retired ∈ current ∧ group.carriers ≠ [] then
      (allReady check group.carriers visiting).bind fun answer =>
        if answer.1 then some (true, answer.2)
        else anyReady check current claim groups answer.2
    else anyReady check current claim groups visiting

/-- `carrier_ready` with the set it shares between its calls; `none` when the fuel is used up. -/
def searchCarrier (groups : List ConsolidationDelivery) (acknowledged current : List Claim) :
    Nat → Claim → Finset ClaimId → Option (Bool × Finset ClaimId)
  | 0, _, _ => none
  | fuel + 1, claim, visiting =>
    if claim.status ≠ .deprecated ∧ claim ∈ current ∧ claim ∈ acknowledged then
      some (true, visiting)
    else if claim.id ∈ visiting then some (false, visiting)
    else
      (anyReady (searchCarrier groups acknowledged current fuel) current claim groups
        (insert claim.id visiting)).map fun answer => (answer.1, answer.2.erase claim.id)

theorem allReady_eq {carriers : List Claim}
    (checks : ∀ carrier, check carrier visiting = some (answer carrier, visiting)) :
    allReady check carriers visiting = some (carriers.all answer, visiting) := by
  induction carriers with
  | nil => rfl
  | cons carrier carriers ih =>
    rw [allReady, checks carrier, all_cons]
    cases ready : answer carrier with
    | true => simpa using ih
    | false => simp

theorem anyReady_eq {claim : Claim} (checks : ∀ group ∈ rest, group.before = claim →
      ∀ carrier, check carrier visiting = some (answer carrier, visiting)) :
    anyReady check current claim rest visiting = some (rest.any fun group =>
      decide (group.before = claim) && decide (group.retired ∈ current) &&
        !group.carriers.isEmpty && group.carriers.all answer, visiting) := by
  induction rest with
  | nil => rfl
  | cons group rest ih =>
    have later := ih fun other member => checks other (mem_cons_of_mem _ member)
    rw [anyReady, any_cons]
    by_cases entered : group.before = claim ∧ group.retired ∈ current ∧ group.carriers ≠ []
    · rw [if_pos entered, allReady_eq (checks group mem_cons_self entered.1)]
      obtain ⟨before, retired, nonempty⟩ := entered
      cases ready : group.carriers.all answer with
      | true => simp [before, retired, nonempty]
      | false => simpa using later
    · rw [if_neg entered, later]
      have skipped : (decide (group.before = claim) && decide (group.retired ∈ current) &&
          !group.carriers.isEmpty) = false := by
        simp only [Bool.and_eq_false_iff, decide_eq_false_iff_not, Bool.not_eq_false',
          List.isEmpty_iff]
        tauto
      rw [skipped, Bool.false_and, Bool.false_or]

theorem searchCarrier_eq {claim : Claim} (enough : unvisited groups visiting < fuel) :
    searchCarrier groups acknowledged current fuel claim visiting =
      some (carrierReadyWithin groups acknowledged current fuel claim visiting, visiting) := by
  induction fuel generalizing claim visiting with
  | zero => omega
  | succ fuel ih =>
    rw [searchCarrier, carrierReadyWithin]
    split_ifs with direct revisited
    · rfl
    · rfl
    · have checks : ∀ group ∈ groups, group.before = claim → ∀ carrier,
          searchCarrier groups acknowledged current fuel carrier (insert claim.id visiting) =
            some (carrierReadyWithin groups acknowledged current fuel carrier
              (insert claim.id visiting), insert claim.id visiting) := by
        intro group member before carrier
        have lower : unvisited groups (insert claim.id visiting) < unvisited groups visiting := by
          rw [← before]
          exact unvisited_insert_lt member (by rw [before]; exact revisited)
        exact ih (by omega)
      rw [anyReady_eq checks]
      simp [Finset.erase_insert revisited]

section

def Direct (acknowledged current : List Claim) (claim : Claim) : Prop :=
  claim.status ≠ .deprecated ∧ claim ∈ current ∧ claim ∈ acknowledged

def Enters (groups : List ConsolidationDelivery) (acknowledged current : List Claim)
    (claim carrier : Claim) : Prop :=
  ¬Direct acknowledged current claim ∧
    ∃ group ∈ groups, group.before = claim ∧ carrier ∈ group.carriers

/-- At most one group has a claim of this identifier as its `before`. -/
structure OneGroupEach (groups : List ConsolidationDelivery) : Prop where
  distinct : (groups.map fun group => group.retired.id).Nodup
  sameId : ∀ group ∈ groups, group.before.id = group.retired.id

section

variable (each : OneGroupEach groups)
include each

theorem OneGroupEach.unique (isLeft : left ∈ groups)
    (isRight : right ∈ groups) (same : left.before.id = right.before.id) : left = right := by
  apply inj_on_of_nodup_map each.distinct isLeft isRight
  rw [← each.sameId left isLeft, same, each.sameId right isRight]

theorem Carried.accessible (carried : Carried groups (· ∈ acknowledged) current claim) :
    Acc (fun carrier claim => Enters groups acknowledged current claim carrier) claim := by
  induction carried with
  | acknowledged live present sent =>
    constructor
    intro carrier entered
    exact absurd ⟨live, present, sent⟩ entered.1
  | @replaced group member retired nonempty carriers ih =>
    constructor
    rintro carrier ⟨_, other, isOther, before, belongs⟩
    have same := each.unique isOther member (congrArg Claim.id before)
    rw [same] at belongs
    exact ih carrier belongs

theorem Carried.not_cyclic (carried : Carried groups (· ∈ acknowledged) current claim) :
    ¬Relation.TransGen (Enters groups acknowledged current) claim claim := by
  intro cycle
  have back : Relation.TransGen (fun carrier claim => Enters groups acknowledged current claim
      carrier) claim claim := Relation.transGen_swap.mpr cycle
  have accessible := (Carried.accessible each carried).transGen
  induction accessible with
  | intro claim _ ih => exact ih claim back carried cycle back

theorem Carried.checked (carried : Carried groups (· ∈ acknowledged) current claim)
    (above : ∀ id ∈ visiting, ∃ upper, upper.id = id ∧
      Relation.TransGen (Enters groups acknowledged current) upper claim) :
    carrierReady claim groups acknowledged current visiting = true := by
  induction carried generalizing visiting with
  | acknowledged live present sent =>
    rw [carrierReady_eq, if_pos ⟨live, present, sent⟩]
  | @replaced group member retired nonempty carriers ih =>
    rw [carrierReady_eq]
    split_ifs with direct revisited
    · rfl
    · exfalso
      obtain ⟨upper, same, path⟩ := above _ revisited
      obtain ⟨_, entered, _⟩ := Relation.TransGen.head'_iff.mp path
      obtain ⟨_, other, isOther, before, _⟩ := entered
      have equal := each.unique isOther member (by rw [before, same])
      rw [equal] at before
      rw [← before] at path
      exact Carried.not_cyclic each (Carried.replaced member retired nonempty carriers) path
    · rw [any_eq_true]
      refine ⟨group, member, ?_⟩
      simp only [decide_true, Bool.true_and, Bool.and_eq_true, decide_eq_true_eq,
        Bool.not_eq_true', isEmpty_eq_false_iff, all_eq_true]
      refine ⟨⟨retired, nonempty⟩, fun carrier belongs => ih carrier belongs ?_⟩
      have step : Enters groups acknowledged current group.before carrier :=
        ⟨direct, group, member, rfl, belongs⟩
      intro id visited
      rcases Finset.mem_insert.mp visited with here | earlier
      · exact ⟨group.before, here.symm, Relation.TransGen.single step⟩
      · obtain ⟨upper, same, path⟩ := above id earlier
        exact ⟨upper, same, path.tail step⟩

theorem carrierReady_iff : carrierReady claim groups acknowledged current ∅ = true ↔
      Carried groups (· ∈ acknowledged) current claim := by
  constructor
  · exact carrierReadyWithin_sound
  · exact fun carried => Carried.checked each carried nofun

end

theorem not_carried_of_cycle {cycle : Claim → Prop}
    (closed : ∀ claim, cycle claim → ¬Direct acknowledged current claim ∧
      ∀ group ∈ groups, group.before = claim → ∃ carrier ∈ group.carriers, cycle carrier)
    (carried : Carried groups (· ∈ acknowledged) current claim) : ¬cycle claim := by
  induction carried with
  | acknowledged live present sent => exact fun inside => (closed _ inside).1 ⟨live, present, sent⟩
  | @replaced group member retired nonempty carriers ih =>
    intro inside
    obtain ⟨carrier, belongs, back⟩ := (closed _ inside).2 group member rfl
    exact ih carrier belongs back

/-- The search ends with its set as it was; its answer is derivability, so claims that only wait
for one another are never ready; and the identifiers of the claims above never make it reject a
derivable carrier. -/
theorem carrier_ready_iff_derivable (retiredIds : (groups.map fun group => group.retired.id).Nodup)
    (sameId : ∀ group ∈ groups, group.before.id = group.retired.id) (claim : Claim) :
    (∀ fuel, groups.length < fuel → searchCarrier groups acknowledged current fuel claim ∅ =
      some (carrierReady claim groups acknowledged current ∅, ∅)) ∧
    (carrierReady claim groups acknowledged current ∅ = true ↔
      Carried groups (· ∈ acknowledged) current claim) ∧
    (∀ cycle : Claim → Prop, cycle claim →
      (∀ other, cycle other → ¬Direct acknowledged current other ∧
        ∀ group ∈ groups, group.before = other → ∃ carrier ∈ group.carriers, cycle carrier) →
      carrierReady claim groups acknowledged current ∅ = false) ∧
    (∀ visiting : Finset ClaimId, Carried groups (· ∈ acknowledged) current claim →
      (∀ id ∈ visiting, ∃ upper, upper.id = id ∧
        Relation.TransGen (Enters groups acknowledged current) upper claim) →
      carrierReady claim groups acknowledged current visiting = true) := by
  have each : OneGroupEach groups := ⟨retiredIds, sameId⟩
  refine ⟨?_, carrierReady_iff each, ?_, fun _ carried => Carried.checked each carried⟩
  · intro fuel enough
    have bound : unvisited groups ∅ ≤ groups.length := unvisited_le ∅
    obtain ⟨extra, rfl⟩ := Nat.exists_eq_add_of_lt enough
    rw [searchCarrier_eq (by omega), Nat.add_right_comm, carrierReadyWithin_enough]
  · intro cycle inside closed
    rw [Bool.eq_false_iff]
    intro checked
    exact not_carried_of_cycle closed ((carrierReady_iff each).mp checked) inside

end

def versionOf (id : ClaimId) (version : Instant) (status : ClaimStatus) : Claim :=
  ⟨id, "", "", "", "", .high, status, 0, some version, [], ""⟩

/-- `a` was replaced by `b` and `b` by `c`, which is acknowledged. -/
def replacedTwice : List ConsolidationDelivery :=
  [⟨versionOf "a" 0 .active, versionOf "a" 1 .deprecated, [versionOf "b" 1 .active]⟩,
    ⟨versionOf "b" 1 .active, versionOf "b" 2 .deprecated, [versionOf "c" 2 .active]⟩]

theorem replaced_carrier_is_ready :
    carrierReady (versionOf "b" 1 .active) replacedTwice [versionOf "c" 2 .active]
      [versionOf "a" 1 .deprecated, versionOf "b" 2 .deprecated, versionOf "c" 2 .active] ∅ =
        true := by
  refine (carrier_ready_iff_derivable (by decide) (by decide) _).2.1.mpr ?_
  refine @Carried.replaced _ _ _ ⟨versionOf "b" 1 .active, versionOf "b" 2 .deprecated,
    [versionOf "c" 2 .active]⟩ (by decide) (by decide) (by decide) ?_
  intro carrier belongs
  rw [mem_singleton.mp belongs]
  exact Carried.acknowledged (by decide) (by decide) (by decide)

variable {acknowledged current pending : List Claim}

inductive Needed (groups : List ConsolidationDelivery) (pending : List Claim) :
    ConsolidationDelivery → Prop
  | pending {group} : group ∈ groups → group.retired ∈ pending → Needed groups pending group
  | replaced {group later} : Needed groups pending group → later ∈ groups →
      later.before ∈ group.carriers → Needed groups pending later

variable {group : ConsolidationDelivery}

theorem Needed.mem (needed : Needed groups pending group) : group ∈ groups := by
  cases needed with
  | pending member _ | replaced _ member _ => exact member

variable {keep : Finset Nat}

theorem mem_dependents : index ∈ dependents groups keep ↔ ∃ later, groups[index]? = some later ∧
      ∃ kept ∈ keep, ∃ group, groups[kept]? = some group ∧ later.before ∈ group.carriers := by
  simp only [dependents, Finset.mem_filter, Finset.mem_range, Option.map_eq_some_iff]
  constructor
  · rintro ⟨_, kept, inKeep, carrier, belongs, later, isLater, rfl⟩
    cases found : groups[kept]? with
    | none => simp [found] at belongs
    | some group =>
      rw [found] at belongs
      exact ⟨later, isLater, kept, inKeep, group, found, by simpa using belongs⟩
  · rintro ⟨later, isLater, kept, inKeep, group, isGroup, belongs⟩
    refine ⟨(List.getElem?_eq_some_iff.mp isLater).1, kept, inKeep, later.before, ?_, later,
      isLater, rfl⟩
    simpa [isGroup] using belongs

def NeededIndices (groups : List ConsolidationDelivery) (pending : List Claim)
    (keep : Finset Nat) : Prop :=
  ∀ index ∈ keep, ∃ group, groups[index]? = some group ∧ Needed groups pending group

theorem NeededIndices.round (needed : NeededIndices groups pending keep) :
    NeededIndices groups pending (keep ∪ dependents groups keep) := by
  intro index member
  rcases Finset.mem_union.mp member with old | isNew
  · exact needed index old
  · obtain ⟨later, isLater, kept, inKeep, group, isGroup, belongs⟩ := mem_dependents.mp isNew
    obtain ⟨same, isSame, isNeeded⟩ := needed kept inKeep
    cases isGroup.symm.trans isSame
    exact ⟨later, isLater, Needed.replaced isNeeded (mem_of_getElem? isLater) belongs⟩

theorem NeededIndices.pruneKeep (needed : NeededIndices groups pending keep) :
    NeededIndices groups pending (pruneKeep groups fuel keep) := by
  induction fuel generalizing keep with
  | zero => exact needed
  | succ fuel ih =>
    rw [ConsolidationDelivery.pruneKeep]
    split
    · exact needed
    · exact ih needed.round

theorem subset_pruneKeep (fuel : Nat) (keep : Finset Nat) : keep ⊆ pruneKeep groups fuel keep := by
  induction fuel generalizing keep with
  | zero => exact subset_rfl
  | succ fuel ih =>
    rw [pruneKeep]
    split
    · exact subset_rfl
    · exact Finset.subset_union_left.trans (ih _)

theorem needed_iff_kept (isGroup : groups[index]? = some group) :
    index ∈ keptIndices groups pending ↔ Needed groups pending group := by
  constructor
  · intro kept
    have needed : NeededIndices groups pending (keptIndices groups pending) := by
      refine NeededIndices.pruneKeep ?_
      intro first member
      obtain ⟨source, isSource, waits⟩ := (Finset.mem_filter.mp member).2
      exact ⟨source, isSource, Needed.pending (mem_of_getElem? isSource) waits⟩
    obtain ⟨same, isSame, isNeeded⟩ := needed index kept
    cases isGroup.symm.trans isSame
    exact isNeeded
  · intro needed
    induction needed generalizing index with
    | @pending source _ waits =>
      refine subset_pruneKeep _ _ (Finset.mem_filter.mpr ⟨?_, source, isGroup, waits⟩)
      exact Finset.mem_range.mpr (List.getElem?_eq_some_iff.mp isGroup).1
    | @replaced before later isNeeded _ belongs ih =>
      obtain ⟨place, isBefore⟩ := mem_iff_getElem?.mp isNeeded.mem
      refine keptIndices_closed (mem_dependents.mpr ?_)
      exact ⟨later, isGroup, place, ih isBefore, before, isBefore, belongs⟩

theorem zipIdx_filter_eq {Item : Type} {items : List Item} {wanted : Item → Bool}
    (agree : ∀ index item, items[index]? = some item → (index ∈ keep ↔ wanted item = true)) :
    (items.zipIdx.filter fun entry => entry.2 ∈ keep).map Prod.fst = items.filter wanted := by
  have same : (items.zipIdx.filter fun entry => entry.2 ∈ keep) =
      items.zipIdx.filter (wanted ∘ Prod.fst) := by
    apply filter_congr
    rintro ⟨item, index⟩ member
    have found := agree index item (mem_zipIdx_iff_getElem?.mp member)
    exact Bool.eq_iff_iff.mpr (decide_eq_true_iff.trans found)
  rw [same, ← filter_map, zipIdx_map_fst]

section

open Classical in
theorem prune_groups_eq : (prune groups acknowledged pending).1 =
    groups.filter fun group => decide (Needed groups pending group) := by
  refine zipIdx_filter_eq fun index group isGroup => ?_
  rw [needed_iff_kept isGroup, decide_eq_true_iff]

variable {group : ConsolidationDelivery}

theorem mem_prune :
    group ∈ (prune groups acknowledged pending).1 ↔ Needed groups pending group := by
  classical
  rw [prune_groups_eq, mem_filter, decide_eq_true_iff]
  exact ⟨And.right, fun needed => ⟨needed.mem, needed⟩⟩

theorem mem_prune_acknowledged : claim ∈ (prune groups acknowledged pending).2 ↔
      claim ∈ acknowledged ∧ claim.id ∈ relatedIds (prune groups acknowledged pending).1 :=
  mem_filter.trans (and_congr_right' decide_eq_true_iff)

theorem Needed.kept (needed : Needed groups pending group) :
    Needed (prune groups acknowledged pending).1 pending group := by
  induction needed with
  | pending member waits => exact Needed.pending (mem_prune.mpr (Needed.pending member waits)) waits
  | replaced earlier member belongs ih =>
    exact Needed.replaced ih (mem_prune.mpr (Needed.replaced earlier member belongs)) belongs

theorem prune_idempotent : prune (prune groups acknowledged pending).1
    (prune groups acknowledged pending).2 pending = prune groups acknowledged pending := by
  classical
  have groupsSame : (prune (prune groups acknowledged pending).1
      (prune groups acknowledged pending).2 pending).1 = (prune groups acknowledged pending).1 := by
    rw [prune_groups_eq, filter_eq_self]
    intro group member
    exact decide_eq_true (mem_prune.mp member).kept
  refine Prod.ext groupsSame (filter_eq_self.mpr ?_)
  intro claim member
  have related := (mem_prune_acknowledged.mp member).2
  rw [← groupsSame] at related
  exact decide_eq_true related

theorem prune_carrierReadyWithin
    (follows : ∃ group, Needed groups pending group ∧ claim ∈ group.carriers) :
    carrierReadyWithin (prune groups acknowledged pending).1
        (prune groups acknowledged pending).2 current fuel claim visiting =
      carrierReadyWithin groups acknowledged current fuel claim visiting := by
  induction fuel generalizing claim visiting with
  | zero => rfl
  | succ fuel ih =>
    obtain ⟨group, needed, belongs⟩ := follows
    have related : claim.id ∈ relatedIds (prune groups acknowledged pending).1 :=
      mem_relatedIds.mpr ⟨group, mem_prune.mpr needed, Or.inr ⟨claim, belongs, rfl⟩⟩
    have sent : claim ∈ (prune groups acknowledged pending).2 ↔ claim ∈ acknowledged :=
      mem_prune_acknowledged.trans (and_iff_left related)
    rw [carrierReadyWithin, carrierReadyWithin]
    simp only [sent]
    split_ifs with direct revisited
    · rfl
    · rfl
    · rw [Bool.eq_iff_iff]
      simp only [any_eq_true, Bool.and_eq_true, decide_eq_true_eq, all_eq_true]
      -- the groups that replaced the claim are needed because the claim's group is
      constructor
      · rintro ⟨later, member, entered, carriers⟩
        refine ⟨later, prune_groups_subset member, entered, fun carrier inLater => ?_⟩
        rw [← ih ⟨later, mem_prune.mp member, inLater⟩]
        exact carriers carrier inLater
      · rintro ⟨later, member, entered, carriers⟩
        have isNeeded : Needed groups pending later :=
          Needed.replaced needed member (by rw [entered.1.1]; exact belongs)
        refine ⟨later, mem_prune.mpr isNeeded, entered, fun carrier inLater => ?_⟩
        rw [ih ⟨later, isNeeded, inLater⟩]
        exact carriers carrier inLater

theorem prune_carrierReady
    (follows : ∃ group, Needed groups pending group ∧ claim ∈ group.carriers) :
    carrierReady claim (prune groups acknowledged pending).1
        (prune groups acknowledged pending).2 current visiting =
      carrierReady claim groups acknowledged current visiting := by
  classical
  have shorter : (prune groups acknowledged pending).1.length ≤ groups.length := by
    rw [prune_groups_eq]
    exact length_filter_le _ _
  obtain ⟨extra, total⟩ := Nat.exists_eq_add_of_le shorter
  rw [← @carrierReadyWithin_enough _ _ _ extra, prune_carrierReadyWithin follows, carrierReady,
    Nat.add_right_comm, ← total]

theorem prune_ready (waits : claim ∈ pending) :
    ready claim (prune groups acknowledged pending).1 (prune groups acknowledged pending).2
      current = ready claim groups acknowledged current := by
  rw [ready, ready, Bool.eq_iff_iff]
  simp only [all_eq_true, mem_filter, decide_eq_true_eq, and_imp, Bool.and_eq_true]
  have each : ∀ group, Needed groups pending group → ∀ carrier ∈ group.carriers,
      carrierReady carrier (prune groups acknowledged pending).1
          (prune groups acknowledged pending).2 current ∅ =
        carrierReady carrier groups acknowledged current ∅ :=
    fun group needed carrier belongs => prune_carrierReady ⟨group, needed, belongs⟩
  constructor
  · intro holds group member retires
    have needed : Needed groups pending group := Needed.pending member (by rw [retires]; exact waits)
    obtain ⟨nonempty, carriers⟩ := holds group (mem_prune.mpr needed) retires
    exact ⟨nonempty, fun carrier belongs =>
      (each group needed carrier belongs).symm.trans (carriers carrier belongs)⟩
  · intro holds group member retires
    have needed := mem_prune.mp member
    obtain ⟨nonempty, carriers⟩ := holds group needed.mem retires
    exact ⟨nonempty, fun carrier belongs =>
      (each group needed carrier belongs).trans (carriers carrier belongs)⟩

end

/-- One turn of the loop of `prune`. -/
def pruneRound (groups : List ConsolidationDelivery) (keep : Finset Nat) : Finset Nat :=
  keep ∪ dependents groups keep

theorem pruneKeep_rounds (fuel : Nat) (keep : Finset Nat) :
    ∃ rounds ≤ fuel, (pruneRound groups)^[rounds] keep = pruneKeep groups fuel keep := by
  induction fuel generalizing keep with
  | zero => exact ⟨0, le_rfl, rfl⟩
  | succ fuel ih =>
    rw [pruneKeep]
    split
    · exact ⟨0, Nat.zero_le _, rfl⟩
    · obtain ⟨rounds, bound, same⟩ := ih (keep ∪ dependents groups keep)
      exact ⟨rounds + 1, Nat.succ_le_succ bound, same⟩

def pendingIndices (groups : List ConsolidationDelivery) (pending : List Claim) : Finset Nat :=
  (Finset.range groups.length).filter fun index =>
    ∃ group, groups[index]? = some group ∧ group.retired ∈ pending

/-- Pruning decides nothing: every pending claim is as ready as before, a second pruning finds
nothing to drop, and the loop gets to its fixed point within as many turns as there are groups. -/
theorem prune_preserves_decisions : (∀ claim ∈ pending,
      ready claim (prune groups acknowledged pending).1 (prune groups acknowledged pending).2
        current = ready claim groups acknowledged current) ∧
    prune (prune groups acknowledged pending).1 (prune groups acknowledged pending).2 pending =
      prune groups acknowledged pending ∧
    (∃ rounds ≤ groups.length,
      (pruneRound groups)^[rounds] (pendingIndices groups pending) = keptIndices groups pending ∧
      pruneRound groups (keptIndices groups pending) = keptIndices groups pending) := by
  refine ⟨fun _ => prune_ready, prune_idempotent, ?_⟩
  obtain ⟨rounds, bound, same⟩ := pruneKeep_rounds groups.length (pendingIndices groups pending)
  exact ⟨rounds, bound, same, Finset.union_eq_left.mpr keptIndices_closed⟩

variable {more later : List Claim}

theorem Carried.grow (sent : acknowledged ⊆ more) (kept : current ⊆ later)
    (carried : Carried groups (· ∈ acknowledged) current claim) :
    Carried groups (· ∈ more) later claim := by
  induction carried with
  | acknowledged live present isSent => exact .acknowledged live (kept present) (sent isSent)
  | replaced member retired nonempty _ ih => exact .replaced member (kept retired) nonempty ih

/-- Neither a further acknowledgement nor a further local claim takes back that a retired claim
may be uploaded. -/
theorem ready_monotone (each : OneGroupEach groups) (sent : acknowledged ⊆ more)
    (kept : current ⊆ later) (isReady : ready claim groups acknowledged current = true) :
    ready claim groups more later = true := by
  rw [ready, all_eq_true]
  intro group selected
  obtain ⟨member, retires⟩ := mem_filter.mp selected
  obtain ⟨nonempty, carriers⟩ := ready_sound isReady member (of_decide_eq_true retires)
  simp only [Bool.and_eq_true, Bool.not_eq_true', isEmpty_eq_false_iff, all_eq_true]
  exact ⟨nonempty, fun carrier belongs =>
    (carrierReady_iff each).mpr ((carriers carrier belongs).grow sent kept)⟩

theorem ready_monotone_replacedTwice :
    ready (versionOf "b" 2 .deprecated) replacedTwice
      [versionOf "d" 3 .active, versionOf "c" 2 .active]
      [versionOf "d" 3 .active, versionOf "c" 2 .active] = true :=
  ready_monotone ⟨by decide, by decide⟩ (subset_cons_self _ _) (subset_cons_self _ _)
    (show ready _ _ [versionOf "c" 2 .active] [versionOf "c" 2 .active] = true by decide)

end ConsolidationDelivery

end AgentClaimNetwork
