import AgentClaimNetwork.Agent.InboxEffectAttempt
import AgentClaimNetwork.Dream.Commit

/-!
The decision whether a group conflicts does not depend on how many of its own targets are written
already, and staging its batch again has no effect.
-/

namespace AgentClaimNetwork.Dream

open Library List
variable {engine : Engine} {group : PreparedGroup} {plan : OperationGroup}

open Agent (sortedTargets mem_sortedTargets sortedTargets_distinct)

section

variable {claims : KeyedMap Claim.id} {id : ClaimId} {claim : Claim}

theorem owned_get?_eq_some : (ownedDreamClaims engine claims).get? id = some claim ↔
      claims.get? id = some claim ∧ claim.holder = engine.agentId := by
  have unique : ((claims.values.filter fun claim => claim.holder = engine.agentId).map
      Claim.id).Nodup := claims.nodup_keys.sublist ((filter_sublist).map Claim.id)
  unfold ownedDreamClaims
  rw [KeyedMap.get?_eq_some, KeyedMap.get?_eq_some, KeyedMap.mem_ofList unique, mem_filter]
  simp only [decide_eq_true_eq]
  tauto

theorem owned_congr (same : claims.get? id = others.get? id) :
    (ownedDreamClaims engine claims).get? id = (ownedDreamClaims engine others).get? id := by
  apply Option.ext
  intro claim
  rw [owned_get?_eq_some, owned_get?_eq_some, same]

end

/-- What a group brings along from `Prepared`. -/
structure WellPrepared (engine : Engine) (group : PreparedGroup) : Prop where
  aligned : group.after.map Claim.id = group.before.map Claim.id
  owned : ∀ claim ∈ group.after, claim.holder = engine.agentId
  distinct : (group.after.map Claim.id).Nodup

section

variable {claim : Claim}

theorem zip_ids {before after : List Claim} (aligned : after.map Claim.id = before.map Claim.id)
    (member : pair ∈ before.zip after) : pair.2.id = pair.1.id := by
  induction before generalizing after with
  | nil => simp at member
  | cons first rest ih =>
    cases after with
    | nil => simp at member
    | cons target others =>
      simp only [map_cons, List.cons.injEq] at aligned
      rcases mem_cons.mp member with isFirst | later
      · rw [isFirst]
        exact aligned.1
      · exact ih aligned.2 later

section

variable (well : WellPrepared engine group)
include well

theorem WellPrepared.sourceOf (member : claim ∈ group.after) :
    ∃ before ∈ group.before, (before, claim) ∈ group.before.zip group.after ∧
      before.id = claim.id := by
  have lengths : group.after.length = group.before.length := by
    simpa using congrArg length well.aligned
  obtain ⟨index, bound, isClaim⟩ := mem_iff_getElem.mp member
  have inBefore : index < group.before.length := lengths ▸ bound
  have paired : (group.before[index], claim) ∈ group.before.zip group.after := by
    refine mem_iff_getElem.mpr ⟨index, ?_, ?_⟩
    · rw [length_zip]
      omega
    · rw [getElem_zip, isClaim]
  exact ⟨group.before[index], getElem_mem inBefore, paired, (zip_ids well.aligned paired).symm⟩

theorem WellPrepared.source_unique (isLeft : left ∈ group.before) (isRight : right ∈ group.before)
    (same : left.id = right.id) : left = right :=
  inj_on_of_nodup_map (well.aligned ▸ well.distinct) isLeft isRight same

theorem WellPrepared.target_unique (isLeft : left ∈ group.after) (isRight : right ∈ group.after)
    (same : left.id = right.id) : left = right :=
  inj_on_of_nodup_map well.distinct isLeft isRight same

end

variable {current : KeyedMap Claim.id}

theorem unchanged_iff : changedSince current group = false ↔ ∀ pair ∈ group.before.zip group.after,
      current.get? pair.1.id = some pair.1 ∨ current.get? pair.1.id = some pair.2 := by
  unfold changedSince
  rw [any_eq_false]
  refine forall₂_congr fun pair _ => ?_
  cases current.get? pair.1.id with
  | none => simp
  | some actual => simp [or_iff_not_imp_left]

theorem WellPrepared.unchanged (well : WellPrepared engine group)
    (unchanged : changedSince current group = false) (member : claim ∈ group.after) :
    (∃ before ∈ group.before, before.id = claim.id ∧ current.get? claim.id = some before) ∨
      current.get? claim.id = some claim := by
  obtain ⟨before, among, paired, same⟩ := well.sourceOf member
  have found := unchanged_iff.mp unchanged _ paired
  simp only [same] at found
  rcases found with isBefore | isTarget
  · exact .inl ⟨before, among, same, isBefore⟩
  · exact .inr isTarget

end

/-- Some targets of the group are written on top of `start`. -/
def Halfway (group : PreparedGroup) (start claims : KeyedMap Claim.id) : Prop :=
  ∀ id, claims.get? id = start.get? id ∨
    ∃ target ∈ group.after, target.id = id ∧ claims.get? id = some target

section

variable {claims : KeyedMap Claim.id}

theorem Halfway.here : Halfway group start start := fun _ => .inl rfl

variable (halfway : Halfway group start claims)
include halfway

theorem Halfway.insert (member : target ∈ group.after) :
    Halfway group start (claims.insert target) := by
  intro id
  rw [KeyedMap.get?_insert]
  split_ifs with same
  · exact .inr ⟨target, member, same, rfl⟩
  · exact halfway id

theorem Halfway.outside {id : ClaimId}
    (other : ∀ target ∈ group.after, target.id ≠ id) : claims.get? id = start.get? id := by
  rcases halfway id with same | ⟨target, member, isId, -⟩
  · exact same
  · exact absurd isId (other target member)

section

variable (well : WellPrepared engine group)
include well

theorem Halfway.unchanged (unchanged : changedSince (ownedDreamClaims engine start) group = false) :
    changedSince (ownedDreamClaims engine claims) group = false := by
  rw [unchanged_iff] at unchanged ⊢
  intro pair member
  have ids := zip_ids well.aligned member
  have isTarget : pair.2 ∈ group.after := (of_mem_zip member).2
  rcases halfway pair.1.id with same | ⟨target, isAfter, isId, written⟩
  · rw [owned_congr same]
    exact unchanged pair member
  · have only : target = pair.2 := well.target_unique isAfter isTarget (isId.trans ids.symm)
    subst only
    exact .inr (owned_get?_eq_some.mpr ⟨written, well.owned _ isTarget⟩)

theorem Halfway.targetGraph :
    targetGraph (ownedDreamClaims engine claims) group =
      targetGraph (ownedDreamClaims engine start) group := by
  apply KeyedMap.ext_get?
  intro id
  unfold Dream.targetGraph
  by_cases isTarget : ∃ target ∈ group.after, target.id = id
  · obtain ⟨target, member, rfl⟩ := isTarget
    rw [KeyedMap.get?_inserts_mem well.distinct member, KeyedMap.get?_inserts_mem well.distinct member]
  · have other : ∀ target ∈ group.after, target.id ≠ id := by
      intro target member same
      exact isTarget ⟨target, member, same⟩
    rw [KeyedMap.get?_inserts_other other, KeyedMap.get?_inserts_other other]
    exact owned_congr (halfway.outside other)

theorem Halfway.noConflict
    (clean : conflict files checkpoint plan group (ownedDreamClaims engine start) = false) :
    conflict files checkpoint plan group (ownedDreamClaims engine claims) = false := by
  unfold conflict at clean ⊢
  simp only [Bool.or_eq_false_iff] at clean ⊢
  rw [halfway.targetGraph well]
  exact ⟨⟨halfway.unchanged well clean.1.1, clean.1.2⟩, clean.2⟩

theorem Halfway.complete (written : ∀ target ∈ group.after, claims.get? target.id = some target) :
    claims = group.after.foldl KeyedMap.insert start := by
  apply KeyedMap.ext_get?
  intro id
  by_cases isTarget : ∃ target ∈ group.after, target.id = id
  · obtain ⟨target, member, rfl⟩ := isTarget
    rw [KeyedMap.get?_inserts_mem well.distinct member]
    exact written target member
  · have other : ∀ target ∈ group.after, target.id ≠ id := by
      intro target member same
      exact isTarget ⟨target, member, same⟩
    rw [KeyedMap.get?_inserts_other other]
    exact halfway.outside other

end

end

section

variable {current : KeyedMap Claim.id}

theorem mem_stagedTargets {claim : Claim} :
    claim ∈ stagedTargets group current conflicting ↔ claim ∈ group.after ∧
      (conflicting = true → current.get? claim.id = some claim) := by
  unfold stagedTargets
  cases conflicting with
  | true => simp
  | false => simp [mem_sortedTargets]

section

variable (well : WellPrepared engine group)
include well

theorem WellPrepared.staged_distinct :
    ((stagedTargets group current conflicting).map Claim.id).Nodup := by
  cases conflicting with
  | true => exact well.distinct.sublist (filter_sublist.map Claim.id)
  | false => exact sortedTargets_distinct well.distinct

theorem WellPrepared.delivery_ok {retired : Claim} (member : retired ∈ group.after) :
    ∃ waiting, delivery plan group retired = .ok waiting ∧ waiting.retired = retired := by
  unfold delivery
  cases found : group.before.find? fun claim => claim.id = retired.id with
  | none =>
    obtain ⟨before, among, -, same⟩ := well.sourceOf member
    have absent := List.find?_eq_none.mp found before among
    simp [same] at absent
  | some before => exact ⟨_, rfl, rfl⟩

theorem WellPrepared.deliveries_ok {retired : List Claim}
    (members : ∀ claim ∈ retired, claim ∈ group.after) :
    ∃ waiting, retired.mapM (delivery plan group) = .ok waiting ∧
      waiting.map ConsolidationDelivery.retired = retired := by
  induction retired with
  | nil => exact ⟨[], rfl, rfl⟩
  | cons claim rest ih =>
    obtain ⟨first, isFirst, retires⟩ :=
      @WellPrepared.delivery_ok engine group plan well claim (members claim mem_cons_self)
    obtain ⟨others, isOthers, retired⟩ :=
      ih fun other among => members other (mem_cons_of_mem _ among)
    refine ⟨first :: others, ?_, ?_⟩
    · rw [mapM_cons, isFirst, isOthers]
      rfl
    · rw [map_cons, retires, retired]

theorem WellPrepared.dependencies_ok {staged : List Claim}
    (members : ∀ claim ∈ staged, claim ∈ group.after) :
    ∃ waiting, dependencies plan group staged = .ok waiting ∧
      (waiting.map ConsolidationDelivery.retired).Sublist
        (staged.filter fun claim => claim.status = .deprecated) := by
  unfold dependencies
  split_ifs with consolidates
  · obtain ⟨waiting, isWaiting, retired⟩ := @WellPrepared.deliveries_ok engine group plan well
      (staged.filter fun claim => claim.status = .deprecated)
      fun claim member => members claim (mem_filter.mp member).1
    exact ⟨waiting, isWaiting, retired ▸ List.Sublist.refl _⟩
  · exact ⟨[], rfl, by simp⟩

end

end

open PendingMaintainerUploads ConsolidationDelivery

variable {added : List ConsolidationDelivery} {claims : List Claim}

theorem foldl_addGroup (distinct : (added.map fun group => group.retired.id).Nodup) :
    added.foldl addGroup groups =
      (groups.filter fun group => group.retired.id ∉ added.map fun other => other.retired.id) ++
        added := by
  induction added generalizing groups with
  | nil => simp
  | cons first rest ih =>
    rw [map_cons, nodup_cons] at distinct
    rw [foldl_cons, ih distinct.2, addGroup, filter_append, filter_filter,
      append_assoc]
    congr 1
    · apply filter_congr
      intro group _
      rw [map_cons, Bool.eq_iff_iff]
      simp only [Bool.and_eq_true, decide_eq_true_eq, mem_cons, not_or, ne_eq]
      tauto
    · have kept : [first].filter (fun group => decide (group.retired.id ∉
          rest.map fun other => other.retired.id)) = [first] := by
        rw [filter_singleton, decide_eq_true distinct.1]
        rfl
      rw [kept]
      rfl

theorem foldl_addGroup_again (distinct : (added.map fun group => group.retired.id).Nodup) :
    added.foldl addGroup (added.foldl addGroup groups) = added.foldl addGroup groups := by
  rw [foldl_addGroup distinct, foldl_addGroup distinct, filter_append, filter_filter]
  have none : added.filter (fun group => decide (group.retired.id ∉
      added.map fun other => other.retired.id)) = [] := by
    refine filter_eq_nil_iff.mpr fun group member => ?_
    simpa using ⟨group, member, rfl⟩
  rw [none, append_nil]
  congr 1
  apply filter_congr
  intro group _
  simp

variable {map : KeyedMap Claim.id}

theorem mergeClaim_addGroups {claim : Claim}
    (distinct : (claims.map Claim.id).Nodup) (member : claim ∈ claims)
    (retired : ∀ group ∈ added, group.retired ∈ claims ∧ group.retired.status = .deprecated)
    (settled : mergeClaim (map, groups) claim = (map, groups)) :
    mergeClaim (map, added.foldl addGroup groups) claim = (map, added.foldl addGroup groups) := by
  unfold mergeClaim at settled ⊢
  split_ifs at settled ⊢ with accepted
  · simp only [Prod.mk.injEq] at settled ⊢
    refine ⟨settled.1, supersede_settled fun group among same => ?_⟩
    rcases mem_foldl_addGroup among with old | new
    · rw [← settled.2] at old
      exact supersede_retired old same
    · have isClaim : group.retired = claim :=
        inj_on_of_nodup_map distinct (retired group new).1 member same
      exact ⟨isClaim ▸ (retired group new).2, isClaim⟩
  · rfl

theorem mergeClaims_addGroups
    (distinct : (claims.map Claim.id).Nodup) {some : List Claim} (members : ∀ claim ∈ some, claim ∈ claims)
    (retired : ∀ group ∈ added, group.retired ∈ claims ∧ group.retired.status = .deprecated)
    (settled : ∀ claim ∈ some, mergeClaim (map, groups) claim = (map, groups)) :
    some.foldl mergeClaim (map, added.foldl addGroup groups) = (map, added.foldl addGroup groups) := by
  induction some with
  | nil => rfl
  | cons claim rest ih =>
    rw [foldl_cons, mergeClaim_addGroups distinct (members claim mem_cons_self) retired
      (settled claim mem_cons_self)]
    exact ih (fun other member => members other (mem_cons_of_mem _ member))
      fun other member => settled other (mem_cons_of_mem _ member)

/-- The batch of `stage_consolidation_batch`. -/
def consolidationBatch (claims : List Claim) (groups : List ConsolidationDelivery) : Batch :=
  ⟨claims, [], true, groups, none⟩

theorem stage_consolidationBatch :
    stageMaintainerBatchInner pending (consolidationBatch claims added) =
      writeOrClear { mergedWith pending (durableBatch claims []) with
        consolidations := added.foldl addGroup
          (mergedWith pending (durableBatch claims [])).consolidations } := rfl

variable (distinct : (claims.map Claim.id).Nodup)
  (retired : ∀ group ∈ added, group.retired ∈ claims ∧ group.retired.status = .deprecated)
include distinct retired

theorem merged_addGroups_again : mergedWith { mergedWith pending (durableBatch claims []) with
        consolidations := added.foldl addGroup
          (mergedWith pending (durableBatch claims [])).consolidations } (durableBatch claims []) =
      { mergedWith pending (durableBatch claims []) with
        consolidations := added.foldl addGroup
          (mergedWith pending (durableBatch claims [])).consolidations } := by
  let merged := claims.foldl mergeClaim
    (KeyedMap.ofList Claim.id pending.claims, pending.consolidations)
  have settled : claims.foldl mergeClaim (merged.1, added.foldl addGroup merged.2) =
      (merged.1, added.foldl addGroup merged.2) :=
    mergeClaims_addGroups distinct (fun _ member => member) retired
      fun claim member => mergeClaims_settled distinct member
  simp only [mergedWith, durableBatch, mergePendingUploads, if_true, KeyedMap.ofList_values]
  rw [settled]
  simp only [foldl_nil]
  congr 1
  ext id
  simp only [Finset.mem_filter, Finset.mem_union, merged]
  tauto

theorem stage_consolidation_again (apart : (added.map fun group => group.retired.id).Nodup) :
    stageMaintainerBatchInner (stageMaintainerBatchInner pending (consolidationBatch claims added))
        (consolidationBatch claims added) =
      stageMaintainerBatchInner pending (consolidationBatch claims added) := by
  by_cases cleared : (mergedWith pending (durableBatch claims [])).claims = [] ∧
      (mergedWith pending (durableBatch claims [])).disputes = []
  · have noClaims : claims = [] := by
      refine eq_nil_iff_forall_not_mem.mpr fun claim member => ?_
      have staged := @staged_claim_id pending claims [] claim member
      rw [cleared.1] at staged
      cases staged
    have noGroups : added = [] := by
      refine eq_nil_iff_forall_not_mem.mpr fun group member => ?_
      have among := (retired group member).1
      rw [noClaims] at among
      cases among
    subst noClaims noGroups
    have isEmpty : stageMaintainerBatchInner pending (consolidationBatch [] []) = empty := by
      rw [stage_consolidationBatch]
      exact if_pos cleared
    rw [isEmpty]
    rfl
  · have kept : stageMaintainerBatchInner pending (consolidationBatch claims added) =
        { mergedWith pending (durableBatch claims []) with
          consolidations := added.foldl addGroup
            (mergedWith pending (durableBatch claims [])).consolidations } := by
      rw [stage_consolidationBatch]
      exact if_neg cleared
    rw [kept, stage_consolidationBatch, merged_addGroups_again distinct retired]
    simp only [foldl_addGroup_again apart]
    exact if_neg cleared

end AgentClaimNetwork.Dream
