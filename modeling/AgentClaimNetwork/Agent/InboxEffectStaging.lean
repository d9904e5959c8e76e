import AgentClaimNetwork.MaintainerUpload

/-!
Staging the same claims again.  A plan that is resumed stages its batch once more, perhaps with its
claims in another order and without the disputes it has recorded by then.
-/

namespace AgentClaimNetwork

open Library ConsolidationDelivery PendingMaintainerUploads List
open KeyedMap (accepts ext_get? get? ofList)

section

variable {left right claim : Claim}

theorem supersede_settled (settled : ∀ group ∈ groups, group.retired.id = claim.id →
      claim.status = .deprecated ∧ group.retired = claim) : supersede groups claim = groups := by
  unfold supersede
  split_ifs with live
  · refine filter_eq_self.mpr fun group member => ?_
    have other : group.retired.id ≠ claim.id := fun same => live (settled group member same).1
    simpa using other
  · refine (map_congr_left fun group member => ?_).trans (map_id groups)
    split_ifs with same
    · rw [← (settled group member same).2]
      rfl
    · rfl

theorem supersede_twice : supersede (supersede groups claim) claim = supersede groups claim :=
  supersede_settled fun _ member same => supersede_retired member same

/-- How `supersede` treats one group. -/
def supersedeGroup (claim : Claim) (group : ConsolidationDelivery) : Option ConsolidationDelivery :=
  if group.retired.id = claim.id then
    if claim.status ≠ .deprecated then none else some { group with retired := claim }
  else some group

theorem supersede_eq_filterMap : supersede groups claim = groups.filterMap (supersedeGroup claim) := by
  induction groups with
  | nil => simp [supersede]
  | cons group rest ih =>
    rw [filterMap_cons, ← ih]
    unfold supersede supersedeGroup
    split_ifs with live same
    all_goals simp_all

theorem supersede_comm (different : left.id ≠ right.id) :
    supersede (supersede groups left) right = supersede (supersede groups right) left := by
  simp only [supersede_eq_filterMap, filterMap_filterMap]
  refine filterMap_congr fun group _ => ?_
  unfold supersedeGroup
  by_cases isLeft : group.retired.id = left.id
  · by_cases live : left.status = .deprecated <;> simp [isLeft, live, different]
  · by_cases isRight : group.retired.id = right.id
    · by_cases live : right.status = .deprecated <;> simp [isRight, live, different.symm]
    · simp [isLeft, isRight]

end

section

variable {state : KeyedMap Claim.id × List ConsolidationDelivery} {left right claim : Claim}
  {claims others : List Claim}

theorem mergeClaim_other (different : claim.id ≠ left.id) :
    (mergeClaim state left).1.get? claim.id = state.1.get? claim.id := by
  rw [mergeClaim_fst, KeyedMap.get?_offer, if_neg different.symm]

theorem mergeClaim_accepts (different : claim.id ≠ left.id) :
    (mergeClaim state left).1.accepts Claim.effectiveUpdatedAt claim =
      state.1.accepts Claim.effectiveUpdatedAt claim := by
  unfold accepts
  rw [mergeClaim_other different]

theorem insert_comm {map : KeyedMap Claim.id} (different : left.id ≠ right.id) :
    (map.insert left).insert right = (map.insert right).insert left := by
  apply ext_get?
  intro name
  simp only [KeyedMap.get?_insert]
  by_cases isLeft : left.id = name
  · have notRight : right.id ≠ name := fun same => different (isLeft.trans same.symm)
    simp [isLeft, notRight]
  · simp [isLeft]

theorem mergeClaim_comm (different : left.id ≠ right.id) :
    mergeClaim (mergeClaim state left) right = mergeClaim (mergeClaim state right) left := by
  have afterLeft := @mergeClaim_accepts state left right different.symm
  have afterRight := @mergeClaim_accepts state right left different
  unfold mergeClaim at *
  split_ifs at * <;> simp_all [insert_comm different, supersede_comm different]

theorem mergeClaim_twice : mergeClaim (mergeClaim state claim) claim = mergeClaim state claim := by
  by_cases accepted : state.1.accepts Claim.effectiveUpdatedAt claim
  · have merged : mergeClaim state claim = (state.1.insert claim, supersede state.2 claim) :=
      if_pos accepted
    have again : (state.1.insert claim).accepts Claim.effectiveUpdatedAt claim := by
      simp [accepts, KeyedMap.get?_insert]
    have same : (state.1.insert claim).insert claim = state.1.insert claim := by
      apply ext_get?
      intro name
      simp only [KeyedMap.get?_insert]
      split_ifs <;> rfl
    rw [merged]
    unfold mergeClaim
    rw [if_pos again, same, supersede_twice]
  · have refused : mergeClaim state claim = state := if_neg accepted
    rw [refused, refused]

theorem mergeClaims_perm (same : claims.Perm others) (distinct : (claims.map Claim.id).Nodup) :
    claims.foldl mergeClaim state = others.foldl mergeClaim state := by
  refine same.foldl_eq' (fun first isFirst second isSecond state => ?_) state
  by_cases equal : first.id = second.id
  · rw [inj_on_of_nodup_map distinct isFirst isSecond equal]
  · exact mergeClaim_comm equal

theorem mergeClaims_keep (settled : mergeClaim state claim = state)
    (apart : ∀ other ∈ claims, other.id ≠ claim.id) :
    mergeClaim (claims.foldl mergeClaim state) claim = claims.foldl mergeClaim state := by
  induction claims generalizing state with
  | nil => exact settled
  | cons other rest ih =>
    refine ih ?_ fun later member => apart later (mem_cons_of_mem _ member)
    rw [mergeClaim_comm (apart other mem_cons_self), settled]

theorem mergeClaims_settled (distinct : (claims.map Claim.id).Nodup) (member : claim ∈ claims) :
    mergeClaim (claims.foldl mergeClaim state) claim = claims.foldl mergeClaim state := by
  induction claims generalizing state with
  | nil => cases member
  | cons first rest ih =>
    rw [map_cons, nodup_cons] at distinct
    rcases mem_cons.mp member with isFirst | later
    · subst isFirst
      rw [foldl_cons]
      refine mergeClaims_keep mergeClaim_twice fun other among same => ?_
      exact distinct.1 (same ▸ mem_map_of_mem among)
    · exact ih distinct.2 later

theorem mergeClaims_again (distinct : (claims.map Claim.id).Nodup) (same : claims.Perm others) :
    others.foldl mergeClaim (claims.foldl mergeClaim state) = claims.foldl mergeClaim state := by
  have each : ∀ claim ∈ others,
      mergeClaim (claims.foldl mergeClaim state) claim = claims.foldl mergeClaim state :=
    fun claim member => mergeClaims_settled distinct (same.mem_iff.mpr member)
  clear same
  induction others with
  | nil => rfl
  | cons first rest ih =>
    rw [foldl_cons, each first mem_cons_self]
    exact ih fun claim member => each claim (mem_cons_of_mem _ member)

end

variable {pending : PendingMaintainerUploads} {claims others : List Claim}
  {disputes left : List Dispute}

/-- The batch of `stage_maintainer_batch_with_durable_claims`. -/
def durableBatch (claims : List Claim) (disputes : List Dispute) : Batch :=
  ⟨claims, disputes, true, [], none⟩

theorem stage_durableBatch : stageMaintainerBatchInner pending (durableBatch claims disputes) =
      (mergedWith pending (durableBatch claims disputes)).writeOrClear := rfl

theorem stage_perm (same : claims.Perm others) (distinct : (claims.map Claim.id).Nodup) :
    stageMaintainerBatchInner pending (durableBatch claims disputes) =
      stageMaintainerBatchInner pending (durableBatch others disputes) := by
  have ids : (claims.map Claim.id).toFinset = (others.map Claim.id).toFinset :=
    toFinset_eq_of_perm _ _ (same.map Claim.id)
  rw [stage_durableBatch, stage_durableBatch]
  simp [mergedWith, durableBatch, mergePendingUploads, ids, mergeClaims_perm same distinct]

theorem staged_claim_id {claim : Claim} (member : claim ∈ claims) :
    claim.id ∈ (mergedWith pending (durableBatch claims disputes)).claims.map Claim.id := by
  rw [mergedWith_claims]
  obtain ⟨last, isLast, -⟩ := @KeyedMap.offersAt_newest _ _ _ Claim.effectiveUpdatedAt
    (claims.filter fun value => value.id = claim.id)
    ((ofList Claim.id pending.claims).get? claim.id) claim (by simp [member])
  rw [← KeyedMap.get?_offers] at isLast
  obtain ⟨among, isId⟩ := KeyedMap.get?_eq_some.mp isLast
  exact mem_map.mpr ⟨last, among, isId⟩

theorem staged_dispute_id {dispute : Dispute} (member : dispute ∈ disputes) :
    dispute.id ∈ (mergedWith pending (durableBatch claims disputes)).disputes.map Dispute.id := by
  rw [mergedWith_disputes]
  obtain ⟨last, isLast, -⟩ := @KeyedMap.offersAt_newest _ _ _ Dispute.createdAt
    (disputes.filter fun value => value.id = dispute.id)
    ((ofList Dispute.id pending.disputes).get? dispute.id) dispute (by simp [member])
  rw [← KeyedMap.get?_offers] at isLast
  obtain ⟨among, isId⟩ := KeyedMap.get?_eq_some.mp isLast
  exact mem_map.mpr ⟨last, among, isId⟩

theorem merged_again (distinct : (claims.map Claim.id).Nodup) (same : claims.Perm others) :
    mergedWith (mergedWith pending (durableBatch claims (passed ++ left))) (durableBatch others left) =
      mergedWith pending (durableBatch claims (passed ++ left)) := by
  have ids : (others.map Claim.id).toFinset = (claims.map Claim.id).toFinset :=
    toFinset_eq_of_perm _ _ (same.symm.map Claim.id)
  simp only [mergedWith, durableBatch, mergePendingUploads, if_true, ids, KeyedMap.ofList_values,
    Prod.mk.eta, mergeClaims_again distinct same, KeyedMap.offers_again]
  congr 1
  ext id
  simp only [Finset.mem_filter, Finset.mem_union]
  tauto

theorem stage_again (distinct : (claims.map Claim.id).Nodup) (same : claims.Perm others) :
    stageMaintainerBatchInner
        (stageMaintainerBatchInner pending (durableBatch claims (passed ++ left)))
        (durableBatch others left) =
      stageMaintainerBatchInner pending (durableBatch claims (passed ++ left)) := by
  rw [stage_durableBatch, stage_durableBatch]
  by_cases cleared : (mergedWith pending (durableBatch claims (passed ++ left))).claims = [] ∧
      (mergedWith pending (durableBatch claims (passed ++ left))).disputes = []
  · have noClaims : claims = [] := by
      refine eq_nil_iff_forall_not_mem.mpr fun claim member => ?_
      have staged := @staged_claim_id pending claims (passed ++ left) claim member
      rw [cleared.1] at staged
      cases staged
    have noDisputes : left = [] := by
      refine eq_nil_iff_forall_not_mem.mpr fun dispute member => ?_
      have staged := @staged_dispute_id pending claims (passed ++ left) dispute (by simp [member])
      rw [cleared.2] at staged
      cases staged
    subst noClaims noDisputes
    have noOthers : others = [] := same.nil_eq.symm
    subst noOthers
    have isEmpty : (mergedWith pending (durableBatch [] (passed ++ []))).writeOrClear = empty :=
      if_pos cleared
    rw [isEmpty]
    rfl
  · have kept : (mergedWith pending (durableBatch claims (passed ++ left))).writeOrClear =
        mergedWith pending (durableBatch claims (passed ++ left)) := if_neg cleared
    rw [kept, merged_again distinct same, kept]

end AgentClaimNetwork
