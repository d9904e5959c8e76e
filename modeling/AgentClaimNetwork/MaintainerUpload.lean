import AgentClaimNetwork.Library.KeyedQueue
import AgentClaimNetwork.ConsolidationDelivery

/-!
The upload queue of `src/agent/maintainer_upload.rs` and the bookkeeping of one attempt.  A
missing file reads as the default queue, so clearing it is writing that.
-/

namespace AgentClaimNetwork

open Library ConsolidationDelivery List
open KeyedMap (mem_erase mem_insert mem_ofList nodup_keys ofList offer settle)

variable {pending : PendingMaintainerUploads}

structure PendingMaintainerUploads where
  consolidations : List ConsolidationDelivery
  acknowledgements : List Claim
  claims : List Claim
  durableClaimIds : Finset ClaimId
  disputes : List Dispute
deriving DecidableEq

namespace PendingMaintainerUploads

/-- `PendingMaintainerUploads::default()`. -/
def empty : PendingMaintainerUploads := ⟨[], [], [], ∅, []⟩

def writeOrClear (pending : PendingMaintainerUploads) : PendingMaintainerUploads :=
  if pending.claims = [] ∧ pending.disputes = [] then empty else pending

@[simp] theorem writeOrClear_claims (pending : PendingMaintainerUploads) :
    pending.writeOrClear.claims = pending.claims := by
  unfold writeOrClear
  split_ifs with cleared
  · exact cleared.1.symm
  · rfl

@[simp] theorem writeOrClear_disputes (pending : PendingMaintainerUploads) :
    pending.writeOrClear.disputes = pending.disputes := by
  unfold writeOrClear
  split_ifs with cleared
  · exact cleared.2.symm
  · rfl

theorem mem_writeOrClear_consolidations (member : group ∈ pending.writeOrClear.consolidations) :
    group ∈ pending.consolidations := by
  unfold writeOrClear at member
  split_ifs at member with cleared
  · simp [empty] at member
  · exact member

theorem mem_writeOrClear_acknowledgements
    {claim : Claim} (member : claim ∈ pending.writeOrClear.acknowledgements) :
    claim ∈ pending.acknowledgements := by
  unfold writeOrClear at member
  split_ifs at member with cleared
  · simp [empty] at member
  · exact member

theorem mem_writeOrClear_durable {id : ClaimId} :
    id ∈ pending.writeOrClear.durableClaimIds → id ∈ pending.durableClaimIds := by
  unfold writeOrClear
  split_ifs with cleared
  · simp [empty]
  · exact fun member => member

structure WellFormed (pending : PendingMaintainerUploads) : Prop where
  claimIds : (pending.claims.map Claim.id).Nodup
  disputeIds : (pending.disputes.map Dispute.id).Nodup
  durable : ∀ id ∈ pending.durableClaimIds, id ∈ pending.claims.map Claim.id

theorem empty_wellFormed : WellFormed empty :=
  ⟨nodup_nil, nodup_nil, fun id member => by simp [empty] at member⟩

theorem WellFormed.writeOrClear
    (wellFormed : WellFormed pending) : WellFormed pending.writeOrClear := by
  refine ⟨?_, ?_, ?_⟩
  · rw [writeOrClear_claims]
    exact wellFormed.claimIds
  · rw [writeOrClear_disputes]
    exact wellFormed.disputeIds
  · intro id member
    rw [writeOrClear_claims]
    exact wellFormed.durable id (mem_writeOrClear_durable member)

end PendingMaintainerUploads

open PendingMaintainerUploads

def mergeClaim (state : KeyedMap Claim.id × List ConsolidationDelivery) (claim : Claim) :
    KeyedMap Claim.id × List ConsolidationDelivery :=
  if state.1.accepts Claim.effectiveUpdatedAt claim then
    (state.1.insert claim, supersede state.2 claim)
  else state

def mergePendingUploads (pending : PendingMaintainerUploads) (claims : List Claim)
    (disputes : List Dispute) : PendingMaintainerUploads :=
  let merged := claims.foldl mergeClaim
    (ofList Claim.id pending.claims, pending.consolidations)
  let disputesById := disputes.foldl (offer Dispute.createdAt)
    (ofList Dispute.id pending.disputes)
  { consolidations := merged.2
    acknowledgements := pending.acknowledgements
    claims := merged.1.values
    durableClaimIds := pending.durableClaimIds.filter fun id =>
      id ∈ merged.1.values.map Claim.id
    disputes := disputesById.values }

theorem mergeClaim_fst (state : KeyedMap Claim.id × List ConsolidationDelivery) (claim : Claim) :
    (mergeClaim state claim).1 = state.1.offer Claim.effectiveUpdatedAt claim := by
  unfold mergeClaim offer
  split_ifs <;> rfl

theorem mergeClaims_fst (claims : List Claim)
    (state : KeyedMap Claim.id × List ConsolidationDelivery) :
    (claims.foldl mergeClaim state).1 =
      claims.foldl (offer Claim.effectiveUpdatedAt) state.1 := by
  induction claims generalizing state with
  | nil => rfl
  | cons claim rest ih =>
    simp only [foldl_cons]
    rw [ih, mergeClaim_fst]

def Aligned (groups : List ConsolidationDelivery) (claims : List Claim) : Prop :=
  ∀ claim ∈ claims, claim.status = .deprecated →
    ∀ group ∈ groups, group.retired.id = claim.id → group.retired = claim

theorem Aligned.subset {groups kept : List ConsolidationDelivery} {claims smaller : List Claim}
    (aligned : Aligned groups claims) (fewerGroups : ∀ group ∈ kept, group ∈ groups)
    (fewerClaims : ∀ claim ∈ smaller, claim ∈ claims) : Aligned kept smaller :=
  fun claim member retired group belongs same =>
    aligned claim (fewerClaims claim member) retired group (fewerGroups group belongs) same

variable {claim : Claim}

theorem Aligned.supersede {groups : List ConsolidationDelivery} {claims : List Claim}
    (aligned : Aligned groups claims)
    (others : ∀ other ∈ updated, other = claim ∨ (other ∈ claims ∧ other.id ≠ claim.id)) :
    Aligned (supersede groups claim) updated := by
  intro other member retired group belongs same
  rcases others other member with equal | ⟨old, different⟩
  · rw [equal] at same ⊢
    exact (supersede_retired belongs same).2
  · have outside : group.retired.id ≠ claim.id := by
      rw [same]
      exact different
    exact aligned other old retired group (supersede_other belongs outside) same

variable {state : KeyedMap Claim.id × List ConsolidationDelivery}

theorem mergeClaim_aligned (aligned : Aligned state.2 state.1.values) :
    Aligned (mergeClaim state claim).2 (mergeClaim state claim).1.values := by
  unfold mergeClaim
  split_ifs with accepted
  · exact aligned.supersede (fun other member => mem_insert.mp member)
  · exact aligned

theorem mergeClaims_aligned (aligned : Aligned state.2 state.1.values) (claims : List Claim) :
    Aligned (claims.foldl mergeClaim state).2 (claims.foldl mergeClaim state).1.values := by
  induction claims generalizing state with
  | nil => exact aligned
  | cons claim rest ih => exact ih (mergeClaim_aligned aligned)

theorem mergePendingUploads_aligned
    (aligned : Aligned pending.consolidations pending.claims) (claims : List Claim)
    (disputes : List Dispute) :
    Aligned (mergePendingUploads pending claims disputes).consolidations
      (mergePendingUploads pending claims disputes).claims := by
  apply mergeClaims_aligned
  exact aligned.subset (fun _ member => member) (fun _ member => KeyedMap.mem_of_mem_ofList member)

/-- The arguments of `stage_maintainer_batch_inner`. -/
structure Batch where
  claims : List Claim
  disputes : List Dispute
  durableClaims : Bool
  groups : List ConsolidationDelivery
  withdrawnPolicy : Option PolicyId

def mergedWith (pending : PendingMaintainerUploads) (batch : Batch) : PendingMaintainerUploads :=
  let marked := if batch.durableClaims then
    { pending with durableClaimIds :=
        pending.durableClaimIds ∪ (batch.claims.map Claim.id).toFinset }
  else pending
  mergePendingUploads marked batch.claims batch.disputes

def withdrawPolicy (merged : PendingMaintainerUploads) (policy : PolicyId) :
    PendingMaintainerUploads :=
  let kept := merged.consolidations.filter fun group =>
    !merged.claims.any fun claim =>
      decide (claim.id = group.retired.id) && decide (claim.status = .deprecated) &&
        decide (SourceId.policy policy ∈ claim.sourceClaimIds)
  let pruned := prune kept merged.acknowledgements merged.claims
  { merged with consolidations := pruned.1, acknowledgements := pruned.2 }

def addGroup (groups : List ConsolidationDelivery) (group : ConsolidationDelivery) :
    List ConsolidationDelivery :=
  groups.filter (fun other => other.retired.id ≠ group.retired.id) ++ [group]

/-- `stage_maintainer_batch_inner`, the queue file before and after. -/
def stageMaintainerBatchInner (pending : PendingMaintainerUploads) (batch : Batch) :
    PendingMaintainerUploads :=
  let merged := mergedWith pending batch
  let withdrawn := match batch.withdrawnPolicy with
    | some policy => withdrawPolicy merged policy
    | none => merged
  writeOrClear { withdrawn with
    consolidations := batch.groups.foldl addGroup withdrawn.consolidations }

section

variable {batch : Batch}

theorem mergedWith_claims : (mergedWith pending batch).claims =
      (batch.claims.foldl (offer Claim.effectiveUpdatedAt)
        (ofList Claim.id pending.claims)).values := by
  unfold mergedWith mergePendingUploads
  simp only [mergeClaims_fst]
  split_ifs <;> rfl

theorem mergedWith_disputes : (mergedWith pending batch).disputes =
      (batch.disputes.foldl (offer Dispute.createdAt)
        (ofList Dispute.id pending.disputes)).values := by
  unfold mergedWith mergePendingUploads
  split_ifs <;> rfl

theorem mergedWith_aligned (aligned : Aligned pending.consolidations pending.claims) :
    Aligned (mergedWith pending batch).consolidations (mergedWith pending batch).claims := by
  unfold mergedWith
  split_ifs
  all_goals exact mergePendingUploads_aligned aligned batch.claims batch.disputes

theorem withdrawPolicy_consolidations
    (member : group ∈ (withdrawPolicy merged policy).consolidations) :
    group ∈ merged.consolidations := by
  simp only [withdrawPolicy] at member
  exact (mem_filter.mp (prune_groups_subset member)).1

theorem mem_foldl_addGroup {groups added : List ConsolidationDelivery}
    (member : group ∈ added.foldl addGroup groups) :
    group ∈ groups ∨ group ∈ added := by
  induction added generalizing groups with
  | nil => exact .inl member
  | cons first rest ih =>
    rcases ih member with old | later
    · simp only [addGroup, mem_append, mem_filter, mem_singleton] at old
      rcases old with ⟨kept, _⟩ | equal
      · exact .inl kept
      · exact .inr (by simp [equal])
    · exact .inr (mem_cons_of_mem _ later)

theorem stage_claims : (stageMaintainerBatchInner pending batch).claims =
      (batch.claims.foldl (offer Claim.effectiveUpdatedAt)
        (ofList Claim.id pending.claims)).values := by
  rw [← mergedWith_claims]
  unfold stageMaintainerBatchInner
  simp only [writeOrClear_claims]
  cases batch.withdrawnPolicy <;> rfl

theorem stage_disputes : (stageMaintainerBatchInner pending batch).disputes =
      (batch.disputes.foldl (offer Dispute.createdAt)
        (ofList Dispute.id pending.disputes)).values := by
  rw [← mergedWith_disputes]
  unfold stageMaintainerBatchInner
  simp only [writeOrClear_disputes]
  cases batch.withdrawnPolicy <;> rfl

theorem mem_stage_consolidations
    (member : group ∈ (stageMaintainerBatchInner pending batch).consolidations) :
    group ∈ (mergedWith pending batch).consolidations ∨ group ∈ batch.groups := by
  have unfiltered := mem_writeOrClear_consolidations member
  rcases mem_foldl_addGroup unfiltered with old | added
  · left
    revert old
    cases batch.withdrawnPolicy with
    | none => exact id
    | some policy => exact withdrawPolicy_consolidations
  · exact .inr added

theorem mem_stage_acknowledgements
    (member : claim ∈ (stageMaintainerBatchInner pending batch).acknowledgements) :
    claim ∈ pending.acknowledgements := by
  have source : (mergedWith pending batch).acknowledgements = pending.acknowledgements := by
    unfold mergedWith mergePendingUploads
    split_ifs <;> rfl
  rw [← source]
  have unfiltered := mem_writeOrClear_acknowledgements member
  revert unfiltered
  cases batch.withdrawnPolicy with
  | none => exact id
  | some policy => exact prune_acknowledged_subset

theorem mergedWith_wellFormed : WellFormed (mergedWith pending batch) := by
  refine ⟨?_, ?_, ?_⟩
  · exact nodup_keys _
  · exact nodup_keys _
  · intro id member
    exact (Finset.mem_filter.mp member).2

theorem stage_wellFormed : WellFormed (stageMaintainerBatchInner pending batch) := by
  have merged : WellFormed (mergedWith pending batch) := mergedWith_wellFormed
  apply WellFormed.writeOrClear
  cases batch.withdrawnPolicy with
  | none | some policy => exact ⟨merged.claimIds, merged.disputeIds, merged.durable⟩

theorem stage_offered_claims (wellFormed : WellFormed pending) {initial offered : List Claim}
    (history : KeyedMap.OfferedFrom Claim.id Claim.effectiveUpdatedAt initial offered
      pending.claims) :
    KeyedMap.OfferedFrom Claim.id Claim.effectiveUpdatedAt initial (offered ++ batch.claims)
      (stageMaintainerBatchInner pending batch).claims := by
  rw [stage_claims]
  exact (history.ofList wellFormed.claimIds).offers batch.claims

theorem stage_offered_disputes (wellFormed : WellFormed pending) {initial offered : List Dispute}
    (history : KeyedMap.OfferedFrom Dispute.id Dispute.createdAt initial offered
      pending.disputes) :
    KeyedMap.OfferedFrom Dispute.id Dispute.createdAt initial (offered ++ batch.disputes)
      (stageMaintainerBatchInner pending batch).disputes := by
  rw [stage_disputes]
  exact (history.ofList wellFormed.disputeIds).offers batch.disputes

variable {id : ClaimId}

theorem stage_keeps_claim_ids (wellFormed : WellFormed pending)
    (queued : id ∈ pending.claims.map Claim.id) :
    id ∈ (stageMaintainerBatchInner pending batch).claims.map Claim.id := by
  obtain ⟨claim, member, rfl⟩ := mem_map.mp queued
  have history := @stage_offered_claims pending batch wellFormed _ _
    (KeyedMap.OfferedFrom.start wellFormed.claimIds)
  obtain ⟨kept, keptMem, keptId⟩ := history.present claim (.inl member)
  exact keptId ▸ mem_map_of_mem keptMem

theorem stage_durable_eq
    (queued : id ∈ (stageMaintainerBatchInner pending batch).claims.map Claim.id) :
    (stageMaintainerBatchInner pending batch).durableClaimIds =
      (mergedWith pending batch).durableClaimIds := by
  have nonempty : (stageMaintainerBatchInner pending batch).claims ≠ [] := by
    intro none
    rw [none] at queued
    simp at queued
  unfold stageMaintainerBatchInner at nonempty ⊢
  rw [writeOrClear_claims] at nonempty
  rw [writeOrClear, if_neg (fun cleared => nonempty cleared.1)]
  cases batch.withdrawnPolicy <;> rfl

theorem stage_durable (wellFormed : WellFormed pending) (mark : id ∈ pending.durableClaimIds) :
    id ∈ (stageMaintainerBatchInner pending batch).durableClaimIds := by
  have queued : id ∈ (stageMaintainerBatchInner pending batch).claims.map Claim.id :=
    stage_keeps_claim_ids wellFormed (wellFormed.durable id mark)
  rw [stage_durable_eq queued]
  rw [stage_claims, ← mergedWith_claims] at queued
  refine Finset.mem_filter.mpr ⟨?_, queued⟩
  split_ifs
  · exact Finset.mem_union_left _ mark
  · exact mark

theorem stage_aligned (aligned : Aligned pending.consolidations pending.claims)
    (queued : ∀ group ∈ batch.groups,
      group.retired ∈ (stageMaintainerBatchInner pending batch).claims) :
    Aligned (stageMaintainerBatchInner pending batch).consolidations
      (stageMaintainerBatchInner pending batch).claims := by
  intro claim member retired group belongs same
  rcases mem_stage_consolidations belongs with old | added
  · rw [stage_claims, ← mergedWith_claims] at member
    exact mergedWith_aligned aligned claim member retired group old same
  · have groupQueued := queued group added
    rw [stage_claims] at groupQueued member
    exact KeyedMap.eq_of_key_eq groupQueued member same

end

/-- `rebind_consolidation`; an error leaves the queue file as it is. -/
def rebindConsolidation (pending : PendingMaintainerUploads)
    (previous revised : ConsolidationDelivery) : Except String PendingMaintainerUploads :=
  if previous.retired ∈ pending.claims ∧ previous ∈ pending.consolidations then
    .ok <| writeOrClear { pending with
      consolidations :=
        pending.consolidations.filter (fun group => group.retired.id ≠ revised.retired.id) ++
          [revised]
      claims :=
        pending.claims.filter (fun claim =>
          !revised.carriers.any fun carrier => decide (carrier.id = claim.id)) ++
          revised.carriers
      durableClaimIds :=
        pending.durableClaimIds ∪ (revised.carriers.map Claim.id).toFinset }
  else .error "Sync dependency changed or already delivered; reread it"

variable {pending next : PendingMaintainerUploads}

theorem rebind_ok (done : rebindConsolidation pending previous revised = .ok next) :
    previous.retired ∈ pending.claims ∧ previous ∈ pending.consolidations ∧
      (∀ group ∈ next.consolidations, group ∈ pending.consolidations ∨ group = revised) ∧
      next.claims = pending.claims.filter (fun claim =>
        !revised.carriers.any fun carrier => decide (carrier.id = claim.id)) ++
          revised.carriers ∧
      (∀ claim ∈ next.acknowledgements, claim ∈ pending.acknowledgements) := by
  simp only [rebindConsolidation] at done
  split_ifs at done with found
  have result := Except.ok.inj done
  subst result
  refine ⟨found.1, found.2, ?_, ?_, ?_⟩
  · intro group member
    have listed := mem_writeOrClear_consolidations member
    simp only [mem_append, mem_filter, mem_singleton] at listed
    exact listed.imp And.left id
  · rw [writeOrClear_claims]
  · intro claim member
    have unchanged := mem_writeOrClear_acknowledgements member
    exact unchanged

theorem rebind_aligned (aligned : Aligned pending.consolidations pending.claims)
    (done : rebindConsolidation pending previous revised = .ok next)
    (retires : revised.retired = previous.retired)
    (live : ∀ carrier ∈ revised.carriers, carrier.status ≠ .deprecated) :
    Aligned next.consolidations next.claims := by
  obtain ⟨_, previousPending, groups, claims, _⟩ := rebind_ok done
  intro claim member retired group belongs same
  rw [claims] at member
  rcases mem_append.mp member with kept | carrier
  · have pendingClaim := (mem_filter.mp kept).1
    rcases groups group belongs with old | new
    · exact aligned claim pendingClaim retired group old same
    · rw [new, retires] at same ⊢
      exact aligned claim pendingClaim retired previous previousPending same
  · exact absurd retired (live claim carrier)

theorem rebind_keeps_claim_ids
    (done : rebindConsolidation pending previous revised = .ok next) {id : ClaimId}
    (queued : id ∈ pending.claims.map Claim.id) : id ∈ next.claims.map Claim.id := by
  obtain ⟨_, _, _, claims, _⟩ := rebind_ok done
  rw [claims, map_append, mem_append]
  obtain ⟨claim, member, named⟩ := mem_map.mp queued
  by_cases replaced : ∃ carrier ∈ revised.carriers, carrier.id = claim.id
  · obtain ⟨carrier, belongs, same⟩ := replaced
    exact .inr (mem_map.mpr ⟨carrier, belongs, same.trans named⟩)
  · refine .inl (mem_map.mpr ⟨claim, mem_filter.mpr ⟨member, ?_⟩, named⟩)
    simpa using replaced

theorem rebind_wellFormed (wellFormed : WellFormed pending)
    (done : rebindConsolidation pending previous revised = .ok next)
    (distinct : (revised.carriers.map Claim.id).Nodup) : WellFormed next := by
  have queued : ∀ id ∈ pending.claims.map Claim.id, id ∈ next.claims.map Claim.id :=
    fun id member => rebind_keeps_claim_ids done member
  obtain ⟨_, _, _, claims, _⟩ := rebind_ok done
  simp only [rebindConsolidation] at done
  split_ifs at done with found
  have result := Except.ok.inj done
  refine ⟨?_, ?_, ?_⟩
  · rw [claims, map_append, nodup_append']
    refine ⟨wellFormed.claimIds.sublist (filter_sublist.map _), distinct, ?_⟩
    intro id kept carried
    obtain ⟨claim, member, named⟩ := mem_map.mp kept
    obtain ⟨carrier, belongs, same⟩ := mem_map.mp carried
    have outside := (mem_filter.mp member).2
    simp only [Bool.not_eq_true', any_eq_false, decide_eq_true_eq] at outside
    exact outside carrier belongs (same.trans named.symm)
  · rw [← result, writeOrClear_disputes]
    exact wellFormed.disputeIds
  · intro id mark
    rw [← result] at mark
    rcases Finset.mem_union.mp (mem_writeOrClear_durable mark) with old | carried
    · exact queued id (wellFormed.durable id old)
    · rw [claims, map_append]
      exact mem_append_right _ (mem_toFinset.mp carried)

def refreshClaim (related : Finset ClaimId) (localClaims : List Claim)
    (groups : List ConsolidationDelivery) (queued : Claim) :
    Claim × List ConsolidationDelivery :=
  if queued.id ∈ related then
    match localClaims.find? (fun claim => claim.id = queued.id) with
    | some actual => (actual, supersede groups actual)
    | none => (queued, groups)
  else (queued, groups)

def refreshClaims (related : Finset ClaimId) (localClaims : List Claim) :
    List ConsolidationDelivery → List Claim → List Claim × List ConsolidationDelivery
  | groups, [] => ([], groups)
  | groups, queued :: rest =>
    let (actual, next) := refreshClaim related localClaims groups queued
    let (refreshed, final) := refreshClaims related localClaims next rest
    (actual :: refreshed, final)

/-- The refresh section of `upload_maintainer_batch_inner`: the queue read again, with
the claims of pending dependencies brought to their local versions. -/
def refreshAttempted (pending : PendingMaintainerUploads) (localClaims : List Claim) :
    PendingMaintainerUploads :=
  let refreshed := refreshClaims (relatedIds pending.consolidations) localClaims
    pending.consolidations pending.claims
  { pending with claims := refreshed.1, consolidations := refreshed.2 }

section

variable (related : Finset ClaimId) (localClaims : List Claim) (groups : List ConsolidationDelivery)
include related localClaims groups

theorem refreshClaim_cases (queued : Claim) :
    (∃ actual, queued.id ∈ related ∧ actual.id = queued.id ∧
        localClaims.find? (fun claim => claim.id = queued.id) = some actual ∧
        refreshClaim related localClaims groups queued = (actual, supersede groups actual)) ∨
      ((queued.id ∈ related → localClaims.find? (fun claim => claim.id = queued.id) = none) ∧
        refreshClaim related localClaims groups queued = (queued, groups)) := by
  unfold refreshClaim
  split_ifs with isRelated
  · cases found : localClaims.find? (fun claim => claim.id = queued.id) with
    | none => exact .inr ⟨fun _ => rfl, rfl⟩
    | some actual =>
      have named : actual.id = queued.id := by simpa using List.find?_some found
      exact .inl ⟨actual, isRelated, named, rfl, rfl⟩
  · exact .inr ⟨fun impossible => absurd impossible isRelated, rfl⟩

theorem refreshClaims_cons (queued : Claim) (rest : List Claim) :
    refreshClaims related localClaims groups (queued :: rest) =
      let first := refreshClaim related localClaims groups queued
      let others := refreshClaims related localClaims first.2 rest
      (first.1 :: others.1, others.2) := rfl

theorem refreshClaims_ids {claims : List Claim} :
    (refreshClaims related localClaims groups claims).1.map Claim.id = claims.map Claim.id := by
  induction claims generalizing groups with
  | nil => rfl
  | cons queued rest ih =>
    simp only [refreshClaims_cons, map_cons, ih]
    rcases refreshClaim_cases related localClaims groups queued with
      ⟨actual, _, named, _, refreshed⟩ | ⟨_, refreshed⟩
    · rw [refreshed, named]
    · rw [refreshed]

theorem refreshClaims_keeps (claims : List Claim) (claim : Claim)
    (settled : ∀ group ∈ groups, group.retired.id = claim.id → group.retired = claim)
    (source : ∀ actual, claim.id ∈ related →
      localClaims.find? (fun other => other.id = claim.id) = some actual → actual = claim) :
    ∀ group ∈ (refreshClaims related localClaims groups claims).2,
      group.retired.id = claim.id → group.retired = claim := by
  induction claims generalizing groups with
  | nil => exact settled
  | cons queued rest ih =>
    rw [refreshClaims_cons]
    apply ih
    rcases refreshClaim_cases related localClaims groups queued with
      ⟨actual, isRelated, named, found, refreshed⟩ | ⟨_, refreshed⟩
    · rw [refreshed]
      intro group member same
      by_cases here : queued.id = claim.id
      · have equal : actual = claim := by
          apply source actual
          · rw [← here]
            exact isRelated
          · rw [← here]
            exact found
        rw [← equal] at same ⊢
        exact (supersede_retired member same).2
      · have outside : group.retired.id ≠ actual.id := by
          rw [same, named]
          exact fun equal => here equal.symm
        exact settled group (supersede_other member outside) same
    · rw [refreshed]
      exact settled

end

theorem refreshClaims_aligned (localClaims : List Claim) (related : Finset ClaimId)
    (groups : List ConsolidationDelivery) (claims : List Claim)
    (unique : (claims.map Claim.id).Nodup) (aligned : Aligned groups claims) :
    Aligned (refreshClaims related localClaims groups claims).2
      (refreshClaims related localClaims groups claims).1 := by
  induction claims generalizing groups with
  | nil => exact fun claim member => by cases member
  | cons queued rest ih =>
    obtain ⟨fresh, restUnique⟩ := nodup_cons.mp unique
    have restAligned : Aligned groups rest :=
      aligned.subset (fun _ member => member) (fun _ member => mem_cons_of_mem _ member)
    simp only [refreshClaims_cons]
    rcases refreshClaim_cases related localClaims groups queued with
      ⟨actual, isRelated, named, found, refreshed⟩ | ⟨absent, refreshed⟩
    · rw [refreshed]
      have nextAligned : Aligned (supersede groups actual) rest := by
        apply restAligned.supersede
        intro other member
        refine .inr ⟨member, fun same => fresh ?_⟩
        rw [← named, ← same]
        exact mem_map_of_mem member
      intro claim member retired group belongs same
      rcases mem_cons.mp member with equal | later
      · subst equal
        refine refreshClaims_keeps related localClaims _ rest claim
          (fun other otherMem otherId => (supersede_retired otherMem otherId).2)
          (fun other _ otherFound => ?_) group belongs same
        rw [named, found] at otherFound
        exact (Option.some.inj otherFound).symm
      · exact ih _ restUnique nextAligned claim later retired group belongs same
    · rw [refreshed]
      intro claim member retired group belongs same
      rcases mem_cons.mp member with equal | later
      · subst equal
        exact refreshClaims_keeps related localClaims groups rest claim
          (aligned claim (by simp) retired)
          (fun actual isRelated found => by rw [absent isRelated] at found; cases found)
          group belongs same
      · exact ih groups restUnique restAligned claim later retired group belongs same

theorem refreshAttempted_ids (pending : PendingMaintainerUploads) (localClaims : List Claim) :
    (refreshAttempted pending localClaims).claims.map Claim.id = pending.claims.map Claim.id :=
  refreshClaims_ids _ _ _

theorem refreshAttempted_aligned
    (unique : (pending.claims.map Claim.id).Nodup)
    (aligned : Aligned pending.consolidations pending.claims) :
    Aligned (refreshAttempted pending localClaims).consolidations
      (refreshAttempted pending localClaims).claims :=
  refreshClaims_aligned localClaims _ _ _ unique aligned

theorem refreshAttempted_wellFormed (wellFormed : WellFormed pending) :
    WellFormed (refreshAttempted pending localClaims) := by
  refine ⟨?_, wellFormed.disputeIds, ?_⟩
  · rw [refreshAttempted_ids]
    exact wellFormed.claimIds
  · rw [refreshAttempted_ids]
    exact wellFormed.durable

/-- The claims one round of the delivery loop may upload.  `localClaims` is `none` when
the knowledge lock is taken or a knowledge commit is pending. -/
def readyClaims (attempted : PendingMaintainerUploads) (localClaims : Option (List Claim))
    (remaining : List Claim) : List Claim :=
  let related := relatedIds attempted.consolidations
  remaining.filter fun claim =>
    decide (claim.id ∉ related) || localClaims.any fun current =>
      decide (claim ∈ current) &&
        ready claim attempted.consolidations attempted.acknowledgements current

inductive MaintainerClientError
  | auth (operation : String) (status : Nat)
  | retryable (operation : String) (timeoutSecs : Nat) (timedOut : Bool) (message : String)
  | client (operation : String) (status : Nat) (body : String)
  | legacyServer (operation : String) (status : Nat)

/-- An `anyhow::Error`: the client's own error, or any other. -/
inductive UploadError
  | maintainer (error : MaintainerClientError)
  | other (message : String)

inductive UploadErrorKind
  | auth
  | forbidden
  | retryable
  | conflict
  | client
  | unknown

def classifyUploadError : UploadError → UploadErrorKind
  | .maintainer (.auth _ _) => .auth
  | .maintainer (.retryable _ _ _ _) => .retryable
  | .maintainer (.client _ status _) =>
    if status = 403 then .forbidden else if status = 409 then .conflict else .client
  | .maintainer (.legacyServer _ _) => .unknown
  | .other _ => .unknown

abbrev UploadResult := Except UploadError Unit

def retainFailedClaim (failed : PendingMaintainerUploads) (claim : Claim) (durable : Bool) :
    PendingMaintainerUploads :=
  { failed with
    durableClaimIds :=
      if durable then insert claim.id failed.durableClaimIds else failed.durableClaimIds
    claims := failed.claims ++ [claim] }

def retainsClaim (error : UploadError) (durable : Bool) : Bool :=
  match classifyUploadError error with
  | .retryable | .conflict | .client | .unknown => true
  | .auth | .forbidden => durable

def recordClaimResult (attempted failed : PendingMaintainerUploads) (claim : Claim) :
    UploadResult → PendingMaintainerUploads × PendingMaintainerUploads
  | .ok _ =>
    ({ attempted with
        acknowledgements := acknowledge attempted.acknowledgements claim }, failed)
  | .error error =>
    let durable := decide (claim.id ∈ attempted.durableClaimIds)
    match classifyUploadError error with
    | .retryable => (attempted, retainFailedClaim failed claim durable)
    | .auth => (attempted, if durable then retainFailedClaim failed claim true else failed)
    | .forbidden => (attempted, if durable then retainFailedClaim failed claim true else failed)
    | .conflict | .client | .unknown => (attempted, retainFailedClaim failed claim durable)

def retainsDispute (error : UploadError) : Bool :=
  match classifyUploadError error with
  | .retryable | .auth | .forbidden | .client | .unknown => true
  | .conflict => false

def recordDisputeResult (failed : PendingMaintainerUploads) (dispute : Dispute) :
    UploadResult → PendingMaintainerUploads
  | .ok _ => failed
  | .error error =>
    if retainsDispute error then { failed with disputes := failed.disputes ++ [dispute] }
    else failed

/-- One attempted claim of `reconcile_pending_uploads_after_attempt`. -/
def reconcileClaim (failed : PendingMaintainerUploads)
    (state : KeyedMap Claim.id × Finset ClaimId) (claim : Claim) :
    KeyedMap Claim.id × Finset ClaimId :=
  if claim.id ∈ failed.claims.map Claim.id then
    ( if (state.1.get? claim.id).all (· = claim) then state.1.insert claim else state.1,
      if claim.id ∈ failed.durableClaimIds then insert claim.id state.2 else state.2 )
  else if (state.1.get? claim.id).any (· = claim) then
    (state.1.erase claim.id, state.2.erase claim.id)
  else state

def reconcilePendingUploadsAfterAttempt (current attempted failed : PendingMaintainerUploads) :
    PendingMaintainerUploads :=
  let acknowledgements :=
    attempted.acknowledgements.foldl acknowledge current.acknowledgements
  let settled := attempted.claims.foldl (reconcileClaim failed)
    (ofList Claim.id current.claims, current.durableClaimIds)
  let disputesById := attempted.disputes.foldl
    (settle fun id => decide (id ∈ failed.disputes.map Dispute.id))
    (ofList Dispute.id current.disputes)
  let pruned := prune current.consolidations acknowledgements settled.1.values
  { consolidations := pruned.1
    acknowledgements := pruned.2
    claims := settled.1.values
    durableClaimIds := settled.2.filter fun id => id ∈ settled.1.values.map Claim.id
    disputes := disputesById.values }

variable {failed : PendingMaintainerUploads}

theorem reconcileClaim_fst (state : KeyedMap Claim.id × Finset ClaimId) (claim : Claim) :
    (reconcileClaim failed state claim).1 =
      state.1.settle (fun id => decide (id ∈ failed.claims.map Claim.id)) claim := by
  unfold reconcileClaim settle
  simp only [decide_eq_true_eq]
  split_ifs <;> rfl

theorem reconcileClaims_fst (claims : List Claim) (state : KeyedMap Claim.id × Finset ClaimId) :
    (claims.foldl (reconcileClaim failed) state).1 =
      claims.foldl (settle fun id => decide (id ∈ failed.claims.map Claim.id))
        state.1 := by
  induction claims generalizing state with
  | nil => rfl
  | cons claim rest ih =>
    simp only [foldl_cons]
    rw [ih, reconcileClaim_fst]

theorem reconcile_wellFormed :
    WellFormed (reconcilePendingUploadsAfterAttempt current attempted failed) := by
  refine ⟨nodup_keys _, nodup_keys _, ?_⟩
  intro id member
  exact (Finset.mem_filter.mp member).2

theorem mem_reconcile_claims (unique : (current.claims.map Claim.id).Nodup)
    (queued : ∀ claim ∈ attempted.claims, claim.id ∈ current.claims.map Claim.id)
    (claim : Claim) :
    claim ∈ (reconcilePendingUploadsAfterAttempt current attempted failed).claims ↔
      claim ∈ current.claims ∧
        (claim ∉ attempted.claims ∨ claim.id ∈ failed.claims.map Claim.id) := by
  simp only [reconcilePendingUploadsAfterAttempt, reconcileClaims_fst]
  rw [KeyedMap.mem_settle_foldl, mem_ofList unique, decide_eq_true_eq]
  intro item member _
  obtain ⟨stored, storedMem, storedId⟩ := mem_map.mp (queued item member)
  exact ⟨stored, (mem_ofList unique).mpr storedMem, storedId⟩

theorem mem_reconcile_disputes (unique : (current.disputes.map Dispute.id).Nodup)
    (queued : ∀ dispute ∈ attempted.disputes, dispute.id ∈ current.disputes.map Dispute.id)
    (dispute : Dispute) :
    dispute ∈ (reconcilePendingUploadsAfterAttempt current attempted failed).disputes ↔
      dispute ∈ current.disputes ∧
        (dispute ∉ attempted.disputes ∨ dispute.id ∈ failed.disputes.map Dispute.id) := by
  simp only [reconcilePendingUploadsAfterAttempt]
  rw [KeyedMap.mem_settle_foldl, mem_ofList unique, decide_eq_true_eq]
  intro item member _
  obtain ⟨stored, storedMem, storedId⟩ := mem_map.mp (queued item member)
  exact ⟨stored, (mem_ofList unique).mpr storedMem, storedId⟩

theorem mem_reconcile_consolidations (member : group ∈
      (reconcilePendingUploadsAfterAttempt current attempted failed).consolidations) :
    group ∈ current.consolidations := by
  simp only [reconcilePendingUploadsAfterAttempt] at member
  exact prune_groups_subset member

theorem mem_foldl_acknowledge {claims acknowledged : List Claim}
    (member : claim ∈ claims.foldl acknowledge acknowledged) :
    claim ∈ acknowledged ∨ claim ∈ claims := by
  induction claims generalizing acknowledged with
  | nil => exact .inl member
  | cons first rest ih =>
    rcases ih member with old | later
    · rcases mem_acknowledge old with before | equal
      · exact .inl before
      · exact .inr (by simp [equal])
    · exact .inr (mem_cons_of_mem _ later)

theorem mem_reconcile_acknowledgements (member : claim ∈
      (reconcilePendingUploadsAfterAttempt current attempted failed).acknowledgements) :
    claim ∈ current.acknowledgements ∨ claim ∈ attempted.acknowledgements :=
  mem_foldl_acknowledge (prune_acknowledged_subset member)

theorem reconcile_aligned (unique : (current.claims.map Claim.id).Nodup)
    (queued : ∀ claim ∈ attempted.claims, claim.id ∈ current.claims.map Claim.id)
    (aligned : Aligned current.consolidations current.claims) :
    Aligned (reconcilePendingUploadsAfterAttempt current attempted failed).consolidations
      (reconcilePendingUploadsAfterAttempt current attempted failed).claims :=
  aligned.subset (fun _ member => mem_reconcile_consolidations member)
    (fun claim member => ((mem_reconcile_claims unique queued claim).mp member).1)

def MarkedOrDelivered (failed : PendingMaintainerUploads)
    (state : KeyedMap Claim.id × Finset ClaimId) (id : ClaimId) : Prop :=
  id ∈ state.2 ∨ (id ∉ failed.claims.map Claim.id ∧ ∀ claim ∈ state.1.values, claim.id ≠ id)

theorem reconcileClaim_marked {state : KeyedMap Claim.id × Finset ClaimId} {id : ClaimId}
    (marked : MarkedOrDelivered failed state id) :
    MarkedOrDelivered failed (reconcileClaim failed state claim) id := by
  unfold reconcileClaim
  by_cases failure : claim.id ∈ failed.claims.map Claim.id
  · simp only [failure, if_true]
    rcases marked with mark | ⟨notFailed, absent⟩
    · left
      dsimp only
      split_ifs
      · exact Finset.mem_insert_of_mem mark
      · exact mark
    · right
      refine ⟨notFailed, ?_⟩
      dsimp only
      intro other member
      split_ifs at member with replaced
      · rcases mem_insert.mp member with equal | ⟨old, _⟩
        · rw [equal]
          exact fun same => notFailed (same ▸ failure)
        · exact absent other old
      · exact absent other member
  · split_ifs with delivered
    · by_cases here : id = claim.id
      · right
        refine ⟨here ▸ failure, ?_⟩
        intro other member
        rw [here]
        exact (mem_erase.mp member).2
      · rcases marked with mark | ⟨notFailed, absent⟩
        · exact .inl (Finset.mem_erase.mpr ⟨here, mark⟩)
        · exact .inr ⟨notFailed, fun other member => absent other (mem_erase.mp member).1⟩
    · exact marked

theorem reconcile_durable {id : ClaimId} (mark : id ∈ current.durableClaimIds) (queued : id ∈
      (reconcilePendingUploadsAfterAttempt current attempted failed).claims.map Claim.id) :
    id ∈ (reconcilePendingUploadsAfterAttempt current attempted failed).durableClaimIds := by
  have settled : ∀ (claims : List Claim) (state), MarkedOrDelivered failed state id →
      MarkedOrDelivered failed (claims.foldl (reconcileClaim failed) state) id := by
    intro claims
    induction claims with
    | nil => exact fun state marked => marked
    | cons claim rest ih => exact fun state marked => ih _ (reconcileClaim_marked marked)
  have final := settled attempted.claims
    (ofList Claim.id current.claims, current.durableClaimIds) (.inl mark)
  refine Finset.mem_filter.mpr ⟨?_, queued⟩
  obtain ⟨claim, member, named⟩ := mem_map.mp queued
  exact final.resolve_right (fun gone => gone.2 claim member named)

end AgentClaimNetwork
