import AgentClaimNetwork.Agent.InboxEffectEdits

/-!
What a resumed plan finds of its own work: the targets it observes, the disputes it still has to
report, and the claims somewhere between the start and the end.
-/

namespace AgentClaimNetwork.Agent

open Library Durable List
open Maintainer (InboxId)

section

variable {targets applied : List Claim} {claim : Claim}

section

variable (distinct : (targets.map Claim.id).Nodup)
include distinct

theorem observeApplied_eq :
    observeApplied targets current applied = applied ++ targets.filter fun target =>
      !(applied.any fun claim => claim.id = target.id) && decide (target ∈ current) := by
  unfold observeApplied
  induction targets generalizing applied with
  | nil => simp
  | cons target rest ih =>
    rw [map_cons, nodup_cons] at distinct
    rw [foldl_cons, filter_cons]
    split_ifs with isNew
    · rw [ih distinct.2, append_assoc, singleton_append]
      congr 2
      refine filter_congr fun other member => ?_
      have apart : target.id ≠ other.id := fun same =>
        distinct.1 (same ▸ mem_map_of_mem member)
      simp [any_append, apart]
    · exact ih distinct.2

theorem mem_observed : claim ∈ observeApplied targets current applied ↔ claim ∈ applied ∨
      claim ∈ targets ∧ claim ∈ current ∧ ∀ other ∈ applied, other.id ≠ claim.id := by
  rw [observeApplied_eq distinct]
  simp only [mem_append, mem_filter, Bool.and_eq_true, Bool.not_eq_true',
    any_eq_false, decide_eq_true_eq]
  tauto

theorem observed_distinct (unique : (applied.map Claim.id).Nodup) :
    ((observeApplied targets current applied).map Claim.id).Nodup := by
  rw [observeApplied_eq distinct, map_append]
  refine List.Nodup.append unique (distinct.sublist (filter_sublist.map Claim.id)) ?_
  rintro id isApplied isNew
  obtain ⟨old, isOld, rfl⟩ := mem_map.mp isApplied
  obtain ⟨target, isTarget, same⟩ := mem_map.mp isNew
  have none := (mem_filter.mp isTarget).2
  simp only [Bool.and_eq_true, Bool.not_eq_true', any_eq_false, decide_eq_true_eq] at none
  exact none.1 old isOld same.symm

theorem observed_known (known : ∀ target ∈ targets, target ∈ applied) :
    observeApplied targets current applied = applied := by
  rw [observeApplied_eq distinct, filter_eq_nil_iff.mpr, append_nil]
  intro target member isNew
  simp only [Bool.and_eq_true, Bool.not_eq_true', any_eq_false, decide_eq_true_eq] at isNew
  exact isNew.1 target (known target member) rfl

end

theorem expected_unapplied {analysis : Option (List Claim)} {id : ClaimId}
    (unapplied : ∀ claim ∈ applied, claim ∈ targets → claim.id ≠ id) :
    expectedVersion analysis targets applied id = versionOf (analysis.getD []) id := by
  rw [expectedVersion, versionOf_none, Option.none_or]
  intro claim member
  obtain ⟨isApplied, isTarget⟩ := mem_filter.mp member
  exact unapplied claim isApplied (by simpa using isTarget)

theorem expected_applied (unique : (applied.map Claim.id).Nodup) (isApplied : claim ∈ applied)
    (isTarget : claim ∈ targets) :
    expectedVersion analysis targets applied claim.id = some claim := by
  rw [expectedVersion, versionOf_mem (unique.sublist (filter_sublist.map Claim.id)),
    Option.some_or]
  exact mem_filter.mpr ⟨isApplied, by simpa using isTarget⟩

end

section

variable {reported : String → Option DisputeId} {accepted : List String}
  {disputes passed : List Dispute}

def claimSetKey (dispute : Dispute) : String := reportedDisputeClaimSetKey dispute.claims

theorem unreported_cons : (unreportedDisputes reported accepted (first :: rest)).1 =
      if (reported (claimSetKey first)).isSome ∨ claimSetKey first ∈ accepted then
        (unreportedDisputes reported accepted rest).1
      else first :: (unreportedDisputes reported (claimSetKey first :: accepted) rest).1 := by
  simp only [unreportedDisputes, claimSetKey]
  by_cases known : (reported (reportedDisputeClaimSetKey first.claims)).isSome
  · simp [known]
  · by_cases among : reportedDisputeClaimSetKey first.claims ∈ accepted
    all_goals simp [known, among]

theorem unreported_new (member : dispute ∈ (unreportedDisputes reported accepted disputes).1) :
    ¬(reported (claimSetKey dispute)).isSome ∧ claimSetKey dispute ∉ accepted := by
  induction disputes generalizing accepted with
  | nil => cases member
  | cons first rest ih =>
    rw [unreported_cons] at member
    split_ifs at member with known
    · exact ih member
    · rcases mem_cons.mp member with isFirst | isLater
      · subst isFirst
        exact not_or.mp known
      · have new := ih isLater
        exact ⟨new.1, fun isAccepted => new.2 (mem_cons_of_mem _ isAccepted)⟩

theorem unreported_distinct :
    ((unreportedDisputes reported accepted disputes).1.map claimSetKey).Nodup := by
  induction disputes generalizing accepted with
  | nil => exact nodup_nil
  | cons first rest ih =>
    rw [unreported_cons]
    split_ifs with known
    · exact ih
    · rw [map_cons, nodup_cons]
      refine ⟨fun repeated => ?_, ih⟩
      obtain ⟨dispute, member, same⟩ := mem_map.mp repeated
      exact (unreported_new member).2 (same ▸ mem_cons_self)

theorem unreported_later {recorded : List String}
    (more : ∀ key, (later key).isSome ↔ (reported key).isSome ∨ key ∈ recorded)
    (agree : ∀ key, key ∉ recorded → (key ∈ accepted ↔ key ∈ other)) :
    (unreportedDisputes later accepted disputes).1 =
      (unreportedDisputes reported other disputes).1.filter fun dispute =>
        claimSetKey dispute ∉ recorded := by
  induction disputes generalizing accepted other with
  | nil => rfl
  | cons first rest ih =>
    rw [unreported_cons, unreported_cons]
    simp only [more]
    by_cases isRecorded : claimSetKey first ∈ recorded
    · rw [if_pos (.inl (.inr isRecorded))]
      split_ifs
      · exact ih agree
      · rw [filter_cons_of_neg (by simpa using isRecorded)]
        refine ih fun key unrecorded => ?_
        have notFirst : key ≠ claimSetKey first := fun same => unrecorded (same ▸ isRecorded)
        rw [agree key unrecorded, mem_cons, or_iff_right notFirst]
    · have same := agree (claimSetKey first) isRecorded
      simp only [isRecorded, or_false, same]
      split_ifs
      · exact ih agree
      · rw [filter_cons_of_pos (by simpa using isRecorded)]
        congr 1
        refine ih fun key unrecorded => ?_
        simp only [mem_cons, agree key unrecorded]

theorem unreported_again (fresh : ∀ dispute ∈ disputes, ¬(reported (claimSetKey dispute)).isSome ∧
      claimSetKey dispute ∉ accepted) (distinct : (disputes.map claimSetKey).Nodup) :
    (unreportedDisputes reported accepted disputes).1 = disputes := by
  induction disputes generalizing accepted with
  | nil => rfl
  | cons first rest ih =>
    rw [map_cons, nodup_cons] at distinct
    rw [unreported_cons, if_neg (not_or.mpr (fresh first mem_cons_self))]
    congr 1
    refine ih (fun dispute member => ?_) distinct.2
    obtain ⟨isNew, notAccepted⟩ := fresh dispute (mem_cons_of_mem _ member)
    refine ⟨isNew, fun isAccepted => ?_⟩
    rcases mem_cons.mp isAccepted with same | before
    · exact distinct.1 (mem_map.mpr ⟨dispute, member, same⟩)
    · exact notAccepted before

theorem recorded_isSome : (passed.foldl recordDispute reported key).isSome ↔
      (reported key).isSome ∨ key ∈ passed.map claimSetKey := by
  induction passed generalizing reported with
  | nil => simp
  | cons first rest ih =>
    have step : (recordDispute reported first key).isSome ↔
        (reported key).isSome ∨ key = claimSetKey first := by
      unfold recordDispute claimSetKey
      split_ifs with known
      · constructor
        · exact .inl
        · rintro (isSome | rfl)
          · exact isSome
          · exact known
      · by_cases same : key = reportedDisputeClaimSetKey first.claims
        all_goals simp [same]
    rw [foldl_cons, ih, step, map_cons, mem_cons, or_assoc]

theorem unreported_left (split : (unreportedDisputes reported [] disputes).1 = passed ++ left) :
    (unreportedDisputes (passed.foldl recordDispute reported) [] disputes).1 = left := by
  rw [unreported_later (fun key => recorded_isSome) fun _ _ => Iff.rfl, split, filter_append]
  have distinct := @unreported_distinct reported [] disputes
  rw [split, map_append] at distinct
  rw [filter_eq_nil_iff.mpr, nil_append, filter_eq_self.mpr]
  · intro dispute member
    have apart := (disjoint_of_nodup_append distinct)
    simpa using fun isPassed => apart isPassed (mem_map_of_mem member)
  · intro dispute member isNew
    simp only [decide_eq_true_eq] at isNew
    exact isNew (mem_map_of_mem member)

end

variable {plan working : InboxEffectPlan} {start now : KeyedMap Claim.id} {applied done : List Claim}
  {claim target : Claim}

structure Fits (plan : InboxEffectPlan) (start : KeyedMap Claim.id) : Prop where
  distinct : ((plan.appliedClaims ++ plan.targets).map Claim.id).Nodup
  present : ∀ claim ∈ plan.appliedClaims, claim ∈ start.values
  fresh : (plan.observed start.values).isStale start.values = false

structure Progressed (plan : InboxEffectPlan) (start now : KeyedMap Claim.id) (applied : List Claim) :
    Prop where
  claims : ∀ id, now.get? id = start.get? id ∨
    ∃ target ∈ plan.targets, target.id = id ∧ now.get? id = some target
  known : ∀ claim ∈ applied,
    (claim ∈ plan.appliedClaims ∨ claim ∈ plan.targets) ∧ claim ∈ now.values
  kept : ∀ claim ∈ plan.appliedClaims, claim ∈ applied
  unique : (applied.map Claim.id).Nodup

theorem Fits.targets (fits : Fits plan start) : (plan.targets.map Claim.id).Nodup := by
  have distinct := fits.distinct
  rw [map_append] at distinct
  exact (nodup_append.mp distinct).2.1

theorem Fits.same (fits : Fits plan start)
    (isClaim : claim ∈ plan.appliedClaims ∨ claim ∈ plan.targets) (isTarget : target ∈ plan.targets)
    (sameId : claim.id = target.id) : claim = target :=
  inj_on_of_nodup_map fits.distinct (mem_append.mpr isClaim)
    (mem_append.mpr (.inr isTarget)) sameId

theorem Fits.begins (fits : Fits plan start) : Progressed plan start start plan.appliedClaims where
  claims := fun _ => .inl rfl
  known := fun claim member => ⟨.inl member, fits.present claim member⟩
  kept := fun _ member => member
  unique := by
    have distinct := fits.distinct
    rw [map_append] at distinct
    exact (nodup_append.mp distinct).1

section

variable (progressed : Progressed plan start now applied) (fits : Fits plan start)
include progressed fits

theorem Progressed.mem_target (isTarget : target ∈ plan.targets) :
    target ∈ observeApplied plan.targets now.values applied ↔ target ∈ now.values := by
  rw [mem_observed fits.targets]
  constructor
  · rintro (isApplied | ⟨-, isNow, -⟩)
    · exact (progressed.known target isApplied).2
    · exact isNow
  · intro isNow
    by_cases known : ∃ other ∈ applied, other.id = target.id
    · obtain ⟨other, isOther, sameId⟩ := known
      rw [← fits.same (progressed.known other isOther).1 isTarget sameId]
      exact .inl isOther
    · exact .inr ⟨isTarget, isNow, fun other isOther sameId => known ⟨other, isOther, sameId⟩⟩

theorem Progressed.observed :
    Progressed plan start now (observeApplied plan.targets now.values applied) where
  claims := progressed.claims
  known := by
    intro claim member
    rcases (mem_observed fits.targets).mp member with isApplied | ⟨isTarget, isNow, -⟩
    · exact progressed.known claim isApplied
    · exact ⟨.inr isTarget, isNow⟩
  kept := fun claim member => (mem_observed fits.targets).mpr (.inl (progressed.kept claim member))
  unique := observed_distinct fits.targets progressed.unique

theorem Progressed.expected_other {id : ClaimId}
    (other : ∀ target ∈ plan.targets, now.get? id ≠ some target) :
    expectedVersion plan.analysisClaims plan.targets
      (observeApplied plan.targets now.values applied) id =
        versionOf (plan.analysisClaims.getD []) id := by
  refine expected_unapplied fun claim member isTarget sameId => other claim isTarget ?_
  exact KeyedMap.get?_eq_some.mpr ⟨(progressed.mem_target fits isTarget).mp member, sameId⟩

end

theorem Progressed.fresh (progressed : Progressed plan start now applied) (fits : Fits plan start) :
    analysisIsStale plan.analysisClaims (changes plan.analysisClaims plan.targets
      (observeApplied plan.targets now.values applied) now.values) = false := by
  obtain ⟨analysis, analysed⟩ : ∃ analysis, plan.analysisClaims = some analysis := by
    have fresh := fits.fresh
    unfold InboxEffectPlan.isStale analysisIsStale at fresh
    simp only [Bool.or_eq_false_iff] at fresh
    exact Option.isSome_iff_exists.mp (by simpa [InboxEffectPlan.observed] using fresh.1)
  refine fresh_of_expected analysed fun id compared => ?_
  rw [versionOf_values]
  by_cases isTarget : ∃ target ∈ plan.targets, now.get? id = some target
  · obtain ⟨target, isTarget, found⟩ := isTarget
    obtain ⟨isNow, sameId⟩ := KeyedMap.get?_eq_some.mp found
    rw [found, ← sameId, expected_applied (progressed.observed fits).unique
      ((progressed.mem_target fits isTarget).mpr isNow) isTarget]
  · have other : ∀ target ∈ plan.targets, now.get? id ≠ some target := fun target member found =>
      isTarget ⟨target, member, found⟩
    have before : now.get? id = start.get? id := by
      rcases progressed.claims id with same | ⟨target, member, -, found⟩
      · exact same
      · exact absurd found (other target member)
    have expected := expected_of_fresh fits.fresh compared
    rw [versionOf_values] at expected
    rw [progressed.expected_other fits other, before, expected]
    exact fits.begins.expected_other fits fun target member => before ▸ other target member

variable (progressed : Progressed plan start now applied) (fits : Fits plan start)
include progressed fits

theorem Progressed.mem_pending (sameTargets : working.targets = plan.targets)
    (isApplied : working.appliedClaims = observeApplied plan.targets now.values applied) :
    target ∈ working.pending ↔ target ∈ plan.targets ∧ target ∉ now.values := by
  unfold InboxEffectPlan.pending InboxEffectPlan.todo
  rw [mem_filter, mem_sortedTargets, sameTargets, isApplied]
  simp only [Bool.not_eq_true', any_eq_false, decide_eq_true_eq]
  constructor
  · rintro ⟨isTarget, isNew⟩
    exact ⟨isTarget, fun isNow =>
      isNew target ((progressed.mem_target fits isTarget).mpr isNow) rfl⟩
  · rintro ⟨isTarget, isNew⟩
    refine ⟨isTarget, fun other member sameId => isNew ?_⟩
    have isOther := (progressed.observed fits).known other member
    rw [← fits.same isOther.1 isTarget sameId]
    exact isOther.2

theorem Progressed.wrote (isNew : ∀ target ∈ done, target ∈ plan.targets ∧ target ∉ now.values)
    (distinct : (done.map Claim.id).Nodup) {next : List Claim}
    (listed : ∀ claim ∈ next, claim ∈ applied ∨ claim ∈ done)
    (kept : ∀ claim ∈ plan.appliedClaims, claim ∈ next) (unique : (next.map Claim.id).Nodup) :
    Progressed plan start (done.foldl KeyedMap.insert now) next where
  claims := by
    intro id
    by_cases isDone : ∃ target ∈ done, target.id = id
    · obtain ⟨target, isDone, rfl⟩ := isDone
      exact .inr ⟨target, (isNew target isDone).1, rfl, KeyedMap.get?_inserts_mem distinct isDone⟩
    · rw [KeyedMap.get?_inserts_other fun target member sameId => isDone ⟨target, member, sameId⟩]
      exact progressed.claims id
  known := by
    intro claim member
    rcases listed claim member with isApplied | isDone
    · obtain ⟨isClaim, isNow⟩ := progressed.known claim isApplied
      refine ⟨isClaim, ?_⟩
      have apart : ∀ target ∈ done, target.id ≠ claim.id := by
        intro target isDone sameId
        obtain ⟨isTarget, missing⟩ := isNew target isDone
        exact missing (fits.same isClaim isTarget sameId.symm ▸ isNow)
      have found := @KeyedMap.get?_inserts_other _ _ _ Claim.id done now claim.id apart
      rw [KeyedMap.get?_eq_some.mpr ⟨isNow, rfl⟩] at found
      exact (KeyedMap.get?_eq_some.mp found).1
    · exact ⟨.inr (isNew claim isDone).1,
        (KeyedMap.get?_eq_some.mp (KeyedMap.get?_inserts_mem distinct isDone)).1⟩
  kept := kept
  unique := unique

theorem Progressed.perm (all : ∀ target ∈ plan.targets, target ∈ applied) :
    applied.Perm (plan.appliedClaims ++ plan.targets) := by
  refine (perm_ext_iff_of_nodup (List.Nodup.of_map _ progressed.unique)
    (List.Nodup.of_map _ fits.distinct)).mpr fun claim => ?_
  rw [mem_append]
  constructor
  · exact fun member => (progressed.known claim member).1
  · rintro (old | isTarget)
    · exact progressed.kept claim old
    · exact all claim isTarget

end AgentClaimNetwork.Agent
