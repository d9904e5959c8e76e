import AgentClaimNetwork.Agent.InboxEffectProgress

/-!
Which plan is stale when it is taken up again: one that does not find every claim as it was
analysed, or as its recorded target.
-/

namespace AgentClaimNetwork.Agent

open Library Durable List

section

variable {claims targets applied current : List Claim} {id : ClaimId}

structure AsPlanned (claims targets applied : List Claim) (id : ClaimId) (stored : Option Claim) :
    Prop where
  recorded : ∀ target ∈ targets, target.id = id → target ∈ applied → stored = some target
  analysed : (∀ target ∈ targets, target.id = id → target ∉ applied) →
    stored = versionOf claims id

section

variable (distinct : (targets.map Claim.id).Nodup)
include distinct

theorem expected_recorded {target : Claim} (isTarget : target ∈ targets)
    (isApplied : target ∈ applied) :
    expectedVersion (some claims) targets applied target.id = some target := by
  have kept : target ∈ applied.filter fun claim => claim ∈ targets :=
    mem_filter.mpr ⟨isApplied, decide_eq_true isTarget⟩
  unfold expectedVersion versionOf
  cases found : (applied.filter fun claim => claim ∈ targets).reverse.find?
      fun claim => claim.id = target.id with
  | none =>
    have missed := List.find?_eq_none.mp found target (mem_reverse.mpr kept)
    simp at missed
  | some other =>
    have isOther := mem_reverse.mp (List.mem_of_find?_eq_some found)
    have sameId : other.id = target.id := by simpa using List.find?_some found
    have other_target : other ∈ targets := by simpa using (mem_filter.mp isOther).2
    rw [inj_on_of_nodup_map distinct other_target isTarget sameId, Option.some_or]

theorem asPlanned_iff :
    AsPlanned claims targets applied id stored ↔
      stored = expectedVersion (some claims) targets applied id := by
  by_cases some_recorded : ∃ target ∈ targets, target.id = id ∧ target ∈ applied
  · obtain ⟨target, isTarget, rfl, isApplied⟩ := some_recorded
    rw [expected_recorded distinct isTarget isApplied]
    constructor
    · exact fun planned => planned.recorded target isTarget rfl isApplied
    · intro same
      refine ⟨fun other isOther sameId _ => ?_, fun none => absurd isApplied (none _ isTarget rfl)⟩
      rw [same, inj_on_of_nodup_map distinct isOther isTarget sameId]
  · have unrecorded : ∀ target ∈ targets, target.id = id → target ∉ applied :=
      fun target isTarget sameId isApplied => some_recorded ⟨target, isTarget, sameId, isApplied⟩
    rw [expected_unapplied fun claim isApplied isTarget sameId =>
      unrecorded claim isTarget sameId isApplied]
    constructor
    · exact fun planned => planned.analysed unrecorded
    · intro same
      exact ⟨fun target isTarget sameId isApplied =>
        absurd isApplied (unrecorded target isTarget sameId), fun _ => same⟩

theorem fresh_iff_asPlanned {analysis : Option (List Claim)} :
    analysisIsStale analysis (changes analysis targets applied current) = false ↔
      ∃ claims, analysis = some claims ∧ ∀ id ∈ comparedIds analysis targets,
        AsPlanned claims targets applied id (versionOf current id) := by
  constructor
  · intro fresh
    cases analysis with
    | none => nomatch fresh
    | some claims =>
      exact ⟨claims, rfl, fun id compared =>
        (asPlanned_iff distinct).mpr (expected_of_fresh fresh compared)⟩
  · rintro ⟨claims, rfl, planned⟩
    exact fresh_of_expected rfl fun id compared => (asPlanned_iff distinct).mp (planned id compared)

end

end

structure PlanStore where
  claims : KeyedMap Claim.id
  applied : List Claim

def applyTargets (targets : List Claim) : Program PlanStore Unit :=
  Program.forAll targets fun target => do
    let store ← Program.look
    if store.applied.any fun claim => claim.id = target.id then pure ()
    else
      Program.write fun store => { store with claims := store.claims.insert target }
      Program.write fun store => { store with applied := store.applied ++ [target] }

variable {claims targets : List Claim} {store : PlanStore} {target : Claim}

def PlanStore.observed (targets : List Claim) (store : PlanStore) : List Claim :=
  observeApplied targets store.claims.values store.applied

def Resumable (claims targets : List Claim) (store : PlanStore) : Prop :=
  ∀ id ∈ comparedIds (some claims) targets,
    AsPlanned claims targets (store.observed targets) id (store.claims.get? id)

variable (distinct : (targets.map Claim.id).Nodup)

include distinct in
theorem PlanStore.mem_observed : target ∈ store.observed targets ↔ target ∈ store.applied ∨
      target ∈ targets ∧ store.claims.get? target.id = some target ∧
        ∀ other ∈ store.applied, other.id ≠ target.id := by
  rw [observed, Agent.mem_observed distinct]
  have stored : target ∈ store.claims.values ↔ store.claims.get? target.id = some target := by
    rw [KeyedMap.get?_eq_some]
    exact (and_iff_left rfl).symm
  rw [stored]

theorem AsPlanned.congr {id : ClaimId} (planned : AsPlanned claims targets first id stored)
    (same : ∀ target ∈ targets, target.id = id → (target ∈ first ↔ target ∈ second)) :
    AsPlanned claims targets second id stored where
  recorded target isTarget sameId isSecond :=
    planned.recorded target isTarget sameId ((same target isTarget sameId).mpr isSecond)
  analysed none := planned.analysed fun target isTarget sameId isFirst =>
    none target isTarget sameId ((same target isTarget sameId).mp isFirst)

theorem Resumable.write (distinct : (targets.map Claim.id).Nodup) (isTarget : target ∈ targets)
    (unrecorded : ∀ other ∈ store.applied, other.id ≠ target.id)
    (resumable : Resumable claims targets store) :
    Resumable claims targets { store with claims := store.claims.insert target } := by
  intro id compared
  by_cases here : id = target.id
  · subst here
    have stored : (store.claims.insert target).get? target.id = some target := by
      rw [KeyedMap.get?_insert, if_pos rfl]
    have observed : target ∈ PlanStore.observed targets
        { store with claims := store.claims.insert target } :=
      (PlanStore.mem_observed distinct).mpr (.inr ⟨isTarget, stored, unrecorded⟩)
    rw [stored]
    refine ⟨fun other isOther sameId _ => ?_, fun none => absurd observed (none _ isTarget rfl)⟩
    rw [inj_on_of_nodup_map distinct isOther isTarget sameId]
  · have stored : ∀ {other : ClaimId}, other = id →
        (store.claims.insert target).get? other = store.claims.get? other := by
      rintro _ rfl
      rw [KeyedMap.get?_insert, if_neg (Ne.symm here)]
    rw [stored rfl]
    refine (resumable id compared).congr fun other _ sameId => ?_
    rw [PlanStore.mem_observed distinct, PlanStore.mem_observed distinct, stored sameId]

include distinct

theorem Resumable.record (isTarget : target ∈ targets)
    (unrecorded : ∀ other ∈ store.applied, other.id ≠ target.id)
    (stored : store.claims.get? target.id = some target)
    (resumable : Resumable claims targets store) :
    Resumable claims targets { store with applied := store.applied ++ [target] } := by
  intro id compared
  refine (resumable id compared).congr fun other isOther sameId => ?_
  rw [PlanStore.mem_observed distinct, PlanStore.mem_observed distinct]
  simp only [mem_append, mem_singleton]
  by_cases same : other = target
  · subst same
    exact iff_of_true (.inr ⟨isTarget, stored, unrecorded⟩) (.inl (.inr rfl))
  · have apart : target.id ≠ other.id := fun sameId =>
      same (inj_on_of_nodup_map distinct isOther isTarget sameId.symm)
    constructor
    · rintro (isApplied | ⟨_, isStored, none⟩)
      · exact .inl (.inl isApplied)
      · refine .inr ⟨isOther, isStored, ?_⟩
        rintro claim (old | rfl)
        · exact none claim old
        · exact apart
    · rintro ((isApplied | isTarget) | ⟨_, isStored, none⟩)
      · exact .inl isApplied
      · exact absurd isTarget same
      · exact .inr ⟨isOther, isStored, fun claim old => none claim (.inl old)⟩

theorem applyTargets_resumable (all : ∀ target ∈ order, target ∈ targets) :
    Durable.Keeps (Resumable claims targets) (applyTargets order) := by
  refine Triple.forAll_keeps fun target member => Triple.look fun seen => ?_
  have isTarget := all target member
  split
  · exact Triple.ok fun _ kept => kept.2
  · rename_i missing
    have unrecorded : ∀ other ∈ seen.applied, other.id ≠ target.id := by
      intro other isApplied sameId
      exact missing (any_eq_true.mpr ⟨other, isApplied, decide_eq_true sameId⟩)
    -- between the two writes the target is stored and not yet recorded
    have written : Triple (fun store => store = seen ∧ Resumable claims targets store)
        (Program.write fun store => { store with claims := store.claims.insert target })
        (fun _ store => Resumable claims targets store ∧
          store.claims.get? target.id = some target ∧ store.applied = seen.applied)
        (Resumable claims targets) := by
      refine Triple.write (fun _ kept => kept.2) ?_
      rintro store ⟨rfl, resumable⟩
      refine ⟨resumable.write distinct isTarget unrecorded, ?_, rfl⟩
      rw [KeyedMap.get?_insert, if_pos rfl]
    refine Triple.bind written fun _ => Triple.write (fun _ kept => kept.1) ?_
    rintro store ⟨resumable, stored, same⟩
    exact resumable.record distinct isTarget (by rw [same]; exact unrecorded) stored

theorem resumable_iff : Resumable claims targets store ↔
      analysisIsStale (some claims) (changes (some claims) targets (store.observed targets)
        store.claims.values) = false := by
  rw [fresh_iff_asPlanned distinct]
  simp only [versionOf_values]
  constructor
  · exact fun resumable => ⟨claims, rfl, resumable⟩
  · rintro ⟨_, same, resumable⟩
    cases same
    exact resumable

omit distinct

theorem Resumable.start (distinct : (targets.map Claim.id).Nodup) (unapplied : store.applied = [])
    (asAnalysed : ∀ id ∈ comparedIds (some claims) targets,
      store.claims.get? id = versionOf claims id) : Resumable claims targets store := by
  refine fun id compared => ⟨fun target isTarget sameId observed => ?_, fun _ =>
    asAnalysed id compared⟩
  rw [PlanStore.mem_observed distinct, unapplied] at observed
  rcases observed with isApplied | ⟨_, stored, _⟩
  · nomatch isApplied
  · rw [← sameId]
    exact stored

variable {analysis : Option (List Claim)} {applied current : List Claim}

/-- After the observation a plan is fresh exactly if it was analysed and finds under every id it
mentions its target when that is recorded as applied, and otherwise the analysed version or,
without one, nothing.  A plan is fresh when its writing starts, and wherever it stops. -/
theorem plan_is_fresh_iff (distinct : (targets.map Claim.id).Nodup) : (analysisIsStale analysis
        (changes analysis targets (observeApplied targets current applied) current) = false ↔
      ∃ claims, analysis = some claims ∧ ∀ id ∈ comparedIds analysis targets,
        AsPlanned claims targets (observeApplied targets current applied) id
          (versionOf current id)) ∧
    (∀ target, target ∈ observeApplied targets current applied ↔
      target ∈ applied ∨ target ∈ targets ∧ target ∈ current ∧
        ∀ other ∈ applied, other.id ≠ target.id) ∧
    (∀ claims (store : PlanStore), store.applied = [] →
      (∀ id ∈ comparedIds (some claims) targets, store.claims.get? id = versionOf claims id) →
      analysisIsStale (some claims)
        (changes (some claims) targets (store.observed targets) store.claims.values) = false) ∧
    (∀ claims (store : PlanStore) order fates, (∀ target ∈ order, target ∈ targets) →
      analysisIsStale (some claims)
        (changes (some claims) targets (store.observed targets) store.claims.values) = false →
      let stopped := (applyTargets order store fates).store
      analysisIsStale (some claims)
        (changes (some claims) targets (stopped.observed targets) stopped.claims.values) =
          false) := by
  refine ⟨fresh_iff_asPlanned distinct, fun _ => mem_observed distinct, ?_, ?_⟩
  · intro claims store unapplied asAnalysed
    exact (resumable_iff distinct).mp (Resumable.start distinct unapplied asAnalysed)
  · intro claims store order fates all fresh stopped
    have resumable := (resumable_iff distinct).mpr fresh
    exact (resumable_iff distinct).mp
      ((applyTargets_resumable distinct all).ends fates resumable)

def analysedRule : Claim :=
  ⟨"claim_11111111", "retry_rule", "", "", "agent-a", .medium, .active, 0, none, [], ""⟩

def targetRule : Claim := { analysedRule with statement := "Retry within the budget" }

def ruleStore : PlanStore := ⟨KeyedMap.empty.insert analysedRule, []⟩

/-- The target is stored and its record is not: the plan goes on. -/
theorem written_rule_is_fresh : let stopped := (applyTargets [targetRule] ruleStore [.done]).store
    stopped.claims.values = [targetRule] ∧ stopped.applied = [] ∧
    analysisIsStale (some [analysedRule]) (changes (some [analysedRule]) [targetRule]
      (stopped.observed [targetRule]) stopped.claims.values) = false := by
  refine ⟨rfl, rfl, ?_⟩
  have fresh := @plan_is_fresh_iff [targetRule] none [] [] (by decide)
  refine fresh.2.2.2 [analysedRule] ruleStore [targetRule] [.done] (fun _ member => member) ?_
  refine fresh.2.2.1 [analysedRule] ruleStore rfl ?_
  intro id compared
  have mentioned : id = "claim_11111111" := by
    rcases mem_comparedIds.mp compared with analysed | isTarget
    · exact mem_singleton.mp analysed
    · exact mem_singleton.mp isTarget
  rw [mentioned]
  rfl

/-- The target was recorded as applied, and then its claim was set back to the analysed version:
each id holds its analysed version or its recorded target, and still the plan is stale. -/
theorem reverted_target_is_stale :
    ¬∀ (claims targets applied current : List Claim), (targets.map Claim.id).Nodup →
      (∀ id ∈ comparedIds (some claims) targets, versionOf current id = versionOf claims id ∨
        ∃ target ∈ targets, target.id = id ∧
          target ∈ observeApplied targets current applied ∧
          versionOf current id = some target) →
      analysisIsStale (some claims) (changes (some claims) targets
        (observeApplied targets current applied) current) = false := by
  intro literal
  have fresh := literal [analysedRule] [targetRule] [targetRule] [analysedRule] (by decide)
    fun _ _ => .inl rfl
  have expected := expected_of_fresh fresh (mem_comparedIds.mpr (.inl mem_cons_self))
  revert expected
  decide

end AgentClaimNetwork.Agent
