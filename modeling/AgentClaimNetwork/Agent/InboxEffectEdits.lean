import AgentClaimNetwork.Agent.InboxEffectAttempt
import AgentClaimNetwork.Library.Trace

/-!
Attempts to apply a plan among edits by others: a claim is written only over the version the plan was
made for, and a plan that was given up writes no claim any more.
-/

namespace AgentClaimNetwork.Agent

open Library Durable List
open Maintainer (InboxId)
open InboxEffectPlan (observed pending realigned)

section

variable {runner : Runner} {plan : InboxEffectPlan} {home store : AgentHome}

def Retired (plan : InboxEffectPlan) : Prop := plan.state = .applied ∨ plan.targets = []

def Visited (runner : Runner) (plan : InboxEffectPlan) (home store : AgentHome) : Prop :=
  Passing runner plan home store ∨
    ∃ start, RefsAdded plan home start ∧ store = start.finished runner plan

theorem visited (prepared : plan.state = .prepared) (distinct : (plan.targets.map Claim.id).Nodup)
    (fates : List Fate) : Visited runner plan home (applyPersistedPlan runner plan home fates).store := by
  have keeps : Triple (fun store => store = home) (applyPersistedPlan runner plan)
      (fun _ => Visited runner plan home) (Visited runner plan home) := by
    refine Triple.relax (Triple.weaken
      (@applyPersistedPlan_exact runner plan home prepared distinct) (fun _ same => same) ?_)
      fun _ passing => .inl passing
    intro answer store ends
    cases answer with
    | ok result =>
      obtain ⟨start, added, -, isStore⟩ := ends
      exact .inr ⟨start, added, isStore⟩
    | error failure => exact .inl ends.1
  exact Triple.ends keeps fates rfl

theorem applied_exact (isApplied : plan.state = .applied) :
    Meets (fun store => store = home) (applyPersistedPlan runner plan)
      (fun result store => result = plan ∧ RefsAdded plan home store ∧ RefsAgree plan home)
      (fun _ store => RefsAdded plan home store ∧ ¬RefsAgree plan home) (RefsAdded plan home) := by
  refine Meets.bind repairRefs_exact fun _ => ?_
  rw [if_neg (by rw [isApplied]; simp)]
  exact Meets.ok fun store holds => ⟨rfl, holds⟩

theorem applied_visited (isApplied : plan.state = .applied) (fates : List Fate) :
    RefsAdded plan home (applyPersistedPlan runner plan home fates).store := by
  refine Triple.ends (Triple.weaken (@applied_exact runner plan home isApplied) (fun _ same => same) ?_)
    fates rfl
  intro answer store ends
  cases answer with
  | ok result => exact ends.2.1
  | error failure => exact ends.1

theorem RefsAdded.working (added : RefsAdded plan home start) :
    plan.working runner start = plan.working runner home := by
  rw [added.rest]
  rfl

theorem RefsAdded.claims (added : RefsAdded plan home start) :
    start.claims = home.claims := by rw [added.rest]

theorem Visited.claims (isVisited : Visited runner plan home store) :
    ∃ done left, (plan.working runner home).pending = done ++ left ∧
      store.claims = done.foldl KeyedMap.insert home.claims := by
  have all : ∀ {start : AgentHome}, RefsAdded plan home start → (start.written runner plan).claims =
        (plan.working runner home).pending.foldl KeyedMap.insert home.claims := by
    intro start added
    show (plan.working runner start).pending.foldl KeyedMap.insert (start.realigned plan).claims = _
    rw [realigned_claims, added.claims, added.working]
  rcases isVisited with passing | ⟨start, added, rfl⟩
  · cases passing with
    | refs _ added => exact ⟨[], (plan.working runner home).pending, rfl, added.claims⟩
    | midway start _ added among =>
      rw [added.working] at among
      cases among with
      | saved done left split =>
        refine ⟨done, left, split, ?_⟩
        show done.foldl KeyedMap.insert (start.realigned plan).claims = _
        rw [realigned_claims, added.claims]
      | unsaved done next left split =>
        refine ⟨done ++ [next], left, by rw [split]; simp, ?_⟩
        show (done ++ [next]).foldl KeyedMap.insert (start.realigned plan).claims = _
        rw [realigned_claims, added.claims]
    | closing start _ added among =>
      refine ⟨(plan.working runner home).pending, [], (append_nil _).symm, ?_⟩
      rw [← all added]
      cases among with
      | written => rfl
      | traced => rfl
      | staged passed left split => rfl
  · exact ⟨(plan.working runner home).pending, [], (append_nil _).symm, all added⟩

theorem mem_pending (isPending : target ∈ plan.pending) :
    target ∈ plan.targets ∧ ∀ applied ∈ plan.appliedClaims, applied.id ≠ target.id := by
  obtain ⟨isTarget, isNew⟩ := mem_filter.mp isPending
  refine ⟨mem_sortedTargets.mp isTarget, fun applied member same => ?_⟩
  simp only [Bool.not_eq_true', any_eq_false] at isNew
  exact isNew applied member (by simpa using same)

theorem pending_distinct (distinct : (plan.targets.map Claim.id).Nodup) :
    ((plan.working runner home).pending.map Claim.id).Nodup :=
  (working_distinct distinct).sublist (filter_sublist.map Claim.id)

theorem stale_targets
    (stale : (plan.observed home.claims.values).isStale home.claims.values = true) :
    (plan.working runner home).targets = [] := by
  obtain ⟨disputes, warnings, framed⟩ := @working_frame runner plan home
  rw [framed, realigned, if_pos stale]
  rfl

theorem fresh_working
    (fresh : (plan.observed home.claims.values).isStale home.claims.values = false) :
    ∃ disputes warnings, plan.working runner home =
      { plan.observed home.claims.values with newDisputes := disputes, warnings := warnings } := by
  obtain ⟨disputes, warnings, framed⟩ := @working_frame runner plan home
  refine ⟨disputes, warnings, ?_⟩
  rw [framed, realigned, if_neg (by simp [fresh])]

theorem pending_of_targets (none : (plan.working runner home).targets = []) :
    (plan.working runner home).pending = [] := by
  unfold pending
  rw [none]
  rfl

theorem Visited.replaces (isVisited : Visited runner plan home store)
    (distinct : (plan.targets.map Claim.id).Nodup) {id : ClaimId}
    (changed : store.claims.get? id ≠ home.claims.get? id) :
    ∃ target ∈ plan.targets, target.id = id ∧ store.claims.get? id = some target ∧
      ∃ analysis, plan.analysisClaims = some analysis ∧
        home.claims.get? id = versionOf analysis id := by
  obtain ⟨done, left, split, isClaims⟩ := isVisited.claims
  obtain ⟨target, isDone, sameId⟩ : ∃ target ∈ done, target.id = id := by
    by_contra none
    push Not at none
    exact changed (by rw [isClaims, KeyedMap.get?_inserts_other none])
  have unique : (done.map Claim.id).Nodup := by
    have all := @pending_distinct runner plan home distinct
    rw [split, map_append] at all
    exact (nodup_append.mp all).1
  have isPending : target ∈ (plan.working runner home).pending := by rw [split]; simp [isDone]
  obtain ⟨isTarget, isNew⟩ := mem_pending isPending
  have fresh : (plan.observed home.claims.values).isStale home.claims.values = false := by
    by_contra stale
    rw [stale_targets (by simpa using stale)] at isTarget
    cases isTarget
  obtain ⟨disputes, warnings, isWorking⟩ := @fresh_working runner plan home fresh
  rw [isWorking] at isTarget isNew
  refine ⟨target, isTarget, sameId, ?_, ?_⟩
  · rw [isClaims, ← sameId, KeyedMap.get?_inserts_mem unique isDone]
  · have known : plan.analysisClaims.isSome = true := by
      unfold InboxEffectPlan.isStale analysisIsStale at fresh
      simp only [Bool.or_eq_false_iff] at fresh
      cases analysed : plan.analysisClaims with
      | none =>
        have missing := fresh.1
        simp [observed, analysed] at missing
      | some analysis => rfl
    obtain ⟨analysis, analysed⟩ := Option.isSome_iff_exists.mp known
    refine ⟨analysis, analysed, ?_⟩
    have expected := expected_of_fresh fresh (mem_comparedIds.mpr
      (.inr (mem_map_of_mem isTarget)))
    rw [versionOf_values, sameId] at expected
    rw [expected, expectedVersion, versionOf_none, Option.none_or]
    · show versionOf (plan.analysisClaims.getD []) id = _
      rw [analysed]
      rfl
    · intro applied member
      rw [← sameId]
      exact isNew applied (mem_filter.mp member).1

theorem Visited.spares (isVisited : Visited runner plan home store)
    (none : (plan.working runner home).targets = []) : store.claims = home.claims := by
  obtain ⟨done, left, split, isClaims⟩ := isVisited.claims
  rw [pending_of_targets none] at split
  rw [isClaims, (append_eq_nil_iff.mp split.symm).1]
  rfl

def Succeeds (runner : Runner) (plan : InboxEffectPlan) (home : AgentHome) (next : InboxEffectPlan) :
    Prop :=
  next = plan ∨ Retired next ∨ (plan.working runner home).targets ≠ [] ∧
    next.targets = plan.targets ∧ next.analysisClaims = plan.analysisClaims

theorem wrote_record (stored : home.effects plan.inboxId = some (.plan plan)) (done : List Claim) :
    ∃ next, ((home.realigned plan).wrote (plan.working runner home) done).effects plan.inboxId =
        some (.plan next) ∧ next.inboxId = plan.inboxId ∧ Succeeds runner plan home next := by
  have inboxId := @working_inboxId runner plan home
  unfold AgentHome.wrote
  by_cases none : done = []
  · rw [if_pos none]
    unfold AgentHome.realigned
    split_ifs with stale
    · refine ⟨_, Function.update_self _ _ _, realigned_inboxId _, .inr (.inl (.inr ?_))⟩
      rw [realigned, if_pos stale]
      rfl
    · exact ⟨plan, stored, rfl, .inl rfl⟩
  · rw [if_neg none, inboxId]
    refine ⟨_, Function.update_self _ _ _, inboxId, .inr ?_⟩
    by_cases noTargets : (plan.working runner home).targets = []
    · exact .inl (.inr noTargets)
    · have fresh : (plan.observed home.claims.values).isStale home.claims.values = false := by
        by_contra stale
        exact noTargets (stale_targets (by simpa using stale))
      obtain ⟨disputes, warnings, isWorking⟩ := @fresh_working runner plan home fresh
      refine .inr ⟨noTargets, ?_, ?_⟩
      all_goals
        rw [isWorking]
        rfl

theorem Visited.record (isVisited : Visited runner plan home store)
    (stored : home.effects plan.inboxId = some (.plan plan)) :
    ∃ next, store.effects plan.inboxId = some (.plan next) ∧ next.inboxId = plan.inboxId ∧
      Succeeds runner plan home next := by
  have wrote : ∀ {start : AgentHome} (done : List Claim), RefsAdded plan home start →
      ∃ next, ((start.realigned plan).wrote (plan.working runner start) done).effects plan.inboxId =
        some (.plan next) ∧ next.inboxId = plan.inboxId ∧ Succeeds runner plan home next := by
    intro start done added
    obtain ⟨next, isNext, sameId, succeeds⟩ :=
      @wrote_record runner plan start (added.keeps stored) done
    refine ⟨next, isNext, sameId, ?_⟩
    unfold Succeeds at succeeds ⊢
    rwa [added.working] at succeeds
  rcases isVisited with passing | ⟨start, added, rfl⟩
  · cases passing with
    | refs _ added => exact ⟨plan, added.keeps stored, rfl, .inl rfl⟩
    | midway start _ added among =>
      cases among with
      | saved done left split | unsaved done next left split => exact wrote done added
    | closing start _ added among =>
      cases among with
      | written | traced | staged passed left split => exact wrote _ added
  · refine ⟨_, Function.update_self _ _ _, ?_, .inr (.inl (.inl rfl))⟩
    exact working_inboxId

end

variable {runner : Runner} {plan : InboxEffectPlan} {home next : AgentHome} {id : InboxId}

inductive RecoveryEvent
  | attempt (fates : List Fate)
  | others
deriving DecidableEq

def RecoveryStep (runner : Runner) (id : InboxId) (home : AgentHome) :
    RecoveryEvent → AgentHome → Prop
  | .attempt fates, next => ∃ plan, home.effects id = some (.plan plan) ∧
      next = (applyPersistedPlan runner plan home fates).store
  | .others, next => next.effects id = home.effects id

structure Descends (plan current : InboxEffectPlan) : Prop where
  inboxId : current.inboxId = plan.inboxId
  origin : Retired current ∨
    current.targets = plan.targets ∧ current.analysisClaims = plan.analysisClaims

def HeldPlan (plan : InboxEffectPlan) (home : AgentHome) : Prop :=
  ∃ current, home.effects plan.inboxId = some (.plan current) ∧ Descends plan current

variable {current : InboxEffectPlan}

theorem Descends.distinct (descends : Descends plan current)
    (prepared : current.state = .prepared) (distinct : (plan.targets.map Claim.id).Nodup) :
    (current.targets.map Claim.id).Nodup := by
  rcases descends.origin with (isApplied | none) | ⟨same, -⟩
  · rw [prepared] at isApplied
    cases isApplied
  · rw [none]
    exact nodup_nil
  · rw [same]
    exact distinct

theorem state_cases : plan.state = .prepared ∨ plan.state = .applied := by
  cases plan.state with
  | prepared => exact .inl rfl
  | applied => exact .inr rfl

variable (distinct : (plan.targets.map Claim.id).Nodup)

include distinct

theorem heldPlan_step
    (step : RecoveryStep runner plan.inboxId home event next) (held : HeldPlan plan home) :
    HeldPlan plan next := by
  cases event with
  | others =>
    obtain ⟨current, stored, descends⟩ := held
    exact ⟨current, step.trans stored, descends⟩
  | attempt fates =>
    obtain ⟨known, isKnown, descends⟩ := held
    obtain ⟨current, stored, rfl⟩ := step
    rw [isKnown] at stored
    cases stored
    have sameId := descends.inboxId
    rcases state_cases with prepared | isApplied
    · have isVisited := @visited runner known home prepared (descends.distinct prepared distinct) fates
      obtain ⟨last, isLast, lastId, succeeds⟩ := isVisited.record (by rw [sameId]; exact isKnown)
      rw [sameId] at isLast lastId
      refine ⟨last, isLast, lastId, ?_⟩
      rcases succeeds with rfl | retired | ⟨working, sameTargets, sameAnalysis⟩
      · exact descends.origin
      · exact .inl retired
      · rcases descends.origin with (isApplied | none) | ⟨targets, analysed⟩
        · rw [prepared] at isApplied
          cases isApplied
        · exact .inl (.inr (sameTargets.trans none))
        · exact .inr ⟨sameTargets.trans targets, sameAnalysis.trans analysed⟩
    · have added := @applied_visited runner known home isApplied fates
      exact ⟨known, added.keeps isKnown, descends⟩

theorem heldPlan_run (stored : first.effects plan.inboxId = some (.plan plan))
    (run : Trace (RecoveryStep runner plan.inboxId) first events home) : HeldPlan plan home := by
  induction run with
  | nil => exact ⟨plan, stored, rfl, .inr ⟨rfl, rfl⟩⟩
  | snoc _ step ih => exact heldPlan_step distinct step ih

theorem attempt_replaces (held : HeldPlan plan home)
    (step : RecoveryStep runner plan.inboxId home (.attempt fates) next)
    (changed : next.claims.get? claim ≠ home.claims.get? claim) :
    ∃ target ∈ plan.targets, target.id = claim ∧ next.claims.get? claim = some target ∧
      ∃ analysis, plan.analysisClaims = some analysis ∧
        home.claims.get? claim = versionOf analysis claim := by
  obtain ⟨known, isKnown, descends⟩ := held
  obtain ⟨current, stored, rfl⟩ := step
  rw [isKnown] at stored
  cases stored
  rcases state_cases with prepared | isApplied
  · have isVisited := @visited runner known home prepared (descends.distinct prepared distinct) fates
    obtain ⟨target, isTarget, sameId, isNow, analysis, analysed, was⟩ :=
      isVisited.replaces (descends.distinct prepared distinct) changed
    rcases descends.origin with (isApplied | none) | ⟨sameTargets, sameAnalysis⟩
    · rw [prepared] at isApplied
      cases isApplied
    · rw [none] at isTarget
      cases isTarget
    · rw [sameTargets] at isTarget
      rw [sameAnalysis] at analysed
      exact ⟨target, isTarget, sameId, isNow, analysis, analysed, was⟩
  · have added := @applied_visited runner known home isApplied fates
    rw [added.claims] at changed
    exact absurd rfl changed

omit distinct

def FoundStale (id : InboxId) (home : AgentHome) : Prop :=
  ∃ plan, home.effects id = some (.plan plan) ∧ plan.state = .prepared ∧
    (plan.observed home.claims.values).isStale home.claims.values = true

def HoldsRetired (id : InboxId) (home : AgentHome) : Prop :=
  ∃ plan, home.effects id = some (.plan plan) ∧ plan.inboxId = id ∧ Retired plan

include distinct in
theorem attempt_stale (held : HeldPlan plan home) (stale : FoundStale plan.inboxId home)
    (step : RecoveryStep runner plan.inboxId home (.attempt fates) next) :
    next.claims = home.claims ∧ (next.effects plan.inboxId = home.effects plan.inboxId ∨
      HoldsRetired plan.inboxId next) := by
  obtain ⟨known, isKnown, descends⟩ := held
  obtain ⟨current, stored, rfl⟩ := step
  obtain ⟨same, isSame, prepared, isStale⟩ := stale
  rw [isKnown] at stored isSame
  cases stored
  cases isSame
  have isVisited := @visited runner known home prepared (descends.distinct prepared distinct) fates
  have noTargets := @stale_targets runner known home isStale
  refine ⟨isVisited.spares noTargets, ?_⟩
  have sameId := descends.inboxId
  obtain ⟨last, isLast, lastId, succeeds⟩ := isVisited.record (by rw [sameId]; exact isKnown)
  rw [sameId] at isLast lastId
  rcases succeeds with rfl | retired | ⟨working, -⟩
  · exact .inl (isLast.trans isKnown.symm)
  · exact .inr ⟨last, isLast, lastId, retired⟩
  · exact absurd noTargets working

theorem retired_working (none : current.targets = []) :
    (current.working runner home).targets = [] := by
  rcases @working_targets runner current home with same | nothing
  · exact same.trans none
  · exact nothing

theorem retired_attempt (retired : HoldsRetired id home)
    (step : RecoveryStep runner id home (.attempt fates) next) :
    next.claims = home.claims ∧ HoldsRetired id next := by
  obtain ⟨known, isKnown, rfl, isRetired⟩ := retired
  obtain ⟨current, stored, rfl⟩ := step
  rw [isKnown] at stored
  cases stored
  rcases state_cases with prepared | isApplied
  · have noTargets : known.targets = [] := isRetired.resolve_left (by rw [prepared]; simp)
    have isVisited := @visited runner known home prepared (by rw [noTargets]; exact nodup_nil) fates
    obtain ⟨last, isLast, lastId, succeeds⟩ := isVisited.record isKnown
    refine ⟨isVisited.spares (retired_working noTargets), last, isLast, lastId, ?_⟩
    rcases succeeds with rfl | retired | ⟨working, -⟩
    · exact isRetired
    · exact retired
    · exact absurd (retired_working noTargets) working
  · have added := @applied_visited runner known home isApplied fates
    exact ⟨added.claims, known, added.keeps isKnown, rfl, isRetired⟩

theorem retired_step (retired : HoldsRetired id home)
    (step : RecoveryStep runner id home event next) : HoldsRetired id next := by
  cases event with
  | others =>
    obtain ⟨known, isKnown, same, isRetired⟩ := retired
    exact ⟨known, step.trans isKnown, same, isRetired⟩
  | attempt fates => exact (retired_attempt retired step).2

end AgentClaimNetwork.Agent
