import AgentClaimNetwork.Agent.InboxEffectJournal
import AgentClaimNetwork.Agent.InboxEffectStaging

/-!
What one attempt to apply a plan does, write by write: the home each part of `applyPersistedPlan`
leaves when it ends and the homes it can be cut off at.
-/

namespace AgentClaimNetwork.Agent

open Library Durable List
open Maintainer (InboxId)
open Meets (bind chain forAll look ok relax weaken write)

section

variable {plan : InboxEffectPlan} {home store : AgentHome}

structure RefsAdded (plan : InboxEffectPlan) (home store : AgentHome) : Prop where
  rest : store = { home with effects := store.effects }
  records : ∀ id, store.effects id = home.effects id ∨ home.effects id = none ∧
    ∃ hash, plan.batchHash = some hash ∧ store.effects id = some (effectRef plan hash)

def RefsAgree (plan : InboxEffectPlan) (home : AgentHome) : Prop :=
  ∀ hash, plan.batchHash = some hash → ∀ member ∈ (effectPlanMembers plan).drop 1,
    ∀ record, home.effects member.inboxId = some record → record = effectRef plan hash

theorem RefsAdded.refl : RefsAdded plan home home :=
  ⟨rfl, fun _ => .inl rfl⟩

variable {id : InboxId}

section

variable (added : RefsAdded plan home store)
include added

theorem RefsAdded.add {hash : String} (isHash : plan.batchHash = some hash)
    (missing : store.effects id = none) :
    RefsAdded plan home (store.withEffect id (effectRef plan hash)) where
  rest := by
    rw [added.rest]
    rfl
  records := by
    intro other
    by_cases same : other = id
    · subst same
      refine .inr ⟨?_, hash, isHash, Function.update_self _ _ _⟩
      rcases added.records other with kept | ⟨absent, -⟩
      · exact kept.symm.trans missing
      · exact absent
    · have kept : (store.withEffect id (effectRef plan hash)).effects other = store.effects other :=
        Function.update_of_ne same _ _
      rw [kept]
      exact added.records other

theorem RefsAdded.keeps (stored : home.effects id = some record) :
    store.effects id = some record := by
  rcases added.records id with kept | ⟨missing, -⟩
  · exact kept.trans stored
  · rw [missing] at stored
    cases stored

theorem RefsAdded.source {hash : String} (isHash : plan.batchHash = some hash)
    (stored : store.effects id = some record) :
    home.effects id = some record ∨ record = effectRef plan hash := by
  rcases added.records id with kept | ⟨-, other, isOther, isRef⟩
  · exact .inl (kept.symm.trans stored)
  · rw [isHash] at isOther
    cases isOther
    rw [stored] at isRef
    exact .inr (Option.some.inj isRef)

end

theorem repairRefs_exact : Meets (fun store => store = home) (repairClaimAttributeUpdateRefs plan)
      (fun _ store => RefsAdded plan home store ∧ RefsAgree plan home)
      (fun _ store => RefsAdded plan home store ∧ ¬RefsAgree plan home) (RefsAdded plan home) := by
  unfold repairClaimAttributeUpdateRefs
  cases isHash : plan.batchHash with
  | none =>
    refine ok fun store same => ?_
    subst same
    refine ⟨RefsAdded.refl, fun hash isSome => ?_⟩
    rw [isHash] at isSome
    cases isSome
  | some hash =>
    have loop := @forAll AgentHome InboxEffectError InboxEffectMember
      (fun _ store => RefsAdded plan home store ∧ ¬RefsAgree plan home) (RefsAdded plan home)
      (repairRef plan hash)
      (fun done store => RefsAdded plan home store ∧ ∀ member ∈ done,
        ∀ record, home.effects member.inboxId = some record → record = effectRef plan hash)
      [] ((effectPlanMembers plan).drop 1) ?_
    · refine weaken loop ?_ ?_
      · rintro store rfl
        exact ⟨RefsAdded.refl, by simp⟩
      · rintro _ store ⟨added, agree⟩
        refine ⟨added, fun other isOther => ?_⟩
        rw [isHash] at isOther
        cases isOther
        simpa using agree
    · intro passed member left split
      refine look fun seen => ?_
      have extend : ∀ {store : AgentHome},
          (∀ member ∈ passed, ∀ record, home.effects member.inboxId = some record →
            record = effectRef plan hash) →
          (∀ record, home.effects member.inboxId = some record → record = effectRef plan hash) →
          ∀ other ∈ passed ++ [member], ∀ record, home.effects other.inboxId = some record →
            record = effectRef plan hash := by
        intro store before now other isOther
        rcases mem_concat isOther with isPassed | rfl
        · exact before other isPassed
        · exact now
      split
      · rename_i record found
        rintro store fates ⟨rfl, added, agree⟩
        unfold Checked.ensure
        split_ifs with isRef
        · refine ⟨added, ?_⟩
          refine @extend store agree fun other stored => ?_
          have same : some other = some record := (added.keeps stored).symm.trans found
          rw [Option.some.inj same]
          simpa using isRef
        · refine ⟨added, fun agrees => isRef ?_⟩
          rcases added.source isHash found with before | isRef
          · simpa using agrees hash isHash member (by rw [split]; simp) record before
          · simpa using isRef
      · rename_i missing
        refine write ?_ ?_
        · rintro store ⟨rfl, added, -⟩
          exact added
        · rintro store ⟨rfl, added, agree⟩
          rw [nil_append] at agree ⊢
          refine ⟨added.add isHash missing, @extend store agree fun record stored => ?_⟩
          rw [added.keeps stored] at missing
          cases missing

end

section

variable {plan : InboxEffectPlan} {home : AgentHome}

def InboxEffectPlan.realigned (plan : InboxEffectPlan) (current : List Claim) : InboxEffectPlan :=
  if (plan.observed current).isStale current then (plan.observed current).discarded current
  else plan.observed current

def AgentHome.realigned (home : AgentHome) (plan : InboxEffectPlan) : AgentHome :=
  if (plan.observed home.claims.values).isStale home.claims.values then
    home.withEffect plan.inboxId (.plan (plan.realigned home.claims.values))
  else home

theorem discardStale_exact : Meets (fun store => store = home) (discardStaleInboxPlan plan)
      (fun result store => result = plan.realigned home.claims.values ∧ store = home.realigned plan)
      (fun _ _ => False) (fun store => store = home) := by
  refine look fun seen => ?_
  rintro store fates ⟨rfl, rfl⟩
  unfold AgentHome.realigned InboxEffectPlan.realigned
  show Outcome.Ends _ _ ((if (plan.observed store.claims.values).isStale store.claims.values then _
    else _ : HomeProgram InboxEffectPlan) store fates)
  split_ifs with stale
  · have written : Meets (fun other => other = store)
        (writeEffect plan.inboxId (.plan ((plan.observed store.claims.values).discarded
          store.claims.values)))
        (fun _ other => other = store.withEffect plan.inboxId
          (.plan ((plan.observed store.claims.values).discarded store.claims.values)))
        (fun _ _ => False) (fun other => other = store) :=
      write (fun _ same => same) fun other same => by
        subst same
        rfl
    exact bind written (fun _ => ok fun other same => ⟨rfl, same⟩) store fates rfl
  · exact ⟨rfl, rfl⟩

@[simp] theorem realigned_claims : (home.realigned plan).claims = home.claims := by
  unfold AgentHome.realigned
  split_ifs <;> rfl

@[simp] theorem realigned_traces : (home.realigned plan).traces = home.traces := by
  unfold AgentHome.realigned
  split_ifs <;> rfl

@[simp] theorem realigned_reported :
    (home.realigned plan).reportedClaimSets = home.reportedClaimSets := by
  unfold AgentHome.realigned
  split_ifs <;> rfl

theorem realigned_inboxId (current : List Claim) : (plan.realigned current).inboxId = plan.inboxId := by
  unfold InboxEffectPlan.realigned
  split_ifs <;> rfl

end

section

variable {plan : InboxEffectPlan} {home : AgentHome}

def InboxEffectPlan.todo (plan : InboxEffectPlan) (targets : List Claim) : List Claim :=
  targets.filter fun target => !plan.appliedClaims.any fun claim => claim.id = target.id

def InboxEffectPlan.extended (plan : InboxEffectPlan) (done : List Claim) : InboxEffectPlan :=
  { plan with appliedClaims := plan.appliedClaims ++ done }

def AgentHome.wrote (home : AgentHome) (plan : InboxEffectPlan) (done : List Claim) : AgentHome :=
  { home with
    claims := done.foldl KeyedMap.insert home.claims
    effects := if done = [] then home.effects
      else Function.update home.effects plan.inboxId (some (.plan (plan.extended done))) }

def AgentHome.wroteUnsaved (home : AgentHome) (plan : InboxEffectPlan) (done : List Claim)
    (next : Claim) : AgentHome :=
  { home.wrote plan done with claims := (done ++ [next]).foldl KeyedMap.insert home.claims }

inductive Midway (plan : InboxEffectPlan) (home : AgentHome) (todo : List Claim) : AgentHome → Prop
  | saved (done left : List Claim) (split : todo = done ++ left) :
      Midway plan home todo (home.wrote plan done)
  | unsaved (done : List Claim) (next : Claim) (left : List Claim) (split : todo = done ++ next :: left) :
      Midway plan home todo (home.wroteUnsaved plan done next)

theorem extended_none : plan.extended [] = plan := by
  unfold InboxEffectPlan.extended
  rw [append_nil]

theorem wrote_next {next : Claim} :
    (home.wroteUnsaved plan done next).withEffect plan.inboxId (.plan (plan.extended (done ++ [next])))
      = home.wrote plan (done ++ [next]) := by
  have nonempty : done ++ [next] ≠ [] := by simp
  unfold AgentHome.wroteUnsaved AgentHome.wrote AgentHome.withEffect
  congr 1
  split_ifs
  · rfl
  · exact Function.update_idem _ _ _

theorem todo_append : plan.todo (passed ++ [target]) = plan.todo passed ++ plan.todo [target] :=
  filter_append _ _

theorem extended_any {passed left : List Claim} {target : Claim}
    (distinct : ((passed ++ target :: left).map Claim.id).Nodup) :
    ((plan.extended (plan.todo passed)).appliedClaims.any fun claim => claim.id = target.id) =
      plan.appliedClaims.any fun claim => claim.id = target.id := by
  have apart : ((plan.todo passed).any fun claim => claim.id = target.id) = false := by
    refine any_eq_false.mpr fun claim member same => ?_
    rw [map_append, nodup_append] at distinct
    have isPassed : claim ∈ passed := (mem_filter.mp member).1
    exact distinct.2.2 claim.id (mem_map_of_mem isPassed) target.id (by simp)
      (by simpa using same)
  unfold InboxEffectPlan.extended
  rw [any_append, apart, Bool.or_false]

theorem applyTargets_exact {targets : List Claim} (distinct : (targets.map Claim.id).Nodup) :
    Meets (fun store => store = home) (Checked.fold targets applyTarget plan)
      (fun result store => result = plan.extended (plan.todo targets) ∧
        store = home.wrote plan (plan.todo targets))
      (fun _ _ => False) (Midway plan home (plan.todo targets)) := by
  have loop := @Meets.fold AgentHome InboxEffectError InboxEffectPlan Claim (fun _ _ => False)
    (Midway plan home (plan.todo targets)) applyTarget
    (fun done value store => value = plan.extended (plan.todo done) ∧
      store = home.wrote plan (plan.todo done)) [] targets plan ?_
  · refine weaken loop ?_ fun _ _ holds => holds
    rintro store rfl
    exact ⟨extended_none.symm, rfl⟩
  · intro passed target left value split
    rw [nil_append]
    rintro store fates ⟨rfl, rfl⟩
    have skips := @extended_any plan passed left target (by rw [← split]; exact distinct)
    have whole : plan.todo targets = plan.todo passed ++ plan.todo [target] ++ plan.todo left := by
      unfold InboxEffectPlan.todo
      rw [split, ← filter_append, ← filter_append, append_assoc,
        singleton_append]
    unfold applyTarget
    rw [skips, todo_append]
    split_ifs with isApplied
    · have nothing : plan.todo [target] = [] := by simp [InboxEffectPlan.todo, isApplied]
      rw [nothing, append_nil]
      exact ⟨rfl, rfl⟩
    · have single : plan.todo [target] = [target] := by simp [InboxEffectPlan.todo, isApplied]
      rw [single] at whole ⊢
      have writes : Meets (fun other => other = home.wrote plan (plan.todo passed)) (writeClaim target)
          (fun result other => result = () ∧ other = home.wroteUnsaved plan (plan.todo passed) target)
          (fun _ _ => False) (Midway plan home (plan.todo targets)) := by
        refine write ?_ ?_
        · rintro other rfl
          exact Midway.saved _ ([target] ++ plan.todo left) (by rw [whole, append_assoc])
        · rintro other rfl
          refine ⟨rfl, ?_⟩
          unfold AgentHome.wroteUnsaved AgentHome.wrote
          rw [foldl_append]
          rfl
      refine chain writes ?_ _ fates rfl
      refine bind ?_ fun _ => ok fun other same => ⟨?_, same⟩
      · refine write ?_ ?_
        · rintro other rfl
          exact Midway.unsaved _ target (plan.todo left) (by rw [whole]; simp)
        · rintro other rfl
          rw [← wrote_next]
          unfold InboxEffectPlan.extended AgentHome.withEffect
          rw [append_assoc]
      · unfold InboxEffectPlan.extended
        rw [append_assoc]

end

section

variable {runner : Runner} {plan : InboxEffectPlan} {home : AgentHome} {claims : List Claim}
  {disputes : List Dispute}

def tracesWith (traces : TraceId → Option ClaimTrace) : Option ClaimTrace → TraceId → Option ClaimTrace
  | none => traces
  | some trace => Function.update traces trace.id (some trace)

def TraceAgrees (traces : TraceId → Option ClaimTrace) (planned : Option ClaimTrace) : Prop :=
  ∀ trace, planned = some trace → ∀ existing, traces trace.id = some existing → existing = trace

def uploadsWith (runner : Runner) (uploads : PendingMaintainerUploads) (claims : List Claim)
    (disputes : List Dispute) : PendingMaintainerUploads :=
  if runner.hasMaintainerClient then stageMaintainerBatchInner uploads (durableBatch claims disputes)
  else uploads

def recordDispute (reported : String → Option DisputeId) (dispute : Dispute) :
    String → Option DisputeId :=
  if (reported (reportedDisputeClaimSetKey dispute.claims)).isSome then reported
  else Function.update reported (reportedDisputeClaimSetKey dispute.claims) (some dispute.id)

def reportedWith (runner : Runner) (reported : String → Option DisputeId) (disputes : List Dispute) :
    String → Option DisputeId :=
  if runner.teamServicesConfigured then disputes.foldl recordDispute reported else reported

theorem ensurePlannedTrace_exact : Meets (fun store => store = home) (ensurePlannedTrace plan)
      (fun _ store => store = { home with traces := tracesWith home.traces plan.trace } ∧
        TraceAgrees home.traces plan.trace)
      (fun _ store => store = home ∧ ¬TraceAgrees home.traces plan.trace)
      (fun store => store = home) := by
  unfold ensurePlannedTrace
  cases planned : plan.trace with
  | none =>
    refine ok fun store same => ⟨same, fun trace isTrace => ?_⟩
    cases isTrace
  | some trace =>
    refine look fun seen => ?_
    rintro store fates ⟨rfl, rfl⟩
    cases found : store.traces trace.id with
    | none =>
      refine write (fun _ same => same) ?_ store fates rfl
      rintro other rfl
      refine ⟨rfl, fun expected isExpected existing stored => ?_⟩
      cases isExpected
      rw [found] at stored
      cases stored
    | some existing =>
      by_cases same : existing = trace
      · subst same
        simp only [Checked.ensure, decide_true, if_true]
        refine ⟨?_, fun expected isExpected other stored => ?_⟩
        · have unchanged : tracesWith store.traces (some existing) = store.traces := by
            rw [tracesWith, ← found, Function.update_eq_self]
          rw [unchanged]
        · cases isExpected
          rw [found] at stored
          exact (Option.some.inj stored).symm
      · simp only [Checked.ensure, same, decide_false]
        exact ⟨rfl, fun agrees => same (agrees trace rfl existing found)⟩

theorem stageDurableClaims_exact :
    Meets (fun store => store = home) (stageDurableClaims runner claims disputes)
      (fun result store => result = () ∧
        store = { home with uploads := uploadsWith runner home.uploads claims disputes })
      (fun _ _ => False) (fun store => store = home) := by
  unfold stageDurableClaims uploadsWith
  split_ifs
  · refine write (fun _ same => same) ?_
    rintro store rfl
    exact ⟨rfl, rfl⟩
  · exact ok fun store same => ⟨rfl, same⟩

theorem recordDisputes_exact : Meets (fun store => store = home) (recordDisputes runner disputes)
      (fun result store => result = () ∧
        store = { home with reportedClaimSets := reportedWith runner home.reportedClaimSets disputes })
      (fun _ _ => False)
      (fun store => ∃ passed left, disputes = passed ++ left ∧
        store = { home with reportedClaimSets := reportedWith runner home.reportedClaimSets passed }) := by
  unfold recordDisputes reportedWith
  split_ifs
  · have loop := @forAll AgentHome InboxEffectError Dispute (fun _ _ => False)
      (fun store => ∃ passed left, disputes = passed ++ left ∧
        store = { home with reportedClaimSets := passed.foldl recordDispute home.reportedClaimSets })
      recordDisputeIfNew
      (fun done store => store =
        { home with reportedClaimSets := done.foldl recordDispute home.reportedClaimSets }) [] disputes ?_
    · exact weaken loop (fun _ same => same) fun _ _ same => ⟨rfl, same⟩
    · intro passed dispute left split
      rw [nil_append, foldl_append, foldl_cons, foldl_nil]
      refine look fun seen => ?_
      rintro store fates ⟨rfl, isStore⟩
      show Outcome.Ends _ _
        ((if (store.reportedClaimSets (reportedDisputeClaimSetKey dispute.claims)).isSome then _
          else _ : HomeProgram Unit) store fates)
      subst isStore
      unfold recordDispute
      split_ifs with known
      · rfl
      · refine write ?_ ?_ _ fates rfl
        · rintro other rfl
          exact ⟨passed, dispute :: left, split, rfl⟩
        · rintro other rfl
          rfl
  · exact ok fun store same => ⟨rfl, same⟩

def AgentHome.closed (home : AgentHome) (runner : Runner) (plan : InboxEffectPlan)
    (claims : List Claim) (passed : List Dispute) : AgentHome :=
  { home with
    traces := tracesWith home.traces plan.trace
    uploads := uploadsWith runner home.uploads claims plan.newDisputes
    reportedClaimSets := reportedWith runner home.reportedClaimSets passed }

inductive Closing (runner : Runner) (plan : InboxEffectPlan) (claims : List Claim) (home : AgentHome) :
    AgentHome → Prop
  | written : Closing runner plan claims home home
  | traced : Closing runner plan claims home
      { home with traces := tracesWith home.traces plan.trace }
  | staged (passed left : List Dispute) (split : plan.newDisputes = passed ++ left) :
      Closing runner plan claims home (home.closed runner plan claims passed)

theorem reportedWith_none : reportedWith runner reported [] = reported := by
  unfold reportedWith
  split_ifs <;> rfl

end

variable {runner : Runner} {plan : InboxEffectPlan} {home : AgentHome}

def InboxEffectPlan.working (plan : InboxEffectPlan) (runner : Runner) (home : AgentHome) :
    InboxEffectPlan :=
  (plan.realigned home.claims.values).filtered runner home.reportedClaimSets

def InboxEffectPlan.pending (plan : InboxEffectPlan) : List Claim :=
  plan.todo (sortedTargets plan.targets)

def InboxEffectPlan.completed (plan : InboxEffectPlan) : InboxEffectPlan :=
  (plan.extended plan.pending).traced

def AgentHome.written (home : AgentHome) (runner : Runner) (plan : InboxEffectPlan) : AgentHome :=
  (home.realigned plan).wrote (plan.working runner home) (plan.working runner home).pending

def AgentHome.toUpload (home : AgentHome) (runner : Runner) (plan : InboxEffectPlan) : List Claim :=
  (plan.working runner home).completed.appliedClaims.filter fun claim =>
    claim ∈ (home.written runner plan).claims.values

inductive Passing (runner : Runner) (plan : InboxEffectPlan) (home : AgentHome) : AgentHome → Prop
  | refs (store : AgentHome) (added : RefsAdded plan home store) : Passing runner plan home store
  | midway (start store : AgentHome) (added : RefsAdded plan home start)
      (among : Midway (plan.working runner start) (start.realigned plan)
        (plan.working runner start).pending store) : Passing runner plan home store
  | closing (start store : AgentHome) (added : RefsAdded plan home start)
      (among : Closing runner (plan.working runner start).completed (start.toUpload runner plan)
        (start.written runner plan) store) : Passing runner plan home store

structure Unopposed (runner : Runner) (plan : InboxEffectPlan) (home : AgentHome) : Prop where
  refs : RefsAgree plan home
  trace : TraceAgrees home.traces (plan.working runner home).completed.trace

def InboxEffectPlan.finished (plan : InboxEffectPlan) : InboxEffectPlan :=
  { plan.completed with
    warnings := (plan.warnings.dedup).insertionSort (· ≤ ·)
    state := .applied }

def AgentHome.finished (home : AgentHome) (runner : Runner) (plan : InboxEffectPlan) : AgentHome :=
  ((home.written runner plan).closed runner (plan.working runner home).completed
    (home.toUpload runner plan) (plan.working runner home).newDisputes).withEffect plan.inboxId
      (.plan (plan.working runner home).finished)

theorem sortedTargets_distinct (distinct : (targets.map Claim.id).Nodup) :
    ((sortedTargets targets).map Claim.id).Nodup := by
  have perm : (sortedTargets targets).Perm targets := by
    unfold sortedTargets
    have split := filter_append_perm (fun claim : Claim => decide (claim.status ≠ .deprecated)) targets
    refine List.Perm.trans ?_ split
    simp
  exact (perm.map Claim.id).nodup_iff.mpr distinct

theorem mem_sortedTargets : claim ∈ sortedTargets targets ↔ claim ∈ targets := by
  unfold sortedTargets
  simp only [mem_append, mem_filter, ne_eq, decide_not, Bool.not_eq_true',
    decide_eq_false_iff_not, decide_eq_true_eq]
  tauto

theorem filtered_frame (reported : String → Option DisputeId) :
    ∃ disputes warnings, plan.filtered runner reported =
      { plan with newDisputes := disputes, warnings := warnings } := by
  unfold InboxEffectPlan.filtered
  split_ifs
  · exact ⟨_, _, rfl⟩
  · exact ⟨plan.newDisputes, plan.warnings, rfl⟩

theorem working_frame :
    ∃ disputes warnings, plan.working runner home =
      { plan.realigned home.claims.values with newDisputes := disputes, warnings := warnings } :=
  filtered_frame home.reportedClaimSets

theorem realigned_targets :
    (plan.realigned current).targets = plan.targets ∨ (plan.realigned current).targets = [] := by
  unfold InboxEffectPlan.realigned
  split_ifs
  · exact .inr rfl
  · exact .inl rfl

theorem working_targets :
    (plan.working runner home).targets = plan.targets ∨ (plan.working runner home).targets = [] := by
  obtain ⟨disputes, warnings, framed⟩ := @working_frame runner plan home
  rw [framed]
  exact realigned_targets

theorem working_inboxId : (plan.working runner home).inboxId = plan.inboxId := by
  obtain ⟨disputes, warnings, framed⟩ := @working_frame runner plan home
  rw [framed]
  exact realigned_inboxId home.claims.values

theorem working_passes : (((plan.working runner home).targets.all fun claim =>
        (plan.working runner home).appliedClaims.any fun applied => applied.id = claim.id) ||
      !(plan.working runner home).isStale home.claims.values) = true := by
  obtain ⟨disputes, warnings, framed⟩ := @working_frame runner plan home
  rw [framed]
  by_cases stale : (plan.observed home.claims.values).isStale home.claims.values
  · have nothing : (plan.realigned home.claims.values).targets = [] := by
      unfold InboxEffectPlan.realigned
      rw [if_pos stale]
      rfl
    have none : (InboxEffectPlan.targets { plan.realigned home.claims.values with
        newDisputes := disputes, warnings := warnings }) = [] := nothing
    rw [none]
    rfl
  · have fresh : (plan.realigned home.claims.values).isStale home.claims.values = false := by
      unfold InboxEffectPlan.realigned
      rw [if_neg stale]
      simpa using stale
    have framedFresh : InboxEffectPlan.isStale { plan.realigned home.claims.values with
        newDisputes := disputes, warnings := warnings } home.claims.values = false := fresh
    rw [framedFresh, Bool.not_false, Bool.or_true]

theorem working_distinct (distinct : (plan.targets.map Claim.id).Nodup) :
    ((sortedTargets (plan.working runner home).targets).map Claim.id).Nodup := by
  apply sortedTargets_distinct
  rcases @working_targets runner plan home with same | none
  · rw [same]
    exact distinct
  · rw [none]
    exact nodup_nil

theorem written_traces : (home.written runner plan).traces = home.traces := by
  exact realigned_traces

def AgentHome.tracedBy (home : AgentHome) (plan : InboxEffectPlan) : AgentHome :=
  { home with traces := tracesWith home.traces plan.trace }

theorem applyEffect_exact (distinct : (plan.targets.map Claim.id).Nodup) :
    Meets (fun store => store = home.realigned plan)
      (applyClaimAttributeUpdateEffect runner (plan.realigned home.claims.values))
      (fun result store => (result = ({ (plan.working runner home).completed with
            warnings := ((plan.working runner home).warnings.dedup).insertionSort (· ≤ ·) },
          home.toUpload runner plan) ∧
        store = (home.written runner plan).tracedBy (plan.working runner home).completed) ∧
        TraceAgrees home.traces (plan.working runner home).completed.trace)
      (fun _ store => store = home.written runner plan ∧
        ¬TraceAgrees home.traces (plan.working runner home).completed.trace)
      (fun store => Midway (plan.working runner home) (home.realigned plan)
        (plan.working runner home).pending store ∨ store = home.written runner plan) := by
  refine look fun seen => ?_
  rintro store fates ⟨rfl, isStore⟩
  subst isStore
  rw [realigned_reported, realigned_claims]
  show Outcome.Ends _ _ ((Checked.ensure
    (((plan.working runner home).targets.all fun claim =>
        (plan.working runner home).appliedClaims.any fun applied => applied.id = claim.id) ||
      !(plan.working runner home).isStale home.claims.values) InboxEffectError.staleNotDiscarded >>= _ :
      HomeProgram _) (home.realigned plan) fates)
  rw [working_passes]
  have loop := @applyTargets_exact (plan.working runner home) (home.realigned plan)
    (sortedTargets (plan.working runner home).targets) (working_distinct distinct)
  refine chain (relax loop (fun _ _ never => never.elim) fun _ among => .inl among) ?_ _
    fates rfl
  refine look fun latest => ?_
  rintro other rest ⟨rfl, isLatest⟩
  have traced := @ensurePlannedTrace_exact (plan.working runner home).completed
    (home.written runner plan)
  rw [written_traces] at traced
  refine bind (relax traced (fun _ _ holds => holds) fun _ same => .inr same)
    (fun _ => ok ?_) other rest isLatest
  rintro final ⟨isFinal, agrees⟩
  refine ⟨⟨?_, ?_⟩, agrees⟩
  · rw [isLatest]
    rfl
  · rw [isFinal, AgentHome.tracedBy, written_traces]

theorem closing_exact {opposed : InboxEffectError → AgentHome → Prop}
    (added : RefsAdded plan home start)
    (isApplied : applied = ({ (plan.working runner start).completed with
        warnings := ((plan.working runner start).warnings.dedup).insertionSort (· ≤ ·) },
      start.toUpload runner plan)) :
    Meets (fun store =>
        store = (start.written runner plan).tracedBy (plan.working runner start).completed)
      (do
        stageDurableClaims runner applied.2 applied.1.newDisputes
        recordDisputes runner applied.1.newDisputes
        let plan := { applied.1 with state := .applied }
        writeEffect plan.inboxId (.plan plan)
        pure plan)
      (fun _ store => store = start.finished runner plan) opposed (Passing runner plan home) := by
  subst isApplied
  have atTrace : ∀ store,
      store = (start.written runner plan).tracedBy (plan.working runner start).completed →
        Passing runner plan home store := by
    rintro store rfl
    exact Passing.closing start _ added Closing.traced
  have stage := @stageDurableClaims_exact runner
    ((start.written runner plan).tracedBy (plan.working runner start).completed)
    (start.toUpload runner plan) (plan.working runner start).completed.newDisputes
  refine chain (relax stage (fun _ _ never => never.elim) atTrace) ?_
  refine chain (relax recordDisputes_exact (fun _ _ never => never.elim) ?_) ?_
  · rintro store ⟨passed, left, split, rfl⟩
    exact Passing.closing start _ added (Closing.staged passed left split)
  refine bind (write ?_ ?_) fun _ => ok fun _ same => same
  · rintro store rfl
    exact Passing.closing start _ added (Closing.staged _ [] (append_nil _).symm)
  · rintro store rfl
    have sameId : (plan.working runner start).completed.inboxId = plan.inboxId := working_inboxId
    rw [sameId]
    rfl

theorem applyPersistedPlan_exact (prepared : plan.state = .prepared)
    (distinct : (plan.targets.map Claim.id).Nodup) :
    Meets (fun store => store = home) (applyPersistedPlan runner plan)
      (fun _ store => ∃ start, RefsAdded plan home start ∧ Unopposed runner plan home ∧
        store = start.finished runner plan)
      (fun _ store => Passing runner plan home store ∧ ¬Unopposed runner plan home)
      (Passing runner plan home) := by
  refine bind (relax repairRefs_exact (fun _ store holds =>
    ⟨Passing.refs store holds.1, fun unopposed => holds.2 unopposed.refs⟩)
    fun store added => Passing.refs store added) fun _ => ?_
  rw [if_pos prepared]
  refine Meets.pin ?_
  rintro start ⟨added, agree⟩
  have sameTraces : start.traces = home.traces := by rw [added.rest]
  have sameWorking : plan.working runner start = plan.working runner home := by
    rw [added.rest]
    rfl
  refine chain (relax discardStale_exact (fun _ _ never => never.elim) fun store same => by
    subst same
    exact Passing.refs store added) ?_
  have applies := @applyEffect_exact runner plan start distinct
  rw [sameTraces] at applies
  refine bind (relax applies (fun _ store holds => ?_) fun store holds => ?_)
    fun applied => Meets.given fun agrees => ?_
  · refine ⟨?_, fun unopposed => holds.2 ?_⟩
    · rw [holds.1]
      exact Passing.closing start _ added Closing.written
    · rw [sameWorking]
      exact unopposed.trace
  · rcases holds with among | same
    · exact Passing.midway start store added among
    · rw [same]
      exact Passing.closing start _ added Closing.written
  · have unopposed : Unopposed runner plan home := ⟨agree, by rw [← sameWorking]; exact agrees⟩
    rintro store fates ⟨isApplied, isStore⟩
    refine weaken (closing_exact added isApplied) (fun _ same => same) ?_ store fates isStore
    intro _ last isLast
    exact ⟨start, added, unopposed, isLast⟩

end AgentClaimNetwork.Agent
