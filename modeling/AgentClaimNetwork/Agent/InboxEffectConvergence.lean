import AgentClaimNetwork.Agent.InboxEffectRecovery

/-!
Whole runs of attempts on one plan: what they can do to the claims of others, and where they end.
-/

namespace AgentClaimNetwork.Agent

open Library Durable
open List (replicate)
open Function (update_of_ne update_self)
open Finishes (bind completes ensure fold forAll look ok write)
variable {runner : Runner} {plan : InboxEffectPlan}

open Maintainer (InboxId)

section

theorem repairRefs_finishes : (repairClaimAttributeUpdateRefs plan).Finishes := by
  unfold repairClaimAttributeUpdateRefs
  cases plan.batchHash with
  | none => exact ok
  | some hash =>
    refine forAll fun member => ?_
    refine bind (look fun _ => ok) fun existing => ?_
    cases existing with
    | none => exact write
    | some record => exact ensure

theorem discardStale_finishes : (discardStaleInboxPlan plan).Finishes := by
  refine look fun seen => ?_
  show Checked.Finishes (if (plan.observed seen.claims.values).isStale seen.claims.values then _ else _)
  split_ifs
  · exact bind write fun _ => ok
  · exact ok

theorem applyTarget_finishes : (applyTarget plan target).Finishes := by
  unfold applyTarget
  split_ifs
  · exact ok
  · exact bind write fun _ => bind write fun _ => ok

theorem ensurePlannedTrace_finishes : (ensurePlannedTrace plan).Finishes := by
  unfold ensurePlannedTrace
  cases plan.trace with
  | none => exact ok
  | some trace =>
    refine look fun seen => ?_
    cases seen.traces trace.id with
    | none => exact write
    | some existing => exact ensure

theorem applyEffect_finishes : (applyClaimAttributeUpdateEffect runner plan).Finishes := by
  refine look fun seen => bind ensure fun _ => ?_
  refine bind (fold fun _ _ => applyTarget_finishes) fun _ => ?_
  exact look fun latest =>
    bind ensurePlannedTrace_finishes fun _ => ok

variable {disputes : List Dispute}

theorem stageDurableClaims_finishes : (stageDurableClaims runner claims disputes).Finishes := by
  unfold stageDurableClaims
  split_ifs
  · exact write
  · exact ok

theorem recordDisputes_finishes : (recordDisputes runner disputes).Finishes := by
  unfold recordDisputes
  split_ifs
  · refine forAll fun dispute => look fun seen => ?_
    show Checked.Finishes (if (seen.reportedClaimSets
      (reportedDisputeClaimSetKey dispute.claims)).isSome then _ else _)
    split_ifs
    · exact ok
    · exact write
  · exact ok

theorem applyPersistedPlan_finishes : (applyPersistedPlan runner plan).Finishes := by
  refine bind repairRefs_finishes fun _ => ?_
  split_ifs
  · refine bind discardStale_finishes fun _ => ?_
    refine bind applyEffect_finishes fun _ => ?_
    refine bind stageDurableClaims_finishes fun _ => ?_
    refine bind recordDisputes_finishes fun _ => ?_
    exact bind write fun _ => ok
  · exact ok

end

section

variable {plan current : InboxEffectPlan} {first next : AgentHome} {fates : List Fate}

section

variable (job : Job plan first) (way : OnTheWay runner plan first store)
  (stored : store.effects plan.inboxId = some (.plan current))
include job way stored

theorem onTheWay_attempt :
    OnTheWay runner plan first (applyPersistedPlan runner current store fates).store := by
  rcases way with ⟨applied, disputes, warnings, underway⟩ | ended
  · rw [underway.stored] at stored
    cases stored
    have isVisited := @visited runner (plan.resumed applied disputes warnings) store job.prepared
      job.fits.targets fates
    exact underway.visits job.fits isVisited
  · have isStored := stored
    obtain ⟨last, isLast, isApplied, -⟩ := ended.stored
    rw [isLast] at stored
    cases stored
    exact .inr (ended.add isStored (applied_visited isApplied fates))

theorem onTheWay_ends
    (ran : applyPersistedPlan runner current store fates = .value (.ok result) next rest) :
    Ended runner plan first next := by
  rcases way with ⟨applied, disputes, warnings, underway⟩ | ended
  · rw [underway.stored] at stored
    cases stored
    have ends := @applyPersistedPlan_exact runner (plan.resumed applied disputes warnings) store
      job.prepared job.fits.targets store fates rfl
    rw [ran] at ends
    obtain ⟨start, added, -, rfl⟩ := ends
    exact (underway.add added).ends job.fits
  · have isStored := stored
    obtain ⟨last, isLast, isApplied, -⟩ := ended.stored
    rw [isLast] at stored
    cases stored
    have ends := @applied_exact runner current store isApplied store fates rfl
    rw [ran] at ends
    exact ended.add isStored ends.2.1

end

theorem RefFrame.agree (frame : RefFrame plan first store)
    (before : first.effects plan.inboxId = some (.plan plan)) (same : SameBatch plan current)
    (agree : RefsAgree plan first) : RefsAgree current store := by
  intro hash isHash member isMember record stored
  rw [same.members] at isMember
  rw [same.batchHash] at isHash
  have isRef : ∀ other, first.effects member.inboxId = some other → other = effectRef plan hash :=
    fun other => agree hash isHash member isMember other
  have goal : record = effectRef plan hash := by
    by_cases isPlan : member.inboxId = plan.inboxId
    · rw [isPlan] at isRef
      cases isRef _ before
    · rcases frame member.inboxId isPlan with kept | ⟨-, other, isOther, ref⟩
      · exact isRef record (kept.symm.trans stored)
      · rw [isHash] at isOther
        cases isOther
        rw [stored] at ref
        exact Option.some.inj ref
  rw [goal, effectRef, effectRef, same.inboxId]

theorem Underway.unopposed {disputes : List Dispute}
    (underway : Underway runner plan first applied disputes warnings store) (job : Job plan first)
    (agree : RefsAgree plan first)
    (traceless : ∀ trace, plan.trace = some trace → first.traces trace.id = none) :
    Unopposed runner (plan.resumed applied disputes warnings) store := by
  refine ⟨underway.refs.agree job.stored resumed_batch agree, ?_⟩
  obtain ⟨more, isWork⟩ := underway.working job.fits
  obtain ⟨known, remaining, last, written, isKnown, -, -⟩ := underway.written job.fits isWork
  have tail := written.tail
  rw [isKnown] at tail
  rw [isWork] at tail ⊢
  intro trace isTrace existing stored
  obtain ⟨planned, isPlanned, rfl⟩ := Option.map_eq_some_iff.mp
    (show plan.traceOf _ = some trace from isTrace)
  have missing : first.traces planned.id = none := traceless planned isPlanned
  have kept : ∀ {traces : TraceId → Option ClaimTrace}, store.traces = traces →
      traces planned.id = some existing := fun same => same ▸ stored
  have traced : ∀ list, plan.traceOf list =
      some { planned with outputClaims := list.map Claim.id } := by
    intro list
    unfold InboxEffectPlan.traceOf
    rw [isPlanned]
    rfl
  cases tail with
  | untouched traces _ _ =>
    have found := kept traces
    rw [missing] at found
    cases found
  | traced traces _ _ | staged _ _ _ traces _ _ =>
    have found := kept traces
    rw [traced, tracesWith, update_self] at found
    exact (Option.some.inj found).symm

theorem onTheWay_completes (job : Job plan first) (way : OnTheWay runner plan first store)
    (stored : store.effects plan.inboxId = some (.plan current)) (agree : RefsAgree plan first)
    (traceless : ∀ trace, plan.trace = some trace → first.traces trace.id = none) :
    ∃ count result last, ∀ fates,
      applyPersistedPlan runner current store (replicate count Fate.done ++ fates) =
        .value (.ok result) last fates := by
  rcases way with ⟨applied, disputes, warnings, underway⟩ | ended
  · rw [underway.stored] at stored
    cases stored
    have unopposed := underway.unopposed job agree traceless
    obtain ⟨count, result, last, -, runs⟩ := completes applyPersistedPlan_finishes
      (Meets.relax (@applyPersistedPlan_exact runner (plan.resumed applied disputes warnings) store
        job.prepared job.fits.targets) (fun _ _ opposed => opposed.2 unopposed)
        fun _ passing => passing) rfl
    exact ⟨count, result, last, runs⟩
  · obtain ⟨last, isLast, isApplied, batch⟩ := ended.stored
    rw [isLast] at stored
    cases stored
    obtain ⟨count, result, last, -, runs⟩ := completes applyPersistedPlan_finishes
      (Meets.relax (@applied_exact runner current store isApplied)
        (fun _ _ opposed => opposed.2 (ended.refs.agree job.stored batch agree))
        fun _ passing => passing) rfl
    exact ⟨count, result, last, runs⟩

end

section

variable {first left right : AgentHome}

def SameTrace (left right : ClaimTrace) : Prop :=
  left = { right with outputClaims := left.outputClaims } ∧
    left.outputClaims.Perm right.outputClaims

structure SameResult (left right : AgentHome) : Prop where
  claims : left.claims = right.claims
  traces : ∀ id, Option.Rel SameTrace (left.traces id) (right.traces id)
  uploads : left.uploads = right.uploads
  reported : left.reportedClaimSets = right.reportedClaimSets

theorem SameTrace.refl (trace : ClaimTrace) : SameTrace trace trace := ⟨rfl, List.Perm.refl _⟩

theorem sameTraces_self (traces : TraceId → Option ClaimTrace) (id : TraceId) :
    Option.Rel SameTrace (traces id) (traces id) := by
  cases traces id with
  | none => exact Option.Rel.none
  | some trace => exact Option.Rel.some (SameTrace.refl trace)

theorem tracesWith_perm (same : listed.Perm other) {id : TraceId} :
    Option.Rel SameTrace (tracesWith traces (plan.traceOf listed) id)
      (tracesWith traces (plan.traceOf other) id) := by
  unfold InboxEffectPlan.traceOf
  cases plan.trace with
  | none => exact sameTraces_self traces id
  | some trace =>
    simp only [Option.map_some, tracesWith]
    by_cases isTrace : id = trace.id
    · subst isTrace
      rw [update_self, update_self]
      exact Option.Rel.some ⟨rfl, same.map Claim.id⟩
    · rw [update_of_ne isTrace, update_of_ne isTrace]
      exact sameTraces_self traces id

theorem uploadsWith_perm {disputes : List Dispute} (same : listed.Perm other)
    (distinct : (listed.map Claim.id).Nodup) :
    uploadsWith runner uploads listed disputes = uploadsWith runner uploads other disputes := by
  unfold uploadsWith
  split_ifs
  · exact stage_perm same distinct
  · rfl

theorem Ended.get? (ended : Ended runner plan first left) {id : ClaimId} :
    (∀ target ∈ plan.targets, target.id = id → left.claims.get? id = some target) ∧
      ((∀ target ∈ plan.targets, target.id ≠ id) → left.claims.get? id = first.claims.get? id) := by
  constructor
  · rintro target isTarget rfl
    exact KeyedMap.get?_eq_some.mpr ⟨ended.complete target isTarget, rfl⟩
  · intro other
    rcases ended.claims id with same | ⟨target, isTarget, sameId, -⟩
    · exact same
    · exact absurd sameId (other target isTarget)

theorem Ended.same (job : Job plan first) (ended : Ended runner plan first left)
    (other : Ended runner plan first right) : SameResult left right := by
  obtain ⟨listed, isListed, traces, uploads, reported⟩ := ended.tail
  obtain ⟨otherListed, isOther, otherTraces, otherUploads, otherReported⟩ := other.tail
  have perm := isListed.trans isOther.symm
  have distinct : (listed.map Claim.id).Nodup :=
    (isListed.map Claim.id).nodup_iff.mpr job.fits.distinct
  refine ⟨KeyedMap.ext_get? fun id => ?_, fun id => ?_, ?_, ?_⟩
  · by_cases isTarget : ∃ target ∈ plan.targets, target.id = id
    · obtain ⟨target, member, sameId⟩ := isTarget
      rw [ended.get?.1 target member sameId, other.get?.1 target member sameId]
    · have none : ∀ target ∈ plan.targets, target.id ≠ id := fun target member sameId =>
        isTarget ⟨target, member, sameId⟩
      rw [ended.get?.2 none, other.get?.2 none]
  · rw [traces, otherTraces]
    exact tracesWith_perm perm
  · rw [uploads, otherUploads, uploadsWith_perm perm distinct]
  · rw [reported, otherReported]

end

variable {plan current : InboxEffectPlan} {first home next : AgentHome}

inductive Course (runner : Runner) (plan : InboxEffectPlan) (first home : AgentHome) : Prop
  | fitting (job : Job plan first) (way : OnTheWay runner plan first home)
  | waiting (stale : (plan.observed first.claims.values).isStale first.claims.values = true)
      (job : Job (givenUp plan first) (givenUpHome plan first)) (added : RefsAdded plan first home)
  | leaving (stale : (plan.observed first.claims.values).isStale first.claims.values = true)
      (job : Job (givenUp plan first) (givenUpHome plan first))
      (way : OnTheWay runner (givenUp plan first) (givenUpHome plan first) home)

theorem course_start (prepared : plan.state = .prepared) (unapplied : plan.appliedClaims = [])
    (distinct : (plan.targets.map Claim.id).Nodup)
    (stored : first.effects plan.inboxId = some (.plan plan)) : Course runner plan first first := by
  cases stale : (plan.observed first.claims.values).isStale first.claims.values with
  | false =>
    have job : Job plan first := by
      refine ⟨prepared, stored, ?_, ?_, stale⟩
      · rw [unapplied, List.nil_append]
        exact distinct
      · rw [unapplied]
        simp
    exact Course.fitting job (.inl ⟨_, _, _, job.underway⟩)
  | true =>
    exact Course.waiting stale (discarded_job prepared unapplied distinct stale)
      RefsAdded.refl

theorem OnTheWay.record (way : OnTheWay runner plan first home) :
    ∃ current, home.effects plan.inboxId = some (.plan current) := by
  rcases way with ⟨applied, disputes, warnings, underway⟩ | ended
  · exact ⟨_, underway.stored⟩
  · obtain ⟨last, isLast, -⟩ := ended.stored
    exact ⟨last, isLast⟩

theorem Course.record (stored : first.effects plan.inboxId = some (.plan plan))
    (course : Course runner plan first home) :
    ∃ current, home.effects plan.inboxId = some (.plan current) := by
  cases course with
  | fitting job way => exact way.record
  | waiting stale job added => exact ⟨plan, added.keeps stored⟩
  | leaving stale job way =>
    rw [← (@givenUp_batch plan first).inboxId]
    exact way.record

section

variable (prepared : plan.state = .prepared)
include prepared

theorem course_attempt {fates : List Fate} (distinct : (plan.targets.map Claim.id).Nodup)
    (stored : first.effects plan.inboxId = some (.plan plan))
    (course : Course runner plan first home)
    (step : RecoveryStep runner plan.inboxId home (.attempt fates) next) :
    Course runner plan first next := by
  obtain ⟨current, isCurrent, rfl⟩ := step
  cases course with
  | fitting job way => exact Course.fitting job (onTheWay_attempt job way isCurrent)
  | waiting stale job added =>
    rw [added.keeps stored] at isCurrent
    cases isCurrent
    have isVisited := @visited runner plan home prepared distinct fates
    rcases givenUp_visits job stale added isVisited with still | way
    · exact Course.waiting stale job still
    · exact Course.leaving stale job way
  | leaving stale job way =>
    rw [← (@givenUp_batch plan first).inboxId] at isCurrent
    exact Course.leaving stale job (onTheWay_attempt job way isCurrent)

theorem course_run (unapplied : plan.appliedClaims = [])
    (distinct : (plan.targets.map Claim.id).Nodup)
    (stored : first.effects plan.inboxId = some (.plan plan))
    (run : Trace (RecoveryStep runner plan.inboxId) first events home)
    (alone : ∀ event ∈ events, event ≠ .others) : Course runner plan first home := by
  induction run with
  | nil => exact course_start prepared unapplied distinct stored
  | @snoc events middle event last earlier step ih =>
    have before := ih fun event member => alone event (by simp [member])
    cases event with
    | others => exact absurd rfl (alone .others (by simp))
    | attempt fates => exact course_attempt prepared distinct stored before step

theorem course_same {left right : AgentHome} {leftResult rightResult}
    (distinct : (plan.targets.map Claim.id).Nodup)
    (stored : first.effects plan.inboxId = some (.plan plan))
    (course : Course runner plan first left) (otherCourse : Course runner plan first right)
    (isCurrent : left.effects plan.inboxId = some (.plan current))
    (isOther : right.effects plan.inboxId = some (.plan other))
    (ran : applyPersistedPlan runner current left leftFates = .value (.ok leftResult) one leftRest)
    (otherRan : applyPersistedPlan runner other right rightFates = .value (.ok rightResult) two rightRest) :
    SameResult one two := by
  have ends : ∀ {home last : AgentHome} {current result : InboxEffectPlan} {fates rest : List Fate},
      Course runner plan first home → home.effects plan.inboxId = some (.plan current) →
      applyPersistedPlan runner current home fates = .value (.ok result) last rest →
      (Job plan first ∧ Ended runner plan first last) ∨
        ((plan.observed first.claims.values).isStale first.claims.values = true ∧
          Job (givenUp plan first) (givenUpHome plan first) ∧
          Ended runner (givenUp plan first) (givenUpHome plan first) last) := by
    intro home last current result fates rest course isCurrent ran
    cases course with
    | fitting job way => exact .inl ⟨job, onTheWay_ends job way isCurrent ran⟩
    | waiting stale job added =>
      rw [added.keeps stored] at isCurrent
      cases isCurrent
      have ends := @applyPersistedPlan_exact runner plan home prepared distinct home fates rfl
      rw [ran] at ends
      obtain ⟨start, more, -, rfl⟩ := ends
      exact .inr ⟨stale, job, givenUp_ends job stale (added.trans more)⟩
    | leaving stale job way =>
      rw [← (@givenUp_batch plan first).inboxId] at isCurrent
      exact .inr ⟨stale, job, onTheWay_ends job way isCurrent ran⟩
  have apart : Job plan first →
      (plan.observed first.claims.values).isStale first.claims.values ≠ true := by
    intro job stale
    rw [job.fits.fresh] at stale
    cases stale
  rcases ends course isCurrent ran with ⟨job, ended⟩ | ⟨stale, job, ended⟩
  · rcases ends otherCourse isOther otherRan with ⟨-, otherEnded⟩ | ⟨otherStale, -, -⟩
    · exact ended.same job otherEnded
    · exact absurd otherStale (apart job)
  · rcases ends otherCourse isOther otherRan with ⟨otherJob, -⟩ | ⟨-, -, otherEnded⟩
    · exact absurd stale (apart otherJob)
    · exact ended.same job otherEnded

end

theorem givenUp_agree (agree : RefsAgree plan first)
    (stored : first.effects plan.inboxId = some (.plan plan)) :
    RefsAgree (givenUp plan first) (givenUpHome plan first) := by
  have frame : RefFrame plan first (givenUpHome plan first) := fun id other =>
    Or.inl (update_of_ne other _ _)
  exact frame.agree stored givenUp_batch agree

theorem givenUp_trace (isTrace : (givenUp plan first).trace = some trace) :
    plan.trace = some trace := by
  unfold givenUp InboxEffectPlan.realigned at isTrace
  split_ifs at isTrace
  · unfold InboxEffectPlan.discarded at isTrace
    dsimp only at isTrace
    split_ifs at isTrace
    exact isTrace
  · exact isTrace

theorem course_completes (prepared : plan.state = .prepared)
    (distinct : (plan.targets.map Claim.id).Nodup)
    (stored : first.effects plan.inboxId = some (.plan plan)) (course : Course runner plan first home)
    (isCurrent : home.effects plan.inboxId = some (.plan current)) (agree : RefsAgree plan first)
    (traceless : ∀ trace, plan.trace = some trace → first.traces trace.id = none) :
    ∃ count result last, ∀ fates,
      applyPersistedPlan runner current home (replicate count Fate.done ++ fates) =
        .value (.ok result) last fates := by
  cases course with
  | fitting job way => exact onTheWay_completes job way isCurrent agree traceless
  | leaving stale job way =>
    rw [← (@givenUp_batch plan first).inboxId] at isCurrent
    exact onTheWay_completes job way isCurrent (givenUp_agree agree stored)
      fun trace isTrace => traceless trace (givenUp_trace isTrace)
  | waiting stale job added =>
    rw [added.keeps stored] at isCurrent
    cases isCurrent
    have unopposed : Unopposed runner plan home := by
      refine ⟨?_, ?_⟩
      · have frame : RefFrame plan first home := fun id _ => added.records id
        exact frame.agree stored SameBatch.refl agree
      · have there := @givenUp_start runner plan first home job added
        have opposed := there.unopposed job (givenUp_agree agree stored)
          fun trace isTrace => traceless trace (givenUp_trace isTrace)
        have sameTrace := opposed.trace
        rw [givenUp_working job stale added]
        exact sameTrace
    obtain ⟨count, result, last, -, runs⟩ := completes applyPersistedPlan_finishes
      (Meets.relax (@applyPersistedPlan_exact runner plan home prepared distinct)
        (fun _ _ opposed => opposed.2 unopposed) fun _ passing => passing) rfl
    exact ⟨count, result, last, runs⟩

/-- However the attempts on a plan are cut off and whatever others do between them: a claim is
replaced only by a target of the plan and over the version the plan was made for; an attempt that
finds the plan stale writes no claim, nor does any once the plan is stored as given up; and without
others, all attempts that end leave the same claims, staged uploads and dispute ledger and the same
trace but for the order of its claims, and one that is not cut off ends. -/
theorem resumed_plan_keeps_edits_and_converges (prepared : plan.state = .prepared)
    (unapplied : plan.appliedClaims = []) (distinct : (plan.targets.map Claim.id).Nodup)
    (stored : first.effects plan.inboxId = some (.plan plan)) :
    (∀ events home fates next claim, Trace (RecoveryStep runner plan.inboxId) first events home →
      RecoveryStep runner plan.inboxId home (.attempt fates) next →
      next.claims.get? claim ≠ home.claims.get? claim →
      ∃ target ∈ plan.targets, target.id = claim ∧ next.claims.get? claim = some target ∧
        ∃ analysis, plan.analysisClaims = some analysis ∧
          home.claims.get? claim = versionOf analysis claim) ∧
    (∀ events home fates next, Trace (RecoveryStep runner plan.inboxId) first events home →
      FoundStale plan.inboxId home →
      RecoveryStep runner plan.inboxId home (.attempt fates) next →
      next.claims = home.claims ∧ (next.effects plan.inboxId ≠ home.effects plan.inboxId →
        ∀ later last fates after, Trace (RecoveryStep runner plan.inboxId) next later last →
          RecoveryStep runner plan.inboxId last (.attempt fates) after →
          after.claims = last.claims)) ∧
    (∀ fates done final rest,
      applyPersistedPlan runner plan first fates = .value (.ok done) final rest →
      ∀ events home, Trace (RecoveryStep runner plan.inboxId) first events home →
        (∀ event ∈ events, event ≠ .others) →
        ∃ current, home.effects plan.inboxId = some (.plan current) ∧
          (∀ fates result last rest,
            applyPersistedPlan runner current home fates = .value (.ok result) last rest →
              SameResult last final) ∧
          ((∀ trace, plan.trace = some trace → first.traces trace.id = none) →
            ∃ count result last, ∀ fates, applyPersistedPlan runner current home
              (replicate count Fate.done ++ fates) = .value (.ok result) last fates)) := by
  refine ⟨?_, ?_, ?_⟩
  · intro events home fates next claim run step changed
    exact attempt_replaces distinct (heldPlan_run distinct stored run) step changed
  · intro events home fates next run stale step
    have held := heldPlan_run distinct stored run
    obtain ⟨same, recorded⟩ := attempt_stale distinct held stale step
    refine ⟨same, fun changed later last fates after goesOn again => ?_⟩
    have retired := recorded.resolve_left changed
    have stays : HoldsRetired plan.inboxId last := by
      clear again
      induction goesOn with
      | nil => exact retired
      | snoc _ taken ih => exact retired_step ih taken
    exact (retired_attempt stays again).1
  · intro fates done final rest ran events home run alone
    have course := course_run prepared unapplied distinct stored run alone
    have start := @course_start runner plan first prepared unapplied distinct stored
    obtain ⟨current, isCurrent⟩ := course.record stored
    refine ⟨current, isCurrent, ?_, fun traceless => ?_⟩
    · intro others result last left otherRan
      exact course_same prepared distinct stored course start isCurrent stored otherRan ran
    · have ends := @applyPersistedPlan_exact runner plan first prepared distinct first fates rfl
      rw [ran] at ends
      obtain ⟨-, -, unopposed, -⟩ := ends
      exact course_completes prepared distinct stored course isCurrent unopposed.refs traceless

def sampleVersion (id : ClaimId) : Claim :=
  ⟨id, "name", "statement", "", "agent", .high, .active, 0, none, [], ""⟩

def samplePlan : InboxEffectPlan where
  schemaVersion := 1
  inboxId := "inbox_1"
  resolutionId := none
  messageHash := "hash"
  batchMembers := []
  batchHash := none
  analysisClaims := some [sampleVersion "claim_a", sampleVersion "claim_b"]
  appliedClaims := []
  state := .prepared
  preparedAt := 5
  newClaims := []
  updatedClaims := [⟨{ sampleVersion "claim_a" with status := .deprecated, updatedAt := some 5 }, "a"⟩,
    ⟨{ sampleVersion "claim_b" with statement := "update", updatedAt := some 5 }, "b"⟩]
  deprecatedClaimIds := ["claim_a"]
  newDisputes := []
  trace := some ⟨"trace", "inbox_claim_attribute_update", "task", "agent", [], ["claim_a", "claim_b"], 5⟩
  warnings := []

def samplePlanHome : AgentHome where
  effects := Function.update (fun _ => none) "inbox_1" (some (.plan samplePlan))
  claims := KeyedMap.ofList Claim.id [sampleVersion "claim_a", sampleVersion "claim_b"]
  traces := fun _ => none
  uploads := .empty
  reportedClaimSets := fun _ => none
  dreamPending := false
  asked := []

def clientRunner : Runner where
  agentId := "agent"
  hasMaintainerClient := true
  hasRouter := false
  messageHash := fun message => message.id
  membersHash := fun _ => "batch"
  claimHash := fun claim => claim.id
  traceId := fun _ name _ _ => name
  generate := fun _ => none
  deliver := fun uploads => uploads

def attemptFrom (home : AgentHome) (fates : List Fate) : AgentHome :=
  match home.effects "inbox_1" with
  | some (.plan plan) => (applyPersistedPlan clientRunner plan home fates).store
  | _ => home

theorem attemptFrom_step {home : AgentHome} {plan : InboxEffectPlan} {fates : List Fate}
    (stored : home.effects "inbox_1" = some (.plan plan)) :
    RecoveryStep clientRunner "inbox_1" home (.attempt fates) (attemptFrom home fates) := by
  refine ⟨plan, stored, ?_⟩
  unfold attemptFrom
  rw [stored]

def onceCut : AgentHome := attemptFrom samplePlanHome [.done]

def twiceCut : AgentHome := attemptFrom onceCut [.done]

def editedHome : AgentHome :=
  { attemptFrom samplePlanHome [.done, .done] with
    claims := (attemptFrom samplePlanHome [.done, .done]).claims.insert
      { sampleVersion "claim_a" with statement := "edited", updatedAt := some 7 } }

/-- After the plan is found stale its trace and its batch are still written; and attempts that are cut
off twice leave a trace that names the claims in another order. -/
theorem resumed_plan_writes_on : (Trace (RecoveryStep clientRunner "inbox_1") samplePlanHome
        [.attempt [.done, .done], .others] editedHome ∧
      FoundStale "inbox_1" editedHome ∧ editedHome.traces "trace" = none ∧
      ((attemptFrom editedHome (replicate 9 .done)).traces "trace").isSome = true ∧
      (attemptFrom editedHome (replicate 9 .done)).uploads ≠ editedHome.uploads) ∧
    Trace (RecoveryStep clientRunner "inbox_1") samplePlanHome
        [.attempt [.done], .attempt [.done]] twiceCut ∧
      (attemptFrom twiceCut (replicate 9 .done)).traces "trace" ≠
        (attemptFrom samplePlanHome (replicate 9 .done)).traces "trace" := by
  refine ⟨⟨?_, ?_, rfl, ?_, ?_⟩, ?_, ?_⟩
  · exact Trace.snoc (Trace.single (attemptFrom_step rfl)) rfl
  · exact ⟨_, rfl, rfl, by decide +kernel⟩
  · decide +kernel
  · decide +kernel
  · exact Trace.snoc (Trace.single (attemptFrom_step rfl)) (attemptFrom_step rfl)
  · decide +kernel

/-- The attempt that follows two cut ones ends like the one nobody cuts off. -/
theorem resumed_plan_keeps_edits_and_converges_twice :
    ∃ done final, applyPersistedPlan clientRunner samplePlan samplePlanHome
        (replicate 9 .done) = .value (.ok done) final [.done, .done] ∧
      ∃ current result last, twiceCut.effects "inbox_1" = some (.plan current) ∧
        applyPersistedPlan clientRunner current twiceCut (replicate 9 .done) =
          .value (.ok result) last (replicate 6 .done) ∧ SameResult last final := by
  have converges := (@resumed_plan_keeps_edits_and_converges clientRunner samplePlan samplePlanHome rfl
    rfl (by decide) rfl).2.2
  refine ⟨_, _, rfl, _, _, _, rfl, rfl, ?_⟩
  obtain ⟨current, isCurrent, same, -⟩ := converges (replicate 9 .done) _ _ _ rfl _ twiceCut
    (Trace.snoc (Trace.single (attemptFrom_step rfl)) (attemptFrom_step rfl)) (by decide)
  have isStored : twiceCut.effects "inbox_1" = some (.plan current) := isCurrent
  cases isStored
  exact same (replicate 9 .done) _ _ _ rfl

end AgentClaimNetwork.Agent
