import AgentClaimNetwork.Agent.InboxEffectProgress

/-!
Resuming a plan without edits by others: every attempt is on the way to where an uncut one gets,
but for the order of the claims in the trace.
-/

namespace AgentClaimNetwork.Agent

open Library Durable List
open Function (update update_of_ne update_self)
variable {runner : Runner} {plan : InboxEffectPlan} {applied : List Claim} {disputes : List Dispute}
  {warnings : List String}

open Maintainer (InboxId)

section

variable {first store : AgentHome} {disputes passed left : List Dispute}
  {reported : String → Option DisputeId}

def InboxEffectPlan.traceOf (plan : InboxEffectPlan) (applied : List Claim) : Option ClaimTrace :=
  plan.trace.map fun trace => { trace with outputClaims := applied.map Claim.id }

def disputesLeft (runner : Runner) (reported : String → Option DisputeId) (disputes : List Dispute) :
    List Dispute :=
  if runner.teamServicesConfigured then (unreportedDisputes reported [] disputes).1 else disputes

def InboxEffectPlan.reportable (plan : InboxEffectPlan) (runner : Runner) (first : AgentHome) :
    List Dispute :=
  disputesLeft runner first.reportedClaimSets plan.newDisputes

/-- What follows the claims: nothing of it, the trace, or also the staged batch and some of the
disputes. -/
inductive Tail (runner : Runner) (plan : InboxEffectPlan) (first : AgentHome) (applied : List Claim)
    (store : AgentHome) : Prop
  | untouched (traces : store.traces = first.traces) (uploads : store.uploads = first.uploads)
      (reported : store.reportedClaimSets = first.reportedClaimSets)
  | traced (traces : store.traces = tracesWith first.traces (plan.traceOf applied))
      (uploads : store.uploads = first.uploads)
      (reported : store.reportedClaimSets = first.reportedClaimSets)
  | staged (passed left : List Dispute) (split : plan.reportable runner first = passed ++ left)
      (traces : store.traces = tracesWith first.traces (plan.traceOf applied))
      (uploads : store.uploads =
        uploadsWith runner first.uploads applied (plan.reportable runner first))
      (reported : store.reportedClaimSets = reportedWith runner first.reportedClaimSets passed)

theorem tracesWith_again :
    tracesWith (tracesWith traces trace) trace = tracesWith traces trace := by
  cases trace with
  | none => rfl
  | some trace => exact Function.update_idem _ _ _

theorem uploadsWith_again (distinct : (applied.map Claim.id).Nodup) :
    uploadsWith runner (uploadsWith runner uploads applied (passed ++ left)) applied left =
      uploadsWith runner uploads applied (passed ++ left) := by
  unfold uploadsWith
  split_ifs
  · exact stage_again distinct (List.Perm.refl applied)
  · rfl

theorem reportedWith_append : reportedWith runner (reportedWith runner reported passed) left =
      reportedWith runner reported (passed ++ left) := by
  unfold reportedWith
  split_ifs
  · rw [foldl_append]
  · rfl

theorem disputesLeft_after (split : plan.reportable runner first = passed ++ left)
    (isDisputes : disputes = plan.newDisputes ∨ disputes = plan.reportable runner first) :
    ∃ recorded, (passed = [] → recorded = []) ∧
      plan.reportable runner first = recorded ++
        disputesLeft runner (reportedWith runner first.reportedClaimSets passed) disputes ∧
      reportedWith runner first.reportedClaimSets recorded =
        reportedWith runner first.reportedClaimSets passed := by
  unfold InboxEffectPlan.reportable disputesLeft reportedWith at *
  by_cases team : runner.teamServicesConfigured
  · rw [if_pos team] at split isDisputes ⊢
    refine ⟨passed, id, ?_, rfl⟩
    rw [if_pos team, if_pos team, split]
    congr 1
    rcases isDisputes with rfl | same
    · exact (unreported_left split).symm
    · have again : (unreportedDisputes first.reportedClaimSets [] disputes).1 = passed ++ left := by
        rw [same, unreported_again (fun dispute member => unreported_new member) unreported_distinct,
          split]
      exact (unreported_left again).symm
  · rw [if_neg team] at split isDisputes ⊢
    refine ⟨[], fun _ => rfl, ?_, ?_⟩
    · rw [if_neg team, nil_append]
      exact (or_self_iff.mp isDisputes).symm
    · rw [if_neg team, if_neg team]

theorem disputesLeft_first
    (isDisputes : disputes = plan.newDisputes ∨ disputes = plan.reportable runner first) :
    disputesLeft runner first.reportedClaimSets disputes = plan.reportable runner first := by
  obtain ⟨recorded, none, split, -⟩ := @disputesLeft_after runner plan first disputes []
    (plan.reportable runner first) rfl isDisputes
  rw [reportedWith_none] at split
  rw [split, none rfl, nil_append]

theorem Tail.trace (tail : Tail runner plan first applied store) : Tail runner plan first applied
      { store with traces := tracesWith store.traces (plan.traceOf applied) } := by
  cases tail with
  | untouched traces uploads reported =>
    exact Tail.traced (by rw [traces]) uploads reported
  | traced traces uploads reported =>
    exact Tail.traced (by rw [traces, tracesWith_again]) uploads reported
  | staged passed left split traces uploads reported =>
    exact Tail.staged passed left split (by rw [traces, tracesWith_again]) uploads reported

theorem Tail.stage (tail : Tail runner plan first applied store)
    (distinct : (applied.map Claim.id).Nodup)
    (isDisputes : disputes = plan.newDisputes ∨ disputes = plan.reportable runner first)
    (split : disputesLeft runner store.reportedClaimSets disputes = passed ++ left) :
    ∃ before, plan.reportable runner first = before ++ passed ++ left ∧
      tracesWith store.traces (plan.traceOf applied) =
        tracesWith first.traces (plan.traceOf applied) ∧
      uploadsWith runner store.uploads applied (disputesLeft runner store.reportedClaimSets disputes) =
        uploadsWith runner first.uploads applied (plan.reportable runner first) ∧
      reportedWith runner store.reportedClaimSets passed =
        reportedWith runner first.reportedClaimSets (before ++ passed) := by
  cases tail with
  | untouched traces uploads reported =>
    have all := disputesLeft_first isDisputes
    rw [reported, all] at split ⊢
    exact ⟨[], split, by rw [traces], by rw [uploads], rfl⟩
  | traced traces uploads reported =>
    have all := disputesLeft_first isDisputes
    rw [reported, all] at split ⊢
    exact ⟨[], split, by rw [traces, tracesWith_again], by rw [uploads], rfl⟩
  | staged earlier later whole traces uploads reported =>
    obtain ⟨recorded, -, same, sameReported⟩ := disputesLeft_after whole isDisputes
    rw [← reported] at same sameReported
    refine ⟨recorded, ?_, by rw [traces, tracesWith_again], ?_, ?_⟩
    · rw [same, split, append_assoc]
    · rw [uploads, same, uploadsWith_again distinct]
    · rw [← sameReported, reportedWith_append]

end

section

variable {first store next : AgentHome}

def InboxEffectPlan.resumed (plan : InboxEffectPlan) (applied : List Claim) (disputes : List Dispute)
    (warnings : List String) : InboxEffectPlan :=
  { plan with appliedClaims := applied, newDisputes := disputes, warnings := warnings }

def RefFrame (plan : InboxEffectPlan) (first store : AgentHome) : Prop :=
  ∀ id, id ≠ plan.inboxId → store.effects id = first.effects id ∨ first.effects id = none ∧
    ∃ hash, plan.batchHash = some hash ∧ store.effects id = some (effectRef plan hash)

structure Untouched (first store : AgentHome) : Prop where
  traces : store.traces = first.traces
  uploads : store.uploads = first.uploads
  reported : store.reportedClaimSets = first.reportedClaimSets

structure Job (plan : InboxEffectPlan) (first : AgentHome) : Prop where
  prepared : plan.state = .prepared
  stored : first.effects plan.inboxId = some (.plan plan)
  fits : Fits plan first.claims

/-- Some attempts on the plan were cut off. -/
structure Underway (runner : Runner) (plan : InboxEffectPlan) (first : AgentHome)
    (applied : List Claim) (disputes : List Dispute) (warnings : List String) (store : AgentHome) :
    Prop where
  stored : store.effects plan.inboxId = some (.plan (plan.resumed applied disputes warnings))
  refs : RefFrame plan first store
  disputes : disputes = plan.newDisputes ∨ disputes = plan.reportable runner first
  progressed : Progressed plan first.claims store.claims applied
  tail : Tail runner plan first (observeApplied plan.targets store.claims.values applied) store
  complete : (∀ target ∈ plan.targets, target ∈ store.claims.values) ∨ Untouched first store

/-- An attempt on the plan has ended. -/
structure Ended (runner : Runner) (plan : InboxEffectPlan) (first store : AgentHome) : Prop where
  stored : ∃ last, store.effects plan.inboxId = some (.plan last) ∧ last.state = .applied ∧
    SameBatch plan last
  refs : RefFrame plan first store
  claims : ∀ id, store.claims.get? id = first.claims.get? id ∨
    ∃ target ∈ plan.targets, target.id = id ∧ store.claims.get? id = some target
  complete : ∀ target ∈ plan.targets, target ∈ store.claims.values
  tail : ∃ applied, applied.Perm (plan.appliedClaims ++ plan.targets) ∧
    store.traces = tracesWith first.traces (plan.traceOf applied) ∧
    store.uploads = uploadsWith runner first.uploads applied (plan.reportable runner first) ∧
    store.reportedClaimSets =
      reportedWith runner first.reportedClaimSets (plan.reportable runner first)

theorem Job.underway (job : Job plan first) :
    Underway runner plan first plan.appliedClaims plan.newDisputes plan.warnings first where
  stored := job.stored
  refs := fun _ _ => .inl rfl
  disputes := .inl rfl
  progressed := job.fits.begins
  tail := Tail.untouched rfl rfl rfl
  complete := .inr ⟨rfl, rfl, rfl⟩

theorem RefFrame.add {start : AgentHome} (frame : RefFrame plan first store)
    (same : SameBatch plan current) (added : RefsAdded current store start) :
    RefFrame plan first start := by
  intro id other
  rcases added.records id with kept | ⟨missing, hash, isHash, isRef⟩
  · rw [kept]
    exact frame id other
  · refine .inr ⟨?_, hash, same.batchHash ▸ isHash, ?_⟩
    · rcases frame id other with before | ⟨absent, -⟩
      · exact before.symm.trans missing
      · exact absent
    · rw [isRef, effectRef, effectRef, same.inboxId]

theorem resumed_batch : SameBatch plan (plan.resumed applied disputes warnings) :=
  ⟨rfl, rfl, rfl, rfl, rfl, rfl⟩

theorem Underway.add {start : AgentHome}
    (underway : Underway runner plan first applied disputes warnings store)
    (added : RefsAdded (plan.resumed applied disputes warnings) store start) :
    Underway runner plan first applied disputes warnings start where
  stored := added.keeps underway.stored
  refs := underway.refs.add resumed_batch added
  disputes := underway.disputes
  progressed := by
    rw [added.claims]
    exact underway.progressed
  tail := by
    have tail := underway.tail
    rw [added.rest]
    cases tail with
    | untouched traces uploads reported => exact Tail.untouched traces uploads reported
    | traced traces uploads reported => exact Tail.traced traces uploads reported
    | staged passed left split traces uploads reported =>
      exact Tail.staged passed left split traces uploads reported
  complete := by
    rw [added.claims, added.rest]
    rcases underway.complete with all | ⟨traces, uploads, reported⟩
    · exact .inl all
    · exact .inr ⟨traces, uploads, reported⟩

section

variable (underway : Underway runner plan first applied disputes warnings store)
  (fits : Fits plan first.claims)
include underway fits

theorem Underway.fresh :
    ((plan.resumed applied disputes warnings).observed store.claims.values).isStale
      store.claims.values = false :=
  underway.progressed.fresh fits

theorem Underway.realigned : store.realigned (plan.resumed applied disputes warnings) = store := by
  unfold AgentHome.realigned
  rw [if_neg (by simp [underway.fresh fits])]

theorem Underway.working : ∃ more, (plan.resumed applied disputes warnings).working runner store =
      plan.resumed (observeApplied plan.targets store.claims.values applied)
        (disputesLeft runner store.reportedClaimSets disputes) more := by
  unfold InboxEffectPlan.working InboxEffectPlan.realigned
  rw [if_neg (by simp [underway.fresh fits])]
  unfold InboxEffectPlan.filtered disputesLeft
  split_ifs
  · exact ⟨_, rfl⟩
  · exact ⟨_, rfl⟩

theorem Underway.onward (untouched : Untouched first store) {done later : List Claim}
    {more : List String}
    (isNew : ∀ target ∈ done, target ∈ plan.targets ∧ target ∉ store.claims.values)
    (distinct : (done.map Claim.id).Nodup)
    (listed : ∀ claim ∈ later,
      claim ∈ observeApplied plan.targets store.claims.values applied ∨ claim ∈ done)
    (kept : ∀ claim ∈ plan.appliedClaims, claim ∈ later) (unique : (later.map Claim.id).Nodup)
    (isDisputes : remaining = plan.newDisputes ∨ remaining = plan.reportable runner first)
    (stored : next.effects plan.inboxId = some (.plan (plan.resumed later remaining more)))
    (others : ∀ id, id ≠ plan.inboxId → next.effects id = store.effects id)
    (claims : next.claims = done.foldl KeyedMap.insert store.claims) (rest : Untouched store next) :
    Underway runner plan first later remaining more next where
  stored := stored
  refs := by
    intro id other
    rw [others id other]
    exact underway.refs id other
  disputes := isDisputes
  progressed := by
    rw [claims]
    exact (underway.progressed.observed fits).wrote fits isNew distinct listed kept unique
  tail := Tail.untouched (rest.traces.trans untouched.traces) (rest.uploads.trans untouched.uploads)
    (rest.reported.trans untouched.reported)
  complete := .inr ⟨rest.traces.trans untouched.traces, rest.uploads.trans untouched.uploads,
    rest.reported.trans untouched.reported⟩

end

section

variable {work : InboxEffectPlan} {more : List String} {left : List Claim} {target : Claim}
variable (underway : Underway runner plan first applied disputes warnings store)
  (fits : Fits plan first.claims)
  (isWork : work = plan.resumed (observeApplied plan.targets store.claims.values applied)
    (disputesLeft runner store.reportedClaimSets disputes) more)

section

include underway fits isWork

theorem pending_unique (split : work.pending = done ++ left) : (done.map Claim.id).Nodup ∧
      ((observeApplied plan.targets store.claims.values applied ++ done).map Claim.id).Nodup := by
  have whole : (work.pending.map Claim.id).Nodup := by
    have sorted : ((sortedTargets work.targets).map Claim.id).Nodup :=
      sortedTargets_distinct (by rw [isWork]; exact fits.targets)
    exact sorted.sublist (filter_sublist.map Claim.id)
  rw [split, map_append] at whole
  have distinct := (nodup_append.mp whole).1
  refine ⟨distinct, ?_⟩
  rw [map_append]
  refine List.Nodup.append (underway.progressed.observed fits).unique distinct ?_
  intro id isApplied isDone
  obtain ⟨old, isOld, rfl⟩ := mem_map.mp isApplied
  obtain ⟨target, isTarget, same⟩ := mem_map.mp isDone
  have isPending : target ∈ work.pending := by rw [split]; simp [isTarget]
  exact (mem_pending isPending).2 old (by rw [isWork]; exact isOld) same.symm

theorem pending_new (isPending : target ∈ work.pending) :
    target ∈ plan.targets ∧ target ∉ store.claims.values :=
  (underway.progressed.mem_pending fits (by rw [isWork]; rfl) (by rw [isWork]; rfl)).mp isPending

theorem Underway.untouched (isPending : target ∈ work.pending) : Untouched first store := by
  obtain ⟨isTarget, isNew⟩ := pending_new underway fits isWork isPending
  exact underway.complete.resolve_left fun all => isNew (all target isTarget)

end

theorem Underway.reportsAll (underway : Underway runner plan first applied disputes warnings store)
    (untouched : Untouched first store) :
    disputesLeft runner store.reportedClaimSets disputes = plan.reportable runner first := by
  rw [untouched.reported]
  exact disputesLeft_first underway.disputes

section

include underway fits isWork

theorem Underway.saved (split : work.pending = done ++ target :: left) : Underway runner plan first
      (observeApplied plan.targets store.claims.values applied ++ (done ++ [target]))
      (disputesLeft runner store.reportedClaimSets disputes) more
      (store.wrote work (done ++ [target])) := by
  have untouched := underway.untouched fits isWork
    (show target ∈ work.pending by rw [split]; simp)
  have whole : work.pending = (done ++ [target]) ++ left := by rw [split]; simp
  obtain ⟨distinct, unique⟩ := pending_unique underway fits isWork whole
  have isId : work.inboxId = plan.inboxId := by rw [isWork]; rfl
  have effects : (store.wrote work (done ++ [target])).effects =
      update store.effects plan.inboxId
        (some (.plan (work.extended (done ++ [target])))) := by
    unfold AgentHome.wrote
    rw [if_neg (by simp), isId]
  refine underway.onward fits untouched ?_ distinct ?_ ?_ unique (.inr (underway.reportsAll untouched))
    ?_ ?_ rfl ⟨rfl, rfl, rfl⟩
  · intro other isOther
    exact pending_new underway fits isWork (by rw [whole]; exact mem_append_left _ isOther)
  · exact fun claim member => mem_append.mp member
  · intro claim old
    exact mem_append_left _ ((underway.progressed.observed fits).kept claim old)
  · rw [effects, update_self, isWork]
    rfl
  · intro id other
    rw [effects, update_of_ne other]

theorem Underway.unsaved (split : work.pending = done ++ target :: left) : ∃ later remaining last,
      Underway runner plan first later remaining last (store.wroteUnsaved work done target) := by
  have untouched := underway.untouched fits isWork
    (show target ∈ work.pending by rw [split]; simp)
  have whole : work.pending = (done ++ [target]) ++ left := by rw [split]; simp
  obtain ⟨distinct, -⟩ := pending_unique underway fits isWork whole
  obtain ⟨-, unique⟩ := pending_unique underway fits isWork split
  have isId : work.inboxId = plan.inboxId := by rw [isWork]; rfl
  have isNew : ∀ other ∈ done ++ [target],
      other ∈ plan.targets ∧ other ∉ store.claims.values := fun other isOther =>
    pending_new underway fits isWork (by rw [whole]; exact mem_append_left _ isOther)
  by_cases none : done = []
  · have effects : (store.wroteUnsaved work done target).effects = store.effects := by
      subst none
      rfl
    refine ⟨applied, disputes, warnings, underway.onward fits untouched isNew distinct ?_
      underway.progressed.kept underway.progressed.unique underway.disputes ?_ ?_ rfl ⟨rfl, rfl, rfl⟩⟩
    · exact fun claim member => .inl ((mem_observed fits.targets).mpr (.inl member))
    · rw [effects]
      exact underway.stored
    · exact fun id _ => by rw [effects]
  · have effects : (store.wroteUnsaved work done target).effects =
        update store.effects plan.inboxId (some (.plan (work.extended done))) := by
      show (store.wrote work done).effects = _
      unfold AgentHome.wrote
      rw [if_neg none, isId]
    refine ⟨observeApplied plan.targets store.claims.values applied ++ done,
      disputesLeft runner store.reportedClaimSets disputes, more,
      underway.onward fits untouched isNew distinct ?_ ?_ unique (.inr (underway.reportsAll untouched))
        ?_ ?_ rfl ⟨rfl, rfl, rfl⟩⟩
    · intro claim member
      rcases mem_append.mp member with old | isDone
      · exact .inl old
      · exact .inr (mem_append_left _ isDone)
    · intro claim old
      exact mem_append_left _ ((underway.progressed.observed fits).kept claim old)
    · rw [effects, update_self, isWork]
      rfl
    · intro id other
      rw [effects, update_of_ne other]

theorem Underway.midway (among : Midway work store work.pending next) :
    ∃ later remaining last, Underway runner plan first later remaining last next := by
  cases among with
  | unsaved done target left split => exact underway.unsaved fits isWork split
  | saved done left split =>
    rcases eq_nil_or_concat done with none | ⟨earlier, target, isLast⟩
    · subst none
      exact ⟨applied, disputes, warnings, underway⟩
    · subst isLast
      rw [concat_eq_append] at split ⊢
      have whole : work.pending = earlier ++ target :: left := by rw [split]; simp
      exact ⟨_, _, _, underway.saved fits isWork whole⟩

end

theorem Underway.written (underway : Underway runner plan first applied disputes warnings store)
    (fits : Fits plan first.claims)
    (isWork : work = plan.resumed (observeApplied plan.targets store.claims.values applied)
      (disputesLeft runner store.reportedClaimSets disputes) more) :
    ∃ known remaining last,
      Underway runner plan first known remaining last (store.wrote work work.pending) ∧
      observeApplied plan.targets (store.wrote work work.pending).claims.values known =
        work.appliedClaims ++ work.pending ∧
      (∀ target ∈ plan.targets, target ∈ (store.wrote work work.pending).claims.values) ∧
      disputesLeft runner (store.wrote work work.pending).reportedClaimSets remaining =
        work.newDisputes := by
  have isApplied : work.appliedClaims = observeApplied plan.targets store.claims.values applied := by
    rw [isWork]
    rfl
  have isLeft : work.newDisputes = disputesLeft runner store.reportedClaimSets disputes := by
    rw [isWork]
    rfl
  have isPending : ∀ {target : Claim}, target ∈ work.pending ↔
      target ∈ plan.targets ∧ target ∉ store.claims.values :=
    underway.progressed.mem_pending fits (by rw [isWork]; rfl) isApplied
  rcases eq_nil_or_concat work.pending with none | ⟨done, target, isLast⟩
  · rw [none]
    refine ⟨applied, disputes, warnings, underway, ?_, ?_, isLeft.symm⟩
    · rw [isApplied, append_nil]
      rfl
    · intro target isTarget
      by_contra missing
      have among := isPending.mpr ⟨isTarget, missing⟩
      rw [none] at among
      cases among
  · rw [concat_eq_append] at isLast
    have saved := underway.saved fits isWork isLast
    have untouched := underway.untouched fits isWork
      (show target ∈ work.pending by rw [isLast]; simp)
    rw [← isLast] at saved
    have known : ∀ target ∈ plan.targets,
        target ∈ observeApplied plan.targets store.claims.values applied ++ work.pending := by
      intro target isTarget
      by_cases isNow : target ∈ store.claims.values
      · exact mem_append_left _ ((underway.progressed.mem_target fits isTarget).mpr isNow)
      · exact mem_append_right _ (isPending.mpr ⟨isTarget, isNow⟩)
    refine ⟨_, _, _, saved, ?_, ?_, ?_⟩
    · rw [isApplied]
      exact observed_known fits.targets known
    · exact fun target isTarget => (saved.progressed.known target (known target isTarget)).2
    · rw [isLeft, underway.reportsAll untouched]
      show disputesLeft runner store.reportedClaimSets _ = _
      rw [untouched.reported]
      exact disputesLeft_first (.inr rfl)

theorem uploads_all (progressed : Progressed plan first.claims claims list) :
    (list.filter fun claim => claim ∈ claims.values) = list :=
  filter_eq_self.mpr fun claim member => by simpa using (progressed.known claim member).2

theorem Underway.beside (underway : Underway runner plan first applied disputes warnings store)
    (all : ∀ target ∈ plan.targets, target ∈ store.claims.values)
    (effects : next.effects = store.effects) (claims : next.claims = store.claims)
    (tail : Tail runner plan first (observeApplied plan.targets store.claims.values applied) next) :
    Underway runner plan first applied disputes warnings next where
  stored := by
    rw [effects]
    exact underway.stored
  refs := by
    intro id other
    rw [effects]
    exact underway.refs id other
  disputes := underway.disputes
  progressed := by
    rw [claims]
    exact underway.progressed
  tail := by
    rw [claims]
    exact tail
  complete := by
    rw [claims]
    exact .inl all

section

include underway fits isWork

theorem Underway.closing (among : Closing runner work.completed
      (work.completed.appliedClaims.filter fun claim =>
        claim ∈ (store.wrote work work.pending).claims.values)
      (store.wrote work work.pending) next) :
    ∃ later remaining last, Underway runner plan first later remaining last next := by
  obtain ⟨known, remaining, last, written, isKnown, all, isLeft⟩ := underway.written fits isWork
  have progressed := written.progressed.observed fits
  rw [isKnown] at progressed
  have isTrace : work.completed.trace = plan.traceOf (work.appliedClaims ++ work.pending) := by
    rw [isWork]
    rfl
  have uploads : (work.completed.appliedClaims.filter fun claim =>
      claim ∈ (store.wrote work work.pending).claims.values) = work.appliedClaims ++ work.pending :=
    uploads_all progressed
  have tail := written.tail
  rw [isKnown] at tail
  rw [uploads] at among
  refine ⟨known, remaining, last, ?_⟩
  cases among with
  | written => exact written
  | traced =>
    refine written.beside all rfl rfl ?_
    rw [isKnown, isTrace]
    exact tail.trace
  | staged passed left split =>
    refine written.beside all rfl rfl ?_
    obtain ⟨before, whole, traces, staged, reported⟩ := tail.stage progressed.unique
      written.disputes (isLeft.trans split)
    rw [isKnown]
    refine Tail.staged (before ++ passed) left whole ?_ ?_ reported
    · show tracesWith _ work.completed.trace = _
      rw [isTrace]
      exact traces
    · rw [← staged, isLeft]
      rfl

theorem Underway.finished : Ended runner plan first
      (((store.wrote work work.pending).closed runner work.completed
        (work.completed.appliedClaims.filter fun claim =>
          claim ∈ (store.wrote work work.pending).claims.values) work.newDisputes).withEffect
        plan.inboxId (.plan work.finished)) := by
  obtain ⟨known, remaining, last, written, isKnown, all, isLeft⟩ := underway.written fits isWork
  have progressed := written.progressed.observed fits
  rw [isKnown] at progressed
  have isTrace : work.completed.trace = plan.traceOf (work.appliedClaims ++ work.pending) := by
    rw [isWork]
    rfl
  have uploads : (work.completed.appliedClaims.filter fun claim =>
      claim ∈ (store.wrote work work.pending).claims.values) = work.appliedClaims ++ work.pending :=
    uploads_all progressed
  have tail := written.tail
  rw [isKnown] at tail
  obtain ⟨before, whole, traces, staged, reported⟩ := tail.stage progressed.unique
    written.disputes (isLeft.trans (append_nil work.newDisputes).symm)
  rw [append_nil] at whole
  rw [uploads]
  refine ⟨⟨work.finished, update_self _ _ _, rfl, ?_⟩, ?_, written.progressed.claims, all,
    work.appliedClaims ++ work.pending, ?_, ?_, ?_, ?_⟩
  · rw [isWork]
    exact ⟨rfl, rfl, rfl, rfl, rfl, rfl⟩
  · intro id other
    have same : (((store.wrote work work.pending).closed runner work.completed
        (work.appliedClaims ++ work.pending) work.newDisputes).withEffect plan.inboxId
        (.plan work.finished)).effects id = (store.wrote work work.pending).effects id :=
      update_of_ne other _ _
    rw [same]
    exact written.refs id other
  · refine progressed.perm fits fun target isTarget => ?_
    rw [← isKnown]
    exact (written.progressed.mem_target fits isTarget).mpr (all target isTarget)
  · show tracesWith _ work.completed.trace = _
    rw [isTrace]
    exact traces
  · rw [← staged, isLeft]
    rfl
  · rw [whole]
    exact reported

end

end

end

variable {plan : InboxEffectPlan} {first store next : AgentHome}

def OnTheWay (runner : Runner) (plan : InboxEffectPlan) (first store : AgentHome) : Prop :=
  (∃ applied disputes warnings, Underway runner plan first applied disputes warnings store) ∨
    Ended runner plan first store

theorem Ended.add (ended : Ended runner plan first store)
    (stored : store.effects plan.inboxId = some (.plan current)) (added : RefsAdded current store next) :
    Ended runner plan first next := by
  obtain ⟨last, isLast, isApplied, batch⟩ := ended.stored
  rw [isLast] at stored
  cases stored
  refine ⟨⟨current, added.keeps isLast, isApplied, batch⟩, ended.refs.add batch added, ?_, ?_, ?_⟩
  · rw [added.claims]
    exact ended.claims
  · rw [added.claims]
    exact ended.complete
  · rw [added.rest]
    exact ended.tail

inductive Onward (runner : Runner) (work : InboxEffectPlan) (store : AgentHome) : AgentHome → Prop
  | midway (next : AgentHome) (among : Midway work store work.pending next) :
      Onward runner work store next
  | closing (next : AgentHome) (among : Closing runner work.completed
      (work.completed.appliedClaims.filter fun claim =>
        claim ∈ (store.wrote work work.pending).claims.values)
      (store.wrote work work.pending) next) : Onward runner work store next

section

variable (underway : Underway runner plan first applied disputes warnings store)
  (fits : Fits plan first.claims)
include underway fits

theorem Underway.continues
    (onward : Onward runner ((plan.resumed applied disputes warnings).working runner store) store next) :
    OnTheWay runner plan first next := by
  obtain ⟨more, isWork⟩ := underway.working fits
  cases onward with
  | midway among => exact .inl (underway.midway fits isWork among)
  | closing among => exact .inl (underway.closing fits isWork among)

theorem Underway.ends :
    Ended runner plan first (store.finished runner (plan.resumed applied disputes warnings)) := by
  obtain ⟨more, isWork⟩ := underway.working fits
  have ended := underway.finished fits isWork
  have sameHome := underway.realigned fits
  unfold AgentHome.finished AgentHome.toUpload AgentHome.written
  rw [sameHome]
  exact ended

theorem Underway.visits
    (isVisited : Visited runner (plan.resumed applied disputes warnings) store next) :
    OnTheWay runner plan first next := by
  rcases isVisited with passing | ⟨start, added, rfl⟩
  · cases passing with
    | refs _ added => exact .inl ⟨applied, disputes, warnings, underway.add added⟩
    | midway start _ added among =>
      have there := underway.add added
      rw [there.realigned fits] at among
      exact there.continues fits (Onward.midway next among)
    | closing start _ added among =>
      have there := underway.add added
      unfold AgentHome.toUpload AgentHome.written at among
      rw [there.realigned fits] at among
      exact there.continues fits (Onward.closing next among)
  · exact .inr ((underway.add added).ends fits)

end

theorem discarded_job (prepared : plan.state = .prepared) (fresh : plan.appliedClaims = [])
    (distinct : (plan.targets.map Claim.id).Nodup)
    (stale : (plan.observed first.claims.values).isStale first.claims.values = true) :
    Job (plan.realigned first.claims.values)
      (first.withEffect plan.inboxId (.plan (plan.realigned first.claims.values))) := by
  have isDiscarded : plan.realigned first.claims.values =
      (plan.observed first.claims.values).discarded first.claims.values := by
    unfold InboxEffectPlan.realigned
    rw [if_pos stale]
  have isApplied : (plan.realigned first.claims.values).appliedClaims =
      observeApplied plan.targets first.claims.values [] := by
    rw [isDiscarded, ← fresh]
    rfl
  have noTargets : (plan.realigned first.claims.values).targets = [] := by
    rw [isDiscarded]
    rfl
  refine ⟨?_, ?_, ?_, ?_, ?_⟩
  · rw [isDiscarded]
    exact prepared
  · rw [realigned_inboxId]
    exact update_self _ _ _
  · rw [noTargets, append_nil, isApplied]
    exact observed_distinct distinct nodup_nil
  · intro claim member
    rw [isApplied] at member
    rcases mem_observeApplied member with none | ⟨-, isNow⟩
    · cases none
    · exact isNow
  · refine @fresh_of_expected _ _ _ _ first.claims.values ?_ fun id compared => ?_
    · rw [isDiscarded]
      rfl
    · have plain := @expected_unapplied
        ((plan.realigned first.claims.values).observed first.claims.values).targets
        ((plan.realigned first.claims.values).observed first.claims.values).appliedClaims
        ((plan.realigned first.claims.values).observed first.claims.values).analysisClaims id
        (fun claim _ isTarget => by
          have none : claim ∈ (plan.realigned first.claims.values).targets := isTarget
          rw [noTargets] at none
          cases none)
      refine Eq.trans ?_ plain.symm
      rw [isDiscarded]
      rfl

theorem RefsAdded.trans (before : RefsAdded plan first middle)
    (after : RefsAdded plan middle store) : RefsAdded plan first store where
  rest := by
    rw [after.rest, before.rest]
  records := by
    intro id
    rcases after.records id with kept | ⟨missing, hash, isHash, isRef⟩
    · rw [kept]
      exact before.records id
    · refine .inr ⟨?_, hash, isHash, isRef⟩
      rcases before.records id with same | ⟨absent, -⟩
      · exact same.symm.trans missing
      · exact absent

def givenUp (plan : InboxEffectPlan) (first : AgentHome) : InboxEffectPlan :=
  plan.realigned first.claims.values

def givenUpHome (plan : InboxEffectPlan) (first : AgentHome) : AgentHome :=
  first.withEffect plan.inboxId (.plan (givenUp plan first))

theorem givenUp_batch : SameBatch plan (givenUp plan first) := by
  unfold givenUp InboxEffectPlan.realigned
  split_ifs
  all_goals exact ⟨rfl, rfl, rfl, rfl, rfl, rfl⟩

variable {start : AgentHome}

theorem givenUp_realigned (added : RefsAdded plan first start)
    (stale : (plan.observed first.claims.values).isStale first.claims.values = true) :
    start.realigned plan = start.withEffect plan.inboxId (.plan (givenUp plan first)) := by
  unfold AgentHome.realigned givenUp
  rw [added.claims, if_pos stale]

theorem givenUp_start {start : AgentHome} (job : Job (givenUp plan first) (givenUpHome plan first))
    (added : RefsAdded plan first start) :
    Underway runner (givenUp plan first) (givenUpHome plan first)
      (givenUp plan first).appliedClaims (givenUp plan first).newDisputes (givenUp plan first).warnings
      (start.withEffect plan.inboxId (.plan (givenUp plan first))) := by
  refine job.underway.add ⟨?_, fun id => ?_⟩
  · rw [added.rest]
    rfl
  · by_cases same : id = plan.inboxId
    · subst same
      refine .inl ?_
      show update _ _ _ _ = update _ _ _ _
      rw [update_self, update_self]
    · have before : (givenUpHome plan first).effects id = first.effects id :=
        update_of_ne same _ _
      have after : (start.withEffect plan.inboxId (.plan (givenUp plan first))).effects id =
          start.effects id := update_of_ne same _ _
      rw [before, after]
      rcases added.records id with kept | ⟨missing, hash, isHash, isRef⟩
      · exact .inl kept
      · refine .inr ⟨missing, hash, ?_, ?_⟩
        · exact givenUp_batch.batchHash.trans isHash
        · have sameId : plan.inboxId = (givenUp plan first).inboxId := givenUp_batch.inboxId.symm
          rw [isRef, effectRef, sameId]
          rfl

variable (job : Job (givenUp plan first) (givenUpHome plan first))
  (stale : (plan.observed first.claims.values).isStale first.claims.values = true)
include job stale

theorem givenUp_working (added : RefsAdded plan first start) :
    plan.working runner start = (givenUp plan first).working runner
      (start.withEffect plan.inboxId (.plan (givenUp plan first))) := by
  have fresh : ((givenUp plan first).observed start.claims.values).isStale start.claims.values = false :=
    (@givenUp_start runner plan first start job added).fresh job.fits
  have noTargets : (givenUp plan first).targets = [] := by
    unfold givenUp InboxEffectPlan.realigned
    rw [if_pos stale]
    rfl
  have same : (givenUp plan first).realigned start.claims.values = givenUp plan first := by
    unfold InboxEffectPlan.realigned
    rw [if_neg (by rw [fresh]; simp)]
    unfold InboxEffectPlan.observed
    rw [noTargets]
    rfl
  show (plan.realigned start.claims.values).filtered _ _ =
    ((givenUp plan first).realigned start.claims.values).filtered _ _
  rw [same, added.claims]
  rfl

theorem givenUp_ends (added : RefsAdded plan first start) :
    Ended runner (givenUp plan first) (givenUpHome plan first) (start.finished runner plan) := by
  have there := @givenUp_start runner plan first start job added
  have ended := there.ends job.fits
  have sameId : (givenUp plan first).inboxId = plan.inboxId := givenUp_batch.inboxId
  have sameHome := there.realigned job.fits
  unfold AgentHome.finished AgentHome.toUpload AgentHome.written at ended ⊢
  rw [sameHome] at ended
  rw [givenUp_working job stale added, givenUp_realigned added stale, ← sameId]
  rw [← sameId] at ended
  exact ended

theorem givenUp_visits
    (waiting : RefsAdded plan first store) (isVisited : Visited runner plan store next) :
    RefsAdded plan first next ∨ OnTheWay runner (givenUp plan first) (givenUpHome plan first) next := by
  rcases isVisited with passing | ⟨start, added, rfl⟩
  · cases passing with
    | refs _ added => exact .inl (waiting.trans added)
    | midway start _ added among =>
      have there := @givenUp_start runner plan first start job (waiting.trans added)
      rw [givenUp_working job stale (waiting.trans added),
        givenUp_realigned (waiting.trans added) stale] at among
      exact .inr (there.continues job.fits (Onward.midway next among))
    | closing start _ added among =>
      have there := @givenUp_start runner plan first start job (waiting.trans added)
      unfold AgentHome.toUpload AgentHome.written at among
      rw [givenUp_working job stale (waiting.trans added),
        givenUp_realigned (waiting.trans added) stale] at among
      exact .inr (there.continues job.fits (Onward.closing next among))
  · exact .inr (.inr (givenUp_ends job stale (waiting.trans added)))

end AgentClaimNetwork.Agent
