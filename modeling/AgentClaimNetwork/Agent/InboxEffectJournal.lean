import AgentClaimNetwork.Agent.InboxEffect

/-!
What the effect journal says of the messages it has planned, and that applying a plan keeps it.
-/

namespace AgentClaimNetwork.Agent

open Library Durable List
open Function (update_of_ne update_self)
open Meets (bind forAll given look ok weaken write)
variable {runner : Runner} {pool : InboxId → InboxMessage} {start : Origin}

open Maintainer (InboxId InboxMessage)

section

variable {plan other : InboxEffectPlan}

def memberIds (plan : InboxEffectPlan) : List InboxId :=
  (effectPlanMembers plan).map InboxEffectMember.inboxId

structure SameBatch (plan other : InboxEffectPlan) : Prop where
  schemaVersion : other.schemaVersion = plan.schemaVersion
  inboxId : other.inboxId = plan.inboxId
  resolutionId : other.resolutionId = plan.resolutionId
  messageHash : other.messageHash = plan.messageHash
  batchMembers : other.batchMembers = plan.batchMembers
  batchHash : other.batchHash = plan.batchHash

theorem SameBatch.refl : SameBatch plan plan := ⟨rfl, rfl, rfl, rfl, rfl, rfl⟩

theorem SameBatch.symm (same : SameBatch plan other) : SameBatch other plan :=
  ⟨same.schemaVersion.symm, same.inboxId.symm, same.resolutionId.symm, same.messageHash.symm,
    same.batchMembers.symm, same.batchHash.symm⟩

theorem SameBatch.trans (first : SameBatch plan other) (second : SameBatch other last) :
    SameBatch plan last :=
  ⟨second.schemaVersion.trans first.schemaVersion, second.inboxId.trans first.inboxId,
    second.resolutionId.trans first.resolutionId, second.messageHash.trans first.messageHash,
    second.batchMembers.trans first.batchMembers, second.batchHash.trans first.batchHash⟩

theorem SameBatch.members (same : SameBatch plan other) :
    effectPlanMembers other = effectPlanMembers plan := by
  simp only [effectPlanMembers, same.batchMembers, same.inboxId, same.resolutionId, same.messageHash]

theorem SameBatch.memberIds (same : SameBatch plan other) : memberIds other = memberIds plan := by
  rw [Agent.memberIds, same.members, Agent.memberIds]

theorem observed_batch (current : List Claim) : SameBatch plan (plan.observed current) :=
  ⟨rfl, rfl, rfl, rfl, rfl, rfl⟩

theorem discarded_batch (current : List Claim) : SameBatch plan (plan.discarded current) :=
  ⟨rfl, rfl, rfl, rfl, rfl, rfl⟩

theorem unreported_batch : SameBatch plan (plan.unreported reported) :=
  ⟨rfl, rfl, rfl, rfl, rfl, rfl⟩

/-- A plan as it was made for some messages of the pool. -/
structure PlanFor (runner : Runner) (pool : InboxId → InboxMessage) (messages : List InboxMessage)
    (plan : InboxEffectPlan) : Prop where
  distinct : (messages.map InboxMessage.id).Nodup
  pooled : ∀ message ∈ messages, pool message.id = message
  canonical : (messages.map (effectMember runner)).head? =
    some ⟨plan.inboxId, plan.resolutionId, plan.messageHash⟩
  version : plan.schemaVersion = inboxEffectSchemaVersion
  batch : (plan.batchMembers, plan.batchHash) =
    batchFields runner (messages.map (effectMember runner))

def Planned (runner : Runner) (pool : InboxId → InboxMessage) (plan : InboxEffectPlan) : Prop :=
  ∃ messages, PlanFor runner pool messages plan

variable (planFor : PlanFor runner pool messages plan)

include planFor

theorem PlanFor.same (same : SameBatch plan other) : PlanFor runner pool messages other where
  distinct := planFor.distinct
  pooled := planFor.pooled
  canonical := by
    rw [same.inboxId, same.resolutionId, same.messageHash]
    exact planFor.canonical
  version := same.schemaVersion.trans planFor.version
  batch := by
    rw [same.batchMembers, same.batchHash]
    exact planFor.batch

theorem PlanFor.members : effectPlanMembers plan = messages.map (effectMember runner) := by
  have fields := planFor.batch
  have first := planFor.canonical
  unfold batchFields at fields
  unfold effectPlanMembers
  split_ifs at fields with single
  · obtain ⟨noMembers, -⟩ := Prod.mk.inj fields
    rw [noMembers]
    cases messages with
    | nil => simp at first
    | cons message rest =>
      cases rest with
      | cons => simp at single
      | nil =>
        simp only [map_cons, map_nil, List.head?_cons, Option.some.injEq] at first
        simp [first]
  · obtain ⟨isMembers, -⟩ := Prod.mk.inj fields
    rw [isMembers]
    have notEmpty : messages ≠ [] := by
      rintro rfl
      simp at first
    simp [notEmpty]

theorem PlanFor.memberIds : memberIds plan = messages.map InboxMessage.id := by
  rw [Agent.memberIds, planFor.members, map_map]
  rfl

theorem PlanFor.nonempty : messages ≠ [] := by
  rintro rfl
  have first := planFor.canonical
  simp at first

omit planFor

theorem Planned.canonical (planned : Planned runner pool plan) : plan.inboxId ∈ memberIds plan := by
  obtain ⟨messages, planFor⟩ := planned
  have first := planFor.canonical
  rw [Agent.memberIds, planFor.members]
  cases messages with
  | nil => simp at first
  | cons message rest =>
    simp only [map_cons, List.head?_cons, Option.some.injEq] at first
    simp [first]

include planFor in
theorem PlanFor.integrity : validateEffectPlanIntegrity runner plan = true := by
  have ids := planFor.memberIds
  unfold Agent.memberIds at ids
  have fields := planFor.batch
  have nonempty := planFor.nonempty
  simp only [validateEffectPlanIntegrity, Bool.and_eq_true, decide_eq_true_eq]
  refine ⟨⟨⟨planFor.version, by rw [planFor.members]; exact planFor.canonical⟩,
    by rw [ids]; exact planFor.distinct⟩, ?_⟩
  unfold batchFields at fields
  split_ifs at fields with single
  · obtain ⟨noMembers, noHash⟩ := Prod.mk.inj fields
    simp [noMembers, noHash]
  · obtain ⟨isMembers, isHash⟩ := Prod.mk.inj fields
    rw [isHash, planFor.members]
    simp [isMembers, nonempty]

theorem Planned.member (planned : Planned runner pool plan) (isMember : message.id ∈ memberIds plan)
    (pooled : pool message.id = message) :
    validateEffectPlanMessageMember runner plan message = .ok () := by
  obtain ⟨messages, planFor⟩ := planned
  unfold validateEffectPlanMessageMember
  cases found : (effectPlanMembers plan).find? fun member => member.inboxId = message.id with
  | none =>
    rw [List.find?_eq_none] at found
    obtain ⟨member, among, same⟩ := mem_map.mp isMember
    exact absurd (decide_eq_true same) (by simpa using found member among)
  | some member =>
    have isId : member.inboxId = message.id := by simpa using List.find?_some found
    have among := List.mem_of_find?_eq_some found
    rw [planFor.members] at among
    obtain ⟨source, isSource, rfl⟩ := mem_map.mp among
    have sameId : source.id = message.id := isId
    have same : source = message := by rw [← planFor.pooled source isSource, sameId, pooled]
    simp [same]

end
variable {record : InboxEffectRecord}

section

abbrev Effects := InboxId → Option InboxEffectRecord

/-- What the journal is like: every plan was made for messages of the pool and is stored under the
first of them, every reference is the one its plan would write, and no message is in two plans. -/
structure JournalSound (runner : Runner) (pool : InboxId → InboxMessage) (effects : Effects) :
    Prop where
  planned : ∀ id plan, effects id = some (.plan plan) →
    plan.inboxId = id ∧ Planned runner pool plan
  referred : ∀ id reference, effects id = some (.ref reference) → ∃ plan hash,
    effects reference.canonicalInboxId = some (.plan plan) ∧ id ∈ memberIds plan ∧
      plan.batchHash = some hash ∧ effectRef plan hash = .ref reference
  unique : ∀ left right first second id, effects left = some (.plan first) →
    effects right = some (.plan second) → id ∈ memberIds first → id ∈ memberIds second → left = right
  complete : ∀ id plan, effects id = some (.plan plan) → plan.state = .applied →
    ∀ member ∈ memberIds plan, effects member ≠ none

def timesAsked (home : AgentHome) (id : InboxId) : Nat :=
  (home.asked.filter fun ids => id ∈ ids).length

structure Extends (home later : AgentHome) : Prop where
  plans : ∀ id plan, home.effects id = some (.plan plan) →
    ∃ next, later.effects id = some (.plan next) ∧ SameBatch plan next
  refs : ∀ id reference, home.effects id = some (.ref reference) →
    later.effects id = some (.ref reference)
  asked : ∀ canonical plan id, home.effects canonical = some (.plan plan) → id ∈ memberIds plan →
    timesAsked later id = timesAsked home id

theorem Extends.refl : Extends home home where
  plans := fun _ plan stored => ⟨plan, stored, SameBatch.refl⟩
  refs := fun _ _ stored => stored
  asked := fun _ _ _ _ _ => rfl

theorem Extends.trans {home middle later : AgentHome} (first : Extends home middle)
    (second : Extends middle later) : Extends home later where
  plans := by
    intro id plan stored
    obtain ⟨between, isBetween, same⟩ := first.plans id plan stored
    obtain ⟨next, isNext, sameNext⟩ := second.plans id between isBetween
    exact ⟨next, isNext, same.trans sameNext⟩
  refs := fun id reference stored => second.refs id reference (first.refs id reference stored)
  asked := by
    intro canonical plan id stored member
    obtain ⟨between, isBetween, same⟩ := first.plans canonical plan stored
    rw [second.asked canonical between id isBetween (by rw [same.memberIds]; exact member)]
    exact first.asked canonical plan id stored member

theorem Extends.present {home later : AgentHome} {id : InboxId} (extend : Extends home later)
    (stored : home.effects id ≠ none) : later.effects id ≠ none := by
  cases found : home.effects id with
  | none => exact absurd found stored
  | some record =>
    cases record with
    | plan plan =>
      obtain ⟨next, isNext, -⟩ := extend.plans id plan found
      simp [isNext]
    | ref reference => simp [extend.refs id reference found]

structure Origin where
  home : AgentHome
  fresh : List InboxId

structure Kept (runner : Runner) (pool : InboxId → InboxMessage) (start : Origin) (home : AgentHome) :
    Prop where
  sound : JournalSound runner pool home.effects
  extend : Extends start.home home
  news : ∀ id plan, home.effects id = some (.plan plan) →
    (∃ old, start.home.effects id = some (.plan old)) ∨ ∀ member ∈ memberIds plan, member ∈ start.fresh

variable {home : AgentHome} {effects : Effects}

theorem Kept.beside {next : AgentHome} (kept : Kept runner pool start home)
    (sameEffects : next.effects = home.effects) (sameAsked : next.asked = home.asked) :
    Kept runner pool start next where
  sound := by
    rw [sameEffects]
    exact kept.sound
  extend := by
    refine ⟨?_, ?_, ?_⟩
    · rw [sameEffects]
      exact kept.extend.plans
    · rw [sameEffects]
      exact kept.extend.refs
    · intro canonical plan id stored member
      rw [← kept.extend.asked canonical plan id stored member, timesAsked, sameAsked, timesAsked]
  news := by
    rw [sameEffects]
    exact kept.news

theorem Kept.grow (kept : Kept runner pool start home) (subset : ∀ id ∈ start.fresh, id ∈ more) :
    Kept runner pool ⟨start.home, more⟩ home where
  sound := kept.sound
  extend := kept.extend
  news := by
    intro id plan stored
    rcases kept.news id plan stored with old | new
    · exact .inl old
    · exact .inr fun member isMember => subset member (new member isMember)

theorem Kept.rebase (before : Kept runner pool start middle)
    (after : Kept runner pool ⟨middle, more⟩ home) (subset : ∀ id ∈ start.fresh, id ∈ more) :
    Kept runner pool ⟨start.home, more⟩ home where
  sound := after.sound
  extend := before.extend.trans after.extend
  news := by
    intro id plan stored
    rcases after.news id plan stored with ⟨old, isOld⟩ | new
    · rcases before.news id old isOld with older | new
      · exact .inl older
      · obtain ⟨next, isNext, same⟩ := after.extend.plans id old isOld
        rw [stored] at isNext
        cases isNext
        rw [same.memberIds]
        exact .inr fun member isMember => subset member (new member isMember)
    · exact .inr new

theorem JournalSound.member_record (sound : JournalSound runner pool effects) {id member : InboxId}
    {plan : InboxEffectPlan} {hash : String} (stored : effects id = some (.plan plan))
    (isMember : member ∈ memberIds plan) (differs : member ≠ id)
    (isHash : plan.batchHash = some hash) (found : effects member = some record) :
    record = effectRef plan hash := by
  cases record with
  | plan other =>
    obtain ⟨isId, planned⟩ := sound.planned member other found
    have own := planned.canonical
    rw [isId] at own
    exact absurd (sound.unique member id other plan member found stored own isMember) differs
  | ref reference =>
    obtain ⟨canonical, refHash, isCanonical, belongs, isRefHash, isRef⟩ :=
      sound.referred member reference found
    have same := sound.unique _ id canonical plan member isCanonical stored belongs isMember
    rw [same, stored] at isCanonical
    cases isCanonical
    rw [isRefHash] at isHash
    cases isHash
    exact isRef.symm

end

section

variable {home : AgentHome} {plan next : InboxEffectPlan} {canonical id : InboxId} {hash : String}

def AgentHome.withEffect (home : AgentHome) (id : InboxId) (record : InboxEffectRecord) : AgentHome :=
  { home with effects := Function.update home.effects id (some record) }

theorem Extends.withEffect (extend : Extends first home)
    (plans : ∀ plan, home.effects id = some (.plan plan) →
      ∃ next, record = .plan next ∧ SameBatch plan next)
    (refs : ∀ reference, home.effects id ≠ some (.ref reference)) :
    Extends first (home.withEffect id record) := by
  have step : Extends home (home.withEffect id record) := by
    refine ⟨?_, ?_, fun _ _ _ _ _ => rfl⟩
    · intro other plan stored
      by_cases same : other = id
      · subst same
        obtain ⟨next, rfl, batch⟩ := plans plan stored
        exact ⟨next, update_self _ _ _, batch⟩
      · refine ⟨plan, ?_, SameBatch.refl⟩
        simpa only [AgentHome.withEffect, update_of_ne same] using stored
    · intro other reference stored
      have differs : other ≠ id := by
        rintro rfl
        exact refs reference stored
      simpa only [AgentHome.withEffect, update_of_ne differs] using stored
  exact extend.trans step

section

variable (kept : Kept runner pool start home)
include kept

theorem Kept.addRef (stored : home.effects canonical = some (.plan plan))
    (isMember : id ∈ memberIds plan) (isHash : plan.batchHash = some hash)
    (missing : home.effects id = none) :
    Kept runner pool start (home.withEffect id (effectRef plan hash)) := by
  have isCanonical := (kept.sound.planned canonical plan stored).1
  have others : ∀ other record, home.effects other = some record →
      (home.withEffect id (effectRef plan hash)).effects other = some record := by
    intro other record found
    have differs : other ≠ id := by
      rintro rfl
      rw [missing] at found
      cases found
    simpa only [AgentHome.withEffect, update_of_ne differs] using found
  have before : ∀ other found, (home.withEffect id (effectRef plan hash)).effects other =
      some (.plan found) → home.effects other = some (.plan found) := by
    intro other found isFound
    by_cases same : other = id
    · subst same
      simp [AgentHome.withEffect, effectRef] at isFound
    · simpa only [AgentHome.withEffect, update_of_ne same] using isFound
  refine ⟨⟨?_, ?_, ?_, ?_⟩, ?_, ?_⟩
  · exact fun other found isFound => kept.sound.planned other found (before other found isFound)
  · intro other reference found
    by_cases same : other = id
    · subst same
      simp only [AgentHome.withEffect, update_self, Option.some.injEq] at found
      refine ⟨plan, hash, ?_, isMember, isHash, found⟩
      cases found
      rw [isCanonical]
      exact others canonical _ stored
    · simp only [AgentHome.withEffect, update_of_ne same] at found
      obtain ⟨owner, ownerHash, isOwner, belongs, isOwnerHash, isRef⟩ :=
        kept.sound.referred other reference found
      exact ⟨owner, ownerHash, others _ _ isOwner, belongs, isOwnerHash, isRef⟩
  · intro left right first second member isFirst isSecond
    exact kept.sound.unique left right first second member (before _ _ isFirst) (before _ _ isSecond)
  · intro other found isFound applied member belongs
    have there := kept.sound.complete other found (before other found isFound) applied member belongs
    cases record : home.effects member with
    | none => exact absurd record there
    | some kind =>
      rw [others member kind record]
      exact Option.some_ne_none kind
  · exact kept.extend.withEffect (fun _ found => by rw [missing] at found; cases found)
      (fun _ found => by rw [missing] at found; cases found)
  · exact fun other found isFound => kept.news other found (before other found isFound)

theorem Kept.rewrite (stored : home.effects canonical = some (.plan plan))
    (same : SameBatch plan next)
    (complete : next.state = .applied → ∀ member ∈ memberIds plan, home.effects member ≠ none) :
    Kept runner pool start (home.withEffect canonical (.plan next)) := by
  obtain ⟨isCanonical, planned⟩ := kept.sound.planned canonical plan stored
  have before : ∀ other found, (home.withEffect canonical (.plan next)).effects other =
      some (.plan found) → ∃ old, home.effects other = some (.plan old) ∧ SameBatch old found := by
    intro other found isFound
    rcases update_cases isFound with ⟨rfl, written⟩ | ⟨isSame, isFound⟩
    · cases written
      exact ⟨plan, stored, same⟩
    · exact ⟨found, isFound, SameBatch.refl⟩
  have there : ∀ member, home.effects member ≠ none →
      (home.withEffect canonical (.plan next)).effects member ≠ none := by
    intro member found
    by_cases isSame : member = canonical
    · simp [AgentHome.withEffect, isSame]
    · simpa only [AgentHome.withEffect, update_of_ne isSame] using found
  refine ⟨⟨?_, ?_, ?_, ?_⟩, ?_, ?_⟩
  · intro other found isFound
    obtain ⟨old, isOld, batch⟩ := before other found isFound
    obtain ⟨isId, messages, planFor⟩ := kept.sound.planned other old isOld
    exact ⟨batch.inboxId.trans isId, messages, planFor.same batch⟩
  · intro other reference found
    have differs : other ≠ canonical := by
      rintro rfl
      simp [AgentHome.withEffect] at found
    simp only [AgentHome.withEffect, update_of_ne differs] at found
    obtain ⟨owner, ownerHash, isOwner, belongs, isOwnerHash, isRef⟩ :=
      kept.sound.referred other reference found
    by_cases isSame : reference.canonicalInboxId = canonical
    · rw [isSame, stored] at isOwner
      cases isOwner
      refine ⟨next, ownerHash, ?_, ?_, ?_, ?_⟩
      · rw [isSame]
        exact update_self _ _ _
      · rw [same.memberIds]
        exact belongs
      · exact same.batchHash.trans isOwnerHash
      · rw [← isRef, effectRef, effectRef, same.inboxId]
    · refine ⟨owner, ownerHash, ?_, belongs, isOwnerHash, isRef⟩
      simpa only [AgentHome.withEffect, update_of_ne isSame] using isOwner
  · intro left right first second member isFirst isSecond inFirst inSecond
    obtain ⟨oldFirst, isOldFirst, batchFirst⟩ := before left first isFirst
    obtain ⟨oldSecond, isOldSecond, batchSecond⟩ := before right second isSecond
    rw [batchFirst.memberIds] at inFirst
    rw [batchSecond.memberIds] at inSecond
    exact kept.sound.unique left right oldFirst oldSecond member isOldFirst isOldSecond inFirst inSecond
  · intro other found isFound applied member belongs
    apply there
    rcases update_cases isFound with ⟨rfl, written⟩ | ⟨isSame, isFound⟩
    · cases written
      rw [same.memberIds] at belongs
      exact complete applied member belongs
    · exact kept.sound.complete other found isFound applied member belongs
  · refine kept.extend.withEffect ?_ fun _ found => by rw [stored] at found; cases found
    intro old isOld
    rw [stored] at isOld
    cases isOld
    exact ⟨next, rfl, same⟩
  · intro other found isFound
    obtain ⟨old, isOld, batch⟩ := before other found isFound
    rw [batch.memberIds]
    exact kept.news other old isOld

theorem Kept.addPlan (planned : Planned runner pool plan)
    (missing : home.effects plan.inboxId = none) (prepared : plan.state = .prepared)
    (fresh : ∀ member ∈ memberIds plan, ∀ other found, home.effects other = some (.plan found) → member ∉ memberIds found)
    (counted : ∀ member ∈ memberIds plan, member ∈ start.fresh) :
    Kept runner pool start (home.withEffect plan.inboxId (.plan plan)) := by
  have before : ∀ other record, (home.withEffect plan.inboxId (.plan plan)).effects other =
      some record → other = plan.inboxId ∧ record = .plan plan ∨ home.effects other = some record := by
    intro other record found
    by_cases same : other = plan.inboxId
    · subst same
      simp only [AgentHome.withEffect, update_self, Option.some.injEq] at found
      exact .inl ⟨rfl, found.symm⟩
    · simp only [AgentHome.withEffect, update_of_ne same] at found
      exact .inr found
  have there : ∀ member record, home.effects member = some record →
      (home.withEffect plan.inboxId (.plan plan)).effects member = some record := by
    intro member record found
    have differs : member ≠ plan.inboxId := by
      rintro rfl
      rw [missing] at found
      cases found
    simpa only [AgentHome.withEffect, update_of_ne differs] using found
  refine ⟨⟨?_, ?_, ?_, ?_⟩, ?_, ?_⟩
  · intro other found isFound
    rcases before other _ isFound with ⟨rfl, isPlan⟩ | old
    · cases isPlan
      exact ⟨rfl, planned⟩
    · exact kept.sound.planned other found old
  · intro other reference found
    rcases before other _ found with ⟨-, isPlan⟩ | old
    · cases isPlan
    · obtain ⟨owner, ownerHash, isOwner, rest⟩ := kept.sound.referred other reference old
      exact ⟨owner, ownerHash, there _ _ isOwner, rest⟩
  · intro left right first second member isFirst isSecond inFirst inSecond
    rcases before left _ isFirst with ⟨rfl, isPlan⟩ | oldFirst
    · rcases before right _ isSecond with ⟨rfl, -⟩ | oldSecond
      · rfl
      · cases isPlan
        exact absurd inSecond (fresh member inFirst right second oldSecond)
    · rcases before right _ isSecond with ⟨rfl, isPlan⟩ | oldSecond
      · cases isPlan
        exact absurd inFirst (fresh member inSecond left first oldFirst)
      · exact kept.sound.unique left right first second member oldFirst oldSecond inFirst inSecond
  · intro other found isFound applied member belongs
    rcases before other _ isFound with ⟨-, isPlan⟩ | old
    · cases isPlan
      rw [prepared] at applied
      cases applied
    · cases record : home.effects member with
      | none => exact absurd record (kept.sound.complete other found old applied member belongs)
      | some kind =>
        rw [there member kind record]
        exact Option.some_ne_none kind
  · exact kept.extend.withEffect (fun _ found => by rw [missing] at found; cases found)
      (fun _ found => by rw [missing] at found; cases found)
  · intro other found isFound
    rcases before other _ isFound with ⟨-, isPlan⟩ | old
    · cases isPlan
      exact .inr counted
    · exact kept.news other found old

end

end

variable {home : AgentHome} {plan base : InboxEffectPlan}

def Fine (runner : Runner) (pool : InboxId → InboxMessage) (start : Origin)
    (failure : InboxEffectError) (home : AgentHome) : Prop :=
  failure.isConflict = false ∧ Kept runner pool start home

abbrev Lands (runner : Runner) (pool : InboxId → InboxMessage) (start : Origin)
    (pre : AgentHome → Prop) (program : Checked AgentHome InboxEffectError α) (post : α → AgentHome → Prop) :=
  Meets pre program post (Fine runner pool start) (Kept runner pool start)

structure Stored (runner : Runner) (pool : InboxId → InboxMessage) (start : Origin)
    (base : InboxEffectPlan) (home : AgentHome) : Prop where
  kept : Kept runner pool start home
  stored : ∃ current, home.effects base.inboxId = some (.plan current) ∧ SameBatch base current

structure Referred (runner : Runner) (pool : InboxId → InboxMessage) (start : Origin)
    (base : InboxEffectPlan) (home : AgentHome) : Prop where
  stored : Stored runner pool start base home
  complete : ∀ member ∈ memberIds base, home.effects member ≠ none

theorem Referred.beside {next : AgentHome} (referred : Referred runner pool start base home)
    (sameEffects : next.effects = home.effects) (sameAsked : next.asked = home.asked) :
    Referred runner pool start base next where
  stored := ⟨referred.stored.kept.beside sameEffects sameAsked, by
    rw [sameEffects]
    exact referred.stored.stored⟩
  complete := by
    rw [sameEffects]
    exact referred.complete

variable {member : InboxEffectMember}

section

variable (planned : Planned runner pool plan)
include planned

theorem other_member (among : member ∈ (effectPlanMembers plan).drop 1) :
    member.inboxId ∈ memberIds plan ∧ member.inboxId ≠ plan.inboxId := by
  obtain ⟨messages, planFor⟩ := planned
  have distinct := planFor.distinct
  have first := planFor.canonical
  rw [planFor.members] at among
  cases messages with
  | nil => simp at first
  | cons message rest =>
    simp only [map_cons, drop_succ_cons, drop_zero, mem_map] at among
    obtain ⟨source, isSource, rfl⟩ := among
    simp only [map_cons, List.head?_cons, Option.some.injEq] at first
    have isCanonical : message.id = plan.inboxId := congrArg InboxEffectMember.inboxId first
    refine ⟨?_, ?_⟩
    · rw [planFor.memberIds]
      exact mem_map_of_mem (mem_cons_of_mem _ isSource)
    · intro same
      have sameId : source.id = message.id := same.trans isCanonical.symm
      rw [map_cons, nodup_cons] at distinct
      exact distinct.1 (by rw [← sameId]; exact mem_map_of_mem isSource)

theorem repairRef_meets {hash : String} (isHash : plan.batchHash = some hash)
    (among : member ∈ (effectPlanMembers plan).drop 1) :
    Lands runner pool start (fun home => Stored runner pool start plan home ∧
        ∀ other ∈ done, home.effects other.inboxId ≠ none)
      (repairRef plan hash member)
      (fun _ home => Stored runner pool start plan home ∧
        ∀ other ∈ done ++ [member], home.effects other.inboxId ≠ none) := by
  obtain ⟨isMember, differs⟩ := other_member planned among
  refine look fun seen => ?_
  split
  · rename_i record found
    rintro home fates ⟨rfl, stored, present⟩
    obtain ⟨current, isCurrent, batch⟩ := stored.stored
    have isRef := stored.kept.sound.member_record isCurrent (by rw [batch.memberIds]; exact isMember)
      differs (batch.batchHash.trans isHash) found
    rw [isRef, effectRef, batch.inboxId]
    simp only [effectRef, Checked.ensure, decide_true, if_true]
    refine ⟨stored, ?_⟩
    intro other isOther
    rcases mem_concat isOther with isDone | isNow
    · exact present other isDone
    · rw [isNow, found]
      exact Option.some_ne_none record
  · rename_i missing
    refine write ?_ ?_
    · rintro home ⟨rfl, stored, present⟩
      exact stored.kept
    · rintro home ⟨rfl, stored, present⟩
      obtain ⟨current, isCurrent, batch⟩ := stored.stored
      have added := stored.kept.addRef isCurrent (by rw [batch.memberIds]; exact isMember)
        (batch.batchHash.trans isHash) missing
      rw [effectRef, batch.inboxId] at added
      refine ⟨⟨added, current, ?_, batch⟩, ?_⟩
      · simpa only [update_of_ne differs.symm] using isCurrent
      · intro other isOther
        by_cases same : other.inboxId = member.inboxId
        · simp [same]
        · simp only [update_of_ne same]
          rcases mem_concat isOther with isDone | isNow
          · exact present other isDone
          · exact absurd (by rw [isNow]) same

theorem repairRefs_meets :
    Lands runner pool start (Stored runner pool start plan) (repairClaimAttributeUpdateRefs plan)
      (fun _ => Referred runner pool start plan) := by
  have isPlanned := planned
  obtain ⟨messages, planFor⟩ := isPlanned
  unfold repairClaimAttributeUpdateRefs
  cases isHash : plan.batchHash with
  | none =>
    refine ok fun home stored => ⟨stored, ?_⟩
    have fields := planFor.batch
    have noBatch : plan.batchMembers = [] := by
      rw [isHash] at fields
      unfold batchFields at fields
      split_ifs at fields
      · exact (Prod.mk.inj fields).1
      · cases (Prod.mk.inj fields).2
    intro member isMember
    simp only [memberIds, effectPlanMembers, noBatch, isEmpty_nil, if_true, map_cons,
      map_nil, mem_singleton] at isMember
    obtain ⟨current, isCurrent, -⟩ := stored.stored
    rw [isMember, isCurrent]
    exact Option.some_ne_none _
  | some hash =>
    have loop := @forAll AgentHome InboxEffectError InboxEffectMember
      (Fine runner pool start) (Kept runner pool start) (repairRef plan hash)
      (fun done home => Stored runner pool start plan home ∧
        ∀ other ∈ done, home.effects other.inboxId ≠ none) [] ((effectPlanMembers plan).drop 1)
      (fun passed member left split => repairRef_meets planned isHash (by rw [split]; simp))
    refine weaken loop (fun home stored => ⟨stored, by simp⟩) ?_
    rintro _ home ⟨stored, present⟩
    refine ⟨stored, ?_⟩
    intro member isMember
    by_cases isFirst : member = plan.inboxId
    · obtain ⟨current, isCurrent, -⟩ := stored.stored
      rw [isFirst, isCurrent]
      exact Option.some_ne_none _
    · obtain ⟨entry, isEntry, rfl⟩ := mem_map.mp isMember
      apply present entry
      have first := planFor.canonical
      rw [← planFor.members] at first
      cases members : effectPlanMembers plan with
      | nil =>
        rw [members] at isEntry
        cases isEntry
      | cons head rest =>
        rw [members] at isEntry first
        rcases mem_cons.mp isEntry with rfl | later
        · cases first
          exact absurd rfl isFirst
        · simpa using later

end

theorem writePlan_meets (same : SameBatch base plan) :
    Lands runner pool start (Referred runner pool start base) (writeEffect plan.inboxId (.plan plan))
      (fun _ => Referred runner pool start base) := by
  refine write (fun home referred => referred.stored.kept) ?_
  intro home referred
  obtain ⟨current, isCurrent, batch⟩ := referred.stored.stored
  rw [← same.inboxId] at isCurrent
  have written := referred.stored.kept.rewrite isCurrent (batch.symm.trans same) fun _ => by
    rw [batch.memberIds]
    exact referred.complete
  refine ⟨⟨written, plan, ?_, same⟩, ?_⟩
  · rw [← same.inboxId]
    exact update_self _ _ _
  · intro member isMember
    by_cases isCanonical : member = plan.inboxId
    · simp [isCanonical]
    · simpa only [update_of_ne isCanonical] using referred.complete member isMember

theorem beside_meets (sameEffects : ∀ home, (change home).effects = home.effects)
    (sameAsked : ∀ home, (change home).asked = home.asked) :
    Lands runner pool start (Referred runner pool start base) (Checked.write change)
      (fun _ => Referred runner pool start base) :=
  write (fun _ referred => referred.stored.kept) fun home referred =>
    referred.beside (sameEffects home) (sameAsked home)

theorem discardStale_meets (same : SameBatch base plan) :
    Lands runner pool start (Referred runner pool start base) (discardStaleInboxPlan plan)
      (fun next home => Referred runner pool start base home ∧ SameBatch base next) := by
  refine look fun seen => ?_
  show Meets _ (if (plan.observed seen.claims.values).isStale seen.claims.values then _ else _) _ _ _
  have observed := same.trans (observed_batch seen.claims.values)
  split_ifs
  · have discarded := observed.trans (discarded_batch seen.claims.values)
    refine bind (weaken (writePlan_meets discarded) (fun _ holds => holds.2)
      fun _ _ holds => holds) fun _ => ?_
    exact ok fun home referred => ⟨referred, discarded⟩
  · exact ok fun home holds => ⟨holds.2, observed⟩

theorem applyTarget_meets (same : SameBatch base plan) :
    Lands runner pool start (Referred runner pool start base) (applyTarget plan target)
      (fun next home => Referred runner pool start base home ∧ SameBatch base next) := by
  unfold applyTarget
  split_ifs
  · exact ok fun home referred => ⟨referred, same⟩
  · refine bind (beside_meets (fun _ => rfl) fun _ => rfl) fun _ => ?_
    have applied : SameBatch base { plan with appliedClaims := plan.appliedClaims ++ [target] } :=
      same.trans ⟨rfl, rfl, rfl, rfl, rfl, rfl⟩
    refine bind (writePlan_meets applied) fun _ => ?_
    exact ok fun home referred => ⟨referred, applied⟩

theorem ensureTrace_meets :
    Lands runner pool start (Referred runner pool start base) (ensureTrace trace)
      (fun _ => Referred runner pool start base) := by
  refine look fun seen => ?_
  split
  · rename_i existing found
    rintro home fates ⟨-, referred⟩
    unfold Checked.ensure
    split_ifs
    · exact referred
    · exact ⟨rfl, referred.stored.kept⟩
  · exact weaken (beside_meets (fun _ => rfl) fun _ => rfl) (fun _ holds => holds.2)
      fun _ _ holds => holds

theorem ensurePlannedTrace_meets :
    Lands runner pool start (Referred runner pool start base) (ensurePlannedTrace plan)
      (fun _ => Referred runner pool start base) := by
  unfold ensurePlannedTrace
  split
  · exact ensureTrace_meets
  · exact ok fun _ referred => referred

theorem filtered_batch (reported : String → Option DisputeId) :
    SameBatch plan (plan.filtered runner reported) := by
  unfold InboxEffectPlan.filtered
  split_ifs
  · exact unreported_batch
  · exact SameBatch.refl

theorem applyEffect_meets (same : SameBatch base plan) :
    Lands runner pool start (Referred runner pool start base) (applyClaimAttributeUpdateEffect runner plan)
      (fun next home => Referred runner pool start base home ∧ SameBatch base next.1) := by
  refine look fun seen => ?_
  have filtered := same.trans (@filtered_batch runner plan seen.reportedClaimSets)
  refine Meets.ensure (fun _ home holds => ⟨rfl, holds.2.stored.kept⟩) fun _ => ?_
  have loop := @Meets.fold AgentHome InboxEffectError InboxEffectPlan Claim (Fine runner pool start)
    (Kept runner pool start) applyTarget
    (fun _ next home => Referred runner pool start base home ∧ SameBatch base next) []
    (sortedTargets (plan.filtered runner seen.reportedClaimSets).targets)
    (plan.filtered runner seen.reportedClaimSets)
    (fun _ target _ next _ => given fun batch => applyTarget_meets batch)
  refine bind (weaken loop (fun _ holds => ⟨holds.2, filtered⟩) fun _ _ holds => holds)
    fun applied => given fun batch => ?_
  refine look fun latest => ?_
  refine bind (weaken ensurePlannedTrace_meets (fun _ holds => holds.2)
    fun _ _ holds => holds) fun _ => ?_
  exact ok fun home referred => ⟨referred, batch.trans ⟨rfl, rfl, rfl, rfl, rfl, rfl⟩⟩

theorem recordDisputes_meets :
    Lands runner pool start (Referred runner pool start base) (recordDisputes runner disputes)
      (fun _ => Referred runner pool start base) := by
  unfold recordDisputes
  split_ifs
  · refine @forAll AgentHome InboxEffectError Dispute (Fine runner pool start)
      (Kept runner pool start) recordDisputeIfNew (fun _ => Referred runner pool start base) [] _ ?_
    intro passed dispute left _
    refine look fun seen => ?_
    show Meets _ (if (seen.reportedClaimSets (reportedDisputeClaimSetKey dispute.claims)).isSome
      then _ else _) _ _ _
    split_ifs
    · exact ok fun _ holds => holds.2
    · exact weaken (beside_meets (fun _ => rfl) fun _ => rfl) (fun _ holds => holds.2)
        fun _ _ holds => holds
  · exact ok fun _ referred => referred

theorem stageDurableClaims_meets :
    Lands runner pool start (Referred runner pool start base) (stageDurableClaims runner claims disputes)
      (fun _ => Referred runner pool start base) := by
  unfold stageDurableClaims
  split_ifs
  · exact beside_meets (fun _ => rfl) fun _ => rfl
  · exact ok fun _ referred => referred

theorem applyPersistedPlan_meets (planned : Planned runner pool plan) :
    Lands runner pool start (Stored runner pool start plan) (applyPersistedPlan runner plan)
      (fun next home => Referred runner pool start plan home ∧ SameBatch plan next ∧
        (plan.state = .applied → next = plan)) := by
  refine bind (repairRefs_meets planned) fun _ => ?_
  split_ifs with prepared
  · refine bind (discardStale_meets SameBatch.refl) fun discarded =>
      given fun batch => ?_
    refine bind (applyEffect_meets batch) fun applied => given fun appliedBatch => ?_
    refine bind stageDurableClaims_meets fun _ => ?_
    refine bind recordDisputes_meets fun _ => ?_
    have marked : SameBatch plan { applied.1 with state := .applied } :=
      appliedBatch.trans ⟨rfl, rfl, rfl, rfl, rfl, rfl⟩
    refine bind (writePlan_meets marked) fun _ => ?_
    refine ok fun home referred => ⟨referred, marked, ?_⟩
    intro wasApplied
    rw [prepared] at wasApplied
    cases wasApplied
  · exact ok fun home referred => ⟨referred, SameBatch.refl, fun _ => rfl⟩

end AgentClaimNetwork.Agent
