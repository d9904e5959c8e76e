import AgentClaimNetwork.Agent.InboxEffectJournal
import AgentClaimNetwork.Library.Trace

/-!
Each claim-attribute message is planned once, as long as a plan's first message is named before
its others.
-/

namespace AgentClaimNetwork.Agent

open Library Durable List
open Maintainer (InboxId InboxMessage)
open Function (update update_of_ne update_self)
open Meets (bind ensure given look orFail pin relax weaken write)

section

variable {runner : Runner} {pool : InboxId → InboxMessage} {start : Origin} {home : AgentHome}
  {group : List InboxMessage}

structure Drawn (pool : InboxId → InboxMessage) (messages : List InboxMessage) : Prop where
  distinct : (messages.map InboxMessage.id).Nodup
  pooled : ∀ message ∈ messages, pool message.id = message

def Unplanned (home : AgentHome) (id : InboxId) : Prop :=
  ∀ canonical plan, home.effects canonical = some (.plan plan) → id ∉ memberIds plan

structure Ready (runner : Runner) (pool : InboxId → InboxMessage) (start : Origin)
    (group : List InboxMessage) (home : AgentHome) : Prop where
  kept : Kept runner pool start home
  missing : ∀ message ∈ group, home.effects message.id = none
  unplanned : ∀ message ∈ group, Unplanned home message.id
  counted : ∀ message ∈ group, message.id ∈ start.fresh

abbrev AgentHome.reading (start : AgentHome) (messages : List InboxMessage) : Origin :=
  ⟨start, messages.map InboxMessage.id⟩

theorem firstRepeated_none {messages : List InboxMessage}
    (distinct : (messages.map InboxMessage.id).Nodup)
    (new : ∀ message ∈ messages, message.id ∉ seen) : firstRepeated seen messages = none := by
  induction messages generalizing seen with
  | nil => rfl
  | cons message rest ih =>
    rw [map_cons, nodup_cons] at distinct
    rw [firstRepeated, if_neg (new message mem_cons_self)]
    refine ih distinct.2 fun later isLater among => ?_
    rcases mem_cons.mp among with same | before
    · exact distinct.1 (by rw [← same]; exact mem_map_of_mem isLater)
    · exact new later (mem_cons_of_mem _ isLater) before

theorem Ready.ask (ready : Ready runner pool start group home) : Ready runner pool start group
      { home with asked := home.asked ++ [group.map InboxMessage.id] } where
  kept := by
    refine ⟨ready.kept.sound, ⟨ready.kept.extend.plans, ready.kept.extend.refs, ?_⟩, ready.kept.news⟩
    intro canonical plan id stored member
    obtain ⟨next, isNext, same⟩ := ready.kept.extend.plans canonical plan stored
    have notAsked : id ∉ group.map InboxMessage.id := by
      intro among
      obtain ⟨message, isMessage, rfl⟩ := mem_map.mp among
      exact ready.unplanned message isMessage canonical next isNext (by rw [same.memberIds]; exact member)
    rw [← ready.kept.extend.asked canonical plan id stored member]
    simp [timesAsked, filter_append, notAsked]
  missing := ready.missing
  unplanned := ready.unplanned
  counted := ready.counted

theorem members_meets (drawn : Drawn pool group) :
    Lands runner pool start (Ready runner pool start group) (Checked.ofExcept (effectMembersFromMessages runner group))
      (fun members home => Ready runner pool start group home ∧
        members = group.map (effectMember runner)) := by
  have members : effectMembersFromMessages runner group = .ok (group.map (effectMember runner)) := by
    rw [effectMembersFromMessages, firstRepeated_none drawn.distinct (by simp)]
  rw [members]
  exact Meets.ok fun _ ready => ⟨ready, rfl⟩

theorem canonical_meets {members : List InboxEffectMember} :
    Lands runner pool start (Ready runner pool start group) (Checked.orFail .emptyBatch members.head?)
      (fun canonical home => Ready runner pool start group home ∧ members.head? = some canonical) :=
  orFail (fun _ _ ready => ⟨rfl, ready.kept⟩) fun _ first _ ready => ⟨ready, first⟩

theorem ask_meets : Lands runner pool start (fun home => home = seen ∧ Ready runner pool start group home)
      (Checked.note fun home => { home with asked := home.asked ++ [group.map InboxMessage.id] })
      (fun _ => Ready runner pool start group) :=
  Meets.note fun _ holds => holds.2.ask

theorem generate_meets :
    Lands runner pool start (Ready runner pool start group) (Checked.orFail .internalizationFailed answer)
      (fun _ => Ready runner pool start group) :=
  orFail (fun _ _ ready => ⟨rfl, ready.kept⟩) fun _ _ _ ready => ready

theorem planUpdates_meets : Lands runner pool start (Ready runner pool start group)
      (Checked.ofExcept (planUpdates runner localClaims updatedClaims))
      (fun _ => Ready runner pool start group) := by
  refine Meets.ofExcept ?_ fun _ _ _ ready => ready
  intro failure isFailure home ready
  refine ⟨?_, ready.kept⟩
  induction updatedClaims with
  | nil => cases isFailure
  | cons target rest ih =>
    rw [planUpdates] at isFailure
    split at isFailure
    · cases isFailure
      rfl
    · split at isFailure
      · rename_i other isOther
        cases isFailure
        exact ih isOther
      · cases isFailure

theorem prepare_meets (drawn : Drawn pool group) :
    Lands runner pool start (Ready runner pool start group) (prepareClaimAttributeUpdateEffect runner group)
      (fun plan home => Ready runner pool start group home ∧ PlanFor runner pool group plan ∧
        plan.state = .prepared) := by
  refine bind (members_meets drawn) fun members => given ?_
  rintro rfl
  refine bind canonical_meets fun canonical => given fun first => ?_
  refine look fun seen => ?_
  split
  · exact Meets.fail fun home holds => ⟨rfl, holds.2.kept⟩
  · refine bind ask_meets fun _ => ?_
    refine bind generate_meets fun outcome => ?_
    refine bind planUpdates_meets fun updates => ?_
    refine Meets.ok fun home ready => ⟨ready, ?_, rfl⟩
    exact ⟨drawn.distinct, drawn.pooled, first, rfl, rfl⟩

theorem persist_meets {plan : InboxEffectPlan} (planFor : PlanFor runner pool group plan)
    (prepared : plan.state = .prepared) :
    Lands runner pool start (Ready runner pool start group) (persistPreparedPlan plan)
      (fun _ => Stored runner pool start plan) := by
  have members : ∀ member ∈ memberIds plan, ∃ message ∈ group, message.id = member := by
    intro member isMember
    rw [planFor.memberIds] at isMember
    exact mem_map.mp isMember
  have written : Lands runner pool start (Ready runner pool start group) (writeEffect plan.inboxId (.plan plan))
      (fun _ => Stored runner pool start plan) := by
    refine write (fun home ready => ready.kept) fun home ready => ?_
    obtain ⟨first, isFirst, isCanonical⟩ := members _ (Planned.canonical ⟨group, planFor⟩)
    have added := ready.kept.addPlan ⟨group, planFor⟩
      (by rw [← isCanonical]; exact ready.missing first isFirst) prepared (by
        intro member isMember other found isFound
        obtain ⟨message, isMessage, rfl⟩ := members member isMember
        exact ready.unplanned message isMessage other found isFound)
      (by
        intro member isMember
        obtain ⟨message, isMessage, rfl⟩ := members member isMember
        exact ready.counted message isMessage)
    exact ⟨added, plan, update_self _ _ _, SameBatch.refl⟩
  refine bind written fun _ => ?_
  exact weaken (repairRefs_meets ⟨group, planFor⟩) (fun _ stored => stored)
    fun _ _ referred => referred.stored

end
variable {id : InboxId}

variable {old : InboxEffectPlan}

section

def Orderly (home : AgentHome) (messages : List InboxMessage) : Prop :=
  ∀ canonical plan, home.effects canonical = some (.plan plan) → plan.state = .prepared →
    ∀ earlier message later, messages = earlier ++ message :: later → message.id ∈ memberIds plan →
      (message.id = canonical → ∀ other ∈ earlier, other.id ∉ memberIds plan) ∧
        (home.effects message.id = none →
          ∃ other ∈ earlier, other.id ∈ memberIds plan ∧ home.effects other.id ≠ none)

variable {runner : Runner} {pool : InboxId → InboxMessage} {start home : AgentHome}
  {messages done group rest : List InboxMessage} {progress : Progress} {message : InboxMessage}
  {record : InboxEffectRecord}

structure Loaded (start : AgentHome) (rest : List InboxMessage) (applied : List InboxId)
    (canonical : InboxId) (batch old : InboxEffectPlan) (home : AgentHome) : Prop where
  stored : start.effects canonical = some (.plan old)
  same : SameBatch old batch
  untouched : canonical ∉ applied → batch = old
  unchanged : canonical ∈ applied → old.state = .applied → batch = old
  passed : canonical ∈ applied → old.state = .prepared → ∀ message ∈ rest, message.id ≠ canonical
  complete : canonical ∈ applied → ∀ member ∈ memberIds old, home.effects member ≠ none

/-- Where the loop is: `done` is dealt with, `group` waits to be planned and `rest` is to come. -/
structure Looping (runner : Runner) (pool : InboxId → InboxMessage) (start : AgentHome)
    (messages done group rest : List InboxMessage) (progress : Progress) (home : AgentHome) :
    Prop where
  split : messages = done ++ group ++ rest
  kept : Kept runner pool ⟨start, done.map InboxMessage.id⟩ home
  missing : ∀ message ∈ group, home.effects message.id = none
  unplanned : ∀ message ∈ group, Unplanned home message.id
  loaded : ∀ message ∈ messages, ∀ record, start.effects message.id = some record →
    ∃ batch, progress.batches (canonicalId record) = some batch
  batches : ∀ canonical batch, progress.batches canonical = some batch →
    ∃ old, Loaded start rest progress.appliedBatches canonical batch old home
  processed : ∀ message ∈ done, ∀ record, start.effects message.id = some record →
    canonicalId record ∈ progress.appliedBatches

variable {effects : Effects} {plan : InboxEffectPlan}

theorem canonical_of_member {canonical : InboxId} (sound : JournalSound runner pool effects)
    (stored : effects canonical = some (.plan plan)) (isMember : id ∈ memberIds plan)
    (found : effects id = some record) : canonicalId record = canonical := by
  cases record with
  | plan other =>
    obtain ⟨isId, planned⟩ := sound.planned id other found
    have own := planned.canonical
    rw [isId] at own
    exact isId.trans (sound.unique id canonical other plan id found stored own isMember)
  | ref reference =>
    obtain ⟨owner, hash, isOwner, belongs, -⟩ := sound.referred id reference found
    exact sound.unique _ canonical owner plan id isOwner stored belongs isMember

theorem member_of_record (sound : JournalSound runner pool effects)
    (found : effects id = some record) :
    ∃ plan, effects (canonicalId record) = some (.plan plan) ∧ id ∈ memberIds plan := by
  cases record with
  | plan plan =>
    obtain ⟨isId, planned⟩ := sound.planned id plan found
    have own := planned.canonical
    rw [isId] at own
    refine ⟨plan, ?_, own⟩
    rw [canonicalId, isId]
    exact found
  | ref reference =>
    obtain ⟨owner, hash, isOwner, belongs, -⟩ := sound.referred id reference found
    exact ⟨owner, isOwner, belongs⟩

variable {canonical : InboxId}

theorem Looping.coming (looping : Looping runner pool start messages done group (message :: rest)
      progress home) (sound : JournalSound runner pool start.effects) (drawn : Drawn pool messages)
    (orderly : Orderly start messages) (noRecord : start.effects message.id = none)
    (stored : home.effects canonical = some (.plan plan)) (isMember : message.id ∈ memberIds plan) :
    canonical ∈ progress.appliedBatches ∧ ∃ batch old, progress.batches canonical = some batch ∧
      Loaded start (message :: rest) progress.appliedBatches canonical batch old home := by
  have distinct := drawn.distinct
  rw [looping.split] at distinct
  rcases looping.kept.news canonical plan stored with ⟨old, isOld⟩ | new
  · obtain ⟨next, isNext, same⟩ := looping.kept.extend.plans canonical old isOld
    rw [stored] at isNext
    cases isNext
    rw [same.memberIds] at isMember
    cases isState : old.state with
    | applied => exact absurd noRecord (sound.complete canonical old isOld isState _ isMember)
    | prepared =>
      obtain ⟨-, after⟩ := orderly canonical old isOld isState (done ++ group) message rest
        looping.split isMember
      obtain ⟨other, isEarlier, otherMember, hasRecord⟩ := after noRecord
      obtain ⟨otherRecord, isRecord⟩ := Option.ne_none_iff_exists'.mp hasRecord
      have leads := canonical_of_member sound isOld otherMember isRecord
      rcases mem_append.mp isEarlier with isDone | isGroup
      · have applied := looping.processed other isDone otherRecord isRecord
        rw [leads] at applied
        obtain ⟨batch, isBatch⟩ := looping.loaded other (by rw [looping.split]; simp [isDone])
          otherRecord isRecord
        rw [leads] at isBatch
        obtain ⟨before, loaded⟩ := looping.batches canonical batch isBatch
        exact ⟨applied, batch, before, isBatch, loaded⟩
      · exact absurd (looping.missing other isGroup) (looping.kept.extend.present hasRecord)
  · -- what this call planned is done with
    have isDone := new message.id isMember
    have isHere : message.id ∈ (message :: rest).map InboxMessage.id := by simp
    rw [map_append, map_append, append_assoc] at distinct
    exact (disjoint_of_nodup_append distinct isDone (mem_append_right _ isHere)).elim

theorem Looping.whole (looping : Looping runner pool start messages done group rest progress home) :
    Kept runner pool (start.reading messages) home := by
  refine looping.kept.grow fun id isDone => ?_
  rw [looping.split, map_append, map_append]
  exact mem_append_left _ (mem_append_left _ isDone)

variable {applied : List InboxId}

theorem Loaded.later {batch : InboxEffectPlan} {next : AgentHome}
    (loaded : Loaded start rest applied canonical batch old home) (extend : Extends home next) :
    Loaded start rest applied canonical batch old next :=
  { loaded with
    complete := fun isApplied member isMember =>
      extend.present (loaded.complete isApplied member isMember) }

theorem Looping.planned {next : AgentHome}
    (looping : Looping runner pool start messages done group rest progress home)
    (kept : Kept runner pool ⟨home, (done ++ group).map InboxMessage.id⟩ next) :
    Looping runner pool start messages (done ++ group) [] rest progress next where
  split := by rw [append_nil]; exact looping.split
  kept := looping.kept.rebase kept fun id isDone => by
    rw [map_append]
    exact mem_append_left _ isDone
  missing := by simp
  unplanned := by simp
  loaded := looping.loaded
  batches := by
    intro canonical batch isBatch
    obtain ⟨old, loaded⟩ := looping.batches canonical batch isBatch
    exact ⟨old, loaded.later kept.extend⟩
  processed := by
    intro message isDone record isRecord
    rcases mem_append.mp isDone with before | isGroup
    · exact looping.processed message before record isRecord
    · have present := looping.kept.extend.present (show start.effects message.id ≠ none by simp [isRecord])
      exact absurd (looping.missing message isGroup) present

theorem Looping.ready (looping : Looping runner pool start messages done group rest progress home) :
    Ready runner pool ⟨home, (done ++ group).map InboxMessage.id⟩ group home where
  kept := ⟨looping.kept.sound, Extends.refl, fun _ plan stored => .inl ⟨plan, stored⟩⟩
  missing := looping.missing
  unplanned := looping.unplanned
  counted := fun message isGroup => by
    rw [map_append]
    exact mem_append_right _ (mem_map_of_mem isGroup)

theorem Drawn.part (drawn : Drawn pool messages) (split : messages = done ++ group ++ rest) :
    Drawn pool group where
  distinct := by
    have distinct := drawn.distinct
    rw [split, map_append, map_append] at distinct
    exact (distinct.of_append_left).of_append_right
  pooled := fun message isGroup => drawn.pooled message (by rw [split]; simp [isGroup])

theorem internalizeGroup_meets (drawn : Drawn pool messages) :
    Lands runner pool (start.reading messages) (Looping runner pool start messages done group rest progress)
      (internalizeGroup runner group progress)
      (fun next home => Looping runner pool start messages (done ++ group) [] rest next home ∧
        next.batches = progress.batches ∧ next.appliedBatches = progress.appliedBatches) := by
  unfold internalizeGroup
  split_ifs with isEmpty
  · rw [isEmpty_iff.mp isEmpty]
    refine Meets.ok fun home looping => ?_
    rw [append_nil]
    exact ⟨looping, rfl, rfl⟩
  · refine pin fun seen looping => ?_
    have wide : ∀ home, Kept runner pool ⟨seen, (done ++ group).map InboxMessage.id⟩ home →
        Kept runner pool (start.reading messages) home := by
      intro home kept
      exact (looping.planned kept).whole
    have run : Lands runner pool ⟨seen, (done ++ group).map InboxMessage.id⟩ (Ready runner pool ⟨seen, (done ++ group).map InboxMessage.id⟩ group)
        (prepareClaimAttributeUpdateEffect runner group >>= fun plan =>
          persistPreparedPlan plan >>= fun _ => applyPersistedPlan runner plan >>= fun applied =>
            pure { progress with summary := progress.summary.extend (effectSummary applied) })
        (fun next home => Looping runner pool start messages (done ++ group) [] rest next home ∧
          next.batches = progress.batches ∧ next.appliedBatches = progress.appliedBatches) := by
      refine bind (prepare_meets (drawn.part looping.split)) fun plan =>
        given fun made => ?_
      refine bind (persist_meets made.1 made.2) fun _ => ?_
      refine bind (applyPersistedPlan_meets ⟨group, made.1⟩) fun applied => ?_
      refine Meets.ok fun home holds => ?_
      exact ⟨{ looping.planned holds.1.stored.kept with }, rfl, rfl⟩
    refine relax (weaken run ?_ fun _ _ holds => holds) ?_ wide
    · rintro home rfl
      exact looping.ready
    · exact fun failure home fine => ⟨fine.1, wide home fine.2⟩

structure Suits (runner : Runner) (message : InboxMessage) (batch : InboxEffectPlan)
    (record : InboxEffectRecord) : Prop where
  plan : ∀ plan, record = .plan plan → plan = batch
  ref : ∀ reference, record = .ref reference → validateEffectRef reference batch = true
  member : validateEffectPlanMessageMember runner batch message = .ok ()

variable {batch : InboxEffectPlan}

theorem Suits.matches (suits : Suits runner message batch record) :
    matchesBatch message batch record = pure () := by
  cases record with
  | plan plan =>
    rw [matchesBatch, suits.plan plan rfl]
    simp only [Checked.ensure, decide_true, if_true]
    rfl
  | ref reference =>
    rw [matchesBatch, suits.ref reference rfl]
    rfl

theorem loadEffectBatch_suits (suits : Suits runner message batch record)
    (isBatch : progress.batches (canonicalId record) = some batch) :
    loadEffectBatch runner message record progress = pure (batch, progress) := by
  have restored : update progress.batches (canonicalId record) (some batch) =
      progress.batches := by
    rw [← isBatch]
    exact Function.update_eq_self _ _
  have found : loadedBatch runner message record progress = pure batch := by
    unfold loadedBatch
    rw [isBatch]
  unfold loadEffectBatch
  rw [found]
  show (matchesBatch message batch record >>= fun _ =>
    Checked.ofExcept (validateEffectPlanMessageMember runner batch message) >>= fun _ => pure _) = _
  rw [suits.matches, suits.member, restored]
  rfl

theorem Looping.passed {next : AgentHome} {later : Progress}
    (looping : Looping runner pool start messages done [] (message :: rest) progress home)
    (kept : Kept runner pool ⟨home, done.map InboxMessage.id⟩ next)
    (loaded : ∀ message ∈ messages, ∀ record, start.effects message.id = some record →
      ∃ batch, later.batches (canonicalId record) = some batch)
    (batches : ∀ canonical batch, later.batches canonical = some batch →
      ∃ old, Loaded start rest later.appliedBatches canonical batch old next)
    (more : ∀ id ∈ progress.appliedBatches, id ∈ later.appliedBatches)
    (own : ∀ record, start.effects message.id = some record →
      canonicalId record ∈ later.appliedBatches) :
    Looping runner pool start messages (done ++ [message]) [] rest later next where
  split := by
    rw [append_nil, looping.split]
    simp
  kept := by
    have whole := looping.kept.rebase kept fun id isDone => isDone
    refine whole.grow fun id isDone => ?_
    rw [map_append]
    exact mem_append_left _ isDone
  missing := by simp
  unplanned := by simp
  loaded := loaded
  batches := batches
  processed := by
    intro other isDone record isRecord
    rcases mem_concat isDone with before | rfl
    · exact more _ (looping.processed other before record isRecord)
    · exact own record isRecord

theorem Loaded.next {batch : InboxEffectPlan}
    (loaded : Loaded start (message :: rest) applied canonical batch old home) :
    Loaded start rest applied canonical batch old home :=
  { loaded with
    passed := fun isApplied prepared other isOther =>
      loaded.passed isApplied prepared other (mem_cons_of_mem _ isOther) }

theorem Orderly.notLater (orderly : Orderly start messages)
    (split : messages = done ++ message :: rest)
    (stored : start.effects canonical = some (.plan old)) (prepared : old.state = .prepared)
    (isMember : message.id ∈ memberIds old) (isFirst : canonical ∈ memberIds old) :
    ∀ other ∈ rest, other.id ≠ canonical := by
  intro other isOther same
  obtain ⟨front, back, isRest⟩ := append_of_mem isOther
  have wholeSplit : messages = (done ++ message :: front) ++ other :: back := by
    rw [split, isRest]
    simp
  obtain ⟨first, -⟩ := orderly canonical old stored prepared _ other back wholeSplit
    (by rw [same]; exact isFirst)
  exact first same message (by simp) isMember

variable (sound : JournalSound runner pool start.effects)

include sound in
theorem internalizeRecorded_meets {batch : InboxEffectPlan} (orderly : Orderly start messages)
    (suits : Suits runner message batch record)
    (isBatch : progress.batches (canonicalId record) = some batch)
    (isMember : message.id ∈ memberIds batch)
    (own : ∀ other, start.effects message.id = some other → canonicalId other = canonicalId record)
    (looping : Looping runner pool start messages done [] (message :: rest) progress seen)
    (loaded : Loaded start (message :: rest) progress.appliedBatches (canonicalId record) batch old
      seen) : Lands runner pool (start.reading messages) (fun home => home = seen) (internalizeRecorded runner message record progress)
      (Looping runner pool start messages (done ++ [message]) [] rest) := by
  have here : Kept runner pool ⟨seen, done.map InboxMessage.id⟩ seen :=
    ⟨looping.kept.sound, Extends.refl, fun _ plan stored => .inl ⟨plan, stored⟩⟩
  unfold internalizeRecorded
  rw [loadEffectBatch_suits suits isBatch]
  show Meets _ (if canonicalId record ∈ progress.appliedBatches then _ else _) _ _ _
  split_ifs with applied
  · refine Meets.ok ?_
    rintro home rfl
    refine looping.passed here looping.loaded ?_ (fun _ among => among) ?_
    · intro canonical other isOther
      obtain ⟨before, otherLoaded⟩ := looping.batches canonical other isOther
      exact ⟨before, otherLoaded.next⟩
    · intro other isRecord
      rw [own other isRecord]
      exact applied
  · have isOld := loaded.untouched applied
    subst isOld
    obtain ⟨isCanonical, planned⟩ := sound.planned _ batch loaded.stored
    have wide : ∀ home, Kept runner pool ⟨seen, done.map InboxMessage.id⟩ home →
        Kept runner pool (start.reading messages) home := by
      intro home kept
      refine (looping.kept.rebase kept fun id isDone => isDone).grow fun id isDone => ?_
      rw [looping.split, map_append, map_append]
      exact mem_append_left _ (mem_append_left _ isDone)
    have run : Lands runner pool ⟨seen, done.map InboxMessage.id⟩ (Stored runner pool ⟨seen, done.map InboxMessage.id⟩ batch)
        (applyPersistedPlan runner batch >>= fun applied => pure
          { batches := update progress.batches (canonicalId record) (some applied)
            appliedBatches := canonicalId record :: progress.appliedBatches
            summary := progress.summary.extend (effectSummary applied) })
        (Looping runner pool start messages (done ++ [message]) [] rest) := by
      refine bind (applyPersistedPlan_meets planned) fun after => ?_
      refine Meets.ok fun home holds => ?_
      obtain ⟨referred, same, unchanged⟩ := holds
      have split := looping.split
      refine looping.passed referred.stored.kept ?_ ?_ (fun _ among => mem_cons_of_mem _ among) ?_
      · intro other isOther otherRecord isRecord
        obtain ⟨otherBatch, isOtherBatch⟩ := looping.loaded other isOther otherRecord isRecord
        by_cases isSame : canonicalId otherRecord = canonicalId record
        · exact ⟨after, by simp [isSame]⟩
        · exact ⟨otherBatch, by simpa only [update_of_ne isSame] using isOtherBatch⟩
      · intro canonical other isOther
        rcases update_cases isOther with ⟨rfl, written⟩ | ⟨isSame, isOther⟩
        · cases written
          refine ⟨batch, loaded.stored, same, fun notApplied => ?_, fun _ => unchanged, fun _ => ?_,
            fun _ => referred.complete⟩
          · exact absurd mem_cons_self notApplied
          · intro prepared
            refine orderly.notLater split loaded.stored prepared isMember ?_
            rw [← isCanonical]
            exact planned.canonical
        · obtain ⟨before, otherLoaded⟩ := looping.batches canonical other isOther
          have later := (otherLoaded.next).later referred.stored.kept.extend
          have stays : canonical ∈ canonicalId record :: progress.appliedBatches →
              canonical ∈ progress.appliedBatches := by
            intro among
            rcases mem_cons.mp among with isNew | isOld
            · exact absurd isNew isSame
            · exact isOld
          exact ⟨before, later.stored, later.same,
            fun notApplied => later.untouched fun among => notApplied (mem_cons_of_mem _ among),
            fun among => later.unchanged (stays among), fun among => later.passed (stays among),
            fun among => later.complete (stays among)⟩
      · intro other isRecord
        rw [own other isRecord]
        exact mem_cons_self
    refine relax (weaken run ?_ fun _ _ holds => holds) ?_ wide
    · rintro home rfl
      refine ⟨here, ?_⟩
      obtain ⟨current, isCurrent, same⟩ := looping.kept.extend.plans _ batch loaded.stored
      exact ⟨current, by rw [isCanonical]; exact isCurrent, same⟩
    · exact fun failure home fine => ⟨fine.1, wide home fine.2⟩

theorem validRef_of_same (sound : JournalSound runner pool effects)
    (found : effects id = some (.ref reference))
    (same : ∀ plan, effects reference.canonicalInboxId = some (.plan plan) → SameBatch plan batch) :
    validateEffectRef reference batch = true := by
  obtain ⟨owner, hash, isOwner, -, isHash, isRef⟩ := sound.referred id reference found
  have batchOf := same owner isOwner
  cases isRef
  simp [validateEffectRef, batchOf.inboxId, batchOf.batchHash, isHash]

section

variable (looping : Looping runner pool start messages done group (message :: rest) progress home)
  (sound : JournalSound runner pool start.effects) (drawn : Drawn pool messages)
include looping sound drawn

theorem Looping.suits (isRecord : start.effects message.id = some record)
    (isBatch : progress.batches (canonicalId record) = some batch) :
    Suits runner message batch record ∧ message.id ∈ memberIds batch := by
  obtain ⟨old, loaded⟩ := looping.batches _ batch isBatch
  obtain ⟨plan, isPlan, isMember⟩ := member_of_record sound isRecord
  rw [loaded.stored] at isPlan
  cases isPlan
  rw [← loaded.same.memberIds] at isMember
  have pooled := drawn.pooled message (by rw [looping.split]; simp)
  obtain ⟨-, planMessages, planFor⟩ := sound.planned _ old loaded.stored
  refine ⟨⟨?_, ?_, Planned.member ⟨planMessages, planFor.same loaded.same⟩ isMember pooled⟩, isMember⟩
  · rintro plan rfl
    have isId := (sound.planned _ plan isRecord).1
    have stored := loaded.stored
    rw [canonicalId, isId, isRecord] at stored
    cases stored
    by_cases applied : canonicalId (.plan old) ∈ progress.appliedBatches
    · cases isState : old.state with
      | applied => exact (loaded.unchanged applied isState).symm
      | prepared => exact absurd isId.symm (loaded.passed applied isState message mem_cons_self)
    · exact (loaded.untouched applied).symm
  · rintro reference rfl
    refine validRef_of_same sound isRecord fun plan isPlan => ?_
    have stored := loaded.stored
    rw [canonicalId, isPlan] at stored
    cases stored
    exact loaded.same

theorem Looping.suits_since
    (orderly : Orderly start messages) (noRecord : start.effects message.id = none)
    (isRecord : home.effects message.id = some record) :
    ∃ batch, progress.batches (canonicalId record) = some batch ∧
      Suits runner message batch record ∧ message.id ∈ memberIds batch := by
  obtain ⟨plan, isPlan, isMember⟩ := member_of_record looping.kept.sound isRecord
  obtain ⟨-, batch, old, isBatch, loaded⟩ :=
    looping.coming sound drawn orderly noRecord isPlan isMember
  obtain ⟨next, isNext, same⟩ := looping.kept.extend.plans _ old loaded.stored
  rw [isPlan] at isNext
  cases isNext
  rw [same.memberIds, ← loaded.same.memberIds] at isMember
  have pooled := drawn.pooled message (by rw [looping.split]; simp)
  obtain ⟨-, planMessages, planFor⟩ := sound.planned _ old loaded.stored
  refine ⟨batch, isBatch, ⟨?_, ?_, Planned.member ⟨planMessages, planFor.same loaded.same⟩ isMember
    pooled⟩, isMember⟩
  · rintro own rfl
    have isId := (looping.kept.sound.planned _ own isRecord).1
    have stored := loaded.stored
    rw [canonicalId, isId, noRecord] at stored
    cases stored
  · rintro reference rfl
    refine validRef_of_same looping.kept.sound isRecord fun found isFound => ?_
    rw [canonicalId] at isPlan
    rw [isPlan] at isFound
    cases isFound
    exact same.symm.trans loaded.same

theorem Looping.join (orderly : Orderly start messages) (noRecord : start.effects message.id = none)
    (missing : home.effects message.id = none) :
    Looping runner pool start messages done (group ++ [message]) rest progress home :=
  { looping with
    split := by
      rw [looping.split]
      simp
    missing := by
      intro other isOther
      rcases mem_concat isOther with isGroup | rfl
      · exact looping.missing other isGroup
      · exact missing
    unplanned := by
      intro other isOther
      rcases mem_concat isOther with isGroup | rfl
      · exact looping.unplanned other isGroup
      · intro canonical plan stored isMember
        obtain ⟨applied, batch, old, -, loaded⟩ :=
          looping.coming sound drawn orderly noRecord stored isMember
        obtain ⟨next, isNext, same⟩ := looping.kept.extend.plans _ old loaded.stored
        rw [stored] at isNext
        cases isNext
        rw [same.memberIds] at isMember
        exact loaded.complete applied _ isMember missing
    batches := by
      intro canonical batch isBatch
      obtain ⟨old, loaded⟩ := looping.batches canonical batch isBatch
      exact ⟨old, loaded.next⟩ }

end

include sound in
theorem flush_meets (drawn : Drawn pool messages) (orderly : Orderly start messages)
    (looping : Looping runner pool start messages done group (message :: rest) progress seen)
    (isBatch : progress.batches (canonicalId record) = some batch)
    (suits : Suits runner message batch record) (isMember : message.id ∈ memberIds batch)
    (own : ∀ other, start.effects message.id = some other → canonicalId other = canonicalId record)
    (goesOn : ∀ later, Lands runner pool (start.reading messages)
      (Looping runner pool start messages (done ++ group ++ [message]) [] rest later) (onward later)
      (fun _ => Kept runner pool (start.reading messages))) : Lands runner pool (start.reading messages) (fun home => home = seen)
      (internalizeGroup runner group progress >>= fun next =>
        internalizeRecorded runner message record next >>= onward)
      (fun _ => Kept runner pool (start.reading messages)) := by
  have planned : Lands runner pool (start.reading messages) (fun home => home = seen) (internalizeGroup runner group progress)
      (fun next home => Looping runner pool start messages (done ++ group) [] (message :: rest) next
          home ∧ next.batches = progress.batches ∧ next.appliedBatches = progress.appliedBatches) :=
    weaken (internalizeGroup_meets drawn) (fun home same => same ▸ looping) fun _ _ holds => holds
  refine bind planned fun next => pin fun middle holds => ?_
  obtain ⟨begun, sameBatches, -⟩ := holds
  rw [← sameBatches] at isBatch
  obtain ⟨old, loaded⟩ := begun.batches _ batch isBatch
  exact bind (internalizeRecorded_meets sound orderly suits isBatch isMember own begun loaded)
    goesOn

theorem internalizeFrom_meets (sound : JournalSound runner pool start.effects)
    (drawn : Drawn pool messages) (orderly : Orderly start messages) :
    Lands runner pool (start.reading messages) (Looping runner pool start messages done group rest progress)
      (internalizeFrom runner group progress
        (rest.map fun message => (message, start.effects message.id)))
      (fun _ => Kept runner pool (start.reading messages)) := by
  induction rest generalizing done group progress with
  | nil =>
    exact weaken (internalizeGroup_meets drawn) (fun _ looping => looping)
      fun _ _ holds => holds.1.whole
  | cons message rest ih =>
    refine pin fun seen looping => ?_
    rw [map_cons, internalizeFrom]
    cases isRecord : start.effects message.id with
    | some record =>
      obtain ⟨batch, isBatch⟩ := looping.loaded message (by rw [looping.split]; simp) record isRecord
      obtain ⟨suits, isMember⟩ := looping.suits sound drawn isRecord isBatch
      refine flush_meets sound drawn orderly looping isBatch suits isMember ?_ fun later => ih
      intro other isOther
      rw [isRecord] at isOther
      cases isOther
      rfl
    | none =>
      refine @look AgentHome InboxEffectError _ _ _ _ _ _ fun found => pin ?_
      rintro there ⟨isFound, isSeen⟩
      subst isSeen
      subst isFound
      cases hasRecord : there.effects message.id with
      | none =>
        exact weaken ih (fun home same => same ▸
          looping.join sound drawn orderly isRecord hasRecord) fun _ _ holds => holds
      | some record =>
        obtain ⟨batch, isBatch, suits, isMember⟩ :=
          looping.suits_since sound drawn orderly isRecord hasRecord
        refine flush_meets sound drawn orderly looping isBatch suits isMember ?_ fun later => ih
        intro other isOther
        rw [isRecord] at isOther
        cases isOther

structure Loading (start : AgentHome) (passed : List InboxMessage) (progress : Progress) : Prop where
  batches : ∀ canonical batch, progress.batches canonical = some batch →
    start.effects canonical = some (.plan batch)
  loaded : ∀ message ∈ passed, ∀ record, start.effects message.id = some record →
    ∃ batch, progress.batches (canonicalId record) = some batch
  applied : progress.appliedBatches = []

variable {passed : List InboxMessage}

include sound

theorem loadEffectBatch_meets (pooled : pool message.id = message)
    (isRecord : start.effects message.id = some record) (loading : Loading start passed progress) :
    Lands runner pool (start.reading messages) (fun home => home = start) (loadEffectBatch runner message record progress)
      (fun loaded home => home = start ∧ Loading start (passed ++ [message]) loaded.2) := by
  obtain ⟨plan, isPlan, isMember⟩ := member_of_record sound isRecord
  obtain ⟨isCanonical, planned⟩ := sound.planned _ plan isPlan
  obtain ⟨planMessages, planFor⟩ := planned
  have found : Lands runner pool (start.reading messages) (fun home => home = start) (loadedBatch runner message record progress)
      (fun batch home => home = start ∧ batch = plan) := by
    unfold loadedBatch
    split
    · rename_i batch isBatch
      have stored := loading.batches _ batch isBatch
      rw [isPlan] at stored
      cases stored
      exact Meets.ok fun _ same => ⟨same, rfl⟩
    · have read : Lands runner pool (start.reading messages) (fun home => home = start) (readCanonicalPlan message record)
          (fun batch home => home = start ∧ batch = plan) := by
        cases record with
        | plan own =>
          have isId := (sound.planned _ own isRecord).1
          rw [canonicalId, isId, isRecord] at isPlan
          cases isPlan
          exact Meets.ok fun _ same => ⟨same, rfl⟩
        | ref reference =>
          refine look fun seen => pin ?_
          rintro there ⟨rfl, rfl⟩
          rw [canonicalId] at isPlan
          rw [isPlan]
          exact Meets.ok fun _ same => ⟨same, rfl⟩
      refine bind read fun batch => given ?_
      rintro rfl
      refine ensure (fun invalid => ?_) fun _ => Meets.ok fun _ same => ⟨same, rfl⟩
      rw [planFor.integrity] at invalid
      cases invalid
  refine bind found fun batch => given ?_
  rintro rfl
  have suits : Suits runner message batch record := by
    refine ⟨?_, ?_, Planned.member ⟨planMessages, planFor⟩ isMember pooled⟩
    · rintro own rfl
      have isId := (sound.planned _ own isRecord).1
      rw [canonicalId, isId, isRecord] at isPlan
      cases isPlan
      rfl
    · rintro reference rfl
      refine validRef_of_same sound isRecord fun other isOther => ?_
      rw [canonicalId, isOther] at isPlan
      cases isPlan
      exact SameBatch.refl
  rw [suits.matches, suits.member]
  refine Meets.ok fun home same => ⟨same, ?_, ?_, loading.applied⟩
  · intro canonical other isOther
    rcases update_cases isOther with ⟨rfl, written⟩ | ⟨isSame, isOther⟩
    · cases written
      exact isPlan
    · exact loading.batches canonical other isOther
  · intro other isOther otherRecord isOtherRecord
    by_cases isSame : canonicalId otherRecord = canonicalId record
    · exact ⟨batch, by simp [isSame]⟩
    · rcases mem_concat isOther with before | isNow
      · obtain ⟨loaded, isLoaded⟩ := loading.loaded other before otherRecord isOtherRecord
        exact ⟨loaded, by simpa only [update_of_ne isSame] using isLoaded⟩
      · rw [isNow, isRecord] at isOtherRecord
        cases isOtherRecord
        exact absurd rfl isSame

theorem loadRecorded_meets (pooled : pool message.id = message) :
    Lands runner pool (start.reading messages) (fun home => home = start ∧ Loading start passed progress)
      (loadRecorded runner progress (message, start.effects message.id))
      (fun next home => home = start ∧ Loading start (passed ++ [message]) next) := by
  refine given fun loading => ?_
  cases isRecord : start.effects message.id with
  | some record =>
    refine bind (loadEffectBatch_meets sound pooled isRecord loading) fun loaded => ?_
    exact Meets.ok fun _ holds => holds
  | none =>
    refine Meets.ok fun home same => ⟨same, loading.batches, ?_, loading.applied⟩
    intro other isOther record isOtherRecord
    rcases mem_concat isOther with before | isNow
    · exact loading.loaded other before record isOtherRecord
    · rw [isNow, isRecord] at isOtherRecord
      cases isOtherRecord

theorem loadAll_meets (drawn : Drawn pool messages) :
    Lands runner pool (start.reading messages) (fun home => home = start)
      (Checked.fold (messages.map fun message => (message, start.effects message.id))
        (loadRecorded runner) emptyProgress)
      (fun next home => home = start ∧ Loading start messages next) := by
  have loop := @Meets.fold AgentHome InboxEffectError Progress
    (InboxMessage × Option InboxEffectRecord)
    (Fine runner pool (start.reading messages))
    (Kept runner pool (start.reading messages)) (loadRecorded runner)
    (fun passed next home => home = start ∧ Loading start (passed.map Prod.fst) next) []
    (messages.map fun message => (message, start.effects message.id)) emptyProgress ?_
  · refine weaken loop ?_ ?_
    · rintro home rfl
      refine ⟨rfl, ?_, by simp, rfl⟩
      intro canonical batch isBatch
      cases isBatch
    · intro next home holds
      simpa [map_map, Function.comp_def] using holds
  · intro passed item left progress split
    have among : item ∈ messages.map fun message => (message, start.effects message.id) := by
      rw [split]
      simp
    obtain ⟨message, isMessage, rfl⟩ := mem_map.mp among
    refine weaken (loadRecorded_meets sound (drawn.pooled message isMessage))
      (fun _ holds => holds) fun next home holds => ?_
    simpa using holds

omit sound

theorem checkMessage_fine {failure : InboxEffectError} (isFailure : checkMessage message = .error failure) :
    failure.isConflict = false := by
  unfold checkMessage at isFailure
  split at isFailure
  · cases isFailure
    rfl
  · cases isFailure
  · split_ifs at isFailure
    cases isFailure
    rfl

theorem call_meets (sound : JournalSound runner pool start.effects) (drawn : Drawn pool messages)
    (orderly : Orderly start messages) :
    Lands runner pool (start.reading messages) (fun home => home = start) (internalizeClaimAttributeUpdateMessages runner messages)
      (fun _ => Kept runner pool (start.reading messages)) := by
  have here : ∀ fresh, Kept runner pool ⟨start, fresh⟩ start := fun _ =>
    ⟨sound, Extends.refl, fun _ plan stored => .inl ⟨plan, stored⟩⟩
  unfold internalizeClaimAttributeUpdateMessages
  split_ifs
  · refine Meets.ok ?_
    rintro home rfl
    exact here _
  · have checked := @Meets.forAll AgentHome InboxEffectError InboxMessage
      (Fine runner pool (start.reading messages))
      (Kept runner pool (start.reading messages))
      (fun message => Checked.ofExcept (checkMessage message)) (fun _ home => home = start) []
      messages fun _ message _ _ => Meets.ofExcept
        (fun failure isFailure home same => ⟨checkMessage_fine isFailure, same ▸ here _⟩)
        fun _ _ _ same => same
    refine bind checked fun _ => look fun seen => pin ?_
    rintro there ⟨rfl, rfl⟩
    refine ensure (fun _ home same => ⟨rfl, same ▸ here _⟩) fun _ => ?_
    refine bind (loadAll_meets sound drawn) fun progress => given fun loading => ?_
    have looped : Lands runner pool (there.reading messages) (fun home => home = there) (internalizeFrom runner [] progress
          (messages.map fun message => (message, there.effects message.id)))
        (fun _ => Kept runner pool (there.reading messages)) := by
      refine weaken (@internalizeFrom_meets runner pool there messages [] [] messages progress
        sound drawn orderly) ?_ fun _ _ holds => holds
      rintro home rfl
      refine ⟨rfl, here _, by simp, by simp, loading.loaded, ?_, by simp⟩
      intro canonical batch isBatch
      have none : ∀ id, id ∉ progress.appliedBatches := by simp [loading.applied]
      exact ⟨batch, loading.batches canonical batch isBatch, SameBatch.refl, fun _ => rfl,
        fun among => absurd among (none _), fun among => absurd among (none _),
        fun among => absurd among (none _)⟩
    refine bind looped fun next => ?_
    have delivered : Lands runner pool (there.reading messages) (Kept runner pool (there.reading messages))
        (Checked.write fun home => { home with uploads := runner.deliver home.uploads })
        (fun _ => Kept runner pool (there.reading messages)) :=
      write (fun _ kept => kept) fun home kept => kept.beside rfl rfl
    exact bind delivered fun _ => Meets.ok fun _ kept => kept

end

variable {runner caller : Runner} {pool : InboxId → InboxMessage} {home next later : AgentHome}

def SameHashes (runner caller : Runner) : Prop :=
  caller.messageHash = runner.messageHash ∧ caller.membersHash = runner.membersHash

theorem JournalSound.agree {effects : Effects} (sound : JournalSound runner pool effects)
    (same : SameHashes runner caller) : JournalSound caller pool effects := by
  have members : effectMember caller = effectMember runner := by
    funext message
    simp only [effectMember, same.1]
  have fields : batchFields caller = batchFields runner := by
    funext members
    simp only [batchFields, same.2]
  refine ⟨?_, sound.referred, sound.unique, sound.complete⟩
  intro id plan stored
  obtain ⟨isId, messages, planFor⟩ := sound.planned id plan stored
  refine ⟨isId, messages, planFor.distinct, planFor.pooled, ?_, planFor.version, ?_⟩
  · rw [members]
    exact planFor.canonical
  · rw [members, fields]
    exact planFor.batch

inductive EffectEvent
  | call (caller : Runner) (messages : List InboxMessage) (fates : List Fate)
  | others

def EffectStep (runner : Runner) (pool : InboxId → InboxMessage) (home : AgentHome) :
    EffectEvent → AgentHome → Prop
  | .call caller messages fates, next => SameHashes runner caller ∧ Drawn pool messages ∧
      next = (internalizeClaimAttributeUpdateMessages caller messages home fates).store
  | .others, next => next.effects = home.effects ∧ next.asked = home.asked

def OrderlyStep (runner : Runner) (pool : InboxId → InboxMessage) (home : AgentHome)
    (event : EffectEvent) (next : AgentHome) : Prop :=
  EffectStep runner pool home event next ∧
    ∀ caller messages fates, event = .call caller messages fates → Orderly home messages

theorem orderly_step (step : OrderlyStep runner pool home event next)
    (sound : JournalSound runner pool home.effects) :
    JournalSound runner pool next.effects ∧ Extends home next := by
  obtain ⟨step, orderly⟩ := step
  cases event with
  | others =>
    have kept : Kept runner pool ⟨home, []⟩ home :=
      ⟨sound, Extends.refl, fun _ plan stored => .inl ⟨plan, stored⟩⟩
    have later := kept.beside step.1 step.2
    exact ⟨later.sound, later.extend⟩
  | call caller messages fates =>
    obtain ⟨same, drawn, rfl⟩ := step
    have meets := @call_meets caller pool home messages (sound.agree same) drawn
      (orderly caller messages fates rfl)
    have kept := Triple.ends (Triple.weaken meets (fun _ holds => holds) (by
      intro answer store holds
      cases answer with
      | ok summary => exact holds
      | error failure => exact holds.2)) fates rfl
    exact ⟨kept.sound.agree ⟨same.1.symm, same.2.symm⟩, kept.extend⟩

theorem orderly_run (run : Trace (OrderlyStep runner pool) home events next)
    (sound : JournalSound runner pool home.effects) :
    JournalSound runner pool next.effects ∧ Extends home next := by
  induction run with
  | nil => exact ⟨sound, Extends.refl⟩
  | snoc earlier taken ih =>
    obtain ⟨laterSound, extend⟩ := orderly_step taken ih.1
    exact ⟨laterSound, ih.2.trans extend⟩

theorem emptyJournal_sound {effects : Effects} (empty : ∀ id, effects id = none) :
    JournalSound runner pool effects := by
  have absurdRecord : ∀ id record, effects id ≠ some record := by
    intro id record found
    rw [empty id] at found
    cases found
  exact ⟨fun id _ found => absurd found (absurdRecord id _), fun id _ found =>
    absurd found (absurdRecord id _), fun id _ _ _ _ found => absurd found (absurdRecord id _),
    fun id _ found => absurd found (absurdRecord id _)⟩

/-- In a run of orderly calls that each stop anywhere, no message gets into two plans, the generator is
not asked for a message that has a plan, and no call fails over the journal. -/
theorem orderly_run_plans_once {first : AgentHome} {before after : List EffectEvent}
    (empty : ∀ id, first.effects id = none)
    (run : Trace (OrderlyStep runner pool) first before home)
    (goesOn : Trace (OrderlyStep runner pool) home after later) :
    (∀ left right plan other id, home.effects left = some (.plan plan) →
      later.effects right = some (.plan other) → id ∈ memberIds plan → id ∈ memberIds other →
        left = right) ∧
    (∀ canonical plan id, home.effects canonical = some (.plan plan) → id ∈ memberIds plan →
      timesAsked later id = timesAsked home id) ∧
    ∀ caller messages fates failure last rest,
      OrderlyStep runner pool later (.call caller messages fates) last →
      internalizeClaimAttributeUpdateMessages caller messages later fates =
        .value (.error failure) last rest → failure.isConflict = false := by
  obtain ⟨sound, -⟩ := orderly_run run (emptyJournal_sound empty)
  obtain ⟨laterSound, extend⟩ := orderly_run goesOn sound
  refine ⟨?_, extend.asked, ?_⟩
  · intro left right plan other id isPlan isOther inPlan inOther
    obtain ⟨kept, isKept, same⟩ := extend.plans left plan isPlan
    rw [← same.memberIds] at inPlan
    exact laterSound.unique left right kept other id isKept isOther inPlan inOther
  · intro caller messages fates failure last rest step failed
    obtain ⟨⟨same, drawn, -⟩, orderly⟩ := step
    have ends := @call_meets caller pool later messages (laterSound.agree same) drawn
      (orderly caller messages fates rfl) later fates rfl
    rw [failed] at ends
    exact ends.1

def samplePolicyMessage (id : InboxId) : InboxMessage :=
  ⟨id, .claimAttributeUpdate ⟨"policy_1", .claimAttributeUpdate, "name", "statement", "scope",
    .active, 5, none, none⟩ none, none⟩

def sampleRunner : Runner where
  agentId := "agent"
  hasMaintainerClient := false
  hasRouter := false
  messageHash := fun message => message.id
  membersHash := fun _ => "batch"
  claimHash := fun claim => claim.id
  traceId := fun _ name _ _ => name
  generate := fun _ => some ⟨5, [], [], []⟩
  deliver := fun uploads => uploads

def emptyHome : AgentHome where
  effects := fun _ => none
  claims := KeyedMap.empty
  traces := fun _ => none
  uploads := .empty
  reportedClaimSets := fun _ => none
  dreamPending := false
  asked := []

def plannedHome : AgentHome :=
  (internalizeClaimAttributeUpdateMessages sampleRunner
    [samplePolicyMessage "inbox_1", samplePolicyMessage "inbox_2"] emptyHome [.done]).store

theorem sample_drawn (ids : List InboxId) (distinct : ids.Nodup) :
    Drawn samplePolicyMessage (ids.map samplePolicyMessage) where
  distinct := by
    rw [map_map]
    have same : InboxMessage.id ∘ samplePolicyMessage = id := rfl
    rw [same, map_id]
    exact distinct
  pooled := by
    intro message among
    obtain ⟨id, -, rfl⟩ := mem_map.mp among
    rfl

theorem emptyHome_orderly : Orderly emptyHome messages := by
  intro canonical plan stored
  cases stored

theorem plannedHome_orderly : Orderly plannedHome [samplePolicyMessage "inbox_1"] := by
  intro canonical plan stored prepared earlier message later split isMember
  have alone : earlier = [] ∧ message = samplePolicyMessage "inbox_1" := by
    cases earlier with
    | nil => exact ⟨rfl, (List.cons.inj split).1.symm⟩
    | cons head rest => simp at split
  obtain ⟨rfl, rfl⟩ := alone
  refine ⟨fun _ => by simp, fun missing => ?_⟩
  have there : (plannedHome.effects "inbox_1").isSome = true := rfl
  rw [show plannedHome.effects "inbox_1" = none from missing] at there
  cases there

/-- The first message alone finishes a plan of two that stopped early; nobody is asked again. -/
theorem orderly_run_plans_once_resumed :
    let resumed := (internalizeClaimAttributeUpdateMessages sampleRunner
      [samplePolicyMessage "inbox_1"] plannedHome (replicate 9 .done)).store
    (∃ plan, plannedHome.effects "inbox_1" = some (.plan plan) ∧ "inbox_2" ∈ memberIds plan) ∧
      (∃ record, resumed.effects "inbox_2" = some record) ∧
      timesAsked resumed "inbox_2" = timesAsked plannedHome "inbox_2" := by
  refine ⟨⟨_, rfl, by decide⟩, ⟨_, rfl⟩, ?_⟩
  have begins : OrderlyStep sampleRunner samplePolicyMessage emptyHome
      (.call sampleRunner [samplePolicyMessage "inbox_1", samplePolicyMessage "inbox_2"] [.done])
      plannedHome :=
    ⟨⟨⟨rfl, rfl⟩, sample_drawn ["inbox_1", "inbox_2"] (by decide), rfl⟩, by
      rintro caller messages fates same
      exact emptyHome_orderly⟩
  have resumes : OrderlyStep sampleRunner samplePolicyMessage plannedHome
      (.call sampleRunner [samplePolicyMessage "inbox_1"] (replicate 9 .done)) _ :=
    ⟨⟨⟨rfl, rfl⟩, sample_drawn ["inbox_1"] (by decide), rfl⟩, by
      rintro caller messages fates same
      cases same
      exact plannedHome_orderly⟩
  have once := orderly_run_plans_once (fun _ => rfl) (Trace.single begins) (Trace.single resumes)
  exact once.2.1 "inbox_1" _ "inbox_2" rfl (by decide)

/-- A call on the second message alone plans it again, and then the first one is stuck; and a plan
whose references are there is stuck when the second message comes before the first. -/
theorem second_plan_of_message :
    let again := internalizeClaimAttributeUpdateMessages sampleRunner [samplePolicyMessage "inbox_2"]
      plannedHome (replicate 9 .done)
    EffectStep sampleRunner samplePolicyMessage emptyHome
        (.call sampleRunner [samplePolicyMessage "inbox_1", samplePolicyMessage "inbox_2"] [.done])
        plannedHome ∧
      EffectStep sampleRunner samplePolicyMessage plannedHome
        (.call sampleRunner [samplePolicyMessage "inbox_2"] (replicate 9 .done)) again.store ∧
      (∃ plan other, again.store.effects "inbox_1" = some (.plan plan) ∧
        again.store.effects "inbox_2" = some (.plan other) ∧
        "inbox_2" ∈ memberIds plan ∧ "inbox_2" ∈ memberIds other) ∧
      (∃ last rest, internalizeClaimAttributeUpdateMessages sampleRunner
          [samplePolicyMessage "inbox_1"] again.store (replicate 9 .done) =
        .value (.error (.differentBatch "inbox_2")) last rest) ∧
      ∃ last rest, internalizeClaimAttributeUpdateMessages sampleRunner
          [samplePolicyMessage "inbox_2", samplePolicyMessage "inbox_1"]
          (internalizeClaimAttributeUpdateMessages sampleRunner
            [samplePolicyMessage "inbox_1", samplePolicyMessage "inbox_2"] emptyHome
            [.done, .done]).store (replicate 9 .done) =
        .value (.error (.differentPlan "inbox_1")) last rest := by
  refine ⟨⟨⟨rfl, rfl⟩, sample_drawn ["inbox_1", "inbox_2"] (by decide), rfl⟩,
    ⟨⟨rfl, rfl⟩, sample_drawn ["inbox_2"] (by decide), rfl⟩, ?_, ?_, ?_⟩
  · refine ⟨_, _, rfl, rfl, ?_, ?_⟩
    · decide
    · decide
  all_goals exact ⟨_, _, rfl⟩

end AgentClaimNetwork.Agent
