import AgentClaimNetwork.Dream.CommitSafety

/-!
Attempts without changes of others in between: however often they were stopped, they end with what one
attempt that was not stopped ends with.
-/

namespace AgentClaimNetwork.Dream

open Library Durable List
open Agent (sortedTargets)
open KeyedMap (empty get? insert)

section

structure Ledger where
  claims : KeyedMap Claim.id
  uploads : PendingMaintainerUploads
  checkpoint : Checkpoint

def DreamHome.ledger (home : DreamHome) : Ledger := ⟨home.claims, home.uploads, home.checkpoint⟩

variable (engine : Engine) (files : String → Option String)

section

variable (ledger : Ledger) (group : PreparedGroup) (plan : OperationGroup)

def Ledger.conflicting : Bool :=
  conflict files ledger.checkpoint plan group (ownedDreamClaims engine ledger.claims)

def Ledger.toStage : List Claim :=
  stagedTargets group (ownedDreamClaims engine ledger.claims)
    (ledger.conflicting engine files group plan)

def Ledger.claimsAfter : KeyedMap Claim.id :=
  if ledger.conflicting engine files group plan then ledger.claims
  else group.after.foldl insert ledger.claims

end

def Ledger.commit (ledger : Ledger) (index : Nat) (group : PreparedGroup) (plan : OperationGroup)
    (waiting : List ConsolidationDelivery) : Ledger where
  claims := ledger.claimsAfter engine files group plan
  uploads := stageUploads engine ledger.uploads ⟨ledger.toStage engine files group plan, waiting⟩
  checkpoint := ledger.checkpoint.marked engine index group
    (ledger.toStage engine files group plan) (ledger.conflicting engine files group plan)

inductive GroupStep : Ledger → Ledger → Prop
  | commit {ledger index group plan waiting} : FirstOpen ledger.checkpoint index group plan →
      dependencies plan group (ledger.toStage engine files group plan) = .ok waiting →
      GroupStep ledger (ledger.commit engine files index group plan waiting)

end

section

variable {engine : Engine} {files : String → Option String} {checkpoint : Checkpoint}
  {group : PreparedGroup} {plan : OperationGroup}

theorem FirstOpen.unique (isFirst : FirstOpen checkpoint left group plan)
    (isToo : FirstOpen checkpoint right other another) :
    left = right ∧ group = other ∧ plan = another := by
  have same : left = right := by
    rcases Nat.lt_trichotomy left right with before | equal | after
    · have done := isToo.first left before group isFirst.here
      rw [isFirst.isOpen] at done
      cases done
    · exact equal
    · have done := isFirst.first right after other isToo.here
      rw [isToo.isOpen] at done
      cases done
  subst same
  refine ⟨rfl, ?_, ?_⟩
  · exact Option.some.inj (isFirst.here.symm.trans isToo.here)
  · exact Option.some.inj (isFirst.planned.symm.trans isToo.planned)

theorem FirstOpen.notAll (isFirst : FirstOpen checkpoint left group plan) :
    ¬∀ group ∈ checkpoint.groups, group.completed = true := by
  intro all
  have done := all group (mem_of_getElem? isFirst.here)
  rw [isFirst.isOpen] at done
  cases done

theorem groupStep_unique : Relator.RightUnique (GroupStep engine files) := by
  rintro ledger _ _ ⟨isFirst, waits⟩ ⟨isToo, waitsToo⟩
  obtain ⟨rfl, rfl, rfl⟩ := isFirst.unique isToo
  rw [waits] at waitsToo
  cases waitsToo
  rfl

theorem ledger_end {first one two : Ledger}
    (toOne : Relation.ReflTransGen (GroupStep engine files) first one)
    (toTwo : Relation.ReflTransGen (GroupStep engine files) first two)
    (oneDone : ∀ group ∈ one.checkpoint.groups, group.completed = true)
    (twoDone : ∀ group ∈ two.checkpoint.groups, group.completed = true) : one = two := by
  have stuck : ∀ {early late : Ledger}, (∀ group ∈ early.checkpoint.groups, group.completed = true) →
      Relation.ReflTransGen (GroupStep engine files) early late → early = late := by
    intro early late done steps
    rcases Relation.ReflTransGen.cases_head steps with same | ⟨_, ⟨isFirst, -⟩, -⟩
    · exact same
    · exact absurd done isFirst.notAll
  rcases Relation.ReflTransGen.total_of_right_unique groupStep_unique toOne toTwo with later | later
  · exact stuck oneDone later
  · exact (stuck twoDone later).symm

end

section

/-- Where an attempt can have been stopped before the checkpoint is applied. -/
inductive Underway (engine : Engine) (ledger : Ledger) (home : DreamHome) : Prop
  | between : home.claims = ledger.claims → home.uploads = ledger.uploads → Underway engine ledger home
  | writing {index group plan} : FirstOpen ledger.checkpoint index group plan →
      ledger.conflicting engine home.files group plan = false →
      Halfway group ledger.claims home.claims → home.uploads = ledger.uploads →
      Underway engine ledger home
  | staged {index group plan waiting} : FirstOpen ledger.checkpoint index group plan →
      dependencies plan group (ledger.toStage engine home.files group plan) = .ok waiting →
      home.claims = ledger.claimsAfter engine home.files group plan →
      home.uploads =
        stageUploads engine ledger.uploads ⟨ledger.toStage engine home.files group plan, waiting⟩ →
      Underway engine ledger home

variable {engine : Engine} {ledger : Ledger} {home next : DreamHome} {index : Nat}
  {group : PreparedGroup} {plan : OperationGroup}

theorem inserts_halfway (well : WellPrepared engine group) :
    Halfway group claims (group.after.foldl insert claims) := by
  intro id
  by_cases isTarget : ∃ target ∈ group.after, target.id = id
  · obtain ⟨target, member, rfl⟩ := isTarget
    exact .inr ⟨target, member, rfl, KeyedMap.get?_inserts_mem well.distinct member⟩
  · exact .inl (KeyedMap.get?_inserts_other fun target member same =>
      isTarget ⟨target, member, same⟩)

theorem claimsAfter_clean (well : WellPrepared engine group) {files : String → Option String}
    (clean : ledger.conflicting engine files group plan = false) :
    Halfway group ledger.claims (ledger.claimsAfter engine files group plan) := by
  unfold Ledger.claimsAfter
  rw [clean]
  exact inserts_halfway well

section

variable (underway : Underway engine ledger home)
include underway

section

variable (same : home.checkpoint = ledger.checkpoint)
include same

section

variable (isFirst : FirstOpen home.checkpoint index group plan)
include isFirst

theorem Underway.decides (well : WellPrepared engine group) :
    home.conflicting engine group plan = ledger.conflicting engine home.files group plan ∧
      (ledger.conflicting engine home.files group plan = true → home.claims = ledger.claims) ∧
      Halfway group ledger.claims home.claims := by
  rw [same] at isFirst
  have halfwayClean : Halfway group ledger.claims home.claims →
      ledger.conflicting engine home.files group plan = false →
      home.conflicting engine group plan = false := by
    intro halfway clean
    unfold DreamHome.conflicting
    rw [same]
    exact halfway.noConflict well clean
  cases underway with
  | between sameClaims sameUploads =>
    refine ⟨?_, fun _ => sameClaims, sameClaims ▸ Halfway.here⟩
    unfold DreamHome.conflicting
    rw [same, sameClaims]
    rfl
  | writing isToo clean halfway sameUploads =>
    obtain ⟨rfl, rfl, rfl⟩ := isFirst.unique isToo
    refine ⟨(halfwayClean halfway clean).trans clean.symm, fun conflicts => ?_, halfway⟩
    rw [clean] at conflicts
    cases conflicts
  | staged isToo waits sameClaims isStaged =>
    obtain ⟨rfl, rfl, rfl⟩ := isFirst.unique isToo
    cases decided : ledger.conflicting engine home.files group plan with
    | true =>
      have kept : home.claims = ledger.claims := by
        rw [sameClaims]
        unfold Ledger.claimsAfter
        rw [decided]
        rfl
      refine ⟨?_, fun _ => kept, kept ▸ Halfway.here⟩
      unfold DreamHome.conflicting
      rw [same, kept]
      exact decided
    | false =>
      have halfway := sameClaims ▸ claimsAfter_clean well decided
      exact ⟨halfwayClean halfway decided, (fun never => nomatch never), halfway⟩

theorem Underway.written (well : WellPrepared engine group)
    (written : home.Written engine group plan) :
    home.claims = ledger.claimsAfter engine home.files group plan ∧
      home.toStage engine group plan = ledger.toStage engine home.files group plan := by
  obtain ⟨decided, kept, halfway⟩ := underway.decides same isFirst well
  unfold Ledger.claimsAfter DreamHome.toStage Ledger.toStage
  rw [decided]
  cases conflicts : ledger.conflicting engine home.files group plan with
  | true =>
    rw [kept conflicts]
    exact ⟨rfl, rfl⟩
  | false =>
    exact ⟨halfway.complete well (written (decided.trans conflicts)), rfl⟩

theorem Underway.uploads
    (waits : dependencies plan group (ledger.toStage engine home.files group plan) = .ok waiting) :
    home.uploads = ledger.uploads ∨ home.uploads =
      stageUploads engine ledger.uploads ⟨ledger.toStage engine home.files group plan, waiting⟩ := by
  rw [same] at isFirst
  cases underway with
  | between sameClaims sameUploads | writing isToo clean halfway sameUploads =>
    exact .inl sameUploads
  | staged isToo waitsToo sameClaims isStaged =>
    obtain ⟨rfl, rfl, rfl⟩ := isFirst.unique isToo
    rw [waits] at waitsToo
    cases waitsToo
    exact .inr isStaged

end

end

theorem Underway.done (all : ∀ group ∈ ledger.checkpoint.groups, group.completed = true) :
    home.claims = ledger.claims ∧ home.uploads = ledger.uploads := by
  cases underway with
  | between sameClaims sameUploads => exact ⟨sameClaims, sameUploads⟩
  | writing isFirst clean halfway sameUploads | staged isFirst waits sameClaims isStaged =>
    exact absurd all isFirst.notAll

end

end

section

/-- The checkpoint is applied; what is left is the Dream state and the marker. -/
structure Concluded (first home : DreamHome) (ledger : Ledger) (succeeded : Instant) : Prop where
  complete : ∀ group ∈ ledger.checkpoint.groups, group.completed = true
  checkpoint : home.checkpoint =
    { ledger.checkpoint with applied := true, successAt := some succeeded }
  claims : home.claims = ledger.claims
  uploads : home.uploads = ledger.uploads
  state : home.dreamState = first.dreamState ∨
    home.dreamState = first.dreamState.after home.checkpoint
  closed : home.pending = none → home.dreamState = first.dreamState.after home.checkpoint

/-- How far attempts from `first` have come. -/
inductive Stage (engine : Engine) (first : DreamHome) (ledger : Ledger) (home : DreamHome) : Prop
  | underway : home.checkpoint.applied = false → home.checkpoint = ledger.checkpoint →
      home.dreamState = first.dreamState → Underway engine ledger home → Stage engine first ledger home
  | concluded {succeeded} : Concluded first home ledger succeeded → Stage engine first ledger home

structure Progress (engine : Engine) (first home : DreamHome) : Prop where
  prepared : Prepared engine home.checkpoint
  files : home.files = first.files
  stage : ∃ ledger, Relation.ReflTransGen (GroupStep engine first.files) first.ledger ledger ∧
    Stage engine first ledger home

variable {engine : Engine} {first home next : DreamHome} {ledger : Ledger}

theorem Concluded.applied (concluded : Concluded first home ledger succeeded) :
    home.checkpoint.applied = true := by
  rw [concluded.checkpoint]

theorem Stage.running (stage : Stage engine first ledger home)
    (unapplied : home.checkpoint.applied = false) :
    home.checkpoint = ledger.checkpoint ∧ home.dreamState = first.dreamState ∧
      Underway engine ledger home := by
  cases stage with
  | underway _ same state underway => exact ⟨same, state, underway⟩
  | concluded concluded =>
    rw [concluded.applied] at unapplied
    cases unapplied

theorem Stage.over (stage : Stage engine first ledger home)
    (applied : home.checkpoint.applied = true) :
    ∃ succeeded, Concluded first home ledger succeeded := by
  cases stage with
  | underway unapplied same state underway =>
    rw [applied] at unapplied
    cases unapplied
  | concluded concluded => exact ⟨_, concluded⟩

section

variable {index : Nat} {group : PreparedGroup} {plan : OperationGroup} {claim : Claim}

theorem Stage.write (stage : Stage engine first ledger home)
    (prepared : Prepared engine home.checkpoint) (unapplied : home.checkpoint.applied = false)
    (isFirst : FirstOpen home.checkpoint index group plan)
    (clean : home.conflicting engine group plan = false) (member : claim ∈ group.after)
    (absent : home.claims.get? claim.id ≠ some claim) :
    Stage engine first ledger (home.writeClaim claim) := by
  obtain ⟨same, state, underway⟩ := stage.running unapplied
  have well := prepared.well isFirst
  obtain ⟨decided, -, halfway⟩ := underway.decides same isFirst well
  have inLedger : FirstOpen ledger.checkpoint index group plan := same ▸ isFirst
  refine Stage.underway unapplied same state
    (.writing inLedger (decided.symm.trans clean) (halfway.insert member) ?_)
  cases underway with
  | between sameClaims sameUploads | writing isToo _ _ sameUploads => exact sameUploads
  | staged isToo _ sameClaims isStaged =>
    -- after the batch all targets are on disk, so that there is nothing to write
    obtain ⟨rfl, rfl, rfl⟩ := inLedger.unique isToo
    rw [sameClaims] at absent
    unfold Ledger.claimsAfter at absent
    rw [← decided, clean] at absent
    exact absurd (KeyedMap.get?_inserts_mem well.distinct member) absent

theorem Stage.batch (stage : Stage engine first ledger home)
    (prepared : Prepared engine home.checkpoint) (unapplied : home.checkpoint.applied = false)
    (isFirst : FirstOpen home.checkpoint index group plan)
    (written : home.Written engine group plan)
    (waits : dependencies plan group (home.toStage engine group plan) = .ok waiting) :
    Stage engine first ledger (home.stage engine ⟨home.toStage engine group plan, waiting⟩) := by
  obtain ⟨same, state, underway⟩ := stage.running unapplied
  have well := prepared.well isFirst
  obtain ⟨sameClaims, sameBatch⟩ := underway.written same isFirst well written
  rw [sameBatch] at waits ⊢
  refine Stage.underway unapplied same state (.staged (same ▸ isFirst) waits sameClaims ?_)
  show stageUploads engine home.uploads _ = _
  rcases underway.uploads same isFirst waits with notYet | already
  · rw [notYet]
    rfl
  · obtain ⟨others, isOthers, retired⟩ := @WellPrepared.dependencies_ok engine group plan well
      (ledger.toStage engine home.files group plan) fun claim among => (mem_stagedTargets.mp among).1
    rw [waits] at isOthers
    cases isOthers
    rw [already]
    exact stageUploads_again well.staged_distinct retired

theorem Stage.mark (stage : Stage engine first ledger home)
    (prepared : Prepared engine home.checkpoint) (files : home.files = first.files)
    (unapplied : home.checkpoint.applied = false)
    (isFirst : FirstOpen home.checkpoint index group plan)
    (written : home.Written engine group plan)
    (waits : dependencies plan group (home.toStage engine group plan) = .ok waiting)
    (settled : stageUploads engine home.uploads ⟨home.toStage engine group plan, waiting⟩ =
      home.uploads) :
    ∃ later, GroupStep engine first.files ledger later ∧
      Stage engine first later (home.mark engine index group plan) := by
  obtain ⟨same, state, underway⟩ := stage.running unapplied
  have well := prepared.well isFirst
  obtain ⟨sameClaims, sameBatch⟩ := underway.written same isFirst well written
  obtain ⟨decided, -, -⟩ := underway.decides same isFirst well
  rw [sameBatch] at waits settled
  have sameUploads : home.uploads = stageUploads engine ledger.uploads
      ⟨ledger.toStage engine home.files group plan, waiting⟩ := by
    rcases underway.uploads same isFirst waits with notYet | already
    · rw [notYet] at settled ⊢
      exact settled.symm
    · exact already
  rw [files] at waits sameClaims sameUploads sameBatch decided
  refine ⟨_, GroupStep.commit (same ▸ isFirst) waits, ?_⟩
  refine Stage.underway unapplied ?_ state (.between sameClaims sameUploads)
  show home.checkpoint.marked engine index group (home.toStage engine group plan)
    (home.conflicting engine group plan) = _
  rw [sameBatch, decided, same]
  rfl

theorem Stage.finish (stage : Stage engine first ledger home) (clock : Readings)
    (unapplied : home.checkpoint.applied = false) (announced : home.pending = some engine.path)
    (all : ∀ group ∈ home.checkpoint.groups, group.completed = true) :
    Stage engine first ledger { home with checkpoint := home.checkpoint.finished clock } := by
  obtain ⟨same, state, underway⟩ := stage.running unapplied
  obtain ⟨sameClaims, sameUploads⟩ := underway.done (same ▸ all)
  have concluded : Concluded first { home with checkpoint := home.checkpoint.finished clock } ledger
      clock.succeeded := by
    refine ⟨same ▸ all, ?_, sameClaims, sameUploads, .inl state, fun clear => ?_⟩
    · rw [same]
      rfl
    · have marker : some engine.path = none := announced.symm.trans clear
      cases marker
  exact Stage.concluded concluded

end

theorem Stage.step (prepared : Prepared engine home.checkpoint) (files : home.files = first.files)
    (stage : Stage engine first ledger home) (taken : CommitStep engine home next) :
    Stage engine first ledger next ∨
      ∃ later, GroupStep engine first.files ledger later ∧ Stage engine first later next := by
  cases taken with
  | announce unapplied =>
    obtain ⟨same, state, underway⟩ := stage.running unapplied
    refine .inl (Stage.underway unapplied same state ?_)
    cases underway with
    | between sameClaims sameUploads => exact .between sameClaims sameUploads
    | writing isFirst clean halfway sameUploads => exact .writing isFirst clean halfway sameUploads
    | staged isFirst waits sameClaims isStaged => exact .staged isFirst waits sameClaims isStaged
  | trace clock unapplied all =>
    obtain ⟨same, state, underway⟩ := stage.running unapplied
    obtain ⟨sameClaims, sameUploads⟩ := underway.done (same ▸ all)
    exact .inl (Stage.underway unapplied same state (.between sameClaims sameUploads))
  | write unapplied isFirst clean member absent survivors =>
    exact .inl (stage.write prepared unapplied isFirst clean member absent)
  | stage unapplied isFirst written waits =>
    exact .inl (stage.batch prepared unapplied isFirst written waits)
  | mark unapplied isFirst written waits staged settled =>
    exact .inr (stage.mark prepared files unapplied isFirst written waits settled)
  | finish clock unapplied announced all =>
    exact .inl (stage.finish clock unapplied announced all)
  | remember applied =>
    obtain ⟨succeeded, concluded⟩ := stage.over applied
    have after : home.dreamState.after home.checkpoint =
        first.dreamState.after home.checkpoint := by
      rcases concluded.state with same | already
      · rw [same]
      · rw [already, after_twice]
    exact .inl (Stage.concluded ⟨concluded.complete, concluded.checkpoint, concluded.claims,
      concluded.uploads, .inr after, fun _ => after⟩)
  | clear applied settled =>
    obtain ⟨succeeded, concluded⟩ := stage.over applied
    have after : home.dreamState = first.dreamState.after home.checkpoint := by
      rcases concluded.state with same | already
      · rw [← settled, same]
      · exact already
    exact .inl (Stage.concluded ⟨concluded.complete, concluded.checkpoint, concluded.claims,
      concluded.uploads, concluded.state, fun _ => after⟩)

theorem CommitStep.files (taken : CommitStep engine home next) : next.files = home.files := by
  cases taken <;> rfl

theorem CommitStep.prepared (prepared : Prepared engine home.checkpoint)
    (taken : CommitStep engine home next) : Prepared engine next.checkpoint := by
  cases taken with
  | mark => exact prepared.marked
  | finish clock => exact prepared.finished
  | announce | write | stage | trace | remember | clear => exact prepared

theorem Progress.step (progress : Progress engine first home) (taken : CommitStep engine home next) :
    Progress engine first next := by
  obtain ⟨ledger, reached, stage⟩ := progress.stage
  refine ⟨taken.prepared progress.prepared, taken.files.trans progress.files, ?_⟩
  rcases stage.step progress.prepared progress.files taken with same | ⟨later, moved, stage⟩
  · exact ⟨ledger, reached, same⟩
  · exact ⟨later, reached.tail moved, stage⟩

theorem Progress.steps (progress : Progress engine first home)
    (taken : CommitSteps engine home next) : Progress engine first next := by
  induction taken with
  | refl => exact progress
  | tail _ step ih => exact ih.step step

theorem Fresh.progress (fresh : Fresh engine home) : Progress engine home home :=
  ⟨fresh.prepared, rfl, home.ledger, Relation.ReflTransGen.refl,
    Stage.underway fresh.unapplied rfl rfl (.between rfl rfl)⟩

def Undisturbed (events : List Event) : Prop :=
  ∀ event ∈ events, ∃ clock fates, event = .attempt clock fates

theorem Fresh.run_progress (fresh : Fresh engine home) (undisturbed : Undisturbed events) :
    Progress engine home (home.run engine events) := by
  induction events using reverseRecOn with
  | nil => exact fresh.progress
  | append_singleton events event ih =>
    have before := ih fun other member => undisturbed other (mem_append_left _ member)
    obtain ⟨clock, fates, rfl⟩ := undisturbed event (by simp)
    unfold DreamHome.run at before ⊢
    rw [foldl_append]
    exact before.steps (attempt_steps before.prepared clock fates)

theorem Progress.same_end (progress : Progress engine first home) (other : Progress engine first next)
    (applied : home.checkpoint.applied = true) (clear : home.pending = none)
    (otherApplied : next.checkpoint.applied = true) (otherClear : next.pending = none)
    (instant : home.checkpoint.successAt = next.checkpoint.successAt) :
    home.claims = next.claims ∧ home.uploads = next.uploads ∧ home.checkpoint = next.checkpoint ∧
      home.dreamState = next.dreamState := by
  obtain ⟨one, reachedOne, stageOne⟩ := progress.stage
  obtain ⟨two, reachedTwo, stageTwo⟩ := other.stage
  obtain ⟨succeeded, atOne⟩ := stageOne.over applied
  obtain ⟨succeededToo, atTwo⟩ := stageTwo.over otherApplied
  have sameLedger := ledger_end reachedOne reachedTwo atOne.complete atTwo.complete
  subst sameLedger
  have sameInstant : succeeded = succeededToo := by
    rw [atOne.checkpoint, atTwo.checkpoint] at instant
    exact Option.some.inj instant
  subst sameInstant
  have sameCheckpoint : home.checkpoint = next.checkpoint :=
    atOne.checkpoint.trans atTwo.checkpoint.symm
  refine ⟨atOne.claims.trans atTwo.claims.symm, atOne.uploads.trans atTwo.uploads.symm,
    sameCheckpoint, ?_⟩
  rw [atOne.closed clear, atTwo.closed otherClear, sameCheckpoint]

end

section

variable {engine : Engine} {home next : DreamHome}

def QueueFollows (engine : Engine) (uploads : PendingMaintainerUploads) (home : DreamHome) : Prop :=
  home.uploads = home.history.staged.foldl (stageUploads engine) uploads

theorem QueueFollows.step (follows : QueueFollows engine uploads home)
    (taken : CommitStep engine home next) : QueueFollows engine uploads next := by
  cases taken with
  | stage =>
    show stageUploads engine home.uploads _ = (home.history.staged ++ [_]).foldl _ _
    rw [foldl_append, ← follows]
    rfl
  | announce | write | mark | trace | finish | remember | clear => exact follows

theorem Fresh.queue_follows (fresh : Fresh engine home) (events : List Event) :
    QueueFollows engine home.uploads (home.run engine events) := by
  induction events using reverseRecOn with
  | nil =>
    unfold QueueFollows DreamHome.run
    rw [foldl_nil, fresh.history]
    rfl
  | append_singleton events event ih =>
    have prepared := (fresh.run_sound events).prepared
    unfold DreamHome.run at ih prepared ⊢
    rw [foldl_append]
    cases event with
    | attempt clock fates =>
      have taken := attempt_steps prepared clock fates
      refine Relation.ReflTransGen.head_induction_on
        (motive := fun early _ => QueueFollows engine home.uploads early →
          QueueFollows engine home.uploads _) taken (fun follows => follows)
        (fun step _ rest follows => rest (follows.step step)) ih
    | editClaim | removeClaim | changeFile => exact ih

theorem Prepared.attempt_ends (prepared : Prepared engine home.checkpoint)
    (ours : home.pending.all (fun path => path = engine.path) = true) (clock : Readings) :
    ∃ count report last,
      (∀ fates, applyDreamCheckpointLocally engine clock home
        (replicate count Fate.done ++ fates) = .value (.ok report) last fates) ∧
      CommitSteps engine home last ∧ last.checkpoint.applied = true ∧ last.pending = none ∧
      (home.checkpoint.applied = false →
        last.checkpoint.successAt = some clock.succeeded) := by
  have meets : Meets (fun start => start = home) (applyDreamCheckpointLocally engine clock)
      (fun _ last => CommitSteps engine home last ∧ last.checkpoint.applied = true ∧
        last.pending = none ∧ (home.checkpoint.applied = false →
          last.checkpoint.successAt = some clock.succeeded))
      (fun _ _ => False) (CommitSteps engine home) := by
    refine Meets.relax (applyDreamCheckpointLocally_meets prepared) (fun failure last refused => ?_)
      fun _ steps => steps
    rw [refused.2.2] at ours
    cases ours
  obtain ⟨count, report, last, ends, runs⟩ :=
    Finishes.completes applyDreamCheckpointLocally_finishes meets rfl
  exact ⟨count, report, last, runs, ends⟩

/-- After attempts that stop anywhere and any changes of others in between: claims are written over
versions the group knows and deprecated last, every marked group was skipped or complete, a further
attempt marks them all, and what the job left on disk is staged and recorded.  Without changes of others
the attempts end with what one of them would have left. -/
theorem dream_commit_crash_safe (fresh : Fresh engine home) (events : List Event) :
    (∀ entry ∈ (home.run engine events).history.writes,
      WrittenSafely home.checkpoint entry.1 entry.2) ∧
    (∀ (index : Nat) (group : PreparedGroup),
      (home.run engine events).checkpoint.groups[index]? = some group → group.completed = true →
        MarkedSafely home.checkpoint (home.run engine events).history index group) ∧
    ((home.run engine events).checkpoint.applied = true →
      ∀ group ∈ (home.run engine events).checkpoint.groups, group.completed = true) ∧
    (∀ clock, ∃ count report last,
      (∀ fates, applyDreamCheckpointLocally engine clock (home.run engine events)
        (replicate count Fate.done ++ fates) = .value (.ok report) last fates) ∧
      last.checkpoint.applied = true) ∧
    (∀ id ∈ (home.run engine events).history.authored,
      LeftBehind engine home.checkpoint (home.run engine events) id) ∧
    QueueFollows engine home.uploads (home.run engine events) ∧
    (Undisturbed events → (home.run engine events).checkpoint.applied = true →
      (home.run engine events).pending = none →
      ∃ clock count report once,
        (∀ fates, applyDreamCheckpointLocally engine clock home
          (replicate count Fate.done ++ fates) = .value (.ok report) once fates) ∧
        (home.run engine events).claims = once.claims ∧
        (home.run engine events).uploads = once.uploads ∧
        (home.run engine events).checkpoint = once.checkpoint ∧
        (home.run engine events).dreamState = once.dreamState) := by
  have sound := fresh.run_sound events
  refine ⟨sound.writes, sound.marked, sound.applied, fun clock => ?_, sound.authored,
    fresh.queue_follows events, fun undisturbed applied clear => ?_⟩
  · obtain ⟨count, report, last, runs, -, applied, -, -⟩ :=
      sound.prepared.attempt_ends sound.ours clock
    exact ⟨count, report, last, runs, applied⟩
  · have progress := fresh.run_progress undisturbed
    obtain ⟨ledger, -, stage⟩ := progress.stage
    obtain ⟨succeeded, concluded⟩ := stage.over applied
    obtain ⟨count, report, once, runs, steps, onceApplied, onceClear, instant⟩ :=
      fresh.prepared.attempt_ends fresh.sound.ours ⟨succeeded, succeeded⟩
    have same := progress.same_end (fresh.progress.steps steps) applied clear onceApplied onceClear
      (by rw [instant fresh.unapplied, concluded.checkpoint])
    exact ⟨_, count, report, once, runs, same⟩

end

namespace Consolidation

def engine : Engine where
  agentId := "agent"
  path := "job.yaml"
  hasMaintainerClient := true
  contentHash := Claim.statement
  traceTask := fun _ => ""

def kept : Claim where
  id := "claim_1"
  name := "queue"
  statement := "items survive"
  scope := "store"
  holder := "agent"
  confidence := .medium
  status := .active
  createdAt := 0
  updatedAt := none
  sourceClaimIds := []
  evidenceSummary := "test"

def merged : Claim := { kept with statement := "items survive a restart", updatedAt := some 1 }

def source : Claim := { kept with id := "claim_2", statement := "a restart keeps items" }

def retired : Claim := { source with status := .deprecated, updatedAt := some 1 }

def plan : OperationGroup where
  kind := .consolidation
  reason := "same fact"
  evidenceIds := []
  coverage := [⟨"claim_1", ["claim_1"], "itself"⟩, ⟨"claim_2", ["claim_1"], "merged"⟩]
  changeBasis := []
  updates := []

def home : DreamHome where
  claims := KeyedMap.ofList Claim.id [kept, source]
  files := fun _ => none
  checkpoint :=
    { snapshotAt := 0
      inputVersions := empty
      plan := [plan]
      receipts := fun _ => none
      groups := [⟨[source, kept], [retired, merged], false, false⟩]
      safetyReviews := []
      traceId := "trace_1"
      applied := false
      successAt := none
      selfVersions := empty
      operation := some "job" }
  pending := none
  uploads := PendingMaintainerUploads.empty
  traces := fun _ => none
  dreamState := ⟨none, none, empty⟩
  history := History.empty

theorem fresh : Fresh engine home where
  prepared := ⟨by decide, by decide +kernel, by decide +kernel, by decide +kernel⟩
  unapplied := rfl
  clear := rfl
  history := rfl

def events : List Event :=
  [.attempt ⟨1, 1⟩ [.done, .done], .attempt ⟨2, 2⟩ (replicate 8 .done)]

/-- The merged claim is written before its source is deprecated, by the attempt that is stopped, and the
second attempt ends as one alone would have. -/
theorem dream_commit_crash_safe_resumed :
    (home.run engine events).history.writes.map Prod.snd = [merged, retired] ∧
      (∀ entry ∈ (home.run engine events).history.writes,
        WrittenSafely home.checkpoint entry.1 entry.2) ∧
      ∃ clock count report once,
        (∀ fates, applyDreamCheckpointLocally engine clock home
          (replicate count Fate.done ++ fates) = .value (.ok report) once fates) ∧
        (home.run engine events).claims = once.claims ∧
        (home.run engine events).uploads = once.uploads ∧
        (home.run engine events).checkpoint = once.checkpoint ∧
        (home.run engine events).dreamState = once.dreamState := by
  have safe := dream_commit_crash_safe fresh events
  refine ⟨by decide +kernel, safe.1, safe.2.2.2.2.2.2 ?_ (by decide +kernel) (by decide +kernel)⟩
  intro event member
  simp only [events, mem_cons, not_mem_nil, or_false] at member
  rcases member with rfl | rfl
  all_goals exact ⟨_, _, rfl⟩

end Consolidation

end AgentClaimNetwork.Dream
