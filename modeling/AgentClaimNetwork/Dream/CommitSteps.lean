import AgentClaimNetwork.Dream.CommitConflict
import Mathlib.Data.List.Flatten

/-!
The commit as steps that depend on the stored state alone, so that it does not matter where an
attempt was stopped.
-/

namespace AgentClaimNetwork.Dream

open Library Durable List
open Meets (bind ensure look pin relax weaken)
variable {engine : Engine} {checkpoint : Checkpoint} {index : Nat} {group : PreparedGroup}
  {plan : OperationGroup}

open Agent (sortedTargets mem_sortedTargets sortedTargets_distinct)

structure FirstOpen (checkpoint : Checkpoint) (index : Nat) (group : PreparedGroup)
    (plan : OperationGroup) : Prop where
  here : checkpoint.groups[index]? = some group
  isOpen : group.completed = false
  planned : checkpoint.plan[index]? = some plan
  first : ∀ earlier < index, ∀ other, checkpoint.groups[earlier]? = some other → other.completed = true

section

variable (engine : Engine) (home : DreamHome) (group : PreparedGroup) (plan : OperationGroup)

def DreamHome.conflicting : Bool :=
  conflict home.files home.checkpoint plan group (ownedDreamClaims engine home.claims)

def DreamHome.toStage : List Claim :=
  stagedTargets group (ownedDreamClaims engine home.claims) (home.conflicting engine group plan)

def DreamHome.Written : Prop :=
  home.conflicting engine group plan = false →
    ∀ target ∈ group.after, home.claims.get? target.id = some target

end

def stageUploads (engine : Engine) (uploads : PendingMaintainerUploads) (batch : StagedBatch) :
    PendingMaintainerUploads :=
  if engine.hasMaintainerClient then
    stageMaintainerBatchInner uploads (consolidationBatch batch.claims batch.dependencies)
  else uploads

def DreamHome.stage (engine : Engine) (home : DreamHome) (batch : StagedBatch) : DreamHome :=
  { home with
    uploads := stageUploads engine home.uploads batch
    history := { home.history with staged := home.history.staged ++ [batch] } }

def DreamHome.mark (engine : Engine) (home : DreamHome) (index : Nat) (group : PreparedGroup)
    (plan : OperationGroup) : DreamHome :=
  { home with
    checkpoint := home.checkpoint.marked engine index group (home.toStage engine group plan)
      (home.conflicting engine group plan)
    history := { home.history with marks := home.history.marks ++ [(index, home.claims)] } }

inductive CommitStep (engine : Engine) : DreamHome → DreamHome → Prop
  | announce {home} : home.checkpoint.applied = false →
      CommitStep engine home { home with pending := some engine.path }
  | write {home index group plan claim} : home.checkpoint.applied = false →
      FirstOpen home.checkpoint index group plan →
      home.conflicting engine group plan = false → claim ∈ group.after →
      home.claims.get? claim.id ≠ some claim →
      (claim.status = .deprecated → ∀ other ∈ group.after, other.status ≠ .deprecated →
        home.claims.get? other.id = some other) →
      CommitStep engine home (home.writeClaim claim)
  | stage {home index group plan waiting} : home.checkpoint.applied = false →
      FirstOpen home.checkpoint index group plan → home.Written engine group plan →
      dependencies plan group (home.toStage engine group plan) = .ok waiting →
      CommitStep engine home (home.stage engine ⟨home.toStage engine group plan, waiting⟩)
  | mark {home index group plan waiting} : home.checkpoint.applied = false →
      FirstOpen home.checkpoint index group plan → home.Written engine group plan →
      dependencies plan group (home.toStage engine group plan) = .ok waiting →
      ⟨home.toStage engine group plan, waiting⟩ ∈ home.history.staged →
      stageUploads engine home.uploads ⟨home.toStage engine group plan, waiting⟩ = home.uploads →
      CommitStep engine home (home.mark engine index group plan)
  | trace {home} (clock) : home.checkpoint.applied = false →
      (∀ group ∈ home.checkpoint.groups, group.completed = true) →
      CommitStep engine home { home with
        traces := Function.update home.traces home.checkpoint.traceId
          (some (commitTrace engine clock home.checkpoint)) }
  | finish {home} (clock) : home.checkpoint.applied = false → home.pending = some engine.path →
      (∀ group ∈ home.checkpoint.groups, group.completed = true) →
      CommitStep engine home { home with checkpoint := home.checkpoint.finished clock }
  | remember {home} : home.checkpoint.applied = true →
      CommitStep engine home { home with dreamState := home.dreamState.after home.checkpoint }
  | clear {home} : home.checkpoint.applied = true →
      home.dreamState.after home.checkpoint = home.dreamState →
      CommitStep engine home { home with pending := none }

abbrev CommitSteps (engine : Engine) : DreamHome → DreamHome → Prop :=
  Relation.ReflTransGen (CommitStep engine)
variable {claim : Claim}

section

theorem FirstOpen.mem (isFirst : FirstOpen checkpoint index group plan) :
    group ∈ checkpoint.openGroups := by
  refine mem_filter.mpr ⟨mem_of_getElem? isFirst.here, ?_⟩
  rw [isFirst.isOpen]
  rfl

theorem FirstOpen.bound (isFirst : FirstOpen checkpoint index group plan) :
    index < checkpoint.groups.length :=
  (List.getElem?_eq_some_iff.mp isFirst.here).1

theorem Prepared.well (prepared : Prepared engine checkpoint)
    (isFirst : FirstOpen checkpoint index group plan) : WellPrepared engine group where
  aligned := prepared.aligned group isFirst.mem
  owned := prepared.owned group isFirst.mem
  distinct := (nodup_flatMap.mp prepared.distinct).1 group isFirst.mem

theorem openGroups_marked :
    (checkpoint.marked engine index group staged conflicting).openGroups.Sublist
      checkpoint.openGroups := by
  unfold Checkpoint.openGroups Checkpoint.marked
  simp only
  generalize checkpoint.groups = groups
  induction groups generalizing index with
  | nil => simp
  | cons first rest ih =>
    cases index with
    | zero =>
      exact (sublist_cons_self first rest).filter _
    | succ index =>
      rw [set_cons_succ]
      rw [filter_cons, filter_cons]
      split_ifs
      · exact ih.cons_cons first
      · exact ih

section

variable (prepared : Prepared engine checkpoint)
include prepared

theorem Prepared.marked : Prepared engine (checkpoint.marked engine index group staged conflicting) where
  planned := by
    simpa [Checkpoint.marked] using prepared.planned
  aligned := fun other member => prepared.aligned other (openGroups_marked.subset member)
  owned := fun other member => prepared.owned other (openGroups_marked.subset member)
  distinct := prepared.distinct.sublist (openGroups_marked.flatMap _)

theorem Prepared.finished :
    Prepared engine (checkpoint.finished clock) := ⟨prepared.planned, prepared.aligned, prepared.owned,
      prepared.distinct⟩

theorem Prepared.apart {left right : Nat} (isFirst : checkpoint.groups[left]? = some first)
    (isSecond : checkpoint.groups[right]? = some second) (firstOpen : first.completed = false)
    (secondOpen : second.completed = false) (inFirst : claim ∈ first.after)
    (inSecond : other ∈ second.after) (same : claim.id = other.id) : left = right := by
  have disjoint := (nodup_flatMap.mp prepared.distinct).2
  unfold Checkpoint.openGroups at disjoint
  rw [pairwise_filter] at disjoint
  obtain ⟨leftBound, atLeft⟩ := List.getElem?_eq_some_iff.mp isFirst
  obtain ⟨rightBound, atRight⟩ := List.getElem?_eq_some_iff.mp isSecond
  have pairwise := pairwise_iff_getElem.mp disjoint
  rcases Nat.lt_trichotomy left right with before | equal | after
  · have clash := pairwise left right leftBound rightBound before
      (by rw [atLeft, firstOpen]; rfl) (by rw [atRight, secondOpen]; rfl)
    rw [atLeft, atRight] at clash
    exact absurd (mem_map.mpr ⟨other, inSecond, same.symm⟩)
      (clash (mem_map.mpr ⟨claim, inFirst, rfl⟩))
  · exact equal
  · have clash := pairwise right left rightBound leftBound after
      (by rw [atRight, secondOpen]; rfl) (by rw [atLeft, firstOpen]; rfl)
    rw [atLeft, atRight] at clash
    exact absurd (mem_map.mpr ⟨claim, inFirst, same⟩)
      (clash (mem_map.mpr ⟨other, inSecond, rfl⟩))

end

end

section

variable {home : DreamHome}

def DreamHome.writeAll (home : DreamHome) (current : KeyedMap Claim.id) (targets : List Claim) :
    DreamHome :=
  targets.foldl (fun home claim =>
    if current.get? claim.id = some claim then home else home.writeClaim claim) home

variable {targets : List Claim} {current : KeyedMap Claim.id}

theorem writeAll_snoc : home.writeAll current (targets ++ [claim]) =
      if current.get? claim.id = some claim then home.writeAll current targets
      else (home.writeAll current targets).writeClaim claim := by
  unfold DreamHome.writeAll
  rw [foldl_append]
  rfl

theorem writeAll_frame {current : KeyedMap Claim.id} {targets : List Claim} :
    (home.writeAll current targets).checkpoint = home.checkpoint ∧
      (home.writeAll current targets).files = home.files ∧
      (home.writeAll current targets).pending = home.pending ∧
      (home.writeAll current targets).uploads = home.uploads := by
  induction targets using reverseRecOn with
  | nil => exact ⟨rfl, rfl, rfl, rfl⟩
  | append_singleton targets claim ih =>
    rw [writeAll_snoc]
    split_ifs
    · exact ih
    · exact ih

theorem writeAll_outside {id : ClaimId} (other : ∀ target ∈ targets, target.id ≠ id) :
    (home.writeAll current targets).claims.get? id = home.claims.get? id := by
  induction targets using reverseRecOn with
  | nil => rfl
  | append_singleton targets claim ih =>
    have earlier := ih fun target member => other target (mem_append_left _ member)
    rw [writeAll_snoc]
    split_ifs
    · exact earlier
    · show ((home.writeAll current targets).claims.insert claim).get? id = _
      rw [KeyedMap.get?_insert, if_neg (other claim (by simp)), earlier]

theorem writeAll_mem (distinct : (targets.map Claim.id).Nodup) (member : claim ∈ targets) :
    (home.writeAll (ownedDreamClaims engine home.claims) targets).claims.get? claim.id =
      some claim := by
  induction targets using reverseRecOn with
  | nil => cases member
  | append_singleton targets last ih =>
    rw [map_append, nodup_append] at distinct
    have apart : ∀ target ∈ targets, target.id ≠ last.id := by
      intro target among
      exact distinct.2.2 target.id (mem_map_of_mem among) last.id (by simp)
    rw [writeAll_snoc]
    rcases mem_concat member with earlier | isLast
    · split_ifs
      · exact ih distinct.1 earlier
      · show (KeyedMap.insert _ last).get? claim.id = _
        rw [KeyedMap.get?_insert, if_neg (apart claim earlier).symm]
        exact ih distinct.1 earlier
    · rw [isLast]
      split_ifs with present
      · rw [writeAll_outside apart]
        exact (owned_get?_eq_some.mp present).1
      · show (KeyedMap.insert _ last).get? last.id = _
        rw [KeyedMap.get?_insert, if_pos rfl]

theorem writeAll_halfway (members : ∀ target ∈ targets, target ∈ group.after) :
    Halfway group home.claims (home.writeAll current targets).claims := by
  induction targets using reverseRecOn with
  | nil => exact Halfway.here
  | append_singleton targets claim ih =>
    have earlier := ih fun target member => members target (mem_append_left _ member)
    rw [writeAll_snoc]
    split_ifs
    · exact earlier
    · exact earlier.insert (members claim (by simp))

theorem survivors_first {targets done left : List Claim}
    (split : sortedTargets targets = done ++ claim :: left) (retired : claim.status = .deprecated)
    (member : other ∈ targets) (survives : other.status ≠ .deprecated) : other ∈ done := by
  have sorted : (sortedTargets targets).Pairwise fun first second =>
      first.status = .deprecated → second.status = .deprecated := by
    refine pairwise_append.mpr ⟨?_, ?_, ?_⟩
    · refine pairwise_of_forall_mem_list fun first isFirst second _ dead => ?_
      simp [dead] at isFirst
    · refine pairwise_of_forall_mem_list fun first _ second isSecond _ => ?_
      simpa using (mem_filter.mp isSecond).2
    · intro first isFirst second _ dead
      simp [dead] at isFirst
  have present : other ∈ done ++ claim :: left := split ▸ mem_sortedTargets.mpr member
  rcases mem_append.mp present with before | after
  · exact before
  · rw [split, pairwise_append] at sorted
    rcases mem_cons.mp after with isClaim | later
    · rw [isClaim] at survives
      exact absurd retired survives
    · exact absurd ((pairwise_cons.mp sorted.2.1).1 other later retired) survives

theorem conflicting_writeAll (well : WellPrepared engine group)
    (clean : home.conflicting engine group plan = false)
    (members : ∀ target ∈ targets, target ∈ group.after) :
    (home.writeAll (ownedDreamClaims engine home.claims) targets).conflicting engine group plan =
      false := by
  unfold DreamHome.conflicting at clean ⊢
  obtain ⟨sameCheckpoint, sameFiles, -, -⟩ :=
    @writeAll_frame home (ownedDreamClaims engine home.claims) targets
  rw [sameCheckpoint, sameFiles]
  exact (writeAll_halfway members).noConflict well clean

theorem writeAll_steps (unapplied : home.checkpoint.applied = false)
    (isFirst : FirstOpen home.checkpoint index group plan) (well : WellPrepared engine group)
    (clean : home.conflicting engine group plan = false)
    (split : sortedTargets group.after = done ++ left) :
    CommitSteps engine home (home.writeAll (ownedDreamClaims engine home.claims) done) := by
  induction done using reverseRecOn generalizing left with
  | nil => exact Relation.ReflTransGen.refl
  | append_singleton done claim ih =>
    rw [append_assoc, singleton_append] at split
    have distinct : ((done ++ claim :: left).map Claim.id).Nodup :=
      split ▸ sortedTargets_distinct well.distinct
    have members : ∀ target ∈ done ++ claim :: left, target ∈ group.after :=
      fun target member => mem_sortedTargets.mp (split ▸ member)
    have earlier : ∀ target ∈ done, target ∈ group.after :=
      fun target member => members target (mem_append_left _ member)
    rw [map_append, nodup_append] at distinct
    have apart : ∀ target ∈ done, target.id ≠ claim.id := fun target among =>
      distinct.2.2 target.id (mem_map_of_mem among) claim.id (by simp)
    rw [writeAll_snoc]
    split_ifs with present
    · exact ih split
    · refine (ih split).tail ?_
      obtain ⟨sameCheckpoint, -, -, -⟩ :=
        @writeAll_frame home (ownedDreamClaims engine home.claims) done
      have isMember : claim ∈ group.after := members claim (by simp)
      refine @CommitStep.write engine _ index group plan claim ?_ ?_ ?_ isMember ?_ ?_
      · rw [sameCheckpoint]
        exact unapplied
      · rw [sameCheckpoint]
        exact isFirst
      · exact conflicting_writeAll well clean earlier
      · rw [writeAll_outside apart]
        exact fun found => present (owned_get?_eq_some.mpr ⟨found, well.owned claim isMember⟩)
      · intro retired other among survives
        exact writeAll_mem distinct.1 (survivors_first split retired among survives)

end

variable {start seen : DreamHome}

theorem writeTargets_meets (reached : CommitSteps engine start seen)
    (unapplied : seen.checkpoint.applied = false)
    (isFirst : FirstOpen seen.checkpoint index group plan) (well : WellPrepared engine group)
    (clean : seen.conflicting engine group plan = false) :
    Meets (fun home => home = seen)
      (Checked.forAll (sortedTargets group.after)
        (writeTarget engine (ownedDreamClaims engine seen.claims)))
      (fun _ home => home =
        seen.writeAll (ownedDreamClaims engine seen.claims) (sortedTargets group.after))
      (fun _ _ => False) (CommitSteps engine start) := by
  have loop := @Meets.forAll DreamHome DreamError Claim (fun _ _ => False) (CommitSteps engine start)
    (writeTarget engine (ownedDreamClaims engine seen.claims))
    (fun done home => home = seen.writeAll (ownedDreamClaims engine seen.claims) done) []
    (sortedTargets group.after)
  refine loop fun done claim left split => ?_
  have earlier := writeAll_steps unapplied isFirst well clean split
  have isMember : claim ∈ group.after := mem_sortedTargets.mp (split ▸ by simp)
  refine ensure (fun foreign => ?_) fun _ => ?_
  · simp [well.owned claim isMember] at foreign
  · rw [writeAll_snoc]
    split_ifs
    · exact Meets.ok fun _ same => same
    · refine Meets.write ?_ ?_
      · rintro _ rfl
        exact reached.trans earlier
      · rintro _ rfl
        rfl

theorem write_meets (reached : CommitSteps engine start seen) :
    Meets (fun home => home = seen) (Checked.write change : DreamProgram Unit)
      (fun _ home => home = change seen) (fun _ _ => False) (CommitSteps engine start) :=
  Meets.write (fun _ same => same ▸ reached) fun _ same => same ▸ rfl

theorem stageUploads_again
    (distinct : (staged.map Claim.id).Nodup)
    (retired : (waiting.map ConsolidationDelivery.retired).Sublist
      (staged.filter fun claim => claim.status = .deprecated)) :
    stageUploads engine (stageUploads engine uploads ⟨staged, waiting⟩) ⟨staged, waiting⟩ =
      stageUploads engine uploads ⟨staged, waiting⟩ := by
  unfold stageUploads
  split_ifs
  · refine stage_consolidation_again distinct (fun group member => ?_) ?_
    · have among := retired.subset (mem_map_of_mem member)
      simpa using among
    · have ids : (waiting.map fun group => group.retired.id).Sublist (staged.map Claim.id) := by
        have mapped := (retired.trans filter_sublist).map Claim.id
        rwa [map_map] at mapped
      exact distinct.sublist ids
  · rfl

section

variable (reached : CommitSteps engine start seen) (unapplied : seen.checkpoint.applied = false)
  (isFirst : FirstOpen seen.checkpoint index group plan) (well : WellPrepared engine group)
  (written : seen.Written engine group plan)
include reached unapplied isFirst well written

theorem closeGroup_steps :
    ∃ waiting, dependencies plan group (seen.toStage engine group plan) = .ok waiting ∧
      CommitSteps engine start (seen.stage engine ⟨seen.toStage engine group plan, waiting⟩) ∧
      CommitSteps engine start
        ((seen.stage engine ⟨seen.toStage engine group plan, waiting⟩).mark engine index group
          plan) := by
  obtain ⟨waiting, isWaiting, retired⟩ := @WellPrepared.dependencies_ok engine group plan well
    (seen.toStage engine group plan) fun claim member => (mem_stagedTargets.mp member).1
  have staged : CommitSteps engine start
      (seen.stage engine ⟨seen.toStage engine group plan, waiting⟩) :=
    reached.tail (CommitStep.stage unapplied isFirst written isWaiting)
  refine ⟨waiting, isWaiting, staged, staged.tail ?_⟩
  refine CommitStep.mark unapplied isFirst written isWaiting ?_ ?_
  · exact mem_append_right _ (mem_singleton.mpr rfl)
  · exact stageUploads_again well.staged_distinct retired

theorem closeGroup_meets : Meets (fun home => home = seen)
      (closeGroup engine seen.checkpoint index group plan (seen.toStage engine group plan)
        (seen.conflicting engine group plan))
      (fun result home => CommitSteps engine start home ∧ home.checkpoint = result ∧
        home.pending = seen.pending ∧
        ∃ staged conflicting, result = seen.checkpoint.marked engine index group staged conflicting)
      (fun _ _ => False) (CommitSteps engine start) := by
  obtain ⟨waiting, isWaiting, staged, marked⟩ :=
    closeGroup_steps reached unapplied isFirst well written
  unfold closeGroup
  rw [isWaiting]
  have answered : Meets (fun home => home = seen)
      (Checked.ofExcept (.ok waiting) : DreamProgram (List ConsolidationDelivery))
      (fun answer home => answer = waiting ∧ home = seen) (fun _ _ => False)
      (CommitSteps engine start) := Meets.ok fun _ same => ⟨rfl, same⟩
  refine Meets.chain answered (bind (write_meets reached) fun _ =>
    bind (write_meets staged) fun _ => Meets.ok ?_)
  rintro _ rfl
  exact ⟨marked, rfl, rfl, _, _, rfl⟩

end

theorem writeAll_written (well : WellPrepared engine group)
    (clean : seen.conflicting engine group plan = false) :
    let written := seen.writeAll (ownedDreamClaims engine seen.claims) (sortedTargets group.after)
    written.Written engine group plan ∧ written.conflicting engine group plan = false ∧
      written.toStage engine group plan = sortedTargets group.after := by
  intro written
  have stillClean : written.conflicting engine group plan = false :=
    conflicting_writeAll well clean fun _ member => mem_sortedTargets.mp member
  refine ⟨fun _ target member => ?_, stillClean, ?_⟩
  · exact writeAll_mem (sortedTargets_distinct well.distinct) (mem_sortedTargets.mpr member)
  · unfold DreamHome.toStage
    rw [stillClean]
    rfl

theorem commitOpenGroup_meets (reached : CommitSteps engine start seen)
    (prepared : Prepared engine seen.checkpoint) (unapplied : seen.checkpoint.applied = false)
    (isFirst : FirstOpen seen.checkpoint index group plan) :
    Meets (fun home => home = seen) (commitOpenGroup engine seen.checkpoint index group plan)
      (fun result home => CommitSteps engine start home ∧ home.checkpoint = result ∧
        home.pending = seen.pending ∧
        ∃ staged conflicting, result = seen.checkpoint.marked engine index group staged conflicting)
      (fun _ _ => False) (CommitSteps engine start) := by
  have well := prepared.well isFirst
  refine look fun found => pin fun held same => ?_
  obtain ⟨rfl, rfl⟩ := same
  have isDecided : conflict held.files held.checkpoint plan group (ownedDreamClaims engine held.claims) =
    held.conflicting engine group plan := rfl
  simp only [isDecided]
  cases decided : held.conflicting engine group plan with
  | true =>
    have written : held.Written engine group plan := by
      intro clean
      rw [decided] at clean
      cases clean
    have close := closeGroup_meets reached unapplied isFirst well written
    unfold DreamHome.toStage at close
    rw [decided] at close
    exact close
  | false =>
    obtain ⟨written, stillClean, staged⟩ := writeAll_written well decided
    have earlier := writeAll_steps unapplied isFirst well decided (append_nil _).symm
    obtain ⟨sameCheckpoint, -, samePending, -⟩ :=
      @writeAll_frame held (ownedDreamClaims engine held.claims) (sortedTargets group.after)
    refine bind (writeTargets_meets reached unapplied isFirst well decided) fun _ => ?_
    have close := closeGroup_meets (reached.trans earlier) (sameCheckpoint ▸ unapplied)
      (sameCheckpoint ▸ isFirst) well written
    rw [stillClean, staged, sameCheckpoint, samePending] at close
    exact close

/-- What holds between two rounds of the loop. -/
structure Rounds (engine : Engine) (start : DreamHome) (passed : List Nat) (checkpoint : Checkpoint)
    (home : DreamHome) : Prop where
  reached : CommitSteps engine start home
  same : home.checkpoint = checkpoint
  prepared : Prepared engine checkpoint
  unapplied : checkpoint.applied = false
  announced : home.pending = some engine.path
  length : checkpoint.groups.length = start.checkpoint.groups.length
  completed : ∀ index ∈ passed, ∀ group, checkpoint.groups[index]? = some group →
    group.completed = true

theorem commitGroup_meets (split : range start.checkpoint.groups.length = passed ++ index :: left) :
    Meets (Rounds engine start passed checkpoint) (commitGroup engine checkpoint index)
      (Rounds engine start (passed ++ [index])) (fun _ _ => False) (CommitSteps engine start) := by
  refine pin fun seen rounds => ?_
  obtain ⟨reached, same, prepared, unapplied, announced, length, completed⟩ := rounds
  subst same
  have ordered : ∀ earlier, earlier < index → earlier ∈ passed := by
    intro earlier before
    have bound : passed.length < (range start.checkpoint.groups.length).length := by
      rw [split]
      simp
    have isIndex : index = passed.length := by
      have found : (range start.checkpoint.groups.length)[passed.length]? = some index := by
        rw [split]
        simp
      rw [List.getElem?_eq_getElem bound, getElem_range] at found
      exact (Option.some.inj found).symm
    have prefixed : (range start.checkpoint.groups.length).take index = passed := by
      rw [split, isIndex]
      simp
    rw [← prefixed, take_range]
    rw [length_range] at bound
    exact mem_range.mpr (by omega)
  unfold commitGroup
  cases here : seen.checkpoint.groups[index]? with
  | none =>
    refine Meets.ok ?_
    rintro _ rfl
    refine ⟨reached, rfl, prepared, unapplied, announced, length, fun earlier member => ?_⟩
    intro group found
    rcases mem_concat member with before | isIndex
    · exact completed earlier before group found
    · rw [isIndex, here] at found
      cases found
  | some group =>
    simp only
    cases isOpen : group.completed with
    | true =>
      refine Meets.ok ?_
      rintro _ rfl
      refine ⟨reached, rfl, prepared, unapplied, announced, length, fun earlier member => ?_⟩
      intro other found
      rcases mem_concat member with before | isIndex
      · exact completed earlier before other found
      · rw [isIndex, here] at found
        cases found
        exact isOpen
    | false =>
      have bound : index < seen.checkpoint.groups.length :=
        (List.getElem?_eq_some_iff.mp here).1
      have planned : index < seen.checkpoint.plan.length :=
        Nat.lt_of_lt_of_le bound prepared.planned
      have isFirst : FirstOpen seen.checkpoint index group seen.checkpoint.plan[index] :=
        ⟨here, isOpen, List.getElem?_eq_getElem planned,
          fun earlier before => completed earlier (ordered earlier before)⟩
      rw [List.getElem?_eq_getElem planned]
      refine weaken (commitOpenGroup_meets reached prepared unapplied isFirst)
        (fun _ isSeen => isSeen) ?_
      rintro result home ⟨steps, isResult, samePending, staged, conflicting, rfl⟩
      refine ⟨steps, isResult, prepared.marked, unapplied, samePending.trans announced, ?_, ?_⟩
      · simpa [Checkpoint.marked] using length
      · intro earlier member other found
        simp only [Checkpoint.marked, List.getElem?_set] at found
        split_ifs at found with isIndex
        · cases found
          rfl
        · rcases mem_concat member with before | isLast
          · exact completed earlier before other found
          · exact absurd isLast.symm isIndex
variable {clock : Readings}

theorem commitGroups_meets (prepared : Prepared engine start.checkpoint)
    (unapplied : start.checkpoint.applied = false) :
    Meets (fun home => home = start) (commitGroups engine clock start.checkpoint)
      (fun result home => CommitSteps engine start home ∧ home.checkpoint = result ∧
        result.applied = true ∧ result.successAt = some clock.succeeded) (fun _ _ => False)
      (CommitSteps engine start) := by
  have announced : Rounds engine start [] start.checkpoint
      { start with pending := some engine.path } :=
    ⟨Relation.ReflTransGen.single (CommitStep.announce unapplied), rfl, prepared, unapplied, rfl, rfl,
      fun _ member => nomatch member⟩
  have loop := @Meets.fold DreamHome DreamError Checkpoint Nat (fun _ _ => False)
    (CommitSteps engine start) (commitGroup engine) (Rounds engine start) []
    (range start.checkpoint.groups.length) start.checkpoint
  refine bind (write_meets Relation.ReflTransGen.refl) fun _ => bind
    (weaken (loop fun passed index left checkpoint split => commitGroup_meets split)
      (fun _ same => same ▸ announced) fun _ _ rounds => rounds) fun checkpoint => ?_
  refine pin fun seen rounds => ?_
  obtain ⟨reached, rfl, -, unapplied, announced, length, completed⟩ := rounds
  have all : ∀ group ∈ seen.checkpoint.groups, group.completed = true := by
    intro group member
    obtain ⟨index, bound, isGroup⟩ := mem_iff_getElem.mp member
    refine completed index (mem_range.mpr (length ▸ bound)) group ?_
    rw [List.getElem?_eq_getElem bound, isGroup]
  have traced := reached.tail (CommitStep.trace clock unapplied all)
  refine bind (write_meets reached) fun _ =>
    bind (write_meets traced) fun _ => Meets.ok ?_
  rintro _ rfl
  exact ⟨traced.tail (CommitStep.finish clock unapplied announced all), rfl, rfl, rfl⟩

theorem notAfter_refl (time : Option Instant) : notAfter time time = true := by
  cases time with
  | none => rfl
  | some time => exact decide_eq_true (le_refl time)

theorem extend_twice (versions other : Versions) :
    (versions.extend other).extend other = versions.extend other := by
  apply KeyedMap.ext_get?
  intro id
  unfold Versions.extend
  by_cases present : ∃ entry ∈ other.values, entry.1 = id
  · obtain ⟨entry, member, rfl⟩ := present
    rw [KeyedMap.get?_inserts_mem other.nodup_keys member,
      KeyedMap.get?_inserts_mem other.nodup_keys member]
  · exact KeyedMap.get?_inserts_other fun entry member same => present ⟨entry, member, same⟩

theorem after_twice (state : DreamState) (checkpoint : Checkpoint) :
    (state.after checkpoint).after checkpoint = state.after checkpoint := by
  unfold DreamState.after
  by_cases operation : checkpoint.operation.isSome
  · simp [operation, extend_twice]
  · by_cases latest : notAfter state.lastSuccessAt checkpoint.successAt
    · simp [operation, latest, notAfter_refl]
    · simp [operation, latest, extend_twice]

theorem closeCommit_meets (reached : CommitSteps engine start seen)
    (applied : seen.checkpoint.applied = true) :
    Meets (fun home => home = seen) (closeCommit seen.checkpoint)
      (fun _ home => CommitSteps engine start home ∧ home.checkpoint = seen.checkpoint ∧
        home.pending = none) (fun _ _ => False) (CommitSteps engine start) := by
  have remembered := reached.tail (CommitStep.remember applied)
  refine bind (write_meets reached) fun _ =>
    bind (write_meets remembered) fun _ => Meets.ok ?_
  rintro _ rfl
  exact ⟨remembered.tail (CommitStep.clear applied (after_twice _ _)), rfl, rfl⟩

theorem applyDreamCheckpointLocally_meets {clock : Readings}
    (prepared : Prepared engine start.checkpoint) :
    Meets (fun home => home = start) (applyDreamCheckpointLocally engine clock)
      (fun _ home => CommitSteps engine start home ∧ home.checkpoint.applied = true ∧
        home.pending = none ∧ (start.checkpoint.applied = false →
          home.checkpoint.successAt = some clock.succeeded))
      (fun failure home => failure = .anotherPending ∧ home = start ∧
        start.pending.all (fun path => path = engine.path) = false) (CommitSteps engine start) := by
  refine look fun found => pin fun held same => ?_
  obtain ⟨rfl, rfl⟩ := same
  refine ensure (fun refused home same => ⟨rfl, same, refused⟩) fun _ => ?_
  split_ifs with done applied
  · simp only [Bool.and_eq_true] at done
    refine Meets.ok ?_
    rintro _ rfl
    refine ⟨Relation.ReflTransGen.refl, done.1.2, by simpa using done.2, fun unapplied => ?_⟩
    rw [done.1.2] at unapplied
    cases unapplied
  · refine relax (weaken (closeCommit_meets Relation.ReflTransGen.refl applied)
      (fun _ same => same) ?_) (fun _ _ never => never.elim) fun _ steps => steps
    rintro _ home ⟨steps, same, clear⟩
    refine ⟨steps, same ▸ applied, clear, fun unapplied => ?_⟩
    rw [applied] at unapplied
    cases unapplied
  · refine relax (bind (commitGroups_meets prepared (by simpa using applied))
      fun checkpoint => pin fun seen reached => ?_) (fun _ _ never => never.elim)
      fun _ steps => steps
    obtain ⟨steps, rfl, applied, succeeded⟩ := reached
    refine weaken (closeCommit_meets steps applied) (fun _ same => same) ?_
    rintro _ home ⟨later, same, clear⟩
    exact ⟨later, same ▸ applied, clear, fun _ => same ▸ succeeded⟩

theorem commitOpenGroup_finishes :
    Checked.Finishes (commitOpenGroup engine checkpoint index group plan) := by
  refine Finishes.look fun home => Finishes.bind (Finishes.forAll fun claim => ?_) fun _ => ?_
  · refine Finishes.bind Finishes.ensure fun _ => ?_
    split_ifs
    · exact Finishes.ok
    · exact Finishes.write
  · refine Finishes.bind ?_ fun waiting => Finishes.bind Finishes.write fun _ =>
      Finishes.bind Finishes.write fun _ => Finishes.ok
    cases dependencies plan group _ with
    | ok waiting => exact Finishes.ok
    | error failure => exact Finishes.fail

theorem commitGroup_finishes : Checked.Finishes (commitGroup engine checkpoint index) := by
  unfold commitGroup
  cases checkpoint.groups[index]? with
  | none => exact Finishes.ok
  | some group =>
    simp only
    split_ifs
    · exact Finishes.ok
    · refine Finishes.bind ?_ fun plan => commitOpenGroup_finishes
      cases checkpoint.plan[index]? with
      | none => exact Finishes.fail
      | some plan => exact Finishes.ok

theorem applyDreamCheckpointLocally_finishes :
    Checked.Finishes (applyDreamCheckpointLocally engine clock) := by
  have closes : ∀ checkpoint, Checked.Finishes (closeCommit checkpoint) := fun checkpoint =>
    Finishes.bind Finishes.write fun _ => Finishes.bind Finishes.write fun _ => Finishes.ok
  refine Finishes.look fun home => Finishes.bind Finishes.ensure fun _ => ?_
  split_ifs
  · exact Finishes.ok
  · exact closes _
  · refine Finishes.bind ?_ closes
    exact Finishes.bind Finishes.write fun _ => Finishes.bind
      (Finishes.fold fun checkpoint index => commitGroup_finishes) fun checkpoint =>
        Finishes.bind Finishes.write fun _ => Finishes.bind Finishes.write fun _ => Finishes.ok

end AgentClaimNetwork.Dream
