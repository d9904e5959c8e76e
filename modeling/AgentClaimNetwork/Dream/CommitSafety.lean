import AgentClaimNetwork.Dream.CommitSteps
import AgentClaimNetwork.Library.Grouping

/-!
What holds after any attempts: which versions the job replaces, that sources are deprecated after
what carries them, and that all of it is staged and recorded.
-/

namespace AgentClaimNetwork.Dream

open Library Durable List

variable {engine : Engine} {group : PreparedGroup} {origin : Checkpoint}

def History.empty : History := ⟨[], [], [], ∅⟩

structure Fresh (engine : Engine) (home : DreamHome) : Prop where
  prepared : Prepared engine home.checkpoint
  unapplied : home.checkpoint.applied = false
  clear : home.pending = none
  history : home.history = History.empty

structure GroupsFrom (origin checkpoint : Checkpoint) : Prop where
  length : checkpoint.groups.length = origin.groups.length
  kept : ∀ (index : Nat) (group : PreparedGroup), checkpoint.groups[index]? = some group →
    ∃ first : PreparedGroup, origin.groups[index]? = some first ∧ first.before = group.before ∧
      first.after = group.after ∧ (group.completed = false → first.completed = false)

def WrittenSafely (origin : Checkpoint) (found : KeyedMap Claim.id) (claim : Claim) : Prop :=
  ∃ group ∈ origin.openGroups, claim ∈ group.after ∧
    ((∃ before ∈ group.before, before.id = claim.id ∧ found.get? claim.id = some before) ∨
      found.get? claim.id = some claim) ∧
    (claim.status = .deprecated → ∀ other ∈ group.after, other.status ≠ .deprecated →
      found.get? other.id = some other)

def MarkedSafely (origin : Checkpoint) (history : History) (index : Nat) (group : PreparedGroup) :
    Prop :=
  (∃ first, origin.groups[index]? = some first ∧ first.completed = true) ∨ group.skipped = true ∨
    ∃ found, (index, found) ∈ history.marks ∧
      ∀ target ∈ group.after, found.get? target.id = some target

def Recorded (engine : Engine) (home : DreamHome) (target : Claim) : Prop :=
  (∃ batch ∈ home.history.staged, target ∈ batch.claims) ∧
    home.checkpoint.selfVersions.get? target.id = some (target.id, engine.contentHash target)

def LeftBehind (engine : Engine) (origin : Checkpoint) (home : DreamHome) (id : ClaimId) : Prop :=
  ∃ (index : Nat) (first group : PreparedGroup) (target : Claim),
    origin.groups[index]? = some first ∧ first.completed = false ∧
    home.checkpoint.groups[index]? = some group ∧ target ∈ group.after ∧ target ∉ group.before ∧
    target.id = id ∧ home.claims.get? id = some target ∧
    (group.completed = true → Recorded engine home target)

structure CommitSound (engine : Engine) (origin : Checkpoint) (home : DreamHome) : Prop where
  prepared : Prepared engine home.checkpoint
  groups : GroupsFrom origin home.checkpoint
  writes : ∀ entry ∈ home.history.writes, WrittenSafely origin entry.1 entry.2
  marked : ∀ (index : Nat) (group : PreparedGroup), home.checkpoint.groups[index]? = some group → group.completed = true →
    MarkedSafely origin home.history index group
  applied : home.checkpoint.applied = true →
    ∀ group ∈ home.checkpoint.groups, group.completed = true
  authored : ∀ id ∈ home.history.authored, LeftBehind engine origin home id
  ours : home.pending.all (fun path => path = engine.path) = true
variable {id : ClaimId}

section

variable {staged : List Claim}

theorem recordVersion_get? : (recordVersion engine group versions claim).get? id =
      if claim.id = id ∧ claim ∉ group.before then some (claim.id, engine.contentHash claim)
      else versions.get? id := by
  unfold recordVersion
  split_ifs with kept same same
  · exact absurd kept same.2
  · rfl
  · rw [KeyedMap.get?_insert, if_pos same.1]
  · rw [KeyedMap.get?_insert, if_neg fun isId => same ⟨isId, kept⟩]

theorem recordVersions_other (other : ∀ claim ∈ staged, claim.id ≠ id) :
    (staged.foldl (recordVersion engine group) versions).get? id = versions.get? id := by
  induction staged generalizing versions with
  | nil => rfl
  | cons claim rest ih =>
    rw [foldl_cons, ih fun later member => other later (mem_cons_of_mem _ member),
      recordVersion_get?, if_neg fun same => other claim mem_cons_self same.1]

theorem recordVersions_mem (distinct : (staged.map Claim.id).Nodup) (member : target ∈ staged)
    (changed : target ∉ group.before) :
    (staged.foldl (recordVersion engine group) versions).get? target.id =
      some (target.id, engine.contentHash target) := by
  induction staged generalizing versions with
  | nil => cases member
  | cons claim rest ih =>
    rw [map_cons, nodup_cons] at distinct
    rcases mem_cons.mp member with isClaim | later
    · subst isClaim
      rw [foldl_cons, recordVersions_other fun other among same =>
        distinct.1 (mem_map.mpr ⟨other, among, same⟩), recordVersion_get?,
        if_pos ⟨rfl, changed⟩]
    · exact ih distinct.2 later

end

section

variable {home next : DreamHome}

theorem CommitSound.origin_open (sound : CommitSound engine origin home)
    (isFirst : FirstOpen home.checkpoint index group plan) :
    ∃ first, origin.groups[index]? = some first ∧ first.before = group.before ∧
      first.after = group.after ∧ first.completed = false := by
  obtain ⟨first, here, sameBefore, sameAfter, stillOpen⟩ := sound.groups.kept index group isFirst.here
  exact ⟨first, here, sameBefore, sameAfter, stillOpen isFirst.isOpen⟩

theorem LeftBehind.frame (left : LeftBehind engine origin home id)
    (sameCheckpoint : next.checkpoint = home.checkpoint)
    (sameClaim : next.claims.get? id = home.claims.get? id)
    (kept : ∀ batch ∈ home.history.staged, batch ∈ next.history.staged) :
    LeftBehind engine origin next id := by
  obtain ⟨index, first, group, target, isFirst, isOpen, here, member, changed, isId, onDisk,
    recorded⟩ := left
  refine ⟨index, first, group, target, isFirst, isOpen, sameCheckpoint ▸ here, member, changed, isId,
    sameClaim.trans onDisk, fun completed => ?_⟩
  obtain ⟨⟨batch, among, inBatch⟩, version⟩ := recorded completed
  exact ⟨⟨batch, kept batch among, inBatch⟩, sameCheckpoint ▸ version⟩

theorem CommitSound.writeClaim (sound : CommitSound engine origin home)
    (isFirst : FirstOpen home.checkpoint index group plan)
    (clean : home.conflicting engine group plan = false) (member : claim ∈ group.after)
    (absent : home.claims.get? claim.id ≠ some claim)
    (survivors : claim.status = .deprecated → ∀ other ∈ group.after, other.status ≠ .deprecated →
      home.claims.get? other.id = some other) :
    CommitSound engine origin (home.writeClaim claim) := by
  have well := sound.prepared.well isFirst
  obtain ⟨first, here, sameBefore, sameAfter, isOpen⟩ := sound.origin_open isFirst
  have unchanged : changedSince (ownedDreamClaims engine home.claims) group = false := by
    unfold DreamHome.conflicting conflict at clean
    simp only [Bool.or_eq_false_iff] at clean
    exact clean.1.1
  obtain ⟨before, among, isId, found⟩ : ∃ before ∈ group.before, before.id = claim.id ∧
      home.claims.get? claim.id = some before := by
    rcases well.unchanged unchanged member with ⟨before, among, isId, found⟩ | already
    · exact ⟨before, among, isId, (owned_get?_eq_some.mp found).1⟩
    · exact absurd (owned_get?_eq_some.mp already).1 absent
  refine ⟨sound.prepared, sound.groups, ?_, sound.marked, sound.applied, ?_, sound.ours⟩
  · intro entry isEntry
    rcases mem_concat isEntry with earlier | rfl
    · exact sound.writes entry earlier
    · refine ⟨first, mem_filter.mpr ⟨mem_of_getElem? here, by simp [isOpen]⟩,
        sameAfter ▸ member, .inl ⟨before, sameBefore ▸ among, isId, found⟩, ?_⟩
      rw [sameAfter]
      exact survivors
  · intro id isAuthored
    by_cases isClaim : claim.id = id
    · refine ⟨index, first, group, claim, here, isOpen, isFirst.here, member, ?_, isClaim, ?_, ?_⟩
      · intro isBefore
        rw [well.source_unique among isBefore isId] at found
        exact absent found
      · show (home.claims.insert claim).get? id = _
        rw [KeyedMap.get?_insert, if_pos isClaim]
      · intro completed
        rw [isFirst.isOpen] at completed
        cases completed
    · have earlier : id ∈ home.history.authored :=
        (Finset.mem_insert.mp isAuthored).resolve_left (Ne.symm isClaim)
      refine (sound.authored id earlier).frame rfl ?_ fun _ staged => staged
      show (home.claims.insert claim).get? id = _
      rw [KeyedMap.get?_insert, if_neg isClaim]

theorem GroupsFrom.marked (grown : GroupsFrom origin home.checkpoint)
    (isFirst : FirstOpen home.checkpoint index group plan) {staged : List Claim} :
    GroupsFrom origin (home.checkpoint.marked engine index group staged skipped) := by
  refine ⟨by simpa [Checkpoint.marked] using grown.length, fun other found isFound => ?_⟩
  simp only [Checkpoint.marked, List.getElem?_set] at isFound
  split_ifs at isFound with same
  · subst same
    obtain ⟨first, here, sameBefore, sameAfter, -⟩ := grown.kept index group isFirst.here
    cases isFound
    exact ⟨first, here, sameBefore, sameAfter, fun stillOpen => by cases stillOpen⟩
  · exact grown.kept other found isFound

section

variable (prepared : Prepared engine origin)
include prepared

section

variable (sound : CommitSound engine origin home)
include sound

theorem CommitSound.mark (unapplied : home.checkpoint.applied = false)
    (isFirst : FirstOpen home.checkpoint index group plan)
    (written : home.Written engine group plan)
    (staged : ⟨home.toStage engine group plan, waiting⟩ ∈ home.history.staged) :
    CommitSound engine origin (home.mark engine index group plan) := by
  have well := sound.prepared.well isFirst
  obtain ⟨first, here, sameBefore, sameAfter, isOpen⟩ := sound.origin_open isFirst
  refine ⟨sound.prepared.marked, sound.groups.marked isFirst, sound.writes, ?_, ?_, ?_, sound.ours⟩
  · intro other found isFound completed
    simp only [DreamHome.mark, Checkpoint.marked, List.getElem?_set] at isFound
    split_ifs at isFound with same
    · subst same
      cases isFound
      cases decided : home.conflicting engine group plan with
      | true => exact .inr (.inl rfl)
      | false =>
        refine .inr (.inr ⟨home.claims, ?_, written decided⟩)
        exact mem_append_right _ (mem_singleton.mpr rfl)
    · rcases sound.marked other found isFound completed with already | skipped | ⟨seen, mark, all⟩
      · exact .inl already
      · exact .inr (.inl skipped)
      · exact .inr (.inr ⟨seen, mem_append_left _ mark, all⟩)
  · intro applied
    have still : home.checkpoint.applied = true := applied
    rw [unapplied] at still
    cases still
  · intro id isAuthored
    obtain ⟨other, originGroup, found, target, isOrigin, originOpen, isFound, member, changed, isId,
      onDisk, recorded⟩ := sound.authored id isAuthored
    by_cases same : index = other
    · subst same
      rw [isFirst.here] at isFound
      cases isFound
      refine ⟨index, originGroup, { group with
        skipped := home.conflicting engine group plan, completed := true }, target, isOrigin, originOpen,
        ?_, member, changed, isId, onDisk, fun _ => ?_⟩
      · show (home.checkpoint.groups.set index _)[index]? = _
        rw [List.getElem?_set_self isFirst.bound]
      · have inBatch : target ∈ home.toStage engine group plan :=
          mem_stagedTargets.mpr ⟨member, fun _ =>
            owned_get?_eq_some.mpr ⟨isId ▸ onDisk, well.owned target member⟩⟩
        exact ⟨⟨_, staged, inBatch⟩, recordVersions_mem well.staged_distinct inBatch changed⟩
    · refine ⟨other, originGroup, found, target, isOrigin, originOpen, ?_, member, changed, isId,
        onDisk, fun completed => ?_⟩
      · show (home.checkpoint.groups.set index _)[other]? = _
        rw [List.getElem?_set_ne same]
        exact isFound
      · refine ⟨(recorded completed).1, ?_⟩
        show (foldl _ home.checkpoint.selfVersions _).get? target.id = _
        rw [recordVersions_other ?_]
        · exact (recorded completed).2
        · intro claim isStaged sameId
          obtain ⟨kept, isKept, -, keptAfter, -⟩ := sound.groups.kept other found isFound
          rw [isOrigin] at isKept
          cases isKept
          exact same (prepared.apart here isOrigin isOpen originOpen
            (sameAfter ▸ (mem_stagedTargets.mp isStaged).1) (keptAfter ▸ member) sameId)

theorem CommitSound.step (taken : CommitStep engine home next) :
    CommitSound engine origin next := by
  cases taken with
  | announce => exact ⟨sound.prepared, sound.groups, sound.writes, sound.marked, sound.applied,
      sound.authored, by simp⟩
  | write unapplied isFirst clean member absent survivors =>
    exact sound.writeClaim isFirst clean member absent survivors
  | stage unapplied isFirst written isWaiting =>
    refine ⟨sound.prepared, sound.groups, sound.writes, sound.marked, sound.applied, ?_, sound.ours⟩
    intro id isAuthored
    exact (sound.authored id isAuthored).frame rfl rfl fun batch member =>
      mem_append_left _ member
  | mark unapplied isFirst written isWaiting staged settled =>
    exact sound.mark prepared unapplied isFirst written staged
  | trace clock unapplied all | remember applied =>
    exact ⟨sound.prepared, sound.groups, sound.writes, sound.marked,
      sound.applied, sound.authored, sound.ours⟩
  | finish clock unapplied announced all => exact ⟨sound.prepared.finished,
      ⟨sound.groups.length, sound.groups.kept⟩, sound.writes, sound.marked, fun _ => all,
      sound.authored, sound.ours⟩
  | clear applied settled => exact ⟨sound.prepared, sound.groups, sound.writes, sound.marked,
      sound.applied, sound.authored, rfl⟩

theorem CommitSound.steps (taken : CommitSteps engine home next) :
    CommitSound engine origin next := by
  induction taken with
  | refl => exact sound
  | tail _ step ih => exact ih.step prepared step

end

end

theorem Fresh.sound (fresh : Fresh engine home) : CommitSound engine home.checkpoint home where
  prepared := fresh.prepared
  groups := ⟨rfl, fun index group here => ⟨group, here, rfl, rfl, fun isOpen => isOpen⟩⟩
  writes := by
    rw [fresh.history]
    exact fun entry member => nomatch member
  marked := fun index group here completed => .inl ⟨group, here, completed⟩
  applied := by
    rw [fresh.unapplied]
    exact fun never => nomatch never
  authored := by
    rw [fresh.history]
    exact fun id member => absurd member (Finset.notMem_empty id)
  ours := by
    rw [fresh.clear]
    rfl

end

variable {home : DreamHome}

theorem attempt_steps (prepared : Prepared engine home.checkpoint) (clock : Readings)
    (fates : List Fate) : CommitSteps engine home (home.step engine (.attempt clock fates)) := by
  have ends := @applyDreamCheckpointLocally_meets engine home clock prepared home fates rfl
  show CommitSteps engine home (applyDreamCheckpointLocally engine clock home fates).store
  cases ended : applyDreamCheckpointLocally engine clock home fates with
  | value answer last rest =>
    rw [ended] at ends
    cases answer with
    | ok report => exact ends.1
    | error failure =>
      have same : last = home := ends.2.1
      rw [same]
      exact Relation.ReflTransGen.refl
  | error last rest | stopped last =>
    rw [ended] at ends
    exact ends

theorem CommitSound.event (prepared : Prepared engine origin) (sound : CommitSound engine origin home)
    {event : Event} : CommitSound engine origin (home.step engine event) := by
  cases event with
  | attempt clock fates => exact sound.steps prepared (attempt_steps sound.prepared clock fates)
  | editClaim claim =>
    refine ⟨sound.prepared, sound.groups, sound.writes, sound.marked, sound.applied, ?_, sound.ours⟩
    intro id isAuthored
    obtain ⟨different, earlier⟩ := Finset.mem_erase.mp isAuthored
    refine (sound.authored id earlier).frame rfl ?_ fun _ staged => staged
    show (home.claims.insert claim).get? id = _
    rw [KeyedMap.get?_insert, if_neg different.symm]
  | removeClaim removed =>
    refine ⟨sound.prepared, sound.groups, sound.writes, sound.marked, sound.applied, ?_, sound.ours⟩
    intro id isAuthored
    obtain ⟨different, earlier⟩ := Finset.mem_erase.mp isAuthored
    refine (sound.authored id earlier).frame rfl ?_ fun _ staged => staged
    show (home.claims.erase removed).get? id = _
    rw [KeyedMap.get?_erase, if_neg different]
  | changeFile path revision => exact ⟨sound.prepared, sound.groups, sound.writes, sound.marked,
      sound.applied, sound.authored, sound.ours⟩

theorem Fresh.run_sound (fresh : Fresh engine home) (events : List Event) :
    CommitSound engine home.checkpoint (home.run engine events) := by
  induction events using reverseRecOn with
  | nil => exact fresh.sound
  | append_singleton events event ih =>
    unfold DreamHome.run at ih ⊢
    rw [foldl_append]
    exact ih.event fresh.prepared

end AgentClaimNetwork.Dream
