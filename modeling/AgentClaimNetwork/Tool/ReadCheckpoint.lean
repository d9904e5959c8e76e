import AgentClaimNetwork.Library.Trace
import AgentClaimNetwork.Tool.ReadState

/-!
The read-state store over whole runs: a rollback brings back what its scope had, as long as no
other scope pushes it out.
-/

namespace AgentClaimNetwork.Tool

open Library List
open Function (update update_of_ne update_self)
open Prod (fst mk)

variable {inner : Inner} {key : ReadStateKey} {value : Option FileReadState}

inductive Operation
  | beginCheckpoint (scope : ReadStateScope) (turnId : Text)
  | record (scope : ReadStateScope) (evidence : ReadEvidence)
  | evaluate (scope : ReadStateScope) (path : Text) (revision : ContentRevision)
  | clearPath (scope : ReadStateScope) (path : Text)
  | clearScope (scope : ReadStateScope)
  | clearSession (sessionId : Text)
  | commitCheckpoint (scope : ReadStateScope) (turnId : Text)
  | rollbackCheckpoint (scope : ReadStateScope) (turnId : Text)

/-- The order in which a checkpoint yields its images is open. -/
inductive Operation.Step : Inner → Operation → Inner → Prop
  | beginCheckpoint (inner scope turnId) :
      Step inner (.beginCheckpoint scope turnId) (Tool.beginCheckpoint inner scope turnId)
  | record (inner scope evidence) :
      Step inner (.record scope evidence) (Tool.record inner scope evidence)
  | evaluate (inner scope path revision) :
      Step inner (.evaluate scope path revision) (Tool.evaluate inner scope path revision).2
  | clearPath (inner scope path) :
      Step inner (.clearPath scope path) (Tool.clearPath inner scope path)
  | clearScope (inner scope) : Step inner (.clearScope scope) (Tool.clearScope inner scope)
  | clearSession (inner sessionId) :
      Step inner (.clearSession sessionId) (Tool.clearSession inner sessionId)
  | commitCheckpoint (inner scope turnId) :
      Step inner (.commitCheckpoint scope turnId) (Tool.commitCheckpoint inner scope turnId)
  | rollbackCheckpoint (inner scope turnId) (images : List BeforeImage)
      (listed : ∀ checkpoint, inner.checkpoints scope = some checkpoint →
        images.Perm checkpoint.before) :
      Step inner (.rollbackCheckpoint scope turnId)
        (Tool.rollbackCheckpoint inner scope turnId images)

section

structure Tidy (ranges : List LineRange) : Prop where
  separated : Separated ranges
  few : ranges.length ≤ readStateMaxRangesPerFile

structure Imaged (images : List BeforeImage) : Prop where
  nodup : (images.map fst).Nodup
  ranges : ∀ key state, (key, some state) ∈ images → Tidy state.ranges

structure Listed (inner : Inner) : Prop where
  nodup : inner.order.Nodup
  keys : ∀ key, key ∈ inner.order ↔ (inner.map key).isSome = true
  ranges : ∀ key state, inner.map key = some state → Tidy state.ranges
  images : ∀ scope checkpoint, inner.checkpoints scope = some checkpoint →
    Imaged checkpoint.before

structure WellFormed (inner : Inner) : Prop extends Listed inner where
  small : inner.order.length ≤ readStateMaxEntries

variable {scope : ReadStateScope}

variable (listed : Listed inner)

include listed in
theorem Listed.removeKey : Listed (removeKey inner key) where
  nodup := listed.nodup.filter _
  keys other := by
    by_cases same : other = key
    · subst same
      simp [Tool.removeKey]
    · simp [Tool.removeKey, same, listed.keys other]
  ranges other state found := by
    rcases update_cases found with ⟨rfl, written⟩ | ⟨same, found⟩
    · cases written
    · exact listed.ranges other state found
  images := listed.images

theorem Imaged.capture {checkpoint : ReadStateCheckpoint} (imaged : Imaged checkpoint.before)
    {before : Option FileReadState} (tidy : ∀ state ∈ before, Tidy state.ranges) : Imaged (checkpoint.capture key before).before := by
  unfold ReadStateCheckpoint.capture
  split_ifs with seen
  · exact imaged
  · constructor
    · rw [map_append, nodup_append]
      refine ⟨imaged.nodup, by simp, ?_⟩
      intro left inLeft right inRight same
      rw [map_singleton, mem_singleton] at inRight
      rw [same, inRight] at inLeft
      exact seen inLeft
    · intro other state member
      rcases mem_concat member with old | new
      · exact imaged.ranges other state old
      · obtain ⟨rfl, isState⟩ := mk.inj new
        exact tidy state isState.symm

include listed in
theorem Listed.captureBefore : Listed (captureBefore inner scope key) where
  nodup := listed.nodup
  keys := listed.keys
  ranges := listed.ranges
  images other checkpoint found := by
    by_cases same : other = scope
    · subst same
      simp only [Tool.captureBefore, update_self, Option.map_eq_some_iff] at found
      obtain ⟨earlier, held, rfl⟩ := found
      exact (listed.images other earlier held).capture
        (fun state isState => listed.ranges key state isState)
    · simp only [Tool.captureBefore, update_of_ne same] at found
      exact listed.images other checkpoint found

variable {state : FileReadState}

include listed

theorem Listed.insertStateUntracked (tidy : Tidy state.ranges) :
    Listed (insertStateUntracked inner key state) where
  nodup := by
    unfold Tool.insertStateUntracked
    split_ifs with isNew
    · rw [nodup_append]
      refine ⟨listed.nodup, by simp, ?_⟩
      intro left inLeft right inRight same
      rw [mem_singleton.mp inRight] at same
      rw [same, listed.keys, Option.isSome_iff_ne_none] at inLeft
      exact inLeft (Option.isNone_iff_eq_none.mp isNew)
    · exact listed.nodup
  keys other := by
    by_cases same : other = key
    · subst same
      cases held : inner.map other with
      | none => simp [Tool.insertStateUntracked, held]
      | some state =>
        have member : other ∈ inner.order := (listed.keys other).mpr (by rw [held]; rfl)
        simp [Tool.insertStateUntracked, held, member]
    · by_cases isNew : (inner.map key).isNone = true
      all_goals simp [Tool.insertStateUntracked, isNew, same, listed.keys other]
  ranges other found isState := by
    rcases update_cases isState with ⟨rfl, written⟩ | ⟨same, isState⟩
    · cases written
      exact tidy
    · exact listed.ranges other found isState
  images := listed.images

theorem Listed.evict : Listed (evict inner key) :=
  { listed.removeKey with }

omit listed

theorem evictWhileFull_small {note : Inner → ReadStateKey → Inner}
    (quiet : ∀ inner key, (note inner key).order = inner.order) {turns : Nat}
    (enough : inner.order.length ≤ turns + readStateMaxEntries) :
    (evictWhileFull note turns inner).order.length ≤ readStateMaxEntries := by
  induction turns generalizing inner with
  | zero =>
    exact enough
  | succ turns ih =>
    rw [evictWhileFull]
    split_ifs with fits
    · exact fits
    · split
      · rename_i empty
        rw [empty, length_nil] at fits
        omega
      · rename_i evicted rest order
        apply ih
        have shorter : (inner.order.filter fun candidate => candidate ≠ evicted).length <
            inner.order.length := by
          apply length_filter_lt_length_iff_exists.mpr
          exact ⟨evicted, by rw [order]; simp, by simp⟩
        have same : (evict (note inner evicted) evicted).order =
            inner.order.filter fun candidate => candidate ≠ evicted := by
          simp only [Tool.evict, Tool.removeKey, quiet]
        rw [same]
        omega

include listed

theorem Listed.insertState (tidy : Tidy state.ranges) :
    WellFormed (insertState inner scope key state) where
  toListed := by
    apply evictWhileFull_induction
    · intro inner evicted rest _ _ listed
      exact (listed.captureBefore).evict
    · exact listed.insertStateUntracked tidy
  small := by
    apply evictWhileFull_small
    · intro _ _
      rfl
    · exact Nat.le_add_right _ _

theorem Listed.enforceCapacity : WellFormed (enforceCapacity inner) where
  toListed := by
    apply evictWhileFull_induction
    · intro inner evicted rest _ _ listed
      exact listed.evict
    · exact listed
  small := evictWhileFull_small (fun _ _ => rfl) (Nat.le_add_right _ _)

theorem Listed.restore
    (tidy : ∀ state, image.2 = some state → Tidy state.ranges) : Listed (restore inner image) := by
  obtain ⟨key, state⟩ := image
  cases state with
  | none => exact listed
  | some state => exact listed.insertStateUntracked (tidy state rfl)

omit listed

variable {images : List BeforeImage}

include listed

theorem Listed.restoreAll (tidy : ∀ key state, (key, some state) ∈ images → Tidy state.ranges) :
    Listed (images.foldl Tool.restore inner) := by
  induction images generalizing inner with
  | nil => exact listed
  | cons image rest ih =>
    apply ih
    · apply listed.restore
      intro state isState
      exact tidy image.1 state (by rw [← isState]; simp)
    · exact fun key state member => tidy key state (by simp [member])

theorem Listed.removeAll {keys : List ReadStateKey} : Listed (keys.foldl Tool.removeKey inner) := by
  induction keys generalizing inner with
  | nil => exact listed
  | cons key rest ih => exact ih listed.removeKey

theorem Listed.withoutCheckpoint (scope : ReadStateScope) :
    Listed { inner with checkpoints := update inner.checkpoints scope none } where
  nodup := listed.nodup
  keys := listed.keys
  ranges := listed.ranges
  images other checkpoint found := by
    rcases update_cases found with ⟨rfl, written⟩ | ⟨same, found⟩
    · cases written
    · exact listed.images other checkpoint found

omit listed

theorem Imaged.filter (imaged : Imaged images) : Imaged (images.filter kept) where
  nodup := imaged.nodup.sublist (filter_sublist.map fst)
  ranges key state member := imaged.ranges key state (mem_of_mem_filter member)

theorem WellFormed.clearKeys (formed : WellFormed inner) : WellFormed (clearKeys inner doomed) where
  nodup := formed.nodup.filter _
  keys other := by
    by_cases gone : doomed other = true
    · simp [Tool.clearKeys, clearCheckpointBeforeImages, gone]
    · simp [Tool.clearKeys, clearCheckpointBeforeImages, gone, formed.keys other]
  ranges other state found := by
    simp only [Tool.clearKeys, clearCheckpointBeforeImages] at found
    split_ifs at found
    exact formed.ranges other state found
  images other checkpoint found := by
    simp only [Tool.clearKeys, clearCheckpointBeforeImages, Option.map_eq_some_iff] at found
    obtain ⟨earlier, held, rfl⟩ := found
    exact (formed.images other earlier held).filter
  small := (length_filter_le _ _).trans formed.small

theorem WellFormed.removeKey (formed : WellFormed inner) : WellFormed (removeKey (captureBefore inner scope key) key) where
  toListed := (formed.captureBefore).removeKey
  small := (length_filter_le _ _).trans formed.small

theorem WellFormed.record (formed : WellFormed inner) : WellFormed (record inner scope evidence) := by
  unfold Tool.record
  dsimp only
  split_ifs with many
  · exact formed.removeKey
  · refine (formed.captureBefore).insertState ⟨?_, by omega⟩
    exact mergeRanges_separated _

theorem WellFormed.rollbackCheckpoint (formed : WellFormed inner) {turnId : Text}
    (listed : ∀ checkpoint, inner.checkpoints scope = some checkpoint →
      images.Perm checkpoint.before) :
    WellFormed (rollbackCheckpoint inner scope turnId images) := by
  unfold Tool.rollbackCheckpoint
  split_ifs with owned
  · unfold ownsCheckpoint at owned
    split at owned
    · rename_i checkpoint held
      have imaged := formed.images scope checkpoint held
      have perm := listed checkpoint held
      apply Listed.enforceCapacity
      apply Listed.restoreAll
      · exact (formed.withoutCheckpoint scope).removeAll
      · exact fun key state member => imaged.ranges key state (perm.subset member)
    · cases owned
  · exact formed

theorem WellFormed.step {next : Inner} (step : Operation.Step inner operation next)
    (formed : WellFormed inner) : WellFormed next := by
  cases step with
  | beginCheckpoint scope turnId =>
    unfold Tool.beginCheckpoint
    split
    · exact formed
    · refine { formed with images := ?_ }
      intro other checkpoint found
      rcases update_cases found with ⟨rfl, written⟩ | ⟨same, found⟩
      · cases written
        exact ⟨nodup_nil, by simp⟩
      · exact formed.images other checkpoint found
  | record scope evidence => exact formed.record
  | evaluate scope path revision =>
    unfold Tool.evaluate
    dsimp only
    split
    · exact formed
    · split_ifs
      · exact formed.removeKey
      · exact formed
  | clearPath scope path => exact formed.removeKey
  | clearScope scope | clearSession sessionId => exact formed.clearKeys
  | commitCheckpoint scope turnId =>
    unfold Tool.commitCheckpoint
    split_ifs
    · exact ⟨formed.withoutCheckpoint scope, formed.small⟩
    · exact formed
  | rollbackCheckpoint scope turnId images listed => exact formed.rollbackCheckpoint listed

theorem WellFormed.empty : WellFormed Inner.empty :=
  ⟨⟨nodup_nil, by simp [Inner.empty], by simp [Inner.empty], by simp [Inner.empty]⟩,
    Nat.zero_le _⟩

end

section

def Operation.Spares (inner : Inner) : Operation → Prop
  | .record scope evidence =>
    (inner.checkpoints scope).isSome = true → (inner.map (scope, evidence.path)).isNone = true →
      (mergeRanges evidence.ranges).length ≤ readStateMaxRangesPerFile →
      inner.order.length = readStateMaxEntries →
      ∀ oldest ∈ inner.order.head?, oldest.1 = scope
  | _ => True

def CarefulStep (inner : Inner) (operation : Operation) (next : Inner) : Prop :=
  operation.Spares inner ∧ Operation.Step inner operation next

def OwnImages (inner : Inner) : Prop :=
  ∀ scope checkpoint, inner.checkpoints scope = some checkpoint →
    ∀ image ∈ checkpoint.before, image.1.1 = scope

variable {scope : ReadStateScope} {turnId : Text}
variable {checkpoint : ReadStateCheckpoint} {before : Option FileReadState}

theorem ReadStateCheckpoint.mem_capture (member : image ∈ (checkpoint.capture key before).before) :
    image ∈ checkpoint.before ∨ (image = (key, before) ∧ key ∉ checkpoint.before.map fst) := by
  unfold capture at member
  split_ifs at member with seen
  · exact .inl member
  · rcases mem_concat member with old | new
    · exact .inl old
    · exact .inr ⟨new, seen⟩

theorem OwnImages.captureBefore (own : OwnImages inner)
    (mine : (inner.checkpoints scope).isSome = true → key.1 = scope) :
    OwnImages (captureBefore inner scope key) := by
  intro other checkpoint found image member
  by_cases same : other = scope
  · subst same
    simp only [Tool.captureBefore, update_self, Option.map_eq_some_iff] at found
    obtain ⟨earlier, held, rfl⟩ := found
    rcases ReadStateCheckpoint.mem_capture member with old | ⟨rfl, _⟩
    · exact own other earlier held image old
    · exact mine (by rw [held]; rfl)
  · simp only [Tool.captureBefore, update_of_ne same] at found
    exact own other checkpoint found image member

theorem evictWhileFull_fits (note : Inner → ReadStateKey → Inner) (turns : Nat)
    (small : inner.order.length ≤ readStateMaxEntries) :
    evictWhileFull note turns inner = inner := by
  cases turns with
  | zero => rfl
  | succ turns => rw [evictWhileFull, if_pos small]

theorem evictWhileFull_once {note : Inner → ReadStateKey → Inner}
    (quiet : ∀ inner key, (note inner key).order = inner.order)
    (overfull : inner.order.length ≤ readStateMaxEntries + 1) (turns : Nat) :
    evictWhileFull note turns inner = inner ∨
      ∃ oldest rest, inner.order = oldest :: rest ∧ readStateMaxEntries < inner.order.length ∧
        evictWhileFull note turns inner = evict (note inner oldest) oldest := by
  cases turns with
  | zero => exact .inl rfl
  | succ turns =>
    by_cases small : inner.order.length ≤ readStateMaxEntries
    · exact .inl (evictWhileFull_fits note _ small)
    · right
      cases order : inner.order with
      | nil =>
        rw [order, length_nil] at small
        omega
      | cons oldest rest =>
        refine ⟨oldest, rest, rfl, by rw [order] at small; omega, ?_⟩
        rw [evictWhileFull, if_neg small, order]
        apply evictWhileFull_fits
        have shorter : (inner.order.filter fun candidate => candidate ≠ oldest).length <
            inner.order.length := by
          apply length_filter_lt_length_iff_exists.mpr
          exact ⟨oldest, by rw [order]; simp, by simp⟩
        have same : (evict (note inner oldest) oldest).order =
            inner.order.filter fun candidate => candidate ≠ oldest := by
          simp only [evict, removeKey, quiet]
        rw [same]
        omega

theorem OwnImages.record (formed : WellFormed inner) (own : OwnImages inner)
    (spares : (Operation.record scope evidence).Spares inner) :
    OwnImages (record inner scope evidence) := by
  have captured : OwnImages (Tool.captureBefore inner scope (scope, evidence.path)) :=
    own.captureBefore fun _ => rfl
  unfold Tool.record
  dsimp only
  split_ifs with many
  · exact captured
  · unfold insertState
    generalize isState : recordedState ((Tool.captureBefore inner scope
      (scope, evidence.path)).map (scope, evidence.path)) evidence = state at many
    generalize isInserted : insertStateUntracked (Tool.captureBefore inner scope
      (scope, evidence.path)) (scope, evidence.path) state = inserted
    have own : OwnImages inserted := by
      rw [← isInserted]
      exact captured
    have small := formed.small
    have order : inserted.order = if (inner.map (scope, evidence.path)).isNone then
        inner.order ++ [(scope, evidence.path)] else inner.order := by
      rw [← isInserted]
      rfl
    have overfull : inserted.order.length ≤ readStateMaxEntries + 1 := by
      rw [order]
      split_ifs
      · rw [length_append, length_singleton]
        omega
      · omega
    have once := @evictWhileFull_once inserted
      (fun inner evicted => Tool.captureBefore inner scope evicted) (fun _ _ => rfl) overfull
      inserted.order.length
    rcases once with same | ⟨oldest, rest, head, full, same⟩
    · rw [same]
      exact own
    · rw [same]
      refine own.captureBefore fun active => ?_
      have isNew : (inner.map (scope, evidence.path)).isNone = true := by
        by_contra known
        rw [order, if_neg known] at full
        omega
      rw [order, if_pos isNew] at head full
      rw [length_append, length_singleton] at full
      have still : (inner.checkpoints scope).isSome = true := by
        rw [← isInserted] at active
        simpa [insertStateUntracked, Tool.captureBefore] using active
      have few : (mergeRanges evidence.ranges).length ≤ readStateMaxRangesPerFile := by
        have nothing : (Tool.captureBefore inner scope (scope, evidence.path)).map
            (scope, evidence.path) = none := Option.isNone_iff_eq_none.mp isNew
        rw [nothing] at isState
        have ranges : state.ranges = mergeRanges evidence.ranges := by
          rw [← isState]
          rfl
        rw [← ranges]
        omega
      refine spares still isNew few (by omega) oldest ?_
      cases listed : inner.order with
      | nil =>
        rw [listed, length_nil] at full
        unfold readStateMaxEntries at full
        omega
      | cons first others =>
        rw [listed] at head
        simp only [cons_append, List.cons.injEq] at head
        rw [head.1]
        rfl

theorem OwnImages.withoutCheckpoint (own : OwnImages inner) (scope : ReadStateScope) :
    OwnImages { inner with checkpoints := update inner.checkpoints scope none } := by
  intro other checkpoint found
  rcases update_cases found with ⟨rfl, written⟩ | ⟨same, found⟩
  · cases written
  · exact own other checkpoint found

theorem OwnImages.clearKeys (own : OwnImages inner) : OwnImages (clearKeys inner doomed) := by
  intro other checkpoint found image member
  simp only [Tool.clearKeys, clearCheckpointBeforeImages, Option.map_eq_some_iff] at found
  obtain ⟨earlier, held, rfl⟩ := found
  exact own other earlier held image (mem_of_mem_filter member)

theorem evictWhileFull_checkpoints (turns : Nat) (inner : Inner) :
    (evictWhileFull (fun inner _ => inner) turns inner).checkpoints = inner.checkpoints := by
  refine evictWhileFull_induction (P := fun other => other.checkpoints = inner.checkpoints)
    ?_ turns rfl
  intro other evicted rest _ _ same
  exact same

theorem restoreAll_rest (images : List BeforeImage) (inner : Inner) :
    (images.foldl restore inner).checkpoints = inner.checkpoints ∧
      (images.foldl restore inner).evicted = inner.evicted := by
  induction images generalizing inner with
  | nil => exact ⟨rfl, rfl⟩
  | cons image rest ih =>
    rw [foldl_cons, (ih _).1, (ih _).2]
    obtain ⟨key, _ | state⟩ := image <;> exact ⟨rfl, rfl⟩

theorem removeAll_rest (keys : List ReadStateKey) (inner : Inner) :
    (keys.foldl removeKey inner).checkpoints = inner.checkpoints ∧
      (keys.foldl removeKey inner).evicted = inner.evicted := by
  induction keys generalizing inner with
  | nil => exact ⟨rfl, rfl⟩
  | cons key rest ih => exact ih (removeKey inner key)

theorem rollbackCheckpoint_checkpoints (owned : ownsCheckpoint inner scope turnId = true) :
    (rollbackCheckpoint inner scope turnId images).checkpoints =
      update inner.checkpoints scope none := by
  unfold Tool.rollbackCheckpoint enforceCapacity
  rw [if_pos owned, evictWhileFull_checkpoints, (restoreAll_rest _ _).1,
    (removeAll_rest _ _).1]

variable {next : Inner}

theorem OwnImages.step (formed : WellFormed inner)
    (own : OwnImages inner) (careful : CarefulStep inner operation next) : OwnImages next := by
  obtain ⟨spares, step⟩ := careful
  cases step with
  | beginCheckpoint scope turnId =>
    unfold Tool.beginCheckpoint
    split
    · exact own
    · intro other checkpoint found
      rcases update_cases found with ⟨rfl, written⟩ | ⟨same, found⟩
      · cases written
        simp
      · exact own other checkpoint found
  | record scope evidence => exact own.record formed spares
  | evaluate scope path revision =>
    unfold Tool.evaluate
    dsimp only
    split
    · exact own
    · split_ifs
      · exact own.captureBefore fun _ => rfl
      · exact own
  | clearPath scope path => exact own.captureBefore fun _ => rfl
  | clearScope scope | clearSession sessionId => exact own.clearKeys
  | commitCheckpoint scope turnId =>
    unfold Tool.commitCheckpoint
    split_ifs
    · exact own.withoutCheckpoint scope
    · exact own
  | rollbackCheckpoint scope turnId images listed =>
    by_cases owned : ownsCheckpoint inner scope turnId = true
    · unfold OwnImages
      rw [rollbackCheckpoint_checkpoints owned]
      exact own.withoutCheckpoint scope
    · unfold Tool.rollbackCheckpoint
      rw [if_neg owned]
      exact own

def Unless (since : Nat) (key : ReadStateKey) (P : Inner → Prop) (inner : Inner) : Prop :=
  since ≤ inner.evicted.length ∧ (P inner ∨ key ∈ inner.evicted.drop since)

theorem Unless.evict {P : Inner → Prop} (standing : Unless since key P inner)
    (quiet : noted.evicted = inner.evicted)
    (kept : evicted ≠ key → P inner → P (evict noted evicted)) :
    Unless since key P (evict noted evicted) := by
  obtain ⟨bound, holds⟩ := standing
  have list : (Tool.evict noted evicted).evicted = inner.evicted ++ [evicted] := by
    simp only [Tool.evict, quiet]
  refine ⟨by rw [list, length_append]; omega, ?_⟩
  rw [list, drop_append_of_le_length bound]
  by_cases same : evicted = key
  · exact .inr (by simp [same])
  · rcases holds with holds | gone
    · exact .inl (kept same holds)
    · exact .inr (mem_append_left _ gone)

theorem enforceCapacity_map (bound : since ≤ inner.evicted.length) (held : inner.map key = value) :
    Unless since key (fun inner => inner.map key = value) (enforceCapacity inner) := by
  apply evictWhileFull_induction
  · intro inner evicted rest _ _ standing
    refine standing.evict rfl ?_
    intro different same
    simp only [evict, removeKey, update_of_ne (Ne.symm different), same]
  · exact ⟨bound, .inl held⟩

theorem enforceCapacity_none (inner : Inner) (key : ReadStateKey) :
    (enforceCapacity inner).map key = inner.map key ∨ (enforceCapacity inner).map key = none := by
  refine evictWhileFull_induction
    (P := fun next => next.map key = inner.map key ∨ next.map key = none) ?_ _ ?_
  · intro other evicted rest _ _ either
    by_cases same : key = evicted
    · right
      simp [evict, removeKey, same]
    · simpa only [evict, removeKey, update_of_ne same] using either
  · exact .inl rfl

theorem removeAll_map (keys : List ReadStateKey) (inner : Inner) (key : ReadStateKey) :
    (keys.foldl removeKey inner).map key = if key ∈ keys then none else inner.map key := by
  induction keys generalizing inner with
  | nil => simp
  | cons first rest ih =>
    rw [foldl_cons, ih]
    by_cases same : key = first
    · subst same
      simp [removeKey]
    · simp [removeKey, same]

variable {images : List BeforeImage}

theorem restoreAll_foreign (inner : Inner) (foreign : key ∉ images.map fst) :
    (images.foldl restore inner).map key = inner.map key := by
  induction images generalizing inner with
  | nil => rfl
  | cons image rest ih =>
    rw [map_cons, mem_cons, not_or] at foreign
    rw [foldl_cons, ih _ foreign.2]
    obtain ⟨other, _ | state⟩ := image
    · rfl
    · simp only [restore, insertStateUntracked, update_of_ne foreign.1]

theorem restoreAll_own (inner : Inner)
    (nodup : (images.map fst).Nodup) (member : (key, value) ∈ images)
    (absent : inner.map key = none) : (images.foldl restore inner).map key = value := by
  induction images generalizing inner with
  | nil => cases member
  | cons image rest ih =>
    rw [map_cons, nodup_cons] at nodup
    rw [foldl_cons]
    rcases mem_cons.mp member with rfl | later
    · rw [restoreAll_foreign _ nodup.1]
      cases value with
      | none => exact absent
      | some state => simp [restore, insertStateUntracked]
    · apply ih _ nodup.2 later
      have different : key ≠ image.1 := by
        rintro rfl
        exact nodup.1 (mem_map.mpr ⟨_, later, rfl⟩)
      obtain ⟨other, _ | state⟩ := image
      · exact absent
      · simp only [restore, insertStateUntracked, update_of_ne different, absent]

theorem rollbackCheckpoint_foreign
    (foreign : key ∉ images.map fst) (bound : since ≤ inner.evicted.length) :
    Unless since key (fun next => next.map key = inner.map key)
      (rollbackCheckpoint inner scope turnId images) := by
  unfold Tool.rollbackCheckpoint
  split_ifs with owned
  · apply enforceCapacity_map
    · rw [(restoreAll_rest _ _).2, (removeAll_rest _ _).2]
      exact bound
    · rw [restoreAll_foreign _ foreign, removeAll_map, if_neg foreign]
  · exact ⟨bound, .inl rfl⟩

theorem rollbackCheckpoint_none (foreign : key ∉ images.map fst) :
    (rollbackCheckpoint inner scope turnId images).map key = inner.map key ∨
      (rollbackCheckpoint inner scope turnId images).map key = none := by
  unfold Tool.rollbackCheckpoint
  split_ifs with owned
  · have either := enforceCapacity_none (images.foldl restore ((images.map fst).foldl removeKey
      { inner with checkpoints := update inner.checkpoints scope none })) key
    rwa [restoreAll_foreign _ foreign, removeAll_map, if_neg foreign] at either
  · exact .inl rfl

theorem rollbackCheckpoint_own
    (owned : ownsCheckpoint inner scope turnId = true) (nodup : (images.map fst).Nodup)
    (member : (key, value) ∈ images) (bound : since ≤ inner.evicted.length) :
    Unless since key (fun next => next.map key = value)
      (rollbackCheckpoint inner scope turnId images) := by
  have listed : key ∈ images.map fst := mem_map.mpr ⟨_, member, rfl⟩
  unfold Tool.rollbackCheckpoint
  rw [if_pos owned]
  apply enforceCapacity_map
  · rw [(restoreAll_rest _ _).2, (removeAll_rest _ _).2]
    exact bound
  · apply restoreAll_own _ nodup member
    rw [removeAll_map, if_pos listed]

section

variable (scope : ReadStateScope) (turnId : Text) (key : ReadStateKey)
  (value : Option FileReadState) (inner : Inner)

def Remembers : Prop :=
  ∃ checkpoint, inner.checkpoints scope = some checkpoint ∧ checkpoint.turnId = turnId ∧
    (∀ image ∈ checkpoint.before, image.1 = key → image.2 = value) ∧
    (key ∉ checkpoint.before.map fst → inner.map key = value)

def Holds : Prop :=
  ∃ checkpoint, inner.checkpoints scope = some checkpoint ∧ checkpoint.turnId = turnId ∧
    (∀ image ∈ checkpoint.before, image.1 = key → image.2 = value) ∧
    key ∈ checkpoint.before.map fst

end

theorem Holds.remembers (holds : Holds scope turnId key value inner) :
    Remembers scope turnId key value inner := by
  obtain ⟨checkpoint, held, turn, images, seen⟩ := holds
  exact ⟨checkpoint, held, turn, images, fun unseen => absurd seen unseen⟩

variable {other : ReadStateKey}

theorem ReadStateCheckpoint.capture_keys : other ∈ (checkpoint.capture key before).before.map fst ↔
      other ∈ checkpoint.before.map fst ∨ other = key := by
  unfold capture
  split_ifs with seen
  · constructor
    · exact .inl
    · rintro (old | rfl)
      · exact old
      · exact seen
  · simp

theorem ReadStateCheckpoint.capture_turnId (checkpoint : ReadStateCheckpoint) {before : Option FileReadState} :
    (checkpoint.capture key before).turnId = checkpoint.turnId := by
  unfold capture
  split_ifs <;> rfl

theorem captureBefore_checkpoint (held : inner.checkpoints scope = some checkpoint) :
    (captureBefore inner owner other).checkpoints scope =
      some (if scope = owner then checkpoint.capture other (inner.map other) else checkpoint) := by
  by_cases same : scope = owner
  · subst same
    simp [captureBefore, held]
  · simp [captureBefore, same, held]

variable (remembers : Remembers scope turnId key value inner)

include remembers

theorem Remembers.captureBefore (owner : ReadStateScope) (other : ReadStateKey) :
    Remembers scope turnId key value (captureBefore inner owner other) := by
  obtain ⟨checkpoint, held, turn, images, unseen⟩ := remembers
  refine ⟨_, captureBefore_checkpoint held, ?_⟩
  by_cases same : scope = owner
  · rw [if_pos same]
    refine ⟨(checkpoint.capture_turnId).trans turn, ?_, ?_⟩
    · intro image member isKey
      rcases ReadStateCheckpoint.mem_capture member with old | ⟨rfl, fresh⟩
      · exact images image old isKey
      · obtain rfl : other = key := isKey
        exact unseen fresh
    · intro notSeen
      rw [ReadStateCheckpoint.capture_keys, not_or] at notSeen
      exact unseen notSeen.1
  · rw [if_neg same]
    exact ⟨turn, images, unseen⟩

theorem Remembers.captured : Holds scope turnId key value (Tool.captureBefore inner scope key) := by
  obtain ⟨checkpoint, held, turn, images, _⟩ := remembers.captureBefore scope key
  refine ⟨checkpoint, held, turn, images, ?_⟩
  obtain ⟨earlier, before, _⟩ := remembers
  rw [captureBefore_checkpoint before, if_pos rfl, Option.some.injEq] at held
  rw [← held, ReadStateCheckpoint.capture_keys]
  exact .inr rfl

omit remembers

theorem Holds.captureBefore (holds : Holds scope turnId key value inner) :
    Holds scope turnId key value (Tool.captureBefore inner owner other) := by
  obtain ⟨checkpoint, held, turn, images, _⟩ := holds.remembers.captureBefore owner other
  refine ⟨checkpoint, held, turn, images, ?_⟩
  obtain ⟨earlier, before, _, _, seen⟩ := holds
  rw [captureBefore_checkpoint before, Option.some.injEq] at held
  rw [← held]
  split_ifs
  · rw [ReadStateCheckpoint.capture_keys]
    exact .inl seen
  · exact seen

include remembers in
theorem Remembers.congr
    (checkpoints : next.checkpoints = inner.checkpoints) (map : next.map key = inner.map key) :
    Remembers scope turnId key value next := by
  unfold Remembers
  rw [checkpoints, map]
  exact remembers

theorem Holds.congr (holds : Holds scope turnId key value inner)
    (checkpoints : next.checkpoints = inner.checkpoints) :
    Holds scope turnId key value next := by
  unfold Holds
  rw [checkpoints]
  exact holds

theorem removeKey_map (different : key ≠ other) :
    (removeKey inner other).map key = inner.map key := by
  simp only [removeKey, update_of_ne different]

theorem insertStateUntracked_map (different : key ≠ other) :
    (insertStateUntracked inner other state).map key = inner.map key := by
  simp only [insertStateUntracked, update_of_ne different]

theorem evicted_insertState (inner : Inner) (owner : ReadStateScope) (other : ReadStateKey)
    (state : FileReadState) : inner.evicted <+: (insertState inner owner other state).evicted := by
  refine evictWhileFull_induction (P := fun next => inner.evicted <+: next.evicted) ?_ _ ?_
  · intro next evicted rest _ _ grown
    exact grown.trans (prefix_append _ _)
  · exact prefix_rfl

theorem Operation.Step.evicted
    (step : Operation.Step inner operation next) : inner.evicted <+: next.evicted := by
  cases step with
  | beginCheckpoint scope turnId =>
    unfold Tool.beginCheckpoint
    split <;> exact prefix_rfl
  | record scope evidence =>
    unfold Tool.record
    dsimp only
    split_ifs
    · exact prefix_rfl
    · exact evicted_insertState (captureBefore inner scope (scope, evidence.path)) _ _ _
  | evaluate scope path revision =>
    unfold Tool.evaluate
    dsimp only
    split
    · exact prefix_rfl
    · split_ifs <;> exact prefix_rfl
  | clearPath scope path | clearScope scope | clearSession sessionId => exact prefix_rfl
  | commitCheckpoint scope turnId =>
    unfold Tool.commitCheckpoint
    split_ifs <;> exact prefix_rfl
  | rollbackCheckpoint scope turnId images listed =>
    unfold Tool.rollbackCheckpoint
    split_ifs
    · refine evictWhileFull_induction (P := fun next => inner.evicted <+: next.evicted) ?_ _ ?_
      · intro next evicted rest _ _ grown
        exact grown.trans (prefix_append _ _)
      · simp only [(restoreAll_rest _ _).2, (removeAll_rest _ _).2, prefix_rfl]
    · exact prefix_rfl

theorem Holds.insertState (holds : Holds scope turnId key value inner) (owner : ReadStateScope)
    (other : ReadStateKey) (state : FileReadState) :
    Holds scope turnId key value (insertState inner owner other state) := by
  apply evictWhileFull_induction
  · intro inner evicted rest _ _ holds
    exact (holds.captureBefore).congr rfl
  · exact holds.congr rfl

include remembers in
theorem Remembers.insertState (different : key ≠ other)
    (state : FileReadState) (bound : since ≤ inner.evicted.length) :
    Unless since key (Remembers scope turnId key value) (insertState inner owner other state) := by
  apply evictWhileFull_induction
  · intro inner evicted rest _ _ standing
    refine standing.evict rfl ?_
    intro gone remembers
    exact (remembers.captureBefore owner evicted).congr rfl (removeKey_map gone.symm)
  · exact ⟨bound, .inl (remembers.congr rfl (insertStateUntracked_map different))⟩

def Operation.Clears (key : ReadStateKey) : Operation → Prop
  | .clearScope scope => key.1 = scope
  | .clearSession sessionId => key.1.sessionId = some sessionId
  | _ => False

def Operation.Closes (scope : ReadStateScope) (turnId : Text) : Operation → Prop
  | .commitCheckpoint other turn => other = scope ∧ turn = turnId
  | .rollbackCheckpoint other turn => other = scope ∧ turn = turnId
  | _ => False

include remembers

theorem Remembers.clearKeys
    (spared : doomed key = false) : Remembers scope turnId key value (clearKeys inner doomed) := by
  obtain ⟨checkpoint, held, turn, images, unseen⟩ := remembers
  refine ⟨{ checkpoint with before := checkpoint.before.filter fun image => !doomed image.1 },
    ?_, turn, ?_, ?_⟩
  · simp [Tool.clearKeys, clearCheckpointBeforeImages, held]
  · exact fun image member isKey => images image (mem_of_mem_filter member) isKey
  · intro notSeen
    have absent : key ∉ checkpoint.before.map fst := by
      intro seen
      obtain ⟨image, member, isKey⟩ := mem_map.mp seen
      refine notSeen (mem_map.mpr ⟨image, mem_filter.mpr ⟨member, ?_⟩, isKey⟩)
      rw [isKey, spared]
      rfl
    simp only [Tool.clearKeys, clearCheckpointBeforeImages, spared, Bool.false_eq_true, if_false]
    exact unseen absent

theorem Remembers.record (owner : ReadStateScope) (evidence : ReadEvidence)
    (bound : since ≤ inner.evicted.length) (mine : key.1 = scope) :
    Unless since key (Remembers scope turnId key value) (record inner owner evidence) := by
  unfold Tool.record
  dsimp only
  have captured := remembers.captureBefore owner (owner, evidence.path)
  by_cases same : key = (owner, evidence.path)
  · have holds := remembers.captured
    rw [← same]
    obtain rfl : owner = scope := by
      rw [← mine, same]
    split_ifs
    · have kept : Holds owner turnId key value
          (removeKey (Tool.captureBefore inner owner key) key) := holds.congr rfl
      exact ⟨bound, .inl kept.remembers⟩
    · have grown := evicted_insertState (Tool.captureBefore inner owner key) owner key
        (recordedState ((Tool.captureBefore inner owner key).map key) evidence)
      refine ⟨bound.trans grown.length_le, .inl ?_⟩
      exact (holds.insertState owner key _).remembers
  · split_ifs
    · exact ⟨bound, .inl (captured.congr rfl (removeKey_map same))⟩
    · exact captured.insertState same _ bound

omit remembers

section

variable (remembers : Remembers scope turnId key value inner)
include remembers

theorem Remembers.remove (mine : key.1 = scope) : Remembers scope turnId key value
      (removeKey (Tool.captureBefore inner owner (owner, path)) (owner, path)) := by
  by_cases same : key = (owner, path)
  · have holds := remembers.captured
    rw [← same]
    obtain rfl : owner = scope := by
      rw [← mine, same]
    have kept : Holds owner turnId key value
        (removeKey (Tool.captureBefore inner owner key) key) := holds.congr rfl
    exact kept.remembers
  · exact (remembers.captureBefore owner (owner, path)).congr rfl (removeKey_map same)

theorem Remembers.withoutCheckpoint {other : ReadStateScope} (different : scope ≠ other) :
    Remembers scope turnId key value
      { inner with checkpoints := update inner.checkpoints other none } := by
  obtain ⟨checkpoint, held, rest⟩ := remembers
  refine ⟨checkpoint, ?_, rest⟩
  simp only [update_of_ne different, held]

theorem Remembers.not_owned (different : turn ≠ turnId) :
    ownsCheckpoint inner scope turn = false := by
  obtain ⟨checkpoint, held, same, _⟩ := remembers
  simp only [ownsCheckpoint, held, same, decide_eq_false_iff_not]
  exact different.symm

end

theorem OwnImages.foreign (own : OwnImages inner) (owned : ownsCheckpoint inner scope turnId = true)
    (listed : ∀ checkpoint, inner.checkpoints scope = some checkpoint →
      images.Perm checkpoint.before) (other : key.1 ≠ scope) : key ∉ images.map fst := by
  intro listedKey
  obtain ⟨image, member, rfl⟩ := mem_map.mp listedKey
  unfold ownsCheckpoint at owned
  split at owned
  · rename_i checkpoint held
    exact other (own scope checkpoint held image ((listed checkpoint held).subset member))
  · cases owned

include remembers in
theorem Remembers.step (own : OwnImages inner)
    (bound : since ≤ inner.evicted.length) (mine : key.1 = scope)
    (step : Operation.Step inner operation next) (kept : ¬operation.Clears key)
    (ongoing : ¬operation.Closes scope turnId) :
    Unless since key (Remembers scope turnId key value) next := by
  cases step with
  | beginCheckpoint other turn =>
    unfold Tool.beginCheckpoint
    split
    · exact ⟨bound, .inl remembers⟩
    · rename_i free
      obtain ⟨checkpoint, held, rest⟩ := remembers
      have different : scope ≠ other := by
        rintro rfl
        rw [held] at free
        cases free
      refine ⟨bound, .inl ⟨checkpoint, ?_, rest⟩⟩
      simp only [update_of_ne different, held]
  | record other evidence => exact remembers.record other evidence bound mine
  | evaluate other path revision =>
    unfold Tool.evaluate
    dsimp only
    split
    · exact ⟨bound, .inl remembers⟩
    · split_ifs
      · exact ⟨bound, .inl (remembers.remove mine)⟩
      · exact ⟨bound, .inl remembers⟩
  | clearPath other path => exact ⟨bound, .inl (remembers.remove mine)⟩
  | clearScope other => exact ⟨bound, .inl (remembers.clearKeys (decide_eq_false kept))⟩
  | clearSession sessionId =>
    exact ⟨bound, .inl (remembers.clearKeys (decide_eq_false kept))⟩
  | commitCheckpoint other turn =>
    unfold Tool.commitCheckpoint
    split_ifs with owned
    · by_cases same : scope = other
      · subst same
        have differs : turn ≠ turnId := fun equal => ongoing ⟨rfl, equal⟩
        rw [remembers.not_owned differs] at owned
        cases owned
      · exact ⟨bound, .inl (remembers.withoutCheckpoint same)⟩
    · exact ⟨bound, .inl remembers⟩
  | rollbackCheckpoint other turn images listed =>
    by_cases owned : ownsCheckpoint inner other turn = true
    · have different : scope ≠ other := by
        rintro rfl
        have differs : turn ≠ turnId := fun equal => ongoing ⟨rfl, equal⟩
        rw [remembers.not_owned differs] at owned
        cases owned
      have foreign : key ∉ images.map fst :=
        own.foreign owned listed (by rw [mine]; exact different)
      obtain ⟨grown, same | gone⟩ := rollbackCheckpoint_foreign foreign bound
      · refine ⟨grown, .inl ?_⟩
        have without := remembers.withoutCheckpoint different
        exact without.congr (rollbackCheckpoint_checkpoints owned) same
      · exact ⟨grown, .inr gone⟩
    · unfold Tool.rollbackCheckpoint
      rw [if_neg owned]
      exact ⟨bound, .inl remembers⟩

theorem Remembers.run (run : Trace CarefulStep start operations inner) (formed : WellFormed start)
    (own : OwnImages start) (mine : key.1 = scope)
    (remembers : Remembers scope turnId key value start)
    (kept : ∀ operation ∈ operations, ¬operation.Clears key)
    (ongoing : ∀ operation ∈ operations, ¬operation.Closes scope turnId) :
    WellFormed inner ∧ OwnImages inner ∧
      Unless start.evicted.length key (Remembers scope turnId key value) inner := by
  induction run with
  | nil => exact ⟨formed, own, Nat.le_refl _, .inl remembers⟩
  | snoc _ taken ih =>
    obtain ⟨formed, own, bound, standing⟩ := ih
      (fun operation member => kept operation (mem_append_left _ member))
      (fun operation member => ongoing operation (mem_append_left _ member))
    refine ⟨formed.step taken.2, own.step formed taken, ?_⟩
    rcases standing with remembers | gone
    · exact remembers.step own bound mine taken.2 (kept _ (by simp)) (ongoing _ (by simp))
    · have grown := taken.2.evicted
      refine ⟨bound.trans grown.length_le, .inr ?_⟩
      obtain ⟨more, same⟩ := grown
      rw [← same, drop_append_of_le_length bound]
      exact mem_append_left _ gone

include remembers in
theorem Remembers.rollback (formed : WellFormed inner)
    (listed : ∀ checkpoint, inner.checkpoints scope = some checkpoint →
      images.Perm checkpoint.before) (bound : since ≤ inner.evicted.length) :
    Unless since key (fun next => next.map key = value)
      (rollbackCheckpoint inner scope turnId images) := by
  obtain ⟨checkpoint, held, turn, recorded, unseen⟩ := remembers
  have perm := listed checkpoint held
  have owned : ownsCheckpoint inner scope turnId = true := by
    simp [ownsCheckpoint, held, turn]
  by_cases seen : key ∈ checkpoint.before.map fst
  · obtain ⟨image, member, rfl⟩ := mem_map.mp seen
    have same := recorded image member rfl
    apply rollbackCheckpoint_own owned
    · exact (perm.map fst).nodup_iff.mpr (formed.images scope checkpoint held).nodup
    · rw [← same]
      exact perm.symm.subset member
    · exact bound
  · have foreign : key ∉ images.map fst :=
      fun listedKey => seen ((perm.map fst).subset listedKey)
    rw [← unseen seen]
    exact rollbackCheckpoint_foreign foreign bound

theorem Remembers.begun (free : inner.checkpoints scope = none) :
    Remembers scope turnId key (inner.map key) (beginCheckpoint inner scope turnId) := by
  unfold beginCheckpoint
  rw [free]
  exact ⟨⟨turnId, []⟩, by simp, rfl, by simp, fun _ => rfl⟩

end

/-- In every run in which no scope with an open checkpoint pushes out an entry of another one: the
bookkeeping is in order; a rollback changes no entry of another scope but for capacity; and each key of
the scope that was not cleared or evicted since the checkpoint began has the state it had then. -/
theorem read_state_checkpoints_hold {operations : List Operation} {inner : Inner}
    (run : Trace CarefulStep Inner.empty operations inner) :
    WellFormed inner ∧
    ∀ scope turnId next, Operation.Step inner (.rollbackCheckpoint scope turnId) next →
      (∀ key : ReadStateKey, key.1 ≠ scope → next.map key = inner.map key ∨
        (next.map key = none ∧ key ∈ next.evicted.drop inner.evicted.length)) ∧
      ∀ earlier later start,
        Trace CarefulStep Inner.empty earlier start → start.checkpoints scope = none →
        Trace CarefulStep (beginCheckpoint start scope turnId) later inner →
        (∀ operation ∈ later, ¬operation.Closes scope turnId) →
        ∀ key : ReadStateKey, key.1 = scope → (∀ operation ∈ later, ¬operation.Clears key) →
          key ∉ next.evicted.drop start.evicted.length → next.map key = start.map key := by
  have both : ∀ {operations inner}, Trace CarefulStep Inner.empty operations inner →
      WellFormed inner ∧ OwnImages inner := by
    intro operations inner run
    refine @Trace.invariant _ _ _ (fun inner => WellFormed inner ∧ OwnImages inner) ?_ _ _ _ run
      ⟨WellFormed.empty, by simp [OwnImages, Inner.empty]⟩
    rintro inner operation next taken ⟨formed, own⟩
    exact ⟨formed.step taken.2, own.step formed taken⟩
  obtain ⟨formed, own⟩ := both run
  refine ⟨formed, ?_⟩
  intro scope turnId next rolled
  have grown := rolled.evicted
  cases rolled with
  | rollbackCheckpoint _ _ images listed =>
    constructor
    · intro key other
      by_cases owned : ownsCheckpoint inner scope turnId = true
      · have foreign := own.foreign owned listed other
        rcases rollbackCheckpoint_none foreign with same | gone
        · exact .inl same
        · obtain ⟨_, same | evicted⟩ := rollbackCheckpoint_foreign foreign (Nat.le_refl _)
          · exact .inl same
          · exact .inr ⟨gone, evicted⟩
      · left
        unfold Tool.rollbackCheckpoint
        rw [if_neg owned]
    · intro earlier later start before free during ongoing key mine kept unevicted
      obtain ⟨startFormed, startOwn⟩ := both before
      have opens : CarefulStep start (.beginCheckpoint scope turnId)
          (beginCheckpoint start scope turnId) := ⟨trivial, .beginCheckpoint start scope turnId⟩
      have counted : (beginCheckpoint start scope turnId).evicted = start.evicted := by
        unfold beginCheckpoint
        rw [free]
      obtain ⟨_, _, bound, standing⟩ := Remembers.run during (startFormed.step opens.2)
        (startOwn.step startFormed opens) mine (Remembers.begun free) kept ongoing
      rw [counted] at bound standing
      rcases standing with remembers | gone
      · obtain ⟨_, same | gone⟩ := remembers.rollback formed listed bound
        · exact same
        · exact absurd gone unevicted
      · obtain ⟨more, same⟩ := grown
        rw [← same, drop_append_of_le_length bound] at unevicted
        exact absurd (mem_append_left _ gone) unevicted

namespace Crowded

def parent : ReadStateScope := ⟨some "session".toList, none⟩

def child : ReadStateScope := ⟨some "session".toList, some "subagent".toList⟩

def path (index : Nat) : Text := Nat.toDigits 10 index

def firstLine : LineRange := ⟨1, 1, by decide, by decide⟩

def evidence (index : Nat) : ReadEvidence := ⟨path index, ⟨[], 4⟩, 1, true, [firstLine], true⟩

def state : FileReadState := ⟨⟨[], 4⟩, 1, true, [firstLine], true⟩

def turn : Text := "turn".toList

def reading : Inner := record (beginCheckpoint Inner.empty parent turn) parent (evidence 0)

theorem reading_checkpoints_hold :
    WellFormed reading ∧ ∃ next, Operation.Step reading (.rollbackCheckpoint parent turn) next ∧
      next.map (parent, path 0) = none := by
  have opens : CarefulStep Inner.empty (.beginCheckpoint parent turn)
      (beginCheckpoint Inner.empty parent turn) := ⟨trivial, .beginCheckpoint _ _ _⟩
  have reads : CarefulStep (beginCheckpoint Inner.empty parent turn)
      (.record parent (evidence 0)) reading := by
    refine ⟨?_, .record _ _ _⟩
    intro _ _ _ full
    exact absurd full (by decide)
  have rolled : Operation.Step reading (.rollbackCheckpoint parent turn)
      (rollbackCheckpoint reading parent turn [((parent, path 0), none)]) := by
    refine .rollbackCheckpoint _ _ _ _ ?_
    intro checkpoint found
    have held : reading.checkpoints parent = some ⟨turn, [((parent, path 0), none)]⟩ := rfl
    rw [held, Option.some.injEq] at found
    rw [← found]
  obtain ⟨formed, rollbacks⟩ := read_state_checkpoints_hold
    (((Trace.nil Inner.empty).snoc opens).snoc reads)
  refine ⟨formed, _, rolled, ?_⟩
  refine (rollbacks parent turn _ rolled).2 [] [.record parent (evidence 0)] Inner.empty
    (Trace.nil _) rfl (Trace.single reads) ?_ (parent, path 0) rfl ?_ (by decide)
  · intro operation member closes
    rw [mem_singleton.mp member] at closes
    exact closes
  · intro operation member clears
    rw [mem_singleton.mp member] at clears
    exact clears

theorem path_injective (same : path left = path right) : left = right := by
  have values := congrArg (fun text => Nat.ofDigitChars 10 text 0) same
  simpa [path, Nat.ofDigitChars_ten_toDigits] using values

variable {scope : ReadStateScope}

theorem record_new {evidence : ReadEvidence} (absent : inner.map (scope, evidence.path) = none)
    (few : (mergeRanges evidence.ranges).length ≤ readStateMaxRangesPerFile) :
    record inner scope evidence =
      insertState (captureBefore inner scope (scope, evidence.path)) scope (scope, evidence.path)
        (recordedState none evidence) := by
  have nothing : (captureBefore inner scope (scope, evidence.path)).map (scope, evidence.path) =
      none := absent
  have ranges : (recordedState none evidence).ranges = mergeRanges evidence.ranges := rfl
  unfold record
  dsimp only
  rw [nothing, ranges, if_neg (by omega)]

def filled : Nat → Inner
  | 0 => Inner.empty
  | count + 1 => record (filled count) parent (evidence count)

theorem captureBefore_closed (closed : inner.checkpoints scope = none) :
    captureBefore inner scope key = inner := by
  have same : update inner.checkpoints scope none = inner.checkpoints := by
    rw [← closed, Function.update_eq_self]
  simp [captureBefore, closed, same]

theorem filled_spec (count : Nat) (room : count ≤ readStateMaxEntries) :
    (filled count).checkpoints = (fun _ => none) ∧
      (filled count).order = (range count).map (fun index => (parent, path index)) ∧
      ∀ scope index, (filled count).map (scope, path index) =
        if scope = parent ∧ index < count then some state else none := by
  induction count with
  | zero => exact ⟨rfl, rfl, fun scope index => by simp [filled, Inner.empty]⟩
  | succ count ih =>
    obtain ⟨closed, order, map⟩ := ih (by omega)
    have absent : (filled count).map (parent, path count) = none := by
      rw [map, if_neg (by omega)]
    have next : filled (count + 1) =
        insertStateUntracked (filled count) (parent, path count) state := by
      have captured : captureBefore (filled count) parent (parent, path count) = filled count :=
        captureBefore_closed (by rw [closed])
      have recorded : recordedState none (evidence count) = state := rfl
      have fits : (insertStateUntracked (filled count) (parent, path count)
          state).order.length ≤ readStateMaxEntries := by
        simp [insertStateUntracked, absent, order]
        omega
      have few : (mergeRanges [firstLine]).length ≤ readStateMaxRangesPerFile := by decide
      rw [filled, record_new absent few]
      change insertState (captureBefore (filled count) parent (parent, path count)) parent
        (parent, path count) (recordedState none (evidence count)) = _
      rw [captured, recorded, insertState, evictWhileFull_fits _ _ fits]
    rw [next]
    refine ⟨closed, ?_, ?_⟩
    · simp [insertStateUntracked, absent, order, range_succ]
    · intro scope index
      by_cases same : (scope, path index) = (parent, path count)
      · have parts := mk.inj same
        obtain rfl := path_injective parts.2
        simp [insertStateUntracked, parts.1]
      · simp only [insertStateUntracked, update_of_ne same, map]
        refine if_congr ?_ rfl rfl
        have different : ¬(scope = parent ∧ index = count) := by
          rintro ⟨rfl, rfl⟩
          exact same rfl
        constructor
        · rintro ⟨isParent, below⟩
          exact ⟨isParent, by omega⟩
        · rintro ⟨isParent, below⟩
          rcases Nat.lt_succ_iff_lt_or_eq.mp below with less | equal
          · exact ⟨isParent, less⟩
          · exact absurd ⟨isParent, equal⟩ different

theorem filled_run (count : Nat) :
    ∃ operations, Trace Operation.Step Inner.empty operations (filled count) := by
  induction count with
  | zero => exact ⟨[], Trace.nil _⟩
  | succ count ih =>
    obtain ⟨operations, run⟩ := ih
    exact ⟨_, run.snoc (.record (filled count) parent (evidence count))⟩

def crowded (inner : Inner) : Inner :=
  record (beginCheckpoint inner child turn) child (evidence 0)

theorem crowded_spec
    (closed : inner.checkpoints = fun _ => none) (full : inner.order.length = readStateMaxEntries)
    (order : inner.order = (parent, path 0) :: rest)
    (held : inner.map (parent, path 0) = some state)
    (absent : inner.map (child, path 0) = none) :
    (crowded inner).map (parent, path 0) = none ∧
      (crowded inner).checkpoints child =
        some ⟨turn, [((child, path 0), none), ((parent, path 0), some state)]⟩ := by
  have different : (parent, path 0) ≠ (child, path 0) := by decide
  have few : (mergeRanges [firstLine]).length ≤ readStateMaxRangesPerFile := by decide
  have recorded : recordedState none (evidence 0) = state := rfl
  let begun : Inner := { inner with
    checkpoints := update (fun _ => none) child (some ⟨turn, []⟩) }
  have opened : beginCheckpoint inner child turn = begun := by
    simp [beginCheckpoint, closed, begun]
  have captured : captureBefore begun child (child, path 0) = { inner with
      checkpoints := update (fun _ => none) child
        (some ⟨turn, [((child, path 0), none)]⟩) } := by
    simp [captureBefore, begun, ReadStateCheckpoint.capture, absent]
  have inserted : crowded inner = insertState (captureBefore begun child (child, path 0)) child
      (child, path 0) (recordedState none (evidence 0)) := by
    unfold crowded
    rw [opened]
    exact record_new absent few
  rw [captured, recorded, insertState] at inserted
  generalize isFull : insertStateUntracked { inner with
      checkpoints := update (fun _ => none) child
        (some (⟨turn, [((child, path 0), none)]⟩ : ReadStateCheckpoint)) } (child, path 0) state =
      overfull at inserted
  have line : overfull.order = (parent, path 0) :: (rest ++ [(child, path 0)]) := by
    rw [← isFull]
    simp [insertStateUntracked, absent, order]
  have size : overfull.order.length = readStateMaxEntries + 1 := by
    rw [← full, order, line]
    simp
  have small := @evictWhileFull_small overfull
    (fun inner evicted => captureBefore inner child evicted) (fun _ _ => rfl) overfull.order.length
    (Nat.le_add_right _ _)
  have once := @evictWhileFull_once overfull
    (fun inner evicted => captureBefore inner child evicted) (fun _ _ => rfl) (by omega)
    overfull.order.length
  rcases once with same | ⟨oldest, others, head, _, same⟩
  · rw [same] at small
    omega
  · rw [line] at head
    obtain ⟨rfl, _⟩ := List.cons.inj head
    have seen : overfull.map (parent, path 0) = some state := by
      rw [← isFull]
      simp only [insertStateUntracked, update_of_ne different, held]
    have imaged : overfull.checkpoints child = some ⟨turn, [((child, path 0), none)]⟩ := by
      rw [← isFull]
      simp [insertStateUntracked]
    rw [inserted, same]
    constructor
    · simp [evict, removeKey]
    · simp [evict, removeKey, captureBefore, imaged, ReadStateCheckpoint.capture, seen, different]

theorem record_kept {evidence : ReadEvidence}
    (formed : WellFormed inner) (absent : inner.map (scope, evidence.path) = none)
    (few : (mergeRanges evidence.ranges).length ≤ readStateMaxRangesPerFile) :
    (record inner scope evidence).map (scope, evidence.path) =
      some (recordedState none evidence) := by
  have unlisted : (scope, evidence.path) ∉ inner.order := by
    rw [formed.keys, absent]
    exact Bool.false_ne_true
  have small := formed.small
  rw [record_new absent few, insertState]
  generalize isOver : insertStateUntracked (captureBefore inner scope (scope, evidence.path))
    (scope, evidence.path) (recordedState none evidence) = overfull
  have added : overfull.map (scope, evidence.path) = some (recordedState none evidence) := by
    rw [← isOver]
    simp [insertStateUntracked]
  have order : overfull.order = inner.order ++ [(scope, evidence.path)] := by
    rw [← isOver]
    simp [insertStateUntracked, captureBefore, absent]
  have size : overfull.order.length = inner.order.length + 1 := by simp [order]
  have once := @evictWhileFull_once overfull
    (fun inner evicted => captureBefore inner scope evicted) (fun _ _ => rfl) (by omega)
    overfull.order.length
  rcases once with same | ⟨oldest, others, head, full, same⟩
  · rw [same, added]
  · have different : (scope, evidence.path) ≠ oldest := by
      rintro rfl
      cases listed : inner.order with
      | nil =>
        rw [listed, length_nil] at size
        unfold readStateMaxEntries at full
        omega
      | cons first rest =>
        rw [order, listed, cons_append] at head
        rw [listed, ← (List.cons.inj head).1] at unlisted
        exact unlisted (by simp)
    rw [same]
    simp only [evict, removeKey, captureBefore, update_of_ne different, added]

def evidenceNow : ReadEvidence := ⟨path 0, ⟨[], 9⟩, 2, true, [firstLine], false⟩

def stateNow : FileReadState := ⟨⟨[], 9⟩, 2, true, [firstLine], false⟩

def renewed (inner : Inner) : Inner := record (crowded inner) parent evidenceNow

def images : List BeforeImage := [((child, path 0), none), ((parent, path 0), some state)]

theorem rollback_restores (formed : WellFormed inner)
    (known : (inner.map (parent, path 0)).isSome = true)
    (opened : inner.checkpoints child = some ⟨turn, images⟩) :
    (rollbackCheckpoint inner child turn images).map (parent, path 0) = some state := by
  have owned : ownsCheckpoint inner child turn = true := by
    simp [ownsCheckpoint, opened]
  have small := formed.small
  let taken : Inner := { inner with checkpoints := update inner.checkpoints child none }
  have fewer : (removeKey taken (child, path 0)).order.length ≤ inner.order.length :=
    length_filter_le _ _
  have listed : (parent, path 0) ∈ (removeKey taken (child, path 0)).order :=
    mem_filter.mpr ⟨(formed.keys _).mpr known, by decide⟩
  have shorter : (removeKey (removeKey taken (child, path 0)) (parent, path 0)).order.length <
      (removeKey taken (child, path 0)).order.length :=
    length_filter_lt_length_iff_exists.mpr ⟨_, listed, by simp⟩
  have restored : images.foldl restore ((images.map fst).foldl removeKey taken) =
      insertStateUntracked (removeKey (removeKey taken (child, path 0)) (parent, path 0))
        (parent, path 0) state := rfl
  have fits : (insertStateUntracked (removeKey (removeKey taken (child, path 0)) (parent, path 0))
      (parent, path 0) state).order.length ≤ readStateMaxEntries := by
    have removed : (removeKey (removeKey taken (child, path 0)) (parent, path 0)).map
        (parent, path 0) = none := by simp [removeKey]
    simp only [insertStateUntracked, removed, Option.isNone_none, if_true, length_append,
      length_singleton]
    omega
  unfold rollbackCheckpoint enforceCapacity
  rw [if_pos owned]
  change (evictWhileFull _ _ (images.foldl restore
    ((images.map fst).foldl removeKey taken))).map _ = _
  rw [restored, evictWhileFull_fits _ _ fits]
  simp [insertStateUntracked]

theorem record_foreign_checkpoint {scope other : ReadStateScope}
    (apart : other ≠ scope) (evidence : ReadEvidence) :
    (record inner scope evidence).checkpoints other = inner.checkpoints other := by
  have captured : ∀ (inner : Inner) key,
      (captureBefore inner scope key).checkpoints other = inner.checkpoints other := by
    intro inner key
    simp only [captureBefore, update_of_ne apart]
  unfold record
  dsimp only
  split_ifs
  · exact captured inner _
  · refine evictWhileFull_induction
      (P := fun next => next.checkpoints other = inner.checkpoints other) ?_ _ ?_
    · intro next evicted rest _ _ same
      exact (captured next evicted).trans same
    · exact captured inner _

theorem full_replaces (run : Trace Operation.Step Inner.empty operations inner)
    (closed : inner.checkpoints = fun _ => none) (full : inner.order.length = readStateMaxEntries)
    (order : inner.order = (parent, path 0) :: rest)
    (held : inner.map (parent, path 0) = some state) (absent : inner.map (child, path 0) = none) :
    ∃ operations recorded next,
      Trace Operation.Step Inner.empty (operations ++ [.record parent evidenceNow]) recorded ∧
      recorded.map (parent, path 0) = some stateNow ∧
      Operation.Step recorded (.rollbackCheckpoint child turn) next ∧
      next.map (parent, path 0) = some state := by
  obtain ⟨gone, opened⟩ := crowded_spec closed full order held absent
  have crowdedRun : Trace Operation.Step Inner.empty _ (crowded inner) :=
    (run.snoc (.beginCheckpoint inner child turn)).snoc
      (.record (beginCheckpoint inner child turn) child (evidence 0))
  have renewedRun : Trace Operation.Step Inner.empty _ (renewed inner) :=
    crowdedRun.snoc (.record (crowded inner) parent evidenceNow)
  have formedOf : ∀ {operations inner}, Trace Operation.Step Inner.empty operations inner →
      WellFormed inner := fun run => @Trace.invariant _ _ Operation.Step WellFormed
    (fun taken formed => formed.step taken) _ _ _ run WellFormed.empty
  have few : (mergeRanges [firstLine]).length ≤ readStateMaxRangesPerFile := by decide
  have recorded : (renewed inner).map (parent, path 0) = some stateNow :=
    record_kept (formedOf crowdedRun) gone few
  have still : (renewed inner).checkpoints child = some ⟨turn, images⟩ := by
    have apart : child ≠ parent := by decide
    unfold renewed
    rw [record_foreign_checkpoint apart, opened]
    rfl
  refine ⟨_, renewed inner, _, renewedRun, recorded, .rollbackCheckpoint _ _ _ images ?_, ?_⟩
  · intro checkpoint found
    rw [still, Option.some.injEq] at found
    rw [← found]
  · exact rollback_restores (formedOf renewedRun) (by rw [recorded]; rfl) still

/-- The rollback of the child replaces what the parent has recorded since with what it had
before. -/
theorem checkpoint_replaces_foreign_entry : ∃ operations recorded next,
      Trace Operation.Step Inner.empty (operations ++ [.record parent evidenceNow]) recorded ∧
      recorded.map (parent, path 0) = some stateNow ∧
      Operation.Step recorded (.rollbackCheckpoint child turn) next ∧
      next.map (parent, path 0) = some state := by
  obtain ⟨others, count⟩ : ∃ others, readStateMaxEntries = others + 1 := ⟨1023, rfl⟩
  obtain ⟨operations, run⟩ := filled_run (others + 1)
  obtain ⟨closed, order, map⟩ := filled_spec (others + 1) (by omega)
  have full : (filled (others + 1)).order.length = readStateMaxEntries := by
    rw [order, length_map, length_range, count]
  rw [range_succ_eq_map, map_cons] at order
  refine full_replaces run closed full order ?_ ?_
  · rw [map, if_pos ⟨rfl, by omega⟩]
  · have apart : child ≠ parent := by decide
    rw [map, if_neg fun same => apart same.1]

end Crowded

end AgentClaimNetwork.Tool
