import Mathlib.Data.List.Sort

/-!
`src/tool/read_state.rs`: what each caller has read of which file, as line ranges of one
revision, with checkpoints that a turn can roll back to.
-/

namespace AgentClaimNetwork.Tool

open List
open Function (update)

abbrev Text := List Char

structure ContentRevision where
  sha256 : Text
  byteLen : Nat
deriving DecidableEq

section

/-- Lines `start` to `stop`, counted from one. -/
structure LineRange where
  start : Nat
  stop : Nat
  positive : 0 < start
  ordered : start ≤ stop

namespace LineRange

def new (start stop : Nat) : Option LineRange :=
  if valid : 0 < start ∧ start ≤ stop then some ⟨start, stop, valid.1, valid.2⟩ else none

variable (left right : LineRange)

def Touches : Prop :=
  left.start ≤ right.stop + 1 ∧ right.start ≤ left.stop + 1

instance (left right : LineRange) : Decidable (Touches left right) :=
  inferInstanceAs (Decidable (_ ∧ _))

def merge : LineRange where
  start := min left.start right.start
  stop := max left.stop right.stop
  positive := by
    have := left.positive
    have := right.positive
    omega
  ordered := by
    have := left.ordered
    omega

def Contains (range : LineRange) (start stop : Nat) : Prop :=
  range.start ≤ start ∧ stop ≤ range.stop

instance (range : LineRange) (start stop : Nat) : Decidable (range.Contains start stop) :=
  inferInstanceAs (Decidable (_ ∧ _))

/-- The order of `sort_by_key(|range| (range.start, range.end))`. -/
def Before : Prop :=
  left.start < right.start ∨ (left.start = right.start ∧ left.stop ≤ right.stop)

instance : DecidableRel Before := fun _ _ => inferInstanceAs (Decidable (_ ∨ _))

instance : Std.Total Before := ⟨fun left right => by unfold Before; omega⟩

instance : IsTrans LineRange Before := ⟨fun first second third => by unfold Before; omega⟩

end LineRange

def mergeFrom (last : LineRange) : List LineRange → List LineRange
  | [] => [last]
  | range :: rest =>
    if last.Touches range then mergeFrom (last.merge range) rest
    else last :: mergeFrom range rest

section

variable (ranges : List LineRange)

def mergeRanges : List LineRange :=
  match ranges.insertionSort LineRange.Before with
  | [] => []
  | first :: rest => mergeFrom first rest

def coversWholeFile (totalLines : Nat) : Bool :=
  match ranges with
  | [range] => 0 < totalLines && range.start = 1 && range.stop = totalLines
  | _ => false

def Separated : Prop :=
  ranges.Pairwise fun left right => left.stop + 1 < right.start

def InRanges (line : Nat) : Prop :=
  ∃ range ∈ ranges, range.start ≤ line ∧ line ≤ range.stop

def Rising : Prop :=
  ranges.Pairwise fun left right => left.start ≤ right.start

end

theorem Rising.merge {last next : LineRange} (rising : Rising (last :: next :: rest)) :
    Rising (last.merge next :: rest) := by
  obtain ⟨first, later⟩ := pairwise_cons.mp rising
  refine pairwise_cons.mpr ⟨?_, (pairwise_cons.mp later).2⟩
  intro range member
  exact (Nat.min_le_left _ _).trans (first range (by simp [member]))

variable {ranges : List LineRange}

theorem mergeFrom_start (rising : Rising (last :: ranges)) :
    ∀ range ∈ mergeFrom last ranges, last.start ≤ range.start := by
  induction ranges generalizing last with
  | nil =>
    intro range member
    rw [mem_singleton.mp member]
  | cons next rest ih =>
    obtain ⟨first, later⟩ := pairwise_cons.mp rising
    have below := first next (by simp)
    intro range member
    rw [mergeFrom] at member
    split_ifs at member with touching
    · have bound := ih rising.merge range member
      have same : (last.merge next).start = last.start := Nat.min_eq_left below
      omega
    · rcases mem_cons.mp member with rfl | inner
      · exact Nat.le_refl _
      · exact below.trans (ih later range inner)

theorem mergeFrom_separated
    (rising : Rising (last :: ranges)) : Separated (mergeFrom last ranges) := by
  induction ranges generalizing last with
  | nil => exact pairwise_singleton _ _
  | cons next rest ih =>
    obtain ⟨first, later⟩ := pairwise_cons.mp rising
    rw [mergeFrom]
    split_ifs with touching
    · exact ih rising.merge
    · refine pairwise_cons.mpr ⟨?_, ih later⟩
      intro range member
      have above := mergeFrom_start later range member
      have below := first next (by simp)
      have ordered := next.ordered
      unfold LineRange.Touches at touching
      omega

theorem inRanges_cons {range : LineRange} : InRanges (range :: ranges) line ↔
      (range.start ≤ line ∧ line ≤ range.stop) ∨ InRanges ranges line := by
  simp [InRanges]

theorem mergeFrom_inRanges (rising : Rising (last :: ranges)) (line : Nat) :
    InRanges (mergeFrom last ranges) line ↔ InRanges (last :: ranges) line := by
  induction ranges generalizing last with
  | nil => exact Iff.rfl
  | cons next rest ih =>
    obtain ⟨first, later⟩ := pairwise_cons.mp rising
    rw [mergeFrom]
    split_ifs with touching
    · rw [ih rising.merge, inRanges_cons, inRanges_cons, inRanges_cons, ← or_assoc]
      refine or_congr_left ?_
      unfold LineRange.Touches at touching
      simp only [LineRange.merge]
      omega
    · rw [inRanges_cons, ih later]
      exact inRanges_cons.symm

theorem sorted_rising (ranges : List LineRange) :
    Rising (ranges.insertionSort LineRange.Before) := by
  apply (pairwise_insertionSort LineRange.Before ranges).imp
  intro left right before
  unfold LineRange.Before at before
  omega

theorem mergeRanges_separated (ranges : List LineRange) : Separated (mergeRanges ranges) := by
  have rising := sorted_rising ranges
  unfold mergeRanges
  split
  · exact List.Pairwise.nil
  · rename_i sorted
    rw [sorted] at rising
    exact mergeFrom_separated rising

theorem mergeRanges_inRanges (ranges : List LineRange) (line : Nat) :
    InRanges (mergeRanges ranges) line ↔ InRanges ranges line := by
  have rising := sorted_rising ranges
  have same : InRanges (ranges.insertionSort LineRange.Before) line ↔ InRanges ranges line := by
    simp [InRanges]
  rw [← same]
  unfold mergeRanges
  split
  · rename_i sorted
    rw [sorted]
  · rename_i sorted
    rw [sorted] at rising ⊢
    exact mergeFrom_inRanges rising line

theorem coversWholeFile_inRanges (covers : coversWholeFile ranges totalLines = true)
    (positive : 0 < line) (inside : line ≤ totalLines) : InRanges ranges line := by
  unfold coversWholeFile at covers
  split at covers
  · rename_i range
    simp only [Bool.and_eq_true, decide_eq_true_eq] at covers
    exact ⟨range, by simp, by omega, by omega⟩
  · cases covers

end

structure ReadEvidence where
  path : Text
  revision : ContentRevision
  totalLines : Nat
  endsWithNewline : Bool
  ranges : List LineRange
  complete : Bool

structure FileReadState where
  revision : ContentRevision
  totalLines : Nat
  endsWithNewline : Bool
  ranges : List LineRange
  complete : Bool

structure ReadAuthority where
  totalLines : Nat
  endsWithNewline : Bool
  ranges : List LineRange
  complete : Bool

def ReadAuthority.covers (authority : ReadAuthority) (start stop : Nat) : Bool :=
  authority.complete || authority.ranges.any fun range => range.Contains start stop

def ReadAuthority.hasEof (authority : ReadAuthority) : Bool :=
  authority.complete || (0 < authority.totalLines &&
    authority.ranges.any fun range => range.stop = authority.totalLines)

inductive ReadStateVerdict
  | missing
  | fresh (authority : ReadAuthority)
  | stale

structure ReadStateScope where
  sessionId : Option Text
  callerId : Option Text
deriving DecidableEq

abbrev ReadStateKey := ReadStateScope × Text

abbrev BeforeImage := ReadStateKey × Option FileReadState

structure ReadStateCheckpoint where
  turnId : Text
  before : List BeforeImage

structure Inner where
  map : ReadStateKey → Option FileReadState
  order : List ReadStateKey
  checkpoints : ReadStateScope → Option ReadStateCheckpoint
  /-- The keys that were removed for capacity, oldest first. -/
  evicted : List ReadStateKey

def Inner.empty : Inner := ⟨fun _ => none, [], fun _ => none, []⟩

def readStateMaxEntries : Nat := 1024

def readStateMaxRangesPerFile : Nat := 256

def ReadStateCheckpoint.capture (checkpoint : ReadStateCheckpoint) (key : ReadStateKey)
    (before : Option FileReadState) : ReadStateCheckpoint :=
  if key ∈ checkpoint.before.map Prod.fst then checkpoint
  else { checkpoint with before := checkpoint.before ++ [(key, before)] }

def captureBefore (inner : Inner) (ownerScope : ReadStateScope) (key : ReadStateKey) : Inner :=
  { inner with
    checkpoints := update inner.checkpoints ownerScope
      ((inner.checkpoints ownerScope).map fun checkpoint =>
        checkpoint.capture key (inner.map key)) }

def removeKey (inner : Inner) (key : ReadStateKey) : Inner :=
  { inner with
    map := update inner.map key none
    order := inner.order.filter fun candidate => candidate ≠ key }

def insertStateUntracked (inner : Inner) (key : ReadStateKey) (state : FileReadState) : Inner :=
  { inner with
    map := update inner.map key (some state)
    order := if (inner.map key).isNone then inner.order ++ [key] else inner.order }

def evict (inner : Inner) (key : ReadStateKey) : Inner :=
  { removeKey inner key with evicted := inner.evicted ++ [key] }

def evictWhileFull (note : Inner → ReadStateKey → Inner) : Nat → Inner → Inner
  | 0, inner => inner
  | turns + 1, inner =>
    if inner.order.length ≤ readStateMaxEntries then inner
    else match inner.order with
      | [] => inner
      | evicted :: _ => evictWhileFull note turns (evict (note inner evicted) evicted)

theorem evictWhileFull_induction {P : Inner → Prop} {inner : Inner}
    {note : Inner → ReadStateKey → Inner}
    (step : ∀ inner evicted rest, inner.order = evicted :: rest →
      readStateMaxEntries < inner.order.length → P inner → P (evict (note inner evicted) evicted))
    (turns : Nat) (holds : P inner) : P (evictWhileFull note turns inner) := by
  induction turns generalizing inner with
  | zero => exact holds
  | succ turns ih =>
    rw [evictWhileFull]
    split_ifs with fits
    · exact holds
    · split
      · exact holds
      · rename_i evicted rest order
        exact ih (step inner evicted rest order (by omega) holds)

variable (inner : Inner)

def insertState (ownerScope : ReadStateScope) (key : ReadStateKey)
    (state : FileReadState) : Inner :=
  let inserted := insertStateUntracked inner key state
  evictWhileFull (fun inner evicted => captureBefore inner ownerScope evicted)
    inserted.order.length inserted

def enforceCapacity : Inner :=
  evictWhileFull (fun inner _ => inner) inner.order.length inner

def clearCheckpointBeforeImages (doomed : ReadStateKey → Bool) : Inner :=
  { inner with
    checkpoints := fun scope => (inner.checkpoints scope).map fun checkpoint =>
      { checkpoint with before := checkpoint.before.filter fun image => !doomed image.1 } }

variable (scope : ReadStateScope) (turnId : Text)

def beginCheckpoint : Inner :=
  match inner.checkpoints scope with
  | some _ => inner
  | none => { inner with checkpoints := update inner.checkpoints scope (some ⟨turnId, []⟩) }

/-- Whether `ensure_checkpoint_owner` passes. -/
def ownsCheckpoint : Bool :=
  match inner.checkpoints scope with
  | some checkpoint => checkpoint.turnId = turnId
  | none => false

def commitCheckpoint : Inner :=
  if ownsCheckpoint inner scope turnId then
    { inner with checkpoints := update inner.checkpoints scope none }
  else inner

def restore : BeforeImage → Inner
  | (key, some state) => insertStateUntracked inner key state
  | (_, none) => inner

/-- `images` are the before-images of the checkpoint in the order in which the map yields
them. -/
def rollbackCheckpoint (images : List BeforeImage) : Inner :=
  if ownsCheckpoint inner scope turnId then
    let taken := { inner with checkpoints := update inner.checkpoints scope none }
    enforceCapacity (images.foldl restore ((images.map Prod.fst).foldl removeKey taken))
  else inner

def recordedState (existing : Option FileReadState) (evidence : ReadEvidence) : FileReadState :=
  let known := match existing with
    | some state => if state.revision = evidence.revision then (state.ranges, state.complete)
        else ([], false)
    | none => ([], false)
  let ranges := mergeRanges (known.1 ++ evidence.ranges)
  let complete := known.2 || evidence.complete
  { revision := evidence.revision
    totalLines := evidence.totalLines
    endsWithNewline := evidence.endsWithNewline
    ranges := ranges
    complete := complete || coversWholeFile ranges evidence.totalLines }

def record (evidence : ReadEvidence) : Inner :=
  let key := (scope, evidence.path)
  let captured := captureBefore inner scope key
  let state := recordedState (captured.map key) evidence
  if readStateMaxRangesPerFile < state.ranges.length then removeKey captured key
  else insertState captured scope key state

def evaluate (path : Text) (revision : ContentRevision) : ReadStateVerdict × Inner :=
  let key := (scope, path)
  match inner.map key with
  | none => (.missing, inner)
  | some state =>
    if state.revision ≠ revision then (.stale, removeKey (captureBefore inner scope key) key)
    else (.fresh ⟨state.totalLines, state.endsWithNewline, state.ranges, state.complete⟩, inner)

def clearPath (path : Text) : Inner :=
  removeKey (captureBefore inner scope (scope, path)) (scope, path)

def clearKeys (doomed : ReadStateKey → Bool) : Inner :=
  clearCheckpointBeforeImages
    { inner with
      map := fun key => if doomed key then none else inner.map key
      order := inner.order.filter fun key => !doomed key } doomed

def clearScope : Inner :=
  clearKeys inner fun key => key.1 = scope

def clearSession (sessionId : Text) : Inner :=
  clearKeys inner fun key => key.1.sessionId = some sessionId

end AgentClaimNetwork.Tool
