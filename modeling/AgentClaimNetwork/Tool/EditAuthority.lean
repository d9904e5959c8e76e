import AgentClaimNetwork.Library.Trace
import AgentClaimNetwork.Tool.FileEdit

/-!
What a caller may change of a file is never more than what it has seen of it or written to it,
also when the file changes between the calls.
-/

namespace AgentClaimNetwork.Tool

open Library List
open Function (update_self)

variable {origins : List (Option Nat)} {history : List Observation} {authority : ReadAuthority}

section

def Carried (before : List UInt8) (byte : UInt8) (origin : Option Nat) : Prop :=
  ∀ position, origin = some position → before[position]? = some byte

def spliceOrigins (before new : List UInt8) (start stop : Nat) : List (Option Nat) :=
  (List.range start).map some ++ new.map (fun _ => none) ++
    (range' stop (before.length - stop)).map some

/-- The same for `replaceFrom`, from the byte at `index` on. -/
def replaceOriginsFrom (old new : List UInt8) : Nat → Nat → List UInt8 → List (Option Nat)
  | _, _, [] => []
  | skip + 1, index, _ :: rest => replaceOriginsFrom old new skip (index + 1) rest
  | 0, index, byte :: rest =>
    if old.isPrefixOf (byte :: rest) then
      new.map (fun _ => none) ++
        replaceOriginsFrom old new (old.length - 1) (index + 1) rest
    else some index :: replaceOriginsFrom old new 0 (index + 1) rest

theorem written_carried : List.Forall₂ (Carried before) new (new.map fun _ => none) := by
  induction new with
  | nil => exact List.Forall₂.nil
  | cons byte rest ih => exact List.Forall₂.cons (fun _ absent => nomatch absent) ih

theorem part_carried {before part : List UInt8} {start length : Nat}
    (isPart : part = (before.drop start).take length) (inside : start + length ≤ before.length) :
    List.Forall₂ (Carried before) part ((range' start length).map some) := by
  have size : part.length = length := by
    simp [isPart]
    omega
  refine forall₂_iff_get.mpr ⟨by simp [size], ?_⟩
  intro index inPart inRange position isPosition
  simp only [get_eq_getElem, getElem_map, getElem_range', Option.some.injEq,
    Nat.one_mul] at isPosition
  subst isPosition isPart
  rw [get_eq_getElem, getElem_take, getElem_drop]
  exact List.getElem?_eq_getElem _

variable {before new : List UInt8}

theorem splice_carried {start stop : Nat} (ordered : start ≤ stop) (inside : stop ≤ before.length) :
    List.Forall₂ (Carried before) (splice before new start stop)
      (spliceOrigins before new start stop) := by
  have front : List.Forall₂ (Carried before) (before.take start) ((List.range start).map some) := by
    rw [range_eq_range']
    exact part_carried (by rw [drop_zero]) (by omega)
  have back : List.Forall₂ (Carried before) (before.drop stop)
      ((range' stop (before.length - stop)).map some) :=
    part_carried (take_of_length_le (by simp)).symm (by omega)
  exact rel_append (rel_append front written_carried) back

theorem replaceFrom_carried {before passed text old new : List UInt8} (skip : Nat)
    (isBefore : before = passed ++ text) :
    List.Forall₂ (Carried before) (replaceFrom old new skip text)
      (replaceOriginsFrom old new skip passed.length text) := by
  induction text generalizing passed skip with
  | nil =>
    cases skip with
    | zero | succ skip => exact List.Forall₂.nil
  | cons byte rest ih =>
    have next : before = (passed ++ [byte]) ++ rest := by simp [isBefore]
    have length : (passed ++ [byte]).length = passed.length + 1 := by simp
    cases skip with
    | succ skip =>
      rw [replaceFrom, replaceOriginsFrom, ← length]
      exact ih skip next
    | zero =>
      rw [replaceFrom, replaceOriginsFrom, ← length]
      split_ifs with matches_here
      · exact rel_append written_carried (ih _ next)
      · refine List.Forall₂.cons ?_ (ih 0 next)
        intro position isPosition
        obtain rfl := Option.some.inj isPosition
        simp [isBefore]

variable {start position : Nat}

theorem spliceOrigins_before (early : position < start) :
    (spliceOrigins before new start stop)[position]? = some (some position) := by
  rw [spliceOrigins, append_assoc, List.getElem?_append_left (by simpa using early)]
  simp [early]

theorem spliceOrigins_new (low : start ≤ position) (high : position < start + new.length) :
    (spliceOrigins before new start stop)[position]? = some none := by
  rw [spliceOrigins, append_assoc, List.getElem?_append_right (by simpa using low),
    List.getElem?_append_left (by simp; omega)]
  have inside : position - start < new.length := by omega
  simp [inside]

theorem spliceOrigins_behind (ordered : start ≤ stop) (low : start + new.length ≤ position)
    (inside : position < (splice before new start stop).length) (bounded : stop ≤ before.length) :
    (spliceOrigins before new start stop)[position]? =
      some (some (editOrigin start stop new.length position)) := by
  have length : (splice before new start stop).length =
      start + new.length + (before.length - stop) := by
    simp [splice]
    omega
  rw [spliceOrigins, List.getElem?_append_right (by simpa using low)]
  have offset : position - (start + new.length) < before.length - stop := by omega
  have origin : stop + (position - (start + new.length)) =
      editOrigin start stop new.length position := by
    unfold editOrigin
    omega
  simp [offset, origin]

end

section

inductive Observation
  | page (file : List UInt8) (shown : List (Nat × List UInt8))
  | edit (before after : List UInt8) (origins : List (Option Nat))

def Observation.Genuine : Observation → Prop
  | .page file shown => ∀ line ∈ shown, ScannedLine.Of file ⟨line.1, some line.2⟩
  | .edit before after origins => List.Forall₂ (Carried before) after origins

/-- The bytes of a content that were shown on a page of it, written when it came to be, or kept
then from bytes that were known. -/
inductive Known (history : List Observation) : List UInt8 → Nat → Prop
  | shown {file shown line text position} : Observation.page file shown ∈ history →
      (line, text) ∈ shown → InLine file line position → Known history file position
  | written {before after origins position} : Observation.edit before after origins ∈ history →
      origins[position]? = some none → Known history after position
  | kept {before after origins position origin} :
      Observation.edit before after origins ∈ history →
      origins[position]? = some (some origin) → Known history before origin →
      Known history after position

variable {history later : List Observation} {content before after : List UInt8} {position : Nat}

theorem Known.mono (known : Known history content position) (grows : history ⊆ later) :
    Known later content position := by
  induction known with
  | shown page line inLine => exact Known.shown (grows page) line inLine
  | written edit isNew => exact Known.written (grows edit) isNew
  | kept edit isKept _ ih => exact Known.kept (grows edit) isKept ih

def AllKnown (history : List Observation) (content : List UInt8) : Prop :=
  ∀ position, position < content.length → Known history content position

theorem allKnown_edit (edit : Observation.edit before after origins ∈ history)
    (genuine : List.Forall₂ (Carried before) after origins) (known : AllKnown history before) :
    AllKnown history after := by
  intro position inside
  have bound : position < origins.length := by
    rw [← genuine.length_eq]
    exact inside
  have found : origins[position]? = some origins[position] := List.getElem?_eq_getElem bound
  cases origin : origins[position] with
  | none =>
    rw [origin] at found
    exact Known.written edit found
  | some earlier =>
    have carried := (forall₂_iff_get.mp genuine).2 position inside bound
    have isByte := carried earlier origin
    rw [origin] at found
    exact Known.kept edit found (known earlier (List.getElem?_eq_some_iff.mp isByte).1)

def LinesKnown (history : List Observation) (content : List UInt8) (ranges : List LineRange) :
    Prop :=
  ∀ position, InKnownLine content ranges position → Known history content position

def AllLines (content : List UInt8) (ranges : List LineRange) : Prop :=
  ∀ line, 0 < line → line ≤ logicalLineCount content → InRanges ranges line

variable {ranges : List LineRange}

theorem allKnown_of_lines (known : LinesKnown history content ranges)
    (all : AllLines content ranges) : AllKnown history content := by
  intro position inside
  obtain ⟨line, positive, bound, inLine⟩ := inLine_of_lt inside
  exact known position ⟨line, all line positive bound, inLine⟩

theorem linesKnown_of_all (known : AllKnown history content) :
    LinesKnown history content ranges := by
  rintro position ⟨line, _, inLine⟩
  exact known position inLine.lt

theorem linesKnown_splice {new : List UInt8} {start stop : Nat}
    (ordered : start ≤ stop) (inside : stop ≤ before.length)
    (edit : Observation.edit before (splice before new start stop)
      (spliceOrigins before new start stop) ∈ history)
    (migrates : Migrates before (splice before new start stop) ranges start stop new.length
      migration) (known : LinesKnown history before ranges) :
    LinesKnown history (splice before new start stop) migration.ranges := by
  intro position inLine
  have bound : position < (splice before new start stop).length := by
    obtain ⟨line, _, inLine⟩ := inLine
    exact inLine.lt
  rcases migrates.moved position inLine with ⟨early, old⟩ | ⟨low, high⟩ | ⟨late, old⟩
  · exact Known.kept edit (spliceOrigins_before early) (known position old)
  · exact Known.written edit (spliceOrigins_new low high)
  · exact Known.kept edit (spliceOrigins_behind ordered late bound inside) (known _ old)

end

section

variable {digest : Digest} {inner : Inner} {scope : ReadStateScope}

structure Sound (digest : Digest) (history : List Observation) (state : FileReadState) : Prop where
  known : ∀ content, state.revision = digest.revision content →
    LinesKnown history content state.ranges
  complete : ∀ content, state.revision = digest.revision content → state.complete = true →
    AllLines content state.ranges
  total : ∀ content, state.revision = digest.revision content →
    state.totalLines = logicalLineCount content

structure SoundEvidence (digest : Digest) (history : List Observation) (content : List UInt8)
    (evidence : ReadEvidence) : Prop where
  revision : evidence.revision = digest.revision content
  total : evidence.totalLines = logicalLineCount content
  known : LinesKnown history content evidence.ranges
  complete : evidence.complete = true → AllLines content evidence.ranges

theorem Sound.mono {later : List Observation} (sound : Sound digest history state)
    (grows : history ⊆ later) : Sound digest later state where
  known := fun content same position inLine => (sound.known content same position inLine).mono grows
  complete := sound.complete
  total := sound.total

theorem inRanges_append :
    InRanges (left ++ right) line ↔ InRanges left line ∨ InRanges right line := by
  simp only [InRanges, mem_append, or_and_right, exists_or]

variable {evidence : ReadEvidence} {content : List UInt8}

theorem recordedState_sound (evident : SoundEvidence digest history content evidence)
    (earlier : ∀ state, existing = some state → Sound digest history state) :
    Sound digest history (recordedState existing evidence) := by
  have only : ∀ other, (recordedState existing evidence).revision = digest.revision other →
      other = content := by
    intro other same
    exact digest.revision_injective (same.symm.trans evident.revision)
  -- what the state knew of this content before, nothing when it was of another one
  obtain ⟨known, ranges, isKnown, knownLines, knownAll⟩ : ∃ known ranges,
      (recordedState existing evidence = FileReadState.mk evidence.revision evidence.totalLines
        evidence.endsWithNewline (mergeRanges (ranges ++ evidence.ranges))
        ((known || evidence.complete) ||
          coversWholeFile (mergeRanges (ranges ++ evidence.ranges)) evidence.totalLines)) ∧
      LinesKnown history content ranges ∧ (known = true → AllLines content ranges) := by
    have nothing : LinesKnown history content [] := by
      rintro position ⟨line, ⟨_, member, _⟩, _⟩
      cases member
    cases existing with
    | none => exact ⟨false, [], rfl, nothing, fun absent => nomatch absent⟩
    | some state =>
      by_cases same : state.revision = evidence.revision
      · have sound := earlier state rfl
        refine ⟨state.complete, state.ranges, ?_, sound.known content
          (same.trans evident.revision), sound.complete content (same.trans evident.revision)⟩
        simp only [recordedState, if_pos same]
      · refine ⟨false, [], ?_, nothing, fun absent => nomatch absent⟩
        simp only [recordedState, if_neg same]
  have named : ∀ line, InRanges (recordedState existing evidence).ranges line ↔
      InRanges ranges line ∨ InRanges evidence.ranges line := by
    intro line
    rw [isKnown]
    exact (mergeRanges_inRanges _ line).trans inRanges_append
  refine ⟨?_, ?_, ?_⟩
  · intro other same position inLine
    obtain rfl := only other same
    obtain ⟨line, inside, inLine⟩ := inLine
    rcases (named line).mp inside with old | new
    · exact knownLines position ⟨line, old, inLine⟩
    · exact evident.known position ⟨line, new, inLine⟩
  · intro other same complete line positive inside
    obtain rfl := only other same
    rw [isKnown] at complete
    simp only [Bool.or_eq_true] at complete
    rcases complete with (old | new) | covers
    · exact (named line).mpr (.inl (knownAll old line positive inside))
    · exact (named line).mpr (.inr (evident.complete new line positive inside))
    · rw [isKnown]
      exact coversWholeFile_inRanges covers positive (by rw [evident.total]; exact inside)
  · intro other same
    obtain rfl := only other same
    exact evident.total

theorem record_map (evidence : ReadEvidence) :
    (record inner scope evidence).map (scope, evidence.path) = none ∨
      (record inner scope evidence).map (scope, evidence.path) =
        some (recordedState (inner.map (scope, evidence.path)) evidence) := by
  unfold record
  dsimp only
  split_ifs with many
  · exact .inl (update_self _ _ _)
  · refine @evictWhileFull_induction (fun inner' => inner'.map (scope, evidence.path) = none ∨
      inner'.map (scope, evidence.path) =
        some (recordedState (inner.map (scope, evidence.path)) evidence)) _ _ ?_ _ ?_
    · intro before evicted rest order full holds
      by_cases same : evicted = (scope, evidence.path)
      · subst same
        exact .inl (update_self _ _ _)
      · have other : (scope, evidence.path) ≠ evicted := fun equal => same equal.symm
        have kept : (evict (captureBefore before scope evicted) evicted).map
            (scope, evidence.path) = before.map (scope, evidence.path) :=
          Function.update_of_ne other _ _
        rw [kept]
        exact holds
    · exact .inr (update_self _ _ _)

def SoundAt (digest : Digest) (history : List Observation) (scope : ReadStateScope) (path : Text)
    (inner : Inner) : Prop :=
  ∀ state, inner.map (scope, path) = some state → Sound digest history state

theorem record_soundAt {path : Text}
    (isPath : evidence.path = path) (evident : SoundEvidence digest history content evidence)
    (sound : SoundAt digest history scope path inner) :
    SoundAt digest history scope path (record inner scope evidence) := by
  subst isPath
  intro state isState
  rcases @record_map inner scope evidence with gone | held
  · rw [gone] at isState
    cases isState
  · rw [held] at isState
    obtain rfl := Option.some.inj isState
    exact recordedState_sound evident sound

end
variable {mode : WriteMode}

section

variable {registry : ToolRegistry} {digest : Digest} {scope : ReadStateScope} {path : Text}
  {context : ToolDispatchContext} {workspace : Workspace} {before : List UInt8}

def Unchanged (scope : ReadStateScope) (path : Text) (workspace next : Workspace) : Prop :=
  next.file = workspace.file ∧ (next.inner.map (scope, path) = workspace.inner.map (scope, path) ∨
    next.inner.map (scope, path) = none)

def AuthorityOf (before : List UInt8) (authority : ReadAuthority) : Prop :=
  authority.totalLines = logicalLineCount before ∧
    (authority.complete = true → AllLines before authority.ranges)

/-- An edit that the code allows, with where its bytes come from and the coverage it leaves. -/
inductive Allowed (before : List UInt8) (authority : ReadAuthority) :
    List UInt8 → List (Option Nat) → CoverageMigration → Prop
  | whole {after origins} : authority.complete = true →
      List.Forall₂ (Carried before) after origins →
      Allowed before authority after origins (.whole after)
  | moved {new start stop migration} : authority.complete = false → start ≤ stop →
      stop ≤ before.length →
      migrateEditCoverage before (splice before new start stop) authority start stop new.length =
        .ok migration →
      Allowed before authority (splice before new start stop)
        (spliceOrigins before new start stop) migration

/-- All that a call of `file_patch` or `file_write` can do: nothing to the file, create it, or
change it under a fresh read state that covers what the call needs. -/
inductive EditResult (digest : Digest) (scope : ReadStateScope) (path : Text)
    (workspace : Workspace) (covers : List UInt8 → List LineRange → Prop)
    (origins : List UInt8 → List (Option Nat)) : EditOutcome × Workspace → Prop
  | unchanged {outcome next} : (∀ bytes count, outcome ≠ .success bytes count) →
      Unchanged scope path workspace next →
      EditResult digest scope path workspace covers origins (outcome, next)
  | created {bytes count after} : workspace.file = none →
      List.Forall₂ (Carried []) after (origins []) →
      EditResult digest scope path workspace covers origins (.success bytes count,
        ⟨some after, record workspace.inner scope (.knownRanges digest path after (.whole after))⟩)
  | edited {bytes count before authority after migration} : workspace.file = some before →
      evaluate workspace.inner scope path (digest.revision before) =
        (.fresh authority, workspace.inner) →
      Allowed before authority after (origins before) migration →
      (AuthorityOf before authority → covers before authority.ranges) →
      EditResult digest scope path workspace covers origins (.success bytes count,
        ⟨some after, record workspace.inner scope (.knownRanges digest path after migration)⟩)

theorem EditResult.refused {covers : List UInt8 → List LineRange → Prop}
    {origins : List UInt8 → List (Option Nat)} {outcome : EditOutcome}
    (failed : ∀ bytes count, outcome ≠ .success bytes count) :
    EditResult digest scope path workspace covers origins (outcome, workspace) :=
  .unchanged failed ⟨rfl, .inl rfl⟩

variable (isScope : fileReadStateScope registry context = some scope)

include isScope

theorem commitEdit_cases {after : List UInt8} (current : workspace.file = expected)
    {count : Nat} :
    commitEdit registry digest path context after (some migration) count workspace expected =
        (.interrupted, workspace) ∨
      commitEdit registry digest path context after (some migration) count workspace expected =
        (.success after.length count,
          ⟨some after, record workspace.inner scope (.knownRanges digest path after migration)⟩) := by
  unfold commitEdit
  split_ifs with cancelled
  · exact .inl rfl
  · right
    rw [writeTextAtomicIfUnchanged, if_pos current]
    simp only [activateFileReadEvidence, isScope]

theorem commitEdit_result {covers : List UInt8 → List LineRange → Prop}
    {origins : List UInt8 → List (Option Nat)} {after : List UInt8}
    {count : Nat}
    (current : workspace.file = some before)
    (fresh : evaluate workspace.inner scope path (digest.revision before) =
      (.fresh authority, workspace.inner))
    (allowed : Allowed before authority after (origins before) migration)
    (covered : AuthorityOf before authority → covers before authority.ranges) :
    EditResult digest scope path workspace covers origins
      (commitEdit registry digest path context after (some migration) count workspace
        (some before)) := by
  rcases commitEdit_cases isScope current with stopped | written
  · rw [stopped]
    exact .refused (by simp)
  · rw [written]
    exact EditResult.edited current fresh allowed covered

omit isScope

theorem evaluate_cases (inner : Inner) (revision : ContentRevision) :
    (∃ state, inner.map (scope, path) = some state ∧ state.revision = revision ∧
      evaluate inner scope path revision =
        (.fresh ⟨state.totalLines, state.endsWithNewline, state.ranges, state.complete⟩, inner)) ∨
    evaluate inner scope path revision = (.missing, inner) ∨
    ∃ later, evaluate inner scope path revision = (.stale, later) ∧
      later.map (scope, path) = none := by
  cases isState : inner.map (scope, path) with
  | none => simp [evaluate, isState]
  | some state =>
    by_cases same : state.revision = revision
    · refine .inl ⟨state, rfl, same, ?_⟩
      simp [evaluate, isState, same]
    · refine .inr (.inr ⟨removeKey (captureBefore inner scope (scope, path)) (scope, path),
        ?_, update_self _ _ _⟩)
      simp [evaluate, isState, same]

theorem matchIndicesFrom_bound {skip index start : Nat}
    (found : start ∈ matchIndicesFrom old skip index text) :
    index ≤ start ∧ start + old.length ≤ index + text.length := by
  induction text generalizing skip index with
  | nil =>
    cases skip with
    | zero | succ skip => cases found
  | cons byte rest ih =>
    have later : ∀ {skip}, start ∈ matchIndicesFrom old skip (index + 1) rest →
        index ≤ start ∧ start + old.length ≤ index + (byte :: rest).length := by
      intro skip inRest
      have bound := ih inRest
      rw [length_cons]
      omega
    cases skip with
    | succ skip => exact later found
    | zero =>
      rw [matchIndicesFrom] at found
      split_ifs at found with here
      · rcases mem_cons.mp found with rfl | inRest
        · have fits := (List.isPrefixOf_iff_prefix.mp here).length_le
          omega
        · exact later inRest
      · exact later found

def patchOrigins (args : FilePatchArgs) (before : List UInt8) : List (Option Nat) :=
  if args.replaceAll then replaceOriginsFrom args.oldContent args.newContent 0 0 before
  else
    match matchIndices before args.oldContent with
    | [] => []
    | start :: _ =>
      spliceOrigins before args.newContent start (start + args.oldContent.length)

/-- The replaced bytes lie in the lines of the ranges, and for `replace_all` all bytes do. -/
def PatchCovers (args : FilePatchArgs) (before : List UInt8) (ranges : List LineRange) : Prop :=
  if args.replaceAll then AllLines before ranges
  else ∀ start ∈ matchIndices before args.oldContent, ∀ position, start ≤ position →
    position < start + args.oldContent.length → InKnownLine before ranges position

theorem inKnownLine_of_all {ranges : List LineRange} {position : Nat}
    (all : AllLines before ranges) (inside : position < before.length) :
    InKnownLine before ranges position := by
  obtain ⟨line, positive, bound, inLine⟩ := inLine_of_lt inside
  exact ⟨line, all line positive bound, inLine⟩

include isScope in
theorem fileReadStateScope_enabled : registry.fileEditAuthorityEnabled = true := by
  by_contra disabled
  rw [fileReadStateScope, if_pos (Bool.eq_false_of_not_eq_true disabled)] at isScope
  cases isScope

theorem allowed_of_migrate {new : List UInt8} {start stop : Nat}
    (ordered : start ≤ stop) (inside : stop ≤ before.length)
    (migrated : migrateEditCoverage before (splice before new start stop) authority start stop
      new.length = .ok migration) :
    Allowed before authority (splice before new start stop)
      (spliceOrigins before new start stop) migration := by
  cases complete : authority.complete with
  | false => exact Allowed.moved complete ordered inside migrated
  | true =>
    unfold migrateEditCoverage at migrated
    rw [if_pos complete] at migrated
    obtain rfl := Except.ok.inj migrated
    exact Allowed.whole complete (splice_carried ordered inside)

theorem replaced_of_migrate {new : List UInt8} {start stop position : Nat}
    (isAuthority : AuthorityOf before authority)
    (inside : stop ≤ before.length)
    (migrated : migrateEditCoverage before (splice before new start stop) authority start stop
      new.length = .ok migration) (low : start ≤ position) (high : position < stop) :
    InKnownLine before authority.ranges position := by
  cases complete : authority.complete with
  | false =>
    have migrates := migrateEditCoverage_spec complete (by omega) migrated
    exact migrates.replaced position low high
  | true => exact inKnownLine_of_all (isAuthority.2 complete) (by omega)

include isScope

theorem patchAt_result {start count : Nat} (current : workspace.file = some before)
    (fresh : evaluate workspace.inner scope path (digest.revision before) =
      (.fresh authority, workspace.inner))
    (found : args.replaceAll = false → matchIndices before args.oldContent = [start])
    (inside : start + args.oldContent.length ≤ before.length) :
    EditResult digest scope path workspace (PatchCovers args) (patchOrigins args)
      (patchAt registry digest path context args before start count (some authority)
        workspace) := by
  unfold patchAt
  dsimp only
  split_ifs with all incomplete
  · exact .refused (by simp)
  · have complete : authority.complete = true := by simpa using incomplete
    refine commitEdit_result isScope current fresh (Allowed.whole complete ?_) ?_
    · rw [patchOrigins, if_pos all]
      exact @replaceFrom_carried before [] before _ _ 0 rfl
    · intro isAuthority
      rw [PatchCovers, if_pos all]
      exact isAuthority.2 complete
  · have single := found (Bool.eq_false_of_not_eq_true all)
    split
    · exact .refused (by simp)
    · rename_i migration migrated
      refine commitEdit_result isScope current fresh ?_ ?_
      · rw [patchOrigins, if_neg all, single]
        exact allowed_of_migrate (Nat.le_add_right _ _) inside migrated
      · intro isAuthority
        rw [PatchCovers, if_neg all, single]
        intro other isStart position low high
        obtain rfl := mem_singleton.mp isStart
        exact replaced_of_migrate isAuthority inside migrated low high

theorem filePatch_result :
    EditResult digest scope path workspace (PatchCovers args) (patchOrigins args)
      (filePatch registry digest path context args workspace) := by
  obtain ⟨file, inner⟩ := workspace
  have enabled := fileReadStateScope_enabled isScope
  unfold filePatch
  by_cases empty : args.oldContent = []
  · rw [if_pos empty]
    exact .refused (by simp)
  rw [if_neg empty]
  cases file with
  | none => exact .refused (by simp)
  | some before =>
    dsimp only
    by_cases invalid : (Utf8.strict before).isNone = true
    · rw [if_pos invalid]
      exact .refused (by simp)
    rw [if_neg invalid]
    cases found : matchIndices before args.oldContent with
    | nil => exact .refused (by simp)
    | cons start others =>
      dsimp only
      by_cases several : args.replaceAll = false ∧ others ≠ []
      · rw [if_pos several]
        exact .refused (by simp)
      rw [if_neg several, if_pos enabled, evaluateFileReadState, isScope]
      dsimp only
      rcases @evaluate_cases scope path inner (digest.revision before) with
        ⟨state, _, _, fresh⟩ | missing | ⟨later, stale, gone⟩
      · have first : start ∈ matchIndices before args.oldContent := by
          rw [found]
          exact mem_cons_self
        have bound := (matchIndicesFrom_bound first).2
        rw [Nat.zero_add] at bound
        rw [fresh]
        refine patchAt_result isScope rfl fresh ?_ bound
        intro notAll
        by_contra more
        refine several ⟨notAll, ?_⟩
        rintro rfl
        exact more found
      · rw [missing]
        exact .refused (by simp)
      · rw [stale]
        exact EditResult.unchanged (by simp) ⟨rfl, .inr gone⟩

omit isScope

def writeOrigins (mode : WriteMode) (content before : List UInt8) : List (Option Nat) :=
  match mode with
  | .overwrite => content.map fun _ => none
  | .append => spliceOrigins before content before.length before.length
  | .prepend => spliceOrigins before content 0 0

def WriteCovers (mode : WriteMode) (before : List UInt8) (ranges : List LineRange) : Prop :=
  match mode with
  | .append => 0 < logicalLineCount before → InRanges ranges (logicalLineCount before)
  | .overwrite | .prepend => AllLines before ranges

theorem append_eq_splice (before content : List UInt8) :
    before ++ content = splice before content before.length before.length := by
  simp [splice]

theorem writeApply_carried : List.Forall₂ (Carried before) (mode.apply before content)
      (writeOrigins mode content before) := by
  cases mode with
  | overwrite => exact written_carried
  | append =>
    rw [WriteMode.apply, append_eq_splice]
    exact splice_carried (Nat.le_refl _) (Nat.le_refl _)
  | prepend =>
    have front : content ++ before = splice before content 0 0 := by simp [splice]
    exact splice_carried (Nat.le_refl _) (Nat.zero_le _)

theorem writeCovers_of_authorized (authorized : mode.authorized authority = true)
    (isAuthority : AuthorityOf before authority) : WriteCovers mode before authority.ranges := by
  cases mode with
  | overwrite | prepend => exact isAuthority.2 authorized
  | append =>
    intro some_lines
    simp only [WriteMode.authorized, ReadAuthority.hasEof, Bool.or_eq_true, Bool.and_eq_true,
      decide_eq_true_eq, any_eq_true] at authorized
    rcases authorized with complete | ⟨_, range, member, reaches⟩
    · exact isAuthority.2 complete _ some_lines (Nat.le_refl _)
    · have ordered := range.ordered
      rw [← isAuthority.1, ← reaches]
      exact ⟨range, member, ordered, Nat.le_refl _⟩

include isScope

theorem writeExisting_result {content : List UInt8} (current : workspace.file = some before)
    (fresh : evaluate workspace.inner scope path (digest.revision before) =
      (.fresh authority, workspace.inner)) :
    EditResult digest scope path workspace (WriteCovers mode) (writeOrigins mode content)
      (writeExisting registry digest path context mode content before authority workspace) := by
  unfold writeExisting
  dsimp only
  split_ifs with unauthorized equal known
  · exact .refused (by simp)
  · exact .refused (by simp)
  · have authorized : mode.authorized authority = true := Bool.eq_true_of_not_eq_false unauthorized
    have complete : authority.complete = true := by
      rcases known with complete | other
      · exact complete
      · cases mode with
        | overwrite | prepend => exact authorized
        | append => exact absurd rfl other
    exact commitEdit_result isScope current fresh
      (Allowed.whole complete writeApply_carried)
      (writeCovers_of_authorized authorized)
  · have authorized : mode.authorized authority = true := Bool.eq_true_of_not_eq_false unauthorized
    rw [not_or, not_not] at known
    obtain ⟨incomplete, rfl⟩ := known
    split
    · rename_i migration migrated
      refine commitEdit_result isScope current fresh ?_ (writeCovers_of_authorized authorized)
      rw [WriteMode.apply, length_append, Nat.add_sub_cancel_left,
        append_eq_splice] at migrated
      rw [WriteMode.apply, append_eq_splice]
      exact allowed_of_migrate (Nat.le_refl _) (Nat.le_refl _) migrated
    · refine EditResult.unchanged (by simp) ⟨rfl, .inr ?_⟩
      simp only [clearFilePathState, isScope, clearPath]
      exact update_self _ _ _

theorem fileWrite_result :
    EditResult digest scope path workspace (WriteCovers mode) (writeOrigins mode content)
      (fileWrite registry digest path context mode content workspace) := by
  obtain ⟨file, inner⟩ := workspace
  have enabled := fileReadStateScope_enabled isScope
  unfold fileWrite
  cases file with
  | none =>
    dsimp only
    rw [if_pos enabled]
    rcases commitEdit_cases isScope rfl with stopped | written
    · rw [stopped]
      exact .refused (by simp)
    · rw [written]
      exact EditResult.created rfl writeApply_carried
  | some before =>
    dsimp only
    by_cases invalid : (Utf8.strict before).isNone = true
    · rw [if_pos invalid]
      exact .refused (by simp)
    rw [if_neg invalid, if_pos enabled, evaluateFileReadState, isScope]
    dsimp only
    rcases @evaluate_cases scope path inner (digest.revision before) with
      ⟨state, _, _, fresh⟩ | missing | ⟨later, stale, gone⟩
    · rw [fresh]
      exact writeExisting_result isScope rfl fresh
    · rw [missing]
      exact .refused (by simp)
    · rw [stale]
      exact EditResult.unchanged (by simp) ⟨rfl, .inr gone⟩

omit isScope

end
variable {system : FileSystem}

section

inductive FileCall
  | read (request : TextPageRequest)
  | patch (args : FilePatchArgs)
  | write (mode : WriteMode) (content : List UInt8)

inductive FileLabel
  | call (context : ToolDispatchContext) (call : FileCall)
  | external (file : Option (List UInt8))

structure FileSystem where
  workspace : Workspace
  history : List Observation

def FileSystem.start (file : Option (List UInt8)) : FileSystem := ⟨⟨file, .empty⟩, []⟩

def readObservations (file : Option (List UInt8)) : FileReadOutcome → List Observation
  | .page page => (file.map fun file => Observation.page file page.shown).toList
  | _ => []

def editObservations (before after : Option (List UInt8))
    (origins : List UInt8 → List (Option Nat)) : EditOutcome → List Observation
  | .success _ _ =>
    (after.map fun after =>
      Observation.edit (before.getD []) after (origins (before.getD []))).toList
  | _ => []

def FileCall.perform (registry : ToolRegistry) (digest : Digest) (path : Text)
    (context : ToolDispatchContext) (workspace : Workspace) :
    FileCall → List Observation × Workspace
  | .read request =>
    let (outcome, next) := fileRead registry digest path context request workspace
    (readObservations workspace.file outcome, next)
  | .patch args =>
    let (outcome, next) := filePatch registry digest path context args workspace
    (editObservations workspace.file next.file (patchOrigins args) outcome, next)
  | .write mode content =>
    let (outcome, next) := fileWrite registry digest path context mode content workspace
    (editObservations workspace.file next.file (writeOrigins mode content) outcome, next)

/-- Calls of one scope, and changes from outside between them. -/
inductive FileStep (registry : ToolRegistry) (digest : Digest) (scope : ReadStateScope)
    (path : Text) : FileSystem → FileLabel → FileSystem → Prop
  | call {system context call} : fileReadStateScope registry context = some scope →
      FileStep registry digest scope path system (.call context call)
        ⟨(call.perform registry digest path context system.workspace).2,
          system.history ++ (call.perform registry digest path context system.workspace).1⟩
  | external {system file} :
      FileStep registry digest scope path system (.external file)
        ⟨⟨file, system.workspace.inner⟩, system.history⟩

def FileCall.Covers (before : List UInt8) (ranges : List LineRange) : FileCall → Prop
  | .read _ => False
  | .patch args => PatchCovers args before ranges
  | .write mode _ => WriteCovers mode before ranges

variable {registry : ToolRegistry} {digest : Digest} {scope : ReadStateScope} {path : Text}

structure EditInvariant (digest : Digest) (scope : ReadStateScope) (path : Text)
    (system : FileSystem) : Prop where
  genuine : ∀ observation ∈ system.history, observation.Genuine
  sound : SoundAt digest system.history scope path system.workspace.inner

theorem fresh_authority {inner : Inner} {before : List UInt8}
    (sound : SoundAt digest history scope path inner)
    (fresh : evaluate inner scope path (digest.revision before) = (.fresh authority, inner)) :
    AuthorityOf before authority ∧ LinesKnown history before authority.ranges := by
  rcases @evaluate_cases scope path inner (digest.revision before) with
    ⟨state, isState, same, isFresh⟩ | missing | ⟨later, stale, _⟩
  · rw [isFresh] at fresh
    obtain rfl := ReadStateVerdict.fresh.inj (Prod.mk.inj fresh).1
    have known := sound state isState
    exact ⟨⟨known.total before same, known.complete before same⟩, known.known before same⟩
  · rw [missing] at fresh
    cases (Prod.mk.inj fresh).1
  · rw [stale] at fresh
    cases (Prod.mk.inj fresh).1

theorem SoundAt.mono {history later : List Observation} {inner : Inner}
    (sound : SoundAt digest history scope path inner) (grows : history ⊆ later) :
    SoundAt digest later scope path inner :=
  fun state isState => (sound state isState).mono grows

theorem soundAt_unchanged {workspace next : Workspace}
    (sound : SoundAt digest history scope path workspace.inner)
    (unchanged : Unchanged scope path workspace next) :
    SoundAt digest history scope path next.inner := by
  intro state isState
  rcases unchanged.2 with same | gone
  · rw [same] at isState
    exact sound state isState
  · rw [gone] at isState
    cases isState

theorem wholeEvidence {after : List UInt8} (known : AllKnown history after) :
    SoundEvidence digest history after (.knownRanges digest path after (.whole after)) where
  revision := rfl
  total := rfl
  known := linesKnown_of_all known
  complete := fun _ _ positive inside => whole_inRanges positive inside

variable {before after : List UInt8}

theorem allowedEvidence (allowed : Allowed before authority after origins migration)
    (edit : Observation.edit before after origins ∈ history)
    (isAuthority : AuthorityOf before authority)
    (known : LinesKnown history before authority.ranges) :
    SoundEvidence digest history after (.knownRanges digest path after migration) := by
  cases allowed with
  | whole complete carried =>
    exact wholeEvidence (allKnown_edit edit carried
      (allKnown_of_lines known (isAuthority.2 complete)))
  | moved incomplete ordered inside migrated =>
    have migrates := migrateEditCoverage_spec incomplete ordered migrated
    exact ⟨rfl, rfl, linesKnown_splice ordered inside edit migrates known, migrates.complete⟩

theorem Allowed.carried (allowed : Allowed before authority after origins migration) :
    List.Forall₂ (Carried before) after origins := by
  cases allowed with
  | whole _ carried => exact carried
  | moved _ ordered inside _ => exact splice_carried ordered inside

theorem EditResult.invariant {system : FileSystem} {covers : List UInt8 → List LineRange → Prop}
    {origins : List UInt8 → List (Option Nat)} {result : EditOutcome × Workspace}
    (outcome : EditResult digest scope path system.workspace covers origins result)
    (holds : EditInvariant digest scope path system) :
    EditInvariant digest scope path ⟨result.2, system.history ++
      editObservations system.workspace.file result.2.file origins result.1⟩ := by
  have genuineOf : ∀ {edit : Observation}, edit.Genuine → ∀ observation ∈ system.history ++ [edit],
      observation.Genuine := by
    intro edit genuine observation member
    rcases mem_concat member with old | rfl
    · exact holds.genuine observation old
    · exact genuine
  have grows : ∀ edit : Observation, system.history ⊆ system.history ++ [edit] :=
    fun _ => subset_append_left _ _
  cases outcome with
  | unchanged failed unchanged =>
    rename_i outcome next
    have silent : editObservations system.workspace.file next.file origins outcome = [] := by
      cases outcome <;> first | rfl | exact absurd rfl (failed _ _)
    rw [silent, append_nil]
    exact ⟨holds.genuine, soundAt_unchanged holds.sound unchanged⟩
  | created missing carried =>
    rename_i bytes count after
    simp only [editObservations, missing, Option.getD_none, Option.map_some,
      Option.toList_some]
    have known : AllKnown (system.history ++ [Observation.edit [] after (origins [])]) after :=
      allKnown_edit (by simp) carried (fun _ absent => absurd absent (Nat.not_lt_zero _))
    exact ⟨genuineOf carried, record_soundAt rfl (wholeEvidence known) (holds.sound.mono (grows _))⟩
  | edited current fresh allowed covered =>
    rename_i bytes count before authority after migration
    simp only [editObservations, current, Option.getD_some, Option.map_some,
      Option.toList_some]
    obtain ⟨isAuthority, known⟩ := fresh_authority (holds.sound.mono (grows _)) fresh
    exact ⟨genuineOf allowed.carried, record_soundAt rfl
      (allowedEvidence allowed (by simp) isAuthority known) (holds.sound.mono (grows _))⟩

theorem fileRead_file :
    (fileRead registry digest path context request workspace).2.file = workspace.file := by
  unfold fileRead
  split_ifs
  · rfl
  · split
    · rfl
    · split <;> rfl

theorem fileRead_invariant {context : ToolDispatchContext}
    (isScope : fileReadStateScope registry context = some scope)
    (holds : EditInvariant digest scope path system) : EditInvariant digest scope path
      ⟨(fileRead registry digest path context request system.workspace).2, system.history ++
        readObservations system.workspace.file
          (fileRead registry digest path context request system.workspace).1⟩ := by
  obtain ⟨⟨file, inner⟩, history⟩ := system
  have quiet : EditInvariant digest scope path ⟨⟨file, inner⟩, history ++ []⟩ := by
    rw [append_nil]
    exact holds
  unfold fileRead
  split_ifs with invalid
  · exact quiet
  · cases file with
    | none => exact quiet
    | some file =>
      dsimp only
      split
      · exact quiet
      · exact quiet
      · rename_i page isPage
        obtain ⟨genuine, evident⟩ := readTextPage_spec isPage
        have grows : history ⊆ history ++ [Observation.page file page.shown] :=
          subset_append_left _ _
        have sound := holds.sound.mono grows
        refine ⟨?_, ?_⟩
        · intro observation member
          rcases mem_concat member with old | rfl
          · exact holds.genuine observation old
          · exact genuine
        · show SoundAt digest (history ++ [Observation.page file page.shown]) scope path _
          split
          · rename_i evidence isEvidence
            have about := evident evidence isEvidence
            simp only [activateFileReadEvidence, isScope]
            refine record_soundAt about.path
              ⟨about.revision, about.totalLines, ?_, about.complete⟩ sound
            rintro position ⟨line, inside, inLine⟩
            obtain ⟨text, shown⟩ := about.shown line inside
            exact Known.shown (by simp) shown inLine
          · exact sound

theorem fileStep_invariant {next : FileSystem}
    (taken : FileStep registry digest scope path system label next)
    (holds : EditInvariant digest scope path system) : EditInvariant digest scope path next := by
  cases taken with
  | external => exact ⟨holds.genuine, holds.sound⟩
  | @call context call isScope =>
    cases call with
    | read request => exact fileRead_invariant isScope holds
    | patch args => exact (filePatch_result isScope).invariant holds
    | write mode content =>
      exact (fileWrite_result isScope).invariant holds

theorem editInvariant_start : EditInvariant digest scope path (.start file) where
  genuine := fun _ member => absurd member not_mem_nil
  sound := fun _ isState => nomatch isState

theorem EditResult.covered {covers : List UInt8 → List LineRange → Prop}
    {origins : List UInt8 → List (Option Nat)} {before : List UInt8}
    (outcome : EditResult digest scope path system.workspace covers origins result)
    (holds : EditInvariant digest scope path system) (current : system.workspace.file = some before)
    (changed : result.2.file ≠ some before) :
    ∃ authority, evaluate system.workspace.inner scope path (digest.revision before) =
      (.fresh authority, system.workspace.inner) ∧ covers before authority.ranges := by
  cases outcome with
  | unchanged _ unchanged => exact absurd (unchanged.1.trans current) changed
  | created missing _ =>
    rw [missing] at current
    cases current
  | edited isBefore fresh _ covered =>
    rw [isBefore] at current
    obtain rfl := Option.some.inj current
    exact ⟨_, fresh, covered (fresh_authority holds.sound fresh).1⟩

/-- Edit authority never exceeds what was read. -/
theorem edit_authority_within_reading {file : Option (List UInt8)} {labels : List FileLabel}
    {system : FileSystem}
    (run : Trace (FileStep registry digest scope path) (.start file) labels system) :
    (∀ observation ∈ system.history, observation.Genuine) ∧
    (∀ content state, system.workspace.file = some content →
      system.workspace.inner.map (scope, path) = some state →
      state.revision = digest.revision content →
        (∀ line position, InRanges state.ranges line → InLine content line position →
          Known system.history content position) ∧
        (state.complete = true → ∀ position, position < content.length →
          Known system.history content position)) ∧
    ∀ context call next before,
      FileStep registry digest scope path system (.call context call) next →
      system.workspace.file = some before → next.workspace.file ≠ some before →
        ∃ authority, evaluate system.workspace.inner scope path (digest.revision before) =
          (.fresh authority, system.workspace.inner) ∧ call.Covers before authority.ranges := by
  have holds : EditInvariant digest scope path system :=
    run.invariant (fun taken => fileStep_invariant taken) editInvariant_start
  refine ⟨holds.genuine, ?_, ?_⟩
  · intro content state _ isState same
    have sound := holds.sound state isState
    constructor
    · intro line position inside inLine
      exact sound.known content same position ⟨line, inside, inLine⟩
    · intro complete
      exact allKnown_of_lines (sound.known content same) (sound.complete content same complete)
  · intro context call next before taken current changed
    cases taken with
    | call isScope =>
      cases call with
      | read request =>
        exact absurd ((fileRead_file).trans current) changed
      | patch args =>
        exact (filePatch_result isScope).covered holds current changed
      | write mode content =>
        exact (fileWrite_result isScope).covered holds current
          changed

end

namespace OneLine

def digest : Digest where
  sha256 := fun bytes => bytes.map fun byte => Char.ofNat byte.toNat
  injective := by
    intro left right same _
    refine map_injective_iff.mpr ?_ same
    intro first second equal
    have code : ∀ byte : UInt8, (Char.ofNat byte.toNat).toNat = byte.toNat := by
      intro byte
      have small := byte.toNat_lt
      have valid : byte.toNat.isValidChar := .inl (by omega)
      rw [Char.ofNat, dif_pos valid]
      rfl
    have numbers := congrArg Char.toNat equal
    simp only [code] at numbers
    exact UInt8.toNat_inj.mp numbers

def registry : ToolRegistry := ⟨true, false⟩

def context : ToolDispatchContext := ⟨some ['s'], some ['t'], false⟩

def scope : ReadStateScope := ⟨some ['s'], none⟩

def calls : List FileCall :=
  [.read ⟨1, 1, none, true, 100⟩, .patch ⟨[97], [99], false⟩]

def after (system : FileSystem) (call : FileCall) : FileSystem :=
  ⟨(call.perform registry digest [] context system.workspace).2,
    system.history ++ (call.perform registry digest [] context system.workspace).1⟩

def patched : FileSystem := calls.foldl after (.start (some [97, 10, 98, 10]))

theorem changed_line_is_known :
    patched.workspace.file = some [99, 10, 98, 10] ∧ Known patched.history [99, 10, 98, 10] 0 := by
  have run : Trace (FileStep registry digest scope []) (.start (some [97, 10, 98, 10]))
      ([] ++ [FileLabel.call context (.read ⟨1, 1, none, true, 100⟩)] ++
        [FileLabel.call context (.patch ⟨[97], [99], false⟩)]) patched :=
    .snoc (.snoc (.nil _) (.call rfl)) (.call rfl)
  have holds := (edit_authority_within_reading run).2.1 [99, 10, 98, 10]
    ⟨digest.revision [99, 10, 98, 10], 2, true, [⟨1, 1, Nat.one_pos, Nat.le_refl 1⟩], false⟩
    rfl rfl rfl
  refine ⟨rfl, holds.1 1 0 ?_ ?_⟩
  · exact ⟨_, mem_singleton_self _, Nat.le_refl 1, Nat.le_refl 1⟩
  · exact ⟨⟨0, 2⟩, rfl, Nat.le_refl 0, Nat.two_pos⟩

end OneLine

end AgentClaimNetwork.Tool
