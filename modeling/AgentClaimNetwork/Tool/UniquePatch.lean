import AgentClaimNetwork.Tool.EditAuthority

/-!
`src/tool/file.rs`: what `file_patch` replaces when it was asked to replace one place only.
-/

namespace AgentClaimNetwork.Tool

open Library List

def OccursAt (text old : List UInt8) (offset : Nat) : Prop := old <+: text.drop offset

/-- `str::replacen` for the next `count` matches; `skip` bytes still belong to a match. -/
def replacenFrom (old new : List UInt8) : Nat → Nat → List UInt8 → List UInt8
  | _, _, [] => []
  | count, skip + 1, _ :: rest => replacenFrom old new count skip rest
  | 0, 0, byte :: rest => byte :: rest
  | count + 1, 0, byte :: rest =>
    if old.isPrefixOf (byte :: rest) then new ++ replacenFrom old new count (old.length - 1) rest
    else byte :: replacenFrom old new (count + 1) 0 rest

def replacen (text old new : List UInt8) (count : Nat) : List UInt8 :=
  replacenFrom old new count 0 text

variable {before : List UInt8} {start offset : Nat}

theorem replacenFrom_zero (text : List UInt8) (skip : Nat) :
    replacenFrom old new 0 skip text = text.drop skip := by
  induction text generalizing skip with
  | nil => cases skip <;> rfl
  | cons byte rest ih =>
    cases skip with
    | zero => rfl
    | succ skip => exact ih skip

theorem matchIndicesFrom_occurs (found : start ∈ matchIndicesFrom old skip index text) :
    index ≤ start ∧ OccursAt text old (start - index) := by
  induction text generalizing skip index with
  | nil => cases found
  | cons byte rest ih =>
    have later : ∀ {skip}, start ∈ matchIndicesFrom old skip (index + 1) rest →
        index ≤ start ∧ OccursAt (byte :: rest) old (start - index) := by
      intro skip inRest
      obtain ⟨behind, occurs⟩ := ih inRest
      refine ⟨by omega, ?_⟩
      rw [show start - index = start - (index + 1) + 1 by omega]
      exact occurs
    cases skip with
    | succ skip => exact later found
    | zero =>
      rw [matchIndicesFrom] at found
      split_ifs at found with here
      · rcases mem_cons.mp found with rfl | inRest
        · rw [Nat.sub_self]
          exact ⟨Nat.le_refl _, isPrefixOf_iff_prefix.mp here⟩
        · exact later inRest
      · exact later found

theorem replacenFrom_one (found : matchIndicesFrom old 0 index text = start :: others)
    (someOld : old ≠ []) : replacenFrom old new 1 0 text =
      splice text new (start - index) (start - index + old.length) := by
  induction text generalizing index with
  | nil => cases found
  | cons byte rest ih =>
    rw [matchIndicesFrom] at found
    rw [replacenFrom]
    split_ifs at found ⊢ with here
    · obtain ⟨last, isLast⟩ := Nat.exists_eq_succ_of_ne_zero
        (Nat.ne_of_gt (length_pos_of_ne_nil someOld))
      rw [← (List.cons.inj found).1, replacenFrom_zero, isLast]
      simp [splice]
    · have behind := (matchIndicesFrom_occurs (found ▸ mem_cons_self)).1
      rw [ih found, show start - index = start - (index + 1) + 1 by omega, Nat.add_right_comm]
      rfl

/-- An occurrence is a match or overlaps one. -/
theorem occursAt_matched (someOld : old ≠ []) (skip index : Nat)
    (occurs : OccursAt text old offset) : offset < skip ∨
      ∃ start ∈ matchIndicesFrom old skip index text,
        start ≤ index + offset ∧ index + offset < start + old.length := by
  have positive : 0 < old.length := length_pos_of_ne_nil someOld
  induction text generalizing skip index offset with
  | nil => exact absurd (prefix_nil.mp (by simpa [OccursAt] using occurs)) someOld
  | cons byte rest ih =>
    cases offset with
    | zero =>
      cases skip with
      | succ skip => exact .inl (Nat.succ_pos _)
      | zero =>
        have here : old <+: byte :: rest := occurs
        rw [matchIndicesFrom, if_pos (List.isPrefixOf_iff_prefix.mpr here)]
        exact .inr ⟨index, by simp, by omega, by omega⟩
    | succ offset =>
      have further := fun skip => @ih offset skip (index + 1) occurs
      cases skip with
      | succ skip =>
        rcases further skip with within | ⟨start, found, low, high⟩
        · exact .inl (by omega)
        · exact .inr ⟨start, found, by omega, by omega⟩
      | zero =>
        rw [matchIndicesFrom]
        split_ifs with here
        · rcases further (old.length - 1) with within | ⟨start, found, low, high⟩
          · exact .inr ⟨index, by simp, by omega, by omega⟩
          · exact .inr ⟨start, mem_cons_of_mem _ found, by omega, by omega⟩
        · rcases further 0 with within | ⟨start, found, low, high⟩
          · omega
          · exact .inr ⟨start, found, by omega, by omega⟩

theorem occursAt_unique (someOld : old ≠ []) (found : matchIndices text old = [start]) :
    (∀ offset, OccursAt text old offset → offset = start) ↔
      ∀ first second, OccursAt text old first → OccursAt text old second → first < second →
        first + old.length ≤ second := by
  have isMatch : OccursAt text old start :=
    (matchIndicesFrom_occurs (found ▸ mem_singleton_self start)).2
  constructor
  · intro unique first second isFirst isSecond less
    have same := (unique first isFirst).trans (unique second isSecond).symm
    omega
  · intro apart offset occurs
    rcases occursAt_matched someOld 0 0 occurs with within | ⟨near, member, low, high⟩
    · omega
    · rw [← matchIndices, found, mem_singleton] at member
      subst member
      by_contra different
      have behind := apart near offset isMatch occurs (by omega)
      omega

section

variable {registry : ToolRegistry} {digest : Digest} {path : Text} {context : ToolDispatchContext}
  {args : FilePatchArgs} {workspace : Workspace}

theorem commitEdit_changed {after : List UInt8}
    {count : Nat}
    (changed : (commitEdit registry digest path context after migration count workspace
      expected).2.file ≠ workspace.file) :
    (commitEdit registry digest path context after migration count workspace expected).2 =
      ⟨some after, migration.elim workspace.inner fun migration =>
        activateFileReadEvidence registry context (.knownRanges digest path after migration)
          workspace.inner⟩ := by
  unfold commitEdit writeTextAtomicIfUnchanged at changed ⊢
  split_ifs at changed ⊢ with cancelled current
  · exact absurd rfl changed
  · cases migration <;> rfl
  · exact absurd rfl changed

/-- The span that `file_patch` passes to `migrate_edit_coverage`, and what it makes of the
answer. -/
def MigratedAt (registry : ToolRegistry) (digest : Digest) (path : Text)
    (context : ToolDispatchContext) (before after : List UInt8) (start stop replacementLen : Nat)
    (known later : Inner) : Prop :=
  ∃ authority inner migration,
    evaluateFileReadState registry digest path context before known = (.fresh authority, inner) ∧
    migrateEditCoverage before after authority start stop replacementLen = .ok migration ∧
    later = activateFileReadEvidence registry context (.knownRanges digest path after migration)
      inner

theorem filePatch_changed (single : args.replaceAll = false)
    (changed : (filePatch registry digest path context args workspace).2.file ≠ workspace.file) :
    args.oldContent ≠ [] ∧ ∃ before start, workspace.file = some before ∧
      matchIndices before args.oldContent = [start] ∧
      (filePatch registry digest path context args workspace).2.file =
        some (splice before args.newContent start (start + args.oldContent.length)) ∧
      (registry.fileEditAuthorityEnabled = true →
        MigratedAt registry digest path context before
          (splice before args.newContent start (start + args.oldContent.length)) start
          (start + args.oldContent.length) args.newContent.length workspace.inner
          (filePatch registry digest path context args workspace).2.inner) := by
  obtain ⟨file, inner⟩ := workspace
  unfold filePatch at changed ⊢
  by_cases empty : args.oldContent = []
  · rw [if_pos empty] at changed
    exact absurd rfl changed
  refine ⟨empty, ?_⟩
  rw [if_neg empty] at changed ⊢
  cases file with
  | none => exact absurd rfl changed
  | some before =>
    dsimp only at changed ⊢
    by_cases invalid : (Utf8.strict before).isNone = true
    · rw [if_pos invalid] at changed
      exact absurd rfl changed
    rw [if_neg invalid] at changed ⊢
    cases found : matchIndices before args.oldContent with
    | nil =>
      rw [found] at changed
      exact absurd rfl changed
    | cons start others =>
      rw [found] at changed
      dsimp only at changed ⊢
      by_cases several : args.replaceAll = false ∧ others ≠ []
      · rw [if_pos several] at changed
        exact absurd rfl changed
      rw [if_neg several] at changed ⊢
      obtain rfl : others = [] := by
        by_contra more
        exact several ⟨single, more⟩
      refine ⟨before, start, rfl, found, ?_⟩
      unfold patchAt at changed ⊢
      simp only [single, Bool.false_eq_true, if_false] at changed ⊢
      by_cases enabled : registry.fileEditAuthorityEnabled = true
      · rw [if_pos enabled] at changed ⊢
        rcases read : evaluateFileReadState registry digest path context before inner with
          ⟨verdict, later⟩
        rw [read] at changed
        cases verdict with
        | missing | stale => exact absurd rfl changed
        | fresh authority =>
          dsimp only at changed ⊢
          cases migrated : migrateEditCoverage before (splice before args.newContent start
              (start + args.oldContent.length)) authority start (start + args.oldContent.length)
              args.newContent.length with
          | error required =>
            rw [migrated] at changed
            exact absurd rfl changed
          | ok migration =>
            rw [migrated] at changed
            rw [commitEdit_changed changed]
            exact ⟨rfl, fun _ => ⟨authority, later, migration, read, migrated, rfl⟩⟩
      · rw [if_neg enabled] at changed ⊢
        rw [commitEdit_changed changed]
        exact ⟨rfl, fun isEnabled => absurd isEnabled enabled⟩

/-- A call for one place needs exactly one match from left to right and replaces it; this is the
only occurrence exactly when no two occurrences overlap. -/
theorem filePatch_unique_iff (single : args.replaceAll = false)
    (changed : (filePatch registry digest path context args workspace).2.file ≠ workspace.file) :
    ∃ before start, workspace.file = some before ∧
      matchIndices before args.oldContent = [start] ∧ OccursAt before args.oldContent start ∧
      (filePatch registry digest path context args workspace).2.file = some
        (before.take start ++ args.newContent ++ before.drop (start + args.oldContent.length)) ∧
      (filePatch registry digest path context args workspace).2.file =
        some (replacen before args.oldContent args.newContent 1) ∧
      (registry.fileEditAuthorityEnabled = true →
        MigratedAt registry digest path context before
          (replacen before args.oldContent args.newContent 1) start
          (start + args.oldContent.length) args.newContent.length workspace.inner
          (filePatch registry digest path context args workspace).2.inner) ∧
      ((∀ offset, OccursAt before args.oldContent offset → offset = start) ↔
        ∀ first second, OccursAt before args.oldContent first →
          OccursAt before args.oldContent second → first < second →
            first + args.oldContent.length ≤ second) := by
  obtain ⟨someOld, before, start, isFile, found, written, migrated⟩ :=
    filePatch_changed single changed
  have replaced : replacen before args.oldContent args.newContent 1 =
      splice before args.newContent start (start + args.oldContent.length) :=
    replacenFrom_one found someOld
  refine ⟨before, start, isFile, found,
    (matchIndicesFrom_occurs (found ▸ mem_singleton_self start)).2, written, ?_, ?_,
    occursAt_unique someOld found⟩
  · rw [replaced]
    exact written
  · rw [replaced]
    exact migrated

end

namespace OneLine

/-- A file of three equal characters that its caller has read. -/
def seen : Workspace :=
  (fileRead registry digest [] context ⟨1, 1, none, true, 100⟩ ⟨some [97, 97, 97], .empty⟩).2

theorem patch_of_whole_line : ∃ before start, seen.file = some before ∧
    matchIndices before [97, 97, 97] = [start] ∧
    (filePatch registry digest [] context ⟨[97, 97, 97], [98], false⟩ seen).2.file =
      some (before.take start ++ [98] ++ before.drop (start + 3)) := by
  obtain ⟨before, start, isFile, found, _, written, _⟩ :=
    @filePatch_unique_iff registry digest [] context ⟨[97, 97, 97], [98], false⟩ seen rfl
      (show some [98] ≠ some [97, 97, 97] from nofun)
  exact ⟨before, start, isFile, found, written⟩

theorem patch_of_overlapping_places : ¬ ∀ args workspace, args.replaceAll = false →
    (filePatch registry digest [] context args workspace).2.file ≠ workspace.file →
      ∃ before start, workspace.file = some before ∧
        ∀ offset, OccursAt before args.oldContent offset → offset = start := by
  intro claimed
  obtain ⟨before, start, isFile, unique⟩ := claimed ⟨[97, 97], [98], false⟩ seen rfl
    (show some [98, 97] ≠ some [97, 97, 97] from nofun)
  obtain rfl : [97, 97, 97] = before := Option.some.inj isFile
  cases (unique 0 ⟨[97], rfl⟩).trans (unique 1 ⟨[], rfl⟩).symm

end OneLine

end AgentClaimNetwork.Tool
