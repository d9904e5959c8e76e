import AgentClaimNetwork.Storage.LegacyTree
import AgentClaimNetwork.Library.Trace

/-!
The migration of `src/upstream_migration.rs`: the items of a legacy home are moved to their places
under the selected upstream, whose name is never that of an item.
-/

namespace AgentClaimNetwork.Storage

open Library Library.Durable Library.Durable.Program Storage.Tree List
open Triple (bind ok relax weaken)

structure MigrationItem where
  src : Slot
  dst : Slot

def MigrationItem.atSrc : Focus MigrationItem Slot where
  view item := item.src
  put src item := { item with src }
  view_put _ _ := rfl
  put_put _ _ _ := rfl

def MigrationItem.atDst : Focus MigrationItem Slot where
  view item := item.dst
  put dst item := { item with dst }
  view_put _ _ := rfl
  put_put _ _ _ := rfl

inductive ItemName
  | mcpJson
  | acnMd
  | skills
  | agentHome
deriving DecidableEq

/-- The order of `migration_items`. -/
def migrationItems : List ItemName := [.mcpJson, .acnMd, .skills, .agentHome]

theorem mem_migrationItems : name ∈ migrationItems := by
  cases name <;> decide

abbrev Home := ItemName → MigrationItem

def atItem (name : ItemName) : Focus Home MigrationItem where
  view home := home name
  put item home := Function.update home name item
  view_put _ _ := Function.update_self ..
  put_put _ _ _ := Function.update_idem ..

structure LegacyRuntimeMigrationReport where
  moved : Nat
  skippedMissing : Nat
  skippedEmpty : Nat
  skippedExistingTarget : Nat

namespace LegacyRuntimeMigrationReport

/-- `LegacyRuntimeMigrationReport::default()`. -/
def empty : LegacyRuntimeMigrationReport := ⟨0, 0, 0, 0⟩

end LegacyRuntimeMigrationReport

def sourceHasContent : Tree → Bool
  | .file _ => true
  | .dir listed => !listed.isEmpty

/-- `create_dir_all` on the directories above a target, which are no part of an item. -/
def ensureTargetParent : Program MigrationItem Unit := write id

def migrateItem (report : LegacyRuntimeMigrationReport) :
    Program MigrationItem LegacyRuntimeMigrationReport := do
  let item ← look
  match item.src with
  | none => pure { report with skippedMissing := report.skippedMissing + 1 }
  | some tree =>
    if !sourceHasContent tree then
      pure { report with skippedEmpty := report.skippedEmpty + 1 }
    else if item.dst.isSome then
      pure { report with skippedExistingTarget := report.skippedExistingTarget + 1 }
    else do
      ensureTargetParent
      within MigrationItem.atDst (copyItemNoOverwrite tree)
      within MigrationItem.atSrc removeItem
      pure { report with moved := report.moved + 1 }

def migrateItems : List ItemName → LegacyRuntimeMigrationReport →
    Program Home LegacyRuntimeMigrationReport
  | [], report => pure report
  | name :: rest, report => do
      let next ← within (atItem name) (migrateItem report)
      migrateItems rest next

def lockMigration : Program Home Unit := write id

def migrateLegacyRuntimeIfNeeded : Program Home LegacyRuntimeMigrationReport := do
  let home ← look
  if !migrationItems.any fun name => (home name).src.isSome then
    pure LegacyRuntimeMigrationReport.empty
  else do
    lockMigration
    migrateItems migrationItems LegacyRuntimeMigrationReport.empty

def attempt (home : Home) (fates : List Fate) (next : Home) : Prop :=
  next = (migrateLegacyRuntimeIfNeeded home fates).store

/-! What a run does to an item. -/

def migrated (item : MigrationItem) : MigrationItem :=
  match item.src with
  | none => item
  | some tree =>
    if sourceHasContent tree && item.dst.isNone then ⟨none, some tree⟩ else item

def Passing (before item : MigrationItem) : Prop :=
  item = before ∨ (before.dst = none ∧
    (item.src = before.src ∨ ∃ tree, before.src = some tree ∧ item.dst = some tree))

theorem passing_migrated : Passing item (migrated item) := by
  unfold migrated
  cases there : item.src with
  | none => exact .inl rfl
  | some tree =>
    simp only
    split_ifs with moves
    · simp only [Bool.and_eq_true, Option.isNone_iff_eq_none] at moves
      exact .inr ⟨moves.2, .inr ⟨tree, there, rfl⟩⟩
    · exact .inl rfl

variable {report : LegacyRuntimeMigrationReport}

theorem moveItem_triple (wellFormed : tree.WellFormed) (source : before.src = some tree)
    (free : before.dst = none) : Triple (fun item => item = before)
      (do ensureTargetParent
          within MigrationItem.atDst (copyItemNoOverwrite tree)
          within MigrationItem.atSrc removeItem
          pure { report with moved := report.moved + 1 })
      (fun _ item => item = ⟨none, some tree⟩) (Passing before) := by
  have copied := @Triple.within _ _ _ MigrationItem.atDst before _ _ _ _
    (copyItemNoOverwrite_triple wellFormed)
  have removed := @Triple.within _ _ _ MigrationItem.atSrc ⟨some tree, some tree⟩ _ _ _ _
    (@removeItem_triple tree)
  have copies : ∀ item, MigrationItem.atDst.Holds before Unknown item → Passing before item := by
    rintro item ⟨slot, rfl, _⟩
    exact .inr ⟨free, .inl rfl⟩
  have removes : ∀ item, MigrationItem.atSrc.Holds ⟨some tree, some tree⟩ Unknown item →
      Passing before item := by
    rintro item ⟨slot, rfl, _⟩
    exact .inr ⟨free, .inr ⟨tree, source, rfl⟩⟩
  have parent : Triple (fun item => item = before) ensureTargetParent (fun _ item => item = before)
      (Passing before) := Triple.write (fun _ same => .inl same) fun _ same => same
  refine bind parent fun _ =>
    bind (relax (weaken copied ?_ fun _ _ after => after) copies) fun _ =>
    bind (relax (weaken removed ?_ fun _ _ after => after) removes) fun _ =>
    ok ?_
  · rintro item rfl
    refine ⟨none, ?_, rfl⟩
    rw [← free]
    rfl
  · rintro item ⟨slot, rfl, rfl⟩
    exact ⟨some tree, by rw [← source]; rfl, rfl⟩
  · rintro item ⟨slot, rfl, rfl⟩
    rfl

theorem migrateItem_triple {before : MigrationItem} {report : LegacyRuntimeMigrationReport}
    (wellFormed : ∀ tree, before.src = some tree → before.dst = none → tree.WellFormed) :
    Triple (fun item => item = before) (migrateItem report) (fun _ item => item = migrated before)
      (Passing before) := by
  apply Triple.look_known
  cases source : before.src with
  | none =>
    refine ok fun item same => ?_
    rw [same, migrated, source]
  | some tree =>
    simp only
    split_ifs with blank taken
    · refine ok fun item same => ?_
      have empty : sourceHasContent tree = false := by simpa using blank
      simp [same, migrated, source, empty]
    · refine ok fun item same => ?_
      have occupied : before.dst.isNone = false := by simpa using taken
      simp [same, migrated, source, occupied]
    · have free : before.dst = none := by simpa using taken
      have content : sourceHasContent tree = true := by simpa using blank
      have moved : migrated before = ⟨none, some tree⟩ := by
        simp [migrated, source, free, content]
      rw [moved]
      exact moveItem_triple (wellFormed tree source free) source free

section

variable {home : Home}

theorem migrateItems_triple {report : LegacyRuntimeMigrationReport}
    (nodup : names.Nodup)
    (wellFormed : ∀ name tree, (home name).src = some tree → (home name).dst = none →
      tree.WellFormed) {now : Home} (waiting : ∀ name ∈ names, now name = home name)
    (passed : ∀ name ∉ names, now name = migrated (home name)) :
    Triple (fun store => store = now) (migrateItems names report)
      (fun _ store => ∀ name, store name = migrated (home name))
      (fun store => ∀ name, Passing (home name) (store name)) := by
  induction names generalizing now report with
  | nil =>
    refine ok fun store same name => ?_
    rw [same]
    exact passed name (by simp)
  | cons name rest ih =>
    obtain ⟨fresh, restNodup⟩ := nodup_cons.mp nodup
    have here : now name = home name := waiting name mem_cons_self
    have item := @Triple.within _ _ _ (atItem name) now _ _ _ _
      (@migrateItem_triple (home name) report (wellFormed name))
    have others : ∀ other, other ≠ name → Passing (home other) (now other) := by
      intro other different
      by_cases later : other ∈ rest
      · exact .inl (waiting other (mem_cons_of_mem _ later))
      · rw [passed other (by simp [different, later])]
        exact passing_migrated
    refine bind (relax (weaken item ?_ fun _ _ after => after) ?_) fun next => ?_
    · rintro store rfl
      exact ⟨home name, by rw [← here]; exact (Function.update_eq_self name store).symm, rfl⟩
    · rintro store ⟨part, rfl, passing⟩ other
      by_cases same : other = name
      · subst same
        simpa [atItem] using passing
      · simpa [atItem, same] using others other same
    · have following := @ih next restNodup (Function.update now name (migrated (home name))) ?_ ?_
      · refine weaken following ?_ fun _ _ after => after
        rintro store ⟨part, rfl, rfl⟩
        rfl
      · intro other later
        have different : other ≠ name := fun same => fresh (same ▸ later)
        rw [Function.update_of_ne different]
        exact waiting other (mem_cons_of_mem _ later)
      · intro other absent
        by_cases same : other = name
        · subst same
          simp
        · rw [Function.update_of_ne same]
          exact passed other (by simp [same, absent])

theorem migrateLegacyRuntimeIfNeeded_triple
    (wellFormed : ∀ name tree, (home name).src = some tree → (home name).dst = none →
      tree.WellFormed) :
    Triple (fun store => store = home) migrateLegacyRuntimeIfNeeded
      (fun _ store => ∀ name, store name = migrated (home name))
      (fun store => ∀ name, Passing (home name) (store name)) := by
  apply Triple.look_known
  split_ifs with missing
  · refine ok fun store same name => ?_
    have gone : (home name).src = none := by
      simp only [Bool.not_eq_true', any_eq_false] at missing
      simpa using missing name mem_migrationItems
    rw [same, migrated, gone]
  · have locked : Triple (fun store => store = home) lockMigration (fun _ store => store = home)
        (fun store => ∀ name, Passing (home name) (store name)) :=
      Triple.write (fun _ same _ => .inl (by rw [same])) fun _ same => same
    refine bind locked fun _ => migrateItems_triple (by decide) wellFormed (fun _ _ => rfl) ?_
    exact fun name absent => absurd mem_migrationItems absent

end

def Legacy (first : Home) : Prop := ∀ name tree, (first name).src = some tree → tree.WellFormed

def Intact (first now : MigrationItem) : Prop :=
  (first.dst ≠ none → now = first) ∧
    (now.src = first.src ∨ ∃ tree, first.src = some tree ∧ now.dst = some tree)

theorem Intact.pass {first now next : MigrationItem} (intact : Intact first now)
    (passing : Passing now next) : Intact first next := by
  rcases passing with same | ⟨free, whole⟩
  · rw [same]
    exact intact
  · refine ⟨fun taken => absurd free ?_, ?_⟩
    · rw [intact.1 taken]
      exact taken
    · have source : now.src = first.src := by
        rcases intact.2 with same | ⟨tree, _, there⟩
        · exact same
        · rw [free] at there
          cases there
      rw [source] at whole
      exact whole

theorem Intact.wellFormed (intact : Intact first now)
    (legacy : ∀ tree, first.src = some tree → tree.WellFormed) (source : now.src = some tree)
    (free : now.dst = none) : tree.WellFormed := by
  rcases intact.2 with same | ⟨other, _, there⟩
  · exact legacy tree (same ▸ source)
  · rw [free] at there
    cases there

theorem attempt_passes {first home next : Home} (legacy : Legacy first)
    (intact : ∀ name, Intact (first name) (home name)) (ran : attempt home fates next) :
    ∀ name, Passing (home name) (next name) := by
  have wellFormed : ∀ name tree, (home name).src = some tree → (home name).dst = none →
      tree.WellFormed := fun name tree => (intact name).wellFormed (legacy name)
  rw [ran]
  exact Triple.ends (weaken (migrateLegacyRuntimeIfNeeded_triple wellFormed)
    (fun _ same => same) fun _ _ after name => by rw [after]; exact passing_migrated) fates rfl

theorem reachable_intact {first home : Home} (legacy : Legacy first)
    (reached : Trace attempt first runs home) : ∀ name, Intact (first name) (home name) := by
  induction reached with
  | nil => exact fun name => ⟨fun _ => rfl, .inl rfl⟩
  | snoc _ ran ih => exact fun name => (ih name).pass (attempt_passes legacy ih ran name)

def Complete (first home : Home) : Prop :=
  ∀ name tree, (first name).src = some tree → sourceHasContent tree = true →
    (first name).dst = none → (home name).dst = some tree

def HalfCopied (first home : Home) : Prop :=
  ∃ name tree piece, (first name).src = some tree ∧ sourceHasContent tree = true ∧
    (first name).dst = none ∧ (home name).dst = some piece ∧ piece ≠ tree

theorem completed_run {first home last : Home} (legacy : Legacy first)
    (intact : ∀ name, Intact (first name) (home name))
    (ran : migrateLegacyRuntimeIfNeeded home fates = .value report last rest) :
    ∀ name, last name = migrated (home name) := by
  have wellFormed : ∀ name tree, (home name).src = some tree → (home name).dst = none →
      tree.WellFormed := fun name tree => (intact name).wellFormed (legacy name)
  have ends := migrateLegacyRuntimeIfNeeded_triple wellFormed home fates rfl
  rw [ran] at ends
  exact ends

/-- In every state inside and after runs, what stood at a new place is as it was and each legacy item is
whole at its old or its new place.  A run that succeeds leaves every item whole at its new place exactly
when it did not begin on a half-copied one. -/
theorem migration_completes_iff_not_half_copied {first home : Home} (legacy : Legacy first)
    {runs : List (List Fate)} (reached : Trace attempt first runs home) :
    (∀ name, (first name).dst ≠ none → (home name).dst = (first name).dst) ∧
    (∀ name tree, (first name).src = some tree →
      (home name).src = some tree ∨ (home name).dst = some tree) ∧
    ∀ fates report last rest, migrateLegacyRuntimeIfNeeded home fates = .value report last rest →
      (Complete first last ↔ ¬ HalfCopied first home) := by
  have intact := reachable_intact legacy reached
  have whole : ∀ name tree, (first name).src = some tree →
      (home name).src = some tree ∨ (home name).dst = some tree := by
    intro name tree source
    rcases (intact name).2 with same | ⟨other, same, there⟩
    · exact .inl (same.trans source)
    · rw [source, Option.some.injEq] at same
      exact .inr (same ▸ there)
  refine ⟨fun name taken => by rw [(intact name).1 taken], whole, ?_⟩
  intro fates report last rest ran
  have after := completed_run legacy intact ran
  constructor
  · rintro complete ⟨name, tree, piece, source, content, free, there, different⟩
    have old : (home name).src = some tree := by
      refine (whole name tree source).resolve_right fun new => different ?_
      rw [there, Option.some.injEq] at new
      exact new
    have stays : migrated (home name) = home name := by simp [migrated, old, there]
    have new := complete name tree source content free
    rw [after, stays, there, Option.some.injEq] at new
    exact different new
  · intro clean name tree source content free
    rw [after]
    cases there : (home name).dst with
    | none =>
      have old : (home name).src = some tree :=
        (whole name tree source).resolve_right (by simp [there])
      simp [migrated, old, there, content]
    | some piece =>
      have same : piece = tree := by
        by_contra different
        exact clean ⟨name, tree, piece, source, content, free, there, different⟩
      unfold migrated
      split
      · rw [there, same]
      · simp [there, same]

def sampleHome : Home
  | .mcpJson => ⟨some (.file [123, 125]), none⟩
  | _ => ⟨none, none⟩

def sampleSkills : Home
  | .skills => ⟨some (.dir [("SKILL.md", .file [35])]), none⟩
  | _ => ⟨none, none⟩

theorem sampleSkills_legacy : Legacy sampleSkills := by
  intro name tree source
  cases name with
  | skills =>
    cases source
    refine WellFormed.dir _ (by decide) fun entry member => ?_
    rw [mem_singleton.mp member]
    exact WellFormed.file _
  | mcpJson | acnMd | agentHome => cases source

/-- A directory copy that fails and is cleaned up does not keep the next run from completing. -/
theorem cleaned_up_copy_is_redone : ∃ home report last rest,
    Trace attempt sampleSkills [[.done, .done, .done, .done, .failed, .done, .done]] home ∧
    (home .skills).dst = none ∧
    migrateLegacyRuntimeIfNeeded home (replicate 9 .done) = .value report last rest ∧
    Complete sampleSkills last := by
  have reached := @Trace.single _ _ attempt sampleSkills
    [.done, .done, .done, .done, .failed, .done, .done] _ rfl
  have spec := migration_completes_iff_not_half_copied sampleSkills_legacy reached
  refine ⟨_, _, _, _, reached, rfl, rfl, (spec.2.2 (replicate 9 .done) _ _ _ rfl).mpr ?_⟩
  rintro ⟨name, tree, piece, source, _, _, there, _⟩
  cases name with
  | skills => cases there
  | mcpJson | acnMd | agentHome => cases source

/-- A file copy stopped after the file was created: the next run succeeds and leaves it empty. -/
theorem half_copied_file_is_kept : ∃ home report last rest,
    Trace attempt sampleHome [[.done, .done, .done]] home ∧
    migrateLegacyRuntimeIfNeeded home [.done] = .value report last rest ∧
    (sampleHome .mcpJson).src = some (.file [123, 125]) ∧ (sampleHome .mcpJson).dst = none ∧
    (last .mcpJson).dst = some (.file []) ∧ ¬ Complete sampleHome last := by
  refine ⟨_, _, _, _, @Trace.single _ _ attempt sampleHome [.done, .done, .done] _ rfl, rfl, rfl, rfl,
    rfl, fun complete => ?_⟩
  have whole := complete .mcpJson (.file [123, 125]) rfl rfl rfl
  cases whole

end AgentClaimNetwork.Storage
