import AgentClaimNetwork.Library.DurableFocus

/-!
The recursive copy and delete of `src/upstream_migration.rs` at one path.  Every file-system call
can fail or be the last one; a file is copied byte by byte.
-/

namespace AgentClaimNetwork.Storage

open Library Library.Durable Library.Durable.Program List
open Triple (any bind ok weaken)

inductive Tree
  | file (content : List UInt8)
  | dir (entries : List (String × Tree))

namespace Tree

abbrev Slot := Option Tree

def entries : Slot → List (String × Tree)
  | some (.dir entries) => entries
  | _ => []

theorem entries_dir (listed : List (String × Tree)) : entries (some (.dir listed)) = listed := rfl

def appendByte (byte : UInt8) : Tree → Tree
  | .file content => .file (content ++ [byte])
  | .dir entries => .dir entries

def child (name : String) : Focus Slot Slot where
  view slot := ((entries slot).find? fun entry => entry.1 = name).map Prod.snd
  put part slot := some (.dir
    (((entries slot).filter fun entry => entry.1 ≠ name) ++ part.toList.map fun tree => (name, tree)))
  view_put part slot := by
    have absent : ((entries slot).filter fun entry => entry.1 ≠ name).find?
        (fun entry => entry.1 = name) = none := by
      simp [List.find?_eq_none]
    rw [entries_dir, List.find?_append, absent, Option.none_or]
    cases part <;> simp
  put_put part other slot := by
    rw [entries_dir]
    cases other <;> simp [filter_append, filter_filter]

/-- `remove_dir_all` and `remove_file`, on what was listed. -/
def remove : Tree → Program Slot Unit
  | .file _ => write fun _ => none
  | .dir listed => do
      removeContents listed
      write fun _ => none
where
  removeContents : List (String × Tree) → Program Slot Unit
    | [] => pure ()
    | (name, tree) :: rest => do
        within (child name) (remove tree)
        removeContents rest

def removeItem : Program Slot Unit := do
  let slot ← look
  match slot with
  | none => bail
  | some tree => remove tree

/-- `create_new` and `create_dir` fail where something stands already. -/
def createNew (tree : Tree) : Program Slot Unit := do
  let slot ← look
  require slot.isNone
  write fun _ => some tree

def setPermissions : Program Slot Unit := write id

def copyFileNoOverwrite (content : List UInt8) : Program Slot Unit := do
  createNew (.file [])
  forAll content fun byte => write fun slot => slot.map (appendByte byte)
  setPermissions

def copyDirNoOverwrite (contents : Program Slot Unit) : Program Slot Unit := do
  createNew (.dir [])
  orCleanUp (do contents; setPermissions) removeItem

def copyItemNoOverwrite : Tree → Program Slot Unit
  | .file content => copyFileNoOverwrite content
  | .dir listed => copyDirNoOverwrite (copyDirContents listed)
where
  copyDirContents : List (String × Tree) → Program Slot Unit
    | [] => pure ()
    | (name, tree) :: rest => do
        within (child name) (copyItemNoOverwrite tree)
        copyDirContents rest

inductive WellFormed : Tree → Prop
  | file (content : List UInt8) : WellFormed (.file content)
  | dir (listed : List (String × Tree)) : (listed.map Prod.fst).Nodup →
      (∀ entry ∈ listed, WellFormed entry.2) → WellFormed (.dir listed)

def Unknown (_ : Slot) : Prop := True

theorem createNew_triple :
    Triple (fun slot => slot = none) (createNew tree) (fun _ slot => slot = some tree) Unknown := by
  refine Triple.look_any fun seen => Triple.guard (fun _ _ => trivial) fun _ => ?_
  exact Triple.write (fun _ _ => trivial) fun _ _ => rfl

theorem setPermissions_triple :
    Triple (fun present => present = slot) setPermissions (fun _ present => present = slot) Unknown :=
  Triple.write (fun _ _ => trivial) fun _ same => same

theorem copyFileNoOverwrite_triple :
    Triple (fun slot => slot = none) (copyFileNoOverwrite content)
      (fun _ slot => slot = some (.file content)) Unknown := by
  have copied : Triple (fun slot => slot = some (.file []))
      (forAll content fun byte => write fun slot => slot.map (appendByte byte))
      (fun _ slot => slot = some (.file ([] ++ content))) Unknown := by
    refine @Triple.forAll Slot Unknown UInt8 _
      (fun done slot => slot = some (Tree.file done)) [] content ?_
    intro done byte _
    refine Triple.write (fun _ _ => trivial) fun slot same => ?_
    rw [same]
    rfl
  exact bind createNew_triple fun _ => bind copied fun _ => setPermissions_triple

theorem copyDirContents_triple {done rest : List (String × Tree)}
    (nodup : ((done ++ rest).map Prod.fst).Nodup)
    (each : ∀ entry ∈ rest, Triple (fun slot => slot = none) (copyItemNoOverwrite entry.2)
      (fun _ slot => slot = some entry.2) Unknown) :
    Triple (fun slot => slot = some (.dir done)) (copyItemNoOverwrite.copyDirContents rest)
      (fun _ slot => slot = some (.dir (done ++ rest))) Unknown := by
  induction rest generalizing done with
  | nil =>
    rw [append_nil]
    exact ok fun _ same => same
  | cons entry rest ih =>
    obtain ⟨name, tree⟩ := entry
    have puts : ∀ part, (child name).put part (some (.dir done)) =
        some (.dir (done ++ part.toList.map fun tree => (name, tree))) := by
      have unused : done.filter (fun other => other.1 ≠ name) = done := by
        apply filter_eq_self.mpr
        intro other member
        simp only [map_append, map_cons, nodup_append] at nodup
        simpa using nodup.2.2 other.1 (mem_map_of_mem member) name (by simp)
      intro part
      simp only [child, entries_dir, unused]
    have shifted : done ++ (name, tree) :: rest = (done ++ [(name, tree)]) ++ rest := by simp
    have copied := @Triple.within _ _ _ (child name) (some (.dir done)) _ _ _ _
      (each (name, tree) mem_cons_self)
    rw [shifted] at nodup ⊢
    refine bind (Triple.relax (weaken copied ?_ fun _ _ after => after) ?_)
      fun _ => weaken (ih nodup fun other member => each other (mem_cons_of_mem _ member))
        ?_ fun _ _ after => after
    · rintro slot rfl
      exact ⟨none, by simp [puts], rfl⟩
    · exact fun _ _ => trivial
    · rintro slot ⟨part, rfl, rfl⟩
      simp [puts]

theorem copyItemNoOverwrite_triple (wellFormed : tree.WellFormed) :
    Triple (fun slot => slot = none) (copyItemNoOverwrite tree) (fun _ slot => slot = some tree)
      Unknown := by
  induction wellFormed with
  | file content => exact copyFileNoOverwrite_triple
  | dir listed nodup _ ih =>
    have contents := @copyDirContents_triple [] listed nodup ih
    refine bind createNew_triple fun _ => Triple.orCleanUp ?_ any
    exact bind contents fun _ => setPermissions_triple

theorem remove_triple :
    Triple (fun _ => True) (remove tree) (fun _ slot => slot = none) Unknown := by
  cases tree with
  | file content => exact Triple.write (fun _ _ => trivial) fun _ _ => rfl
  | dir listed =>
    exact bind any fun _ => Triple.write (fun _ _ => trivial) fun _ _ => rfl

theorem removeItem_triple {tree : Tree} :
    Triple (fun slot => slot = some tree) removeItem (fun _ slot => slot = none) Unknown := by
  apply Triple.look
  intro seen
  cases seen with
  | none => exact Triple.bail fun _ _ => trivial
  | some other => exact weaken remove_triple (fun _ _ => trivial) fun _ _ after => after

end Tree

end AgentClaimNetwork.Storage
