import Mathlib.Order.Basic

/-!
A log of events, newest first, some of which write a version of a keyed value with a later stamp:
the stamps of a key only rise and no version comes back.
-/

namespace AgentClaimNetwork.Library

open List

def Lawful {Event : Type*} (allowed : List Event → Event → Prop) : List Event → Prop
  | [] => True
  | event :: earlier => allowed earlier event ∧ Lawful allowed earlier

section

variable {Event : Type*} {allowed : List Event → Event → Prop} {log earlier : List Event}
  {event : Event}

theorem Lawful.of_suffix (lawful : Lawful allowed log) (suffix : earlier <:+ log) :
    Lawful allowed earlier := by
  induction log with
  | nil =>
    rw [suffix_nil.mp suffix]
    exact lawful
  | cons newest rest ih =>
    rcases suffix_cons_iff.mp suffix with whole | later
    · rw [whole]
      exact lawful
    · exact ih lawful.2 later

theorem Lawful.allowed_at (lawful : Lawful allowed log) (suffix : event :: earlier <:+ log) :
    allowed earlier event :=
  (lawful.of_suffix suffix).1

theorem exists_suffix_of_mem (member : event ∈ log) : ∃ earlier, event :: earlier <:+ log := by
  obtain ⟨later, earlier, split⟩ := append_of_mem member
  exact ⟨earlier, later, split.symm⟩

theorem suffix_of_cons_suffix (suffix : event :: earlier <:+ log) : earlier <:+ log :=
  (suffix_cons event earlier).trans suffix

theorem moments_ordered (suffix : event :: earlier <:+ log) (another : other :: before <:+ log) :
    (event = other ∧ earlier = before) ∨ event :: earlier <:+ before ∨
      other :: before <:+ earlier := by
  rcases suffix_or_suffix_of_suffix suffix another with inside | inside
  · rcases suffix_cons_iff.mp inside with same | further
    · exact .inl (List.cons.inj same)
    · exact .inr (.inl further)
  · rcases suffix_cons_iff.mp inside with same | further
    · exact .inl ⟨(List.cons.inj same).1.symm, (List.cons.inj same).2.symm⟩
    · exact .inr (.inr further)

end

namespace VersionLog

variable {Event Value Key Stamp : Type*} [DecidableEq Key] [Preorder Stamp]

def latest (written : Event → Option Value) (key : Value → Key) (first : Key → Option Value) :
    List Event → Key → Option Value
  | [], name => first name
  | event :: earlier, name =>
    match written event with
    | some value => if key value = name then some value else latest written key first earlier name
    | none => latest written key first earlier name

variable {written : Event → Option Value} {key : Value → Key} {stamp : Value → Stamp}
  {first : Key → Option Value} {log earlier : List Event} {event : Event} {old value : Value}

@[simp] theorem latest_silent (silent : written event = none) :
    latest written key first (event :: log) = latest written key first log := by
  funext name
  simp [latest, silent]

theorem latest_written (wrote : written event = some value) :
    latest written key first (event :: log) =
      Function.update (latest written key first log) (key value) (some value) := by
  funext name
  by_cases same : name = key value
  · subst same
    simp [latest, wrote]
  · simp [latest, wrote, same, Ne.symm same]

def Rising (written : Event → Option Value) (key : Value → Key) (stamp : Value → Stamp)
    (first : Key → Option Value) (log : List Event) : Prop :=
  ∀ event earlier value, event :: earlier <:+ log → written event = some value →
    ∀ old, latest written key first earlier (key value) = some old → stamp old < stamp value

variable (rising : Rising written key stamp first log)
include rising

theorem Rising.of_suffix (suffix : earlier <:+ log) : Rising written key stamp first earlier :=
  fun event before value inside => rising event before value (inside.trans suffix)

theorem Rising.le (suffix : earlier <:+ log)
    (there : latest written key first earlier name = some old) :
    ∃ now, latest written key first log name = some now ∧ stamp old ≤ stamp now := by
  induction log with
  | nil =>
    rw [suffix_nil.mp suffix] at there
    exact ⟨old, there, le_refl _⟩
  | cons newest rest ih =>
    rcases suffix_cons_iff.mp suffix with whole | further
    · rw [whole] at there
      exact ⟨old, there, le_refl _⟩
    · obtain ⟨now, present, bound⟩ := ih (rising.of_suffix (suffix_cons newest rest)) further
      cases wrote : written newest with
      | none =>
        rw [latest_silent wrote]
        exact ⟨now, present, bound⟩
      | some value =>
        rw [latest_written wrote]
        by_cases same : name = key value
        · subst same
          have later := rising newest rest value (suffix_refl _) wrote now present
          exact ⟨value, by simp, le_trans bound (le_of_lt later)⟩
        · exact ⟨now, by simp [same, present], bound⟩

theorem Rising.written_le (suffix : event :: earlier <:+ log) (wrote : written event = some value) :
    ∃ now, latest written key first log (key value) = some now ∧ stamp value ≤ stamp now := by
  apply rising.le suffix
  rw [latest_written wrote]
  simp

theorem Rising.no_return (suffix : event :: earlier <:+ log) (wrote : written event = some value)
    (there : latest written key first earlier (key value) = some old) :
    latest written key first log (key value) ≠ some old := by
  intro again
  have later := rising event earlier value suffix wrote old there
  obtain ⟨now, present, bound⟩ := rising.written_le suffix wrote
  rw [again, Option.some.injEq] at present
  rw [← present] at bound
  exact lt_irrefl _ (lt_of_lt_of_le later bound)

end VersionLog

end AgentClaimNetwork.Library
