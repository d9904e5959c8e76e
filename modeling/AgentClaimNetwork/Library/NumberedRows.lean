import Mathlib.Data.Multiset.Filter

/-!
Lists whose items carry their own position, and tables, which are bags of such items.
-/

namespace AgentClaimNetwork.Library

/-- The items are numbered from `start` on. -/
def Numbered {Item : Type*} (number : Item → Nat) : Nat → List Item → Prop
  | _, [] => True
  | start, item :: rest => number item = start ∧ Numbered number (start + 1) rest

namespace Numbered

variable {Item : Type*} {number : Item → Nat} {start bound : Nat} {items : List Item}

section

variable (numbered : Numbered number start items)
include numbered

theorem append (after : Numbered number (start + items.length) more) :
    Numbered number start (items ++ more) := by
  induction items generalizing start with
  | nil => exact after
  | cons first rest ih =>
    refine ⟨numbered.1, ih numbered.2 ?_⟩
    rw [List.length_cons] at after
    rwa [Nat.add_right_comm, Nat.add_assoc]

theorem drop (count : Nat) : Numbered number (start + count) (items.drop count) := by
  induction count generalizing start items with
  | zero => exact numbered
  | succ count ih =>
    cases items with
    | nil => trivial
    | cons first rest =>
      have later := ih numbered.2
      rwa [Nat.add_right_comm, Nat.add_assoc] at later

theorem filter_ge :
    (items.filter fun item => bound ≤ number item) = items.drop (bound - start) := by
  induction items generalizing start with
  | nil => simp
  | cons first rest ih =>
    have later := ih numbered.2
    by_cases below : start < bound
    · have succ : bound - start = bound - (start + 1) + 1 := by omega
      rw [List.filter_cons_of_neg (by simpa [numbered.1] using below), later, succ,
        List.drop_succ_cons]
    · have none : bound - start = 0 := by omega
      have gone : bound - (start + 1) = 0 := by omega
      rw [List.filter_cons_of_pos (by simpa [numbered.1] using below), later, none, gone]
      simp

end

end Numbered

/-- `INSERT … ON CONFLICT DO UPDATE` on a table with a key. -/
def upsertRow {Row : Type*} (key : Row → Nat) (table : Multiset Row) (row : Row) : Multiset Row :=
  row ::ₘ table.filter fun other => key other ≠ key row

variable {Row : Type*} {table : Multiset Row} {start : Nat}

theorem foldl_upsertRow (behind : ∀ row ∈ table, key row < start)
    (numbered : Numbered key start rows) : rows.foldl (upsertRow key) table = table + ↑rows := by
  induction rows generalizing table start with
  | nil => simp
  | cons row rest ih =>
    have unused : table.filter (fun other => key other ≠ key row) = table := by
      apply Multiset.filter_eq_self.mpr
      intro other member same
      have below := behind other member
      rw [same, numbered.1] at below
      exact Nat.lt_irrefl _ below
    rw [List.foldl_cons, upsertRow, unused, @ih (row ::ₘ table) (start + 1) ?_ numbered.2]
    · simp [← Multiset.cons_coe]
    · intro other member
      rcases Multiset.mem_cons.mp member with same | old
      · rw [same, numbered.1]
        exact Nat.lt_succ_self _
      · exact Nat.lt_succ_of_lt (behind other old)

end AgentClaimNetwork.Library
