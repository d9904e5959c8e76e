import Mathlib.Data.List.Basic

/-!
The first occurrence of a pattern in a text, and how often it occurs.
-/

namespace AgentClaimNetwork.Library.TextSearch

open List

variable {Character : Type*} [BEq Character] [LawfulBEq Character]

def splitFirst (pattern : List Character) : List Character → Option (List Character × List Character)
  | [] => if pattern.isEmpty then some ([], []) else none
  | first :: rest =>
    if pattern.isPrefixOf (first :: rest) then
      some ([], (first :: rest).drop pattern.length)
    else (splitFirst pattern rest).map fun parts => (first :: parts.1, parts.2)

def occurrences (pattern : List Character) : List Character → Nat
  | [] => if pattern.isEmpty then 1 else 0
  | first :: rest =>
    (if pattern.isPrefixOf (first :: rest) then 1 else 0) + occurrences pattern rest

theorem splitFirst_sound {pattern text before after : List Character}
    (found : splitFirst pattern text = some (before, after)) :
    text = before ++ pattern ++ after := by
  induction text generalizing before with
  | nil =>
    unfold splitFirst at found
    split_ifs at found with empty
    cases found
    rw [isEmpty_iff.mp empty]
    rfl
  | cons first rest ih =>
    unfold splitFirst at found
    split_ifs at found with starts
    · cases found
      rw [nil_append]
      exact prefix_iff_eq_append.mp (List.isPrefixOf_iff_prefix.mp starts) |>.symm
    · obtain ⟨⟨front, back⟩, inner, same⟩ := Option.map_eq_some_iff.mp found
      cases same
      rw [ih inner]
      rfl

theorem splitFirst_complete (pattern before rest : List Character) : ∃ front back,
    splitFirst pattern (before ++ pattern ++ rest) = some (front, back) ∧
      front.length ≤ before.length := by
  induction before with
  | nil =>
    cases shape : pattern ++ rest with
    | nil =>
      obtain ⟨rfl, rfl⟩ := append_eq_nil_iff.mp shape
      exact ⟨[], [], rfl, Nat.le_refl 0⟩
    | cons first others =>
      have starts : pattern.isPrefixOf (first :: others) = true :=
        isPrefixOf_iff_prefix.mpr ⟨rest, shape⟩
      refine ⟨[], (first :: others).drop pattern.length, ?_, Nat.le_refl 0⟩
      rw [nil_append, shape, splitFirst, if_pos starts]
  | cons first before ih =>
    obtain ⟨front, back, found, early⟩ := ih
    rw [cons_append, cons_append, splitFirst, found]
    split_ifs
    · exact ⟨_, _, rfl, Nat.zero_le _⟩
    · exact ⟨_, _, rfl, Nat.succ_le_succ early⟩

theorem splitFirst_front {pattern : List Character} (rest : List Character) :
    splitFirst pattern (pattern ++ rest) = some ([], rest) := by
  cases shape : pattern ++ rest with
  | nil =>
    obtain ⟨rfl, rfl⟩ := append_eq_nil_iff.mp shape
    rfl
  | cons first others =>
    have starts : pattern.isPrefixOf (first :: others) = true :=
      isPrefixOf_iff_prefix.mpr ⟨rest, shape⟩
    rw [splitFirst, if_pos starts, ← shape, drop_left]

variable {mark : Character} {pattern : List Character}

theorem not_prefix_of_ne {first : Character} (different : first ≠ mark) (rest : List Character) :
    (mark :: pattern).isPrefixOf (first :: rest) = false := by
  rw [isPrefixOf_cons_cons]
  simp [Ne.symm different]

theorem splitFirst_skip {before : List Character} (free : ∀ character ∈ before, character ≠ mark)
    (rest : List Character) : splitFirst (mark :: pattern) (before ++ rest) =
      (splitFirst (mark :: pattern) rest).map fun parts => (before ++ parts.1, parts.2) := by
  induction before with
  | nil => simp
  | cons first others ih =>
    have starts := @not_prefix_of_ne _ _ _ mark pattern first (free first mem_cons_self)
      (others ++ rest)
    rw [cons_append, splitFirst, if_neg (by simp [starts]),
      ih fun other member => free other (mem_cons_of_mem _ member), Option.map_map]
    rfl

theorem occurrences_skip {before : List Character} (free : ∀ character ∈ before, character ≠ mark)
    (rest : List Character) :
    occurrences (mark :: pattern) (before ++ rest) = occurrences (mark :: pattern) rest := by
  induction before with
  | nil => rfl
  | cons first others ih =>
    have starts := @not_prefix_of_ne _ _ _ mark pattern first (free first mem_cons_self)
      (others ++ rest)
    rw [cons_append, occurrences, if_neg (by simp [starts]), Nat.zero_add,
      ih fun other member => free other (mem_cons_of_mem _ member)]

theorem splitFirst_other {next other : Character} (different : other ≠ next)
    (rest : List Character) : splitFirst (mark :: next :: pattern) (mark :: other :: rest) =
      (splitFirst (mark :: next :: pattern) (other :: rest)).map
        fun parts => (mark :: parts.1, parts.2) := by
  have starts : (mark :: next :: pattern).isPrefixOf (mark :: other :: rest) = false := by
    rw [isPrefixOf_cons_cons, not_prefix_of_ne different, Bool.and_false]
  rw [splitFirst, if_neg (by simp [starts])]

theorem occurrences_other {next other : Character} (different : other ≠ next)
    (rest : List Character) : occurrences (mark :: next :: pattern) (mark :: other :: rest) =
      occurrences (mark :: next :: pattern) (other :: rest) := by
  have starts : (mark :: next :: pattern).isPrefixOf (mark :: other :: rest) = false := by
    rw [isPrefixOf_cons_cons, not_prefix_of_ne different, Bool.and_false]
  rw [occurrences, if_neg (by simp [starts]), Nat.zero_add]

end AgentClaimNetwork.Library.TextSearch
