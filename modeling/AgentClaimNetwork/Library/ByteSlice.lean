import Mathlib.Data.List.Basic
import Mathlib.Algebra.GroupWithZero.Nat


/-!
Byte offsets into a UTF-8 text, and the slices that exist only between characters.
-/

namespace AgentClaimNetwork.Library.ByteSlice

open List

variable {front back text : List Char}

def byteLen (text : List Char) : Nat := (text.map Char.utf8Size).sum

/-- `&text[count..]`, which panics (`none`) inside a character. -/
def dropBytes : List Char → Nat → Option (List Char)
  | text, 0 => some text
  | [], _ + 1 => none
  | character :: rest, count + 1 =>
    if character.utf8Size ≤ count + 1 then dropBytes rest (count + 1 - character.utf8Size) else none

/-- `text.char_indices()`, from an offset on. -/
def charIndices (offset : Nat) : List Char → List (Nat × Char)
  | [] => []
  | character :: rest => (offset, character) :: charIndices (offset + character.utf8Size) rest

@[simp] theorem byteLen_nil : byteLen [] = 0 := rfl

@[simp] theorem byteLen_cons : byteLen (character :: text) = character.utf8Size + byteLen text :=
  rfl

@[simp] theorem byteLen_append : byteLen (front ++ back) = byteLen front + byteLen back := by
  simp [byteLen]

theorem dropBytes_append : dropBytes (front ++ back) (byteLen front) = some back := by
  induction front with
  | nil => cases back <;> rfl
  | cons character front ih =>
    have positive := character.utf8Size_pos
    obtain ⟨count, isCount⟩ : ∃ count, byteLen (character :: front) = count + 1 :=
      Nat.exists_eq_add_one.mpr (by simp only [byteLen_cons]; omega)
    rw [isCount, cons_append, dropBytes, ← isCount, byteLen_cons, if_pos (Nat.le_add_right _ _),
      Nat.add_sub_cancel_left]
    exact ih

theorem mem_charIndices : offset ∈ (charIndices base text).map Prod.fst ↔
    ∃ front back, text = front ++ back ∧ back ≠ [] ∧ offset = base + byteLen front := by
  induction text generalizing base with
  | nil => simp +contextual [charIndices]
  | cons character rest ih =>
    rw [charIndices, map_cons, mem_cons, ih]
    constructor
    · rintro (rfl | ⟨front, back, rfl, later, rfl⟩)
      · exact ⟨[], character :: rest, rfl, by simp, rfl⟩
      · exact ⟨character :: front, back, rfl, later, by simp [Nat.add_assoc]⟩
    · rintro ⟨front, back, split, later, rfl⟩
      cases front with
      | nil => exact .inl rfl
      | cons first front =>
        obtain ⟨rfl, rfl⟩ := cons.inj split
        exact .inr ⟨front, back, rfl, later, by simp [Nat.add_assoc]⟩

theorem charIndices_sorted : ((charIndices base text).map Prod.fst).Pairwise (· < ·) := by
  induction text generalizing base with
  | nil => exact Pairwise.nil
  | cons character rest ih =>
    refine pairwise_cons.mpr ⟨fun offset later => ?_, ih⟩
    obtain ⟨front, _, _, _, rfl⟩ := mem_charIndices.mp later
    have positive := character.utf8Size_pos
    omega

end AgentClaimNetwork.Library.ByteSlice
