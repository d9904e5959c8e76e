import AgentClaimNetwork.Library.Json

/-!
Numbers written in decimal and read back, with the signs and the bounds of machine integers,
and the first separator of a text.
-/

namespace AgentClaimNetwork.Library.Decimal

def parseDigits (text : List Char) : Option Nat :=
  if text ≠ [] ∧ text.all Char.isDigit = true then some (Nat.ofDigitChars 10 text 0) else none

/-- `from_str` of an unsigned integer with the given maximum. -/
def parseUnsigned (greatest : Nat) (text : List Char) : Option Nat :=
  let digits := match text with
    | '+' :: rest => rest
    | _ => text
  (parseDigits digits).filter fun value => value ≤ greatest

/-- `from_str` of a signed integer of the given width less its sign. -/
def parseSigned (width : Nat) : List Char → Option Int
  | '-' :: rest => ((parseDigits rest).filter fun value => value ≤ 2 ^ width).map fun value => -value
  | text => (parseUnsigned (2 ^ width - 1) text).map Int.ofNat

/-- `str::split_once`. -/
def splitOnce (separator : Char) : List Char → Option (List Char × List Char)
  | [] => none
  | character :: rest =>
    if character = separator then some ([], rest)
    else (splitOnce separator rest).map fun parts => (character :: parts.1, parts.2)

theorem parseDigits_toDigits (value : Nat) : parseDigits (Nat.toDigits 10 value) = some value := by
  have digits : (Nat.toDigits 10 value).all Char.isDigit = true := by
    rw [List.all_eq_true]
    exact fun _ member => Nat.isDigit_of_mem_toDigits (by decide) (by decide) member
  rw [parseDigits, if_pos ⟨Nat.toDigits_ne_nil, digits⟩, Nat.ofDigitChars_ten_toDigits]

theorem parseUnsigned_toDigits (small : value ≤ greatest) :
    parseUnsigned greatest (Nat.toDigits 10 value) = some value := by
  obtain ⟨first, rest, shape, digit⟩ := Json.toDigits_head
  have parsed := parseDigits_toDigits value
  have unsigned : first ≠ '+' := by
    rintro rfl
    exact absurd digit (by decide)
  rw [shape] at parsed ⊢
  unfold parseUnsigned
  split
  · rename_i same
    exact absurd (List.cons.inj same).1 unsigned
  · dsimp only
    rw [parsed, Option.filter_some, if_pos (by simpa using small)]

theorem parseSigned_renderNum (low : -2 ^ width ≤ value) (high : value < 2 ^ width) :
    parseSigned width (Json.renderNum value) = some value := by
  cases value with
  | ofNat value =>
    obtain ⟨first, rest, shape, digit⟩ := Json.toDigits_head
    have small : value ≤ 2 ^ width - 1 := by
      have bound : (value : Int) < ((2 ^ width : Nat) : Int) := by
        push_cast
        exact high
      omega
    have parsed := parseUnsigned_toDigits small
    have unsigned : first ≠ '-' := by
      rintro rfl
      exact absurd digit (by decide)
    rw [Json.renderNum]
    rw [shape] at parsed ⊢
    unfold parseSigned
    split
    · rename_i same
      exact absurd (List.cons.inj same).1 unsigned
    · rw [parsed]
      rfl
  | negSucc value =>
    have small : value + 1 ≤ 2 ^ width := by
      have bound : -((2 ^ width : Nat) : Int) ≤ Int.negSucc value := by
        push_cast
        exact low
      omega
    rw [Json.renderNum, parseSigned, parseDigits_toDigits, Option.filter_some,
      if_pos (by simpa using small)]
    rfl

theorem splitOnce_append (absent : separator ∉ before) (rest : List Char) :
    splitOnce separator (before ++ separator :: rest) = some (before, rest) := by
  induction before with
  | nil => simp [splitOnce]
  | cons character before ih =>
    have different : character ≠ separator := fun same => absent (by simp [same])
    rw [List.cons_append, splitOnce, if_neg different,
      ih fun member => absent (by simp [member])]
    rfl

theorem splitOnce_none (absent : separator ∉ text) : splitOnce separator text = none := by
  induction text with
  | nil => rfl
  | cons character rest ih =>
    have different : character ≠ separator := fun same => absent (by simp [same])
    rw [splitOnce, if_neg different, ih fun member => absent (by simp [member])]
    rfl

theorem not_mem_toDigits (other : character.isDigit = false) :
    character ∉ Nat.toDigits 10 value := by
  intro member
  rw [Nat.isDigit_of_mem_toDigits (by decide) (by decide) member] at other
  cases other

theorem not_mem_renderNum (other : character.isDigit = false) (unsigned : character ≠ '-') : character ∉ Json.renderNum value := by
  cases value with
  | ofNat value => exact not_mem_toDigits other
  | negSucc value =>
    rw [Json.renderNum, List.mem_cons]
    rintro (same | member)
    · exact unsigned same
    · exact not_mem_toDigits other member

end AgentClaimNetwork.Library.Decimal
