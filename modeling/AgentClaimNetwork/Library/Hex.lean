import AgentClaimNetwork.Library.LineLog
import Mathlib.Tactic.IntervalCases

/-!
Hexadecimal text: written in lower case, read in either.
-/

namespace AgentClaimNetwork.Library.Hex

def digit (value : Nat) : Char :=
  if value < 10 then Char.ofNat (48 + value) else Char.ofNat (87 + value)

def value (character : Char) : Option Nat :=
  let code := character.toNat
  if 48 ≤ code ∧ code ≤ 57 then some (code - 48)
  else if 97 ≤ code ∧ code ≤ 102 then some (code - 87)
  else if 65 ≤ code ∧ code ≤ 70 then some (code - 55)
  else none

def encode (bytes : List UInt8) : List Char :=
  bytes.flatMap fun byte => [digit (byte.toNat / 16), digit (byte.toNat % 16)]

def decode : List Char → Option (List UInt8)
  | [] => some []
  | [_] => none
  | high :: low :: rest => do
      let upper ← value high
      let lower ← value low
      let bytes ← decode rest
      some (UInt8.ofNat (16 * upper + lower) :: bytes)

theorem value_digit (small : nibble < 16) : value (digit nibble) = some nibble := by
  interval_cases nibble <;> rfl

theorem digit_solid (small : nibble < 16) : LineLog.isWhitespace (digit nibble) = false := by
  interval_cases nibble <;> rfl

theorem decode_encode (bytes : List UInt8) : decode (encode bytes) = some bytes := by
  induction bytes with
  | nil => rfl
  | cons byte rest ih =>
    have bound : byte.toNat < 256 := byte.toNat_lt
    have high : value (digit (byte.toNat / 16)) = some (byte.toNat / 16) :=
      value_digit (by omega)
    have low : value (digit (byte.toNat % 16)) = some (byte.toNat % 16) :=
      value_digit (by omega)
    have whole : 16 * (byte.toNat / 16) + byte.toNat % 16 = byte.toNat := by omega
    change decode (digit (byte.toNat / 16) :: digit (byte.toNat % 16) :: encode rest) = _
    unfold decode
    rw [high, low, ih]
    change some (UInt8.ofNat (16 * (byte.toNat / 16) + byte.toNat % 16) :: rest) = _
    rw [whole, UInt8.ofNat_toNat]

theorem encode_solid : ∀ character ∈ encode bytes,
    LineLog.isWhitespace character = false := by
  intro character member
  obtain ⟨byte, -, inPair⟩ := List.mem_flatMap.mp member
  have bound : byte.toNat < 256 := byte.toNat_lt
  rcases List.mem_cons.mp inPair with rfl | inLast
  · exact digit_solid (by omega)
  · rw [List.mem_singleton.mp inLast]
    exact digit_solid (by omega)

end AgentClaimNetwork.Library.Hex
