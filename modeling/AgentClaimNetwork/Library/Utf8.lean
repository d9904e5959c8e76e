import Mathlib.Data.List.Basic
import AgentClaimNetwork.Library.Lookup

/-!
UTF-8 as a byte machine.  Every maximal ill-formed piece is marked once, so the strict and the
lossy reading are two views of one decoding.
-/

namespace AgentClaimNetwork.Library.Utf8

open List

variable {code : Nat}

structure Pending where
  owed : Nat
  low : Nat
  high : Nat
  value : Nat

def lead (byte : Nat) : Option Pending :=
  if 0xC2 ≤ byte ∧ byte ≤ 0xDF then some ⟨1, 0x80, 0xBF, byte - 0xC0⟩
  else if byte = 0xE0 then some ⟨2, 0xA0, 0xBF, 0⟩
  else if byte = 0xED then some ⟨2, 0x80, 0x9F, 0xD⟩
  else if 0xE1 ≤ byte ∧ byte ≤ 0xEF then some ⟨2, 0x80, 0xBF, byte - 0xE0⟩
  else if byte = 0xF0 then some ⟨3, 0x90, 0xBF, 0⟩
  else if 0xF1 ≤ byte ∧ byte ≤ 0xF3 then some ⟨3, 0x80, 0xBF, byte - 0xF0⟩
  else if byte = 0xF4 then some ⟨3, 0x80, 0x8F, 4⟩
  else none

def start (byte : UInt8) : List (Option Char) × Option Pending :=
  if byte.toNat < 0x80 then ([some (Char.ofNat byte.toNat)], none)
  else match lead byte.toNat with
    | some pending => ([], some pending)
    | none => ([none], none)

/-- One byte; `none` among the emitted symbols stands for an ill-formed piece. -/
def feed : Option Pending → UInt8 → List (Option Char) × Option Pending
  | none, byte => start byte
  | some pending, byte =>
    if pending.low ≤ byte.toNat ∧ byte.toNat ≤ pending.high then
      let value := pending.value * 64 + (byte.toNat - 0x80)
      if pending.owed = 1 then ([some (Char.ofNat value)], none)
      else ([], some ⟨pending.owed - 1, 0x80, 0xBF, value⟩)
    else
      let next := start byte
      (none :: next.1, next.2)

def decode : Option Pending → List UInt8 → List (Option Char)
  | none, [] => []
  | some _, [] => [none]
  | state, byte :: rest => (feed state byte).1 ++ decode (feed state byte).2 rest

def encode (text : List Char) : List UInt8 := text.flatMap String.utf8EncodeChar

/-- `String::from_utf8_lossy`. -/
def lossy (bytes : List UInt8) : List Char :=
  (decode none bytes).map fun symbol => symbol.getD '\uFFFD'

/-- `str::from_utf8`. -/
def strict (bytes : List UInt8) : Option (List Char) :=
  if (decode none bytes).all Option.isSome then some (lossy bytes) else none

@[simp] theorem decode_cons (state : Option Pending) (byte : UInt8) (rest : List UInt8) :
    decode state (byte :: rest) = (feed state byte).1 ++ decode (feed state byte).2 rest := by
  cases state <;> rfl

theorem toNat_valid (character : Char) :
    character.toNat < 0xD800 ∨ (0xDFFF < character.toNat ∧ character.toNat < 0x110000) :=
  character.valid

section

variable (character : Char) (rest : List UInt8)

theorem encodeChar_cases :
    let code := character.toNat
    (code < 0x80 ∧ String.utf8EncodeChar character = [UInt8.ofNat code]) ∨
    (0x80 ≤ code ∧ code < 0x800 ∧ String.utf8EncodeChar character =
      [UInt8.ofNat (0xC0 + code / 64), UInt8.ofNat (0x80 + code % 64)]) ∨
    (0x800 ≤ code ∧ code < 0x10000 ∧ String.utf8EncodeChar character =
      [UInt8.ofNat (0xE0 + code / 4096), UInt8.ofNat (0x80 + code / 64 % 64),
        UInt8.ofNat (0x80 + code % 64)]) ∨
    (0x10000 ≤ code ∧ String.utf8EncodeChar character =
      [UInt8.ofNat (0xF0 + code / 262144), UInt8.ofNat (0x80 + code / 4096 % 64),
        UInt8.ofNat (0x80 + code / 64 % 64), UInt8.ofNat (0x80 + code % 64)]) := by
  have valid := toNat_valid character
  have same : character.val.toNat = character.toNat := rfl
  simp only [String.utf8EncodeChar, same]
  split_ifs with one two three
  · exact .inl ⟨by omega, rfl⟩
  · refine .inr (.inl ⟨by omega, by omega, ?_⟩)
    rw [Nat.mod_eq_of_lt (by omega : character.toNat / 64 < 0x20), Nat.add_comm _ 0xC0,
      Nat.add_comm _ 0x80]
  · refine .inr (.inr (.inl ⟨by omega, by omega, ?_⟩))
    rw [Nat.mod_eq_of_lt (by omega : character.toNat / 4096 < 0x10), Nat.add_comm _ 0xE0,
      Nat.add_comm (character.toNat / 64 % 64) 0x80, Nat.add_comm (character.toNat % 64) 0x80]
  · refine .inr (.inr (.inr ⟨by omega, ?_⟩))
    rw [Nat.mod_eq_of_lt (by omega : character.toNat / 262144 < 0x08), Nat.add_comm _ 0xF0,
      Nat.add_comm (character.toNat / 4096 % 64) 0x80,
      Nat.add_comm (character.toNat / 64 % 64) 0x80, Nat.add_comm (character.toNat % 64) 0x80]

end

theorem toNat_byte (small : byte < 256) : (UInt8.ofNat byte).toNat = byte := by
  rw [UInt8.toNat_ofNat', Nat.mod_eq_of_lt small]

theorem feed_ascii (small : code < 0x80) :
    feed none (UInt8.ofNat code) = ([some (Char.ofNat code)], none) := by
  rw [feed, start, toNat_byte (by omega), if_pos small]

theorem feed_lead (small : byte < 256) (large : 0x80 ≤ byte) (leads : lead byte = some pending) :
    feed none (UInt8.ofNat byte) = ([], some pending) := by
  rw [feed, start, toNat_byte small, if_neg (by omega), leads]

theorem feed_more {owed least greatest value part next : Nat}
    (inRange : least ≤ 0x80 + part % 64 ∧ 0x80 + part % 64 ≤ greatest)
    (same : value * 64 + part % 64 = next) :
    feed (some ⟨owed + 2, least, greatest, value⟩) (UInt8.ofNat (0x80 + part % 64)) =
      ([], some ⟨owed + 1, 0x80, 0xBF, next⟩) := by
  rw [feed, toNat_byte (by omega), if_pos inRange, if_neg (by simp), Nat.add_sub_cancel_left,
    same]
  rfl

theorem lead_two (low : 0x80 ≤ code) (high : code < 0x800) :
    lead (0xC0 + code / 64) = some ⟨1, 0x80, 0xBF, code / 64⟩ := by
  rw [lead, if_pos (by omega), Nat.add_sub_cancel_left]

theorem lead_three (low : 0x800 ≤ code) (high : code < 0x10000)
    (valid : code < 0xD800 ∨ 0xDFFF < code) :
    ∃ least greatest, lead (0xE0 + code / 4096) = some ⟨2, least, greatest, code / 4096⟩ ∧
      0x80 ≤ least ∧ least ≤ 0x80 + code / 64 % 64 ∧ 0x80 + code / 64 % 64 ≤ greatest := by
  unfold lead
  rw [if_neg (by omega)]
  by_cases first : code / 4096 = 0
  · refine ⟨0xA0, 0xBF, ?_, by omega, by omega, by omega⟩
    rw [if_pos (by omega), first]
  · rw [if_neg (by omega)]
    by_cases surrogate : code / 4096 = 0xD
    · refine ⟨0x80, 0x9F, ?_, by omega, by omega, by omega⟩
      rw [if_pos (by omega), surrogate]
    · refine ⟨0x80, 0xBF, ?_, by omega, by omega, by omega⟩
      rw [if_neg (by omega), if_pos (by omega), Nat.add_sub_cancel_left]

theorem lead_four (low : 0x10000 ≤ code) (high : code < 0x110000) :
    ∃ least greatest, lead (0xF0 + code / 262144) = some ⟨3, least, greatest, code / 262144⟩ ∧
      0x80 ≤ least ∧ least ≤ 0x80 + code / 4096 % 64 ∧ 0x80 + code / 4096 % 64 ≤ greatest := by
  unfold lead
  rw [if_neg (by omega), if_neg (by omega), if_neg (by omega), if_neg (by omega)]
  by_cases first : code / 262144 = 0
  · refine ⟨0x90, 0xBF, ?_, by omega, by omega, by omega⟩
    rw [if_pos (by omega), first]
  · rw [if_neg (by omega)]
    by_cases final : code / 262144 = 4
    · refine ⟨0x80, 0x8F, ?_, by omega, by omega, by omega⟩
      rw [if_neg (by omega), if_pos (by omega), final]
    · refine ⟨0x80, 0xBF, ?_, by omega, by omega, by omega⟩
      rw [if_pos (by omega), Nat.add_sub_cancel_left]

def Waiting (state : Option Pending) (bytes : List UInt8) : Prop :=
  ∃ pending : Pending, 0x80 ≤ pending.low ∧
    ∀ rest, decode state (bytes ++ rest) = decode (some pending) rest

structure Reads (state : Option Pending) (bytes : List UInt8) (character : Char) : Prop where
  whole : ∀ rest, decode state (bytes ++ rest) = some character :: decode none rest
  part : ∀ cut, 0 < cut → cut < bytes.length → Waiting state (bytes.take cut)

section

variable {state : Option Pending} {next : Pending} {byte : UInt8} {bytes : List UInt8}
  {character : Char}

theorem reads_last (fed : feed state byte = ([some character], none)) :
    Reads state [byte] character where
  whole rest := by
    rw [cons_append, nil_append, decode_cons, fed]
    rfl
  part cut positive inside := by
    simp only [length_cons, length_nil] at inside
    omega

theorem Reads.after (fed : feed state byte = ([], some next)) (low : 0x80 ≤ next.low)
    (reads : Reads (some next) bytes character) : Reads state (byte :: bytes) character where
  whole rest := by
    rw [cons_append, decode_cons, fed]
    exact reads.whole rest
  part cut positive inside := by
    obtain ⟨cut, rfl⟩ := Nat.exists_eq_add_one_of_ne_zero (Nat.ne_of_gt positive)
    rw [take_succ_cons]
    by_cases first : cut = 0
    · refine ⟨next, low, fun rest => ?_⟩
      rw [first, take_zero, cons_append, decode_cons, fed]
      rfl
    · rw [length_cons] at inside
      obtain ⟨pending, above, continues⟩ := reads.part cut (by omega) (by omega)
      refine ⟨pending, above, fun rest => ?_⟩
      rw [cons_append, decode_cons, fed]
      exact continues rest

end

theorem reads_one (small : code < 0x80) : Reads none [UInt8.ofNat code] (Char.ofNat code) :=
  reads_last (feed_ascii small)

theorem reads_trailing :
    Reads (some ⟨1, 0x80, 0xBF, code / 64⟩) [UInt8.ofNat (0x80 + code % 64)] (Char.ofNat code) := by
  apply reads_last
  rw [feed, toNat_byte (by omega), if_pos (by dsimp only; omega), if_pos rfl]
  dsimp only
  rw [show code / 64 * 64 + (0x80 + code % 64 - 0x80) = code by omega]

theorem reads_two (low : 0x80 ≤ code) (high : code < 0x800) :
    Reads none [UInt8.ofNat (0xC0 + code / 64), UInt8.ofNat (0x80 + code % 64)]
      (Char.ofNat code) :=
  .after (feed_lead (by omega) (by omega) (lead_two low high)) (Nat.le_refl _) reads_trailing

theorem reads_three (low : 0x800 ≤ code) (high : code < 0x10000)
    (valid : code < 0xD800 ∨ 0xDFFF < code) :
    Reads none [UInt8.ofNat (0xE0 + code / 4096), UInt8.ofNat (0x80 + code / 64 % 64),
      UInt8.ofNat (0x80 + code % 64)] (Char.ofNat code) := by
  obtain ⟨least, greatest, leads, ascii, above, below⟩ := lead_three low high valid
  exact .after (feed_lead (by omega) (by omega) leads) ascii
    (.after (feed_more ⟨above, below⟩ (by omega)) (Nat.le_refl _) reads_trailing)

theorem reads_four (low : 0x10000 ≤ code) (high : code < 0x110000) :
    Reads none [UInt8.ofNat (0xF0 + code / 262144), UInt8.ofNat (0x80 + code / 4096 % 64),
      UInt8.ofNat (0x80 + code / 64 % 64), UInt8.ofNat (0x80 + code % 64)]
      (Char.ofNat code) := by
  obtain ⟨least, greatest, leads, ascii, above, below⟩ := lead_four low high
  have third := @feed_more 1 _ _ _ _ _ ⟨above, below⟩
    (by omega : code / 262144 * 64 + code / 4096 % 64 = code / 4096)
  have second := @feed_more 0 0x80 0xBF _ (code / 64) _ (by omega)
    (by omega : code / 4096 * 64 + code / 64 % 64 = code / 64)
  exact .after (feed_lead (by omega) (by omega) leads) ascii
    (.after third (Nat.le_refl _) (.after second (Nat.le_refl _) reads_trailing))

theorem reads_encodeChar :
    Reads none (String.utf8EncodeChar character) character := by
  have valid := toNat_valid character
  have identity : Char.ofNat character.toNat = character := Char.ofNat_toNat character
  rcases encodeChar_cases character with
    ⟨small, bytes⟩ | ⟨low, high, bytes⟩ | ⟨low, high, bytes⟩ | ⟨low, bytes⟩
  · have reads := reads_one small
    rwa [identity, ← bytes] at reads
  · have reads := reads_two low high
    rwa [identity, ← bytes] at reads
  · have reads := reads_three low high (by omega)
    rwa [identity, ← bytes] at reads
  · have reads := reads_four low (by omega)
    rwa [identity, ← bytes] at reads

@[simp] theorem encode_nil : encode [] = [] := rfl

@[simp] theorem encode_cons (character : Char) (text : List Char) :
    encode (character :: text) = String.utf8EncodeChar character ++ encode text := rfl

@[simp] theorem encode_append (left right : List Char) :
    encode (left ++ right) = encode left ++ encode right := flatMap_append

theorem decode_encode (text : List Char) (rest : List UInt8) :
    decode none (encode text ++ rest) = text.map some ++ decode none rest := by
  induction text with
  | nil => rfl
  | cons character text ih =>
    rw [encode_cons, append_assoc, (reads_encodeChar).whole, ih]
    rfl

theorem lossy_encode_append (text : List Char) (rest : List UInt8) :
    lossy (encode text ++ rest) = text ++ lossy rest := by
  rw [lossy, decode_encode, map_append, map_map]
  congr 1
  exact List.map_id'' (fun _ => rfl) text

@[simp] theorem lossy_nil : lossy [] = [] := rfl

theorem lossy_encode (text : List Char) : lossy (encode text) = text := by
  have whole := lossy_encode_append text []
  rwa [append_nil, lossy_nil, append_nil] at whole

theorem strict_encode (text : List Char) : strict (encode text) = some text := by
  have whole := decode_encode text []
  rw [append_nil] at whole
  rw [strict, lossy_encode, whole, if_pos]
  simp [decode]

variable {part : List UInt8}

theorem Waiting.decode_nil (waiting : Waiting none part) : decode none part = [none] := by
  obtain ⟨pending, _, continues⟩ := waiting
  have stopped := continues []
  rwa [append_nil] at stopped

theorem Waiting.decode_ascii (waiting : Waiting none part) (ascii : byte.toNat < 0x80)
    (rest : List UInt8) :
    decode none (part ++ byte :: rest) = none :: decode none (byte :: rest) := by
  obtain ⟨pending, low, continues⟩ := waiting
  have outside : ¬(pending.low ≤ byte.toNat ∧ byte.toNat ≤ pending.high) := by omega
  have refused : feed (some pending) byte = (none :: (start byte).1, (start byte).2) :=
    if_neg outside
  rw [continues, decode_cons, decode_cons, refused, feed]
  rfl

theorem strict_cut (waiting : Waiting none part) : strict (encode before ++ part) = none := by
  rw [strict, decode_encode, waiting.decode_nil, if_neg]
  simp

theorem take_encode (text : List Char) {cut : Nat} (inside : cut < (encode text).length) :
    ∃ before part, (encode text).take cut = encode before ++ part ∧
      before <+: text ∧ before ≠ text ∧ (part = [] ∨ Waiting none part) := by
  induction text generalizing cut with
  | nil => simp at inside
  | cons character text ih =>
    rw [encode_cons, length_append] at inside
    set bytes := String.utf8EncodeChar character with isBytes
    rw [encode_cons, ← isBytes]
    by_cases beyond : bytes.length ≤ cut
    · obtain ⟨before, part, same, isPrefix, different, state⟩ :=
        ih (by omega : cut - bytes.length < (encode text).length)
      refine ⟨character :: before, part, ?_, ?_, ?_, state⟩
      · rw [take_append, take_of_length_le beyond, same, encode_cons, append_assoc]
      · exact cons_prefix_cons.mpr ⟨rfl, isPrefix⟩
      · exact fun equal => different (List.cons.inj equal).2
    · refine ⟨[], bytes.take cut, ?_, nil_prefix, by simp, ?_⟩
      · rw [take_append_of_le_length (by omega)]
        rfl
      · by_cases none : cut = 0
        · exact .inl (by simp [none])
        · have short : cut < bytes.length := by omega
          exact .inr ((reads_encodeChar).part cut (by omega) short)

theorem newline_mem_encodeChar {character : Char} (member : 10 ∈ String.utf8EncodeChar character) :
    character = '\n' := by
  have other : ∀ byte, 0x80 ≤ byte → byte < 256 → (10 : UInt8) ≠ UInt8.ofNat byte := by
    intro byte large small same
    have numbers := congrArg UInt8.toNat same
    rw [toNat_byte small] at numbers
    exact absurd (numbers ▸ large) (by decide)
  have valid := toNat_valid character
  rcases encodeChar_cases character with
    ⟨small, bytes⟩ | ⟨low, high, bytes⟩ | ⟨low, high, bytes⟩ | ⟨low, bytes⟩
  · rw [bytes, mem_singleton] at member
    have code := congrArg UInt8.toNat member
    rw [toNat_byte (by omega)] at code
    rw [← Char.ofNat_toNat character, ← code]
    rfl
  · simp only [bytes, mem_cons, not_mem_nil, or_false] at member
    rcases member with same | same <;> exact absurd same (other _ (by omega) (by omega))
  · simp only [bytes, mem_cons, not_mem_nil, or_false] at member
    rcases member with same | same | same <;> exact absurd same (other _ (by omega) (by omega))
  · simp only [bytes, mem_cons, not_mem_nil, or_false] at member
    rcases member with same | same | same | same <;>
      exact absurd same (other _ (by omega) (by omega))

theorem newline_mem_encode (member : 10 ∈ encode text) : '\n' ∈ text := by
  obtain ⟨character, belongs, found⟩ := mem_flatMap.mp member
  exact newline_mem_encodeChar found ▸ belongs

def run : Option Pending → List UInt8 → List (Option Char) × Option Pending
  | state, [] => ([], state)
  | state, byte :: rest =>
    ((feed state byte).1 ++ (run (feed state byte).2 rest).1, (run (feed state byte).2 rest).2)

theorem run_append (state : Option Pending) (left right : List UInt8) :
    run state (left ++ right) = ((run state left).1 ++ (run (run state left).2 right).1,
      (run (run state left).2 right).2) := by
  induction left generalizing state with
  | nil => rfl
  | cons byte rest ih => simp [run, ih]

theorem decode_eq_run (state : Option Pending) (bytes : List UInt8) : decode state bytes =
      (run state bytes).1 ++ if (run state bytes).2.isSome then [none] else [] := by
  induction bytes generalizing state with
  | nil => cases state <;> rfl
  | cons byte rest ih => rw [decode_cons, ih, run, append_assoc]

theorem run_encode (text : List Char) : run none (encode text) = (text.map some, none) := by
  have whole := decode_encode text []
  rw [append_nil, decode_eq_run, show decode none [] = [] from rfl, append_nil] at whole
  cases state : (run none (encode text)).2 with
  | none => exact Prod.ext (by simpa [state] using whole) state
  | some pending =>
    have member : none ∈ text.map some := whole ▸ by simp [state]
    simp at member

end AgentClaimNetwork.Library.Utf8
