import AgentClaimNetwork.Library.Json

/-!
Reading JSON text.  The reader takes what a compact serializer writes back to the value, also
when characters inside the strings have been replaced by their escapes.
-/

namespace AgentClaimNetwork.Library.Json

open List
open Option (bind_eq_bind bind_some)
open Prod (fst mk snd)

variable {hidden : List Char}

def isSpace (character : Char) : Bool :=
  character = ' ' || character = '\n' || character = '\t' || character = '\r'

def skipSpace (text : List Char) : List Char := text.dropWhile isSpace

def readHexDigit (character : Char) : Option Nat :=
  if character.isDigit then some (character.toNat - 48)
  else if 'a' ≤ character ∧ character ≤ 'f' then some (character.toNat - 87)
  else if 'A' ≤ character ∧ character ≤ 'F' then some (character.toNat - 55)
  else none

def readHex : List Char → Option (Nat × List Char)
  | first :: second :: third :: fourth :: rest => do
      let first ← readHexDigit first
      let second ← readHexDigit second
      let third ← readHexDigit third
      let fourth ← readHexDigit fourth
      some (16 * (16 * (16 * first + second) + third) + fourth, rest)
  | _ => none

def isLeading (code : Nat) : Bool := 0xD800 ≤ code && code ≤ 0xDBFF

def isTrailing (code : Nat) : Bool := 0xDC00 ≤ code && code ≤ 0xDFFF

def readTrailing (leading : Nat) : List Char → Option (Char × List Char)
  | '\\' :: 'u' :: rest => do
      let (trailing, rest) ← readHex rest
      if isTrailing trailing then
        some (Char.ofNat (0x10000 + (leading - 0xD800) * 0x400 + (trailing - 0xDC00)), rest)
      else none
  | _ => none

def readEscape : List Char → Option (Char × List Char)
  | '"' :: rest => some ('"', rest)
  | '\\' :: rest => some ('\\', rest)
  | '/' :: rest => some ('/', rest)
  | 'b' :: rest => some (Char.ofNat 8, rest)
  | 'f' :: rest => some (Char.ofNat 12, rest)
  | 'n' :: rest => some ('\n', rest)
  | 'r' :: rest => some ('\r', rest)
  | 't' :: rest => some ('\t', rest)
  | 'u' :: rest => do
      let (code, rest) ← readHex rest
      if isTrailing code then none
      else if isLeading code then readTrailing code rest
      else some (Char.ofNat code, rest)
  | _ => none

def readChars : Nat → List Char → Option (List Char × List Char)
  | 0, _ => none
  | _ + 1, [] => none
  | fuel + 1, first :: rest =>
    if first = '"' then some ([], rest)
    else if first = '\\' then do
      let (character, rest) ← readEscape rest
      let (characters, rest) ← readChars fuel rest
      some (character :: characters, rest)
    else if first.toNat < 32 then none
    else do
      let (characters, rest) ← readChars fuel rest
      some (first :: characters, rest)

def readString (text : List Char) : Option (List Char × List Char) :=
  readChars text.length text

def readDigits (text : List Char) : List Char × List Char :=
  (text.takeWhile Char.isDigit, text.dropWhile Char.isDigit)

def readWhole (text : List Char) : Option (List Char × List Char) :=
  match readDigits text with
  | ([], _) => none
  | ('0' :: _ :: _, _) => none
  | (digits, rest) => some (digits, rest)

def readFraction : List Char → Option (List Char × List Char)
  | '.' :: rest =>
    match readDigits rest with
    | ([], _) => none
    | (digits, rest) => some ('.' :: digits, rest)
  | text => some ([], text)

def readPower (sign text : List Char) : Option (List Char × List Char) :=
  match readDigits text with
  | ([], _) => none
  | (digits, rest) => some (sign ++ digits, rest)

def readExponent : List Char → Option (List Char × List Char)
  | first :: rest =>
    if first = 'e' ∨ first = 'E' then
      match rest with
      | '+' :: rest => readPower ['e'] rest
      | '-' :: rest => readPower ['e', '-'] rest
      | rest => readPower ['e'] rest
    else some ([], first :: rest)
  | [] => some ([], [])

def inRange (value : Int) : Bool := -2 ^ 63 ≤ value && value < 2 ^ 64

def signed (negative : Bool) (magnitude : Nat) : Int :=
  if negative then -magnitude else magnitude

/-- A number behind its sign.  `float` is what a token stands for that is no integer of 64 bits,
where a negative zero is none either. -/
def readMagnitude (float : List Char → Option Int) (negative : Bool) (text : List Char) :
    Option (Json × List Char) := do
  let (digits, rest) ← readWhole text
  let (fraction, rest) ← readFraction rest
  let (exponent, rest) ← readExponent rest
  let value := signed negative (Nat.ofDigitChars 10 digits 0)
  if fraction = [] ∧ exponent = [] ∧ inRange value ∧ ¬ (negative ∧ value = 0) then
    some (.num value, rest)
  else do
    let value ← float ((if negative then ['-'] else []) ++ digits ++ fraction ++ exponent)
    some (.num value, rest)

def readNumber (float : List Char → Option Int) : List Char → Option (Json × List Char)
  | '-' :: rest => readMagnitude float true rest
  | text => readMagnitude float false text

section

def insertField (fields : List (List Char × Json)) (field : List Char × Json) :
    List (List Char × Json) :=
  if field.1 ∈ fields.map Prod.fst then
    fields.map fun other => if other.1 = field.1 then field else other
  else fields ++ [field]

def readItems (value : List Char → Option (Json × List Char)) :
    Nat → List Char → Option (List Json × List Char)
  | 0, _ => none
  | fuel + 1, text => do
      let (item, rest) ← value text
      match skipSpace rest with
      | ',' :: rest => do
          let (items, rest) ← readItems value fuel rest
          some (item :: items, rest)
      | ']' :: rest => some ([item], rest)
      | _ => none

def readKey (text : List Char) : Option (List Char × List Char) :=
  match skipSpace text with
  | '"' :: rest => do
      let (key, rest) ← readString rest
      match skipSpace rest with
      | ':' :: rest => some (key, rest)
      | _ => none
  | _ => none

def readFields (value : List Char → Option (Json × List Char)) :
    Nat → List Char → Option (List (List Char × Json) × List Char)
  | 0, _ => none
  | fuel + 1, text => do
      let (key, rest) ← readKey text
      let (item, rest) ← value rest
      match skipSpace rest with
      | ',' :: rest => do
          let (fields, rest) ← readFields value fuel rest
          some ((key, item) :: fields, rest)
      | '}' :: rest => some ([(key, item)], rest)
      | _ => none

def readArray (value : List Char → Option (Json × List Char)) (text : List Char) :
    Option (Json × List Char) :=
  match skipSpace text with
  | ']' :: rest => some (.arr [], rest)
  | text => do
      let (items, rest) ← readItems value text.length text
      some (.arr items, rest)

def readObject (value : List Char → Option (Json × List Char)) (text : List Char) :
    Option (Json × List Char) :=
  match skipSpace text with
  | '}' :: rest => some (.obj [], rest)
  | text => do
      let (fields, rest) ← readFields value text.length text
      some (.obj (fields.foldl insertField []), rest)

variable (float : List Char → Option Int)

def readValue : Nat → List Char → Option (Json × List Char)
  | depth, text =>
    match skipSpace text with
    | 'n' :: 'u' :: 'l' :: 'l' :: rest => some (.null, rest)
    | 't' :: 'r' :: 'u' :: 'e' :: rest => some (.bool true, rest)
    | 'f' :: 'a' :: 'l' :: 's' :: 'e' :: rest => some (.bool false, rest)
    | '"' :: rest => do
        let (characters, rest) ← readString rest
        some (.str characters, rest)
    | '[' :: rest =>
      match depth with
      | 0 => none
      | depth + 1 => readArray (readValue depth) rest
    | '{' :: rest =>
      match depth with
      | 0 => none
      | depth + 1 => readObject (readValue depth) rest
    | text => readNumber float text

/-- `serde_json::from_str`, which allows 127 levels of nesting. -/
def fromStr (text : List Char) : Option Json :=
  match readValue float 127 text with
  | some (value, rest) => if skipSpace rest = [] then some value else none
  | none => none

end
variable {text : List Char}

section

def unicodeEscape (character : Char) : List Char :=
  ['\\', 'u', '0', '0', hexDigit (character.toNat / 16), hexDigit (character.toNat % 16)]

def hide (hidden text : List Char) : List Char :=
  text.flatMap fun character => if character ∈ hidden then unicodeEscape character else [character]

def isPlain (character : Char) : Bool :=
  32 < character.toNat && character.toNat < 128 && !character.isAlphanum &&
    character ∉ ['"', '\\', ',', ':', '[', ']', '{', '}', '-']

@[simp] theorem hide_nil : hide hidden [] = [] := rfl

theorem hide_append (left right : List Char) :
    hide hidden (left ++ right) = hide hidden left ++ hide hidden right :=
  flatMap_append

variable {character : Char}

theorem digit_needed (digit : character.isDigit = true) : isPlain character = false := by
  simp [isPlain, Char.isAlphanum, digit]

theorem hexDigit_needed : ∀ digit, digit < 16 → isPlain (hexDigit digit) = false := by
  decide

variable (plain : ∀ character ∈ hidden, isPlain character = true)

include plain

theorem hide_cons (needed : isPlain character = false) (text : List Char) :
    hide hidden (character :: text) = character :: hide hidden text := by
  have shown : character ∉ hidden := by
    intro member
    rw [plain character member] at needed
    cases needed
  simp [hide, shown]

theorem hide_self (needed : ∀ character ∈ text, isPlain character = false) :
    hide hidden text = text := by
  induction text with
  | nil => rfl
  | cons character rest ih =>
    rw [hide_cons plain (needed character mem_cons_self),
      ih fun other member => needed other (mem_cons_of_mem _ member)]

theorem hide_unicodeEscape (small : character.toNat < 256) :
    hide hidden (unicodeEscape character) = unicodeEscape character := by
  apply hide_self plain
  intro other member
  simp only [unicodeEscape, mem_cons, not_mem_nil, or_false] at member
  rcases member with rfl | rfl | rfl | rfl | rfl | rfl
  iterate 4 rfl
  · exact hexDigit_needed (character.toNat / 16) (by omega)
  · exact hexDigit_needed (character.toNat % 16) (by omega)

theorem not_mem_hide (isHidden : character ∈ hidden) :
    character ∉ hide hidden text := by
  intro member
  obtain ⟨other, _, found⟩ := mem_flatMap.mp member
  split_ifs at found with otherHidden
  · have small : other.toNat < 256 := by
      have isPlainChar := plain other otherHidden
      simp only [isPlain, Bool.and_eq_true, decide_eq_true_eq] at isPlainChar
      omega
    have needed : isPlain character = false := by
      simp only [unicodeEscape, mem_cons, not_mem_nil, or_false] at found
      rcases found with rfl | rfl | rfl | rfl | rfl | rfl
      iterate 4 rfl
      · exact hexDigit_needed (other.toNat / 16) (by omega)
      · exact hexDigit_needed (other.toNat % 16) (by omega)
    rw [plain character isHidden] at needed
    cases needed
  · obtain rfl := mem_singleton.mp found
    exact otherHidden isHidden

theorem hide_escapeChar (character : Char) : hide hidden (escapeChar character) =
    if character ∈ hidden then unicodeEscape character else escapeChar character := by
  by_cases member : character ∈ hidden
  · have isPlainChar := plain character member
    have itself : escapeChar character = [character] := by
      simp only [isPlain, Bool.and_eq_true, decide_eq_true_eq] at isPlainChar
      obtain ⟨⟨⟨printable, _⟩, _⟩, separate⟩ := isPlainChar
      unfold escapeChar
      split_ifs with quoted backslash backspace tab newline formFeed carriage control
      · simp [quoted] at separate
      · simp [backslash] at separate
      · omega
      · simp [tab] at printable
      · simp [newline] at printable
      · omega
      · simp [carriage] at printable
      · omega
      · rfl
    rw [itself, if_pos member]
    simp [hide, member]
  · unfold escapeChar
    split_ifs with quoted backslash backspace tab newline formFeed carriage control
    iterate 7 exact hide_self plain (by simp [isPlain])
    · exact hide_unicodeEscape plain (by omega)
    · simp [hide, member]

end
variable {fuel : Nat}

section

theorem readHexDigit_hexDigit : ∀ digit, digit < 16 → readHexDigit (hexDigit digit) = some digit := by
  decide

theorem readEscape_code (small : code < 256) (rest : List Char) :
    readEscape ('u' :: '0' :: '0' :: hexDigit (code / 16) :: hexDigit (code % 16) :: rest) =
      some (Char.ofNat code, rest) := by
  have zero : readHexDigit '0' = some 0 := rfl
  have high := readHexDigit_hexDigit (code / 16) (by omega)
  have low := readHexDigit_hexDigit (code % 16) (by omega)
  have value : 16 * (code / 16) + code % 16 = code := by omega
  have below : isTrailing code = false ∧ isLeading code = false := by
    simp only [isTrailing, isLeading, Bool.and_eq_false_iff, decide_eq_false_iff_not]
    omega
  simp [readEscape, readHex, zero, high, low, value, below]

theorem readChars_escape {piece rest : List Char} {character : Char}
    (escape : readEscape (piece ++ rest) = some (character, rest)) (fuel : Nat) :
    readChars (fuel + 1) ('\\' :: (piece ++ rest)) =
      (readChars fuel rest).map fun read => (character :: read.1, read.2) := by
  rw [readChars, if_neg (by decide), if_pos rfl, escape, bind_eq_bind, bind_some]
  dsimp only
  cases readChars fuel rest <;> rfl

variable (plain : ∀ character ∈ hidden, isPlain character = true)

include plain

theorem readChars_escapeChar (character : Char) (rest : List Char) (fuel : Nat) :
    readChars (fuel + 1) (hide hidden (escapeChar character) ++ rest) =
      (readChars fuel rest).map fun read => (character :: read.1, read.2) := by
  have code : character.toNat < 256 → ∀ after,
      readChars (fuel + 1) (unicodeEscape character ++ after) =
        (readChars fuel after).map fun read => (character :: read.1, read.2) := by
    intro small after
    have escape := readEscape_code small after
    rw [Char.ofNat_toNat] at escape
    exact @readChars_escape ['u', '0', '0', hexDigit (character.toNat / 16),
      hexDigit (character.toNat % 16)] after character escape fuel
  rw [hide_escapeChar plain]
  split_ifs with member
  · refine code ?_ rest
    have isPlainChar := plain character member
    simp only [isPlain, Bool.and_eq_true, decide_eq_true_eq] at isPlainChar
    omega
  · have identity := Char.ofNat_toNat character
    unfold escapeChar
    split_ifs with quoted backslash backspace tab newline formFeed carriage control
    · rw [quoted]
      exact @readChars_escape ['"'] rest '"' rfl fuel
    · rw [backslash]
      exact @readChars_escape ['\\'] rest '\\' rfl fuel
    · rw [← identity, backspace]
      exact @readChars_escape ['b'] rest (Char.ofNat 8) rfl fuel
    · rw [tab]
      exact @readChars_escape ['t'] rest '\t' rfl fuel
    · rw [newline]
      exact @readChars_escape ['n'] rest '\n' rfl fuel
    · rw [← identity, formFeed]
      exact @readChars_escape ['f'] rest (Char.ofNat 12) rfl fuel
    · rw [carriage]
      exact @readChars_escape ['r'] rest '\r' rfl fuel
    · exact code (by omega) rest
    · rw [singleton_append, readChars, if_neg quoted, if_neg backslash, if_neg control]
      cases readChars fuel rest <;> rfl

theorem readChars_quote (enough : text.length < fuel) (rest : List Char) :
    readChars fuel (hide hidden (text.flatMap escapeChar) ++ '"' :: rest) = some (text, rest) := by
  induction text generalizing fuel with
  | nil =>
    obtain ⟨fuel, rfl⟩ := Nat.exists_eq_succ_of_ne_zero (by omega : fuel ≠ 0)
    simp [readChars]
  | cons character text ih =>
    rw [List.length_cons] at enough
    obtain ⟨fuel, rfl⟩ := Nat.exists_eq_succ_of_ne_zero (by omega : fuel ≠ 0)
    rw [List.flatMap_cons, hide_append, List.append_assoc, Nat.succ_eq_add_one,
      readChars_escapeChar plain, ih (by omega)]
    rfl

omit plain in
theorem length_hide (text : List Char) : text.length ≤ (hide hidden text).length := by
  induction text with
  | nil => simp
  | cons character rest ih =>
    rw [hide, List.flatMap_cons, List.length_append, ← hide]
    split_ifs
    · simp only [unicodeEscape, List.length_cons, List.length_nil]
      omega
    · simp only [List.length_cons, List.length_nil]
      omega

omit plain in
theorem length_escape (text : List Char) : text.length ≤ (text.flatMap escapeChar).length := by
  induction text with
  | nil => simp
  | cons character rest ih =>
    obtain ⟨first, others, shape, _⟩ := escapeChar_head
    rw [List.flatMap_cons, List.length_append, shape]
    simp only [List.length_cons]
    omega

theorem readString_quote (text rest : List Char) :
    readString (hide hidden (text.flatMap escapeChar) ++ '"' :: rest) = some (text, rest) := by
  apply readChars_quote plain
  have escaped := length_escape text
  have longer := @length_hide hidden (text.flatMap escapeChar)
  simp only [length_append, length_cons]
  omega

end

section

def EndsNumber (rest : List Char) : Prop :=
  ∀ first ∈ rest.head?, first.isDigit = false ∧ first ≠ '.' ∧ first ≠ 'e' ∧ first ≠ 'E'

theorem EndsNumber.cons {first : Char} (digit : first.isDigit = false)
    (ends : first ≠ '.' ∧ first ≠ 'e' ∧ first ≠ 'E') :
    EndsNumber (first :: rest) := by
  rintro other ⟨⟩
  exact ⟨digit, ends⟩

variable {rest : List Char}

theorem toDigits_zero_head {value : Nat}
    (shape : Nat.toDigits 10 value = '0' :: rest) : rest = [] := by
  induction value using Nat.strongRecOn generalizing rest with
  | ind value ih =>
    rw [Nat.toDigits_eq_if (by decide)] at shape
    split_ifs at shape with small
    · exact (List.cons.inj shape).2.symm
    · obtain ⟨first, others, front, _⟩ := toDigits_head
      rw [front, cons_append] at shape
      obtain ⟨zero, _⟩ := List.cons.inj shape
      rw [zero] at front
      -- the digits in front of the last one stand for zero, but the value has two digits
      have nothing := ih (value / 10) (by omega) front
      have quotient := @Nat.ofDigitChars_ten_toDigits (value / 10)
      rw [front, nothing] at quotient
      have isZero : Nat.ofDigitChars 10 ['0'] 0 = 0 := by decide
      omega

theorem readDigits_toDigits (value : Nat) (ends : EndsNumber rest) :
    readDigits (Nat.toDigits 10 value ++ rest) = (Nat.toDigits 10 value, rest) := by
  have stops : NoDigit rest := fun first head => (ends first head).1
  have taken := takeWhile_digits value stops
  have split := takeWhile_append_dropWhile (p := Char.isDigit)
    (l := Nat.toDigits 10 value ++ rest)
  rw [taken] at split
  rw [readDigits, taken, append_cancel_left split]

theorem readWhole_toDigits (ends : EndsNumber rest) :
    readWhole (Nat.toDigits 10 value ++ rest) = some (Nat.toDigits 10 value, rest) := by
  rw [readWhole, readDigits_toDigits value ends]
  split
  · rename_i empty
    exact absurd (mk.inj empty).1 Nat.toDigits_ne_nil
  · rename_i leading
    have nothing := toDigits_zero_head (mk.inj leading).1
    cases nothing
  · rename_i same
    obtain ⟨rfl, rfl⟩ := mk.inj same
    rfl

theorem readFraction_none (ends : EndsNumber rest) : readFraction rest = some ([], rest) := by
  unfold readFraction
  split
  · exact absurd rfl (ends '.' rfl).2.1
  · rfl

theorem readExponent_none (ends : EndsNumber rest) : readExponent rest = some ([], rest) := by
  cases rest with
  | nil => rfl
  | cons first rest =>
    obtain ⟨_, _, lower, upper⟩ := ends first rfl
    have other : ¬ (first = 'e' ∨ first = 'E') := not_or.mpr ⟨lower, upper⟩
    simp only [readExponent, if_neg other]

theorem renderNum_start : ∃ first rest, renderNum value = first :: rest ∧
    (first.isDigit = true ∨ first = '-') := by
  cases value with
  | ofNat value =>
    obtain ⟨first, rest, shape, digit⟩ := toDigits_head
    exact ⟨first, rest, shape, .inl digit⟩
  | negSucc value => exact ⟨_, _, rfl, .inr rfl⟩

theorem renderNum_needed :
    ∀ character ∈ renderNum value, isPlain character = false := by
  have digits : ∀ magnitude, ∀ character ∈ Nat.toDigits 10 magnitude, isPlain character = false :=
    fun _ _ member => digit_needed (Nat.isDigit_of_mem_toDigits (by decide) (by decide) member)
  cases value with
  | ofNat value => exact digits value
  | negSucc value =>
    intro character member
    rcases mem_cons.mp member with rfl | later
    · rfl
    · exact digits _ character later

variable (float : List Char → Option Int)

theorem readMagnitude_toDigits {negative : Bool} {value : Nat}
    (small : inRange (signed negative value) = true) (proper : negative = true → value ≠ 0)
    {rest : List Char} (ends : EndsNumber rest) :
    readMagnitude float negative (Nat.toDigits 10 value ++ rest) =
      some (.num (signed negative value), rest) := by
  have improper : ¬ (negative = true ∧ signed negative value = 0) := by
    rintro ⟨rfl, zero⟩
    simp only [signed, if_true] at zero
    exact proper rfl (by omega)
  simp only [readMagnitude, bind_eq_bind, readWhole_toDigits ends, bind_some,
    readFraction_none ends, readExponent_none ends, Nat.ofDigitChars_ten_toDigits]
  rw [if_pos ⟨trivial, trivial, small, improper⟩]

theorem readNumber_renderNum {value : Int} (small : inRange value = true) (ends : EndsNumber rest) :
    readNumber float (renderNum value ++ rest) = some (.num value, rest) := by
  cases value with
  | ofNat value =>
    have read := @readMagnitude_toDigits float false value small nofun rest ends
    obtain ⟨first, others, shape, digit⟩ := toDigits_head
    rw [renderNum]
    unfold readNumber
    split
    · rename_i same
      rw [shape] at same
      rw [(List.cons.inj same).1] at digit
      exact absurd digit (by decide)
    · exact read
  | negSucc value => exact @readMagnitude_toDigits float true (value + 1) small (by simp) rest ends

end

inductive Readable : Nat → Json → Prop
  | null {depth} : Readable depth .null
  | bool {depth} (value) : Readable depth (.bool value)
  | num {depth value} : inRange value = true → Readable depth (.num value)
  | str {depth} (text) : Readable depth (.str text)
  | arr {depth items} : (∀ item ∈ items, Readable depth item) → Readable (depth + 1) (.arr items)
  | obj {depth fields} : (fields.map fst).Nodup →
      (∀ field ∈ fields, Readable depth field.2) → Readable (depth + 1) (.obj fields)

section

theorem skipSpace_cons (solid : isSpace first = false) (rest : List Char) :
    skipSpace (first :: rest) = first :: rest := by
  rw [skipSpace, dropWhile_cons_of_neg (by simp [solid])]

variable {fields : List (List Char × Json)}

theorem insertField_new (fresh : field.1 ∉ fields.map fst) :
    insertField fields field = fields ++ [field] :=
  if_neg fresh

theorem foldl_insertField {fields before : List (List Char × Json)}
    (distinct : ((before ++ fields).map fst).Nodup) :
    fields.foldl insertField before = before ++ fields := by
  induction fields generalizing before with
  | nil => simp
  | cons field rest ih =>
    have fresh : field.1 ∉ before.map fst := by
      rw [map_append, map_cons] at distinct
      intro member
      exact (nodup_append.mp distinct).2.2 _ member _ mem_cons_self rfl
    have regrouped : before ++ field :: rest = before ++ [field] ++ rest := by simp
    rw [foldl_cons, insertField_new fresh, regrouped]
    rw [regrouped] at distinct
    exact ih distinct

theorem length_renderItems (items : List Json) : items.length < (renderItems items).length := by
  induction items with
  | nil => simp [renderItems]
  | cons item items ih =>
    simp only [renderItems, length_cons, length_append]
    omega

theorem length_renderFields (fields : List (List Char × Json)) :
    fields.length < (renderFields fields).length := by
  induction fields with
  | nil => simp [renderFields]
  | cons field fields ih =>
    simp only [renderFields, length_cons, length_append]
    omega

variable (plain : ∀ character ∈ hidden, isPlain character = true)
  (value : List Char → Option (Json × List Char))

def Reads (hidden : List Char) (value : List Char → Option (Json × List Char)) (item : Json) :
    Prop :=
  ∀ rest, EndsNumber rest → value (hide hidden (render item) ++ rest) = some (item, rest)

include plain

theorem hide_quote (text : List Char) : hide hidden (quote text) =
    '"' :: (hide hidden (text.flatMap escapeChar) ++ ['"']) := by
  rw [quote, hide_cons plain rfl, hide_append, hide_cons plain rfl, hide_nil]

theorem readKey_quote (text rest : List Char) :
    readKey (hide hidden (quote text) ++ ':' :: rest) = some (text, rest) := by
  rw [hide_quote plain, readKey, cons_append, skipSpace_cons rfl]
  simp only [append_assoc, singleton_append]
  rw [readString_quote plain, bind_eq_bind, bind_some]
  simp only [skipSpace_cons (show isSpace ':' = false from rfl)]

theorem readItems_render (reads : ∀ other ∈ item :: items, Reads hidden value other)
    (enough : items.length < fuel) (rest : List Char) :
    readItems value fuel (hide hidden (render item ++ renderItems items) ++ rest) =
      some (item :: items, rest) := by
  induction items generalizing item fuel with
  | nil =>
    obtain ⟨fuel, rfl⟩ := Nat.exists_eq_succ_of_ne_zero (by omega : fuel ≠ 0)
    have first := reads item mem_cons_self (']' :: rest)
      (EndsNumber.cons rfl (by decide))
    rw [hide_append, renderItems, hide_cons plain rfl, hide_nil, append_assoc,
      singleton_append, readItems, first]
    rfl
  | cons next items ih =>
    rw [length_cons] at enough
    obtain ⟨fuel, rfl⟩ := Nat.exists_eq_succ_of_ne_zero (by omega : fuel ≠ 0)
    have first := reads item mem_cons_self
      (',' :: (hide hidden (render next ++ renderItems items) ++ rest))
      (EndsNumber.cons rfl (by decide))
    have others := ih (fun other member => reads other (mem_cons_of_mem _ member))
      (by omega : items.length < fuel)
    rw [hide_append, renderItems, hide_cons plain rfl, append_assoc, cons_append,
      readItems, first, bind_eq_bind, bind_some]
    simp only [skipSpace_cons (show isSpace ',' = false from rfl), others]
    rfl

theorem readFields_render (reads : ∀ field ∈ (key, item) :: fields, Reads hidden value field.2)
    (enough : fields.length < fuel) (rest : List Char) : readFields value fuel
        (hide hidden (quote key ++ ':' :: (render item ++ renderFields fields)) ++ rest) =
      some ((key, item) :: fields, rest) := by
  induction fields generalizing key item fuel with
  | nil =>
    obtain ⟨fuel, rfl⟩ := Nat.exists_eq_succ_of_ne_zero (by omega : fuel ≠ 0)
    have first := reads (key, item) mem_cons_self ('}' :: rest)
      (EndsNumber.cons rfl (by decide))
    rw [hide_append, hide_cons plain rfl, hide_append, renderFields, hide_cons plain rfl, hide_nil]
    simp only [append_assoc, cons_append, nil_append]
    rw [readFields, readKey_quote plain, bind_eq_bind, bind_some]
    dsimp only
    rw [first]
    rfl
  | cons next fields ih =>
    obtain ⟨nextKey, nextItem⟩ := next
    rw [length_cons] at enough
    obtain ⟨fuel, rfl⟩ := Nat.exists_eq_succ_of_ne_zero (by omega : fuel ≠ 0)
    have first := reads (key, item) mem_cons_self
      (',' :: (hide hidden (quote nextKey ++ ':' :: (render nextItem ++ renderFields fields)) ++
        rest)) (EndsNumber.cons rfl (by decide))
    have others := ih (fun field member => reads field (mem_cons_of_mem _ member))
      (by omega : fields.length < fuel)
    rw [hide_append, hide_cons plain rfl, hide_append, renderFields, hide_cons plain rfl]
    simp only [append_assoc, cons_append]
    rw [readFields, readKey_quote plain, bind_eq_bind, bind_some]
    dsimp only
    rw [first]
    simp [bind_eq_bind, bind_some, skipSpace_cons (show isSpace ',' = false from rfl), others]

theorem render_start (item : Json) : ∃ first rest, hide hidden (render item) = first :: rest ∧
    isSpace first = false ∧ first ≠ ']' ∧ first ≠ '}' := by
  have start : ∃ first rest, render item = first :: rest ∧
      (first.isDigit = true ∨ first ∈ ['n', 't', 'f', '"', '[', '{', '-']) := by
    cases item with
    | null | str text => exact ⟨_, _, rfl, .inr (by decide)⟩
    | bool value => cases value <;> exact ⟨_, _, rfl, .inr (by decide)⟩
    | num value =>
      cases value with
      | ofNat value =>
        obtain ⟨first, rest, shape, digit⟩ := toDigits_head
        exact ⟨first, rest, shape, .inl digit⟩
      | negSucc value => exact ⟨_, _, rfl, .inr (by decide)⟩
    | arr items => cases items <;> exact ⟨_, _, rfl, .inr (by decide)⟩
    | obj fields => cases fields <;> exact ⟨_, _, rfl, .inr (by decide)⟩
  obtain ⟨first, rest, shape, digit | sign⟩ := start
  · refine ⟨first, hide hidden rest, ?_, ?_, ?_⟩
    · rw [shape, hide_cons plain (digit_needed digit)]
    · have apart : ∀ other : Char, other.isDigit = false → first ≠ other := by
        rintro other notDigit rfl
        rw [digit] at notDigit
        cases notDigit
      simp [isSpace, apart ' ' rfl, apart '\n' rfl, apart '\t' rfl, apart '\r' rfl]
    · constructor <;>
      · rintro rfl
        exact absurd digit (by decide)
  · have needed : isPlain first = false ∧ isSpace first = false ∧ first ≠ ']' ∧ first ≠ '}' := by
      have each : ∀ other ∈ ['n', 't', 'f', '"', '[', '{', '-'], isPlain other = false ∧
          isSpace other = false ∧ other ≠ ']' ∧ other ≠ '}' := by simp [isPlain, isSpace]
      exact each first sign
    exact ⟨first, hide hidden rest, by rw [shape, hide_cons plain needed.1], needed.2⟩

theorem readArray_render (reads : ∀ item ∈ items, Reads hidden value item) {rest : List Char} :
    ∃ text, hide hidden (render (.arr items)) = '[' :: text ∧
      readArray value (text ++ rest) = some (.arr items, rest) := by
  cases items with
  | nil =>
    refine ⟨[']'], ?_, rfl⟩
    rw [render, hide_cons plain rfl, hide_cons plain rfl, hide_nil]
  | cons item items =>
    refine ⟨hide hidden (render item ++ renderItems items), by rw [render, hide_cons plain rfl], ?_⟩
    have enough : items.length <
        (hide hidden (render item ++ renderItems items) ++ rest).length := by
      have longer := @length_hide hidden (render item ++ renderItems items)
      have many := length_renderItems items
      simp only [length_append] at longer ⊢
      omega
    have read := readItems_render plain value reads enough rest
    obtain ⟨first, others, shape, solid, different, _⟩ := render_start plain item
    have start : hide hidden (render item ++ renderItems items) ++ rest =
        first :: (others ++ (hide hidden (renderItems items) ++ rest)) := by
      rw [hide_append, shape, append_assoc, cons_append]
    rw [start] at read ⊢
    rw [readArray, skipSpace_cons solid]
    split
    · rename_i same
      exact absurd (List.cons.inj same).1 different
    · rw [read, bind_eq_bind, bind_some]

theorem readObject_render (distinct : (fields.map fst).Nodup)
    (reads : ∀ field ∈ fields, Reads hidden value field.2) {rest : List Char} :
    ∃ text, hide hidden (render (.obj fields)) = '{' :: text ∧
      readObject value (text ++ rest) = some (.obj fields, rest) := by
  cases fields with
  | nil =>
    refine ⟨['}'], ?_, rfl⟩
    rw [render, hide_cons plain rfl, hide_cons plain rfl, hide_nil]
  | cons field fields =>
    obtain ⟨key, item⟩ := field
    refine ⟨hide hidden (quote key ++ ':' :: (render item ++ renderFields fields)),
      by rw [render, hide_cons plain rfl], ?_⟩
    have enough : fields.length <
        (hide hidden (quote key ++ ':' :: (render item ++ renderFields fields)) ++ rest).length := by
      have longer := @length_hide hidden (quote key ++ ':' :: (render item ++ renderFields fields))
      have many := length_renderFields fields
      simp only [length_append, length_cons] at longer ⊢
      omega
    have read := readFields_render plain value reads enough rest
    obtain ⟨others, start⟩ : ∃ others,
        hide hidden (quote key ++ ':' :: (render item ++ renderFields fields)) ++ rest =
          '"' :: others := by
      rw [hide_append, hide_quote plain]
      exact ⟨_, rfl⟩
    have same := @foldl_insertField ((key, item) :: fields) [] distinct
    rw [start] at read ⊢
    rw [readObject, skipSpace_cons rfl]
    split
    · rename_i impossible
      exact absurd (List.cons.inj impossible).1 (by decide)
    · rw [read, bind_eq_bind, bind_some]
      dsimp only
      rw [same, nil_append]

theorem readValue_render (float : List Char → Option Int) (readable : Readable depth item) :
    Reads hidden (readValue float depth) item := by
  induction readable with
  | null =>
    intro rest _
    rw [render, hide_self plain (by simp [isPlain])]
    simp [readValue, skipSpace_cons (show isSpace 'n' = false from rfl)]
  | bool value =>
    intro rest _
    cases value with
    | false =>
      rw [render, hide_self plain (by simp [isPlain])]
      simp [readValue, skipSpace_cons (show isSpace 'f' = false from rfl)]
    | true =>
      rw [render, hide_self plain (by simp [isPlain])]
      simp [readValue, skipSpace_cons (show isSpace 't' = false from rfl)]
  | num small =>
    intro rest ends
    obtain ⟨first, others, shape, start⟩ := renderNum_start
    have solid : ∀ other : Char, other.isDigit = false → other ≠ '-' → first ≠ other := by
      rintro other notDigit unsigned rfl
      rcases start with digit | sign
      · rw [digit] at notDigit
        cases notDigit
      · exact unsigned sign
    have noSpace : isSpace first = false := by
      simp [isSpace, solid ' ' rfl (by decide), solid '\n' rfl (by decide),
        solid '\t' rfl (by decide), solid '\r' rfl (by decide)]
    have read := readNumber_renderNum float small ends
    rw [render, hide_self plain renderNum_needed]
    rw [shape, cons_append] at read ⊢
    rw [readValue, skipSpace_cons noSpace]
    split
    iterate 6
      rename_i same
      exact absurd (List.cons.inj same).1 (solid _ rfl (by decide))
    exact read
  | str text =>
    intro rest _
    rw [render, hide_quote plain]
    simp only [cons_append, append_assoc, nil_append]
    rw [readValue, skipSpace_cons rfl]
    simp only [readString_quote plain, bind_eq_bind, bind_some]
  | arr _ ih =>
    intro rest _
    obtain ⟨text, start, read⟩ := readArray_render plain _ ih
    rw [start, cons_append, readValue, skipSpace_cons rfl]
    exact read
  | obj distinct _ ih =>
    intro rest _
    obtain ⟨text, start, read⟩ := readObject_render plain _ distinct ih
    rw [start, cons_append, readValue, skipSpace_cons rfl]
    exact read

theorem fromStr_hide (float : List Char → Option Int)
    (readable : Readable 127 item) : fromStr float (hide hidden (render item)) = some item := by
  have read := readValue_render plain float readable [] nofun
  rw [append_nil] at read
  rw [fromStr, read]
  rfl

end

def get? (name : List Char) : Json → Option Json
  | .obj fields => (fields.find? fun field => field.1 = name).map snd
  | _ => none

theorem get?_insertField :
    get? other (.obj (insertField fields (name, item))) =
      if other = name then some item else get? other (.obj fields) := by
  have apart : other ≠ name → (((fields.map fun field => if field.1 = name then (name, item) else
      field).find? fun field => field.1 = other).map snd) =
      (fields.find? fun field => field.1 = other).map snd := by
    intro apart
    induction fields with
    | nil => rfl
    | cons field rest ih =>
      by_cases here : field.1 = name
      · simpa [here, apart.symm] using ih
      · by_cases found : field.1 = other
        · simp [found, apart]
        · simpa [here, found] using ih
  unfold get? insertField
  by_cases same : other = name
  · subst same
    rw [if_pos rfl]
    split_ifs with present
    · clear apart
      induction fields with
      | nil => simp at present
      | cons field rest ih =>
        by_cases here : field.1 = other
        · simp [here]
        · have later : other ∈ rest.map fst := by simpa [Ne.symm here] using present
          simpa [here] using ih later
    · have absent : fields.find? (fun field => field.1 = other) = none := by
        rw [List.find?_eq_none]
        intro field member found
        exact present (mem_map.mpr ⟨field, member, by simpa using found⟩)
      simp [absent]
  · split_ifs
    · exact apart same
    · simp [Ne.symm same]

def asStr : Json → Option (List Char)
  | .str text => some text
  | _ => none

def asU64 : Json → Option Nat
  | .num (.ofNat value) => if value < 2 ^ 64 then some value else none
  | _ => none

end AgentClaimNetwork.Library.Json
