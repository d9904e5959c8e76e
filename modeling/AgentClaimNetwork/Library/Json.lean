import Mathlib.Algebra.Group.Nat.Defs
import Mathlib.Algebra.Group.Int.Defs
import AgentClaimNetwork.Library.ByteSlice
import AgentClaimNetwork.Library.Utf8

/-!
Compact JSON text.  It is a prefix code: followed by anything that cannot continue a number, it
determines the value and where it ends.
-/

namespace AgentClaimNetwork.Library

open List Library.ByteSlice
open Nat (toDigits)

inductive Json
  | null
  | bool (value : Bool)
  | num (value : Int)
  | str (text : List Char)
  | arr (items : List Json)
  | obj (fields : List (List Char × Json))

namespace Json

def hexDigit (digit : Nat) : Char := Nat.digitChar digit

def escapeChar (character : Char) : List Char :=
  if character = '"' then ['\\', '"']
  else if character = '\\' then ['\\', '\\']
  else if character.toNat = 8 then ['\\', 'b']
  else if character = '\t' then ['\\', 't']
  else if character = '\n' then ['\\', 'n']
  else if character.toNat = 12 then ['\\', 'f']
  else if character = '\r' then ['\\', 'r']
  else if character.toNat < 32 then
    ['\\', 'u', '0', '0', hexDigit (character.toNat / 16), hexDigit (character.toNat % 16)]
  else [character]

def quote (text : List Char) : List Char := '"' :: (text.flatMap escapeChar ++ ['"'])

def renderNum : Int → List Char
  | .ofNat value => toDigits 10 value
  | .negSucc value => '-' :: toDigits 10 (value + 1)

mutual

def render : Json → List Char
  | .null => ['n', 'u', 'l', 'l']
  | .bool true => ['t', 'r', 'u', 'e']
  | .bool false => ['f', 'a', 'l', 's', 'e']
  | .num value => renderNum value
  | .str text => quote text
  | .arr [] => ['[', ']']
  | .arr (item :: items) => '[' :: (render item ++ renderItems items)
  | .obj [] => ['{', '}']
  | .obj ((key, value) :: fields) =>
    '{' :: (quote key ++ ':' :: (render value ++ renderFields fields))

def renderItems : List Json → List Char
  | [] => [']']
  | item :: items => ',' :: (render item ++ renderItems items)

def renderFields : List (List Char × Json) → List Char
  | [] => ['}']
  | (key, value) :: fields =>
    ',' :: (quote key ++ ':' :: (render value ++ renderFields fields))

end

def hexValue (character : Char) : Nat :=
  if character.toNat < 58 then character.toNat - 48 else character.toNat - 87

def unescape : List Char → Option (Char × List Char)
  | '\\' :: 'u' :: _ :: _ :: high :: low :: rest =>
    some (Char.ofNat (16 * hexValue high + hexValue low), rest)
  | '\\' :: 'b' :: rest => some (Char.ofNat 8, rest)
  | '\\' :: 't' :: rest => some ('\t', rest)
  | '\\' :: 'n' :: rest => some ('\n', rest)
  | '\\' :: 'f' :: rest => some (Char.ofNat 12, rest)
  | '\\' :: 'r' :: rest => some ('\r', rest)
  | '\\' :: character :: rest => some (character, rest)
  | character :: rest => some (character, rest)
  | [] => none

theorem hexValue_hexDigit : ∀ digit, digit < 16 → hexValue (hexDigit digit) = digit := by
  decide

theorem unescape_escapeChar (character : Char) (rest : List Char) :
    unescape (escapeChar character ++ rest) = some (character, rest) := by
  have identity := Char.ofNat_toNat character
  unfold escapeChar
  split_ifs with quoted backslash backspace tab newline formFeed carriage control
  · rw [quoted]
    rfl
  · rw [backslash]
    rfl
  · rw [← identity, backspace]
    rfl
  · rw [tab]
    rfl
  · rw [newline]
    rfl
  · rw [← identity, formFeed]
    rfl
  · rw [carriage]
    rfl
  · have high := hexValue_hexDigit (character.toNat / 16) (by omega)
    have low := hexValue_hexDigit (character.toNat % 16) (by omega)
    simp only [cons_append, nil_append, unescape, high, low]
    rw [show 16 * (character.toNat / 16) + character.toNat % 16 = character.toNat by omega,
      identity]
  · unfold unescape
    split <;> simp_all

theorem escapeChar_prefix (same : escapeChar left ++ afterLeft = escapeChar right ++ afterRight) :
    left = right ∧ afterLeft = afterRight := by
  have read := congrArg unescape same
  rw [unescape_escapeChar, unescape_escapeChar] at read
  exact Prod.mk.inj (Option.some.inj read)

theorem escapeChar_cases (character : Char) :
    (∃ letter, escapeChar character = ['\\', letter] ∧ letter ≠ '\n' ∧ letter.utf8Size = 1) ∨
    (∃ high low, high < 16 ∧ low < 16 ∧
      escapeChar character = ['\\', 'u', '0', '0', hexDigit high, hexDigit low]) ∨
    (escapeChar character = [character] ∧ character ≠ '\n' ∧ character ≠ '"') := by
  unfold escapeChar
  split_ifs with quoted backslash backspace tab newline formFeed carriage control
  iterate 7 exact .inl ⟨_, rfl, by decide, by decide⟩
  · exact .inr (.inl ⟨_, _, by omega, by omega, rfl⟩)
  · exact .inr (.inr ⟨rfl, newline, quoted⟩)

theorem escapeChar_head : ∃ first rest,
    escapeChar character = first :: rest ∧ first ≠ '"' := by
  rcases escapeChar_cases character with
    ⟨letter, shape, _⟩ | ⟨high, low, _, _, shape⟩ | ⟨shape, _, different⟩
  · exact ⟨_, _, shape, by decide⟩
  · exact ⟨_, _, shape, by decide⟩
  · exact ⟨_, _, shape, different⟩

theorem quote_prefix (same : quote left ++ afterLeft = quote right ++ afterRight) :
    left = right ∧ afterLeft = afterRight := by
  simp only [quote, cons_append, append_assoc, nil_append, List.cons.injEq,
    true_and] at same
  induction left generalizing right with
  | nil =>
    cases right with
    | nil => exact ⟨rfl, (List.cons.inj same).2⟩
    | cons character right =>
      obtain ⟨first, rest, shape, different⟩ := escapeChar_head
      rw [flatMap_cons, shape] at same
      exact absurd (List.cons.inj same).1.symm different
  | cons character left ih =>
    cases right with
    | nil =>
      obtain ⟨first, rest, shape, different⟩ := escapeChar_head
      rw [flatMap_cons, shape] at same
      exact absurd (List.cons.inj same).1 different
    | cons other right =>
      rw [flatMap_cons, flatMap_cons, append_assoc, append_assoc] at same
      obtain ⟨equal, rest⟩ := escapeChar_prefix same
      obtain ⟨texts, tails⟩ := ih rest
      exact ⟨by rw [equal, texts], tails⟩

def NoDigit (rest : List Char) : Prop := ∀ first ∈ rest.head?, first.isDigit = false

theorem takeWhile_digits (value : Nat) (stops : NoDigit rest) :
    (toDigits 10 value ++ rest).takeWhile Char.isDigit = toDigits 10 value := by
  have digits : ∀ character ∈ toDigits 10 value, character.isDigit = true :=
    fun _ member => Nat.isDigit_of_mem_toDigits (by decide) (by decide) member
  rw [takeWhile_append_of_pos digits]
  cases rest with
  | nil => simp
  | cons first rest =>
    have stopped := stops first (by simp)
    rw [takeWhile_cons_of_neg (by simp [stopped]), append_nil]

theorem digits_prefix (stopsLeft : NoDigit afterLeft) (stopsRight : NoDigit afterRight)
    (same : toDigits 10 left ++ afterLeft = toDigits 10 right ++ afterRight) :
    left = right ∧ afterLeft = afterRight := by
  have digits : toDigits 10 left = toDigits 10 right := by
    rw [← takeWhile_digits left stopsLeft, same, takeWhile_digits right stopsRight]
  have values := congrArg (fun text => Nat.ofDigitChars 10 text 0) digits
  simp only [Nat.ofDigitChars_ten_toDigits] at values
  refine ⟨values, ?_⟩
  rw [values] at same
  exact append_cancel_left same

theorem toDigits_head : ∃ first rest,
    toDigits 10 value = first :: rest ∧ first.isDigit = true := by
  cases shape : toDigits 10 value with
  | nil => exact absurd shape Nat.toDigits_ne_nil
  | cons first rest =>
    have member : first ∈ toDigits 10 value := by
      rw [shape]
      exact mem_cons_self
    exact ⟨first, rest, rfl, Nat.isDigit_of_mem_toDigits (by decide) (by decide) member⟩

theorem minus_ne_digits : '-' :: left ≠ toDigits 10 value ++ right := by
  obtain ⟨first, rest, shape, digit⟩ := toDigits_head
  rw [shape]
  intro same
  rw [← (List.cons.inj same).1] at digit
  exact absurd digit (by decide)

theorem renderNum_prefix (stopsLeft : NoDigit afterLeft) (stopsRight : NoDigit afterRight)
    (same : renderNum left ++ afterLeft = renderNum right ++ afterRight) :
    left = right ∧ afterLeft = afterRight := by
  cases left with
  | ofNat left =>
    cases right with
    | ofNat right =>
      obtain ⟨values, tails⟩ := digits_prefix stopsLeft stopsRight same
      exact ⟨by rw [values], tails⟩
    | negSucc right => exact absurd same.symm minus_ne_digits
  | negSucc left =>
    cases right with
    | ofNat right => exact absurd same minus_ne_digits
    | negSucc right =>
      obtain ⟨values, tails⟩ := digits_prefix stopsLeft stopsRight (List.cons.inj same).2
      exact ⟨by rw [Nat.succ.inj values], tails⟩

def kind : Json → Nat
  | .null => 0
  | .bool true => 1
  | .bool false => 2
  | .num _ => 3
  | .str _ => 4
  | .arr _ => 5
  | .obj _ => 6

def headKind (first : Char) : Nat :=
  if first = 'n' then 0 else if first = 't' then 1 else if first = 'f' then 2
  else if first = '"' then 4 else if first = '[' then 5 else if first = '{' then 6 else 3

theorem headKind_digit (digit : first.isDigit = true) : headKind first = 3 := by
  have different : ∀ other : Char, other.isDigit = false → first ≠ other := by
    intro other notDigit same
    rw [same, notDigit] at digit
    cases digit
  simp [headKind, different 'n' rfl, different 't' rfl, different 'f' rfl, different '"' rfl, different '[' rfl, different '{' rfl]

theorem render_head : ∃ first rest,
    render value = first :: rest ∧ headKind first = value.kind := by
  cases value with
  | null | str text => exact ⟨_, _, rfl, rfl⟩
  | bool value => cases value <;> exact ⟨_, _, rfl, rfl⟩
  | num value =>
    cases value with
    | ofNat value =>
      obtain ⟨first, rest, shape, digit⟩ := toDigits_head
      exact ⟨first, rest, shape, headKind_digit digit⟩
    | negSucc value => exact ⟨_, _, rfl, rfl⟩
  | arr items => cases items <;> exact ⟨_, _, rfl, rfl⟩
  | obj fields => cases fields <;> exact ⟨_, _, rfl, rfl⟩

theorem kind_eq_of_render (same : render left ++ afterLeft = render right ++ afterRight) :
    left.kind = right.kind := by
  obtain ⟨first, rest, shape, isKind⟩ := render_head
  obtain ⟨other, otherRest, otherShape, otherKind⟩ := render_head
  rw [shape, otherShape] at same
  rw [← isKind, ← otherKind, (List.cons.inj same).1]

theorem render_ne_bracket : render value ++ left ≠ ']' :: right := by
  obtain ⟨first, rest, shape, isKind⟩ := render_head
  rw [shape]
  intro same
  have bracket : first = ']' := (List.cons.inj same).1
  rw [bracket] at shape isKind
  cases value with
  | num value =>
    cases value with
    | ofNat value =>
      obtain ⟨digit, _, digits, isDigit⟩ := toDigits_head
      have equal : digit = ']' := (List.cons.inj (digits.symm.trans shape)).1
      rw [equal] at isDigit
      exact absurd isDigit (by decide)
    | negSucc value => exact absurd (List.cons.inj shape).1 (by decide)
  | bool value => cases value <;> exact absurd isKind (by decide)
  | null | str | arr | obj => exact absurd isKind (by simp [kind, headKind])

theorem renderItems_noDigit :
    NoDigit (renderItems items ++ rest) := by
  cases items with
  | nil | cons item items => simp [NoDigit, renderItems]

theorem renderFields_noDigit :
    NoDigit (renderFields fields ++ rest) := by
  cases fields with
  | nil | cons field fields => simp [NoDigit, renderFields]

mutual

theorem render_prefix
    (stopsLeft : NoDigit afterLeft) (stopsRight : NoDigit afterRight)
    (same : render left ++ afterLeft = render right ++ afterRight) :
    left = right ∧ afterLeft = afterRight := by
  have kinds := kind_eq_of_render same
  match left, right with
  | .null, .null | .bool true, .bool true | .bool false, .bool false | .arr [], .arr []
  | .obj [], .obj [] => exact ⟨rfl, append_cancel_left same⟩
  | .num left, .num right =>
    obtain ⟨values, tails⟩ := renderNum_prefix stopsLeft stopsRight same
    exact ⟨by rw [values], tails⟩
  | .str left, .str right =>
    obtain ⟨texts, tails⟩ := quote_prefix same
    exact ⟨by rw [texts], tails⟩
  | .arr [], .arr (item :: items) =>
    simp only [render, cons_append, append_assoc, nil_append] at same
    exact absurd (List.cons.inj same).2.symm render_ne_bracket
  | .arr (item :: items), .arr [] =>
    simp only [render, cons_append, append_assoc, nil_append] at same
    exact absurd (List.cons.inj same).2 render_ne_bracket
  | .arr (item :: items), .arr (other :: others) =>
    simp only [render, cons_append, append_assoc] at same
    obtain ⟨values, rest⟩ := render_prefix renderItems_noDigit
      renderItems_noDigit (List.cons.inj same).2
    obtain ⟨lists, tails⟩ := renderItems_prefix rest
    exact ⟨by rw [values, lists], tails⟩
  | .obj [], .obj (_ :: _) | .obj (_ :: _), .obj [] => simp [render, quote] at same
  | .obj ((key, value) :: fields), .obj ((otherKey, other) :: others) =>
    simp only [render, cons_append, append_assoc] at same
    obtain ⟨keys, afterKeys⟩ := quote_prefix (List.cons.inj same).2
    obtain ⟨values, rest⟩ := render_prefix renderFields_noDigit
      renderFields_noDigit (List.cons.inj afterKeys).2
    obtain ⟨lists, tails⟩ := renderFields_prefix fields others rest
    exact ⟨by rw [keys, values, lists], tails⟩

theorem renderItems_prefix
    (same : renderItems left ++ afterLeft = renderItems right ++ afterRight) :
    left = right ∧ afterLeft = afterRight := by
  match left, right with
  | [], [] => exact ⟨rfl, append_cancel_left same⟩
  | [], _ :: _ | _ :: _, [] => simp [renderItems] at same
  | item :: items, other :: others =>
    simp only [renderItems, cons_append, append_assoc] at same
    obtain ⟨values, rest⟩ := render_prefix renderItems_noDigit
      renderItems_noDigit (List.cons.inj same).2
    obtain ⟨lists, tails⟩ := renderItems_prefix rest
    exact ⟨by rw [values, lists], tails⟩

theorem renderFields_prefix (left right : List (List Char × Json))
    (same : renderFields left ++ afterLeft = renderFields right ++ afterRight) :
    left = right ∧ afterLeft = afterRight := by
  match left, right with
  | [], [] => exact ⟨rfl, append_cancel_left same⟩
  | [], _ :: _ | _ :: _, [] => simp [renderFields] at same
  | (key, value) :: fields, (otherKey, other) :: others =>
    simp only [renderFields, cons_append, append_assoc] at same
    obtain ⟨keys, afterKeys⟩ := quote_prefix (List.cons.inj same).2
    obtain ⟨values, rest⟩ := render_prefix renderFields_noDigit
      renderFields_noDigit (List.cons.inj afterKeys).2
    obtain ⟨lists, tails⟩ := renderFields_prefix fields others rest
    exact ⟨by rw [keys, values, lists], tails⟩

end

theorem render_obj_prefix
    (same : render (.obj left) ++ afterLeft = render (.obj right) ++ afterRight) :
    left = right ∧ afterLeft = afterRight := by
  match left, right with
  | [], [] => exact ⟨rfl, append_cancel_left same⟩
  | [], _ :: _ | _ :: _, [] => simp [render, quote] at same
  | (key, value) :: fields, (otherKey, other) :: others =>
    apply renderFields_prefix
    simp only [render, renderFields, cons_append] at same ⊢
    rw [(List.cons.inj same).2]

theorem printable_of_all {text : List Char}
    (checked : (text.all fun written => 32 ≤ written.toNat) = true) :
    ∀ written ∈ text, 32 ≤ written.toNat := by
  simpa using checked

theorem hexDigit_printable : ∀ digit, digit < 16 → 32 ≤ (hexDigit digit).toNat := by decide

theorem escapeChar_printable :
    ∀ written ∈ escapeChar character, 32 ≤ written.toNat := by
  unfold escapeChar
  split_ifs with quoted backslash backspace tab newline formFeed carriage control
  iterate 7 exact printable_of_all (by decide)
  · have high := hexDigit_printable (character.toNat / 16) (by omega)
    have low := hexDigit_printable (character.toNat % 16) (by omega)
    simp [high, low]
  · simp only [mem_singleton, forall_eq]
    omega

theorem quote_printable : ∀ written ∈ quote text, 32 ≤ written.toNat := by
  intro written member
  simp only [quote, mem_cons, mem_append, mem_flatMap, not_mem_nil,
    or_false] at member
  rcases member with rfl | ⟨character, _, found⟩ | rfl
  · decide
  · exact escapeChar_printable written found
  · decide

theorem digits_printable : ∀ written ∈ toDigits 10 value, 32 ≤ written.toNat := by
  intro written member
  have digit := Nat.isDigit_of_mem_toDigits (by decide) (by decide) member
  simp only [Char.isDigit, Bool.and_eq_true, decide_eq_true_eq] at digit
  have bound : (48 : Nat) ≤ written.toNat := digit.1
  omega

theorem renderNum_printable : ∀ written ∈ renderNum value, 32 ≤ written.toNat := by
  cases value with
  | ofNat value => exact digits_printable
  | negSucc value => exact forall_mem_cons.mpr ⟨by decide, digits_printable⟩

mutual

theorem render_printable : ∀ written ∈ render value, 32 ≤ written.toNat := by
  match value with
  | .null | .bool true | .bool false | .arr [] | .obj [] => exact printable_of_all (by decide)
  | .num value => exact renderNum_printable
  | .str text => exact quote_printable
  | .arr (item :: items) =>
    rw [render, forall_mem_cons, forall_mem_append]
    exact ⟨by decide, render_printable, renderItems_printable⟩
  | .obj ((key, value) :: fields) =>
    rw [render, forall_mem_cons, forall_mem_append, forall_mem_cons,
      forall_mem_append]
    exact ⟨by decide, quote_printable, by decide, render_printable,
      renderFields_printable⟩

theorem renderItems_printable :
    ∀ written ∈ renderItems items, 32 ≤ written.toNat := by
  match items with
  | [] => exact printable_of_all (by decide)
  | item :: items =>
    rw [renderItems, forall_mem_cons, forall_mem_append]
    exact ⟨by decide, render_printable, renderItems_printable⟩

theorem renderFields_printable :
    ∀ written ∈ renderFields fields, 32 ≤ written.toNat := by
  match fields with
  | [] => exact printable_of_all (by decide)
  | (key, value) :: fields =>
    rw [renderFields, forall_mem_cons, forall_mem_append, forall_mem_cons,
      forall_mem_append]
    exact ⟨by decide, quote_printable, by decide, render_printable,
      renderFields_printable⟩

end

def optionalField (key : List Char) : Option Json → List (List Char × Json)
  | some value => [(key, value)]
  | none => []

theorem length_encode (text : List Char) : (Utf8.encode text).length = byteLen text := by
  induction text with
  | nil => rfl
  | cons character text ih => rw [Utf8.encode_cons, length_append, ih, byteLen_cons,
      String.length_utf8EncodeChar]

theorem byteLen_escapeChar (character : Char) : byteLen (escapeChar character) ≤ 6 := by
  have ascii : ∀ digit, digit < 16 → (hexDigit digit).utf8Size = 1 := by decide
  have backslash : ('\\').utf8Size = 1 := by decide
  rcases escapeChar_cases character with
    ⟨letter, shape, _, short⟩ | ⟨high, low, highSmall, lowSmall, shape⟩ | ⟨shape, _⟩
  · simp only [shape, byteLen_cons, byteLen_nil, backslash, short]
    omega
  · have marks : ('u').utf8Size = 1 ∧ ('0').utf8Size = 1 := by decide
    simp only [shape, byteLen_cons, byteLen_nil, backslash, marks, ascii high highSmall,
      ascii low lowSmall]
    omega
  · have small := Char.utf8Size_le_four character
    simp only [shape, byteLen_cons, byteLen_nil]
    omega

theorem byteLen_quote (text : List Char) : byteLen (quote text) ≤ 6 * text.length + 2 := by
  have body : byteLen (text.flatMap escapeChar) ≤ 6 * text.length := by
    induction text with
    | nil => simp
    | cons character text ih =>
      have first := byteLen_escapeChar character
      rw [flatMap_cons, byteLen_append, length_cons]
      omega
  have mark : ('"').utf8Size = 1 := by decide
  simp only [quote, byteLen_cons, byteLen_append, byteLen_nil, mark]
  omega

theorem byteLen_ascii (ascii : ∀ character ∈ text, character.utf8Size = 1) :
    byteLen text = text.length := by
  induction text with
  | nil => rfl
  | cons character text ih =>
    rw [byteLen_cons, ascii character (by simp),
      ih (fun other member => ascii other (by simp [member])), length_cons, Nat.add_comm]

theorem byteLen_digits (value : Nat) :
    byteLen (toDigits 10 value) = (toDigits 10 value).length := by
  apply byteLen_ascii
  intro character member
  have digit := Nat.isDigit_of_mem_toDigits (by decide) (by decide) member
  rw [Char.utf8Size_eq_one_iff]
  simp only [Char.isDigit, Bool.and_eq_true, decide_eq_true_eq] at digit
  exact UInt32.le_trans digit.2 (by decide)

mutual

def size : Json → Nat
  | .null => 4
  | .bool _ => 5
  | .num value => (toDigits 10 value.natAbs).length + 1
  | .str text => 6 * text.length + 2
  | .arr items => sizeItems items + 2
  | .obj fields => sizeFields fields + 2

def sizeItems : List Json → Nat
  | [] => 0
  | item :: items => size item + 1 + sizeItems items

def sizeFields : List (List Char × Json) → Nat
  | [] => 0
  | (key, value) :: fields => 6 * key.length + 4 + size value + sizeFields fields

end

theorem ascii_punctuation : ∀ character ∈ ['[', ']', '{', '}', ',', ':', '-'],
    character.utf8Size = 1 := by
  intro character member
  have checked : (['[', ']', '{', '}', ',', ':', '-'].all fun character =>
      character.utf8Size = 1) = true := by decide
  exact of_decide_eq_true (all_eq_true.mp checked character member)

theorem byteLen_renderNum (value : Int) : byteLen (renderNum value) ≤ size (.num value) := by
  cases value with
  | ofNat value =>
    rw [renderNum, byteLen_digits]
    exact Nat.le_succ _
  | negSucc value =>
    rw [renderNum, byteLen_cons, byteLen_digits, ascii_punctuation '-' (by simp),
      Nat.add_comm]
    exact Nat.le_refl _

mutual

theorem byteLen_render (value : Json) : byteLen (render value) ≤ size value := by
  match value with
  | .null => decide
  | .bool true => decide
  | .bool false => decide
  | .num value => exact byteLen_renderNum value
  | .str text => exact byteLen_quote text
  | .arr [] => decide
  | .arr (item :: items) =>
    have first := byteLen_render item
    have others := byteLen_renderItems items
    simp only [render, byteLen_cons, byteLen_append, size, sizeItems,
      ascii_punctuation '[' (by simp)]
    omega
  | .obj [] => decide
  | .obj ((key, value) :: fields) =>
    have named := byteLen_quote key
    have first := byteLen_render value
    have others := byteLen_renderFields fields
    simp only [render, byteLen_cons, byteLen_append, size, sizeFields,
      ascii_punctuation '{' (by simp), ascii_punctuation ':' (by simp)]
    omega

theorem byteLen_renderItems (items : List Json) :
    byteLen (renderItems items) ≤ sizeItems items + 1 := by
  match items with
  | [] => decide
  | item :: items =>
    have first := byteLen_render item
    have others := byteLen_renderItems items
    simp only [renderItems, byteLen_cons, byteLen_append, sizeItems,
      ascii_punctuation ',' (by simp)]
    omega

theorem byteLen_renderFields (fields : List (List Char × Json)) :
    byteLen (renderFields fields) ≤ sizeFields fields + 1 := by
  match fields with
  | [] => decide
  | (key, value) :: fields =>
    have named := byteLen_quote key
    have first := byteLen_render value
    have others := byteLen_renderFields fields
    simp only [renderFields, byteLen_cons, byteLen_append, sizeFields,
      ascii_punctuation ',' (by simp), ascii_punctuation ':' (by simp)]
    omega

end

end Json

end AgentClaimNetwork.Library
