import AgentClaimNetwork.Library.JsonReader

/-!
Reading JSON only takes from the front of the text, and no string that is read is longer than
the text it stands in.
-/

namespace AgentClaimNetwork.Library.Json

open List
open Option (bind_eq_bind bind_eq_some_iff)

variable {text rest : List Char}

theorem readHex_length (read : readHex text = some (code, rest)) : rest.length < text.length := by
  unfold readHex at read
  split at read
  · obtain ⟨_, _, read⟩ := bind_eq_some_iff.mp read
    obtain ⟨_, _, read⟩ := bind_eq_some_iff.mp read
    obtain ⟨_, _, read⟩ := bind_eq_some_iff.mp read
    obtain ⟨_, _, same⟩ := bind_eq_some_iff.mp read
    obtain ⟨-, rfl⟩ := Prod.mk.inj (Option.some.inj same)
    simp only [length_cons]
    omega
  · cases read

theorem readTrailing_length (read : readTrailing leading text = some (character, rest)) :
    rest.length < text.length := by
  unfold readTrailing at read
  split at read
  · simp only [bind_eq_bind, bind_eq_some_iff] at read
    obtain ⟨⟨code, after⟩, hex, same⟩ := read
    have shorter := readHex_length hex
    split_ifs at same
    obtain ⟨-, rfl⟩ := Prod.mk.inj (Option.some.inj same)
    simp only [length_cons]
    omega
  · cases read

theorem readEscape_length (read : readEscape text = some (character, rest)) :
    rest.length < text.length := by
  unfold readEscape at read
  split at read
  iterate 8
    cases read
    simp
  · simp only [bind_eq_bind, bind_eq_some_iff] at read
    obtain ⟨⟨code, after⟩, hex, same⟩ := read
    have shorter := readHex_length hex
    dsimp only at same
    simp only [length_cons]
    split_ifs at same
    · have further := readTrailing_length same
      omega
    · cases same
      omega
  · cases read

theorem readChars_length {text characters rest : List Char}
    (read : readChars fuel text = some (characters, rest)) :
    characters.length + rest.length < text.length := by
  induction fuel generalizing text characters with
  | zero => cases read
  | succ fuel ih =>
    cases text with
    | nil => cases read
    | cons first others =>
      simp only [readChars, bind_eq_bind] at read
      split_ifs at read
      · cases read
        simp
      · obtain ⟨⟨character, after⟩, escape, read⟩ := bind_eq_some_iff.mp read
        obtain ⟨⟨later, last⟩, inner, same⟩ := bind_eq_some_iff.mp read
        cases same
        have shorter := readEscape_length escape
        have bound := ih inner
        simp only [length_cons] at bound ⊢
        omega
      · obtain ⟨⟨later, last⟩, inner, same⟩ := bind_eq_some_iff.mp read
        cases same
        have bound := ih inner
        simp only [length_cons] at bound ⊢
        omega

theorem skipSpace_length (text : List Char) : (skipSpace text).length ≤ text.length :=
  (dropWhile_sublist _).length_le

theorem readDigits_length (text : List Char) : (readDigits text).2.length ≤ text.length :=
  (dropWhile_sublist _).length_le

theorem readWhole_length {text digits rest : List Char}
    (read : readWhole text = some (digits, rest)) : rest.length ≤ text.length := by
  have bound := readDigits_length text
  unfold readWhole at read
  split at read
  · cases read
  · cases read
  · rename_i shape
    cases read
    rw [shape] at bound
    exact bound

theorem readFraction_length {text digits rest : List Char}
    (read : readFraction text = some (digits, rest)) : rest.length ≤ text.length := by
  unfold readFraction at read
  split at read
  · rename_i after
    have bound := readDigits_length after
    split at read
    · cases read
    · rename_i shape
      cases read
      rw [shape] at bound
      exact Nat.le_succ_of_le bound
  · cases read
    exact Nat.le_refl _

theorem readPower_length {sign text digits rest : List Char}
    (read : readPower sign text = some (digits, rest)) : rest.length ≤ text.length := by
  have bound := readDigits_length text
  unfold readPower at read
  split at read
  · cases read
  · rename_i shape
    cases read
    rw [shape] at bound
    exact bound

theorem readExponent_length {text digits rest : List Char}
    (read : readExponent text = some (digits, rest)) : rest.length ≤ text.length := by
  unfold readExponent at read
  split at read
  · split_ifs at read
    · simp only [length_cons]
      split at read
      · have bound := readPower_length read
        simp only [length_cons]
        omega
      · have bound := readPower_length read
        simp only [length_cons]
        omega
      · have bound := readPower_length read
        omega
    · cases read
      exact Nat.le_refl _
  · cases read
    exact Nat.le_refl _

variable {item : Json}

theorem readMagnitude_length (read : readMagnitude float negative text = some (item, rest)) :
    rest.length ≤ text.length ∧ ∃ value, item = .num value := by
  simp only [readMagnitude, bind_eq_bind, bind_eq_some_iff] at read
  obtain ⟨⟨digits, first⟩, whole, ⟨fraction, second⟩, point, ⟨exponent, third⟩, power, read⟩ := read
  have one := readWhole_length whole
  have two := readFraction_length point
  have three := readExponent_length power
  dsimp only at one two three read
  have bound : third.length ≤ text.length := by omega
  by_cases whole : fraction = [] ∧ exponent = [] ∧
      inRange (signed negative (Nat.ofDigitChars 10 digits 0)) = true ∧
        ¬ (negative = true ∧ signed negative (Nat.ofDigitChars 10 digits 0) = 0)
  · rw [if_pos whole] at read
    cases read
    exact ⟨bound, _, rfl⟩
  · rw [if_neg whole] at read
    obtain ⟨value, _, same⟩ := bind_eq_some_iff.mp read
    cases same
    exact ⟨bound, value, rfl⟩

theorem readNumber_length (read : readNumber float text = some (item, rest)) :
    rest.length ≤ text.length ∧ ∃ value, item = .num value := by
  unfold readNumber at read
  split at read
  · obtain ⟨bound, isNumber⟩ := readMagnitude_length read
    exact ⟨Nat.le_succ_of_le bound, isNumber⟩
  · exact readMagnitude_length read

structure Shortens (text : List Char) (item : Json) (rest : List Char) : Prop where
  rest : rest.length ≤ text.length
  string : ∀ characters, item = .str characters → characters.length ≤ text.length
  field : ∀ name characters, item.get? name = some (.str characters) →
    characters.length ≤ text.length

theorem Shortens.longer {text shorter rest : List Char}
    (shortens : Shortens shorter item rest) (bound : shorter.length ≤ text.length) :
    Shortens text item rest where
  rest := Nat.le_trans shortens.rest bound
  string characters same := Nat.le_trans (shortens.string characters same) bound
  field name characters found := Nat.le_trans (shortens.field name characters found) bound

theorem insertField_mem (member : other ∈ insertField fields field) :
    other = field ∨ other ∈ fields := by
  unfold insertField at member
  split_ifs at member
  · obtain ⟨before, isBefore, rfl⟩ := mem_map.mp member
    split_ifs
    · exact .inl rfl
    · exact .inr isBefore
  · rcases mem_concat member with before | last
    · exact .inr before
    · exact .inl last

theorem foldl_insertField_mem {fields before : List (List Char × Json)}
    (member : other ∈ fields.foldl insertField before) : other ∈ fields ∨ other ∈ before := by
  induction fields generalizing before with
  | nil => exact .inr member
  | cons field rest ih =>
    rcases ih member with later | inserted
    · exact .inl (mem_cons_of_mem _ later)
    · rcases insertField_mem inserted with rfl | old
      · exact .inl mem_cons_self
      · exact .inr old

section

variable {value : List Char → Option (Json × List Char)}
  (shortens : ∀ {text item rest}, value text = some (item, rest) → Shortens text item rest)

include shortens
theorem readItems_length (read : readItems value fuel text = some (items, rest)) :
    rest.length ≤ text.length := by
  induction fuel generalizing text items with
  | zero => cases read
  | succ fuel ih =>
    obtain ⟨⟨item, after⟩, first, read⟩ := bind_eq_some_iff.mp read
    have bound := (shortens first).rest
    have skipped := skipSpace_length after
    dsimp only at read
    split at read
    · rename_i shape
      obtain ⟨⟨later, last⟩, inner, same⟩ := bind_eq_some_iff.mp read
      cases same
      have further := ih inner
      rw [shape, length_cons] at skipped
      omega
    · rename_i shape
      cases read
      rw [shape, length_cons] at skipped
      omega
    · cases read

omit shortens in
theorem readKey_length {text key rest : List Char} (read : readKey text = some (key, rest)) :
    rest.length ≤ text.length := by
  have skipped := skipSpace_length text
  unfold readKey at read
  split at read
  · rename_i shape
    obtain ⟨⟨name, after⟩, string, read⟩ := bind_eq_some_iff.mp read
    have bound := readChars_length string
    have again := skipSpace_length after
    dsimp only at read
    split at read
    · rename_i colon
      cases read
      rw [shape, length_cons] at skipped
      rw [colon, length_cons] at again
      omega
    · cases read
  · cases read

theorem readFields_length (read : readFields value fuel text = some (fields, rest)) :
    rest.length ≤ text.length ∧ ∀ field ∈ fields, ∀ characters, field.2 = .str characters →
      characters.length ≤ text.length := by
  induction fuel generalizing text fields with
  | zero => cases read
  | succ fuel ih =>
    obtain ⟨⟨key, behind⟩, named, read⟩ := bind_eq_some_iff.mp read
    obtain ⟨⟨item, after⟩, first, read⟩ := bind_eq_some_iff.mp read
    have keyed := readKey_length named
    have bound := (shortens first).rest
    have string := (shortens first).string
    have skipped := skipSpace_length after
    dsimp only at read bound string
    split at read
    · rename_i shape
      obtain ⟨⟨later, last⟩, inner, same⟩ := bind_eq_some_iff.mp read
      cases same
      obtain ⟨further, others⟩ := ih inner
      rw [shape, length_cons] at skipped
      refine ⟨by omega, ?_⟩
      intro field member characters same
      rcases mem_cons.mp member with rfl | later
      · exact Nat.le_trans (string characters same) keyed
      · have inText := others field later characters same
        omega
    · rename_i shape
      cases read
      rw [shape, length_cons] at skipped
      refine ⟨by omega, ?_⟩
      intro field member characters same
      obtain rfl := mem_singleton.mp member
      exact Nat.le_trans (string characters same) keyed
    · cases read

theorem readArray_shortens {item : Json}
    (read : readArray value text = some (item, rest)) : Shortens text item rest := by
  have skipped := skipSpace_length text
  unfold readArray at read
  split at read
  · rename_i shape
    cases read
    rw [shape, length_cons] at skipped
    exact ⟨by omega, nofun, nofun⟩
  · obtain ⟨⟨items, after⟩, inner, same⟩ := bind_eq_some_iff.mp read
    cases same
    exact ⟨Nat.le_trans (readItems_length shortens inner) skipped, nofun, nofun⟩

theorem readObject_shortens {item : Json}
    (read : readObject value text = some (item, rest)) : Shortens text item rest := by
  have skipped := skipSpace_length text
  unfold readObject at read
  split at read
  · rename_i shape
    cases read
    rw [shape, length_cons] at skipped
    exact ⟨by omega, nofun, nofun⟩
  · obtain ⟨⟨fields, after⟩, inner, same⟩ := bind_eq_some_iff.mp read
    cases same
    obtain ⟨bound, strings⟩ := readFields_length shortens inner
    refine ⟨Nat.le_trans bound skipped, nofun, ?_⟩
    intro name characters found
    obtain ⟨field, isField, same⟩ := Option.map_eq_some_iff.mp found
    have member : field ∈ fields := by
      rcases foldl_insertField_mem (List.mem_of_find?_eq_some isField) with listed | impossible
      · exact listed
      · cases impossible
    exact Nat.le_trans (strings field member characters same) skipped

end

theorem readNumber_shortens
    (read : readNumber float text = some (item, rest)) : Shortens text item rest := by
  obtain ⟨bound, value, rfl⟩ := readNumber_length read
  exact ⟨bound, nofun, nofun⟩

theorem readString_shortens {text characters rest : List Char}
    (read : readString text = some (characters, rest)) :
    Shortens text (.str characters) rest := by
  have bound := readChars_length read
  refine ⟨by omega, ?_, nofun⟩
  rintro other ⟨⟩
  omega

theorem readValue_shortens (read : readValue float depth text = some (item, rest)) :
    Shortens text item rest := by
  have skipped := skipSpace_length text
  induction depth generalizing text item rest with
  | zero =>
    unfold readValue at read
    split at read
    iterate 3
      rename_i shape
      cases read
      rw [shape] at skipped
      simp only [length_cons] at skipped
      exact ⟨by omega, nofun, nofun⟩
    · rename_i shape
      obtain ⟨⟨characters, after⟩, string, same⟩ := bind_eq_some_iff.mp read
      cases same
      rw [shape, length_cons] at skipped
      exact (readString_shortens string).longer (by omega)
    · cases read
    · cases read
    · exact (readNumber_shortens read).longer skipped
  | succ depth ih =>
    have inner : ∀ {text item rest}, readValue float depth text = some (item, rest) →
        Shortens text item rest := fun read => ih read (skipSpace_length _)
    unfold readValue at read
    split at read
    iterate 3
      rename_i shape
      cases read
      rw [shape] at skipped
      simp only [length_cons] at skipped
      exact ⟨by omega, nofun, nofun⟩
    · rename_i shape
      obtain ⟨⟨characters, after⟩, string, same⟩ := bind_eq_some_iff.mp read
      cases same
      rw [shape, length_cons] at skipped
      exact (readString_shortens string).longer (by omega)
    · rename_i shape
      rw [shape, length_cons] at skipped
      exact (readArray_shortens inner read).longer (by omega)
    · rename_i shape
      rw [shape, length_cons] at skipped
      exact (readObject_shortens inner read).longer (by omega)
    · exact (readNumber_shortens read).longer skipped

theorem fromStr_field_length {text name characters : List Char}
    (read : fromStr float text = some item) (found : item.get? name = some (.str characters)) :
    characters.length ≤ text.length := by
  unfold fromStr at read
  split at read
  · rename_i value rest inner
    split_ifs at read
    cases read
    exact (readValue_shortens inner).field name characters found
  · cases read

end AgentClaimNetwork.Library.Json
