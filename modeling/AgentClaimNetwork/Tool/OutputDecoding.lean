import AgentClaimNetwork.Tool.BoundedOutput
import Mathlib.Data.List.Induction

/-!
The decoding of a stream that arrives in pieces: however it is cut, the buffer is given the
characters of the lossy decoding of the whole.
-/

namespace AgentClaimNetwork.Tool

open Library Utf8 List

section

def Utf8Front.Means (state : Option Pending) (bytes : List UInt8) : Utf8Front → Prop
  | character value rest =>
    run state bytes = (some value :: (run none rest).1, (run none rest).2)
  | illFormed _ rest => run state bytes = (none :: (run none rest).1, (run none rest).2)
  | unfinished => (run state bytes).1 = [] ∧ (run state bytes).2.isSome = true

theorem continued_means (pending : Pending) (width : Nat) (bytes : List UInt8) :
    (Utf8Front.continued pending width bytes).Means (some pending) bytes := by
  induction bytes generalizing pending width with
  | nil => exact ⟨rfl, rfl⟩
  | cons byte rest ih =>
    unfold Utf8Front.continued
    by_cases inRange : pending.low ≤ byte.toNat ∧ byte.toNat ≤ pending.high
    · by_cases last : pending.owed = 1
      · simp [inRange, last, Utf8Front.Means, run, feed]
      · have later := ih ⟨pending.owed - 1, 0x80, 0xBF,
          pending.value * 64 + (byte.toNat - 0x80)⟩ (width + 1)
        have first : run (some pending) (byte :: rest) = run (some ⟨pending.owed - 1, 0x80, 0xBF,
            pending.value * 64 + (byte.toNat - 0x80)⟩) rest := by
          simp [run, feed, inRange, last]
        simp only [if_pos inRange, if_neg last]
        unfold Utf8Front.Means at later ⊢
        rw [first]
        exact later
    · simp [inRange, Utf8Front.Means, run, feed]

theorem front_cons (byte : UInt8) (rest : List UInt8) : Utf8Front.of (byte :: rest) =
    if byte.toNat < 0x80 then .character (Char.ofNat byte.toNat) rest
    else match lead byte.toNat with
      | some pending => .continued pending 1 rest
      | none => .illFormed 1 rest := rfl

theorem front_means {bytes : List UInt8} (nonempty : bytes ≠ []) :
    (Utf8Front.of bytes).Means none bytes := by
  cases bytes with
  | nil => exact absurd rfl nonempty
  | cons byte rest =>
    rw [front_cons]
    by_cases ascii : byte.toNat < 0x80
    · simp [ascii, Utf8Front.Means, run, feed, start]
    · rw [if_neg ascii]
      cases leads : lead byte.toNat with
      | none => simp [Utf8Front.Means, run, feed, start, ascii, leads]
      | some pending =>
        have later := continued_means pending 1 rest
        have first : run none (byte :: rest) = run (some pending) rest := by
          simp [run, feed, start, ascii, leads]
        unfold Utf8Front.Means at later ⊢
        rw [first]
        exact later

variable {bytes rest : List UInt8}

theorem continued_illFormed
    (ill : Utf8Front.continued pending width bytes = .illFormed found rest) :
    width ≤ found ∧ rest = bytes.drop (found - width) := by
  induction bytes generalizing pending width with
  | nil => cases ill
  | cons byte others ih =>
    unfold Utf8Front.continued at ill
    split_ifs at ill
    · obtain ⟨wider, same⟩ := ih ill
      refine ⟨by omega, ?_⟩
      rw [same, show found - width = found - (width + 1) + 1 by omega, drop_succ_cons]
    · cases ill
      simp

theorem front_illFormed (ill : Utf8Front.of bytes = .illFormed width rest) :
    0 < width ∧ rest = bytes.drop width := by
  cases bytes with
  | nil => cases ill
  | cons byte others =>
    rw [front_cons] at ill
    split_ifs at ill
    split at ill
    · obtain ⟨wider, same⟩ := continued_illFormed ill
      obtain ⟨more, rfl⟩ := Nat.exists_eq_add_of_le wider
      refine ⟨by omega, ?_⟩
      rw [same, Nat.add_comm 1 more, drop_succ_cons, Nat.add_sub_cancel]
    · cases ill
      exact ⟨Nat.one_pos, rfl⟩

theorem continued_character
    (read : Utf8Front.continued pending width bytes = .character value rest) :
    ∃ piece, bytes = piece ++ rest ∧
      ∀ more, Utf8Front.continued pending width (piece ++ more) = .character value more := by
  induction bytes generalizing pending width with
  | nil => cases read
  | cons byte others ih =>
    unfold Utf8Front.continued at read
    split_ifs at read with inRange last
    · obtain ⟨rfl, rfl⟩ := Utf8Front.character.inj read
      refine ⟨[byte], rfl, fun more => ?_⟩
      rw [cons_append, nil_append, Utf8Front.continued, if_pos inRange, if_pos last]
    · obtain ⟨piece, rfl, again⟩ := ih read
      refine ⟨byte :: piece, rfl, fun more => ?_⟩
      rw [cons_append, Utf8Front.continued, if_pos inRange, if_neg last, again]

theorem front_character (read : Utf8Front.of bytes = .character value rest) :
    ∃ first piece, bytes = first :: piece ++ rest ∧
      ∀ more, Utf8Front.of (first :: piece ++ more) = .character value more := by
  cases bytes with
  | nil => cases read
  | cons byte others =>
    rw [front_cons] at read
    split_ifs at read with ascii
    · cases read
      refine ⟨byte, [], rfl, fun more => ?_⟩
      rw [cons_append, front_cons, if_pos ascii, nil_append]
    · split at read
      · rename_i pending leads
        obtain ⟨piece, rfl, again⟩ := continued_character read
        refine ⟨byte, piece, rfl, fun more => ?_⟩
        rw [cons_append, front_cons, if_neg ascii, leads]
        exact again more
      · cases read

end
variable {text : List Char}

section

inductive Decoded : List UInt8 → List Char → List UInt8 → Prop
  | nil (bytes) : Decoded bytes [] bytes
  | cons {bytes rest last value text} : Utf8Front.of bytes = .character value rest →
      Decoded rest text last → Decoded bytes (value :: text) last

variable {bytes rest : List UInt8}

theorem Decoded.run (decoded : Decoded bytes text rest) :
    run none bytes = (text.map some ++ (run none rest).1, (run none rest).2) := by
  induction decoded with
  | nil => rfl
  | @cons bytes rest last value text front _ ih =>
    have nonempty : bytes ≠ [] := by
      rintro rfl
      cases front
    have means := front_means nonempty
    rw [front] at means
    exact means.trans (by rw [ih]; rfl)

theorem Decoded.alone (decoded : Decoded bytes text rest) :
    ∃ piece, bytes = piece ++ rest ∧ (piece = [] → text = []) ∧
      ∀ fuel, piece.length ≤ fuel → fromUtf8Within fuel piece = .ok text := by
  induction decoded with
  | nil bytes => exact ⟨[], rfl, fun _ => rfl, fun fuel _ => by cases fuel <;> rfl⟩
  | cons front _ ih =>
    obtain ⟨piece, rfl, _, reads⟩ := ih
    obtain ⟨first, own, rfl, again⟩ := front_character front
    refine ⟨first :: own ++ piece, by simp, nofun, fun fuel enough => ?_⟩
    simp only [length_append, length_cons] at enough
    obtain ⟨fuel, rfl⟩ := Nat.exists_eq_succ_of_ne_zero (by omega : fuel ≠ 0)
    have step : fromUtf8Within (fuel + 1) (first :: own ++ piece) =
        match Utf8Front.of (first :: own ++ piece) with
        | .character value rest => (fromUtf8Within fuel rest).after value
            ((first :: own ++ piece).length - rest.length)
        | .illFormed width _ => .error 0 (some width)
        | .unfinished => .error 0 none := rfl
    rw [Nat.succ_eq_add_one, step, again]
    simp only [reads fuel (by omega), FromUtf8.after]

/-- What the result of `str::from_utf8` tells. -/
def FromUtf8.Reports (bytes : List UInt8) : FromUtf8 → Prop
  | ok text => Decoded bytes text []
  | error validUpTo errorLen => ∃ text rest, Decoded bytes text rest ∧ rest ≠ [] ∧
      bytes.length = validUpTo + rest.length ∧
      match errorLen with
      | none => Utf8Front.of rest = .unfinished
      | some width => ∃ behind, Utf8Front.of rest = .illFormed width behind

theorem fromUtf8Within_reports {bytes : List UInt8} (enough : bytes.length ≤ fuel) :
    (fromUtf8Within fuel bytes).Reports bytes := by
  induction fuel generalizing bytes with
  | zero =>
    obtain rfl := length_eq_zero_iff.mp (Nat.le_zero.mp enough)
    exact Decoded.nil []
  | succ fuel ih =>
    cases bytes with
    | nil => exact Decoded.nil []
    | cons byte others =>
      unfold fromUtf8Within
      cases front : Utf8Front.of (byte :: others) with
      | unfinished => exact ⟨[], _, Decoded.nil _, nofun, by simp, front⟩
      | illFormed width rest => exact ⟨[], _, Decoded.nil _, nofun, by simp, rest, front⟩
      | character value rest =>
        obtain ⟨first, piece, shape, _⟩ := front_character front
        have lengths := congrArg List.length shape
        simp only [length_append, length_cons] at lengths enough
        have reports := @ih rest (by omega)
        dsimp only
        cases result : fromUtf8Within fuel rest with
        | ok text =>
          rw [result] at reports
          exact Decoded.cons front reports
        | error validUpTo errorLen =>
          rw [result] at reports
          obtain ⟨text, last, decoded, nonempty, length, stopped⟩ := reports
          refine ⟨value :: text, last, Decoded.cons front decoded, nonempty, ?_, stopped⟩
          simp only [length_cons]
          omega

theorem fromUtf8_encode (text : List Char) : fromUtf8 (encode text) = .ok text := by
  have reports := fromUtf8Within_reports (Nat.le_refl (encode text).length)
  have runs := run_encode text
  rw [← fromUtf8] at reports
  cases result : fromUtf8 (encode text) with
  | ok found =>
    rw [result] at reports
    have same := congrArg Prod.fst (runs.symm.trans reports.run)
    simp only [run, append_nil] at same
    rw [map_injective_iff.mpr (fun _ _ => Option.some.inj) same]
  | error validUpTo errorLen =>
    rw [result] at reports
    obtain ⟨found, rest, decoded, nonempty, _, stopped⟩ := reports
    have same := runs.symm.trans decoded.run
    have means := front_means nonempty
    cases errorLen with
    | none =>
      rw [show Utf8Front.of rest = .unfinished from stopped] at means
      have waits := means.2
      rw [← show none = (run none rest).2 from congrArg Prod.snd same] at waits
      cases waits
    | some width =>
      obtain ⟨behind, front⟩ := stopped
      rw [front] at means
      have symbols : text.map some = found.map some ++ (run none rest).1 :=
        congrArg Prod.fst same
      rw [show run none rest = _ from means] at symbols
      have member : none ∈ text.map some := by simp [symbols]
      simp at member

end

variable (output : BoundedOutput)

namespace BoundedOutput

theorem makeRoom_pending (needed tailLimit fuel : Nat) (pending : List UInt8) :
    makeRoom needed tailLimit fuel { output with pendingUtf8 := pending } =
      { makeRoom needed tailLimit fuel output with pendingUtf8 := pending } := by
  induction fuel generalizing output with
  | zero => rfl
  | succ fuel ih =>
    simp only [makeRoom]
    split_ifs
    · exact ih { output with
        tail := (popFrontUtf8Scalar output.tail).2
        omittedBytes := output.omittedBytes + (popFrontUtf8Scalar output.tail).1
        tailChars := output.tailChars - 1 }
    · rfl

theorem appendChar_pending (value : Char) (pending : List UInt8) :
    { output with pendingUtf8 := pending }.appendChar value =
      { output.appendChar value with pendingUtf8 := pending } := by
  unfold appendChar
  dsimp only
  split_ifs
  · rfl
  · rfl
  · have room := makeRoom_pending { output with cursor := output.cursor + 1, headSealed := true }
      (String.utf8EncodeChar value).length (output.maxBytes - output.head.length)
      output.tail.length pending
    rw [room]

theorem appendChars_pending (text : List Char) (pending : List UInt8) :
    { output with pendingUtf8 := pending }.appendChars text =
      { output.appendChars text with pendingUtf8 := pending } := by
  induction text generalizing output with
  | nil => rfl
  | cons value text ih =>
    have later := ih (output.appendChar value)
    rw [← appendChar_pending] at later
    exact later

theorem appendChars_append (left right : List Char) :
    output.appendChars (left ++ right) = (output.appendChars left).appendChars right :=
  foldl_append

end BoundedOutput

def shown (symbols : List (Option Char)) : List Char :=
  symbols.map fun symbol => symbol.getD '\uFFFD'

theorem shown_some (text : List Char) (symbols : List (Option Char)) :
    shown (text.map some ++ symbols) = text ++ shown symbols := by
  rw [shown, map_append, map_map]
  exact congrArg (· ++ shown symbols) (map_id text)

theorem decodePending_spec (enough : output.pendingUtf8.length < fuel) :
    ∃ left, BoundedOutput.decodePending fuel output =
        { output.appendChars (shown (run none output.pendingUtf8).1) with pendingUtf8 := left } ∧
      run none left = ([], (run none output.pendingUtf8).2) ∧
      (left = [] ↔ (run none output.pendingUtf8).2 = none) := by
  induction fuel generalizing output with
  | zero => omega
  | succ fuel ih =>
    have reports := fromUtf8Within_reports (Nat.le_refl output.pendingUtf8.length)
    rw [← fromUtf8] at reports
    unfold BoundedOutput.decodePending
    cases result : fromUtf8 output.pendingUtf8 with
    | ok text =>
      rw [result] at reports
      refine ⟨[], ?_, ?_, iff_of_true rfl ?_⟩
      · rw [reports.run, shown_some]
        simp only [run, shown, map_nil, append_nil]
        exact output.appendChars_pending text []
      all_goals
        rw [reports.run]
        rfl
    | error validUpTo errorLen =>
      rw [result] at reports
      obtain ⟨text, rest, decoded, nonempty, length, stopped⟩ := reports
      obtain ⟨piece, cut, empty, reads⟩ := decoded.alone
      have width : piece.length = validUpTo := by
        rw [cut, length_append] at length
        omega
      by_cases valid : 0 < validUpTo
      · simp only [if_pos valid]
        rw [cut, ← width, take_left, drop_left,
          show fromUtf8 piece = .ok text from reads _ (Nat.le_refl _)]
        dsimp only
        rw [BoundedOutput.appendChars_pending]
        obtain ⟨left, same, waits, ends⟩ := ih
          { output.appendChars text with pendingUtf8 := rest } (by dsimp only; omega)
        rw [← cut, decoded.run]
        refine ⟨left, ?_, waits, ends⟩
        rw [same, shown_some, BoundedOutput.appendChars_pending,
          BoundedOutput.appendChars_append]
      · obtain rfl : piece = [] := length_eq_zero_iff.mp (by omega)
        obtain rfl := empty rfl
        obtain rfl : output.pendingUtf8 = rest := cut
        simp only [if_neg valid]
        have means := front_means nonempty
        cases errorLen with
        | none =>
          rw [show Utf8Front.of output.pendingUtf8 = .unfinished from stopped] at means
          refine ⟨output.pendingUtf8, ?_, Prod.ext means.1 rfl,
            iff_of_false nonempty (Option.isSome_iff_ne_none.mp means.2)⟩
          rw [means.1]
          rfl
        | some width =>
          obtain ⟨behind, front⟩ := stopped
          obtain ⟨positive, after⟩ := front_illFormed front
          rw [front] at means
          have shorter : (output.pendingUtf8.drop width).length < fuel := by
            have := length_pos_iff.mpr nonempty
            rw [length_drop]
            omega
          dsimp only
          rw [BoundedOutput.appendChar_pending]
          obtain ⟨left, same, waits, ends⟩ := ih
            { output.appendChar '\uFFFD' with
              pendingUtf8 := output.pendingUtf8.drop width } shorter
          rw [show run none output.pendingUtf8 = _ from means, after]
          refine ⟨left, ?_, waits, ends⟩
          rw [same, BoundedOutput.appendChars_pending]
          rfl

def received (maxBytes : Nat) (chunks : List (List UInt8)) : BoundedOutput :=
  chunks.foldl BoundedOutput.append (BoundedOutput.new maxBytes)

theorem received_spec :
    ∃ left, received maxBytes chunks =
        { (BoundedOutput.new maxBytes).appendChars (shown (run none chunks.flatten).1) with
          pendingUtf8 := left } ∧
      run none left = ([], (run none chunks.flatten).2) ∧
      (left = [] ↔ (run none chunks.flatten).2 = none) := by
  induction chunks using reverseRecOn with
  | nil => exact ⟨[], rfl, rfl, iff_of_true rfl rfl⟩
  | append_singleton chunks bytes ih =>
    obtain ⟨left, same, waits, _⟩ := ih
    have whole : run none (left ++ bytes) = run (run none chunks.flatten).2 bytes := by
      rw [run_append, waits]
      rfl
    rw [received] at same
    rw [received, foldl_concat, same, BoundedOutput.append, flatten_concat, run_append]
    obtain ⟨next, again, later, ends⟩ := decodePending_spec
      { (BoundedOutput.new maxBytes).appendChars (shown (run none chunks.flatten).1) with
        pendingUtf8 := left ++ bytes } (Nat.lt_succ_self _)
    rw [whole] at again later ends
    refine ⟨next, ?_, later, ends⟩
    rw [show shown ((run none chunks.flatten).1 ++ (run (run none chunks.flatten).2 bytes).1) =
      shown (run none chunks.flatten).1 ++ shown (run (run none chunks.flatten).2 bytes).1
      from map_append, BoundedOutput.appendChars_append]
    exact again.trans (by rw [BoundedOutput.appendChars_pending])

theorem received_finish (maxBytes : Nat) (chunks : List (List UInt8)) :
    (received maxBytes chunks).finish =
      (BoundedOutput.new maxBytes).appendChars (lossy chunks.flatten) := by
  obtain ⟨left, same, waits, ends⟩ := received_spec
  have fresh := (BoundedOutput.new maxBytes).appendChars_pending
    (shown (run none chunks.flatten).1) []
  rw [same, BoundedOutput.finish, lossy, decode_eq_run]
  cases left with
  | nil =>
    rw [ends.mp rfl]
    simp only [isEmpty_nil, if_true, Option.isSome_none, Bool.false_eq_true, if_false,
      append_nil]
    exact fresh.symm
  | cons byte left =>
    have unfinished : (run none chunks.flatten).2.isSome = true :=
      Option.isSome_iff_ne_none.mpr fun none => cons_ne_nil _ _ (ends.mpr none)
    simp only [isEmpty_cons, Bool.false_eq_true, if_false, unfinished, if_true,
      map_append]
    rw [BoundedOutput.appendChars_append]
    exact congrArg (BoundedOutput.appendChar · '\uFFFD') fresh.symm

end AgentClaimNetwork.Tool
