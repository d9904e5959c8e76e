import AgentClaimNetwork.Tool.OutputDecoding

/-!
What the bounded buffer keeps: the longest head that fits, a tail of the rest, the count of what
lies between, and pages that lead a reader over the kept characters once.
-/

namespace AgentClaimNetwork.Tool

open Library Utf8 List
open BoundedOutput (makeRoom new skipChars snapshot snapshotSince)

theorem encodeChar_scalar (value : Char) : ∃ first rest,
    String.utf8EncodeChar value = first :: rest ∧ scalarBytes first = rest.length + 1 := by
  have valid := toNat_valid value
  rcases encodeChar_cases value with
    ⟨small, bytes⟩ | ⟨low, high, bytes⟩ | ⟨low, high, bytes⟩ | ⟨low, bytes⟩
  · refine ⟨_, _, bytes, ?_⟩
    rw [scalarBytes, toNat_byte (by omega), if_pos (by omega)]
    rfl
  · refine ⟨_, _, bytes, ?_⟩
    rw [scalarBytes, toNat_byte (by omega), if_neg (by omega), if_pos (by omega)]
    rfl
  · refine ⟨_, _, bytes, ?_⟩
    rw [scalarBytes, toNat_byte (by omega), if_neg (by omega), if_neg (by omega),
      if_pos (by omega)]
    rfl
  · refine ⟨_, _, bytes, ?_⟩
    rw [scalarBytes, toNat_byte (by omega), if_neg (by omega), if_neg (by omega),
      if_neg (by omega), if_pos (by omega)]
    rfl

theorem encode_cons_shape (value : Char) (text : List Char) : ∃ first rest,
    encode (value :: text) = first :: rest ∧
      scalarBytes first = (String.utf8EncodeChar value).length ∧
      (first :: rest).drop (scalarBytes first) = encode text := by
  obtain ⟨first, rest, shape, width⟩ := encodeChar_scalar value
  refine ⟨first, rest ++ encode text, by rw [encode_cons, shape]; rfl, by simp [shape, width], ?_⟩
  rw [width, drop_succ_cons, drop_left]

theorem encode_eq_nil : encode text = [] ↔ text = [] := by
  cases text with
  | nil => simp
  | cons value text =>
    obtain ⟨first, rest, shape, _⟩ := encode_cons_shape value text
    simp [shape]

theorem tailFromCharOffset_encode (text : List Char) (offset : Nat) :
    tailFromCharOffset (encode text) offset = encode (text.drop offset) := by
  induction offset generalizing text with
  | zero => rfl
  | succ offset ih =>
    cases text with
    | nil => rfl
    | cons value text =>
      obtain ⟨first, rest, shape, _, behind⟩ := encode_cons_shape value text
      rw [shape, tailFromCharOffset, behind, ih, drop_succ_cons]

theorem skipChars_encode (text : List Char) (skip : Nat) :
    skipChars (encode text) skip = encode (text.drop skip) := by
  rw [skipChars, fromUtf8_encode]

section

/-- The buffer holds the front and the back of a text, and has counted the gap between them. -/
structure Retains (maxBytes : Nat) (output : BoundedOutput) (front gap back : List Char) :
    Prop where
  size : output.maxBytes = maxBytes
  headLimit : output.headLimit = maxBytes / 2
  complete : output.incomplete = false
  head : output.head = encode front
  tail : output.tail = encode back
  headChars : output.headChars = front.length
  tailChars : output.tailChars = back.length
  omitted : output.omittedBytes = (encode gap).length
  cursor : output.cursor = front.length + gap.length + back.length
  half : (encode front).length ≤ maxBytes / 2
  bounded : (encode front).length + (encode back).length ≤ maxBytes
  unsealed : output.headSealed = false → gap = [] ∧ back = []
  sealed : output.headSealed = true → ∃ next rest, gap ++ back = next :: rest ∧
    maxBytes / 2 < (encode front).length + (String.utf8EncodeChar next).length

theorem retains_new {maxBytes : Nat} : Retains maxBytes (.new maxBytes) [] [] [] where
  size := rfl
  headLimit := rfl
  complete := rfl
  head := rfl
  tail := rfl
  headChars := rfl
  tailChars := rfl
  omitted := rfl
  cursor := rfl
  half := Nat.zero_le _
  bounded := Nat.zero_le _
  unsealed _ := ⟨rfl, rfl⟩
  sealed := nofun

theorem makeRoom_spec {needed tailLimit fuel : Nat} {output : BoundedOutput} {back : List Char}
    (fits : needed ≤ tailLimit) (tail : output.tail = encode back)
    (chars : output.tailChars = back.length) (enough : (encode back).length ≤ fuel) :
    ∃ dropped kept, back = dropped ++ kept ∧ (encode kept).length + needed ≤ tailLimit ∧
      makeRoom needed tailLimit fuel output = { output with
        tail := encode kept
        omittedBytes := output.omittedBytes + (encode dropped).length
        tailChars := kept.length } := by
  induction back generalizing fuel output with
  | nil =>
    refine ⟨[], [], rfl, by simpa using fits, ?_⟩
    have same : output = { output with
        tail := [], omittedBytes := output.omittedBytes + 0, tailChars := 0 } := by
      cases output
      obtain rfl := show _ = [] from tail
      obtain rfl := show _ = 0 from chars
      rfl
    refine Eq.trans ?_ same
    cases fuel with
    | zero => rfl
    | succ fuel =>
      rw [makeRoom, tail, if_neg (by simpa using fits)]
  | cons value back ih =>
    obtain ⟨first, rest, shape, width, behind⟩ := encode_cons_shape value back
    have wide : (encode (value :: back)).length =
        (String.utf8EncodeChar value).length + (encode back).length := by
      rw [encode_cons, length_append]
    obtain ⟨fuel, rfl⟩ := Nat.exists_eq_succ_of_ne_zero (show fuel ≠ 0 by
      rintro rfl
      simp [shape] at enough)
    by_cases full : tailLimit < output.tail.length + needed
    · have pop : popFrontUtf8Scalar output.tail =
          ((String.utf8EncodeChar value).length, encode back) := by
        rw [tail, shape, popFrontUtf8Scalar, behind, width]
      have positive : 0 < (String.utf8EncodeChar value).length := by
        obtain ⟨_, _, bytes, _⟩ := encodeChar_scalar value
        simp [bytes]
      obtain ⟨dropped, kept, split, room, same⟩ := @ih fuel { output with
        tail := encode back
        omittedBytes := output.omittedBytes + (String.utf8EncodeChar value).length
        tailChars := output.tailChars - 1 } rfl (by simp [chars]) (by omega)
      refine ⟨value :: dropped, kept, by rw [split]; rfl, room, ?_⟩
      rw [makeRoom, if_pos full, pop]
      refine same.trans ?_
      simp only [encode_cons, length_append, Nat.add_assoc]
    · refine ⟨[], value :: back, rfl, by rw [← tail]; omega, ?_⟩
      rw [makeRoom, if_neg full, ← tail, ← chars]
      rfl

variable {maxBytes : Nat} {output : BoundedOutput} {front gap back : List Char}

theorem Retains.appendChar (retains : Retains maxBytes output front gap back) :
    ∃ newFront newGap newBack, newFront ++ newGap ++ newBack = front ++ gap ++ back ++ [value] ∧
      Retains maxBytes (output.appendChar value) newFront newGap newBack := by
  have counted := retains.cursor
  have bounded := retains.bounded
  have half := retains.half
  have room := retains.size
  have limit := retains.headLimit
  unfold BoundedOutput.appendChar
  dsimp only
  split_ifs with fits tooWide
  · obtain ⟨rfl, rfl⟩ := retains.unsealed fits.1
    rw [retains.head, limit] at fits
    refine ⟨front ++ [value], [], [], by simp, ?_⟩
    exact { retains with
      head := by simp [retains.head, encode]
      headChars := by simp [retains.headChars]
      cursor := by simp [counted]
      half := by simpa [encode] using fits.2
      bounded := by
        simp only [encode_append, encode_cons, encode_nil, append_nil, length_append,
          length_nil]
        omega
      unsealed := fun _ => ⟨rfl, rfl⟩
      sealed := fun closed => absurd closed (by simp [fits.1]) }
  all_goals
    have next : ∃ next rest, gap ++ back ++ [value] = next :: rest ∧
        maxBytes / 2 < (encode front).length + (String.utf8EncodeChar next).length := by
      cases closed : output.headSealed with
      | true =>
        obtain ⟨next, rest, shape, wide⟩ := retains.sealed closed
        exact ⟨next, rest ++ [value], by rw [shape]; rfl, wide⟩
      | false =>
        obtain ⟨rfl, rfl⟩ := retains.unsealed closed
        rw [retains.head, limit] at fits
        exact ⟨value, [], rfl, by
          by_contra small
          exact fits ⟨closed, by omega⟩⟩
  · refine ⟨front, gap ++ back ++ [value], [], by simp, ?_⟩
    exact { retains with
      tail := rfl
      tailChars := rfl
      omitted := by
        simp only [retains.omitted, retains.tail, encode_append, encode_cons, encode_nil,
          append_nil, length_append]
        omega
      cursor := by
        simp only [counted, length_append, length_cons, length_nil]
        omega
      bounded := by
        simp only [encode_nil, length_nil]
        omega
      unsealed := nofun
      sealed := fun _ => by simpa using next }
  · rw [retains.head, room] at tooWide
    obtain ⟨dropped, kept, rfl, short, same⟩ := @makeRoom_spec
      (String.utf8EncodeChar value).length (output.maxBytes - output.head.length)
      output.tail.length { output with cursor := output.cursor + 1, headSealed := true } back
      (by rw [retains.head, room]; omega) retains.tail retains.tailChars
      (Nat.le_of_eq (congrArg length retains.tail.symm))
    rw [retains.head, room] at short
    rw [same]
    refine ⟨front, gap ++ dropped, kept ++ [value], by simp, ?_⟩
    exact { retains with
      tail := by simp [encode]
      tailChars := by simp
      omitted := by simp [retains.omitted]
      cursor := by
        simp only [counted, length_append, length_cons, length_nil]
        omega
      bounded := by
        simp only [encode_append, encode_cons, encode_nil, append_nil, length_append]
        omega
      unsealed := nofun
      sealed := fun _ => by simpa using next }

theorem Retains.appendChars (retains : Retains maxBytes output front gap back) :
    ∃ newFront newGap newBack, newFront ++ newGap ++ newBack = front ++ gap ++ back ++ text ∧
      Retains maxBytes (output.appendChars text) newFront newGap newBack := by
  induction text generalizing output front gap back with
  | nil => exact ⟨front, gap, back, by simp, retains⟩
  | cons value text ih =>
    obtain ⟨_, _, _, whole, after⟩ := retains.appendChar
    obtain ⟨newFront, newGap, newBack, all, last⟩ := ih after
    exact ⟨newFront, newGap, newBack, by rw [all, whole]; simp, last⟩

theorem retains_appendChars (maxBytes : Nat) (text : List Char) :
    ∃ front gap back, front ++ gap ++ back = text ∧
      Retains maxBytes ((new maxBytes).appendChars text) front gap back :=
  (retains_new).appendChars

theorem Retains.longest (retains : Retains maxBytes output front gap back) {count : Nat}
    (longer : front.length < count) (inside : count ≤ (front ++ gap ++ back).length) :
    maxBytes / 2 < (encode ((front ++ gap ++ back).take count)).length := by
  cases closed : output.headSealed with
  | false =>
    obtain ⟨rfl, rfl⟩ := retains.unsealed closed
    simp at inside
    omega
  | true =>
    obtain ⟨next, rest, shape, wide⟩ := retains.sealed closed
    obtain ⟨more, rfl⟩ := Nat.exists_eq_add_of_lt longer
    rw [append_assoc, shape, Nat.add_assoc, take_length_add_append,
      take_succ_cons, encode_append, encode_cons, length_append, length_append]
    omega

end

section

inductive Follows (output : BoundedOutput) : Nat → List ProcessOutput → Prop
  | last {cursor} : (output.snapshotSince cursor).hasMoreRetained = false →
      Follows output cursor [output.snapshotSince cursor]
  | more {cursor pages} : (output.snapshotSince cursor).hasMoreRetained = true →
      Follows output (output.snapshotSince cursor).cursor pages →
      Follows output cursor (output.snapshotSince cursor :: pages)

variable {cursor : Nat}

theorem Follows.unique {output : BoundedOutput} (one : Follows output cursor first)
    (other : Follows output cursor second) : first = second := by
  induction one generalizing second with
  | last ends =>
    cases other with
    | last => rfl
    | more goesOn => cases ends.symm.trans goesOn
  | more goesOn _ ih =>
    cases other with
    | last ends => cases ends.symm.trans goesOn
    | more _ later => rw [ih later]

/-- What a reader at `cursor` is still owed: the head takes the first positions, the tail the
last. -/
def retainedFrom (front gap back : List Char) (cursor : Nat) : List Char :=
  front.drop cursor ++ back.drop (cursor - (front.length + gap.length))

def Serves (output : BoundedOutput) (front gap back : List Char) (cursor : Nat) : Prop :=
  ∃ pages, Follows output cursor pages ∧
    pages.flatMap ProcessOutput.bytes = encode (retainedFrom front gap back cursor) ∧
    (0 < output.omittedBytes → ∀ page ∈ pages, page.truncated = true)

variable {maxBytes : Nat} {output : BoundedOutput} {front gap back : List Char}

theorem Retains.serves_whole (retains : Retains maxBytes output front gap back)
    (whole : output.omittedBytes = 0) (before : cursor < output.cursor) :
    Serves output front gap back cursor := by
  have empty : gap = [] := encode_eq_nil.mp
    (length_eq_zero_iff.mp (retains.omitted.symm.trans whole))
  have page : output.snapshotSince cursor = ⟨encode ((front ++ back).drop cursor),
      output.cursor, output.snapshot.truncated, output.omittedBytes, true, false⟩ := by
    simp only [snapshotSince]
    rw [if_neg (by omega), if_neg (by omega), if_pos whole, ← skipChars_encode, encode_append,
      ← retains.head, ← retains.tail]
    rfl
  refine ⟨_, .last (by rw [page]), ?_, fun positive => by omega⟩
  rw [page, retainedFrom, empty, length_nil, Nat.add_zero, ← drop_append]
  exact append_nil _

theorem Retains.snapshot_truncated (cut : 0 < output.omittedBytes) :
    output.snapshot.truncated = true := by
  simp [snapshot, cut]

theorem Retains.serves_end (retains : Retains maxBytes output front gap back) :
    Serves output front gap back output.cursor := by
  have page : output.snapshotSince output.cursor = ⟨[], output.cursor, output.snapshot.truncated,
      output.omittedBytes, true, false⟩ := by
    simp only [snapshotSince]
    rw [if_neg (by omega), if_pos trivial]
    rfl
  refine ⟨_, .last (by rw [page]), ?_, fun positive given member => ?_⟩
  · have counted := retains.cursor
    rw [page, retainedFrom, drop_eq_nil_of_le (by omega), drop_eq_nil_of_le (by omega)]
    rfl
  · rw [mem_singleton.mp member, page]
    exact Retains.snapshot_truncated positive

theorem Retains.tailStart (retains : Retains maxBytes output front gap back) :
    output.cursor - output.tailChars = front.length + gap.length := by
  have := retains.cursor
  have := retains.tailChars
  omega

variable (retains : Retains maxBytes output front gap back) (cut : 0 < output.omittedBytes)
include retains cut

theorem Retains.gap_positive : 0 < gap.length := by
  rw [retains.omitted] at cut
  cases gap with
  | nil => simp at cut
  | cons => simp

theorem Retains.serves_tail (inTail : front.length + gap.length ≤ cursor)
    (before : cursor < output.cursor) : Serves output front gap back cursor := by
  have chars := retains.headChars
  have start := retains.tailStart
  have page : output.snapshotSince cursor = ⟨encode (back.drop (cursor - (front.length + gap.length))),
      output.cursor, output.snapshot.truncated, output.omittedBytes, true, false⟩ := by
    simp only [snapshotSince]
    rw [if_neg (by omega), if_neg (by omega), if_neg (by omega), if_neg (by omega),
      if_neg (by omega), start, ← tailFromCharOffset_encode, ← retains.tail]
    rfl
  refine ⟨_, .last (by rw [page]), ?_, fun positive given member => ?_⟩
  · rw [page, retainedFrom, drop_eq_nil_of_le (by omega : front.length ≤ cursor)]
    exact append_nil _
  · rw [mem_singleton.mp member, page]
    exact Retains.snapshot_truncated positive

theorem Retains.serves_gap (afterHead : front.length ≤ cursor)
    (inGap : cursor < front.length + gap.length) : Serves output front gap back cursor := by
  have chars := retains.headChars
  have start := retains.tailStart
  have counted := retains.cursor
  have page : output.snapshotSince cursor = ⟨[], front.length + gap.length, true,
      output.omittedBytes, true, !output.tail.isEmpty⟩ := by
    simp only [snapshotSince]
    rw [if_neg (by omega), if_neg (by omega), if_neg (by omega), if_neg (by omega),
      if_pos (by omega), start]
    rfl
  have owed : retainedFrom front gap back cursor =
      retainedFrom front gap back (front.length + gap.length) := by
    rw [retainedFrom, retainedFrom, drop_eq_nil_of_le afterHead,
      Nat.sub_eq_zero_of_le (Nat.le_of_lt inGap), Nat.sub_self,
      drop_eq_nil_of_le (Nat.le_add_right _ _)]
  cases rest : back with
  | nil =>
    have none : output.tail = [] := by rw [retains.tail, rest, encode_nil]
    refine ⟨_, .last (by rw [page, none]; rfl), ?_, fun _ given member => ?_⟩
    · rw [page, retainedFrom, drop_eq_nil_of_le afterHead, drop_nil]
      rfl
    · rw [mem_singleton.mp member, page]
  | cons value others =>
    rw [← rest]
    have some : output.tail ≠ [] := by
      rw [retains.tail, Ne, encode_eq_nil, rest]
      exact cons_ne_nil _ _
    obtain ⟨pages, follows, read, known⟩ := retains.serves_tail cut (Nat.le_refl _) (by
      rw [counted, rest]
      simp)
    refine ⟨_ :: pages, .more (by simp [page, some]) (by rw [page]; exact follows), ?_,
      fun positive given member => ?_⟩
    · rw [flatMap_cons, read, page, owed]
      rfl
    · rcases mem_cons.mp member with rfl | later
      · rw [page]
      · exact known positive given later

theorem Retains.serves_head (inHead : cursor < front.length) :
    Serves output front gap back cursor := by
  have chars := retains.headChars
  have counted := retains.cursor
  have positive := retains.gap_positive cut
  have page : output.snapshotSince cursor = ⟨encode (front.drop cursor), front.length, true,
      output.omittedBytes, true, true⟩ := by
    simp only [snapshotSince]
    rw [if_neg (by omega), if_neg (by omega), if_neg (by omega), if_pos (by omega),
      ← skipChars_encode, ← retains.head, chars]
    rfl
  obtain ⟨pages, follows, read, known⟩ := retains.serves_gap cut (Nat.le_refl _) (by omega)
  refine ⟨_ :: pages, .more (by rw [page]) (by rw [page]; exact follows), ?_,
    fun missing given member => ?_⟩
  · rw [flatMap_cons, read, page, retainedFrom, retainedFrom, drop_length,
      Nat.sub_eq_zero_of_le (by omega), Nat.sub_eq_zero_of_le (by omega), encode_append,
      encode_append]
    rfl
  · rcases mem_cons.mp member with rfl | later
    · rw [page]
    · exact known missing given later

omit cut in
theorem Retains.serves (known : cursor ≤ output.cursor) : Serves output front gap back cursor := by
  rcases Nat.eq_or_lt_of_le known with rfl | before
  · exact retains.serves_end
  · rcases Nat.eq_zero_or_pos output.omittedBytes with whole | cut
    · exact retains.serves_whole whole before
    · by_cases inHead : cursor < front.length
      · exact retains.serves_head cut inHead
      · by_cases inGap : cursor < front.length + gap.length
        · exact retains.serves_gap cut (by omega) inGap
        · exact retains.serves_tail cut (by omega) before

end

/-- A buffer of `maxBytes` that has been given a text. -/
structure Keeps (maxBytes : Nat) (output : BoundedOutput) (text front gap back : List Char) :
    Prop where
  parts : text = front ++ gap ++ back
  head : output.head = encode front
  tail : output.tail = encode back
  half : (encode front).length ≤ maxBytes / 2
  longest : ∀ count, front.length < count → count ≤ text.length →
    maxBytes / 2 < (encode (text.take count)).length
  bounded : output.head.length + output.tail.length ≤ maxBytes
  omitted : output.omittedBytes = (encode gap).length
  headChars : output.headChars = front.length
  tailChars : output.tailChars = back.length
  cursor : output.cursor = text.length
  serves : ∀ cursor, cursor ≤ output.cursor → Serves output front gap back cursor

theorem keeps_appendChars {maxBytes : Nat} (pending : List UInt8) :
    ∃ front gap back, Keeps maxBytes
      { (new maxBytes).appendChars text with pendingUtf8 := pending }
      text front gap back := by
  obtain ⟨front, gap, back, rfl, retains⟩ := retains_appendChars maxBytes text
  have waiting : Retains maxBytes { (new maxBytes).appendChars
      (front ++ gap ++ back) with pendingUtf8 := pending } front gap back := { retains with }
  exact ⟨front, gap, back, {
    parts := rfl
    head := retains.head
    tail := retains.tail
    half := retains.half
    longest := fun _ => retains.longest
    bounded := by
      rw [waiting.head, waiting.tail]
      exact retains.bounded
    omitted := retains.omitted
    headChars := retains.headChars
    tailChars := retains.tailChars
    cursor := by
      simp only [length_append]
      exact retains.cursor
    serves := fun _ => waiting.serves }⟩

/-- What is kept and served of an output depends on its bytes, not on the chunks they came in. -/
theorem bounded_output_kept (maxBytes : Nat) (chunks : List (List UInt8)) :
    (received maxBytes chunks).finish = (received maxBytes [chunks.flatten]).finish ∧
    (∃ front gap back, Keeps maxBytes (received maxBytes chunks).finish (lossy chunks.flatten)
      front gap back) ∧
    (∃ front gap back, Keeps maxBytes (received maxBytes chunks)
      (shown (run none chunks.flatten).1) front gap back) ∧
    ∀ cursor first second, Follows (received maxBytes chunks).finish cursor first →
      Follows (received maxBytes chunks).finish cursor second → first = second := by
  refine ⟨?_, ?_, ?_, fun _ _ _ one other => one.unique other⟩
  · rw [received_finish, received_finish, flatten_singleton]
  · rw [received_finish]
    exact keeps_appendChars _
  · obtain ⟨left, same, _⟩ := received_spec
    rw [same]
    exact keeps_appendChars left

end AgentClaimNetwork.Tool
