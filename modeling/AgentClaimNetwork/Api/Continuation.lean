import Mathlib.Data.List.Infix
import AgentClaimNetwork.Library.ByteSlice

/-!
A truncated answer and its continuation are joined at their longest overlap, from
`src/api/continuation.rs`.
-/

namespace AgentClaimNetwork.Api.Continuation

open Library.ByteSlice List

variable {acc chunk overlap extra : List Char}

/-- Where the longest text that ends `acc` and begins `chunk` starts. -/
def overlapStart (acc chunk : List Char) : Option Nat :=
  (((charIndices 0 acc).map Prod.fst).filter fun idx => byteLen acc - idx ≤ byteLen chunk).find?
    fun idx => (dropBytes acc idx).any fun tail => tail.isPrefixOf chunk

/-- The text that `acc` ends up with; `none` where a slice would panic. -/
def appendWithOverlapDedupe (acc chunk : List Char) : Option (List Char) :=
  if chunk = [] then some acc
  else if acc = [] then some chunk
  else if chunk.isSuffixOf acc then some acc
  else
    let start := (overlapStart acc chunk).getD (byteLen acc)
    (dropBytes chunk (byteLen acc - start)).map (acc ++ ·)

structure Joins (acc chunk joined : List Char) : Prop where
  starts : acc <+: joined
  ends : chunk <:+ joined

structure LongestOverlap (acc chunk overlap extra : List Char) : Prop where
  split : chunk = overlap ++ extra
  ends : overlap <:+ acc
  longest : ∀ other rest, chunk = other ++ rest → other <:+ acc → other <:+ overlap

theorem LongestOverlap.joins (longest : LongestOverlap acc chunk overlap extra) :
    Joins acc chunk (acc ++ extra) where
  starts := prefix_append _ _
  ends := by
    rw [longest.split]
    exact (suffix_append_self_iff.mpr longest.ends)

theorem LongestOverlap.shortest (longest : LongestOverlap acc chunk overlap extra)
    (joins : Joins acc chunk other) : other = acc ++ extra ∨
      (acc ++ extra).length < other.length ∧ byteLen (acc ++ extra) < byteLen other := by
  obtain ⟨added, rfl⟩ := joins.starts
  obtain ⟨front, split⟩ := joins.ends
  suffices covered : extra <:+ added by
    obtain ⟨more, rfl⟩ := covered
    cases more with
    | nil => exact .inl rfl
    | cons character more =>
      have positive := character.utf8Size_pos
      right
      simp only [length_append, length_cons, byteLen_append, byteLen_cons]
      omega
  rcases append_eq_append_iff.mp split.symm with ⟨gap, rfl, rfl⟩ | ⟨shared, isAcc, isChunk⟩
  · -- `chunk` begins behind `acc`
    rw [longest.split, ← append_assoc]
    exact suffix_append _ _
  · have inside := longest.longest shared added isChunk ⟨front, isAcc.symm⟩
    refine suffix_of_suffix_length_le ⟨overlap, longest.split.symm⟩ ⟨shared, isChunk.symm⟩ ?_
    have lengths := congrArg length (longest.split.symm.trans isChunk)
    have shorter := inside.length_le
    simp only [length_append] at lengths
    omega

theorem overlapStart_longest : ∃ overlap extra, LongestOverlap acc chunk overlap extra ∧
    byteLen acc - (overlapStart acc chunk).getD (byteLen acc) = byteLen overlap := by
  simp only [overlapStart, find?_filter, decide_eq_true_eq]
  -- a shared text begins at one of the offsets that are searched, and passes there
  have passing : ∀ front tail rest, acc = front ++ tail → chunk = tail ++ rest →
      decide (byteLen acc - byteLen front ≤ byteLen chunk ∧
        (dropBytes acc (byteLen front)).any fun tail => tail.isPrefixOf chunk) = true := by
    rintro front tail rest rfl rfl
    simp [dropBytes_append]
  cases first : ((charIndices 0 acc).map Prod.fst).find? _ with
  | none =>
    refine ⟨[], chunk, ⟨rfl, nil_suffix, ?_⟩, Nat.sub_self _⟩
    rintro other rest isChunk ⟨front, isAcc⟩
    by_contra nonempty
    have among := mem_charIndices.mpr ⟨front, other, isAcc.symm,
      fun empty => nonempty (by rw [empty]), (Nat.zero_add _).symm⟩
    exact find?_eq_none.mp first _ among (passing front other rest isAcc.symm isChunk)
  | some idx =>
    obtain ⟨passes, before, after, listed, failed⟩ := find?_eq_some_iff_append.mp first
    have among : idx ∈ (charIndices 0 acc).map Prod.fst := by simp [listed]
    obtain ⟨front, tail, rfl, -, rfl⟩ := mem_charIndices.mp among
    rw [Nat.zero_add] at *
    simp only [dropBytes_append, Option.any_some, decide_eq_true_eq, isPrefixOf_iff_prefix] at passes
    obtain ⟨-, extra, rfl⟩ := passes
    refine ⟨tail, extra, ⟨rfl, suffix_append _ _, ?_⟩, by simp⟩
    rintro other rest isChunk ⟨skipped, isAcc⟩
    have isSuffix : other <:+ front ++ tail := ⟨skipped, isAcc⟩
    refine suffix_of_suffix_length_le isSuffix (suffix_append _ _) (Nat.le_of_not_lt fun longer => ?_)
    -- a longer overlap begins at an earlier offset, which the search has left behind
    obtain ⟨more, rfl⟩ := suffix_of_suffix_length_le (suffix_append _ _) isSuffix longer.le
    obtain rfl : skipped ++ more = front := by simpa [← append_assoc] using isAcc
    obtain ⟨character, more, rfl⟩ := exists_cons_of_ne_nil (by rintro rfl; simp at longer : more ≠ [])
    have positive := character.utf8Size_pos
    have isListed := mem_charIndices.mpr
      ⟨skipped, _, isAcc.symm, by simp, (Nat.zero_add _).symm⟩
    have sorted := @charIndices_sorted (skipped ++ character :: more ++ tail) 0
    rw [listed] at isListed sorted
    have later := pairwise_cons.mp (pairwise_append.mp sorted).2.1
    simp only [byteLen_append, byteLen_cons] at isListed later
    rcases mem_append.mp isListed with earlier | atOrAfter
    · have missed := failed _ earlier
      rw [passing skipped _ rest isAcc.symm isChunk] at missed
      cases missed
    · rcases mem_cons.mp atOrAfter with same | isAfter
      · omega
      · have bound := later.1 _ isAfter
        omega

theorem appendWithOverlapDedupe_cases : ∃ overlap extra, LongestOverlap acc chunk overlap extra ∧
    appendWithOverlapDedupe acc chunk = some (acc ++ extra) := by
  unfold appendWithOverlapDedupe
  split_ifs with noChunk noAcc ends
  · subst noChunk
    exact ⟨[], [], ⟨rfl, nil_suffix, fun other rest split _ => by simp_all⟩, by simp⟩
  · subst noAcc
    exact ⟨[], chunk, ⟨rfl, nil_suffix, fun other rest _ inside => inside⟩, rfl⟩
  · refine ⟨chunk, [], ⟨(append_nil _).symm, isSuffixOf_iff_suffix.mp ends, ?_⟩, by simp⟩
    rintro other rest rfl inside
    exact suffix_of_suffix_length_le inside (isSuffixOf_iff_suffix.mp ends) (by simp)
  · obtain ⟨overlap, extra, longest, start⟩ := @overlapStart_longest acc chunk
    refine ⟨overlap, extra, longest, ?_⟩
    dsimp only
    rw [start, longest.split, dropBytes_append]
    rfl

/-- No slice is inside a character.  The joined text is the shortest with `acc` in front and `chunk`
at the end, in bytes and in characters, and the same chunk again changes nothing. -/
theorem appended_shortest (acc chunk : List Char) :
    (∀ idx ∈ (charIndices 0 acc).map Prod.fst, (dropBytes acc idx).isSome) ∧
    ∃ joined, appendWithOverlapDedupe acc chunk = some joined ∧ Joins acc chunk joined ∧
      (∀ other, Joins acc chunk other → other = joined ∨
        joined.length < other.length ∧ byteLen joined < byteLen other) ∧
      appendWithOverlapDedupe joined chunk = some joined := by
  obtain ⟨overlap, extra, longest, appended⟩ := @appendWithOverlapDedupe_cases acc chunk
  refine ⟨fun idx among => ?_, acc ++ extra, appended, longest.joins, fun _ => longest.shortest, ?_⟩
  · obtain ⟨front, tail, rfl, -, rfl⟩ := mem_charIndices.mp among
    rw [Nat.zero_add, dropBytes_append]
    rfl
  have ends := longest.joins.ends
  rw [appendWithOverlapDedupe, if_pos (isSuffixOf_iff_suffix.mpr ends)]
  split_ifs with noChunk nothing
  · rfl
  · rw [nothing] at ends
    exact absurd (suffix_nil.mp ends) noChunk
  · rfl

example : appendWithOverlapDedupe "abcde".toList "defg".toList = some "abcdefg".toList := by decide

end AgentClaimNetwork.Api.Continuation
