import Mathlib.Data.List.DropRight
import AgentClaimNetwork.Library.LineLog

/-!
A line file in which every write may have been cut.  The next writer puts a newline behind what a
cut write left.
-/

namespace AgentClaimNetwork.Library.TornLog

open LineLog List

/-- `str::trim`. -/
def trim (line : List Char) : List Char :=
  (line.dropWhile isWhitespace).rdropWhile isWhitespace

def trimString (text : String) : String := String.ofList (trim text.toList)

def boundary (file : List UInt8) : List UInt8 :=
  match file.getLast? with
  | none => []
  | some last => if last = newline then [] else [newline]

def join (pieces : List (List UInt8)) : List UInt8 := pieces.flatMap (· ++ [newline])

def Piece (bytes : List UInt8) : Prop :=
  ∃ text, Clean text ∧ bytes <+: Utf8.encode text

@[simp] theorem join_nil : join [] = [] := rfl

theorem join_append (left right : List (List UInt8)) :
    join (left ++ right) = join left ++ join right := flatMap_append

theorem join_singleton (piece : List UInt8) : join [piece] = piece ++ [newline] := by
  simp [join]

theorem lossy_part (isPart : bytes <+: Utf8.encode text) :
    bytes = Utf8.encode text ∨ ∃ before, before <+: text ∧ before ≠ text ∧
      (Utf8.lossy bytes = before ∨ Utf8.lossy bytes = before ++ ['\uFFFD']) := by
  have cut := prefix_iff_eq_take.mp isPart
  by_cases whole : bytes = Utf8.encode text
  · exact Or.inl whole
  · right
    have shorter : bytes.length < (Utf8.encode text).length := by
      rcases Nat.lt_or_ge bytes.length (Utf8.encode text).length with less | more
      · exact less
      · exact absurd (isPart.eq_of_length (Nat.le_antisymm isPart.length_le more)) whole
    obtain ⟨before, part, split, isPrefix, different, rest⟩ := Utf8.take_encode text shorter
    refine ⟨before, isPrefix, different, ?_⟩
    rw [cut, split, Utf8.lossy_encode_append]
    rcases rest with rfl | waiting
    · left
      simp
    · right
      rw [Utf8.lossy, waiting.decode_nil]
      rfl

theorem Piece.not_newline (piece : Piece bytes) : newline ∉ bytes := by
  obtain ⟨text, clean, isPart⟩ := piece
  exact fun member => newline_not_mem_encode clean (isPart.subset member)

theorem Piece.clean (piece : Piece bytes) : Clean (Utf8.lossy bytes) := by
  obtain ⟨text, clean, isPart⟩ := piece
  rcases lossy_part isPart with whole | ⟨before, isPrefix, _, same | same⟩
  · rw [whole, Utf8.lossy_encode]
    exact clean
  · rw [same]
    exact fun character member => clean character (isPrefix.subset member)
  · rw [same]
    intro character member
    rcases mem_concat member with early | rfl
    · exact clean character (isPrefix.subset early)
    · decide

theorem Piece.lossy_newline (piece : Piece bytes) (rest : List UInt8) :
    Utf8.lossy (bytes ++ newline :: rest) = Utf8.lossy bytes ++ '\n' :: Utf8.lossy rest := by
  obtain ⟨text, _, isPart⟩ := piece
  have cut := prefix_iff_eq_take.mp isPart
  by_cases whole : (Utf8.encode text).length ≤ bytes.length
  · rw [take_of_length_le whole] at cut
    rw [cut, Utf8.lossy_encode_append, Utf8.lossy_encode, LineLog.lossy_newline]
  · obtain ⟨before, part, split, _, _, inside⟩ :=
      @Utf8.take_encode text bytes.length (by omega)
    rw [cut, split, append_assoc, Utf8.lossy_encode_append, Utf8.lossy_encode_append,
      append_assoc]
    congr 1
    rcases inside with rfl | waiting
    · exact LineLog.lossy_newline rest
    · have ascii : newline.toNat < 0x80 := by decide
      have stopped := waiting.decode_ascii ascii rest
      have follows := LineLog.lossy_newline rest
      unfold Utf8.lossy at follows ⊢
      rw [stopped, waiting.decode_nil, map_cons, follows]
      rfl

theorem lines_join (all : ∀ piece ∈ pieces, Piece piece) (rest : List UInt8) :
    lines (Utf8.lossy (join pieces ++ rest)) =
      pieces.map Utf8.lossy ++ lines (Utf8.lossy rest) := by
  induction pieces with
  | nil => rfl
  | cons piece pieces ih =>
    have first := all piece (by simp)
    have shape : join (piece :: pieces) ++ rest = piece ++ newline :: (join pieces ++ rest) := by
      simp [join]
    rw [shape, first.lossy_newline, lines_cons first.clean,
      ih fun other member => all other (by simp [member])]
    rfl

theorem filterMap_lines {Item : Type} {read : List Char → Option Item} (blank : read [] = none)
    {tail : List UInt8} (all : ∀ piece ∈ pieces, Piece piece)
    (last : Piece tail) :
    (lines (Utf8.lossy (join pieces ++ tail))).filterMap read =
      (pieces ++ [tail]).filterMap fun piece => read (Utf8.lossy piece) := by
  rw [lines_join all, filterMap_append, filterMap_append, filterMap_map]
  congr 1
  rw [lines_last last.clean.not_newline]
  by_cases nothing : Utf8.lossy tail = []
  · rw [if_pos nothing, filterMap_cons, nothing, blank]
    rfl
  · rw [if_neg nothing]
    rfl

theorem boundary_join {tail : List UInt8} (unbroken : newline ∉ tail) :
    boundary (join pieces ++ tail) = if tail = [] then [] else [newline] := by
  unfold boundary
  rcases eq_nil_or_concat' tail with rfl | ⟨front, byte, rfl⟩
  · rcases eq_nil_or_concat' pieces with rfl | ⟨others, piece, rfl⟩
    · rfl
    · rw [join_append, join_singleton, append_nil, ← append_assoc, List.getLast?_concat]
      simp
  · have different : byte ≠ newline := fun same => unbroken (by simp [same])
    rw [← append_assoc, List.getLast?_concat]
    simp [different]

variable {line : List Char}

theorem trim_prefix (solid : isWhitespace first = false)
    (starts : line = [] ∨ line.head? = some first) : trim line <+: line := by
  have same : line.dropWhile isWhitespace = line := by
    rcases starts with rfl | head
    · rfl
    · obtain ⟨rest, rfl⟩ : ∃ rest, line = first :: rest := by
        cases line with
        | nil => cases head
        | cons other rest =>
          obtain rfl : other = first := by simpa using head
          exact ⟨rest, rfl⟩
      exact dropWhile_cons_of_neg (by simp [solid])
  rw [trim, same]
  exact rdropWhile_prefix isWhitespace line

theorem trim_eq_self (solidFirst : isWhitespace first = false)
    (solidLast : isWhitespace last = false) (head : line.head? = some first)
    (ends : line.getLast? = some last) : trim line = line := by
  obtain ⟨rest, rfl⟩ : ∃ rest, line = first :: rest := by
    cases line with
    | nil => cases head
    | cons other rest =>
      obtain rfl : other = first := by simpa using head
      exact ⟨rest, rfl⟩
  rw [trim, dropWhile_cons_of_neg (by simp [solidFirst]), rdropWhile_eq_self_iff]
  intro nonempty
  rw [List.getLast?_eq_some_getLast nonempty, Option.some.injEq] at ends
  rw [ends, solidLast]
  simp

theorem trim_trim : trim (trim line) = trim line := by
  by_cases blank : trim line = []
  · rw [blank]
    rfl
  have isPrefix : trim line <+: line.dropWhile isWhitespace := rdropWhile_prefix _ _
  obtain ⟨first, rest, whole⟩ := List.exists_cons_of_ne_nil blank
  have solidLast := rdropWhile_last_not isWhitespace _ blank
  have head : (trim line).head? = some first := by rw [whole]; rfl
  refine trim_eq_self (by_contra fun hollow => ?_) (Bool.not_eq_true _ ▸ solidLast) head
    (getLast?_eq_some_getLast _)
  have isFirst : (line.dropWhile isWhitespace).head? = some first := by
    obtain ⟨tail, same⟩ := isPrefix
    rw [← same, whole]
    rfl
  have solid := head?_dropWhile_not isWhitespace line
  rw [isFirst] at solid
  exact hollow solid

theorem trim_padded {left right : List Char} (before : left.all isWhitespace = true)
    (after : right.all isWhitespace = true) (nonempty : line ≠ []) (trimmed : trim line = line) :
    trim (left ++ line ++ right) = line := by
  rw [List.all_eq_true] at before after
  have kept : line.dropWhile isWhitespace = line := by
    refine (dropWhile_suffix _).eq_of_length (Nat.le_antisymm (dropWhile_suffix _).length_le ?_)
    rw [← congrArg length trimmed]
    exact ( rdropWhile_prefix _ _).length_le
  have ends : line.rdropWhile isWhitespace = line := by rwa [trim, kept] at trimmed
  rw [trim, append_assoc, dropWhile_append_of_pos before, dropWhile_append, kept]
  rw [if_neg (by simpa using nonempty), rdropWhile, reverse_append,
    dropWhile_append_of_pos (by simpa using after)]
  exact ends

end AgentClaimNetwork.Library.TornLog
