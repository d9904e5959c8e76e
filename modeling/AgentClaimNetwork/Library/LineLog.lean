import AgentClaimNetwork.Library.Utf8

/-!
Text lines in a byte file.  A write that was cut leaves bytes without a newline behind the framed
lines.
-/

namespace AgentClaimNetwork.Library.LineLog

open List

def newline : UInt8 := 10

/-- Strips the carriage return of a `\r\n` line end. -/
def stripReturn (line : List Char) : List Char :=
  if line.getLast? = some '\r' then line.dropLast else line

/-- `str::lines`, with the characters of the current line in reverse. -/
def linesFrom : List Char → List Char → List (List Char)
  | [], [] => []
  | current, [] => [current.reverse]
  | current, '\n' :: rest => stripReturn current.reverse :: linesFrom [] rest
  | current, character :: rest => linesFrom (character :: current) rest

def lines (text : List Char) : List (List Char) := linesFrom [] text

/-- `char::is_whitespace`. -/
def isWhitespace (character : Char) : Bool :=
  let code := character.toNat
  decide (9 ≤ code ∧ code ≤ 13) || code == 0x20 || code == 0x85 || code == 0xA0 ||
    code == 0x1680 || decide (0x2000 ≤ code ∧ code ≤ 0x200A) || code == 0x2028 ||
    code == 0x2029 || code == 0x202F || code == 0x205F || code == 0x3000

/-- `line.trim().is_empty()`. -/
def isBlank (line : List Char) : Bool := line.all isWhitespace

def Clean (line : List Char) : Prop := ∀ character ∈ line, 32 ≤ character.toNat

theorem Clean.not_newline (clean : Clean line) : '\n' ∉ line := by
  intro member
  exact absurd (clean _ member) (by decide)

theorem Clean.stripReturn (clean : Clean line) : stripReturn line = line := by
  unfold LineLog.stripReturn
  split_ifs with returned
  · exact absurd (clean _ (mem_of_getLast? returned)) (by decide)
  · rfl

theorem linesFrom_line (unbroken : '\n' ∉ line) (current rest : List Char) :
    linesFrom current (line ++ rest) = linesFrom (line.reverse ++ current) rest := by
  induction line generalizing current with
  | nil => rfl
  | cons character line ih =>
    have different : character ≠ '\n' := fun same => unbroken (by simp [same])
    have inner : '\n' ∉ line := fun member => unbroken (by simp [member])
    rw [cons_append, linesFrom, ih inner]
    · simp
    · exact different

theorem lines_cons (clean : Clean line) (rest : List Char) :
    lines (line ++ '\n' :: rest) = line :: lines rest := by
  rw [lines, linesFrom_line clean.not_newline, append_nil, linesFrom, reverse_reverse,
    clean.stripReturn]
  rfl

theorem lines_last (unbroken : '\n' ∉ line) : lines line = if line = [] then [] else [line] := by
  have whole := linesFrom_line unbroken [] []
  rw [append_nil, append_nil] at whole
  rw [lines, whole]
  by_cases blank : line = []
  · rw [if_pos blank, blank]
    rfl
  · rw [if_neg blank]
    cases reversed : line.reverse with
    | nil => exact absurd (reverse_eq_nil_iff.mp reversed) blank
    | cons first others =>
      rw [linesFrom, ← reversed, reverse_reverse]
      simp

def frame (texts : List (List Char)) : List UInt8 :=
  texts.flatMap fun text => Utf8.encode text ++ [newline]

@[simp] theorem frame_nil : frame [] = [] := rfl

@[simp] theorem frame_cons (text : List Char) (texts : List (List Char)) :
    frame (text :: texts) = Utf8.encode text ++ newline :: frame texts := by
  simp [frame]

@[simp] theorem frame_append (left right : List (List Char)) :
    frame (left ++ right) = frame left ++ frame right := flatMap_append

theorem lossy_newline (rest : List UInt8) :
    Utf8.lossy (newline :: rest) = '\n' :: Utf8.lossy rest := by
  have framed := Utf8.lossy_encode_append ['\n'] rest
  exact framed

theorem lines_lossy_frame (clean : ∀ text ∈ texts, Clean text) (rest : List UInt8) :
    lines (Utf8.lossy (frame texts ++ rest)) = texts ++ lines (Utf8.lossy rest) := by
  induction texts with
  | nil => rfl
  | cons text texts ih =>
    rw [frame_cons, append_assoc, cons_append, Utf8.lossy_encode_append,
      lossy_newline, lines_cons (clean text (by simp)),
      ih (fun other member => clean other (by simp [member]))]
    rfl

theorem newline_not_mem_encode (clean : Clean text) : newline ∉ Utf8.encode text := fun member =>
  clean.not_newline (Utf8.newline_mem_encode member)

theorem frame_eq_nil : frame texts = [] ↔ texts = [] := by
  cases texts with
  | nil => simp
  | cons text texts => simp

theorem frame_getLast (nonempty : texts ≠ []) : (frame texts).getLast? = some newline := by
  obtain ⟨front, last, rfl⟩ := eq_nil_or_concat texts |>.resolve_left nonempty
  simp [frame]

end AgentClaimNetwork.Library.LineLog
