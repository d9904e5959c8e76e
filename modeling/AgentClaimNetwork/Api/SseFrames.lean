import AgentClaimNetwork.Library.Framing
import AgentClaimNetwork.Library.TornLog

/-!
The SSE frames of `src/api/anthropic/streaming.rs`, `src/api/chat_completions/streaming.rs` and
`src/api/responses/streaming.rs`.
-/

namespace AgentClaimNetwork.Api.SseFrames

open Library Library.Framing
open List (isPrefixOf isPrefixOf_iff_prefix length_cons length_nil)

section

/-- `buffer.windows(pattern.len()).position(|window| window == pattern)`. -/
def position (pattern : List UInt8) : List UInt8 → Option Nat
  | [] => none
  | byte :: rest =>
    if pattern.isPrefixOf (byte :: rest) then some 0 else (position pattern rest).map (· + 1)

def lineFeeds : List UInt8 := [10, 10]

def returnFeeds : List UInt8 := [13, 10, 13, 10]

/-- `find_frame_end`, which is `find_sse_frame_separator` of the Anthropic stream. -/
def findFrameEnd (buffer : List UInt8) : Option (Nat × Nat) :=
  match position lineFeeds buffer, position returnFeeds buffer with
  | some lf, some crlf => if lf < crlf then some (lf, 2) else some (crlf, 4)
  | some lf, none => some (lf, 2)
  | none, some crlf => some (crlf, 4)
  | none, none => none

def scan : List UInt8 → Option (Nat × Nat)
  | [] => none
  | byte :: rest =>
    if lineFeeds.isPrefixOf (byte :: rest) then some (0, 2)
    else if returnFeeds.isPrefixOf (byte :: rest) then some (0, 4)
    else (scan rest).map fun found => (found.1 + 1, found.2)

variable {buffer : List UInt8} {found : Nat × Nat}

theorem findFrameEnd_scan (buffer : List UInt8) : findFrameEnd buffer = scan buffer := by
  induction buffer with
  | nil => rfl
  | cons byte rest ih =>
    have later : findFrameEnd rest = scan rest := ih
    unfold findFrameEnd at later ⊢
    unfold position scan
    rw [← later]
    by_cases feeds : lineFeeds.isPrefixOf (byte :: rest) = true
    · have notReturns : returnFeeds.isPrefixOf (byte :: rest) = false := by
        have isFeed : byte = 10 := by
          simp only [lineFeeds, isPrefixOf, Bool.and_eq_true, beq_iff_eq] at feeds
          exact feeds.1.symm
        rw [isFeed]
        rfl
      rw [if_pos feeds, if_pos feeds, notReturns]
      cases position returnFeeds rest <;> simp
    · rw [if_neg feeds, if_neg feeds]
      by_cases returns : returnFeeds.isPrefixOf (byte :: rest) = true
      · rw [if_pos returns, if_pos returns]
        cases position lineFeeds rest <;> simp
      · rw [if_neg returns, if_neg returns]
        cases position lineFeeds rest <;> cases position returnFeeds rest <;> simp
        split_ifs <;> simp

theorem scan_fits (cut : scan buffer = some found) :
    2 ≤ found.2 ∧ found.1 + found.2 ≤ buffer.length := by
  induction buffer generalizing found with
  | nil => cases cut
  | cons byte rest ih =>
    unfold scan at cut
    split_ifs at cut with feeds returns
    · cases cut
      have size := (List.isPrefixOf_iff_prefix.mp feeds).length_le
      exact ⟨le_refl 2, by simpa [lineFeeds] using size⟩
    · cases cut
      have size := (List.isPrefixOf_iff_prefix.mp returns).length_le
      exact ⟨by simp, by simpa [returnFeeds] using size⟩
    · obtain ⟨later, inRest, rfl⟩ := Option.map_eq_some_iff.mp cut
      have fits := ih inRest
      simp only [length_cons]
      omega

theorem isPrefixOf_append {pattern : List UInt8} (more : List UInt8)
    (long : pattern.length ≤ buffer.length) :
    pattern.isPrefixOf (buffer ++ more) = pattern.isPrefixOf buffer := by
  rw [Bool.eq_iff_iff, isPrefixOf_iff_prefix, isPrefixOf_iff_prefix]
  exact ⟨fun starts => List.prefix_of_prefix_length_le starts (List.prefix_append _ _) long,
    fun starts => starts.trans (List.prefix_append _ _)⟩

theorem scan_short (cut : scan buffer = some found) (short : buffer.length < 3) :
    ∃ tail, buffer = 10 :: 10 :: tail := by
  have fits := scan_fits cut
  match buffer with
  | [] => cases cut
  | [_] =>
    simp only [List.length_singleton] at fits
    omega
  | first :: second :: tail =>
    unfold scan at cut
    split_ifs at cut with feeds returns
    · simp only [lineFeeds, isPrefixOf, Bool.and_eq_true, beq_iff_eq] at feeds
      exact ⟨tail, by rw [← feeds.1, ← feeds.2.1]⟩
    · have size := (List.isPrefixOf_iff_prefix.mp returns).length_le
      simp only [returnFeeds, length_cons, length_nil] at size short
      omega
    · obtain ⟨later, inRest, rfl⟩ := Option.map_eq_some_iff.mp cut
      have laterFits := scan_fits inRest
      simp only [length_cons] at laterFits short
      omega

theorem scan_stable (cut : scan buffer = some found) :
    scan (buffer ++ more) = some found := by
  induction buffer generalizing found with
  | nil => cases cut
  | cons byte rest ih =>
    have fits := scan_fits cut
    have feedsSame : lineFeeds.isPrefixOf (byte :: rest ++ more) =
        lineFeeds.isPrefixOf (byte :: rest) :=
      isPrefixOf_append more (by simp only [lineFeeds, length_cons, length_nil] at *; omega)
    unfold scan at cut
    change scan (byte :: (rest ++ more)) = some found
    rw [List.cons_append] at feedsSame
    unfold scan
    rw [feedsSame]
    split_ifs at cut with feeds returns
    · rw [if_pos feeds]
      exact cut
    · have starts : returnFeeds.isPrefixOf (byte :: (rest ++ more)) = true := by
        rw [List.isPrefixOf_iff_prefix] at returns ⊢
        exact returns.trans (List.prefix_append (byte :: rest) more)
      rw [if_neg feeds, if_pos starts]
      exact cut
    · obtain ⟨later, inRest, rfl⟩ := Option.map_eq_some_iff.mp cut
      have absent : returnFeeds.isPrefixOf (byte :: (rest ++ more)) = false := by
        rcases Nat.lt_or_ge rest.length 3 with short | long
        · obtain ⟨tail, rfl⟩ := scan_short inRest short
          simp [returnFeeds, isPrefixOf]
        · have same := @isPrefixOf_append (byte :: rest) returnFeeds more
            (by simp only [returnFeeds, length_cons, length_nil]; omega)
          rw [List.cons_append] at same
          rw [same, (Bool.not_eq_true _).mp returns]
      rw [if_neg feeds, absent, ih inRest]
      rfl

def sseSeparator : Separator UInt8 where
  find := findFrameEnd
  fits := fun {buffer found} cut => by
    have fits := scan_fits ((findFrameEnd_scan buffer).symm.trans cut)
    exact ⟨by omega, fits.2⟩
  stable := fun {buffer found} more cut => by
    rw [findFrameEnd_scan]
    exact scan_stable ((findFrameEnd_scan buffer).symm.trans cut)

def drainSseFrames (buffer : List UInt8) : List (List UInt8) × List UInt8 := drain sseSeparator buffer

end

/-- `strip_prefix("data:")`. -/
def dataField (line : List Char) : Option (List Char) :=
  if "data:".toList.isPrefixOf line then some (line.drop 5) else none

def stripSpace (data : List Char) : List Char :=
  match data with
  | ' ' :: rest => rest
  | _ => data

def trimStart (text : List Char) : List Char := text.dropWhile LineLog.isWhitespace

/-- The lines of a frame that are data, joined; `none` is a frame without any. -/
def joinData (data : List (List Char)) : Option (List Char) :=
  if data.isEmpty then none else some ("\n".toList.intercalate data)

/-- `sse_frame_data` of the Anthropic stream. -/
def anthropicFrameData (frame : List UInt8) : Option (Option (List Char)) :=
  (Utf8.strict frame).map fun text => joinData <| (LineLog.lines text).filterMap fun rawLine =>
    let line := LineLog.stripReturn rawLine
    if line.isEmpty || [':'].isPrefixOf line then none
    else (dataField line).map stripSpace

/-- `sse_frame_data` of the Chat Completions and of the Responses stream. -/
def sseFrameData (frame : List UInt8) : Option (Option (List Char)) :=
  (Utf8.strict frame).map fun text => joinData <| (LineLog.lines text).filterMap fun line =>
    (dataField line).map trimStart

end AgentClaimNetwork.Api.SseFrames
