import Mathlib.Algebra.GroupWithZero.Nat
import AgentClaimNetwork.Tool.FileText

/-!
`src/tool/file_text.rs`: pages of a text file, and the evidence that a page gives of what its
caller has seen.
-/

namespace AgentClaimNetwork.Tool

open Library LineLog List

/-- What a caller asks of `file_read`, its path apart. -/
structure TextPageRequest where
  start : Nat
  count : Nat
  keyword : Option (List UInt8)
  showLinenos : Bool
  maxChars : Nat

structure ScannedLine where
  number : Nat
  text : Option (List UInt8)

def boundedTextByteLimit (maxChars : Nat) : Nat := max (maxChars * 4 + 16) 16

structure PageCollector where
  start : Nat
  count : Nat
  keyword : Option (List UInt8)
  before : List ScannedLine
  selected : List ScannedLine
  matchedLine : Option Nat
  blockingLongLine : Option Nat
  bufferedBytes : Nat
  beforeBytes : Nat
  maxBufferedBytes : Nat
  selectionLimited : Bool

def asciiLower (text : List UInt8) : List UInt8 :=
  text.map fun byte => if 65 ≤ byte.toNat ∧ byte.toNat ≤ 90 then byte + 32 else byte

def containsText (text keyword : List UInt8) : Bool :=
  text.tails.any fun tail => keyword.isPrefixOf tail

def PageCollector.new (request : TextPageRequest) : PageCollector where
  start := request.start
  count := max (min request.count (request.maxChars + 1)) 1
  keyword := request.keyword.map asciiLower
  before := []
  selected := []
  matchedLine := none
  blockingLongLine := none
  bufferedBytes := 0
  beforeBytes := 0
  maxBufferedBytes := max (boundedTextByteLimit request.maxChars * 2) 8
  selectionLimited := false

def scannedLineBytes (line : ScannedLine) : Nat := (line.text.map List.length).getD 0

/-- Drops lines from the front while `full` says so of the rest and its bytes. -/
def dropWhileFull (full : Nat → Nat → Bool) : List ScannedLine → Nat → List ScannedLine × Nat
  | [], bytes => ([], bytes)
  | line :: rest, bytes =>
    if full (rest.length + 1) bytes then
      dropWhileFull full rest (bytes - scannedLineBytes line)
    else (line :: rest, bytes)

section

variable (collector : PageCollector) (line : ScannedLine)

def PageCollector.pushBefore : PageCollector :=
  let keep := collector.count / 3
  if keep = 0 then collector
  else
    let (before, beforeBytes) := dropWhileFull
      (fun length bytes => keep < length || collector.maxBufferedBytes < bytes)
      (collector.before ++ [line]) (collector.beforeBytes + scannedLineBytes line)
    { collector with before := before, beforeBytes := beforeBytes }

def PageCollector.pushSelected : PageCollector :=
  if collector.count ≤ collector.selected.length ∨ collector.selectionLimited = true then collector
  else
    let bytes := scannedLineBytes line
    if collector.selected ≠ [] ∧ collector.maxBufferedBytes < collector.bufferedBytes + bytes then
      { collector with selectionLimited := true }
    else
      { collector with
        bufferedBytes := collector.bufferedBytes + bytes
        selected := collector.selected ++ [line] }

def PageCollector.pushMatch : PageCollector :=
  let matchBytes := scannedLineBytes line
  let (context, _) := dropWhileFull
    (fun length bytes => collector.count < length + 1 ||
      collector.maxBufferedBytes < bytes + matchBytes + collector.bufferedBytes)
    collector.before collector.beforeBytes
  PageCollector.pushSelected
    { collector with
      matchedLine := some line.number
      bufferedBytes := collector.bufferedBytes + (context.map scannedLineBytes).sum
      selected := collector.selected ++ context
      before := []
      beforeBytes := 0 } line

def PageCollector.observe : PageCollector :=
  match collector.keyword with
  | none =>
    if collector.start ≤ line.number ∧ line.number ≤ collector.start + (collector.count - 1) then
      collector.pushSelected line
    else collector
  | some keyword =>
    if collector.matchedLine.isSome then collector.pushSelected line
    else if collector.blockingLongLine.isSome then collector
    else if line.number < collector.start then collector.pushBefore line
    else match line.text with
      | none => { collector with blockingLongLine := some line.number }
      | some text =>
        if containsText (asciiLower text) keyword then collector.pushMatch line
        else collector.pushBefore line

end

def captureLine (captureLimit : Nat) (line : List UInt8) : Option (List UInt8) :=
  if line.length ≤ captureLimit then some line else none

def scanLines (captureLimit : Nat) : List UInt8 → Nat → List UInt8 → List ScannedLine
  | current, number, [] =>
    if current = [] then [] else [⟨number, captureLine captureLimit current⟩]
  | current, number, byte :: rest =>
    if byte = newline then
      ⟨number, captureLine captureLimit (current ++ [byte])⟩ ::
        scanLines captureLimit [] (number + 1) rest
    else scanLines captureLimit (current ++ [byte]) number rest

structure ScanResult where
  totalLines : Nat
  endsWithNewline : Bool
  selected : List ScannedLine
  keywordMatchLine : Option Nat
  blockingLongLine : Option Nat
  selectionLimited : Bool

def scanTextFile (file : List UInt8) (request : TextPageRequest) : ScanResult :=
  let lines := scanLines (max (boundedTextByteLimit request.maxChars) 4) [] 1 file
  let collector := lines.foldl PageCollector.observe (PageCollector.new request)
  { totalLines := lines.length
    endsWithNewline := file.getLast? = some newline
    selected := collector.selected
    keywordMatchLine := collector.matchedLine
    blockingLongLine := collector.blockingLongLine
    selectionLimited := collector.selectionLimited }

inductive StopReason
  | maxChars
  | startAfterEof
  | keywordNotFound
  | eof
  | count
deriving DecidableEq

/-- The variables of the loop that fills a page; `shown` are the lines in its content. -/
structure PageState where
  shown : List (Nat × List UInt8)
  returnedStart : Option Nat
  returnedEnd : Option Nat
  contentChars : Nat
  stopped : Bool

def renderLine (request : TextPageRequest) (number : Nat) (text : List UInt8) : List UInt8 :=
  if request.showLinenos then Utf8.encode (Nat.toDigits 10 number ++ ['|']) ++ text else text

def renderedChars (request : TextPageRequest) (number : Nat) (text : List UInt8) : Nat :=
  (Utf8.lossy (renderLine request number text)).length

def fillPage (request : TextPageRequest) : PageState → List ScannedLine → Except Nat PageState
  | state, [] => .ok state
  | state, line :: rest =>
    match line.text with
    | none => .error line.number
    | some text =>
      let chars := renderedChars request line.number text
      if request.maxChars < chars then .error line.number
      else if request.maxChars < state.contentChars + chars then
        .ok { state with stopped := true }
      else match state.returnedEnd with
        | some previous =>
          if line.number ≠ previous + 1 then .error (previous + 1)
          else fillPage request
            { state with
              shown := state.shown ++ [(line.number, text)]
              returnedEnd := some line.number
              contentChars := state.contentChars + chars } rest
        | none => fillPage request
            { state with
              shown := state.shown ++ [(line.number, text)]
              returnedStart := some line.number
              returnedEnd := some line.number
              contentChars := state.contentChars + chars } rest

structure TextPage where
  /-- The lines that the content is made of. -/
  shown : List (Nat × List UInt8)
  content : List UInt8
  stopReason : StopReason
  reachesEof : Bool
  nextStart : Option Nat
  truncated : Bool
  evidence : Option ReadEvidence

inductive TextPageOutcome
  | page (page : TextPage)
  | lineTooLong (line : Nat)

def earlyStop (request : TextPageRequest) (scan : ScanResult) (state : PageState) :
    Option StopReason :=
  if state.stopped then some .maxChars
  else if state.returnedEnd.isNone then
    if scan.totalLines < request.start ∧ ¬(scan.totalLines = 0 ∧ request.start = 1) then
      some .startAfterEof
    else if request.keyword.isSome ∧ scan.keywordMatchLine.isNone then some .keywordNotFound
    else some .eof
  else if scan.selectionLimited then some .maxChars
  else none

def pageReachesEof (request : TextPageRequest) (scan : ScanResult) (state : PageState) : Bool :=
  state.returnedEnd = some scan.totalLines ||
    (scan.totalLines = 0 && request.start = 1 && request.keyword.isNone &&
      earlyStop request scan state = some .eof)

def PageState.range (state : PageState) : Option LineRange :=
  match state.returnedStart, state.returnedEnd with
  | some start, some stop => LineRange.new start stop
  | _, _ => none

section

variable (revision : ContentRevision) (path : Text) (request : TextPageRequest) (scan : ScanResult)

def pageEvidence (state : PageState) (unread : Bool) : Option ReadEvidence :=
  let complete := pageReachesEof request scan state &&
    (scan.totalLines = 0 || state.returnedStart = some 1)
  if unread then none
  else if state.range.isSome || complete then
    some ⟨path, revision, scan.totalLines, scan.endsWithNewline, state.range.toList, complete⟩
  else none

/-- `read_text_page` behind its scan. -/
def pageOfScan : TextPageOutcome :=
  match scan.blockingLongLine with
  | some line => .lineTooLong line
  | none =>
    match fillPage request ⟨[], none, none, 0, false⟩ scan.selected with
    | .error line => .lineTooLong line
    | .ok state =>
      let reachesEof := pageReachesEof request scan state
      let stopReason :=
        (earlyStop request scan state).getD (if reachesEof then .eof else .count)
      let unread := stopReason = .keywordNotFound || stopReason = .startAfterEof
      .page
        { shown := state.shown
          content := state.shown.flatMap fun line => renderLine request line.1 line.2
          stopReason := stopReason
          reachesEof := reachesEof
          nextStart := if unread || stopReason = .eof then none
            else some ((state.returnedEnd.map (· + 1)).getD request.start)
          truncated := !reachesEof && !unread
          evidence := pageEvidence revision path request scan state unread }

end

def readTextPage (revision : ContentRevision) (path : Text) (file : List UInt8)
    (request : TextPageRequest) : Option TextPageOutcome :=
  if (Utf8.strict file).isNone then none
  else some (pageOfScan revision path request (scanTextFile file request))

def ByteSpan.slice (span : ByteSpan) (text : List UInt8) : List UInt8 :=
  (text.drop span.start).take (span.stop - span.start)

theorem scanLines_eq (limit : Nat) {whole passed : List UInt8} (rest : List UInt8)
    {start number : Nat} (isWhole : whole = passed ++ rest) (behind : start ≤ passed.length) :
    scanLines limit (passed.drop start) number rest =
      (lineByteSpansFrom start passed.length rest).mapIdx fun index span =>
        ⟨number + index, captureLine limit (span.slice whole)⟩ := by
  induction rest generalizing passed start number with
  | nil =>
    rw [append_nil] at isWhole
    subst isWhole
    rw [scanLines, lineByteSpansFrom]
    by_cases some_bytes : start < whole.length
    · have full : whole.drop start ≠ [] := by
        intro empty
        rw [drop_eq_nil_iff] at empty
        omega
      have all : (ByteSpan.mk start whole.length).slice whole = whole.drop start :=
        take_of_length_le (by simp)
      simp [full, some_bytes, all]
    · have empty : whole.drop start = [] := drop_eq_nil_iff.mpr (by omega)
      simp [empty, some_bytes]
  | cons byte rest ih =>
    have isNext : whole = (passed ++ [byte]) ++ rest := by simp [isWhole]
    have grown : passed.drop start ++ [byte] = (passed ++ [byte]).drop start := by
      rw [drop_append_of_le_length behind]
    have length : (passed ++ [byte]).length = passed.length + 1 := by simp
    rw [scanLines, lineByteSpansFrom]
    split_ifs with ends
    · have line : (ByteSpan.mk start (passed.length + 1)).slice whole =
          passed.drop start ++ [byte] := by
        rw [grown, ByteSpan.slice, isNext, drop_append_of_le_length (by simp; omega)]
        exact take_left' (by simp)
      have later := @ih (passed ++ [byte]) (passed.length + 1) (number + 1) isNext (by simp)
      rw [length, drop_eq_nil_iff.mpr (by simp)] at later
      rw [mapIdx_cons, later, line]
      simp [Nat.add_right_comm, Nat.add_assoc]
    · rw [grown, ← length]
      exact ih isNext (by simp; omega)

def ScannedLine.Of (file : List UInt8) (line : ScannedLine) : Prop :=
  ∃ (index : Nat) (span : ByteSpan), (lineByteSpans file)[index]? = some span ∧
    line.number = index + 1 ∧ ∀ text, line.text = some text → text = span.slice file

variable {file : List UInt8} {line : ScannedLine}

theorem scanLines_of (member : line ∈ scanLines limit [] 1 file) : line.Of file := by
  have lines := @scanLines_eq limit file [] file 0 1 rfl (Nat.le_refl 0)
  rw [drop_nil] at lines
  rw [lines, mem_mapIdx] at member
  obtain ⟨index, bound, rfl⟩ := member
  refine ⟨index, _, List.getElem?_eq_getElem bound, Nat.add_comm 1 index, ?_⟩
  intro text kept
  simp only [captureLine] at kept
  split_ifs at kept with short
  exact (Option.some.inj kept).symm

theorem scanLines_length :
    (scanLines limit [] 1 file).length = logicalLineCount file := by
  have lines := @scanLines_eq limit file [] file 0 1 rfl (Nat.le_refl 0)
  rw [drop_nil] at lines
  rw [lines, length_mapIdx]
  exact lineByteSpans_length file

def PageCollector.Holds (collector : PageCollector) (line : ScannedLine) : Prop :=
  line ∈ collector.selected ∨ line ∈ collector.before

variable {lines : List ScannedLine}

theorem dropWhileFull_mem (member : line ∈ (dropWhileFull full lines bytes).1) : line ∈ lines := by
  induction lines generalizing bytes with
  | nil => exact member
  | cons first rest ih =>
    rw [dropWhileFull] at member
    split_ifs at member with isFull
    · exact mem_cons_of_mem _ (ih member)
    · exact member

variable {collector : PageCollector}

theorem PageCollector.pushBefore_holds {pushed line : ScannedLine}
    (holds : (collector.pushBefore pushed).Holds line) : collector.Holds line ∨ line = pushed := by
  unfold PageCollector.pushBefore at holds
  dsimp only at holds
  split_ifs at holds with keepNone
  · exact .inl holds
  · rcases holds with selected | before
    · exact .inl (.inl selected)
    · rcases mem_concat (dropWhileFull_mem before) with old | new
      · exact .inl (.inr old)
      · exact .inr new

theorem PageCollector.pushSelected_holds {pushed line : ScannedLine}
    (holds : (collector.pushSelected pushed).Holds line) :
    collector.Holds line ∨ line = pushed := by
  unfold PageCollector.pushSelected at holds
  dsimp only at holds
  split_ifs at holds with isFull tooLarge
  · exact .inl holds
  · exact .inl holds
  · rcases holds with selected | before
    · rcases mem_concat selected with old | new
      · exact .inl (.inl old)
      · exact .inr new
    · exact .inl (.inr before)

theorem PageCollector.pushMatch_holds {pushed line : ScannedLine}
    (holds : (collector.pushMatch pushed).Holds line) : collector.Holds line ∨ line = pushed := by
  rcases PageCollector.pushSelected_holds holds with earlier | new
  · rcases earlier with selected | before
    · rcases mem_append.mp selected with old | context
      · exact .inl (.inl old)
      · exact .inl (.inr (dropWhileFull_mem context))
    · cases before
  · exact .inr new

theorem PageCollector.observe_holds {seen line : ScannedLine}
    (holds : (collector.observe seen).Holds line) : collector.Holds line ∨ line = seen := by
  unfold PageCollector.observe at holds
  split at holds
  · split_ifs at holds with inWindow
    · exact PageCollector.pushSelected_holds holds
    · exact .inl holds
  · split_ifs at holds with matched blocked early
    · exact PageCollector.pushSelected_holds holds
    · exact .inl holds
    · exact PageCollector.pushBefore_holds holds
    · split at holds
      · exact .inl holds
      · split_ifs at holds with found
        · exact PageCollector.pushMatch_holds holds
        · exact PageCollector.pushBefore_holds holds

theorem observed_holds (holds : (lines.foldl PageCollector.observe collector).Holds line) :
    collector.Holds line ∨ line ∈ lines := by
  induction lines generalizing collector with
  | nil => exact .inl holds
  | cons first rest ih =>
    rcases ih holds with earlier | later
    · rcases PageCollector.observe_holds earlier with old | rfl
      · exact .inl old
      · exact .inr (by simp)
    · exact .inr (mem_cons_of_mem _ later)

theorem scanTextFile_selected
    (member : line ∈ (scanTextFile file request).selected) : line.Of file := by
  rcases observed_holds (.inl member) with held | scanned
  · rcases held with selected | before
    · cases selected
    · cases before
  · exact scanLines_of scanned

structure PageState.Filled (file : List UInt8) (state : PageState) : Prop where
  ofFile : ∀ shown ∈ state.shown, ScannedLine.Of file ⟨shown.1, some shown.2⟩
  unbroken : ∀ start stop, state.returnedStart = some start → state.returnedEnd = some stop →
    ∀ line, start ≤ line → line ≤ stop → ∃ text, (line, text) ∈ state.shown

theorem PageState.filled_empty :
    PageState.Filled file ⟨[], none, none, 0, false⟩ where
  ofFile := fun _ member => absurd member (not_mem_nil)
  unbroken := fun _ _ isStart => nomatch isStart

theorem fillPage_filled (filled : state.Filled file) (ofFile : ∀ line ∈ lines, line.Of file)
    (page : fillPage request state lines = .ok final) : final.Filled file := by
  induction lines generalizing state with
  | nil =>
    obtain rfl := Except.ok.inj page
    exact filled
  | cons line rest ih =>
    have first := ofFile line (by simp)
    have others : ∀ other ∈ rest, other.Of file := fun other member =>
      ofFile other (mem_cons_of_mem _ member)
    unfold fillPage at page
    split at page
    · cases page
    · rename_i text isText
      dsimp only at page
      have isLine : ScannedLine.Of file ⟨line.number, some text⟩ := by
        rw [← isText]
        exact first
      have allOf : ∀ shown ∈ state.shown ++ [(line.number, text)],
          ScannedLine.Of file ⟨shown.1, some shown.2⟩ := by
        intro shown member
        rcases mem_concat member with old | rfl
        · exact filled.ofFile shown old
        · exact isLine
      split_ifs at page with long full
      · obtain rfl := Except.ok.inj page
        exact ⟨filled.ofFile, filled.unbroken⟩
      · split at page
        · rename_i previous isPrevious
          split_ifs at page with gap
          refine ih ⟨allOf, ?_⟩ others page
          intro start stop isStart isStop shown low high
          obtain rfl := Option.some.inj isStop
          by_cases last : shown = line.number
          · exact ⟨text, by simp [last]⟩
          · obtain ⟨old, member⟩ := filled.unbroken start previous isStart isPrevious shown low
              (by omega)
            exact ⟨old, mem_append_left _ member⟩
        · refine ih ⟨allOf, ?_⟩ others page
          intro start stop isStart isStop shown low high
          obtain rfl := Option.some.inj isStart
          obtain rfl := Option.some.inj isStop
          exact ⟨text, by simp [Nat.le_antisymm high low]⟩

/-- The evidence of a page: of this file, for lines that the page shows, and complete only when
these are all lines of the file. -/
structure EvidenceOf (revision : ContentRevision) (path : Text) (file : List UInt8)
    (shown : List (Nat × List UInt8)) (evidence : ReadEvidence) : Prop where
  path : evidence.path = path
  revision : evidence.revision = revision
  totalLines : evidence.totalLines = logicalLineCount file
  shown : ∀ line, InRanges evidence.ranges line → ∃ text, (line, text) ∈ shown
  complete : evidence.complete = true → ∀ line, 0 < line → line ≤ logicalLineCount file →
    InRanges evidence.ranges line

theorem pageEvidence_of (filled : state.Filled file)
    (total : scan.totalLines = logicalLineCount file)
    (isEvidence : pageEvidence revision path request scan state unread = some evidence) :
    EvidenceOf revision path file state.shown evidence := by
  unfold pageEvidence at isEvidence
  dsimp only at isEvidence
  split_ifs at isEvidence with unseen known
  obtain rfl := Option.some.inj isEvidence
  refine ⟨rfl, rfl, total, ?_, ?_⟩
  · intro line inside
    dsimp only [PageState.range] at inside
    split at inside
    · rename_i start stop isStart isStop
      obtain ⟨low, high⟩ := inRanges_of_new inside
      exact filled.unbroken start stop isStart isStop line low high
    · obtain ⟨_, member, _⟩ := inside
      cases member
  · intro complete line positive inside
    rw [← total] at inside
    simp only [pageReachesEof, Bool.and_eq_true, Bool.or_eq_true, decide_eq_true_eq] at complete
    obtain ⟨reachesEof, fromFirst⟩ := complete
    rcases reachesEof with isLast | ⟨⟨⟨none, _⟩, _⟩, _⟩
    · rcases fromFirst with none | isFirst
      · omega
      · simp only [PageState.range, isFirst, isLast]
        exact inRanges_new Nat.one_pos positive inside
    · omega

theorem readTextPage_spec (read : readTextPage revision path file request = some (.page page)) :
    (∀ shown ∈ page.shown, ScannedLine.Of file ⟨shown.1, some shown.2⟩) ∧
      ∀ evidence, page.evidence = some evidence →
        EvidenceOf revision path file page.shown evidence := by
  unfold readTextPage at read
  split_ifs at read with invalid
  have outcome := Option.some.inj read
  unfold pageOfScan at outcome
  split at outcome
  · cases outcome
  · split at outcome
    · cases outcome
    · rename_i state isFilled
      have filled := fillPage_filled PageState.filled_empty
        (fun _ => scanTextFile_selected) isFilled
      obtain rfl := TextPageOutcome.page.inj outcome
      exact ⟨filled.ofFile, fun evidence isEvidence =>
        pageEvidence_of filled scanLines_length isEvidence⟩

end AgentClaimNetwork.Tool
