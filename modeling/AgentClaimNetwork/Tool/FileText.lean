import AgentClaimNetwork.Library.LineLog
import AgentClaimNetwork.Tool.ReadState

/-!
`src/tool/file_text.rs`: the lines of a file as byte spans, and how what is known of a file moves
with an edit.
-/

namespace AgentClaimNetwork.Tool

open Library LineLog List

/-- Bytes `start` to `stop`, the latter left out. -/
structure ByteSpan where
  start : Nat
  stop : Nat

/-- The loop of `line_byte_spans` from the byte at `index` on. -/
def lineByteSpansFrom (start index : Nat) : List UInt8 → List ByteSpan
  | [] => if start < index then [⟨start, index⟩] else []
  | byte :: rest =>
    if byte = newline then ⟨start, index + 1⟩ :: lineByteSpansFrom (index + 1) (index + 1) rest
    else lineByteSpansFrom start (index + 1) rest

def lineByteSpans (text : List UInt8) : List ByteSpan := lineByteSpansFrom 0 0 text

def logicalLineCount (text : List UInt8) : Nat :=
  if text = [] then 0
  else text.count newline + if text.getLast? = some newline then 0 else 1

variable (lines : List ByteSpan)

def lineRangeForByteRange (start stop : Nat) : Option LineRange :=
  if lines = [] then none
  else
    let first := (lines.findIdx? fun line => start < line.stop).getD (lines.length - 1)
    let lastByte := max (stop - 1) start
    let last := (lines.findIdx? fun line => lastByte < line.stop).getD (lines.length - 1)
    LineRange.new (first + 1) (last + 1)

def ByteSpan.Before (left right : ByteSpan) : Prop :=
  left.start < right.start ∨ (left.start = right.start ∧ left.stop ≤ right.stop)

instance : DecidableRel ByteSpan.Before := fun _ _ => inferInstanceAs (Decidable (_ ∨ _))

instance : Std.Total ByteSpan.Before := ⟨fun left right => by unfold ByteSpan.Before; omega⟩

instance : IsTrans ByteSpan ByteSpan.Before :=
  ⟨fun first second third => by unfold ByteSpan.Before; omega⟩

def mergeSpansFrom (last : ByteSpan) : List ByteSpan → List ByteSpan
  | [] => [last]
  | span :: rest =>
    if span.start ≤ last.stop then mergeSpansFrom ⟨last.start, max last.stop span.stop⟩ rest
    else last :: mergeSpansFrom span rest

def mergeByteSpans (spans : List ByteSpan) : List ByteSpan :=
  match spans.insertionSort ByteSpan.Before with
  | [] => []
  | first :: rest => mergeSpansFrom first rest

def knownByteSpans (ranges : List LineRange) : List ByteSpan :=
  mergeByteSpans (ranges.filterMap fun range =>
    match lines[range.start - 1]?, lines[range.stop - 1]? with
    | some first, some last => some ⟨first.start, last.stop⟩
    | _, _ => none)

def shiftOffset (offset removed replacementLen : Nat) : Nat := offset - removed + replacementLen

def transformSpan (editStart editEnd replacementLen : Nat) (span : ByteSpan) : List ByteSpan :=
  let removed := editEnd - editStart
  (if span.start < editStart then [⟨span.start, min span.stop editStart⟩] else []) ++
    if editEnd < span.stop then
      [⟨shiftOffset (max span.start editEnd) removed replacementLen,
        shiftOffset span.stop removed replacementLen⟩]
    else []

def transformSpans (spans : List ByteSpan) (editStart editEnd replacementLen : Nat) :
    List ByteSpan :=
  (spans.flatMap (transformSpan editStart editEnd replacementLen) ++
    if 0 < replacementLen then [(⟨editStart, editStart + replacementLen⟩ : ByteSpan)] else []).filter
      fun span => span.start < span.stop

def spanIsCovered (spans : List ByteSpan) (start stop : Nat) : Bool :=
  start = stop || spans.any fun span => span.start ≤ start && stop ≤ span.stop

def touchedResultLines (start stop : Nat) : List ByteSpan :=
  lines.filter fun line =>
    if start = stop then line.start ≤ start && start ≤ line.stop
    else line.start < stop && start < line.stop

/-- The loop of `project_known_line_ranges` at the line behind `index` others, with the range
it may still extend. -/
def projectFrom (spans : List ByteSpan) : Nat → Option LineRange → List ByteSpan → List LineRange
  | _, last, [] => last.toList
  | index, last, line :: rest =>
    if spanIsCovered spans line.start line.stop then
      match last with
      | some range =>
        if adjacent : range.stop + 1 = index + 1 then
          projectFrom spans (index + 1)
            (some ⟨range.start, index + 1, range.positive, by
              have ordered := range.ordered
              omega⟩) rest
        else range :: projectFrom spans (index + 1)
          (some ⟨index + 1, index + 1, Nat.succ_pos _, Nat.le_refl _⟩) rest
      | none => projectFrom spans (index + 1)
          (some ⟨index + 1, index + 1, Nat.succ_pos _, Nat.le_refl _⟩) rest
    else projectFrom spans (index + 1) last rest

def projectKnownLineRanges (lines spans : List ByteSpan) : List LineRange :=
  projectFrom spans 0 none lines

def expandRequiredRange (range : LineRange) (totalLines : Nat) : Nat × Nat :=
  (max (range.start - 1) 1, min (range.stop + 1) (max totalLines 1))

structure CoverageMigration where
  ranges : List LineRange
  complete : Bool

def CoverageMigration.whole (text : List UInt8) : CoverageMigration :=
  ⟨(LineRange.new 1 (logicalLineCount text)).toList, true⟩

def affectedLines (totalLines start stop : Nat) : LineRange :=
  (lineRangeForByteRange lines start stop).getD
    ⟨1, max totalLines 1, Nat.one_pos, Nat.le_max_right _ _⟩

def migrateEditCoverage (before after : List UInt8) (authority : ReadAuthority)
    (editStart editEnd replacementLen : Nat) : Except (Nat × Nat) CoverageMigration :=
  if authority.complete then .ok (.whole after)
  else
    let beforeLines := lineByteSpans before
    let affected := affectedLines beforeLines authority.totalLines editStart editEnd
    let required := expandRequiredRange affected authority.totalLines
    if authority.covers affected.start affected.stop = false then .error required
    else
      let knownBefore := knownByteSpans beforeLines authority.ranges
      if spanIsCovered knownBefore editStart editEnd = false then .error required
      else
        let knownAfter :=
          mergeByteSpans (transformSpans knownBefore editStart editEnd replacementLen)
        let afterLines := lineByteSpans after
        let newEnd := editStart + replacementLen
        if (touchedResultLines afterLines editStart newEnd).all
            (fun line => spanIsCovered knownAfter line.start line.stop) = false then
          .error required
        else
          let ranges := projectKnownLineRanges afterLines knownAfter
          .ok ⟨ranges, after = [] || match ranges with
            | [range] => range.start = 1 && range.stop = afterLines.length
            | _ => false⟩

def ByteSpan.Has (span : ByteSpan) (position : Nat) : Prop :=
  span.start ≤ position ∧ position < span.stop

def InSpans (spans : List ByteSpan) (position : Nat) : Prop := ∃ span ∈ spans, span.Has position

def Tiled : Nat → List ByteSpan → Nat → Prop
  | start, [], stop => start = stop
  | start, span :: rest, stop =>
    span.start = start ∧ start < span.stop ∧ Tiled span.stop rest stop

theorem lineByteSpansFrom_tiled (text : List UInt8) {start : Nat} (behind : start ≤ index) :
    Tiled start (lineByteSpansFrom start index text) (index + text.length) := by
  induction text generalizing start index with
  | nil =>
    rw [lineByteSpansFrom]
    split_ifs with some_bytes
    · exact ⟨rfl, some_bytes, rfl⟩
    · show start = index + 0
      omega
  | cons byte rest ih =>
    rw [lineByteSpansFrom, length_cons, ← Nat.add_assoc, Nat.add_right_comm]
    split_ifs with ends
    · exact ⟨rfl, by show start < index + 1; omega, ih (Nat.le_refl _)⟩
    · exact ih (by omega)

theorem lineByteSpans_tiled (text : List UInt8) : Tiled 0 (lineByteSpans text) text.length := by
  have tiled := lineByteSpansFrom_tiled text (Nat.le_refl 0)
  rwa [Nat.zero_add] at tiled

theorem lineByteSpansFrom_length {start : Nat} (behind : start ≤ index) :
    (lineByteSpansFrom start index text).length = text.count newline +
      match text.getLast? with
      | none => if start < index then 1 else 0
      | some last => if last = newline then 0 else 1 := by
  induction text generalizing start index with
  | nil =>
    rw [lineByteSpansFrom]
    split_ifs with some_bytes <;> simp
  | cons byte rest ih =>
    rw [lineByteSpansFrom, count_cons, List.getLast?_cons]
    by_cases ends : byte = newline
    · rw [if_pos ends, length_cons, ih (Nat.le_refl _)]
      cases last : rest.getLast? with
      | none => simp [ends]
      | some final =>
        simp [ends]
        omega
    · rw [if_neg ends, ih (by omega)]
      cases last : rest.getLast? with
      | none =>
        have some_bytes : start < index + 1 := by omega
        simp [ends, some_bytes]
      | some final => simp [ends]

theorem lineByteSpans_length (text : List UInt8) :
    (lineByteSpans text).length = logicalLineCount text := by
  rw [lineByteSpans, lineByteSpansFrom_length (Nat.le_refl 0), logicalLineCount]
  cases last : text.getLast? with
  | none =>
    rw [List.getLast?_eq_none_iff] at last
    simp [last]
  | some final =>
    have some_bytes : text ≠ [] := by
      rintro rfl
      cases last
    simp [some_bytes]

variable {spans : List ByteSpan}

theorem Tiled.find {start stop position : Nat}
    (tiled : Tiled start spans stop) (low : start ≤ position) (high : position < stop) :
    ∃ (index : Nat) (span : ByteSpan), spans[index]? = some span ∧ span.Has position := by
  induction spans generalizing start with
  | nil =>
    obtain rfl : start = stop := tiled
    omega
  | cons span rest ih =>
    obtain ⟨first, _, later⟩ := tiled
    by_cases here : position < span.stop
    · exact ⟨0, span, rfl, by omega, here⟩
    · obtain ⟨index, found, member, has⟩ := ih later (by omega)
      exact ⟨index + 1, found, member, has⟩

variable {start stop : Nat}
variable {span : ByteSpan}

section

variable (tiled : Tiled start spans stop)
include tiled

theorem Tiled.start_le (member : span ∈ spans) : start ≤ span.start ∧ span.start < span.stop := by
  induction spans generalizing start with
  | nil => cases member
  | cons first rest ih =>
    obtain ⟨begins, some_bytes, later⟩ := tiled
    rcases mem_cons.mp member with rfl | inRest
    · omega
    · have below := ih later inRest
      omega

theorem Tiled.le : start ≤ stop := by
  induction spans generalizing start with
  | nil => exact Nat.le_of_eq tiled
  | cons first rest ih =>
    obtain ⟨_, some_bytes, later⟩ := tiled
    have further := ih later
    omega

theorem Tiled.stop_le (member : span ∈ spans) : span.stop ≤ stop := by
  induction spans generalizing start with
  | nil => cases member
  | cons first rest ih =>
    obtain ⟨_, _, later⟩ := tiled
    rcases mem_cons.mp member with rfl | inRest
    · exact later.le
    · exact ih later inRest

theorem Tiled.pairwise : spans.Pairwise fun left right => left.stop ≤ right.start := by
  induction spans generalizing start with
  | nil => exact List.Pairwise.nil
  | cons first rest ih =>
    obtain ⟨_, _, later⟩ := tiled
    exact pairwise_cons.mpr ⟨fun span member => (later.start_le member).1, ih later⟩

theorem Tiled.order {left right : Nat} (isBefore : spans[left]? = some before)
    (isBehind : spans[right]? = some behind) (less : left < right) :
    before.stop ≤ behind.start := by
  obtain ⟨inLeft, rfl⟩ := List.getElem?_eq_some_iff.mp isBefore
  obtain ⟨inRight, rfl⟩ := List.getElem?_eq_some_iff.mp isBehind
  exact pairwise_iff_getElem.mp tiled.pairwise left right inLeft inRight less

end

theorem Tiled.between {start stop position first last : Nat}
    {left right : ByteSpan} (tiled : Tiled start spans stop) (isLeft : spans[first]? = some left)
    (isRight : spans[last]? = some right) (low : left.start ≤ position)
    (high : position < right.stop) :
    ∃ (index : Nat) (span : ByteSpan), first ≤ index ∧ index ≤ last ∧ spans[index]? = some span ∧
      span.Has position := by
  have begins := (tiled.start_le (mem_of_getElem? isLeft)).1
  have ends := tiled.stop_le (mem_of_getElem? isRight)
  obtain ⟨index, span, found, has⟩ := tiled.find (begins.trans low) (by omega)
  refine ⟨index, span, ?_, ?_, found, has⟩
  · by_contra less
    have gap := tiled.order found isLeft (by omega)
    have within := has.2
    omega
  · by_contra more
    have gap := tiled.order isRight found (by omega)
    have within := has.1
    omega

def RisingSpans (spans : List ByteSpan) : Prop :=
  spans.Pairwise fun left right => left.start ≤ right.start

variable {position : Nat}

theorem mergeSpansFrom_inSpans (rising : RisingSpans (last :: spans))
    (inside : InSpans (mergeSpansFrom last spans) position) : InSpans (last :: spans) position := by
  induction spans generalizing last with
  | nil => exact inside
  | cons next rest ih =>
    obtain ⟨first, later⟩ := pairwise_cons.mp rising
    rw [mergeSpansFrom] at inside
    split_ifs at inside with touching
    · have merged : RisingSpans (⟨last.start, max last.stop next.stop⟩ :: rest) :=
        pairwise_cons.mpr ⟨fun span member => first span (by simp [member]),
          (pairwise_cons.mp later).2⟩
      obtain ⟨span, member, has⟩ := ih merged inside
      rcases mem_cons.mp member with rfl | inRest
      · obtain ⟨low, high⟩ := has
        by_cases early : position < last.stop
        · exact ⟨last, by simp, low, early⟩
        · exact ⟨next, by simp, by omega, by simp only at high; omega⟩
      · exact ⟨span, by simp [inRest], has⟩
    · obtain ⟨span, member, has⟩ := inside
      rcases mem_cons.mp member with rfl | inRest
      · exact ⟨span, by simp, has⟩
      · obtain ⟨other, belongs, has⟩ := ih later ⟨span, inRest, has⟩
        exact ⟨other, mem_cons_of_mem _ belongs, has⟩

theorem mergeByteSpans_inSpans
    (inside : InSpans (mergeByteSpans spans) position) : InSpans spans position := by
  have rising : RisingSpans (spans.insertionSort ByteSpan.Before) := by
    apply (pairwise_insertionSort ByteSpan.Before spans).imp
    intro left right before
    unfold ByteSpan.Before at before
    omega
  unfold mergeByteSpans at inside
  split at inside
  · obtain ⟨span, member, _⟩ := inside
    cases member
  · rename_i sorted
    rw [sorted] at rising
    obtain ⟨span, member, has⟩ := mergeSpansFrom_inSpans rising inside
    rw [← sorted, mem_insertionSort] at member
    exact ⟨span, member, has⟩

theorem spanIsCovered_inSpans {start stop position : Nat}
    (covered : spanIsCovered spans start stop = true) (low : start ≤ position)
    (high : position < stop) : InSpans spans position := by
  simp only [spanIsCovered, Bool.or_eq_true, decide_eq_true_eq, any_eq_true,
    Bool.and_eq_true] at covered
  rcases covered with empty | ⟨span, member, before, behind⟩
  · omega
  · exact ⟨span, member, by omega, by omega⟩

def InLine (text : List UInt8) (line position : Nat) : Prop :=
  ∃ span, (lineByteSpans text)[line - 1]? = some span ∧ span.Has position

variable {text : List UInt8}

theorem inLine_of_lt (inside : position < text.length) :
    ∃ line, 0 < line ∧ line ≤ logicalLineCount text ∧ InLine text line position := by
  obtain ⟨index, span, found, has⟩ := (lineByteSpans_tiled text).find (Nat.zero_le _) inside
  have bound := (List.getElem?_eq_some_iff.mp found).1
  rw [lineByteSpans_length] at bound
  exact ⟨index + 1, Nat.succ_pos _, bound, span, found, has⟩
variable {line : Nat}

theorem InLine.lt {position : Nat} (inLine : InLine text line position) :
    position < text.length := by
  obtain ⟨span, found, has⟩ := inLine
  exact Nat.lt_of_lt_of_le has.2 ((lineByteSpans_tiled text).stop_le (mem_of_getElem? found))

theorem knownByteSpans_inRanges {ranges : List LineRange}
    (known : InSpans (knownByteSpans (lineByteSpans text) ranges) position) :
    ∃ line, InRanges ranges line ∧ InLine text line position := by
  obtain ⟨span, member, has⟩ := mergeByteSpans_inSpans known
  obtain ⟨range, belongs, cut⟩ := mem_filterMap.mp member
  split at cut
  · rename_i first last isFirst isLast
    obtain rfl := Option.some.inj cut
    obtain ⟨index, line, low, high, found, within⟩ :=
      (lineByteSpans_tiled text).between isFirst isLast has.1 has.2
    have positive := range.positive
    have ordered := range.ordered
    exact ⟨index + 1, ⟨range, belongs, by omega, by omega⟩, line, found, within⟩
  · cases cut

def editOrigin (editStart editEnd replacementLen position : Nat) : Nat :=
  position - replacementLen + (editEnd - editStart)

theorem transformSpans_inSpans
    {editStart editEnd replacementLen position : Nat} (ordered : editStart ≤ editEnd)
    (inside : InSpans (transformSpans spans editStart editEnd replacementLen) position) :
    (position < editStart ∧ InSpans spans position) ∨
      (editStart ≤ position ∧ position < editStart + replacementLen) ∨
      (editStart + replacementLen ≤ position ∧
        InSpans spans (editOrigin editStart editEnd replacementLen position)) := by
  obtain ⟨span, member, low, high⟩ := inside
  have member := mem_of_mem_filter member
  rcases mem_append.mp member with moved | written
  · obtain ⟨old, belongs, piece⟩ := mem_flatMap.mp moved
    rcases mem_append.mp piece with early | late
    · split_ifs at early with begins
      · rw [mem_singleton.mp early] at low high
        simp only at low high
        exact .inl ⟨by omega, old, belongs, by omega, by omega⟩
      · cases early
    · split_ifs at late with ends
      · rw [mem_singleton.mp late] at low high
        simp only [shiftOffset] at low high
        refine .inr (.inr ⟨by omega, old, belongs, ?_, ?_⟩)
        all_goals
          unfold editOrigin
          omega
      · cases late
  · split_ifs at written with some_bytes
    · rw [mem_singleton.mp written] at low high
      exact .inr (.inl ⟨low, high⟩)
    · cases written

theorem projectFrom_inRanges {spans lines : List ByteSpan}
    (inside : InRanges (projectFrom spans index last lines) line) :
    InRanges last.toList line ∨ ∃ offset span, line = index + offset + 1 ∧
      lines[offset]? = some span ∧ spanIsCovered spans span.start span.stop = true := by
  induction lines generalizing index last with
  | nil => exact .inl inside
  | cons first rest ih =>
    -- a line of a later range is a later line, and a range that grew has this line in it
    have here : ∀ {range : LineRange}, spanIsCovered spans first.start first.stop = true →
        InRanges (projectFrom spans (index + 1) (some range) rest) line →
        (InRanges [range] line → InRanges last.toList line ∨ line = index + 1) →
        InRanges last.toList line ∨ ∃ offset span, line = index + offset + 1 ∧
          (first :: rest)[offset]? = some span ∧
            spanIsCovered spans span.start span.stop = true := by
      intro range covered inside grown
      rcases ih inside with inLast | ⟨offset, span, isLine, found, known⟩
      · rcases grown inLast with old | new
        · exact .inl old
        · exact .inr ⟨0, first, new, rfl, covered⟩
      · exact .inr ⟨offset + 1, span, by omega, found, known⟩
    unfold projectFrom at inside
    split_ifs at inside with covered
    · split at inside
      · rename_i range
        split_ifs at inside with adjacent
        · refine here covered inside ?_
          rintro ⟨grown, member, low, high⟩
          rw [mem_singleton.mp member] at low high
          simp only at low high
          by_cases new : line = index + 1
          · exact .inr new
          · exact .inl ⟨range, by simp, by omega, by omega⟩
        · rcases inRanges_cons.mp inside with old | later
          · exact .inl ⟨range, by simp, old⟩
          · refine here covered later ?_
            rintro ⟨single, member, low, high⟩
            rw [mem_singleton.mp member] at low high
            simp only at low high
            exact .inr (by omega)
      · refine here covered inside ?_
        rintro ⟨single, member, low, high⟩
        rw [mem_singleton.mp member] at low high
        simp only at low high
        exact .inr (by omega)
    · rcases ih inside with inLast | ⟨offset, span, isLine, found, known⟩
      · exact .inl inLast
      · exact .inr ⟨offset + 1, span, by omega, found, known⟩

theorem projectKnownLineRanges_inSpans {position : Nat}
    (inside : InRanges (projectKnownLineRanges (lineByteSpans text) spans) line)
    (inLine : InLine text line position) : InSpans spans position := by
  rcases projectFrom_inRanges inside with ⟨_, member, _⟩ | ⟨offset, span, isLine, found, covered⟩
  · cases member
  · obtain ⟨other, same, has⟩ := inLine
    have index : line - 1 = offset := by omega
    rw [index, found, Option.some.injEq] at same
    rw [← same] at has
    exact spanIsCovered_inSpans covered has.1 has.2

def InKnownLine (text : List UInt8) (ranges : List LineRange) (position : Nat) : Prop :=
  ∃ line, InRanges ranges line ∧ InLine text line position

/-- What an accepted migration says: the replaced bytes were known, every byte of a line it
names is new or was known before, and it is only complete when it names every line. -/
structure Migrates (before after : List UInt8) (ranges : List LineRange)
    (editStart editEnd replacementLen : Nat) (migration : CoverageMigration) : Prop where
  replaced : ∀ position, editStart ≤ position → position < editEnd →
    InKnownLine before ranges position
  moved : ∀ position, InKnownLine after migration.ranges position →
    (position < editStart ∧ InKnownLine before ranges position) ∨
      (editStart ≤ position ∧ position < editStart + replacementLen) ∨
      (editStart + replacementLen ≤ position ∧
        InKnownLine before ranges (editOrigin editStart editEnd replacementLen position))
  complete : migration.complete = true → ∀ line, 0 < line → line ≤ logicalLineCount after →
    InRanges migration.ranges line

theorem inRanges_of_new {start stop : Nat}
    (inside : InRanges (LineRange.new start stop).toList line) : start ≤ line ∧ line ≤ stop := by
  obtain ⟨range, member, low, high⟩ := inside
  unfold LineRange.new at member
  split_ifs at member with valid
  · rw [Option.toList_some, mem_singleton] at member
    subst member
    exact ⟨low, high⟩
  · cases member

theorem inRanges_new {start stop : Nat} (positive : 0 < start) (low : start ≤ line)
    (high : line ≤ stop) : InRanges (LineRange.new start stop).toList line := by
  have valid : 0 < start ∧ start ≤ stop := ⟨positive, low.trans high⟩
  rw [LineRange.new, dif_pos valid]
  exact ⟨⟨start, stop, valid.1, valid.2⟩, by simp, low, high⟩

theorem whole_inRanges (positive : 0 < line) (inside : line ≤ logicalLineCount text) :
    InRanges (CoverageMigration.whole text).ranges line :=
  inRanges_new Nat.one_pos positive inside

theorem migrateEditCoverage_spec {before after : List UInt8}
    (incomplete : authority.complete = false) (ordered : editStart ≤ editEnd)
    (migrated : migrateEditCoverage before after authority editStart editEnd replacementLen =
      .ok migration) :
    Migrates before after authority.ranges editStart editEnd replacementLen migration := by
  unfold migrateEditCoverage at migrated
  rw [incomplete] at migrated
  simp only [Bool.false_eq_true, if_false] at migrated
  split_ifs at migrated with covers known touched
  obtain rfl := Except.ok.inj migrated
  have isKnown : spanIsCovered (knownByteSpans (lineByteSpans before) authority.ranges)
      editStart editEnd = true := by
    cases value : spanIsCovered (knownByteSpans (lineByteSpans before) authority.ranges)
        editStart editEnd with
    | true => rfl
    | false => exact absurd value known
  constructor
  · intro position low high
    exact knownByteSpans_inRanges (spanIsCovered_inSpans isKnown low high)
  · rintro position ⟨line, named, inLine⟩
    have inAfter := mergeByteSpans_inSpans (projectKnownLineRanges_inSpans named inLine)
    rcases transformSpans_inSpans ordered inAfter with ⟨early, old⟩ | written | ⟨late, old⟩
    · exact .inl ⟨early, knownByteSpans_inRanges old⟩
    · exact .inr (.inl written)
    · exact .inr (.inr ⟨late, knownByteSpans_inRanges old⟩)
  · intro complete line positive inside
    simp only [Bool.or_eq_true, decide_eq_true_eq] at complete
    rcases complete with empty | single
    · rw [empty] at inside
      have none : logicalLineCount [] = 0 := rfl
      omega
    · split at single
      · rename_i range isRange
        simp only [Bool.and_eq_true, decide_eq_true_eq] at single
        rw [isRange]
        rw [lineByteSpans_length] at single
        exact ⟨range, by simp, by omega, by omega⟩
      · cases single

end AgentClaimNetwork.Tool
