import Mathlib.Data.List.Pairwise
import AgentClaimNetwork.Tool.FileEdit

/-!
`src/tool/file_text.rs`: what `migrate_edit_coverage` asks to be read is enough for the same edit
to pass once it was read.
-/

namespace AgentClaimNetwork.Tool

open Library LineLog List

theorem one_covers {Item : Type} {items : List Item} {low high : Item → Nat} {start stop : Nat}
    (apart : items.Pairwise fun left right => high left < low right)
    (covered : ∀ position, start ≤ position → position < stop →
      ∃ item ∈ items, low item ≤ position ∧ position < high item) (filled : start < stop) :
    ∃ item ∈ items, low item ≤ start ∧ stop ≤ high item := by
  obtain ⟨item, member, begins, within⟩ := covered start (Nat.le_refl _) filled
  refine ⟨item, member, begins, ?_⟩
  by_contra short
  obtain ⟨other, isOther, before, behind⟩ := covered (high item) (by omega) (by omega)
  have : Std.Symm fun left right => high left < low right ∨ high right < low left :=
    ⟨fun _ _ => Or.symm⟩
  have both : items.Pairwise fun left right => high left < low right ∨ high right < low left :=
    apart.imp Or.inl
  have different : item ≠ other := by
    rintro rfl
    omega
  have gap := both.forall member isOther different
  omega

variable {spans : List ByteSpan} {position start stop : Nat}

theorem mergeSpansFrom_spec (rising : RisingSpans (last :: spans)) :
    (∀ span ∈ mergeSpansFrom last spans, last.start ≤ span.start) ∧
      ((mergeSpansFrom last spans).Pairwise fun left right => left.stop < right.start) ∧
      ∀ position, InSpans (last :: spans) position →
        InSpans (mergeSpansFrom last spans) position := by
  induction spans generalizing last with
  | nil => exact ⟨by simp [mergeSpansFrom], pairwise_singleton _ _, fun _ inside => inside⟩
  | cons next rest ih =>
    obtain ⟨first, later⟩ := pairwise_cons.mp rising
    have below := first next (by simp)
    rw [mergeSpansFrom]
    split_ifs with touching
    · have merged : RisingSpans (⟨last.start, max last.stop next.stop⟩ :: rest) :=
        pairwise_cons.mpr ⟨fun span member => first span (by simp [member]),
          (pairwise_cons.mp later).2⟩
      obtain ⟨starts, apart, keeps⟩ := ih merged
      refine ⟨starts, apart, fun position inside => keeps position ?_⟩
      obtain ⟨span, member, low, high⟩ := inside
      rcases mem_cons.mp member with rfl | inner
      · exact ⟨_, mem_cons_self, low, by simp only; omega⟩
      · rcases mem_cons.mp inner with rfl | inRest
        · exact ⟨_, mem_cons_self, by simp only; omega, by simp only; omega⟩
        · exact ⟨span, mem_cons_of_mem _ inRest, low, high⟩
    · obtain ⟨starts, apart, keeps⟩ := ih later
      refine ⟨?_, pairwise_cons.mpr ⟨?_, apart⟩, ?_⟩
      · intro span member
        rcases mem_cons.mp member with rfl | inRest
        · exact Nat.le_refl _
        · exact below.trans (starts span inRest)
      · intro span member
        have behind := starts span member
        omega
      · rintro position ⟨span, member, has⟩
        rcases mem_cons.mp member with rfl | inRest
        · exact ⟨span, mem_cons_self, has⟩
        · obtain ⟨other, isOther, has⟩ := keeps position ⟨span, inRest, has⟩
          exact ⟨other, mem_cons_of_mem _ isOther, has⟩

theorem mergeByteSpans_covers (ordered : start ≤ stop)
    (covered : ∀ position, start ≤ position → position < stop → InSpans spans position) :
    spanIsCovered (mergeByteSpans spans) start stop = true := by
  simp only [spanIsCovered, Bool.or_eq_true, decide_eq_true_eq, any_eq_true,
    Bool.and_eq_true]
  rcases Nat.eq_or_lt_of_le ordered with empty | filled
  · exact .inl empty
  right
  have rising : RisingSpans (spans.insertionSort ByteSpan.Before) := by
    apply (pairwise_insertionSort ByteSpan.Before spans).imp
    intro left right before
    unfold ByteSpan.Before at before
    omega
  have sorted : ∀ position, start ≤ position → position < stop →
      InSpans (spans.insertionSort ByteSpan.Before) position := by
    intro position low high
    obtain ⟨span, member, has⟩ := covered position low high
    exact ⟨span, mem_insertionSort _ |>.mpr member, has⟩
  unfold mergeByteSpans
  split
  · rename_i none
    obtain ⟨span, member, _⟩ := none ▸ sorted start (Nat.le_refl _) filled
    cases member
  · rename_i first rest isSorted
    rw [isSorted] at rising sorted
    obtain ⟨_, apart, keeps⟩ := mergeSpansFrom_spec rising
    exact one_covers apart (fun position low high => keeps position (sorted position low high))
      filled

theorem mergeRanges_covers {ranges : List LineRange} {range : LineRange} (member : range ∈ ranges) :
    ∃ merged ∈ mergeRanges ranges, merged.start ≤ range.start ∧ range.stop ≤ merged.stop := by
  have ordered := range.ordered
  obtain ⟨merged, isMerged, low, high⟩ := @one_covers LineRange (mergeRanges ranges)
    LineRange.start (fun range => range.stop + 1) range.start (range.stop + 1)
    (mergeRanges_separated ranges) (by
      intro line low high
      obtain ⟨merged, isMerged, begins, ends⟩ :=
        (mergeRanges_inRanges ranges line).mpr ⟨range, member, low, by omega⟩
      exact ⟨merged, isMerged, begins, by omega⟩) (by omega)
  exact ⟨merged, isMerged, low, by omega⟩

/-- A line of the text, with the newline that ends it. -/
structure IsLine (text : List UInt8) (span : ByteSpan) : Prop where
  begins : span.start = 0 ∨ text[span.start - 1]? = some newline
  ends : span.stop = text.length ∨ text[span.stop - 1]? = some newline
  inner : ∀ index, span.start ≤ index → index + 1 < span.stop → text[index]? ≠ some newline

theorem lineByteSpansFrom_isLine {whole passed : List UInt8} (rest : List UInt8)
    (isWhole : whole = passed ++ rest) (begins : start = 0 ∨ whole[start - 1]? = some newline)
    (inner : ∀ index, start ≤ index → index < passed.length → whole[index]? ≠ some newline) :
    ∀ span ∈ lineByteSpansFrom start passed.length rest, IsLine whole span := by
  induction rest generalizing passed start with
  | nil =>
    intro span member
    rw [lineByteSpansFrom] at member
    split_ifs at member with filled
    · obtain rfl := mem_singleton.mp member
      exact ⟨begins, .inl (by simp [isWhole]), fun index low high => inner index low (by
        simp only at high; omega)⟩
    · cases member
  | cons byte rest ih =>
    have here : whole[passed.length]? = some byte := by simp [isWhole]
    have isNext : whole = (passed ++ [byte]) ++ rest := by simp [isWhole]
    have length : (passed ++ [byte]).length = passed.length + 1 := by simp
    intro span member
    rw [lineByteSpansFrom] at member
    split_ifs at member with ends
    · rcases mem_cons.mp member with rfl | later
      · exact ⟨begins, .inr (here.trans (congrArg some ends)), fun index low high =>
          inner index low (by simp only at high; omega)⟩
      · rw [← length] at later
        refine ih isNext (.inr ?_) ?_ span later
        · rw [length, Nat.add_sub_cancel, here, ends]
        · intro index low high
          omega
    · rw [← length] at member
      refine ih isNext begins ?_ span member
      intro index low high
      by_cases last : index = passed.length
      · rw [last, here]
        exact fun same => ends (Option.some.inj same)
      · exact inner index low (by omega)

theorem lineByteSpans_isLine {text : List UInt8} {span : ByteSpan}
    (member : span ∈ lineByteSpans text) : IsLine text span :=
  @lineByteSpansFrom_isLine 0 text [] text rfl (.inl rfl) (by
    intro index _ high
    cases high) span member

theorem inSpans_transformSpans (placed : (position < editStart ∧ InSpans spans position) ∨
      (editStart ≤ position ∧ position < editStart + replacementLen) ∨
      (editStart + replacementLen ≤ position ∧
        InSpans spans (editOrigin editStart editEnd replacementLen position)))
    (ordered : editStart ≤ editEnd) :
    InSpans (transformSpans spans editStart editEnd replacementLen) position := by
  have kept : ∀ span : ByteSpan, span.Has position →
      span ∈ spans.flatMap (transformSpan editStart editEnd replacementLen) ++
        (if 0 < replacementLen then [(⟨editStart, editStart + replacementLen⟩ : ByteSpan)]
          else []) →
      InSpans (transformSpans spans editStart editEnd replacementLen) position := by
    intro span has member
    have filled : span.start < span.stop := Nat.lt_of_le_of_lt has.1 has.2
    exact ⟨span, mem_filter.mpr ⟨member, decide_eq_true filled⟩, has⟩
  rcases placed with ⟨early, old, belongs, low, high⟩ | ⟨low, high⟩ | ⟨late, old, belongs, low, high⟩
  · refine kept ⟨old.start, min old.stop editStart⟩ ⟨low, by simp only; omega⟩
      (mem_append_left _ (mem_flatMap.mpr ⟨old, belongs, mem_append_left _ ?_⟩))
    rw [if_pos (by omega)]
    exact mem_singleton_self _
  · refine kept ⟨editStart, editStart + replacementLen⟩ ⟨low, high⟩ (mem_append_right _ ?_)
    rw [if_pos (by omega)]
    exact mem_singleton_self _
  · unfold editOrigin at low high
    refine kept ⟨shiftOffset (max old.start editEnd) (editEnd - editStart) replacementLen,
        shiftOffset old.stop (editEnd - editStart) replacementLen⟩ ?_
      (mem_append_left _ (mem_flatMap.mpr ⟨old, belongs, mem_append_right _ ?_⟩))
    · constructor
      all_goals
        simp only [shiftOffset]
        omega
    · rw [if_pos (by omega)]
      exact mem_singleton_self _

theorem splice_front (early : index < editStart) (inside : editStart ≤ before.length) :
    (splice before new editStart editEnd)[index]? = before[index]? := by
  rw [splice, append_assoc, List.getElem?_append_left (by simp; omega),
    List.getElem?_take_of_lt early]

theorem splice_back (late : editEnd ≤ index) (inside : editStart ≤ before.length) :
    (splice before new editStart editEnd)[editStart + new.length + (index - editEnd)]? =
      before[index]? := by
  have length : (before.take editStart ++ new).length = editStart + new.length := by
    simp
    omega
  rw [splice, List.getElem?_append_right (by omega), List.getElem?_drop, length]
  congr 1
  omega

/-- Whole lines that hold the edit, with a line more on each side that the text goes on. -/
structure Stretch (before : List UInt8) (editStart editEnd : Nat) (span : ByteSpan) : Prop where
  begins : span.start = 0 ∨ span.start < editStart ∧ before[span.start - 1]? = some newline
  ends : span.stop = before.length ∨ editEnd < span.stop ∧ before[span.stop - 1]? = some newline
  low : span.start ≤ editStart
  high : editEnd ≤ span.stop
  bound : span.stop ≤ before.length

theorem Stretch.touched {span line : ByteSpan} (stretch : Stretch before editStart editEnd span)
    (ordered : editStart ≤ editEnd)
    (member : line ∈ touchedResultLines (lineByteSpans (splice before new editStart editEnd))
      editStart (editStart + new.length)) :
    span.start ≤ line.start ∧ line.start < line.stop ∧
      line.stop ≤ shiftOffset span.stop (editEnd - editStart) new.length := by
  obtain ⟨isMember, touches⟩ := mem_filter.mp member
  have tiled := lineByteSpans_tiled (splice before new editStart editEnd)
  have filled := (tiled.start_le isMember).2
  have bound := tiled.stop_le isMember
  have isLine := lineByteSpans_isLine isMember
  have length : (splice before new editStart editEnd).length =
      editStart + new.length + (before.length - editEnd) := by
    have inside := stretch.high.trans stretch.bound
    simp [splice]
    omega
  have high := stretch.high
  have near : line.start ≤ editStart + new.length ∧ editStart ≤ line.stop := by
    split_ifs at touches with empty
    all_goals
      simp only [Bool.and_eq_true, decide_eq_true_eq] at touches
      omega
  have inside : editStart ≤ before.length := (ordered.trans high).trans stretch.bound
  refine ⟨?_, filled, ?_⟩
  · rcases stretch.begins with first | ⟨early, separate⟩
    · omega
    · by_contra less
      refine isLine.inner (span.start - 1) (by omega) (by omega) ?_
      rw [splice_front (by omega) inside, separate]
  · unfold shiftOffset
    rcases stretch.ends with last | ⟨late, separate⟩
    · omega
    · by_contra more
      refine isLine.inner (editStart + new.length + (span.stop - 1 - editEnd)) (by omega)
        (by omega) ?_
      rw [splice_back (by omega) inside, separate]

theorem migrateEditCoverage_passes {authority : ReadAuthority} {range : LineRange}
    (ordered : editStart ≤ editEnd) (member : range ∈ authority.ranges)
    (isFirst : (lineByteSpans before)[range.start - 1]? = some first)
    (isFinal : (lineByteSpans before)[range.stop - 1]? = some final)
    (stretch : Stretch before editStart editEnd ⟨first.start, final.stop⟩)
    (covers : authority.covers
      (affectedLines (lineByteSpans before) authority.totalLines editStart editEnd).start
      (affectedLines (lineByteSpans before) authority.totalLines editStart editEnd).stop = true) :
    ∃ migration, migrateEditCoverage before (splice before new editStart editEnd) authority
      editStart editEnd new.length = .ok migration := by
  unfold migrateEditCoverage
  split_ifs with complete
  · exact ⟨_, rfl⟩
  have low : first.start ≤ editStart := stretch.low
  have high : editEnd ≤ final.stop := stretch.high
  have covered : ∀ {start stop}, first.start ≤ start → start ≤ stop → stop ≤ final.stop →
      spanIsCovered (knownByteSpans (lineByteSpans before) authority.ranges) start stop = true := by
    intro start stop begins ordered ends
    refine mergeByteSpans_covers ordered fun position behind early => ?_
    exact ⟨⟨first.start, final.stop⟩, mem_filterMap.mpr ⟨range, member, by
      rw [isFirst, isFinal]⟩, begins.trans behind, Nat.lt_of_lt_of_le early ends⟩
  have known := fun position => @spanIsCovered_inSpans _ _ _ position
    (covered (Nat.le_refl _) (low.trans (ordered.trans high)) (Nat.le_refl _))
  have touched : ∀ line ∈ touchedResultLines (lineByteSpans (splice before new editStart editEnd))
      editStart (editStart + new.length), spanIsCovered (mergeByteSpans (transformSpans
        (knownByteSpans (lineByteSpans before) authority.ranges) editStart editEnd new.length))
        line.start line.stop = true := by
    intro line isTouched
    obtain ⟨begins, filled, ends⟩ := stretch.touched ordered isTouched
    have ends : line.stop ≤ final.stop - (editEnd - editStart) + new.length := ends
    refine mergeByteSpans_covers (Nat.le_of_lt filled) fun position behind before => ?_
    refine inSpans_transformSpans ?_ ordered
    rcases Nat.lt_or_ge position editStart with early | late
    · exact .inl ⟨early, known position (begins.trans behind) (by omega)⟩
    · rcases Nat.lt_or_ge position (editStart + new.length) with written | late
      · exact .inr (.inl ⟨by omega, written⟩)
      · refine .inr (.inr ⟨late, known _ ?_ ?_⟩)
        all_goals
          unfold editOrigin
          omega
  simp only [covers, covered low ordered high, all_eq_true.mpr touched, Bool.true_eq_false, if_false]
  exact ⟨_, rfl⟩

variable {text : List UInt8}

theorem find_line (inside : position < text.length) : ∃ (index : Nat) (span : ByteSpan),
    ((lineByteSpans text).findIdx? fun line => position < line.stop) = some index ∧
      (lineByteSpans text)[index]? = some span ∧ position < span.stop ∧
      ∀ (other : Nat) (line : ByteSpan), other < index → (lineByteSpans text)[other]? = some line →
        line.stop ≤ position := by
  obtain ⟨place, line, isLine, has⟩ := (lineByteSpans_tiled text).find (Nat.zero_le _) inside
  cases found : (lineByteSpans text).findIdx? fun line => position < line.stop with
  | none =>
    have short := List.findIdx?_eq_none_iff.mp found line (mem_of_getElem? isLine)
    simp only [decide_eq_false_iff_not] at short
    exact absurd has.2 short
  | some index =>
    obtain ⟨bound, here, earlier⟩ := List.findIdx?_eq_some_iff_getElem.mp found
    refine ⟨index, _, rfl, List.getElem?_eq_getElem bound, by simpa using here, ?_⟩
    intro other line less isLine
    obtain ⟨_, rfl⟩ := List.getElem?_eq_some_iff.mp isLine
    simpa using earlier other less

/-- The lines of a match, from the first that ends behind its start. -/
theorem affectedLines_spec (filled : editStart < editEnd) (inside : editEnd ≤ text.length)
    (total : Nat) : ∃ (first last : Nat) (span : ByteSpan),
      (affectedLines (lineByteSpans text) total editStart editEnd).start = first + 1 ∧
      (affectedLines (lineByteSpans text) total editStart editEnd).stop = last + 1 ∧
      (lineByteSpans text)[last]? = some span ∧ editEnd ≤ span.stop ∧ first ≤ last ∧
      ∀ (other : Nat) (line : ByteSpan), other < first → (lineByteSpans text)[other]? = some line →
        line.stop ≤ editStart := by
  obtain ⟨first, head, isFirst, isHead, begins, earlier⟩ :=
    @find_line editStart text (Nat.lt_of_lt_of_le filled inside)
  obtain ⟨last, span, isLast, isSpan, ends, _⟩ := @find_line (editEnd - 1) text (by omega)
  have order : first ≤ last := by
    by_contra less
    have short := earlier last span (by omega) isSpan
    omega
  have some_lines : lineByteSpans text ≠ [] := by
    intro none
    rw [none] at isHead
    cases isHead
  have lastByte : max (editEnd - 1) editStart = editEnd - 1 := by omega
  have valid : 0 < first + 1 ∧ first + 1 ≤ last + 1 := by omega
  have isAffected : affectedLines (lineByteSpans text) total editStart editEnd =
      ⟨first + 1, last + 1, valid.1, valid.2⟩ := by
    simp only [affectedLines, lineRangeForByteRange, if_neg some_lines, isFirst, lastByte, isLast,
      Option.getD_some, LineRange.new, dif_pos valid]
  refine ⟨first, last, span, ?_, ?_, isSpan, by omega, order, earlier⟩
  · rw [isAffected]
  · rw [isAffected]

theorem Tiled.ends (tiled : Tiled start spans stop) {first final : ByteSpan} :
    (spans[0]? = some first → first.start = start) ∧
      (spans[spans.length - 1]? = some final → final.stop = stop) := by
  induction spans generalizing start with
  | nil => exact ⟨nofun, nofun⟩
  | cons span rest ih =>
    obtain ⟨begins, _, later⟩ := tiled
    refine ⟨fun isFirst => Option.some.inj isFirst ▸ begins, ?_⟩
    cases rest with
    | nil =>
      intro isFinal
      rw [← Option.some.inj isFinal]
      exact later
    | cons next others => exact (ih later).2

theorem stretch_of_lines {head final : ByteSpan} (inside : editEnd ≤ before.length)
    (isHead : (lineByteSpans before)[low]? = some head)
    (isFinal : (lineByteSpans before)[high]? = some final)
    (begins : low = 0 ∨ head.stop ≤ editStart)
    (ends : high + 1 = (lineByteSpans before).length ∨ editEnd < final.stop) :
    Stretch before editStart editEnd ⟨head.start, final.stop⟩ := by
  have tiled := lineByteSpans_tiled before
  have isLine : ∀ {index : Nat} {span : ByteSpan}, (lineByteSpans before)[index]? = some span →
      IsLine before span := fun found => lineByteSpans_isLine (mem_of_getElem? found)
  have filled := (tiled.start_le (mem_of_getElem? isHead)).2
  have bound := tiled.stop_le (mem_of_getElem? isFinal)
  have front : head.start = 0 ∨ head.start < editStart := by
    rcases begins with rfl | early
    · exact .inl ((@Tiled.ends _ _ _ tiled head head).1 isHead)
    · exact .inr (Nat.lt_of_lt_of_le filled early)
  have back : final.stop = before.length ∨ editEnd < final.stop := by
    rcases ends with last | late
    · refine .inl ((@Tiled.ends _ _ _ tiled final final).2 ?_)
      rw [← last]
      exact isFinal
    · exact .inr late
  constructor
  · rcases (isLine isHead).begins with first | separate
    · exact .inl first
    · exact front.imp_right fun early => ⟨early, separate⟩
  · rcases (isLine isFinal).ends with last | separate
    · exact .inl last
    · exact back.imp_right fun late => ⟨late, separate⟩
  · simp only
    omega
  · simp only
    omega
  · exact bound

/-- What a caller may edit by once it has read more of the same file. -/
def ReadAuthority.recorded (authority : ReadAuthority) (evidence : ReadEvidence) : ReadAuthority :=
  let state := recordedState (some ⟨evidence.revision, authority.totalLines,
    authority.endsWithNewline, authority.ranges, authority.complete⟩) evidence
  ⟨state.totalLines, state.endsWithNewline, state.ranges, state.complete⟩

variable {authority : ReadAuthority}

theorem required_suffices {range : LineRange}
    (total : authority.totalLines = logicalLineCount before)
    (inBounds : ∀ range ∈ authority.ranges, range.stop ≤ authority.totalLines)
    (filled : editStart < editEnd) (inside : editEnd ≤ before.length)
    (low : range.start ≤ (expandRequiredRange (affectedLines (lineByteSpans before)
      authority.totalLines editStart editEnd) authority.totalLines).1)
    (high : (expandRequiredRange (affectedLines (lineByteSpans before) authority.totalLines
      editStart editEnd) authority.totalLines).2 ≤ range.stop)
    (within : range.stop ≤ authority.totalLines)
    (isRange : evidence.ranges = [range]) (isTotal : evidence.totalLines = authority.totalLines) :
    ∃ migration, migrateEditCoverage before (splice before new editStart editEnd)
      (authority.recorded evidence) editStart editEnd new.length = .ok migration := by
  obtain ⟨first, last, span, isFirst, isLast, isSpan, ends, _, earlier⟩ :=
    affectedLines_spec filled inside authority.totalLines
  have lastBound := (List.getElem?_eq_some_iff.mp isSpan).1
  simp only [expandRequiredRange, isFirst, isLast] at low high
  have isRanges : (authority.recorded evidence).ranges = mergeRanges (authority.ranges ++ [range]) := by
    simp [ReadAuthority.recorded, recordedState, isRange]
  obtain ⟨merged, isMerged, begins, stops⟩ := @mergeRanges_covers (authority.ranges ++ [range]) range
    (by simp)
  have positive := merged.positive
  have ordered := merged.ordered
  have fits : merged.stop ≤ authority.totalLines := by
    obtain ⟨old, member, _, bound⟩ := (mergeRanges_inRanges (authority.ranges ++ [range])
      merged.stop).mp ⟨merged, isMerged, ordered, Nat.le_refl _⟩
    rcases mem_concat member with known | rfl
    · exact bound.trans (inBounds old known)
    · exact bound.trans within
  have length : (lineByteSpans before).length = authority.totalLines := by
    rw [lineByteSpans_length, total]
  obtain ⟨head, isHead⟩ : ∃ head, (lineByteSpans before)[merged.start - 1]? = some head :=
    ⟨_, List.getElem?_eq_getElem (by omega)⟩
  obtain ⟨final, isFinal⟩ : ∃ final, (lineByteSpans before)[merged.stop - 1]? = some final :=
    ⟨_, List.getElem?_eq_getElem (by omega)⟩
  refine migrateEditCoverage_passes (Nat.le_of_lt filled) (isRanges ▸ isMerged) isHead isFinal
    (stretch_of_lines inside isHead isFinal ?_ ?_) ?_
  · by_cases top : merged.start = 1
    · exact .inl (by omega)
    · exact .inr (earlier _ head (by omega) isHead)
  · by_cases bottom : merged.stop = authority.totalLines
    · exact .inl (by omega)
    · have tiled := lineByteSpans_tiled before
      have gap := tiled.order isSpan isFinal (by omega)
      have some_bytes := (tiled.start_le (mem_of_getElem? isFinal)).2
      exact .inr (by omega)
  · have isTotal : (authority.recorded evidence).totalLines = authority.totalLines := isTotal
    rw [isTotal, ReadAuthority.covers, isRanges, isFirst, isLast, Bool.or_eq_true, any_eq_true]
    exact .inr ⟨merged, isMerged, decide_eq_true ⟨by omega, by omega⟩⟩

theorem append_passes (total : authority.totalLines = logicalLineCount before) (eof : authority.hasEof = true) :
    ∃ migration, migrateEditCoverage before (splice before new before.length before.length)
      authority before.length before.length new.length = .ok migration := by
  cases complete : authority.complete with
  | true =>
    rw [migrateEditCoverage, if_pos complete]
    exact ⟨_, rfl⟩
  | false =>
    simp only [ReadAuthority.hasEof, complete, Bool.false_or, Bool.and_eq_true, decide_eq_true_eq,
      any_eq_true] at eof
    obtain ⟨positive, range, member, isEof⟩ := eof
    have length : (lineByteSpans before).length = authority.totalLines := by
      rw [lineByteSpans_length, total]
    have ordered := range.ordered
    have tiled := lineByteSpans_tiled before
    obtain ⟨head, isHead⟩ : ∃ head, (lineByteSpans before)[range.start - 1]? = some head :=
      ⟨_, List.getElem?_eq_getElem (by omega)⟩
    obtain ⟨final, isFinal⟩ : ∃ final, (lineByteSpans before)[range.stop - 1]? = some final :=
      ⟨_, List.getElem?_eq_getElem (by omega)⟩
    refine migrateEditCoverage_passes (Nat.le_refl _) member isHead isFinal
      (stretch_of_lines (Nat.le_refl _) isHead isFinal
        (.inr (tiled.stop_le (mem_of_getElem? isHead))) (.inl (by omega))) ?_
    have nothing : ((lineByteSpans before).findIdx? fun line => before.length < line.stop) = none := by
      rw [List.findIdx?_eq_none_iff]
      intro line member
      have bound := tiled.stop_le member
      exact decide_eq_false (by omega)
    have some_lines : lineByteSpans before ≠ [] := by
      intro none
      rw [none] at length
      simp only [length_nil] at length
      omega
    have isLast : max (before.length - 1) before.length = before.length := by omega
    have valid : 0 < authority.totalLines - 1 + 1 ∧
        authority.totalLines - 1 + 1 ≤ authority.totalLines - 1 + 1 := by omega
    have isAffected : affectedLines (lineByteSpans before) authority.totalLines before.length
        before.length = ⟨authority.totalLines - 1 + 1, authority.totalLines - 1 + 1, valid.1,
          valid.2⟩ := by
      simp only [affectedLines, lineRangeForByteRange, if_neg some_lines, isLast, nothing, length,
        Option.getD_none, LineRange.new, dif_pos valid, Option.getD_some]
    rw [isAffected, ReadAuthority.covers, Bool.or_eq_true, any_eq_true]
    refine .inr ⟨range, member, decide_eq_true ⟨?_, ?_⟩⟩
    · show range.start ≤ authority.totalLines - 1 + 1
      omega
    · show authority.totalLines - 1 + 1 ≤ range.stop
      omega

theorem migrateEditCoverage_error {after : List UInt8}
    (refused : migrateEditCoverage before after authority editStart editEnd replacementLen =
      .error required) : required = expandRequiredRange (affectedLines (lineByteSpans before)
        authority.totalLines editStart editEnd) authority.totalLines := by
  unfold migrateEditCoverage at refused
  dsimp only at refused
  split_ifs at refused
  all_goals exact (Except.error.inj refused).symm

/-- The lines that a refused patch names are lines of the file, and the same patch passes once
they were read; an append passes when the last line is known. -/
theorem refused_patch_names_enough :
    (∀ (before new : List UInt8) (authority : ReadAuthority) (editStart editEnd : Nat)
      (required : Nat × Nat), authority.totalLines = logicalLineCount before →
      (∀ range ∈ authority.ranges, range.stop ≤ authority.totalLines) →
      editStart < editEnd → editEnd ≤ before.length →
      migrateEditCoverage before (splice before new editStart editEnd) authority editStart editEnd
        new.length = .error required →
      (0 < required.1 ∧ required.1 ≤ required.2 ∧ required.2 ≤ authority.totalLines) ∧
        ∀ (range : LineRange) (evidence : ReadEvidence), range.start ≤ required.1 →
          required.2 ≤ range.stop → range.stop ≤ authority.totalLines →
          evidence.ranges = [range] → evidence.totalLines = authority.totalLines →
          ∃ migration, migrateEditCoverage before (splice before new editStart editEnd)
            (authority.recorded evidence) editStart editEnd new.length = .ok migration) ∧
    ∀ (before new : List UInt8) (authority : ReadAuthority),
      authority.totalLines = logicalLineCount before → authority.hasEof = true →
      ∃ migration, migrateEditCoverage before (splice before new before.length before.length)
        authority before.length before.length new.length = .ok migration := by
  refine ⟨?_, fun before new authority => append_passes⟩
  intro before new authority editStart editEnd required total inBounds filled inside refused
  obtain rfl := migrateEditCoverage_error refused
  refine ⟨?_, fun range evidence => required_suffices total inBounds filled inside⟩
  obtain ⟨first, last, span, isFirst, isLast, isSpan, _, order, _⟩ :=
    affectedLines_spec filled inside authority.totalLines
  have bound := (List.getElem?_eq_some_iff.mp isSpan).1
  rw [lineByteSpans_length, ← total] at bound
  simp only [expandRequiredRange, isFirst, isLast]
  omega

namespace FiveLines

def file : List UInt8 := [97, 10, 98, 10, 99, 10, 100, 10, 101, 10]

def firstRead : ReadAuthority := ⟨5, true, [⟨1, 1, Nat.one_pos, Nat.one_pos⟩], false⟩

def reading (range : LineRange) : ReadEvidence := ⟨[], ⟨[], 10⟩, 5, true, [range], false⟩

theorem refused : migrateEditCoverage file (splice file [120] 4 5) firstRead 4 5 1 =
    .error (2, 4) := rfl

theorem reading_lets_patch_pass : ∃ migration, migrateEditCoverage file (splice file [120] 4 5)
    (firstRead.recorded (reading ⟨2, 4, Nat.two_pos, by decide⟩)) 4 5 1 = .ok migration :=
  (refused_patch_names_enough.1 file [120] firstRead 4 5 (2, 4) rfl (by decide) (by decide)
    (by decide) refused).2 ⟨2, 4, Nat.two_pos, by decide⟩ _ (Nat.le_refl 2) (Nat.le_refl 4)
    (by decide) rfl rfl

theorem range_behind_last_line_is_refused : ¬∀ range : LineRange, range.start ≤ 2 → 4 ≤ range.stop →
    ∃ migration, migrateEditCoverage file (splice file [120] 4 5)
      (firstRead.recorded (reading range)) 4 5 1 = .ok migration := by
  intro claimed
  obtain ⟨migration, passes⟩ := claimed ⟨1, 9, Nat.one_pos, by decide⟩ (by decide) (by decide)
  exact nomatch (show Except.error (2, 4) = Except.ok migration from passes)

end FiveLines

end AgentClaimNetwork.Tool
