import AgentClaimNetwork.Api.SseFrames

/-!
SSE streams as a server writes them, and what the decoders read from them.
-/

namespace AgentClaimNetwork.Api.SseFrames

open Library Library.Framing List

variable {ending : LineEnd} {block : Block}

inductive LineEnd
  | lf
  | crlf

def LineEnd.text : LineEnd → List Char
  | .lf => ['\n']
  | .crlf => ['\r', '\n']

def LineEnd.bytes : LineEnd → List UInt8
  | .lf => [10]
  | .crlf => [13, 10]

inductive FieldName
  | event
  | id
  | comment

def FieldName.text : FieldName → List Char
  | .event => "event:".toList
  | .id => "id:".toList
  | .comment => [':']

structure Field where
  name : FieldName
  value : List Char
  unbroken : '\n' ∉ value

structure Payload where
  text : List Char
  unbroken : '\n' ∉ text
  whole : text.getLast? ≠ some '\r'

structure Block where
  before : List Field
  data : Option Payload
  after : List Field
  nonempty : before ≠ [] ∨ data.isSome = true ∨ after ≠ []

def Field.line (field : Field) : List Char := field.name.text ++ field.value

def Payload.line (payload : Payload) : List Char := "data: ".toList ++ payload.text

def Block.lines (block : Block) : List (List Char) :=
  block.before.map Field.line ++ block.data.toList.map Payload.line ++ block.after.map Field.line

def joinLines {Item : Type} (ending : List Item) : List (List Item) → List Item
  | [] => []
  | [line] => line
  | line :: next :: rest => line ++ ending ++ joinLines ending (next :: rest)

def Block.text (ending : LineEnd) (block : Block) : List Char :=
  joinLines ending.text block.lines ++ ending.text ++ ending.text

def written (ending : LineEnd) (blocks : List Block) : List UInt8 :=
  Utf8.encode (blocks.flatMap (Block.text ending))

section

variable {tail : List UInt8}

theorem scan_skip (notFeed : byte ≠ 10)
    (notReturns : returnFeeds.isPrefixOf (byte :: rest) = false) :
    scan (byte :: rest) = (scan rest).map fun found => (found.1 + 1, found.2) := by
  have notFeeds : lineFeeds.isPrefixOf (byte :: rest) = false := by
    simp [lineFeeds, isPrefixOf, notFeed.symm]
  rw [scan, notFeeds, notReturns]
  rfl

theorem scan_line (unbroken : 10 ∉ line) (split : ∀ byte, line.getLast? = some byte →
      returnFeeds.isPrefixOf (byte :: tail) = false) :
    scan (line ++ tail) = (scan tail).map fun found => (found.1 + line.length, found.2) := by
  induction line with
  | nil => simp
  | cons byte inner ih =>
    have different : byte ≠ 10 := fun same => unbroken (by simp [same])
    have innerUnbroken : 10 ∉ inner := fun member => unbroken (by simp [member])
    have notReturns : returnFeeds.isPrefixOf (byte :: (inner ++ tail)) = false := by
      cases inner with
      | nil => exact split byte rfl
      | cons second others =>
        have secondDifferent : second ≠ 10 := fun same => innerUnbroken (by simp [same])
        simp [returnFeeds, isPrefixOf, secondDifferent.symm]
    have innerSplit : ∀ last, inner.getLast? = some last →
        returnFeeds.isPrefixOf (last :: tail) = false := by
      intro last ends
      refine split last ?_
      cases inner with
      | nil => cases ends
      | cons second others => rw [List.getLast?_cons_cons]; exact ends
    rw [cons_append, scan_skip different notReturns, ih innerUnbroken innerSplit, Option.map_map]
    congr 1

theorem scan_next (unbroken : 10 ∉ line) (opens : tail.head? = some first) (notFeed : first ≠ 10)
    (notReturn : first ≠ 13) : scan (line ++ ending.bytes ++ tail) = (scan tail).map fun found =>
      (found.1 + (line ++ ending.bytes).length, found.2) := by
  obtain ⟨others, rfl⟩ : ∃ others, tail = first :: others := by
    cases tail with
    | nil => cases opens
    | cons head others => exact ⟨others, by rw [Option.some.inj opens]⟩
  have atEnd : scan (ending.bytes ++ first :: others) = (scan (first :: others)).map fun found =>
      (found.1 + ending.bytes.length, found.2) := by
    cases ending <;>
      simp [LineEnd.bytes, scan, lineFeeds, returnFeeds, isPrefixOf, notFeed.symm,
        notReturn.symm, Option.map_map, Function.comp_def]
  rw [append_assoc, scan_line unbroken, atEnd, Option.map_map]
  · congr 1
    funext found
    simp only [Function.comp_apply, length_append, Prod.mk.injEq, and_true]
    omega
  · intro byte _
    cases ending <;> simp [LineEnd.bytes, returnFeeds, isPrefixOf, notReturn.symm]

theorem scan_end (unbroken : 10 ∉ line) : scan (line ++ ending.bytes ++ ending.bytes ++ rest) =
      some (line.length, (ending.bytes ++ ending.bytes).length) := by
  have atEnd : scan (ending.bytes ++ (ending.bytes ++ rest)) =
      some (0, (ending.bytes ++ ending.bytes).length) := by
    cases ending <;> simp [LineEnd.bytes, scan, lineFeeds, returnFeeds, isPrefixOf]
  rw [append_assoc, append_assoc, scan_line unbroken, atEnd]
  · simp
  · intro byte _
    cases ending <;> simp [LineEnd.bytes, returnFeeds, isPrefixOf]

theorem scan_block (nonempty : lines ≠ []) (unbroken : ∀ line ∈ lines, 10 ∉ line)
    (opens : ∀ line ∈ lines, ∃ first, line.head? = some first ∧ first ≠ 10 ∧ first ≠ 13) :
    scan (joinLines ending.bytes lines ++ ending.bytes ++ ending.bytes ++ rest) =
      some ((joinLines ending.bytes lines).length, (ending.bytes ++ ending.bytes).length) := by
  induction lines with
  | nil => exact absurd rfl nonempty
  | cons line later ih =>
    cases later with
    | nil => exact scan_end (unbroken line mem_cons_self)
    | cons next others =>
      have nextMember : next ∈ line :: next :: others := by simp
      obtain ⟨first, head, notFeed, notReturn⟩ := opens next nextMember
      have inner := ih (by simp)
        (fun other member => unbroken other (mem_cons_of_mem _ member))
        (fun other member => opens other (mem_cons_of_mem _ member))
      have headTail : (joinLines ending.bytes (next :: others) ++ ending.bytes ++ ending.bytes ++
          rest).head? = some first := by
        cases others <;> simp [joinLines, head]
      have shape : joinLines ending.bytes (line :: next :: others) ++ ending.bytes ++
          ending.bytes ++ rest = line ++ ending.bytes ++
            (joinLines ending.bytes (next :: others) ++ ending.bytes ++ ending.bytes ++ rest) := by
        simp [joinLines]
      rw [shape, scan_next (unbroken line mem_cons_self) headTail notFeed notReturn, inner]
      simp [joinLines]
      omega

end

section

theorem encode_ending (ending : LineEnd) : Utf8.encode ending.text = ending.bytes := by
  cases ending <;> rfl

theorem encode_joinLines (ending : LineEnd) (lines : List (List Char)) :
    Utf8.encode (joinLines ending.text lines) = joinLines ending.bytes (lines.map Utf8.encode) := by
  induction lines with
  | nil => rfl
  | cons line later ih =>
    cases later with
    | nil => rfl
    | cons next others =>
      change Utf8.encode (line ++ ending.text ++ joinLines ending.text (next :: others)) = _
      rw [Utf8.encode_append, Utf8.encode_append, encode_ending, ih]
      rfl

theorem field_line (field : Field) : '\n' ∉ field.line ∧
    ∃ first, (Utf8.encode field.line).head? = some first ∧ first ≠ 10 ∧ first ≠ 13 := by
  constructor
  · intro member
    rcases mem_append.mp member with inName | inValue
    · revert inName
      cases field.name <;> decide
    · exact field.unbroken inValue
  · unfold Field.line
    cases field.name
    · exact ⟨101, rfl, by decide, by decide⟩
    · exact ⟨105, rfl, by decide, by decide⟩
    · exact ⟨58, rfl, by decide, by decide⟩

theorem payload_line (payload : Payload) : '\n' ∉ payload.line ∧
    ∃ first, (Utf8.encode payload.line).head? = some first ∧ first ≠ 10 ∧ first ≠ 13 := by
  constructor
  · intro member
    rcases mem_append.mp member with inName | inText
    · revert inName
      decide
    · exact payload.unbroken inText
  · unfold Payload.line
    exact ⟨100, rfl, by decide, by decide⟩

theorem block_line (member : line ∈ block.lines) : '\n' ∉ line ∧
    ∃ first, (Utf8.encode line).head? = some first ∧ first ≠ 10 ∧ first ≠ 13 := by
  unfold Block.lines at member
  simp only [mem_append, mem_map] at member
  rcases member with (⟨field, -, rfl⟩ | ⟨payload, -, rfl⟩) | ⟨field, -, rfl⟩
  · exact field_line field
  · exact payload_line payload
  · exact field_line field

theorem block_nonempty : block.lines ≠ [] := by
  intro empty
  unfold Block.lines at empty
  simp only [append_eq_nil_iff, map_eq_nil_iff, Option.toList_eq_nil_iff] at empty
  obtain ⟨⟨noBefore, noData⟩, noAfter⟩ := empty
  rcases block.nonempty with before | data | after
  · exact before noBefore
  · rw [noData] at data
    cases data
  · exact after noAfter

def Block.frame (ending : LineEnd) (block : Block) : List UInt8 :=
  Utf8.encode (joinLines ending.text block.lines)

theorem findFrameEnd_block :
    findFrameEnd (Utf8.encode (block.text ending) ++ rest) =
      some ((block.frame ending).length, (ending.bytes ++ ending.bytes).length) := by
  have lines : ∀ line ∈ block.lines.map Utf8.encode, 10 ∉ line ∧
      ∃ first, line.head? = some first ∧ first ≠ 10 ∧ first ≠ 13 := by
    intro line member
    obtain ⟨text, inBlock, rfl⟩ := mem_map.mp member
    obtain ⟨unbroken, opens⟩ := block_line inBlock
    exact ⟨fun feed => unbroken (Utf8.newline_mem_encode feed), opens⟩
  have nonempty : block.lines.map Utf8.encode ≠ [] := by
    simpa using block_nonempty
  have shape : Utf8.encode (block.text ending) = joinLines ending.bytes (block.lines.map Utf8.encode) ++
      ending.bytes ++ ending.bytes := by
    rw [Block.text, Utf8.encode_append, Utf8.encode_append, encode_ending, encode_joinLines]
  rw [findFrameEnd_scan, shape, Block.frame, encode_joinLines]
  exact scan_block nonempty (fun line member => (lines line member).1)
    fun line member => (lines line member).2

theorem drain_written (ending : LineEnd) (blocks : List Block) :
    drainSseFrames (written ending blocks) = (blocks.map (Block.frame ending), []) := by
  induction blocks with
  | nil => exact drain_none (find_nil sseSeparator)
  | cons block rest ih =>
    have whole : written ending (block :: rest) =
        Utf8.encode (block.text ending) ++ written ending rest := by
      rw [written, flatMap_cons, Utf8.encode_append]
      rfl
    have found : sseSeparator.find (written ending (block :: rest)) =
        some ((block.frame ending).length, (ending.bytes ++ ending.bytes).length) := by
      rw [whole]
      exact findFrameEnd_block
    have split : Utf8.encode (block.text ending) =
        block.frame ending ++ (ending.bytes ++ ending.bytes) := by
      rw [Block.text, Block.frame, Utf8.encode_append, Utf8.encode_append, encode_ending,
        append_assoc]
    unfold drainSseFrames at ih ⊢
    rw [drain_some found, whole, split, append_assoc, take_left, ← append_assoc,
      ← length_append, drop_left, ih]
    rfl

end

theorem lines_line (unbroken : '\n' ∉ line) (rest : List Char) :
    LineLog.lines (line ++ '\n' :: rest) = LineLog.stripReturn line :: LineLog.lines rest := by
  rw [LineLog.lines, LineLog.linesFrom_line unbroken, append_nil, LineLog.linesFrom,
    reverse_reverse]
  rfl

theorem filterMap_lines {Read : Type} {read : List Char → Option Read} (nonempty : lines ≠ [])
    (unbroken : ∀ line ∈ lines, '\n' ∉ line) (solid : ∀ line ∈ lines, line ≠ [])
    (stripped : ∀ line ∈ lines, read (LineLog.stripReturn line) = read line) :
    (LineLog.lines (joinLines ending.text lines)).filterMap read = lines.filterMap read := by
  induction lines with
  | nil => exact absurd rfl nonempty
  | cons line later ih =>
    have here := unbroken line mem_cons_self
    cases later with
    | nil =>
      change (LineLog.lines line).filterMap read = _
      rw [LineLog.lines_last here, if_neg (solid line mem_cons_self)]
    | cons next others =>
      have inner := ih (by simp)
        (fun other member => unbroken other (mem_cons_of_mem _ member))
        (fun other member => solid other (mem_cons_of_mem _ member))
        (fun other member => stripped other (mem_cons_of_mem _ member))
      have first : ∃ received, LineLog.lines (joinLines ending.text (line :: next :: others)) =
          received :: LineLog.lines (joinLines ending.text (next :: others)) ∧
            read received = read line := by
        cases ending with
        | lf =>
          refine ⟨LineLog.stripReturn line, ?_, stripped line mem_cons_self⟩
          have shape : joinLines LineEnd.lf.text (line :: next :: others) =
              line ++ '\n' :: joinLines LineEnd.lf.text (next :: others) := by
            simp [joinLines, LineEnd.text]
          rw [shape, lines_line here]
        | crlf =>
          refine ⟨line, ?_, rfl⟩
          have shape : joinLines LineEnd.crlf.text (line :: next :: others) =
              (line ++ ['\r']) ++ '\n' :: joinLines LineEnd.crlf.text (next :: others) := by
            simp [joinLines, LineEnd.text]
          have whole : LineLog.stripReturn (line ++ ['\r']) = line := by
            simp [LineLog.stripReturn]
          rw [shape, lines_line (by simp [here]), whole]
      obtain ⟨received, split, same⟩ := first
      rw [split, filterMap_cons, filterMap_cons, same, inner]

theorem stripReturn_field (name : FieldName) (value : List Char) :
    ∃ other, LineLog.stripReturn (name.text ++ value) = name.text ++ other := by
  unfold LineLog.stripReturn
  split_ifs with returned
  · cases value with
    | nil =>
      have whole : (name.text ++ []).getLast? ≠ some '\r' := by cases name <;> decide
      exact absurd returned whole
    | cons first rest =>
      exact ⟨(first :: rest).dropLast, dropLast_append_of_ne_nil (by simp)⟩
  · exact ⟨value, rfl⟩

theorem stripReturn_payload (payload : Payload) :
    LineLog.stripReturn payload.line = payload.line := by
  refine if_neg fun returned => ?_
  unfold Payload.line at returned
  cases text : payload.text with
  | nil =>
    rw [text] at returned
    revert returned
    decide
  | cons first rest =>
    rw [text, List.getLast?_append_of_ne_nil _ (by simp), ← text] at returned
    exact payload.whole returned

theorem filterMap_block {read : List Char → Option (List Char)}
    (fields : ∀ (name : FieldName) value, read (name.text ++ value) = none)
    (payloads : ∀ payload : Payload, read payload.line = some (received payload)) :
    joinData ((LineLog.lines (joinLines ending.text block.lines)).filterMap read) =
      block.data.map received := by
  have stripped : ∀ line ∈ block.lines, read (LineLog.stripReturn line) = read line := by
    intro line member
    have ofField : ∀ field : Field, read (LineLog.stripReturn field.line) = read field.line := by
      intro field
      obtain ⟨other, same⟩ := stripReturn_field field.name field.value
      unfold Field.line
      rw [same, fields, fields]
    unfold Block.lines at member
    simp only [mem_append, mem_map] at member
    rcases member with (⟨field, -, rfl⟩ | ⟨payload, -, rfl⟩) | ⟨field, -, rfl⟩
    · exact ofField field
    · rw [stripReturn_payload]
    · exact ofField field
  have solid : ∀ line ∈ block.lines, line ≠ [] := by
    intro line member empty
    obtain ⟨-, first, head, -⟩ := block_line member
    rw [empty] at head
    cases head
  have noFields : ∀ list : List Field, (list.map Field.line).filterMap read = [] := by
    intro list
    simp only [filterMap_eq_nil_iff, mem_map, forall_exists_index, and_imp]
    rintro line field - rfl
    exact fields field.name field.value
  rw [filterMap_lines block_nonempty (fun line member => (block_line member).1) solid stripped]
  unfold Block.lines
  rw [filterMap_append, filterMap_append, noFields, noFields]
  cases block.data with
  | none => rfl
  | some payload =>
    simp only [Option.toList_some, map_cons, map_nil, filterMap_cons, payloads,
      filterMap_nil, nil_append, append_nil, Option.map_some]
    simp [joinData, intercalate]

theorem dataField_payload (payload : Payload) :
    dataField payload.line = some (' ' :: payload.text) := by
  simp [dataField, Payload.line, isPrefixOf]

theorem dataField_field (name : FieldName) (value : List Char) :
    dataField (name.text ++ value) = none := by
  cases name <;> rfl

theorem anthropicFrameData_block :
    anthropicFrameData (block.frame ending) = some (block.data.map Payload.text) := by
  unfold anthropicFrameData Block.frame
  rw [Utf8.strict_encode, Option.map_some]
  refine congrArg some (filterMap_block (fun name value => ?_) fun payload => ?_)
  · obtain ⟨other, same⟩ := stripReturn_field name value
    simp only [same, dataField_field]
    simp
  · simp only [stripReturn_payload, dataField_payload]
    simp [Payload.line, isPrefixOf, stripSpace]

theorem sseFrameData_block :
    sseFrameData (block.frame ending) = some (block.data.map fun payload => trimStart payload.text) := by
  unfold sseFrameData Block.frame
  rw [Utf8.strict_encode, Option.map_some]
  refine congrArg some (filterMap_block (fun name value => ?_) fun payload => ?_)
  · simp only [dataField_field]
    rfl
  · rfl

variable {State Event Failure Result : Type}

inductive Provider
  | anthropic
  | chatCompletions
  | responses

def Provider.frameData : Provider → List UInt8 → Option (Option (List Char))
  | .anthropic => anthropicFrameData
  | .chatCompletions => sseFrameData
  | .responses => sseFrameData

inductive StreamError (Failure : Type)
  | notUtf8
  | event (failure : Failure)

/-- What a decoder makes of the data of a frame, with its check for `[DONE]` and its reading of the JSON,
and of the end of the stream. -/
structure EventDecoder (State Event Failure Result : Type) where
  start : State
  apply : State → List Char → List Event × Except Failure State
  finish : State → Except Failure Result

variable (provider : Provider)

def Provider.handle (decoder : EventDecoder State Event Failure Result) (state : State)
    (frame : List UInt8) : List Event × Except (StreamError Failure) State :=
  match provider.frameData frame with
  | none => ([], .error .notUtf8)
  | some none => ([], .ok state)
  | some (some data) =>
    let applied := decoder.apply state data
    (applied.1, applied.2.mapError .event)

/-- The decoder of a provider: `ResponsesSseDecoder`, and the reading loops of the other two. -/
def Provider.reader (decoder : EventDecoder State Event Failure Result) :
    Reader UInt8 State Event (StreamError Failure) Result where
  start := decoder.start
  handle := provider.handle decoder
  finish := fun state => (decoder.finish state).mapError .event

def Provider.received : Provider → Payload → List Char
  | .anthropic, payload => payload.text
  | _, payload => trimStart payload.text

theorem frameData_block (ending : LineEnd) (block : Block) :
    provider.frameData (block.frame ending) = some (block.data.map provider.received) := by
  cases provider with
  | anthropic => exact anthropicFrameData_block
  | chatCompletions | responses => exact sseFrameData_block

theorem received_solid (payload : Payload)
    (solid : ∀ first, payload.text.head? = some first → LineLog.isWhitespace first = false) :
    provider.received payload = payload.text := by
  have whole : trimStart payload.text = payload.text := by
    unfold trimStart
    cases text : payload.text with
    | nil => rfl
    | cons first rest =>
      have isSolid := solid first (by rw [text]; rfl)
      rw [dropWhile_cons_of_neg (by simp [isSolid])]
  cases provider with
  | anthropic => rfl
  | chatCompletions | responses => exact whole

/-- The same bytes in other chunks give the same frames, rest, events and outcome.  The frames of a
written stream give its payloads in order, and nothing is left; the Chat Completions and the Responses
decoder drop leading white space of a payload, which none has that begins with its JSON value. -/
theorem sse_chunks_agree (provider : Provider) (decoder : EventDecoder State Event Failure Result)
    {chunks others : List (List UInt8)} (same : chunks.flatten = others.flatten) :
    extract sseSeparator chunks = extract sseSeparator others ∧
      (provider.reader decoder).run sseSeparator chunks =
        (provider.reader decoder).run sseSeparator others ∧
      (∀ ending blocks, chunks.flatten = written ending blocks →
        (extract sseSeparator chunks).2 = [] ∧
          (extract sseSeparator chunks).1.map provider.frameData =
            blocks.map fun block => some (block.data.map provider.received)) ∧
      ∀ payload : Payload,
        (∀ first, payload.text.head? = some first → LineLog.isWhitespace first = false) →
          provider.received payload = payload.text := by
  refine ⟨?_, ?_, fun ending blocks stream => ?_, received_solid provider⟩
  · rw [extract_eq, extract_eq, same]
  · rw [run_eq, run_eq, same]
  · have drained := drain_written ending blocks
    unfold drainSseFrames at drained
    rw [extract_eq, stream, drained]
    refine ⟨rfl, ?_⟩
    rw [map_map]
    exact map_congr_left fun block _ => frameData_block provider ending block

def spacedNumber : Payload := ⟨[' ', '1'], by decide, by decide⟩

/-- A JSON text may begin with white space, which the Chat Completions decoder drops. -/
theorem leading_space_is_dropped :
    ¬ ∀ (payload : Payload) (block : Block), block.data = some payload →
      (extract sseSeparator [written .lf [block]]).1.map sseFrameData = [some (some payload.text)] := by
  intro claims
  have claimed := claims spacedNumber ⟨[], some spacedNumber, [], by simp⟩ rfl
  have drained := drain_written .lf [⟨[], some spacedNumber, [], by simp⟩]
  unfold drainSseFrames at drained
  rw [extract_eq, flatten_singleton, drained, map_singleton, map_singleton,
    sseFrameData_block] at claimed
  revert claimed
  decide

def eventStream : List UInt8 :=
  written .crlf [⟨[⟨.event, ['é'], by decide⟩], some ⟨['é'], by decide, by decide⟩, [], .inl nofun⟩,
    ⟨[⟨.comment, [], by decide⟩], none, [], .inl nofun⟩,
    ⟨[], some ⟨['1'], by decide, by decide⟩, [], .inr (.inl rfl)⟩]

def recordingDecoder : EventDecoder (List (List Char)) (List Char) Unit (List (List Char)) :=
  ⟨[], fun read data => ([data], .ok (read ++ [data])), .ok⟩

/-- Cut into single bytes, the stream reads as in one chunk. -/
theorem sse_chunks_agree_cut :
    (Provider.responses.reader recordingDecoder).run sseSeparator (eventStream.map ([·])) =
        (Provider.responses.reader recordingDecoder).run sseSeparator [eventStream] ∧
      (extract sseSeparator (eventStream.map ([·]))).2 = [] ∧
      (extract sseSeparator (eventStream.map ([·]))).1.map sseFrameData =
        [some (some ['é']), some none, some (some ['1'])] := by
  have joined : (eventStream.map ([·])).flatten = eventStream := by
    rw [← flatMap_def, flatMap_singleton']
  obtain ⟨-, same, payloads, -⟩ := @sse_chunks_agree _ _ _ _ .responses recordingDecoder
    (eventStream.map ([·])) [eventStream] (by simp [joined])
  obtain ⟨rest, frames⟩ := payloads .crlf _ joined
  exact ⟨same, rest, frames.trans (by decide)⟩

end AgentClaimNetwork.Api.SseFrames
