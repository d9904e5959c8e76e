import AgentClaimNetwork.Library.Trace
import AgentClaimNetwork.Delegation.Event

/-!
`events.jsonl` of one subagent as a byte file.  Every append repairs the tail, finds the last
number in a bounded window and writes one line.
-/

namespace AgentClaimNetwork.Delegation

open Library LineLog List
open Utf8 (encode lossy)

variable {events : List DelegationEvent}

def maxEventTailLimit : Nat := 50
def eventTailReadWindowBytes : Nat := 256 * 1024
def eventTailRepairChunkBytes : Nat := 64 * 1024
def eventTailRepairMaxLineBytes : Nat := 256 * 1024

def clampEventTailLimit (limit : Nat) : Nat := max 1 (min limit maxEventTailLimit)

structure EventFiles where
  events : List UInt8
  /-- `events.seq`, always written whole. -/
  sidecar : Option Nat

structure JsonLine where
  line : Nat

def rposition : List UInt8 → Option Nat
  | [] => none
  | byte :: rest =>
    match rposition rest with
    | some index => some (index + 1)
    | none => if byte = newline then some 0 else none

/-- The chunked backward search; `fuel` bounds the rounds. -/
def findLastNewlineOffset (file : List UInt8) : Nat → Nat → Option Nat
  | 0, _ => none
  | fuel + 1, remaining =>
    if remaining = 0 then none
    else
      let readLen := min remaining eventTailRepairChunkBytes
      let start := remaining - readLen
      match rposition ((file.drop start).take readLen) with
      | some index => some (start + index)
      | none => findLastNewlineOffset file fuel start

def afterNewline (bytes : List UInt8) : List UInt8 :=
  (bytes.dropWhile (· ≠ newline)).drop 1

def tailWindow (file : List UInt8) : List UInt8 :=
  let start := file.length - eventTailReadWindowBytes
  if 0 < start then afterNewline (file.drop start) else file

def pushTail (limit : Nat) (tail : List DelegationEvent) (event : DelegationEvent) :
    List DelegationEvent :=
  (if tail.length = limit then tail.drop 1 else tail) ++ [event]

section

variable (reader : EventReader)

def collectTail (limit : Nat) (maybePartial : Bool) :
    Nat → List DelegationEvent → List Text → Except JsonLine (List DelegationEvent)
  | _, tail, [] => .ok tail
  | index, tail, line :: rest =>
    if isBlank line then collectTail limit maybePartial (index + 1) tail rest
    else match reader.read line with
      | some event => collectTail limit maybePartial (index + 1) (pushTail limit tail event) rest
      | none => if maybePartial && rest.isEmpty then .ok tail else .error ⟨index + 1⟩

variable (file : List UInt8)

/-- `read_events_tail_unlocked`. -/
def readEventsTail (limit : Nat) : Except JsonLine (List DelegationEvent) :=
  let text := lossy (tailWindow file)
  collectTail reader (clampEventTailLimit limit) (decide (text.getLast? ≠ some '\n')) 0 []
    (lines text)

/-- `serde_json::from_slice`. -/
def fromSlice (bytes : List UInt8) : Option DelegationEvent :=
  (Utf8.strict bytes).bind reader.read

def repairEventsTail : List UInt8 :=
  match file.getLast? with
  | none => file
  | some last =>
    if last = newline then file
    else
      let tailStart := match findLastNewlineOffset file file.length file.length with
        | some offset => offset + 1
        | none => 0
      if eventTailRepairMaxLineBytes < file.length - tailStart then file.take tailStart
      else if (fromSlice reader (file.drop tailStart)).isSome then file ++ [newline]
      else file.take tailStart

def readLastEventSeq : Except JsonLine (Option Nat) :=
  (readEventsTail reader file 1).map fun tail => tail.getLast?.map DelegationEvent.seq

def nextEventSeq (files : EventFiles) : Except JsonLine (Nat × EventFiles) := do
  let last ← readLastEventSeq reader files.events
  match files.sidecar, last with
  | sidecar, some last =>
    let synced := if sidecar ≠ some last then { files with sidecar := some last } else files
    return (min (last + 1) maxSeq, synced)
  | some _, none => return (1, files)
  | none, none => return (1, files)

/-- Where an append stops: `cut` after some bytes of the line, `completed` with `Ok`. -/
inductive AppendStop
  | beforeRepair
  | afterRepair
  | afterSeq
  | cut (bytes : Nat)
  | completed
deriving DecidableEq

structure AppendLabel where
  kind : DelegationEventKind
  stamp : Text
  stop : AppendStop

def eventLine (event : DelegationEvent) : List UInt8 := Utf8.encode event.text ++ [newline]

/-- `append_event_unlocked`, with the event it returns. -/
def appendEvent (files : EventFiles) (label : AppendLabel) : EventFiles × Option DelegationEvent :=
  if label.stop = .beforeRepair then (files, none)
  else
    let repaired := { files with events := repairEventsTail reader files.events }
    if label.stop = .afterRepair then (repaired, none)
    else match nextEventSeq reader repaired with
      | .error _ => (repaired, none)
      | .ok (seq, synced) =>
        let event : DelegationEvent := ⟨seq, label.stamp, boundEventKind label.kind⟩
        match label.stop with
        | .cut bytes =>
          ({ synced with events := synced.events ++ (eventLine event).take bytes }, none)
        | .completed =>
          ({ events := synced.events ++ eventLine event, sidecar := some seq }, some event)
        | _ => (synced, none)

/-- The log with the events whose append returned `Ok`, oldest first. -/
structure EventLog where
  files : EventFiles
  acknowledged : List DelegationEvent

def EventLog.empty : EventLog := ⟨⟨[], none⟩, []⟩

def EventLog.append (log : EventLog) (label : AppendLabel) : EventLog :=
  let result := appendEvent reader log.files label
  ⟨result.1, log.acknowledged ++ result.2.toList⟩

/-- One append; the length of a file is a `u64`. -/
def LogStep (log : EventLog) (label : AppendLabel) (next : EventLog) : Prop :=
  reader.stamps label.stamp ∧ next = log.append reader label ∧
    next.files.events.length < 2 ^ 64

end

theorem rposition_append (left right : List UInt8) : rposition (left ++ right) =
      match rposition right with
      | some index => some (left.length + index)
      | none => rposition left := by
  induction left with
  | nil => cases found : rposition right <;> simp [found, rposition]
  | cons byte left ih =>
    rw [cons_append, rposition, ih]
    cases found : rposition right with
    | some index =>
      simp only [length_cons]
      congr 1
      omega
    | none => simp [rposition]

theorem rposition_none (absent : newline ∉ bytes) : rposition bytes = none := by
  induction bytes with
  | nil => rfl
  | cons byte bytes ih =>
    have inner : newline ∉ bytes := fun member => absent (by simp [member])
    have different : byte ≠ newline := fun same => absent (by simp [same])
    rw [rposition, ih inner]
    simp [different]

theorem findLastNewlineOffset_eq (enough : remaining ≤ fuel)
    (inside : remaining ≤ file.length) :
    findLastNewlineOffset file fuel remaining = rposition (file.take remaining) := by
  induction fuel generalizing remaining with
  | zero =>
    obtain rfl : remaining = 0 := by omega
    rfl
  | succ fuel ih =>
    rw [findLastNewlineOffset]
    split_ifs with none
    · rw [none]
      rfl
    · have chunk : 0 < eventTailRepairChunkBytes := by decide
      set readLen := min remaining eventTailRepairChunkBytes with isReadLen
      have split : file.take remaining =
          file.take (remaining - readLen) ++ (file.drop (remaining - readLen)).take readLen := by
        rw [← take_add]
        congr 1
        omega
      have earlier := @ih (remaining - readLen) (by omega) (by omega)
      rw [split, rposition_append, length_take,
        Nat.min_eq_left (by omega : remaining - readLen ≤ file.length)]
      dsimp only
      rw [earlier]

section

variable {tail : List UInt8}

theorem rposition_frame (unfinished : newline ∉ tail) : (match rposition (frame texts ++ tail) with
      | some offset => offset + 1
      | none => 0) = (frame texts).length := by
  rw [rposition_append, rposition_none unfinished]
  rcases eq_nil_or_concat' texts with rfl | ⟨front, last, rfl⟩
  · rfl
  · have shape : frame (front ++ [last]) =
        (frame front ++ encode last) ++ [newline] := by
      simp [frame]
    rw [shape, rposition_append]
    simp [rposition, newline, Nat.add_assoc]

theorem tailStart_frame (unfinished : newline ∉ tail) :
    (match findLastNewlineOffset (frame texts ++ tail) (frame texts ++ tail).length
        (frame texts ++ tail).length with
      | some offset => offset + 1
      | none => 0) = (frame texts).length := by
  rw [findLastNewlineOffset_eq (Nat.le_refl _) (Nat.le_refl _), take_length]
  exact rposition_frame unfinished

theorem afterNewline_line (unbroken : newline ∉ line) :
    afterNewline (line ++ newline :: rest) = rest := by
  have kept : ∀ byte ∈ line, decide (byte ≠ newline) = true := by
    intro byte member
    simpa using fun same : byte = newline => unbroken (same ▸ member)
  rw [afterNewline, dropWhile_append_of_pos kept, dropWhile_cons_of_neg (by simp)]
  rfl

variable {front rear : List Text}

theorem afterNewline_frame (clean : ∀ text ∈ front, Clean text)
    (room : start + (frame rear).length < (frame (front ++ rear)).length) : ∃ kept, kept <:+ front ∧
      afterNewline ((frame (front ++ rear)).drop start) = frame (kept ++ rear) := by
  induction front generalizing start with
  | nil =>
    rw [nil_append] at room
    omega
  | cons text front ih =>
    have unbroken : newline ∉ encode text := newline_not_mem_encode (clean text (by simp))
    rw [cons_append, frame_cons text] at room ⊢
    by_cases inside : start ≤ (encode text).length
    · refine ⟨front, suffix_cons text front, ?_⟩
      rw [drop_append_of_le_length inside]
      exact afterNewline_line (fun member => unbroken (mem_of_mem_drop member))
    · have skipped : (encode text ++ newline :: frame (front ++ rear)).drop start =
          (frame (front ++ rear)).drop (start - (encode text).length - 1) := by
        rw [drop_append, drop_eq_nil_of_le (by omega), nil_append]
        obtain ⟨extra, amount⟩ : ∃ extra, start - (encode text).length = extra + 1 :=
          ⟨start - (encode text).length - 1, by omega⟩
        rw [amount, drop_succ_cons]
        rfl
      rw [length_append, length_cons] at room
      obtain ⟨kept, isSuffix, same⟩ := ih (fun other member => clean other (by simp [member]))
        (by omega : start - (encode text).length - 1 + (frame rear).length <
          (frame (front ++ rear)).length)
      refine ⟨kept, isSuffix.trans (suffix_cons text front), ?_⟩
      rw [skipped, same]

theorem tailWindow_frame (clean : ∀ text ∈ front, Clean text)
    (short : (frame rear).length < eventTailReadWindowBytes) :
    ∃ kept, kept <:+ front ∧ tailWindow (frame (front ++ rear)) = frame (kept ++ rear) := by
  unfold tailWindow
  dsimp only
  split_ifs with long
  · exact afterNewline_frame clean (by omega)
  · exact ⟨front, suffix_refl front, rfl⟩

end

section

variable {reader : EventReader}

/-- The last `limit` of a list. -/
def lastOf {Item : Type} (limit : Nat) (items : List Item) : List Item :=
  items.drop (items.length - limit)

theorem pushTail_lastOf (positive : 0 < limit) (before : List DelegationEvent)
    (event : DelegationEvent) :
    pushTail limit (lastOf limit before) event = lastOf limit (before ++ [event]) := by
  unfold pushTail lastOf
  rw [length_drop, length_append, length_singleton]
  by_cases full : limit ≤ before.length
  · rw [if_pos (by omega), drop_drop, drop_append_of_le_length (by omega)]
    congr 2
    omega
  · rw [if_neg (by omega), drop_append_of_le_length (by omega)]
    congr 2
    omega

theorem collectTail_texts {limit : Nat} (positive : 0 < limit) (maybePartial : Bool)
    {events : List DelegationEvent} (stamped : ∀ event ∈ events, reader.stamps event.stamp)
    (index : Nat) (before : List DelegationEvent) :
    collectTail reader limit maybePartial index (lastOf limit before)
        (events.map DelegationEvent.text) = .ok (lastOf limit (before ++ events)) := by
  induction events generalizing index before with
  | nil => rw [map_nil, collectTail, append_nil]
  | cons event events ih =>
    have later := ih (fun other member => stamped other (by simp [member])) (index + 1)
      (before ++ [event])
    rw [append_assoc, singleton_append] at later
    rw [map_cons, collectTail, event.text_not_blank,
      reader.read_text event (stamped event (by simp))]
    simp only [Bool.false_eq_true, if_false]
    rw [pushTail_lastOf positive, later]

theorem clamp_positive (limit : Nat) : 0 < clampEventTailLimit limit :=
  Nat.lt_of_lt_of_le Nat.zero_lt_one (Nat.le_max_left _ _)

theorem texts_clean (events : List DelegationEvent) :
    ∀ text ∈ events.map DelegationEvent.text, Clean text := by
  intro text member
  obtain ⟨event, _, rfl⟩ := mem_map.mp member
  exact event.text_clean

theorem readEventsTail_frame {front rear : List DelegationEvent}
    (stamped : ∀ event ∈ front ++ rear, reader.stamps event.stamp)
    (short : (frame (rear.map DelegationEvent.text)).length < eventTailReadWindowBytes)
    (limit : Nat) :
    ∃ kept, kept <:+ front ∧
      readEventsTail reader (frame ((front ++ rear).map DelegationEvent.text)) limit =
        .ok (lastOf (clampEventTailLimit limit) (kept ++ rear)) := by
  -- the window is the frame of the texts of some suffix
  obtain ⟨kept, isSuffix, window⟩ : ∃ kept, kept <:+ front ∧
      tailWindow (frame ((front ++ rear).map DelegationEvent.text)) =
        frame ((kept ++ rear).map DelegationEvent.text) := by
    obtain ⟨texts, ⟨before, split⟩, window⟩ := tailWindow_frame (texts_clean front) short
    obtain ⟨dropped, kept, rfl, _, rfl⟩ := map_eq_append_iff.mp split.symm
    refine ⟨kept, ⟨dropped, rfl⟩, ?_⟩
    rw [map_append, window, ← map_append]
  refine ⟨kept, isSuffix, ?_⟩
  have keptStamped : ∀ event ∈ kept ++ rear, reader.stamps event.stamp := by
    intro event member
    apply stamped
    rcases mem_append.mp member with old | new
    · exact mem_append_left _ (isSuffix.subset old)
    · exact mem_append_right _ new
  have texts := lines_lossy_frame (texts_clean (kept ++ rear)) []
  rw [append_nil] at texts
  have collected := @collectTail_texts reader _ (clamp_positive limit)
    (decide ((lossy (frame ((kept ++ rear).map DelegationEvent.text))).getLast? ≠ some '\n'))
    (kept ++ rear) keptStamped 0 []
  rw [readEventsTail, window, texts]
  simpa [lines, linesFrom, lastOf] using collected

theorem getLast?_lastOf (positive : 0 < limit) (events : List DelegationEvent) :
    (lastOf limit events).getLast? = events.getLast? := by
  rcases eq_nil_or_concat' events with rfl | ⟨front, last, rfl⟩
  · simp [lastOf]
  · rw [lastOf, length_append, length_singleton, drop_append_of_le_length (by omega)]
    simp

theorem readLastEventSeq_frame {events : List DelegationEvent}
    (stamped : ∀ event ∈ events, reader.stamps event.stamp)
    (short : ∀ event ∈ events, (eventLine event).length < eventTailReadWindowBytes) :
    readLastEventSeq reader (frame (events.map DelegationEvent.text)) =
      .ok (events.getLast?.map DelegationEvent.seq) := by
  rcases eq_nil_or_concat' events with rfl | ⟨front, last, rfl⟩
  · rfl
  · have lastShort : (frame ([last].map DelegationEvent.text)).length <
        eventTailReadWindowBytes := by
      have line := short last (by simp)
      simpa [eventLine] using line
    obtain ⟨kept, _, read⟩ := readEventsTail_frame stamped lastShort 1
    rw [readLastEventSeq, read]
    simp only [Except.map]
    rw [getLast?_lastOf (clamp_positive 1), List.getLast?_concat, List.getLast?_concat]

end

section

variable {reader : EventReader}

structure Written (reader : EventReader) (event : DelegationEvent) : Prop where
  stamped : reader.stamps event.stamp
  inRange : event.seq ≤ maxSeq
  bounded : ∃ kind, event.kind = boundEventKind kind

variable {event : DelegationEvent}

theorem Written.byteLen (written : Written reader event) :
    (encode event.text).length ≤ 50000 := by
  obtain ⟨seq, stamp, kind⟩ := event
  obtain ⟨stamped, inRange, original, rfl⟩ := written
  exact byteLen_event inRange (reader.stamps_short stamp stamped) original

theorem Written.short (written : Written reader event) :
    (eventLine event).length < eventTailReadWindowBytes := by
  have bound := written.byteLen
  rw [eventLine, length_append, length_singleton, eventTailReadWindowBytes]
  omega

def Unfinished (reader : EventReader) (seq : Nat) (tail : List UInt8) : Prop :=
  tail = [] ∨ ∃ event, Written reader event ∧ event.seq = seq ∧ tail <+: encode event.text

theorem Unfinished.newline_not_mem {tail : List UInt8} (unfinished : Unfinished reader seq tail) :
    newline ∉ tail := by
  rcases unfinished with rfl | ⟨event, _, _, isPrefix⟩
  · simp
  · exact fun member => newline_not_mem_encode event.text_clean (isPrefix.subset member)

structure Holds (reader : EventReader) (events : List DelegationEvent) (tail file : List UInt8) :
    Prop where
  bytes : file = frame (events.map DelegationEvent.text) ++ tail
  numbered : events.map DelegationEvent.seq = range' 1 events.length
  written : ∀ event ∈ events, Written reader event
  unfinished : Unfinished reader (events.length + 1) tail

theorem Holds.snoc {events : List DelegationEvent} {tail file : List UInt8}
    (holds : Holds reader events tail file) {event : DelegationEvent}
    (written : Written reader event) (next : event.seq = events.length + 1) :
    Holds reader (events ++ [event]) [] (frame ((events ++ [event]).map DelegationEvent.text)) where
  bytes := (append_nil _).symm
  numbered := by
    rw [map_append, holds.numbered, length_append, length_singleton,
      List.range'_concat, map_singleton, next]
    congr 2
    omega
  written other member := by
    rcases mem_concat member with old | rfl
    · exact holds.written other old
    · exact written
  unfinished := .inl rfl

variable {tail file : List UInt8}

theorem Holds.complete (holds : Holds reader events tail file) :
    Holds reader events [] (frame (events.map DelegationEvent.text)) :=
  ⟨(append_nil _).symm, holds.numbered, holds.written, .inl rfl⟩

theorem fromSlice_part (written : Written reader event)
    {tail : List UInt8} (isPrefix : tail <+: encode event.text)
    (different : tail ≠ encode event.text) : fromSlice reader tail = none := by
  have shorter : tail.length < (encode event.text).length := by
    refine lt_of_le_of_ne isPrefix.length_le fun same => different ?_
    exact isPrefix.eq_of_length same
  have isTake : tail = (encode event.text).take tail.length :=
    prefix_iff_eq_take.mp isPrefix
  obtain ⟨before, part, same, textPrefix, textDifferent, state⟩ :=
    Utf8.take_encode event.text shorter
  rw [isTake, same, fromSlice]
  rcases state with none | waiting
  · rw [none, append_nil, Utf8.strict_encode, Option.bind_some]
    exact reader.read_part event before written.stamped textPrefix textDifferent
  · rw [Utf8.strict_cut waiting, Option.bind_none]

theorem fromSlice_text (written : Written reader event) :
    fromSlice reader (encode event.text) = some event := by
  rw [fromSlice, Utf8.strict_encode, Option.bind_some, reader.read_text event written.stamped]

theorem repair_complete (events : List DelegationEvent) :
    repairEventsTail reader (frame (events.map DelegationEvent.text)) =
      frame (events.map DelegationEvent.text) := by
  rw [repairEventsTail]
  by_cases none : events.map DelegationEvent.text = []
  · rw [none]
    rfl
  · rw [frame_getLast none]
    exact if_pos rfl

theorem repair_holds (holds : Holds reader events tail file) :
    ∃ repaired, events <+: repaired ∧ Holds reader repaired [] (repairEventsTail reader file) := by
  have complete := holds.complete
  obtain rfl := holds.bytes
  have unbroken := holds.unfinished.newline_not_mem
  by_cases finished : tail = []
  · refine ⟨events, prefix_refl events, ?_⟩
    rw [finished, append_nil, repair_complete]
    exact complete
  · obtain ⟨event, written, next, isPrefix⟩ := holds.unfinished.resolve_left finished
    obtain ⟨front, last, rfl⟩ := (eq_nil_or_concat' tail).resolve_left finished
    have different : last ≠ newline := fun same => unbroken (by simp [same])
    have bound := isPrefix.length_le
    have limit := written.byteLen
    rw [repairEventsTail, ← append_assoc, List.getLast?_concat, append_assoc]
    dsimp only
    rw [if_neg different, tailStart_frame unbroken, length_append, Nat.add_sub_cancel_left,
      if_neg (by rw [eventTailRepairMaxLineBytes]; omega), drop_left, take_left]
    by_cases whole : front ++ [last] = encode event.text
    · refine ⟨events ++ [event], prefix_append events [event], ?_⟩
      rw [whole, fromSlice_text written, Option.isSome_some, if_pos rfl]
      have extended := holds.snoc written next
      rw [map_append, map_singleton, frame_append, frame_cons, frame_nil] at extended
      rw [append_assoc]
      exact extended
    · refine ⟨events, prefix_refl events, ?_⟩
      rw [fromSlice_part written isPrefix whole]
      exact complete

end

section

variable {reader : EventReader}

theorem frame_length (events : List DelegationEvent) :
    2 * events.length ≤ (frame (events.map DelegationEvent.text)).length := by
  induction events with
  | nil => simp
  | cons event events ih =>
    obtain ⟨rest, head⟩ := event.text_head
    have brace : (String.utf8EncodeChar '{').length = 1 := by decide
    rw [map_cons, frame_cons, head, Utf8.encode_cons, length_append,
      length_append, length_cons, length_cons, brace]
    omega

variable {file : List UInt8}

theorem Holds.room (holds : Holds reader events [] file) (small : file.length ≤ 2 ^ 64) :
    events.length + 1 ≤ maxSeq := by
  have lines := frame_length events
  rw [holds.bytes, append_nil] at small
  rw [maxSeq]
  omega

theorem getLast?_numbered
    (numbered : events.map DelegationEvent.seq = range' 1 events.length) :
    events.getLast?.map DelegationEvent.seq =
      if events = [] then none else some events.length := by
  rcases eq_nil_or_concat' events with rfl | ⟨front, last, rfl⟩
  · rfl
  · rw [map_append, length_append, length_singleton, List.range'_concat] at numbered
    have lastSeq := append_inj_right' numbered rfl
    simp only [map_singleton, List.cons.injEq, and_true] at lastSeq
    simp [lastSeq]
    omega

theorem nextEventSeq_holds
    (holds : Holds reader events [] file) (small : file.length ≤ 2 ^ 64) (sidecar : Option Nat) :
    ∃ synced, nextEventSeq reader ⟨file, sidecar⟩ = .ok (events.length + 1, synced) ∧
      synced.events = file := by
  have room := holds.room small
  have last := readLastEventSeq_frame (fun event member => (holds.written event member).stamped)
    (fun event member => (holds.written event member).short)
  have same := holds.bytes
  rw [append_nil] at same
  rw [getLast?_numbered holds.numbered, ← same] at last
  rw [nextEventSeq]
  rw [last]
  by_cases none : events = []
  · rw [if_pos none, none]
    cases sidecar with
    | none | some recorded => exact ⟨_, rfl, rfl⟩
  · rw [if_neg none]
    refine ⟨if sidecar ≠ some events.length then ⟨file, some events.length⟩ else ⟨file, sidecar⟩,
      ?_, ?_⟩
    · simp only [bind, Except.bind, pure, Except.pure, Nat.min_eq_left room]
    · split_ifs
      · rfl
      · rfl

theorem repair_length (file : List UInt8) :
    (repairEventsTail reader file).length ≤ file.length + 1 := by
  have cut : ∀ start, (file.take start).length ≤ file.length := fun start =>
    length_take_le' start file
  unfold repairEventsTail
  split
  · omega
  · dsimp only
    split_ifs
    · omega
    · exact Nat.le_succ_of_le (cut _)
    · rw [length_append, length_singleton]
    · exact Nat.le_succ_of_le (cut _)

def LogInv (reader : EventReader) (log : EventLog) : Prop :=
  log.files.events.length < 2 ^ 64 ∧ ∃ events tail,
    Holds reader events tail log.files.events ∧ log.acknowledged.Sublist events

theorem empty_logInv : LogInv reader EventLog.empty :=
  ⟨by decide, [], [], ⟨rfl, rfl, by simp, .inl rfl⟩, List.Sublist.refl []⟩

theorem Holds.cut (holds : Holds reader events [] file) {event : DelegationEvent}
    (written : Written reader event) (next : event.seq = events.length + 1) {bytes : Nat} :
    ∃ after tail, events <+: after ∧
      Holds reader after tail (file ++ (eventLine event).take bytes) := by
  have same := holds.bytes
  rw [append_nil] at same
  by_cases whole : (encode event.text).length < bytes
  · refine ⟨events ++ [event], [], prefix_append events [event], ?_⟩
    have all : (eventLine event).take bytes = eventLine event := by
      apply take_of_length_le
      rw [eventLine, length_append, length_singleton]
      omega
    have extended := holds.snoc written next
    rw [map_append, map_singleton, frame_append, frame_cons, frame_nil, ← same]
      at extended
    rw [all, eventLine]
    exact extended
  · refine ⟨events, (encode event.text).take bytes, prefix_refl events, ?_⟩
    have inside : (eventLine event).take bytes = (encode event.text).take bytes := by
      rw [eventLine, take_append_of_le_length (by omega)]
    rw [inside, same]
    exact ⟨rfl, holds.numbered, holds.written,
      Or.inr ⟨event, written, next, take_prefix bytes _⟩⟩

variable {label : AppendLabel} {log : EventLog}

theorem append_cases {tail : List UInt8} (holds : Holds reader events tail log.files.events)
    (fits : log.files.events.length < 2 ^ 64) (stamped : reader.stamps label.stamp) :
    ∃ repaired event, events <+: repaired ∧
      Holds reader repaired [] (repairEventsTail reader log.files.events) ∧
      Written reader event ∧ event.seq = repaired.length + 1 ∧
      (((log.append reader label).acknowledged = log.acknowledged ∧
          ((log.append reader label).files.events = log.files.events ∨
            ∃ bytes, (log.append reader label).files.events =
              repairEventsTail reader log.files.events ++ (eventLine event).take bytes)) ∨
        ((log.append reader label).acknowledged = log.acknowledged ++ [event] ∧
          (log.append reader label).files.events =
            repairEventsTail reader log.files.events ++ eventLine event)) := by
  obtain ⟨repaired, isPrefix, clean⟩ := repair_holds holds
  have length : (repairEventsTail reader log.files.events).length ≤ 2 ^ 64 := by
    have bound := @repair_length reader log.files.events
    omega
  obtain ⟨synced, numbered, unchanged⟩ := nextEventSeq_holds clean length log.files.sidecar
  refine ⟨repaired, ⟨repaired.length + 1, label.stamp, boundEventKind label.kind⟩, isPrefix, clean,
    ⟨stamped, clean.room length, label.kind, rfl⟩, rfl, ?_⟩
  obtain ⟨kind, stamp, stop⟩ := label
  cases stop with
  | beforeRepair =>
    have done : appendEvent reader log.files ⟨kind, stamp, .beforeRepair⟩ = (log.files, none) :=
      if_pos rfl
    simp only [EventLog.append, done, Option.toList_none, append_nil]
    exact .inl ⟨trivial, .inl trivial⟩
  | afterRepair =>
    have done : appendEvent reader log.files ⟨kind, stamp, .afterRepair⟩ =
        ({ log.files with events := repairEventsTail reader log.files.events }, none) := by
      unfold appendEvent
      rw [if_neg (by simp)]
      exact if_pos rfl
    simp only [EventLog.append, done, Option.toList_none, append_nil]
    exact .inl ⟨trivial, .inr ⟨0, by rw [take_zero, append_nil]⟩⟩
  | afterSeq =>
    have done : appendEvent reader log.files ⟨kind, stamp, .afterSeq⟩ = (synced, none) := by
      simp [appendEvent, reduceCtorEq, numbered]
    simp only [EventLog.append, done, Option.toList_none, append_nil, unchanged]
    exact .inl ⟨trivial, .inr ⟨0, by rw [take_zero, append_nil]⟩⟩
  | cut bytes =>
    have done : appendEvent reader log.files ⟨kind, stamp, .cut bytes⟩ =
        ({ synced with events := synced.events ++
          (eventLine ⟨repaired.length + 1, stamp, boundEventKind kind⟩).take bytes }, none) := by
      simp [appendEvent, reduceCtorEq, numbered]
    simp only [EventLog.append, done, Option.toList_none, append_nil, unchanged]
    exact .inl ⟨trivial, .inr ⟨bytes, rfl⟩⟩
  | completed =>
    have done : appendEvent reader log.files ⟨kind, stamp, .completed⟩ =
        (⟨synced.events ++ eventLine ⟨repaired.length + 1, stamp, boundEventKind kind⟩,
          some (repaired.length + 1)⟩,
          some ⟨repaired.length + 1, stamp, boundEventKind kind⟩) := by
      simp [appendEvent, reduceCtorEq, numbered]
    simp only [EventLog.append, done, Option.toList_some, unchanged]
    exact .inr ⟨trivial, trivial⟩

theorem append_logInv (inv : LogInv reader log) (stamped : reader.stamps label.stamp)
    (small : (log.append reader label).files.events.length < 2 ^ 64) :
    LogInv reader (log.append reader label) := by
  refine ⟨small, ?_⟩
  obtain ⟨fits, events, tail, holds, kept⟩ := inv
  obtain ⟨repaired, event, isPrefix, clean, written, next, outcome⟩ :=
    append_cases holds fits stamped
  have keptRepaired : log.acknowledged.Sublist repaired := kept.trans isPrefix.sublist
  rcases outcome with ⟨same, unchanged | ⟨bytes, changed⟩⟩ | ⟨acknowledged, changed⟩
  · rw [same, unchanged]
    exact ⟨events, tail, holds, kept⟩
  · obtain ⟨after, rest, grows, extended⟩ := clean.cut written next
    rw [same, changed]
    exact ⟨after, rest, extended, keptRepaired.trans grows.sublist⟩
  · have extended := clean.snoc written next
    have lines := clean.bytes
    rw [append_nil] at lines
    rw [map_append, map_singleton, frame_append, frame_cons, frame_nil, ← lines]
      at extended
    rw [acknowledged, changed, eventLine]
    exact ⟨repaired ++ [event], [], extended, keptRepaired.append_right [event]⟩

theorem append_length {log : EventLog} {label : AppendLabel} (inv : LogInv reader log)
    (stamped : reader.stamps label.stamp) :
    (log.append reader label).files.events.length ≤ log.files.events.length + 50002 := by
  obtain ⟨fits, events, tail, holds, _⟩ := inv
  obtain ⟨repaired, event, _, _, written, _, outcome⟩ := append_cases holds fits stamped
  have repair := @repair_length reader log.files.events
  have bound := written.byteLen
  have line : (eventLine event).length = (encode event.text).length + 1 := by
    rw [eventLine, length_append, length_singleton]
  rcases outcome with ⟨_, unchanged | ⟨bytes, changed⟩⟩ | ⟨_, changed⟩
  · rw [unchanged]
    omega
  · have part := length_take_le' bytes (eventLine event)
    rw [changed, length_append]
    omega
  · rw [changed, length_append]
    omega

theorem step_of_append (inv : LogInv reader log)
    (stamped : reader.stamps label.stamp) (room : log.files.events.length + 50002 < 2 ^ 64) :
    LogStep reader log label (log.append reader label) :=
  ⟨stamped, rfl, Nat.lt_of_le_of_lt (append_length inv stamped) room⟩

end

/-- However the appends of a log are cut: its complete lines are numbered from one without
a gap, every acknowledged event stays among them, the repair only ever adds the line a cut
append had written whole, and the next number depends on the log alone. -/
theorem event_numbers_survive_crashes (reader : EventReader) {labels : List AppendLabel}
    {log : EventLog} (run : Trace (LogStep reader) EventLog.empty labels log) :
    ∃ events unfinished,
      log.files.events = frame (events.map DelegationEvent.text) ++ unfinished ∧
      newline ∉ unfinished ∧
      events.map DelegationEvent.seq = range' 1 events.length ∧
      log.acknowledged.Sublist events ∧
      ∃ repaired, events <+: repaired ∧
        repairEventsTail reader log.files.events = frame (repaired.map DelegationEvent.text) ∧
        repaired.map DelegationEvent.seq = range' 1 repaired.length ∧
        ∀ sidecar, ∃ synced,
          nextEventSeq reader ⟨repairEventsTail reader log.files.events, sidecar⟩ =
            .ok (repaired.length + 1, synced) := by
  have inv : LogInv reader log := by
    refine run.invariant ?_ empty_logInv
    intro before label after taken inv
    obtain ⟨stamped, rfl, small⟩ := taken
    exact append_logInv inv stamped small
  obtain ⟨fits, events, tail, holds, kept⟩ := inv
  obtain ⟨repaired, isPrefix, clean⟩ := repair_holds holds
  refine ⟨events, tail, holds.bytes, holds.unfinished.newline_not_mem, holds.numbered, kept,
    repaired, isPrefix, ?_, clean.numbered, ?_⟩
  · rw [clean.bytes, append_nil]
  · intro sidecar
    have bound := @repair_length reader log.files.events
    obtain ⟨synced, numbered, _⟩ := nextEventSeq_holds clean (by omega) sidecar
    exact ⟨synced, numbered⟩

namespace TornCreate

def stamp : Text := "2026-01-01T00:00:00Z".toList

def labels : List AppendLabel := [⟨.created, stamp, .cut 4⟩, ⟨.queued, stamp, .completed⟩]

noncomputable def torn : EventLog := EventLog.empty.append EventReader.exact ⟨.created, stamp, .cut 4⟩

noncomputable def final : EventLog := torn.append EventReader.exact ⟨.queued, stamp, .completed⟩

theorem stamped : EventReader.exact.stamps stamp := by
  have short : stamp.length ≤ 40 := by decide +kernel
  exact short

theorem run : Trace (LogStep EventReader.exact) EventLog.empty labels final := by
  have first : LogStep EventReader.exact EventLog.empty ⟨.created, stamp, .cut 4⟩ torn :=
    step_of_append empty_logInv stamped (by decide)
  have tornInv : LogInv EventReader.exact torn := append_logInv empty_logInv stamped first.2.2
  have length := @append_length _ _ ⟨.created, stamp, .cut 4⟩ (@empty_logInv EventReader.exact)
    stamped
  have short : torn.files.events.length + 50002 < 2 ^ 64 := by
    have none : EventLog.empty.files.events.length = 0 := rfl
    rw [none] at length
    have bound : torn.files.events.length ≤ 50002 := by simpa [torn] using length
    omega
  exact Trace.snoc (Trace.single first) (step_of_append tornInv stamped short)

end TornCreate

theorem event_numbers_survive_crashes_tornCreate :
    ∃ events unfinished, TornCreate.final.files.events =
        frame (events.map DelegationEvent.text) ++ unfinished ∧
      events.map DelegationEvent.seq = range' 1 events.length ∧
      TornCreate.final.acknowledged.Sublist events := by
  obtain ⟨events, unfinished, bytes, _, numbered, kept, _⟩ :=
    event_numbers_survive_crashes EventReader.exact TornCreate.run
  exact ⟨events, unfinished, bytes, numbered, kept⟩

/-- Behind the repair of a log that crashes left, reading its tail never fails and returns the
newest events, at least those that fit in the window. -/
theorem tail_reads_newest_events (reader : EventReader) {labels : List AppendLabel} {log : EventLog}
    (run : Trace (LogStep reader) EventLog.empty labels log) :
    ∃ repaired, repairEventsTail reader log.files.events = frame (repaired.map DelegationEvent.text) ∧
      log.acknowledged.Sublist repaired ∧
      ∀ front rear, repaired = front ++ rear →
        (frame (rear.map DelegationEvent.text)).length < eventTailReadWindowBytes →
        ∀ limit, ∃ kept, kept <:+ front ∧
          readEventsTail reader (repairEventsTail reader log.files.events) limit =
            .ok (lastOf (clampEventTailLimit limit) (kept ++ rear)) := by
  have inv : LogInv reader log := by
    refine run.invariant ?_ empty_logInv
    intro before label after taken inv
    obtain ⟨stamped, rfl, small⟩ := taken
    exact append_logInv inv stamped small
  obtain ⟨_, events, tail, holds, kept⟩ := inv
  obtain ⟨repaired, isPrefix, clean⟩ := repair_holds holds
  have bytes := clean.bytes
  rw [append_nil] at bytes
  refine ⟨repaired, bytes, kept.trans isPrefix.sublist, ?_⟩
  rintro front rear rfl short limit
  rw [bytes]
  exact readEventsTail_frame (fun event member => (clean.written event member).stamped) short limit

theorem tail_reads_newest_events_tornCreate : ∃ repaired,
    repairEventsTail EventReader.exact TornCreate.final.files.events =
      frame (repaired.map DelegationEvent.text) ∧ TornCreate.final.acknowledged.Sublist repaired := by
  obtain ⟨repaired, bytes, kept, _⟩ := tail_reads_newest_events EventReader.exact TornCreate.run
  exact ⟨repaired, bytes, kept⟩

end AgentClaimNetwork.Delegation
