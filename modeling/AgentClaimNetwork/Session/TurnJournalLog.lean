import AgentClaimNetwork.Library.Trace
import AgentClaimNetwork.Library.Json
import AgentClaimNetwork.Library.Selection
import AgentClaimNetwork.Library.TornLog

/-!
The file side of `src/session/turn_journal.rs`: writers that remember the next number and the
length, appends of which any part may reach the disk, and the reader.
-/

namespace AgentClaimNetwork.Session

open Library LineLog TornLog Selection List

variable {Stamp Kind : Type}

abbrev Text := List Char

/-- `u64::MAX`. -/
def maxSeq : Nat := 2 ^ 64 - 1

structure TurnJournalEvent (Stamp Kind : Type) where
  seq : Nat
  turnId : Text
  createdAt : Stamp
  kind : Kind

/-- The serializer and the reader of an event line: a JSON object without raw control
characters that is read back, while no part of it is an object, be it followed by a
replacement character. -/
structure JournalCodec (Stamp Kind : Type) where
  text : TurnJournalEvent Stamp Kind → Text
  read : Text → Option (TurnJournalEvent Stamp Kind)
  clean : ∀ event, Clean (text event)
  opens : ∀ event, (text event).head? = some '{'
  closes : ∀ event, (text event).getLast? = some '}'
  read_text : ∀ event, event.seq ≤ maxSeq → read (text event) = some event
  read_part : ∀ event part, part <+: text event → part ≠ text event → read part = none
  read_cut : ∀ event part, part <+: text event → part ≠ text event →
    read (part ++ ['\uFFFD']) = none

section

variable (codec : JournalCodec Stamp Kind)

def readLine (line : Text) : Option (TurnJournalEvent Stamp Kind) :=
  let line := trim line
  if line = [] then none else codec.read line

def scan (file : List UInt8) : List (TurnJournalEvent Stamp Kind) :=
  (lines (Utf8.lossy file)).filterMap (readLine codec)

def nextTurnJournalSeq (file : List UInt8) : Nat :=
  min ((scan codec file).foldl (fun highest event => max highest event.seq) 0 + 1) maxSeq

inductive WarningKind
  | notUtf8
  | zeroSeq
  | nonIncreasing (previous current : Nat)
  | duplicate (seq : Nat)
  | badLine

structure TurnJournalWarning where
  line : Option Nat
  kind : WarningKind

structure TurnJournalRead (Stamp Kind : Type) where
  events : List (TurnJournalEvent Stamp Kind)
  warnings : List TurnJournalWarning

/-- The variables of the loop of `read_turn_journal`. -/
structure ReadState (Stamp Kind : Type) where
  events : List (TurnJournalEvent Stamp Kind)
  seen : List Nat
  last : Option Nat
  warnings : List TurnJournalWarning

def eventWarnings (lineNo : Nat) (seen : List Nat) (last : Option Nat) (seq : Nat) :
    List TurnJournalWarning :=
  (if seq = 0 then [⟨some lineNo, .zeroSeq⟩] else []) ++
    (match last with
      | some previous =>
        if seq ≤ previous then [⟨some lineNo, .nonIncreasing previous seq⟩] else []
      | none => []) ++
    (if seq ∈ seen then [⟨some lineNo, .duplicate seq⟩] else [])

def readLoop : Nat → ReadState Stamp Kind → List Text → ReadState Stamp Kind
  | _, state, [] => state
  | index, state, raw :: rest =>
    let line := trim raw
    if line = [] then readLoop (index + 1) state rest
    else match codec.read line with
      | some event =>
        readLoop (index + 1)
          { events := state.events ++ [event]
            seen := if event.seq ∈ state.seen then state.seen else event.seq :: state.seen
            last := some event.seq
            warnings := state.warnings ++
              eventWarnings (index + 1) state.seen state.last event.seq } rest
      | none =>
        readLoop (index + 1)
          { state with warnings := state.warnings ++ [⟨some (index + 1), .badLine⟩] } rest

def readTurnJournal (file : List UInt8) : TurnJournalRead Stamp Kind :=
  let warnings := if (Utf8.strict file).isSome then [] else [⟨none, .notUtf8⟩]
  let state := readLoop codec 0 ⟨[], [], none, warnings⟩ (lines (Utf8.lossy file))
  ⟨sortByKey TurnJournalEvent.seq state.events, state.warnings⟩

structure TurnJournalWriter where
  nextSeq : Nat
  knownLen : Nat
  failed : Bool

def openTurnJournal (file : List UInt8) : TurnJournalWriter :=
  ⟨nextTurnJournalSeq codec file, file.length, false⟩

def TurnJournalWriter.seqFor (writer : TurnJournalWriter) (file : List UInt8) : Nat :=
  if file.length ≠ writer.knownLen then nextTurnJournalSeq codec file else writer.nextSeq

def appendBytes (file : List UInt8) (event : TurnJournalEvent Stamp Kind) : List UInt8 :=
  boundary file ++ Utf8.encode (codec.text event) ++ [newline]

structure Appending (Stamp Kind : Type) where
  writer : Nat
  event : TurnJournalEvent Stamp Kind
  rest : List UInt8

structure Journal (Stamp Kind : Type) where
  file : List UInt8
  writers : List TurnJournalWriter
  appending : Option (Appending Stamp Kind)
  /-- The events whose text is in the file to its last byte, in the order they got there. -/
  written : List (TurnJournalEvent Stamp Kind)
  /-- The events whose append returned `Ok`. -/
  acknowledged : List (TurnJournalEvent Stamp Kind)

def Journal.initial : Journal Stamp Kind := ⟨[], [], none, [], []⟩

inductive JournalLabel (Stamp Kind : Type)
  | openWriter
  | begin (writer : Nat) (turnId : Text) (createdAt : Stamp) (kind : Kind)
  | write (bytes : Nat)
  | finish
  | stop

/-- One step of some writer.  An append takes the lock, writes its bytes little by little
and ends with `Ok`, or with an error or a crash at any point. -/
inductive JournalStep (journal : Journal Stamp Kind) :
    JournalLabel Stamp Kind → Journal Stamp Kind → Prop
  | openWriter : JournalStep journal .openWriter
      { journal with writers := journal.writers ++ [openTurnJournal codec journal.file] }
  | begin {index : Nat} {writer : TurnJournalWriter} (turnId : Text) (createdAt : Stamp)
      (kind : Kind) : journal.appending = none → journal.writers[index]? = some writer →
      writer.failed = false → writer.seqFor codec journal.file < maxSeq →
      JournalStep journal (.begin index turnId createdAt kind)
        { journal with
          appending := some
            { writer := index
              event := ⟨writer.seqFor codec journal.file, turnId, createdAt, kind⟩
              rest := appendBytes codec journal.file
                ⟨writer.seqFor codec journal.file, turnId, createdAt, kind⟩ } }
  | write {appending : Appending Stamp Kind} (bytes : Nat) :
      journal.appending = some appending →
      JournalStep journal (.write bytes)
        { journal with
          file := journal.file ++ appending.rest.take bytes
          appending := some { appending with rest := appending.rest.drop bytes }
          -- only the newline of the line is left
          written :=
            if 1 < appending.rest.length ∧ (appending.rest.drop bytes).length ≤ 1 then
              journal.written ++ [appending.event]
            else journal.written }
  | finish {appending : Appending Stamp Kind} {writer : TurnJournalWriter} :
      journal.appending = some appending → appending.rest = [] →
      journal.writers[appending.writer]? = some writer →
      JournalStep journal .finish
        { journal with
          writers := journal.writers.set appending.writer
            ⟨min (appending.event.seq + 1) maxSeq, journal.file.length, false⟩
          appending := none
          acknowledged := journal.acknowledged ++ [appending.event] }
  | stop {appending : Appending Stamp Kind} {writer : TurnJournalWriter} :
      journal.appending = some appending →
      journal.writers[appending.writer]? = some writer →
      JournalStep journal .stop
        { journal with
          writers := journal.writers.set appending.writer { writer with failed := true }
          appending := none }

end
variable {bytes : List UInt8}

variable {file : List UInt8}

section

variable {codec : JournalCodec Stamp Kind}

theorem brace_solid : isWhitespace '{' = false ∧ isWhitespace '}' = false ∧
    isWhitespace '\uFFFD' = false := by
  decide

@[simp] theorem readLine_nil : readLine codec [] = none := rfl

variable {event : TurnJournalEvent Stamp Kind}

theorem readLine_text (inRange : event.seq ≤ maxSeq) :
    readLine codec (codec.text event) = some event := by
  have trimmed : trim (codec.text event) = codec.text event :=
    trim_eq_self brace_solid.1 brace_solid.2.1 (codec.opens event) (codec.closes event)
  have nonempty : codec.text event ≠ [] := by
    intro empty
    have head := codec.opens event
    rw [empty] at head
    cases head
  rw [readLine, trimmed, if_neg nonempty, codec.read_text event inRange]

theorem head_part (isPart : part <+: codec.text event) : part = [] ∨ part.head? = some '{' := by
  cases part with
  | nil => exact .inl rfl
  | cons first rest =>
    obtain ⟨later, whole⟩ := isPart
    have head := codec.opens event
    rw [← whole] at head
    exact .inr head

theorem readLine_part (isPart : part <+: codec.text event) (cut : part ≠ codec.text event) :
    readLine codec part = none ∧ readLine codec (part ++ ['\uFFFD']) = none := by
  constructor
  · have shorter := trim_prefix brace_solid.1 (head_part isPart)
    have different : trim part ≠ codec.text event := by
      intro same
      rw [same] at shorter
      exact cut (isPart.eq_of_length (Nat.le_antisymm isPart.length_le shorter.length_le))
    unfold readLine
    dsimp only
    split_ifs
    · rfl
    · exact codec.read_part event _ (shorter.trans isPart) different
  · have trimmed : trim (part ++ ['\uFFFD']) = part ++ ['\uFFFD'] := by
      rcases head_part isPart with rfl | head
      · decide
      · refine trim_eq_self brace_solid.1 brace_solid.2.2 ?_ List.getLast?_concat
        rw [List.head?_append, head]
        rfl
    rw [readLine, trimmed, if_neg (by simp), codec.read_cut event part isPart cut]

def EventPiece (codec : JournalCodec Stamp Kind) (bytes : List UInt8) : Prop :=
  bytes = [] ∨ ∃ event, event.seq ≤ maxSeq ∧ bytes <+: Utf8.encode (codec.text event)

theorem EventPiece.piece (part : EventPiece codec bytes) : Piece bytes := by
  rcases part with rfl | ⟨event, _, isPart⟩
  · exact ⟨[], fun _ member => absurd member not_mem_nil, nil_prefix⟩
  · exact ⟨codec.text event, codec.clean event, isPart⟩

theorem readLine_cut (isPart : bytes <+: Utf8.encode (codec.text event))
    (cut : bytes ≠ Utf8.encode (codec.text event)) : readLine codec (Utf8.lossy bytes) = none := by
  rcases lossy_part isPart with whole | ⟨before, isPrefix, different, same | same⟩
  · exact absurd whole cut
  · rw [same]
    exact (readLine_part isPrefix different).1
  · rw [same]
    exact (readLine_part isPrefix different).2

theorem readLine_whole (inRange : event.seq ≤ maxSeq) :
    readLine codec (Utf8.lossy (Utf8.encode (codec.text event))) = some event := by
  rw [Utf8.lossy_encode, readLine_text inRange]

/-- The file is a sequence of parts of event lines, and `written` are the whole ones. -/
def Shaped (codec : JournalCodec Stamp Kind) (file : List UInt8)
    (written : List (TurnJournalEvent Stamp Kind)) : Prop :=
  ∃ pieces tail, file = join pieces ++ tail ∧
    (∀ piece ∈ pieces, EventPiece codec piece) ∧ EventPiece codec tail ∧
    written = (pieces ++ [tail]).filterMap fun piece => readLine codec (Utf8.lossy piece)

variable {written : List (TurnJournalEvent Stamp Kind)}

theorem scan_shaped (shaped : Shaped codec file written) : scan codec file = written := by
  obtain ⟨pieces, tail, rfl, all, last, rfl⟩ := shaped
  exact filterMap_lines readLine_nil (fun piece member => (all piece member).piece) last.piece

theorem shaped_empty : Shaped codec [] [] :=
  ⟨[], [], rfl, by simp, .inl rfl, rfl⟩

variable {now : List UInt8}

theorem shaped_line (all : ∀ piece ∈ pieces, EventPiece codec piece) (inRange : event.seq ≤ maxSeq)
    (split : Utf8.encode (codec.text event) ++ [newline] = now ++ later) :
    Shaped codec (join pieces ++ now)
      (pieces.filterMap (fun piece => readLine codec (Utf8.lossy piece)) ++
        if later.length ≤ 1 then [event] else []) := by
  have lengths := congrArg List.length split
  rw [length_append, length_append, length_singleton] at lengths
  by_cases finished : later = []
  · -- the newline is there as well
    subst finished
    rw [append_nil] at split
    rw [if_pos (by simp), ← split]
    refine ⟨pieces ++ [Utf8.encode (codec.text event)], [], ?_, ?_, .inl rfl, ?_⟩
    · rw [join_append, join_singleton, append_nil]
    · intro piece member
      rcases mem_concat member with old | rfl
      · exact all piece old
      · exact .inr ⟨event, inRange, prefix_refl _⟩
    · simp [readLine_whole inRange]
  · have isPart : now <+: Utf8.encode (codec.text event) := by
      have some := length_pos_iff.mpr finished
      apply prefix_of_prefix_length_le (prefix_append now later) _ (by omega)
      rw [← split]
      exact prefix_append _ _
    refine ⟨pieces, now, rfl, all, .inr ⟨event, inRange, isPart⟩, ?_⟩
    rw [filterMap_append]
    congr 1
    by_cases whole : later.length ≤ 1
    · have some := length_pos_iff.mpr finished
      rw [if_pos whole, isPart.eq_of_length (by omega)]
      simp [readLine_whole inRange]
    · have cut : now ≠ Utf8.encode (codec.text event) := by
        intro same
        rw [same] at lengths
        omega
      rw [if_neg whole, filterMap_cons, readLine_cut isPart cut]
      rfl

theorem shaped_append (shaped : Shaped codec before written) (inRange : event.seq ≤ maxSeq)
    (split : appendBytes codec before event = now ++ later) :
    Shaped codec (before ++ now) (written ++ if later.length ≤ 1 then [event] else []) := by
  obtain ⟨pieces, tail, rfl, all, last, rfl⟩ := shaped
  rw [appendBytes, boundary_join last.piece.not_newline, append_assoc] at split
  by_cases ended : tail = []
  · subst ended
    have none : [([] : List UInt8)].filterMap (fun piece => readLine codec (Utf8.lossy piece)) =
        [] := rfl
    rw [append_nil, filterMap_append, none, append_nil]
    exact shaped_line all inRange split
  · rw [if_neg ended] at split
    cases now with
    | nil =>
      have long : ¬ later.length ≤ 1 := by
        rw [nil_append] at split
        rw [← split]
        simp
      rw [if_neg long, append_nil, append_nil]
      exact ⟨pieces, tail, rfl, all, last, rfl⟩
    | cons first now =>
      rw [singleton_append, cons_append, List.cons.injEq] at split
      obtain ⟨rfl, split⟩ := split
      have closed : ∀ piece ∈ pieces ++ [tail], EventPiece codec piece := by
        intro piece member
        rcases mem_concat member with old | rfl
        · exact all piece old
        · exact last
      have line := shaped_line closed inRange split
      rw [join_append, join_singleton] at line
      simpa using line

end
variable {events : List (TurnJournalEvent Stamp Kind)}

section

variable {codec : JournalCodec Stamp Kind}

def Remembers (codec : JournalCodec Stamp Kind) (file : List UInt8) (writer : TurnJournalWriter) :
    Prop :=
  ∃ early, early <+: file ∧ early.length = writer.knownLen ∧
    ∀ event ∈ scan codec early, event.seq < writer.nextSeq

/-- The append under way is a part of one line behind the file it found. -/
structure Underway (codec : JournalCodec Stamp Kind) (journal : Journal Stamp Kind)
    (appending : Appending Stamp Kind) (before : List UInt8)
    (old : List (TurnJournalEvent Stamp Kind)) (now : List UInt8) : Prop where
  shaped : Shaped codec before old
  file : journal.file = before ++ now
  split : appendBytes codec before appending.event = now ++ appending.rest
  written : journal.written =
    old ++ if appending.rest.length ≤ 1 then [appending.event] else []
  kept : journal.acknowledged.Sublist old
  inRange : appending.event.seq < maxSeq
  increasing : Ordered TurnJournalEvent.seq (old ++ [appending.event])

structure JournalInv (codec : JournalCodec Stamp Kind) (journal : Journal Stamp Kind) : Prop where
  shaped : Shaped codec journal.file journal.written
  increasing : Ordered TurnJournalEvent.seq journal.written
  inRange : ∀ event ∈ journal.written, event.seq < maxSeq
  kept : journal.acknowledged.Sublist journal.written
  writers : ∀ writer ∈ journal.writers, writer.failed = false →
    Remembers codec journal.file writer
  underway : ∀ appending, journal.appending = some appending →
    ∃ before old now, Underway codec journal appending before old now

variable {journal next : Journal Stamp Kind}

theorem le_foldl_max (events : List (TurnJournalEvent Stamp Kind)) (highest : Nat) :
    highest ≤ events.foldl (fun highest event => max highest event.seq) highest := by
  induction events generalizing highest with
  | nil => exact Nat.le_refl highest
  | cons event events ih => exact (Nat.le_max_left highest event.seq).trans (ih _)

theorem seq_le_foldl_max {event : TurnJournalEvent Stamp Kind} (member : event ∈ events)
    (highest : Nat) :
    event.seq ≤ events.foldl (fun highest event => max highest event.seq) highest := by
  induction events generalizing highest with
  | nil => cases member
  | cons first events ih =>
    rcases mem_cons.mp member with rfl | later
    · exact (Nat.le_max_right highest event.seq).trans (le_foldl_max events _)
    · exact ih later _

theorem seq_lt_next (inv : JournalInv codec journal) :
    ∀ event ∈ scan codec journal.file, event.seq < nextTurnJournalSeq codec journal.file := by
  intro event member
  have high := seq_le_foldl_max member 0
  have small : event.seq < maxSeq := by
    rw [scan_shaped inv.shaped] at member
    exact inv.inRange event member
  unfold nextTurnJournalSeq
  omega

theorem Remembers.grown (remembers : Remembers codec file writer) :
    Remembers codec (file ++ later) writer := by
  obtain ⟨early, isPrefix, length, below⟩ := remembers
  exact ⟨early, isPrefix.trans (prefix_append file later), length, below⟩

theorem seqFor_above (inv : JournalInv codec journal)
    (remembers : Remembers codec journal.file writer) :
    ∀ event ∈ journal.written, event.seq < writer.seqFor codec journal.file := by
  intro event member
  rw [← scan_shaped inv.shaped] at member
  unfold TurnJournalWriter.seqFor
  split_ifs with changed
  · exact seq_lt_next inv event member
  · obtain ⟨early, isPrefix, length, below⟩ := remembers
    have same : early = journal.file := isPrefix.eq_of_length (by omega)
    rw [← same] at member
    exact below event member

theorem appendBytes_long (file : List UInt8) (event : TurnJournalEvent Stamp Kind) :
    1 < (appendBytes codec file event).length := by
  obtain ⟨rest, text⟩ : ∃ rest, codec.text event = '{' :: rest := by
    have head := codec.opens event
    cases text : codec.text event with
    | nil =>
      rw [text] at head
      cases head
    | cons first rest =>
      rw [text] at head
      obtain rfl : first = '{' := by simpa using head
      exact ⟨rest, rfl⟩
  have brace : (String.utf8EncodeChar '{').length = 1 := by decide
  rw [appendBytes, text, Utf8.encode_cons, length_append, length_append,
    length_append, length_singleton, brace]
  omega

theorem Underway.ordered {before now : List UInt8}
    (underway : Underway codec journal appending before old now) {rest : List UInt8} :
    Ordered TurnJournalEvent.seq (old ++ if rest.length ≤ 1 then [appending.event] else []) := by
  split_ifs
  · exact underway.increasing
  · rw [append_nil]
    exact List.Pairwise.sublist (sublist_append_left old _) underway.increasing

theorem begin_inv (inv : JournalInv codec journal) (found : journal.writers[index]? = some writer)
    (alive : writer.failed = false) (room : writer.seqFor codec journal.file < maxSeq) :
    JournalInv codec { journal with
      appending := some
        { writer := index
          event := ⟨writer.seqFor codec journal.file, turnId, createdAt, kind⟩
          rest := appendBytes codec journal.file
            ⟨writer.seqFor codec journal.file, turnId, createdAt, kind⟩ } } where
  shaped := inv.shaped
  increasing := inv.increasing
  inRange := inv.inRange
  kept := inv.kept
  writers := inv.writers
  underway := by
    rintro _ ⟨⟩
    refine ⟨journal.file, journal.written, [], inv.shaped, (append_nil _).symm, rfl, ?_,
      inv.kept, room, ?_⟩
    · have long := @appendBytes_long Stamp Kind codec journal.file
        ⟨writer.seqFor codec journal.file, turnId, createdAt, kind⟩
      rw [if_neg (Nat.not_le.mpr long), append_nil]
    · rw [Ordered, pairwise_append]
      refine ⟨inv.increasing, pairwise_singleton _ _, ?_⟩
      intro event member last isLast
      rw [mem_singleton.mp isLast]
      have remembers := inv.writers writer (mem_of_getElem? found) alive
      exact seqFor_above inv remembers event member

theorem write_inv (inv : JournalInv codec journal)
    (busy : journal.appending = some appending) (bytes : Nat) :
    JournalInv codec { journal with
      file := journal.file ++ appending.rest.take bytes
      appending := some { appending with rest := appending.rest.drop bytes }
      written :=
        if 1 < appending.rest.length ∧ (appending.rest.drop bytes).length ≤ 1 then
          journal.written ++ [appending.event]
        else journal.written } := by
  obtain ⟨before, old, now, underway⟩ := inv.underway appending busy
  have split : appendBytes codec before appending.event =
      (now ++ appending.rest.take bytes) ++ appending.rest.drop bytes := by
    rw [append_assoc, take_append_drop, underway.split]
  have written : (if 1 < appending.rest.length ∧ (appending.rest.drop bytes).length ≤ 1 then
      journal.written ++ [appending.event] else journal.written) =
      old ++ if (appending.rest.drop bytes).length ≤ 1 then [appending.event] else [] := by
    have fewer : (appending.rest.drop bytes).length ≤ appending.rest.length := by
      rw [length_drop]
      omega
    rw [underway.written]
    by_cases already : appending.rest.length ≤ 1
    · rw [if_neg (by omega), if_pos already, if_pos (by omega)]
    · by_cases complete : (appending.rest.drop bytes).length ≤ 1
      · rw [if_pos ⟨by omega, complete⟩, if_neg already, if_pos complete, append_nil]
      · rw [if_neg (by omega), if_neg already, if_neg complete]
  have file : journal.file ++ appending.rest.take bytes =
      before ++ (now ++ appending.rest.take bytes) := by
    rw [underway.file, append_assoc]
  constructor
  · rw [written, file]
    exact shaped_append underway.shaped underway.inRange.le split
  · rw [written]
    exact underway.ordered
  · rw [written]
    intro event member
    rcases mem_append.mp member with earlier | latest
    · exact inv.inRange event (by rw [underway.written]; exact mem_append_left _ earlier)
    · split_ifs at latest
      · rw [mem_singleton.mp latest]
        exact underway.inRange
      · cases latest
  · rw [written]
    exact underway.kept.trans (sublist_append_left old _)
  · intro writer member alive
    exact (inv.writers writer member alive).grown
  · rintro _ ⟨⟩
    exact ⟨before, old, now ++ appending.rest.take bytes, underway.shaped, file, split, written,
      underway.kept, underway.inRange, underway.increasing⟩

theorem step_inv (taken : JournalStep codec journal label next) (inv : JournalInv codec journal) :
    JournalInv codec next := by
  cases taken with
  | openWriter =>
    refine ⟨inv.shaped, inv.increasing, inv.inRange, inv.kept, ?_, ?_⟩
    · intro writer member alive
      rcases mem_concat member with old | rfl
      · exact inv.writers writer old alive
      · exact ⟨journal.file, prefix_refl _, rfl, seq_lt_next inv⟩
    · intro appending busy
      obtain ⟨before, old, now, underway⟩ := inv.underway appending busy
      exact ⟨before, old, now, underway.shaped, underway.file, underway.split, underway.written,
        underway.kept, underway.inRange, underway.increasing⟩
  | begin turnId createdAt kind _ found alive room => exact begin_inv inv found alive room
  | write bytes busy => exact write_inv inv busy bytes
  | @finish appending writer busy empty found =>
    obtain ⟨before, old, now, underway⟩ := inv.underway appending busy
    have written : journal.written = old ++ [appending.event] := by
      rw [underway.written, empty, if_pos (by simp)]
    refine ⟨inv.shaped, inv.increasing, inv.inRange, ?_, ?_, ?_⟩
    · rw [written]
      exact underway.kept.append (List.Sublist.refl _)
    · intro other member alive
      rcases mem_or_eq_of_mem_set member with old | rfl
      · exact inv.writers other old alive
      · refine ⟨journal.file, prefix_refl _, rfl, ?_⟩
        intro event inFile
        rw [scan_shaped inv.shaped, written] at inFile
        have last := underway.inRange
        have ordered := underway.increasing
        rw [Ordered, pairwise_append] at ordered
        have small : event.seq ≤ appending.event.seq := by
          rcases mem_concat inFile with earlier | latest
          · exact (ordered.2.2 event earlier appending.event (by simp)).le
          · rw [latest]
        dsimp only
        omega
    · intro _ busy
      cases busy
  | @stop appending writer busy found =>
    refine ⟨inv.shaped, inv.increasing, inv.inRange, inv.kept, ?_, ?_⟩
    · intro other member alive
      rcases mem_or_eq_of_mem_set member with old | rfl
      · exact inv.writers other old alive
      · cases alive
    · intro _ busy
      cases busy

theorem initial_inv : JournalInv codec Journal.initial where
  shaped := shaped_empty
  increasing := List.Pairwise.nil
  inRange := fun _ member => absurd member not_mem_nil
  kept := List.Sublist.refl []
  writers := fun _ member => absurd member not_mem_nil
  underway := by
    intro _ busy
    cases busy

end

section

variable {codec : JournalCodec Stamp Kind}

def WarningKind.Mild (kind : WarningKind) : Prop :=
  (∀ previous current, kind ≠ .nonIncreasing previous current) ∧ ∀ seq, kind ≠ .duplicate seq

theorem eventWarnings_mild (unseen : ∀ earlier ∈ seen, earlier < seq)
    (above : ∀ previous, last = some previous → previous < seq) :
    ∀ warning ∈ eventWarnings lineNo seen last seq, warning.kind.Mild := by
  have new : seq ∉ seen := fun member => Nat.lt_irrefl seq (unseen seq member)
  have rising : (match last with
      | some previous =>
        if seq ≤ previous then [(⟨some lineNo, .nonIncreasing previous seq⟩ :
          TurnJournalWarning)] else []
      | none => []) = [] := by
    cases known : last with
    | none => rfl
    | some previous =>
      have less := above previous known
      exact if_neg (by omega)
  unfold eventWarnings
  rw [rising, if_neg new, append_nil, append_nil]
  intro warning member
  split_ifs at member
  · rw [mem_singleton.mp member]
    simp [WarningKind.Mild]
  · cases member

theorem readLoop_rising (index : Nat) (state : ReadState Stamp Kind) (lines : List Text)
    (ordered : Ordered TurnJournalEvent.seq (lines.filterMap (readLine codec)))
    (unseen : ∀ event ∈ lines.filterMap (readLine codec), ∀ earlier ∈ state.seen,
      earlier < event.seq)
    (above : ∀ event ∈ lines.filterMap (readLine codec), ∀ previous, state.last = some previous →
      previous < event.seq)
    (mild : ∀ warning ∈ state.warnings, warning.kind.Mild) :
    (readLoop codec index state lines).events = state.events ++ lines.filterMap (readLine codec) ∧
      ∀ warning ∈ (readLoop codec index state lines).warnings, warning.kind.Mild := by
  induction lines generalizing index state with
  | nil => exact ⟨(append_nil _).symm, mild⟩
  | cons raw rest ih =>
    rw [readLoop]
    by_cases blank : trim raw = []
    · have none : readLine codec raw = none := by rw [readLine, blank]; rfl
      rw [filterMap_cons, none] at ordered unseen above ⊢
      rw [if_pos blank]
      exact ih _ _ ordered unseen above mild
    · have same : readLine codec raw = codec.read (trim raw) := by rw [readLine, if_neg blank]
      rw [if_neg blank]
      cases found : codec.read (trim raw) with
      | none =>
        rw [filterMap_cons, same, found] at ordered unseen above ⊢
        refine ih _ _ ordered unseen above ?_
        intro warning member
        rcases mem_concat member with old | rfl
        · exact mild warning old
        · simp [WarningKind.Mild]
      | some event =>
        rw [filterMap_cons, same, found] at ordered unseen above ⊢
        obtain ⟨rising, later⟩ := pairwise_cons.mp ordered
        have new : event.seq ∉ state.seen := fun member =>
          Nat.lt_irrefl _ (unseen event (by simp) event.seq member)
        dsimp only
        rw [if_neg new]
        obtain ⟨events, warnings⟩ := ih (index + 1)
          { events := state.events ++ [event]
            seen := event.seq :: state.seen
            last := some event.seq
            warnings := state.warnings ++
              eventWarnings (index + 1) state.seen state.last event.seq } later
          (by
            intro other member earlier known
            rcases mem_cons.mp known with rfl | old
            · exact rising other member
            · exact unseen other (mem_cons_of_mem _ member) earlier old)
          (by
            rintro other member _ ⟨⟩
            exact rising other member)
          (by
            intro warning member
            rcases mem_append.mp member with old | now
            · exact mild warning old
            · exact eventWarnings_mild (unseen event (by simp)) (above event (by simp)) warning now)
        refine ⟨?_, warnings⟩
        rw [events, append_assoc]
        rfl

theorem sortByKey_ordered (ordered : Ordered TurnJournalEvent.seq events) :
    sortByKey TurnJournalEvent.seq events = events := by
  apply mergeSort_of_pairwise
  exact List.Pairwise.imp (fun below => decide_eq_true (Nat.le_of_lt below)) ordered

theorem readTurnJournal_shaped {written : List (TurnJournalEvent Stamp Kind)}
    (shaped : Shaped codec file written) (ordered : Ordered TurnJournalEvent.seq written) :
    (readTurnJournal codec file).events = written ∧
      ∀ warning ∈ (readTurnJournal codec file).warnings, warning.kind.Mild := by
  have found := scan_shaped shaped
  unfold scan at found
  unfold readTurnJournal
  dsimp only
  obtain ⟨events, warnings⟩ := @readLoop_rising Stamp Kind codec 0
    ⟨[], [], none, if (Utf8.strict file).isSome then [] else [⟨none, .notUtf8⟩]⟩
    (lines (Utf8.lossy file)) (by rwa [found]) (fun _ _ _ member => absurd member not_mem_nil)
    (by
      intro _ _ _ impossible
      cases impossible)
    (by
      intro warning member
      split_ifs at member
      · cases member
      · rw [mem_singleton.mp member]
        simp [WarningKind.Mild])
  rw [found, nil_append] at events
  rw [events, sortByKey_ordered ordered]
  exact ⟨rfl, warnings⟩

end

/-- However writers are opened and their appends are ordered and cut: the events that reached the file
whole have rising numbers, those whose append returned `Ok` are among them, and the reader returns them
all, without a warning about their order. -/
theorem turn_journal_numbers_rise {Stamp Kind : Type} (codec : JournalCodec Stamp Kind)
    {labels : List (JournalLabel Stamp Kind)} {journal : Journal Stamp Kind}
    (run : Trace (JournalStep codec) Journal.initial labels journal) :
    (journal.written.map TurnJournalEvent.seq).Pairwise (· < ·) ∧
      journal.acknowledged.Sublist journal.written ∧
      (readTurnJournal codec journal.file).events = journal.written ∧
      ∀ warning ∈ (readTurnJournal codec journal.file).warnings,
        (∀ previous current, warning.kind ≠ .nonIncreasing previous current) ∧
          ∀ seq, warning.kind ≠ .duplicate seq := by
  have inv : JournalInv codec journal :=
    run.invariant (fun taken inv => step_inv taken inv) initial_inv
  obtain ⟨events, mild⟩ := readTurnJournal_shaped inv.shaped inv.increasing
  exact ⟨pairwise_map.mpr inv.increasing, inv.kept, events, mild⟩

section

theorem renderFields_last (fields : List (Text × Json)) :
    (Json.renderFields fields).getLast? = some '}' := by
  induction fields with
  | nil => rfl
  | cons field fields ih =>
    obtain ⟨key, value⟩ := field
    have shape : Json.renderFields ((key, value) :: fields) =
        (',' :: (Json.quote key ++ ':' :: value.render)) ++ Json.renderFields fields := by
      simp [Json.renderFields]
    rw [shape, List.getLast?_append, ih]
    rfl

open Classical in
/-- The codec that writes an object with the given fields behind the number and reads exactly
what it writes. -/
noncomputable def JournalCodec.exact
    (fields : TurnJournalEvent Stamp Kind → List (Text × Json))
    (injective : ∀ left right, left.seq = right.seq → fields left = fields right → left = right) :
    JournalCodec Stamp Kind :=
  let text : TurnJournalEvent Stamp Kind → Text := fun event =>
    (Json.obj (("seq".toList, .num event.seq) :: fields event)).render
  have textPrefix : ∀ {left right rest}, text left = text right ++ rest →
      left = right ∧ rest = [] := by
    intro left right rest same
    have extended : text left ++ [] = text right ++ rest := by rw [append_nil, same]
    obtain ⟨all, tails⟩ := Json.render_obj_prefix extended
    simp only [List.cons.injEq, Prod.mk.injEq, true_and, Json.num.injEq, Int.natCast_inj] at all
    exact ⟨injective left right all.1 all.2, tails.symm⟩
  have closes : ∀ event, (text event).getLast? = some '}' := by
    intro event
    have shape : text event = ('{' :: (Json.quote "seq".toList ++
        ':' :: Json.renderNum event.seq)) ++ Json.renderFields (fields event) := by
      simp [text, Json.render]
    rw [shape, List.getLast?_append, renderFields_last]
    rfl
  { text := text
    read := fun line => if written : ∃ event, text event = line then some written.choose else none
    clean := fun event => Json.render_printable
    opens := fun event => rfl
    closes := closes
    read_text := by
      intro event _
      have written : ∃ other, text other = text event := ⟨event, rfl⟩
      have same : text written.choose = text event ++ [] := by
        rw [append_nil, written.choose_spec]
      rw [dif_pos written, (textPrefix same).1]
    read_part := by
      intro event part isPart different
      refine dif_neg ?_
      rintro ⟨other, rfl⟩
      obtain ⟨rest, split⟩ := isPart
      obtain ⟨_, nothing⟩ := textPrefix split.symm
      rw [nothing, append_nil] at split
      exact different split
    read_cut := by
      intro event part _ _
      refine dif_neg ?_
      rintro ⟨other, same⟩
      have last := closes other
      rw [same, List.getLast?_concat] at last
      exact absurd last (by decide) }

end

namespace TwoWriters

/-- Events of kind `turn_started` of one moment. -/
def fields (event : TurnJournalEvent Unit Unit) : List (Text × Json) :=
  [("turn_id".toList, .str event.turnId),
    ("created_at".toList, .str "2026-01-01T00:00:00Z".toList),
    ("kind".toList, .str "turn_started".toList)]

noncomputable def codec : JournalCodec Unit Unit :=
  JournalCodec.exact fields (by
    rintro ⟨seq, turnId, _, _⟩ ⟨otherSeq, otherTurnId, _, _⟩ sameSeq same
    simp only [fields, List.cons.injEq, Prod.mk.injEq, Json.str.injEq, true_and, and_true] at same
    simp only at sameSeq
    rw [sameSeq, same])

def first : TurnJournalEvent Unit Unit := ⟨1, "turn".toList, (), ()⟩

noncomputable def labels : List (JournalLabel Unit Unit) :=
  [.openWriter, .openWriter, .begin 0 "turn".toList () (),
    .write (appendBytes codec [] first).length, .finish, .begin 1 "turn".toList () (), .write 3]

theorem openedRun : ∃ journal, Trace (JournalStep codec) Journal.initial (labels.take 2) journal ∧
      journal = ⟨[], [⟨1, 0, false⟩, ⟨1, 0, false⟩], none, [], []⟩ := by
  have opened : openTurnJournal codec [] = ⟨1, 0, false⟩ := by
    rfl
  refine ⟨_, Trace.snoc (Trace.single JournalStep.openWriter) JournalStep.openWriter, ?_⟩
  simp [Journal.initial, opened]

theorem firstRun : ∃ journal, Trace (JournalStep codec) Journal.initial (labels.take 5) journal ∧
      journal.written = [first] ∧ journal.acknowledged = [first] ∧ journal.appending = none ∧
      journal.writers[1]? = some ⟨1, 0, false⟩ ∧ journal.file.length ≠ 0 := by
  obtain ⟨_, opened, rfl⟩ := openedRun
  have long := @appendBytes_long Unit Unit codec [] first
  have numbered : TurnJournalWriter.seqFor codec ⟨1, 0, false⟩ [] = 1 := rfl
  have begun := @JournalStep.begin Unit Unit codec
    ⟨[], [⟨1, 0, false⟩, ⟨1, 0, false⟩], none, [], []⟩ 0 ⟨1, 0, false⟩ "turn".toList () () rfl rfl
    rfl (by rw [numbered]; decide)
  refine ⟨_, Trace.snoc (Trace.snoc (Trace.snoc opened begun)
    (JournalStep.write (appendBytes codec [] first).length rfl))
    (JournalStep.finish rfl drop_length rfl), ?_, rfl, rfl, rfl, ?_⟩
  · change (if 1 < (appendBytes codec [] first).length ∧
      ((appendBytes codec [] first).drop (appendBytes codec [] first).length).length ≤ 1
      then [] ++ [first] else []) = [first]
    rw [drop_length, if_pos ⟨long, Nat.zero_le 1⟩, nil_append]
  · change ([] ++ (appendBytes codec [] first).take (appendBytes codec [] first).length).length ≠ 0
    rw [take_length, nil_append]
    omega

theorem run : ∃ journal, Trace (JournalStep codec) Journal.initial labels journal ∧
    journal.acknowledged = [first] := by
  obtain ⟨journal, early, written, acknowledged, idle, stale, grown⟩ := firstRun
  have inv : JournalInv codec journal :=
    early.invariant (fun taken inv => step_inv taken inv) initial_inv
  have room : TurnJournalWriter.seqFor codec ⟨1, 0, false⟩ journal.file < maxSeq := by
    unfold TurnJournalWriter.seqFor
    rw [if_pos grown, nextTurnJournalSeq, scan_shaped inv.shaped, written]
    decide
  exact ⟨_, Trace.snoc (Trace.snoc early
    (JournalStep.begin "turn".toList () () idle stale rfl room)) (JournalStep.write 3 rfl),
    acknowledged⟩

end TwoWriters

theorem turn_journal_numbers_rise_twoWriters :
    ∃ journal, Trace (JournalStep TwoWriters.codec) Journal.initial TwoWriters.labels journal ∧
      TwoWriters.first ∈ (readTurnJournal TwoWriters.codec journal.file).events := by
  obtain ⟨journal, run, acknowledged⟩ := TwoWriters.run
  refine ⟨journal, run, ?_⟩
  obtain ⟨_, kept, events, _⟩ := turn_journal_numbers_rise TwoWriters.codec run
  rw [events]
  exact kept.subset (by rw [acknowledged]; simp)

end AgentClaimNetwork.Session
