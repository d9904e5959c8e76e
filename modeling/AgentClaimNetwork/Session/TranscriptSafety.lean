import AgentClaimNetwork.Session.MessageJson

/-!
What a crash at any byte of an append leaves in the transcript, and what the next load makes
of it.
-/

namespace AgentClaimNetwork.Session

open Library LineLog List
open Utf8 (encode)
variable {Stamp Replay History : Type} {agentId : Api.Text}

section

variable {Stamp Replay : Type} {codec : MessageCodec Stamp Replay}

/-- Complete lines, with the last message short of its newline or with a part of a line
behind them. -/
inductive Holds (codec : MessageCodec Stamp Replay) :
    List UInt8 → List (SessionMessage Stamp Replay) → Prop
  | framed (messages) : Holds codec (messageLines codec messages) messages
  | bare (messages message) :
      Holds codec (messageLines codec messages ++ encode (codec.text message))
        (messages ++ [message])
  | torn (messages message) (part : List UInt8) : part ≠ [] →
      part <+: encode (codec.text message) → part ≠ encode (codec.text message) →
      Holds codec (messageLines codec messages ++ part) messages

@[simp] theorem messageLines_nil : messageLines codec [] = [] := rfl

theorem messageLines_cons (message : SessionMessage Stamp Replay)
    (messages : List (SessionMessage Stamp Replay)) :
    messageLines codec (message :: messages) =
      encode (codec.text message) ++ newline :: messageLines codec messages := by
  simp [messageLines]

theorem messageLines_append (left right : List (SessionMessage Stamp Replay)) :
    messageLines codec (left ++ right) = messageLines codec left ++ messageLines codec right := by
  simp [messageLines]

theorem messageLines_concat (messages : List (SessionMessage Stamp Replay))
    (message : SessionMessage Stamp Replay) :
    messageLines codec (messages ++ [message]) =
      messageLines codec messages ++ encode (codec.text message) ++ [newline] := by
  rw [messageLines_append, messageLines_cons, messageLines_nil, append_assoc]

theorem MessageCodec.bytes_cons (codec : MessageCodec Stamp Replay) :
    ∃ rest, encode (codec.text message) = 123 :: rest := by
  have head := codec.opens message
  cases text : codec.text message with
  | nil =>
    rw [text] at head
    cases head
  | cons first rest =>
    rw [text] at head
    obtain rfl : first = '{' := by simpa using head
    exact ⟨encode rest, rfl⟩

theorem MessageCodec.bytes_ne_nil (codec : MessageCodec Stamp Replay)
    (message : SessionMessage Stamp Replay) : encode (codec.text message) ≠ [] := by
  obtain ⟨rest, same⟩ := codec.bytes_cons
  rw [same]
  simp

variable {message : SessionMessage Stamp Replay} {part : List UInt8}

theorem part_not_newline
    (isPart : part <+: encode (codec.text message)) : newline ∉ part := fun member =>
  newline_not_mem_encode (codec.clean message) (isPart.subset member)

theorem part_not_blank
    (some_bytes : part ≠ []) (isPart : part <+: encode (codec.text message)) :
    part.all isAsciiWhitespace = false := by
  obtain ⟨rest, same⟩ := codec.bytes_cons
  rw [same] at isPart
  cases part with
  | nil => exact absurd rfl some_bytes
  | cons first part =>
    obtain ⟨rfl, _⟩ := cons_prefix_cons.mp isPart
    rfl

theorem splitOn_messageLines (messages : List (SessionMessage Stamp Replay)) {tail : List UInt8}
    (unbroken : newline ∉ tail) :
    (messageLines codec messages ++ tail).splitOn newline =
      messages.map (fun message => encode (codec.text message)) ++ [tail] := by
  induction messages with
  | nil => simpa using splitOn_eq_singleton unbroken
  | cons message messages ih =>
    rw [messageLines_cons, append_assoc, cons_append,
      splitOn_append_cons_self_of_not_mem (newline_not_mem_encode (codec.clean message)),
      ih]
    rfl

theorem readMessageLines_whole (unterminated : Bool) (lineNo : Nat)
    (messages : List (SessionMessage Stamp Replay)) (rest : List (List UInt8)) :
    readMessageLines codec unterminated lineNo
        (messages.map (fun message => encode (codec.text message)) ++ rest) =
      (readMessageLines codec unterminated (lineNo + messages.length) rest).map
        (messages ++ ·) := by
  induction messages generalizing lineNo with
  | nil =>
    simp only [map_nil, nil_append, length_nil, Nat.add_zero]
    cases readMessageLines codec unterminated lineNo rest <;> rfl
  | cons message messages ih =>
    have solid := part_not_blank (codec.bytes_ne_nil message) (prefix_refl _)
    rw [map_cons, cons_append, readMessageLines, solid, if_neg (by simp),
      codec.read_text, ih, length_cons, Nat.add_assoc, Nat.add_comm 1]
    cases readMessageLines codec unterminated (lineNo + (messages.length + 1)) rest <;> rfl

theorem messageLines_ended (messages : List (SessionMessage Stamp Replay)) :
    messages = [] ∨ (messageLines codec messages).getLast? = some newline := by
  by_cases nothing : messages = []
  · exact .inl nothing
  · right
    exact frame_getLast (by simpa using nothing)

theorem unterminated_part {front part : List UInt8} (some_bytes : part ≠ [])
    (unbroken : newline ∉ part) :
    (!(front ++ part).isEmpty && (front ++ part).getLast? != some newline) = true := by
  obtain ⟨before, last, rfl⟩ := (eq_nil_or_concat' part).resolve_left some_bytes
  have different : last ≠ newline := by
    rintro rfl
    exact unbroken (by simp)
  simp [different]

variable {messages : List (SessionMessage Stamp Replay)}

theorem Holds.read
    (held : Holds codec bytes messages) : readMessagesFile codec bytes = .ok messages := by
  cases held with
  | framed messages =>
    have split := @splitOn_messageLines _ _ codec messages [] (by simp)
    rw [append_nil] at split
    rw [readMessagesFile, split, readMessageLines_whole]
    simp [readMessageLines, Except.map]
  | bare messages message =>
    have split := @splitOn_messageLines _ _ codec messages _
      (newline_not_mem_encode (codec.clean message))
    have asLines : messages.map (fun message => encode (codec.text message)) ++
        [encode (codec.text message)] =
        (messages ++ [message]).map (fun message => encode (codec.text message)) ++ [] := by
      simp
    rw [readMessagesFile, split, asLines, readMessageLines_whole]
    simp [readMessageLines, Except.map]
  | torn messages message part some_bytes isPart cut =>
    have unbroken := part_not_newline isPart
    have flagged := @unterminated_part (messageLines codec messages) _ some_bytes unbroken
    rw [readMessagesFile, splitOn_messageLines messages unbroken, readMessageLines_whole,
      readMessageLines, part_not_blank some_bytes isPart, codec.read_part message _ isPart cut,
      flagged]
    simp [Except.map]

theorem tail_split (unbroken : newline ∉ part) :
    (messageLines codec messages ++ part).rtakeWhile (· != newline) = part ∧
      (messageLines codec messages ++ part).rdropWhile (· != newline) =
        messageLines codec messages := by
  have inside : ∀ byte ∈ part.reverse, (byte != newline) = true := by
    intro byte member
    simp only [bne_iff_ne]
    rintro rfl
    exact unbroken (mem_reverse.mp member)
  have stops : (messageLines codec messages).reverse.takeWhile (· != newline) = [] ∧
      (messageLines codec messages).reverse.dropWhile (· != newline) =
        (messageLines codec messages).reverse := by
    rcases @messageLines_ended _ _ codec messages with rfl | ended
    · exact ⟨rfl, rfl⟩
    · obtain ⟨front, same⟩ := List.getLast?_eq_some_iff.mp ended
      rw [same, reverse_concat]
      simp
  constructor
  · rw [rtakeWhile, reverse_append, takeWhile_append_of_pos inside, stops.1,
      append_nil, reverse_reverse]
  · rw [rdropWhile, reverse_append, dropWhile_append_of_pos inside, stops.2,
      reverse_reverse]

theorem Holds.prepare (held : Holds codec bytes messages) :
    Holds codec (prepareMessagesTailForAppend codec bytes).1 messages ∧
      (prepareMessagesTailForAppend codec bytes).1 ++
          (if (prepareMessagesTailForAppend codec bytes).2 then [newline] else []) =
        messageLines codec messages := by
  cases held with
  | framed messages =>
    have ended : ((messageLines codec messages).isEmpty ||
        (messageLines codec messages).getLast? == some newline) = true := by
      rcases @messageLines_ended _ _ codec messages with rfl | ended
      · rfl
      · rw [ended]
        simp
    rw [prepareMessagesTailForAppend, if_pos ended]
    exact ⟨.framed messages, by simp⟩
  | bare messages message =>
    have unbroken := newline_not_mem_encode (codec.clean message)
    have flagged := @unterminated_part (messageLines codec messages) _
      (codec.bytes_ne_nil message) unbroken
    have valid : validTail codec (encode (codec.text message)) = true := by
      simp [validTail, Utf8.strict_encode, codec.read_text]
    rw [prepareMessagesTailForAppend, if_neg (by simpa using flagged),
      (tail_split unbroken).1, if_pos valid]
    exact ⟨.bare messages message, (messageLines_concat messages message).symm⟩
  | torn messages message part some_bytes isPart cut =>
    have unbroken := part_not_newline isPart
    have flagged := @unterminated_part (messageLines codec messages) _ some_bytes unbroken
    have invalid : validTail codec part = false := by
      rw [validTail, part_not_blank some_bytes isPart, codec.read_part message _ isPart cut]
      simp
    rw [prepareMessagesTailForAppend, if_neg (by simpa using flagged),
      (tail_split unbroken).1, invalid, (tail_split unbroken).2]
    exact ⟨.framed messages, by simp⟩

def wholeMessages (codec : MessageCodec Stamp Replay) :
    List (SessionMessage Stamp Replay) → Nat → Nat
  | [], _ => 0
  | message :: rest, written =>
    if written < (encode (codec.text message)).length then 0
    else wholeMessages codec rest (written - ((encode (codec.text message)).length + 1)) + 1

theorem wholeMessages_zero (messages : List (SessionMessage Stamp Replay)) :
    wholeMessages codec messages 0 = 0 := by
  cases messages with
  | nil => rfl
  | cons message messages =>
    rw [wholeMessages, if_pos (length_pos_iff.mpr (codec.bytes_ne_nil message))]

theorem Holds.nothing_more (isPart : part <+: Utf8.encode (codec.text message))
    (cut : part ≠ encode (codec.text message)) :
    Holds codec (messageLines codec messages ++ part) messages := by
  by_cases nothing : part = []
  · rw [nothing, append_nil]
    exact .framed messages
  · exact .torn messages message part nothing isPart cut

theorem holds_take (old messages : List (SessionMessage Stamp Replay)) (written : Nat) :
    Holds codec (messageLines codec old ++ (messageLines codec messages).take written)
      (old ++ messages.take (wholeMessages codec messages written)) := by
  induction messages generalizing old written with
  | nil => simpa [wholeMessages] using Holds.framed old
  | cons message messages ih =>
    rw [messageLines_cons, wholeMessages]
    rcases Nat.lt_trichotomy written (encode (codec.text message)).length with
      inside | exactly | beyond
    · rw [if_pos inside, take_append_of_le_length (Nat.le_of_lt inside)]
      have cut : (encode (codec.text message)).take written ≠
          encode (codec.text message) := by
        intro same
        have lengths := congrArg List.length same
        rw [length_take] at lengths
        omega
      simpa using Holds.nothing_more (List.take_prefix written _) cut
    · rw [if_neg (by omega), Nat.sub_eq_zero_of_le (by omega), wholeMessages_zero, exactly,
        take_left]
      simpa using Holds.bare old message
    · have line : (encode (codec.text message) ++
          newline :: messageLines codec messages).take written =
          encode (codec.text message) ++ newline :: (messageLines codec messages).take
            (written - ((encode (codec.text message)).length + 1)) := by
        obtain ⟨more, rfl⟩ : ∃ more, written =
            (encode (codec.text message)).length + 1 + more :=
          ⟨written - ((encode (codec.text message)).length + 1), by omega⟩
        rw [Nat.add_sub_cancel_left, Nat.add_assoc, take_length_add_append,
          Nat.add_comm 1, take_succ_cons]
      have rest := ih (old ++ [message]) (written - ((encode (codec.text message)).length + 1))
      rw [messageLines_concat] at rest
      rw [if_neg (by omega), line, take_succ_cons]
      simpa using rest

end

section

variable {codec : MessageCodec Stamp Replay}

/-- The same metadata but for the provider history and the background cursors. -/
structure Tracks (stored other : SessionMetadata Stamp History) : Prop where
  id : other.id = stored.id
  agentId : other.agentId = stored.agentId
  status : other.status = stored.status
  closedAt : other.closedAt = stored.closedAt
  messageCount : other.messageCount = stored.messageCount
  recappedUntil : other.recappedUntil = stored.recappedUntil
  compaction : other.compaction.map (·.frontier.committedMessageUntil) =
    stored.compaction.map (·.frontier.committedMessageUntil)

theorem Tracks.refl : Tracks metadata metadata :=
  ⟨rfl, rfl, rfl, rfl, rfl, rfl, rfl⟩

theorem Tracks.trans (early : Tracks first second) (late : Tracks second third) :
    Tracks first third :=
  ⟨late.id.trans early.id, late.agentId.trans early.agentId, late.status.trans early.status,
    late.closedAt.trans early.closedAt, late.messageCount.trans early.messageCount,
    late.recappedUntil.trans early.recappedUntil, late.compaction.trans early.compaction⟩

theorem withHistory_tracks (metadata : SessionMetadata Stamp History) (history : Option History) :
    Tracks metadata (metadata.withHistory history) := by
  refine ⟨rfl, rfl, rfl, rfl, rfl, rfl, ?_⟩
  cases compaction : metadata.compaction <;> simp [SessionMetadata.withHistory, compaction]

theorem initializeCursors_tracks (metadata : SessionMetadata Stamp History) (preserve : Bool)
    (seq : Nat) : Tracks metadata (initializeCursors metadata preserve seq) :=
  ⟨rfl, rfl, rfl, rfl, rfl, rfl, rfl⟩

structure Carried (files : SessionFiles Stamp History)
    (next : SessionMetadata Stamp History × SessionFiles Stamp History) : Prop where
  handle : Tracks files.metadata next.1
  stored : Tracks files.metadata next.2.metadata
  messages : next.2.messages = files.messages
  checkpoint : next.2.finalizeCheckpoint = files.finalizeCheckpoint

theorem hydrate_carried :
    Carried files (hydrateProviderHistory files.metadata files) := by
  unfold hydrateProviderHistory
  cases files.providerHistory with
  | loaded history => exact ⟨withHistory_tracks _ _, Tracks.refl, rfl, rfl⟩
  | missing =>
    cases files.metadata.compaction.bind SessionCompactionState.providerHistory with
    | some history => exact ⟨withHistory_tracks _ _, withHistory_tracks _ _, rfl, rfl⟩
    | none => exact ⟨withHistory_tracks _ _, Tracks.refl, rfl, rfl⟩
  | invalid => exact ⟨withHistory_tracks _ _, withHistory_tracks _ _, rfl, rfl⟩

variable {files : SessionFiles Stamp History}

theorem preservesRecapCursor_ok (metadata : SessionMetadata Stamp History)
    (readable : files.finalizeCheckpoint ≠ .unreadable) :
    ∃ preserve, preservesRecapCursor metadata files = .ok preserve := by
  unfold preservesRecapCursor
  split_ifs
  · cases checkpoint : files.finalizeCheckpoint with
    | missing => exact ⟨false, rfl⟩
    | present => exact ⟨true, rfl⟩
    | unreadable => exact absurd checkpoint readable
  · exact ⟨false, rfl⟩

theorem Carried.initialized {next : SessionMetadata Stamp History × SessionFiles Stamp History}
    (carried : Carried files next) (readable : files.finalizeCheckpoint ≠ .unreadable) :
    ∃ last, initializeBackgroundCompletionCursors next.1 next.2 = .ok last ∧
      Carried files last := by
  unfold initializeBackgroundCompletionCursors
  split_ifs
  · exact ⟨next, rfl, carried⟩
  · rw [← carried.checkpoint] at readable
    obtain ⟨preserve, decided⟩ := preservesRecapCursor_ok next.1 readable
    rw [decided]
    have handle := carried.handle.trans (initializeCursors_tracks next.1 preserve
      next.2.latestBackgroundCompletionSeq)
    refine ⟨_, rfl, handle, ?_, ?_, ?_⟩ <;> dsimp only <;> split_ifs
    · exact handle.trans (withHistory_tracks _ none)
    · exact carried.stored
    · exact carried.messages
    · exact carried.messages
    all_goals exact carried.checkpoint

def Numbered (messages : List (SessionMessage Stamp Replay)) : Prop :=
  ∀ (position : Nat) (message : SessionMessage Stamp Replay),
    messages[position]? = some message → message.index = position

variable {messages : List (SessionMessage Stamp Replay)}

theorem validateMessageIndexes_ok
    (numbered : ∀ (position : Nat) (message : SessionMessage Stamp Replay),
      messages[position]? = some message → message.index = start + position) :
    validateMessageIndexes sessionId start messages = .ok () := by
  induction messages generalizing start with
  | nil => rfl
  | cons message messages ih =>
    have first := numbered 0 message rfl
    rw [validateMessageIndexes, if_neg (by omega)]
    apply ih
    intro position other found
    have later := numbered (position + 1) other (by simpa using found)
    omega

/-- The files of a session a load accepts, with the messages it finds. -/
structure Loadable (codec : MessageCodec Stamp Replay) (agentId : Api.Text)
    (files : SessionFiles Stamp History) (messages : List (SessionMessage Stamp Replay)) :
    Prop where
  agentId : files.metadata.agentId = agentId
  held : Holds codec files.messages messages
  numbered : Numbered messages
  counted : files.metadata.messageCount ≤ messages.length
  recapped : files.metadata.recappedUntil ≤ messages.length
  compacted : ∀ state, files.metadata.compaction = some state →
    state.frontier.committedMessageUntil ≤ messages.length
  readable : files.finalizeCheckpoint ≠ .unreadable

theorem Loadable.tracked {files next : SessionFiles Stamp History}
    (loadable : Loadable codec agentId files messages)
    (tracks : Tracks files.metadata next.metadata) (same : next.messages = files.messages)
    (checkpoint : next.finalizeCheckpoint = files.finalizeCheckpoint) :
    Loadable codec agentId next messages where
  agentId := tracks.agentId.trans loadable.agentId
  held := same ▸ loadable.held
  numbered := loadable.numbered
  counted := tracks.messageCount ▸ loadable.counted
  recapped := tracks.recappedUntil ▸ loadable.recapped
  compacted := by
    intro state found
    have committed := tracks.compaction
    rw [found] at committed
    obtain ⟨old, present, same⟩ := Option.map_eq_some_iff.mp committed.symm
    exact same.symm.le.trans (loadable.compacted old present)
  readable := by
    rw [checkpoint]
    exact loadable.readable

variable {metadata : SessionMetadata Stamp History}

theorem validateResumeMetadataBounds_ok {count : Nat} (recapped : metadata.recappedUntil ≤ count)
    (compacted : ∀ state, metadata.compaction = some state → state.frontier.committedMessageUntil ≤ count) :
    validateResumeMetadataBounds metadata count = .ok () := by
  rw [validateResumeMetadataBounds, if_neg (by omega)]
  cases compaction : metadata.compaction with
  | none => rfl
  | some state =>
    have bound := compacted state compaction
    dsimp only
    rw [if_neg (by omega)]

theorem Loadable.repaired (loadable : Loadable codec agentId files messages)
    {count : Nat} (counted : count ≤ messages.length) (model : Api.Text) :
    Loadable codec agentId (repairCommittedMessageMetadata files count model) messages := by
  have tracks := withHistory_tracks (files.metadata.commitMessages count model) none
  have committed : Loadable codec agentId
      { files with metadata := files.metadata.commitMessages count model } messages :=
    ⟨loadable.agentId, loadable.held, loadable.numbered, counted, loadable.recapped,
      loadable.compacted, loadable.readable⟩
  exact committed.tracked tracks rfl rfl

theorem reconcile_ok
    (handled : Loadable codec agentId { files with metadata := metadata } messages) :
    ∃ model, validateAndReconcileResumeMetadata metadata messages files =
      .ok (if metadata.messageCount < messages.length then
          (files.metadata.commitMessages messages.length model,
            repairCommittedMessageMetadata files messages.length model)
        else (metadata, files)) := by
  have indexes : validateMessageIndexes metadata.id 0 messages = .ok () :=
    validateMessageIndexes_ok fun position message found => by
      rw [Nat.zero_add]
      exact handled.numbered position message found
  have bounds := validateResumeMetadataBounds_ok handled.recapped handled.compacted
  have counted : ¬ messages.length < metadata.messageCount := Nat.not_lt.mpr handled.counted
  refine ⟨(messages.getLast?.map SessionMessage.model).getD metadata.model, ?_⟩
  unfold validateAndReconcileResumeMetadata
  rw [indexes]
  simp only [counted, bounds, bind, Except.bind, pure, Except.pure, if_false]
  split_ifs <;> rfl

theorem Loadable.load (loadable : Loadable codec agentId files messages) :
    ∃ loaded, loadExistingSession codec agentId files = .ok loaded ∧
      loaded.messages = messages ∧ loaded.metadata.messageCount = messages.length ∧
      loaded.files.metadata.messageCount = messages.length ∧
      Loadable codec agentId loaded.files messages ∧
      loaded.files.metadata.status = files.metadata.status ∧
      loaded.files.metadata.closedAt = files.metadata.closedAt := by
  obtain ⟨last, initialized, carried⟩ := (hydrate_carried).initialized loadable.readable
  have accepted := loadable.tracked carried.stored carried.messages carried.checkpoint
  have handled : Loadable codec agentId { last.2 with metadata := last.1 } messages :=
    loadable.tracked carried.handle carried.messages carried.checkpoint
  have sameCount := carried.stored.messageCount.trans carried.handle.messageCount.symm
  obtain ⟨model, reconciled⟩ := reconcile_ok handled
  unfold loadExistingSession
  simp only [loadable.agentId, ne_eq, not_true_eq_false, if_false, initialized, accepted.held.read,
    reconciled, bind, Except.bind, pure, Except.pure]
  refine ⟨_, rfl, rfl, ?_⟩
  split_ifs with behind
  · exact ⟨rfl, rfl, accepted.repaired (Nat.le_refl _) model, carried.stored.status,
      carried.stored.closedAt⟩
  · have equal : last.1.messageCount = messages.length :=
      Nat.le_antisymm handled.counted (Nat.not_lt.mp behind)
    exact ⟨equal, sameCount.trans equal, accepted, carried.stored.status, carried.stored.closedAt⟩

end

section

variable {codec : MessageCodec Stamp Replay}

theorem storedMessages_length (start : Nat) (messages : List (NewSessionMessage Stamp Replay)) :
    (storedMessages start messages).length = messages.length := by
  induction messages generalizing start with
  | nil => rfl
  | cons message messages ih => simp [storedMessages, ih]

variable {message : SessionMessage Stamp Replay}

theorem storedMessages_index (start : Nat) (messages : List (NewSessionMessage Stamp Replay))
    (found : (storedMessages start messages)[position]? = some message) :
    message.index = start + position := by
  induction messages generalizing start position with
  | nil => simp [storedMessages] at found
  | cons first messages ih =>
    cases position with
    | zero =>
      obtain rfl : storedMessage start first = message := by simpa [storedMessages] using found
      rfl
    | succ position =>
      have later := ih (start + 1) (by simpa [storedMessages] using found)
      omega

variable {old : List (SessionMessage Stamp Replay)}

theorem Numbered.append (numbered : Numbered old)
    (messages : List (NewSessionMessage Stamp Replay)) (count : Nat) :
    Numbered (old ++ (storedMessages old.length messages).take count) := by
  intro position message found
  by_cases early : position < old.length
  · rw [List.getElem?_append_left early] at found
    exact numbered position message found
  · rw [List.getElem?_append_right (Nat.not_lt.mp early), List.getElem?_take] at found
    split_ifs at found
    have index := storedMessages_index _ _ found
    omega

theorem Numbered.get {messages : List (SessionMessage Stamp Replay)} (numbered : Numbered messages)
    (member : message ∈ messages) :
    messages[message.index]? = some message := by
  obtain ⟨position, found⟩ := mem_iff_getElem?.mp member
  rw [numbered position message found]
  exact found

def leadLength (codec : MessageCodec Stamp Replay) (raw : List UInt8) : Nat :=
  if (prepareMessagesTailForAppend codec raw).2 then 1 else 0

def wholeAppended (codec : MessageCodec Stamp Replay) (files : SessionFiles Stamp History)
    (messages : List (NewSessionMessage Stamp Replay)) (written : Nat) :
    List (SessionMessage Stamp Replay) :=
  (storedMessages files.metadata.messageCount messages).take
    (wholeMessages codec (storedMessages files.metadata.messageCount messages)
      (written - leadLength codec files.messages))

variable {files : SessionFiles Stamp History}

theorem holds_appended (held : Holds codec files.messages old) :
    Holds codec ((prepareMessagesTailForAppend codec files.messages).1 ++
        (appendedBytes codec files messages).take written)
      (old ++ wholeAppended codec files messages written) := by
  obtain ⟨still, lined⟩ := held.prepare
  unfold appendedBytes wholeAppended leadLength
  split_ifs at lined ⊢ with lead
  · cases written with
    | zero =>
      rw [Nat.zero_sub, wholeMessages_zero]
      simpa using still
    | succ written =>
      have rest := @holds_take _ _ codec old
        (storedMessages files.metadata.messageCount messages) written
      rw [← lined] at rest
      simpa using rest
  · rw [append_nil] at lined
    rw [lined, nil_append, Nat.sub_zero]
    exact holds_take old _ written

theorem holds_appended_all (held : Holds codec files.messages old)
    (messages : List (NewSessionMessage Stamp Replay)) :
    Holds codec ((prepareMessagesTailForAppend codec files.messages).1 ++
        appendedBytes codec files messages)
      (old ++ storedMessages files.metadata.messageCount messages) := by
  obtain ⟨_, lined⟩ := held.prepare
  rw [appendedBytes, ← append_assoc, lined, ← messageLines_append]
  exact .framed _

theorem Loadable.grow (loadable : Loadable codec agentId files old)
    (held : Holds codec bytes (old ++ more)) (numbered : Numbered (old ++ more)) :
    Loadable codec agentId { files with messages := bytes } (old ++ more) where
  agentId := loadable.agentId
  held := held
  numbered := numbered
  counted := Nat.le_trans loadable.counted (by simp)
  recapped := Nat.le_trans loadable.recapped (by simp)
  compacted state found := Nat.le_trans (loadable.compacted state found) (by simp)
  readable := loadable.readable

structure Settled (codec : MessageCodec Stamp Replay) (agentId : Api.Text)
    (files : SessionFiles Stamp History) (messages : List (SessionMessage Stamp Replay)) :
    Prop where
  loadable : Loadable codec agentId files messages
  complete : files.metadata.messageCount = messages.length

section

variable (settled : Settled codec agentId files old)
  (messages : List (NewSessionMessage Stamp Replay))
include settled messages

theorem Settled.crashed (written : Nat) :
    Loadable codec agentId (writeMessages codec (.crashed written) messages files).1
      (old ++ wholeAppended codec files messages written) := by
  apply settled.loadable.grow (holds_appended settled.loadable.held)
  rw [wholeAppended, settled.complete]
  exact settled.loadable.numbered.append messages _

theorem Settled.rolledBack :
    Settled codec agentId (writeMessages codec .rolledBack messages files).1 old := by
  have held := settled.loadable.held.prepare.1
  rw [← append_nil old] at held
  have grown := settled.loadable.grow held (by simpa using settled.loadable.numbered)
  rw [append_nil] at grown
  exact ⟨grown, settled.complete⟩

theorem Settled.returned : Settled codec agentId (writeMessages codec .returned messages files).1
      (old ++ storedMessages old.length messages) := by
  have numbered := settled.loadable.numbered.append messages messages.length
  rw [take_of_length_le (by rw [storedMessages_length])] at numbered
  have held := holds_appended_all settled.loadable.held messages
  rw [settled.complete] at held
  have length : files.metadata.messageCount + messages.length =
      (old ++ storedMessages old.length messages).length := by
    rw [length_append, storedMessages_length, settled.complete]
  have grown := (settled.loadable.grow held numbered).repaired (Nat.le_of_eq length)
    (lastModel files messages)
  exact ⟨grown, length⟩

end

end

section

variable {codec : MessageCodec Stamp Replay}

structure TranscriptState (Stamp Replay History : Type) where
  files : SessionFiles Stamp History
  /-- A process has loaded the session and has not crashed since. -/
  loaded : Bool
  /-- The messages whose append returned `Ok`, as they were numbered. -/
  acknowledged : List (SessionMessage Stamp Replay)
  /-- The messages some append set out to write. -/
  offered : List (SessionMessage Stamp Replay)

inductive TranscriptLabel (Stamp Replay : Type)
  | append (fate : AppendFate) (messages : List (NewSessionMessage Stamp Replay))
  | load

def TranscriptState.appended (codec : MessageCodec Stamp Replay) (fate : AppendFate)
    (messages : List (NewSessionMessage Stamp Replay))
    (state : TranscriptState Stamp Replay History) : TranscriptState Stamp Replay History :=
  let next := appendMessages codec fate messages state.files
  { files := next.1
    loaded := match next.2 with
      | .stopped => false
      | _ => state.loaded
    acknowledged := match next.2 with
      | .ok stored => state.acknowledged ++ stored
      | _ => state.acknowledged
    offered := state.offered ++ storedMessages state.files.metadata.messageCount messages }

inductive TranscriptStep (codec : MessageCodec Stamp Replay) (agentId : Api.Text)
    (state : TranscriptState Stamp Replay History) :
    TranscriptLabel Stamp Replay → TranscriptState Stamp Replay History → Prop
  | append (fate : AppendFate) (messages : List (NewSessionMessage Stamp Replay)) :
      state.loaded = true →
      TranscriptStep codec agentId state (.append fate messages)
        (state.appended codec fate messages)
  | load {loaded : LoadedSession Stamp Replay History} :
      loadExistingSession codec agentId state.files = .ok loaded →
      TranscriptStep codec agentId state .load { state with files := loaded.files, loaded := true }

def TranscriptState.begin (files : SessionFiles Stamp History)
    (messages : List (SessionMessage Stamp Replay)) : TranscriptState Stamp Replay History :=
  ⟨files, true, messages, []⟩

structure Recovers (codec : MessageCodec Stamp Replay) (agentId : Api.Text)
    (initial : List (SessionMessage Stamp Replay)) (state : TranscriptState Stamp Replay History)
    (messages : List (SessionMessage Stamp Replay)) : Prop where
  loadable : Loadable codec agentId state.files messages
  complete : state.loaded = true → state.files.metadata.messageCount = messages.length
  kept : ∀ message ∈ state.acknowledged, message ∈ messages
  offered : ∀ message ∈ messages, message ∈ initial ∨ message ∈ state.offered

variable {messages : List (SessionMessage Stamp Replay)}

theorem Recovers.settled
    (recovers : Recovers codec agentId initial state messages) (ready : state.loaded = true) :
    Settled codec agentId state.files messages :=
  ⟨recovers.loadable, recovers.complete ready⟩

theorem Recovers.offered_more (recovers : Recovers codec agentId initial state messages)
    (among : ∀ message ∈ more, message ∈ new) :
    ∀ message ∈ messages ++ more, message ∈ initial ∨ message ∈ state.offered ++ new := by
  intro message member
  rcases mem_append.mp member with old | added
  · exact (recovers.offered message old).imp_right fun known => mem_append_left new known
  · exact .inr (mem_append_right _ (among message added))

theorem Recovers.append
    (recovers : Recovers codec agentId initial state messages) (ready : state.loaded = true) :
    ∃ messages, Recovers codec agentId initial (state.appended codec fate new) messages := by
  have settled := recovers.settled ready
  have same : ∀ message ∈ messages, message ∈ initial ∨
      message ∈ state.offered ++ storedMessages state.files.metadata.messageCount new := by
    intro message member
    exact (recovers.offered message member).imp_right fun known => mem_append_left _ known
  unfold TranscriptState.appended appendMessages
  split_ifs with nothing refused
  · exact ⟨messages, recovers.loadable, recovers.complete, by simpa using recovers.kept, same⟩
  · exact ⟨messages, recovers.loadable, recovers.complete, recovers.kept, same⟩
  · cases fate with
    | crashedEarly =>
      exact ⟨messages, recovers.loadable, (nomatch ·), recovers.kept, same⟩
    | crashed written =>
      refine ⟨_, settled.crashed new written, (nomatch ·), ?_, ?_⟩
      · exact fun message member => mem_append_left _ (recovers.kept message member)
      · exact recovers.offered_more fun message member => mem_of_mem_take member
    | rolledBack =>
      have after := settled.rolledBack new
      exact ⟨messages, after.loadable, fun _ => after.complete, recovers.kept, same⟩
    | returned =>
      have after := settled.returned new
      refine ⟨_, after.loadable, fun _ => after.complete, ?_, ?_⟩
      · intro message member
        rcases mem_append.mp member with old | added
        · exact mem_append_left _ (recovers.kept message old)
        · rw [settled.complete] at added
          exact mem_append_right _ added
      · apply recovers.offered_more
        intro message member
        rw [settled.complete]
        exact member

theorem Recovers.step {state next : TranscriptState Stamp Replay History}
    (taken : TranscriptStep codec agentId state label next)
    (before : ∃ messages, Recovers codec agentId initial state messages) :
    ∃ messages, Recovers codec agentId initial next messages := by
  obtain ⟨messages, recovers⟩ := before
  cases taken with
  | append fate new ready => exact recovers.append ready
  | load success =>
    obtain ⟨loaded, again, _, _, counted, loadable, _⟩ := recovers.loadable.load
    obtain rfl := Except.ok.inj (again.symm.trans success)
    exact ⟨messages, loadable, fun _ => counted, recovers.kept, recovers.offered⟩

variable {message : SessionMessage Stamp Replay}

theorem acknowledged_step {state next : TranscriptState Stamp Replay History}
    (taken : TranscriptStep codec agentId state label next)
    (member : message ∈ state.acknowledged) :
    message ∈ next.acknowledged := by
  cases taken with
  | append fate new ready =>
    unfold TranscriptState.appended
    dsimp only
    split
    · exact mem_append_left _ member
    · exact member
  | load success => exact member

theorem acknowledged_run (run : Trace (TranscriptStep codec agentId) first labels last)
    (member : message ∈ first.acknowledged) : message ∈ last.acknowledged := by
  induction run with
  | nil => exact member
  | snoc _ taken ih => exact acknowledged_step taken ih

/-- Whatever crashes cut, a load succeeds, every message whose append returned is at its
number for ever, every message read is one an append was called with, and the count is the
number of messages. -/
theorem session_transcript_survives_crashes (codec : MessageCodec Stamp Replay)
    {agentId : Api.Text} {files : SessionFiles Stamp History}
    {initial : List (SessionMessage Stamp Replay)} (settled : Settled codec agentId files initial)
    {early late : List (TranscriptLabel Stamp Replay)}
    {middle last : TranscriptState Stamp Replay History}
    (before : Trace (TranscriptStep codec agentId) (TranscriptState.begin files initial) early middle)
    (after : Trace (TranscriptStep codec agentId) middle late last) :
    ∃ loaded, loadExistingSession codec agentId last.files = .ok loaded ∧
      Numbered loaded.messages ∧
      (∀ message ∈ middle.acknowledged, loaded.messages[message.index]? = some message) ∧
      (∀ message ∈ loaded.messages, message ∈ initial ∨ message ∈ last.offered) ∧
      loaded.metadata.messageCount = loaded.messages.length ∧
      loaded.files.metadata.messageCount = loaded.messages.length := by
  have start : ∃ messages, Recovers codec agentId initial
      (TranscriptState.begin files initial) messages :=
    ⟨initial, settled.loadable, fun _ => settled.complete, fun _ member => member,
      fun _ member => .inl member⟩
  obtain ⟨messages, recovers⟩ := (before.append after).invariant
    (fun taken recovers => Recovers.step taken recovers) start
  obtain ⟨loaded, success, rfl, handle, counted, _⟩ := recovers.loadable.load
  refine ⟨loaded, success, recovers.loadable.numbered, ?_, recovers.offered, handle, counted⟩
  intro message member
  exact recovers.loadable.numbered.get (recovers.kept message (acknowledged_run after member))

end

namespace CutAppend

def message : NewSessionMessage Text Json :=
  ⟨.user, [.text "hello".toList], "2026-01-01T00:00:00Z".toList, "model".toList, none⟩

def files : SessionFiles Text Unit where
  metadata := ⟨"session".toList, "agent".toList, .opened, none, "model".toList, 0, none, 0,
    some 0, some 0, none⟩
  messages := []
  providerHistory := .missing
  finalizeCheckpoint := .missing
  latestBackgroundCompletionSeq := 0

theorem settled : Settled textCodec "agent".toList files [] where
  loadable :=
    { agentId := rfl
      held := .framed []
      numbered := by simp [Numbered]
      counted := Nat.le_refl 0
      recapped := Nat.le_refl 0
      compacted := by simp [files]
      readable := by decide }
  complete := rfl

def labels : List (TranscriptLabel Text Json) :=
  [.append (.crashed 9) [message], .load, .append .returned [message]]

theorem run : ∃ last : TranscriptState Text Json Unit,
    Trace (TranscriptStep textCodec "agent".toList) (TranscriptState.begin files []) labels last ∧
      storedMessage 0 message ∈ last.acknowledged := by
  have cut := settled.crashed [message] 9
  have nothing : wholeAppended textCodec files [message] 9 = [] := by
    have short : 9 < (encode (textCodec.text (storedMessage 0 message))).length := by
      decide +kernel
    simp [wholeAppended, storedMessages, wholeMessages, files, leadLength,
      prepareMessagesTailForAppend, short]
  rw [nothing, append_nil] at cut
  obtain ⟨loaded, success, _, _, counted, _, status, closedAt⟩ := cut.load
  refine ⟨_, Trace.snoc (Trace.snoc (Trace.single (.append (.crashed 9) [message] rfl))
    (.load success)) (.append .returned [message] rfl), ?_⟩
  have writes : appendMessages textCodec .returned [message] loaded.files =
      writeMessages textCodec .returned [message] loaded.files := by
    rw [appendMessages, if_neg (by simp), status, closedAt]
    rfl
  simp only [TranscriptState.appended, writes, writeMessages, counted]
  simp [storedMessages]

end CutAppend

theorem session_transcript_survives_crashes_cutAppend : ∃ last : TranscriptState Text Json Unit,
      Trace (TranscriptStep textCodec "agent".toList) (TranscriptState.begin CutAppend.files [])
        CutAppend.labels last ∧
      ∃ loaded, loadExistingSession textCodec "agent".toList last.files = .ok loaded ∧
        loaded.messages[0]? = some (storedMessage 0 CutAppend.message) := by
  obtain ⟨last, run, acknowledged⟩ := CutAppend.run
  obtain ⟨loaded, success, _, kept, _⟩ := session_transcript_survives_crashes textCodec
    CutAppend.settled run (Trace.nil last)
  exact ⟨last, run, loaded, success, kept _ acknowledged⟩

end AgentClaimNetwork.Session
