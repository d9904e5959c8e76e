import AgentClaimNetwork.Session.Metadata
import AgentClaimNetwork.Session.TurnProjection

/-!
The transcript `messages.jsonl`, from `src/session/mod.rs`: the reader, the tail normaliser and
the append each have a rule of their own for a last line without its newline.
-/

namespace AgentClaimNetwork.Session

open Library LineLog

inductive SessionMessageRole
  | user
  | assistant
deriving DecidableEq

def SessionContentBlock.ofTurn : Api.SessionTurnContentBlock → SessionContentBlock
  | .text body => .text body
  | .modelContext source fingerprint body => .modelContext source fingerprint body
  | .skillInstructions instruction => .skillInstructions instruction
  | .image mediaType data => .image mediaType data
  | .document mediaType data filename => .document mediaType data filename
  | .toolUse id name input => .toolUse id name input
  | .invalidToolUse id name error => .invalidToolUse id name error
  | .toolResult toolUseId content => .toolResult toolUseId content

structure SessionMessage (Stamp Replay : Type) where
  index : Nat
  role : SessionMessageRole
  content : List SessionContentBlock
  createdAt : Stamp
  model : Api.Text
  providerReplay : Option Replay

structure NewSessionMessage (Stamp Replay : Type) where
  role : SessionMessageRole
  content : List SessionContentBlock
  createdAt : Stamp
  model : Api.Text
  providerReplay : Option Replay

structure CompletedSessionTurnMessage (Stamp Replay : Type) where
  message : Api.SessionTurnMessage Replay
  completedAt : Stamp

structure MessageCodec (Stamp Replay : Type) where
  text : SessionMessage Stamp Replay → Api.Text
  read : List UInt8 → Option (SessionMessage Stamp Replay)
  clean : ∀ message, Clean (text message)
  opens : ∀ message, (text message).head? = some '{'
  read_text : ∀ message, read (Utf8.encode (text message)) = some message
  read_part : ∀ message part, part <+: Utf8.encode (text message) →
    part ≠ Utf8.encode (text message) → read part = none

inductive ProviderHistoryFile (History : Type)
  | loaded (history : History)
  | missing
  | invalid

inductive CheckpointFile
  | missing
  | present
  | unreadable
deriving DecidableEq

structure SessionFiles (Stamp History : Type) where
  metadata : SessionMetadata Stamp History
  messages : List UInt8
  providerHistory : ProviderHistoryFile History
  finalizeCheckpoint : CheckpointFile
  latestBackgroundCompletionSeq : Nat

variable {Stamp Replay History : Type} (codec : MessageCodec Stamp Replay)

/-- `u8::is_ascii_whitespace`. -/
def isAsciiWhitespace (byte : UInt8) : Bool :=
  byte == 32 || byte == 9 || byte == 10 || byte == 12 || byte == 13

def readMessageLines (unterminated : Bool) :
    Nat → List (List UInt8) → Except SessionStoreError (List (SessionMessage Stamp Replay))
  | _, [] => .ok []
  | lineNo, line :: rest =>
    if line.all isAsciiWhitespace then readMessageLines unterminated (lineNo + 1) rest
    else match codec.read line with
      | some message => (readMessageLines unterminated (lineNo + 1) rest).map (message :: ·)
      | none =>
        -- the last line may have been cut
        if unterminated && rest.isEmpty then .ok [] else .error (.jsonLine (lineNo + 1))

def readMessagesFile (raw : List UInt8) :
    Except SessionStoreError (List (SessionMessage Stamp Replay)) :=
  readMessageLines codec (!raw.isEmpty && raw.getLast? != some newline) 0 (raw.splitOn newline)

def validTail (tail : List UInt8) : Bool :=
  (Utf8.strict tail).isSome && (tail.all isAsciiWhitespace || (codec.read tail).isSome)

def prepareMessagesTailForAppend (raw : List UInt8) : List UInt8 × Bool :=
  if raw.isEmpty || raw.getLast? == some newline then (raw, false)
  else if validTail codec (raw.rtakeWhile (· != newline)) then (raw, true)
  else (raw.rdropWhile (· != newline), false)

def storedMessage (index : Nat) (message : NewSessionMessage Stamp Replay) :
    SessionMessage Stamp Replay :=
  ⟨index, message.role, message.content, message.createdAt, message.model,
    message.providerReplay⟩

def storedMessages : Nat → List (NewSessionMessage Stamp Replay) →
    List (SessionMessage Stamp Replay)
  | _, [] => []
  | index, message :: rest => storedMessage index message :: storedMessages (index + 1) rest

def messageLines (messages : List (SessionMessage Stamp Replay)) : List UInt8 :=
  frame (messages.map codec.text)

def writeSessionYaml (files : SessionFiles Stamp History)
    (metadata : SessionMetadata Stamp History) : SessionFiles Stamp History :=
  { files with metadata := metadata.withHistory none }

/-- How an append ends: with a crash before the file was touched or behind a part of what it
writes, with an error whose rollback succeeded, or with `Ok`. -/
inductive AppendFate
  | crashedEarly
  | crashed (written : Nat)
  | rolledBack
  | returned

inductive AppendResult (Stamp Replay : Type)
  | stopped
  | failed (error : SessionStoreError)
  | ok (stored : List (SessionMessage Stamp Replay))

section

variable (files : SessionFiles Stamp History) (messages : List (NewSessionMessage Stamp Replay))

def appendedBytes : List UInt8 :=
  (if (prepareMessagesTailForAppend codec files.messages).2 then [newline] else []) ++
    messageLines codec (storedMessages files.metadata.messageCount messages)

def lastModel : Api.Text :=
  (messages.getLast?.map NewSessionMessage.model).getD files.metadata.model

end

section

variable (fate : AppendFate) (messages : List (NewSessionMessage Stamp Replay))
  (files : SessionFiles Stamp History)

def writeMessages :
    SessionFiles Stamp History × AppendResult Stamp Replay :=
  let prepared := (prepareMessagesTailForAppend codec files.messages).1
  match fate with
  | .crashedEarly => (files, .stopped)
  | .crashed written =>
    ({ files with messages := prepared ++ (appendedBytes codec files messages).take written },
      .stopped)
  | .rolledBack => ({ files with messages := prepared }, .failed .io)
  | .returned =>
    (writeSessionYaml { files with messages := prepared ++ appendedBytes codec files messages }
      (files.metadata.commitMessages (files.metadata.messageCount + messages.length)
        (lastModel files messages)),
      .ok (storedMessages files.metadata.messageCount messages))

def appendMessages :
    SessionFiles Stamp History × AppendResult Stamp Replay :=
  if messages = [] then (files, .ok [])
  else if files.metadata.status != .opened || files.metadata.closedAt.isSome then
    (files, .failed (.closed files.metadata.id))
  else writeMessages codec fate messages files

end

def SessionMessageRole.ofText (role : Api.Text) : Except SessionStoreError SessionMessageRole :=
  if role = Api.userRole then .ok .user
  else if role = Api.assistantRole then .ok .assistant
  else .error (.unknownRole role)

def newMessage (model : Api.Text) (message : CompletedSessionTurnMessage Stamp Replay) :
    Except SessionStoreError (NewSessionMessage Stamp Replay) := do
  let role ← SessionMessageRole.ofText message.message.role
  return ⟨role, message.message.content.map SessionContentBlock.ofTurn, message.completedAt,
    model, message.message.providerReplay⟩

def appendSessionTurnMessages (fate : AppendFate)
    (messages : List (CompletedSessionTurnMessage Stamp Replay)) (model : Api.Text)
    (files : SessionFiles Stamp History) :
    SessionFiles Stamp History × AppendResult Stamp Replay :=
  match messages.mapM (newMessage model) with
  | .error error => (files, .failed error)
  | .ok next => appendMessages codec fate next files

def repairCommittedMessageMetadata (files : SessionFiles Stamp History) (messageCount : Nat)
    (model : Api.Text) : SessionFiles Stamp History :=
  writeSessionYaml files (files.metadata.commitMessages messageCount model)

section

variable (metadata : SessionMetadata Stamp History)

variable (files : SessionFiles Stamp History)

/-- `hydrate_provider_history`: the copy the handle keeps, and the files. -/
def hydrateProviderHistory : SessionMetadata Stamp History × SessionFiles Stamp History :=
  match files.providerHistory with
  | .loaded history => (metadata.withHistory (some history), files)
  | .missing =>
    match metadata.compaction.bind SessionCompactionState.providerHistory with
    | some history =>
      (metadata.withHistory (some history),
        writeSessionYaml { files with providerHistory := .loaded history } metadata)
    | none => (metadata.withHistory none, files)
  | .invalid =>
    (metadata.withHistory none,
      writeSessionYaml { files with providerHistory := .missing } metadata)

def preservesRecapCursor : Except SessionStoreError Bool :=
  if metadata.recapBackgroundCompletionUntilSeq = none ∧ metadata.status = .finalizing then
    match files.finalizeCheckpoint with
    | .missing => .ok false
    | .present => .ok true
    | .unreadable => .error .storage
  else .ok false

def initializeCursors (preserve : Bool) (seq : Nat) : SessionMetadata Stamp History :=
  { metadata with
    providerBackgroundCompletionUntilSeq :=
      some (metadata.providerBackgroundCompletionUntilSeq.getD seq)
    recapBackgroundCompletionUntilSeq :=
      if preserve then metadata.recapBackgroundCompletionUntilSeq
      else some (metadata.recapBackgroundCompletionUntilSeq.getD seq) }

/-- Whether `initialize_background_completion_cursors` has anything to write. -/
def cursorsChange (preserve : Bool) : Bool :=
  metadata.providerBackgroundCompletionUntilSeq.isNone ||
    (metadata.recapBackgroundCompletionUntilSeq.isNone && !preserve)

def initializeBackgroundCompletionCursors :
    Except SessionStoreError (SessionMetadata Stamp History × SessionFiles Stamp History) := do
  if metadata.providerBackgroundCompletionUntilSeq.isSome &&
      metadata.recapBackgroundCompletionUntilSeq.isSome then
    return (metadata, files)
  let preserve ← preservesRecapCursor metadata files
  let initialized := initializeCursors metadata preserve files.latestBackgroundCompletionSeq
  return (initialized,
    if cursorsChange metadata preserve then writeSessionYaml files initialized else files)

def validateMessageIndexes (sessionId : Api.Text) :
    Nat → List (SessionMessage Stamp Replay) → Except SessionStoreError Unit
  | _, [] => .ok ()
  | expected, message :: rest =>
    if message.index ≠ expected then
      .error (.messageIndexMismatch sessionId (expected + 1) expected message.index)
    else validateMessageIndexes sessionId (expected + 1) rest

def validateResumeMetadataBounds (actualCount : Nat) : Except SessionStoreError Unit :=
  if actualCount < metadata.recappedUntil then
    .error (.recappedUntilOutOfBounds metadata.id metadata.recappedUntil actualCount)
  else match metadata.compaction with
    | some state =>
      if actualCount < state.frontier.committedMessageUntil then
        .error (.compactedUntilOutOfBounds metadata.id state.frontier.committedMessageUntil actualCount)
      else .ok ()
    | none => .ok ()

/-- The repair reads `session.yaml` again, so the handle gets the stored metadata. -/
def validateAndReconcileResumeMetadata
    (messages : List (SessionMessage Stamp Replay)) (files : SessionFiles Stamp History) :
    Except SessionStoreError (SessionMetadata Stamp History × SessionFiles Stamp History) := do
  validateMessageIndexes metadata.id 0 messages
  if messages.length < metadata.messageCount then
    throw (.messageCountMismatch metadata.id metadata.messageCount messages.length)
  validateResumeMetadataBounds metadata messages.length
  if metadata.messageCount < messages.length then
    let model := (messages.getLast?.map SessionMessage.model).getD metadata.model
    let repaired := files.metadata.commitMessages messages.length model
    return (repaired, writeSessionYaml files repaired)
  return (metadata, files)

end

structure LoadedSession (Stamp Replay History : Type) where
  metadata : SessionMetadata Stamp History
  messages : List (SessionMessage Stamp Replay)
  files : SessionFiles Stamp History

def loadExistingSession (agentId : Api.Text) (files : SessionFiles Stamp History) :
    Except SessionStoreError (LoadedSession Stamp Replay History) := do
  if files.metadata.agentId ≠ agentId then
    throw (.wrongAgent files.metadata.id agentId)
  let hydrated := hydrateProviderHistory files.metadata files
  let initialized ← initializeBackgroundCompletionCursors hydrated.1 hydrated.2
  let messages ← readMessagesFile codec initialized.2.messages
  let reconciled ← validateAndReconcileResumeMetadata initialized.1 messages initialized.2
  return ⟨reconciled.1, messages, reconciled.2⟩

end AgentClaimNetwork.Session
