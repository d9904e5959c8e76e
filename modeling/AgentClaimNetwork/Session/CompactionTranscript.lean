import AgentClaimNetwork.Api.CompactionProjection

/-!
The transcripts sent to the summarising model, from
`src/agent/session_engine/compaction_projection.rs` and `transcript.rs`.
-/

namespace AgentClaimNetwork.Session

open Library Api List

variable {Replay : Type}

structure TurnMessage where
  role : Text
  content : Text

structure CompactionTranscriptProjection where
  full : List TurnMessage
  largeToolResultsOmitted : List TurnMessage
  toolResultsOmitted : List TurnMessage

def attachmentText (kind mediaType : Text) (filename : Option Text) (data : Text) : Text :=
  "[".toList ++ kind ++ " attachment media_type=".toList ++ mediaType ++
    (match filename with
      | some filename => " filename=".toList ++ filename
      | none => []) ++
    (" base64_bytes=" ++ toString (ByteSlice.byteLen data) ++ "]").toList

def flattenBlock : SessionTurnContentBlock → Text
  | .text text => text
  | .modelContext _ _ text => text
  | .skillInstructions instruction => "[explicit skill /".toList ++ instruction.name ++ "]".toList
  | .image mediaType data => attachmentText "image".toList mediaType none data
  | .document mediaType data filename => attachmentText "document".toList mediaType filename data
  | .toolUse _ name input =>
    "[tool_use ".toList ++ name ++ " ".toList ++ input.render ++ "]".toList
  | .invalidToolUse _ name error =>
    "[invalid_tool_use ".toList ++ name ++ ": ".toList ++ error ++ "]".toList
  | .toolResult _ content => content

def flattenTurnContent (blocks : List SessionTurnContentBlock) : Text :=
  intercalate ['\n'] (blocks.map flattenBlock)

section

variable (messages : List (SessionTurnMessage Replay))

def turnMessagesToTranscript : List TurnMessage :=
  (messages.filter fun message => message.modelContextSnapshot.isNone).map fun message =>
    ⟨message.role, flattenTurnContent message.content⟩

def memoryTool : Text := "memory".toList

def memoryToolUseId : SessionTurnContentBlock → Option Text
  | .toolUse id name _ => if name = memoryTool then some id else none
  | .invalidToolUse id name _ => if name = memoryTool then some id else none
  | _ => none

def memoryToolUseIds : List Text :=
  (messages.flatMap fun message => message.content).filterMap memoryToolUseId

variable (memoryEnabled : Bool)

def inputReplacement : SessionTurnContentBlock :=
  .text (if memoryEnabled then "[tool_use memory input omitted from recap transcript]".toList
    else "[private tool input omitted from compaction transcript]".toList)

def outputReplacement : SessionTurnContentBlock :=
  .text (if memoryEnabled then "[tool_result memory output omitted from recap transcript]".toList
    else "[private tool output omitted from compaction transcript]".toList)

def redactBlock (memoryToolUseIds : List Text) (memoryEnabled : Bool) :
    SessionTurnContentBlock → SessionTurnContentBlock
  | .toolUse id name input =>
    if name = memoryTool then inputReplacement memoryEnabled else .toolUse id name input
  | .invalidToolUse id name error =>
    if name = memoryTool then inputReplacement memoryEnabled else .invalidToolUse id name error
  | .toolResult toolUseId content =>
    if toolUseId ∈ memoryToolUseIds then outputReplacement memoryEnabled
    else .toolResult toolUseId content
  | block => block

def redactMemoryToolMessages : List (SessionTurnMessage Replay) :=
  let ids := memoryToolUseIds messages
  messages.map fun message =>
    { message with content := message.content.map (redactBlock ids memoryEnabled) }

def compactionTranscriptProjectionWithMemoryMode
    (toolResultRawMaxChars : Nat) (memoryEnabled : Bool) : CompactionTranscriptProjection :=
  let messages :=
    redactMemoryToolMessages (messages.map projectCompactionInputMedia) memoryEnabled
  { full := turnMessagesToTranscript messages
    largeToolResultsOmitted :=
      turnMessagesToTranscript (projectCompactionInputToolResults messages toolResultRawMaxChars)
    toolResultsOmitted := turnMessagesToTranscript (omitTurnMessagesToolResults messages) }

end

variable {left right : List SessionTurnContentBlock}

/-- Blocks that differ at most in what a memory call said: its input, why it was refused, or
its result. `ids` are the ids of the memory calls. -/
inductive SameBlock (ids : List Text) : SessionTurnContentBlock → SessionTurnContentBlock → Prop
  | same (block : SessionTurnContentBlock) : SameBlock ids block block
  | input (id : Text) (left right : Json) :
      SameBlock ids (.toolUse id memoryTool left) (.toolUse id memoryTool right)
  | error (id left right : Text) :
      SameBlock ids (.invalidToolUse id memoryTool left) (.invalidToolUse id memoryTool right)
  | result (id left right : Text) (call : id ∈ ids) :
      SameBlock ids (.toolResult id left) (.toolResult id right)

structure SameMessage (ids : List Text) (left right : SessionTurnMessage Replay) : Prop where
  role : left.role = right.role
  content : List.Forall₂ (SameBlock ids) left.content right.content

def SameButMemory (left right : List (SessionTurnMessage Replay)) : Prop :=
  List.Forall₂ (SameMessage (memoryToolUseIds left)) left right

theorem SameBlock.memoryToolUseId_eq {left right : SessionTurnContentBlock}
    (alike : SameBlock ids left right) : memoryToolUseId left = memoryToolUseId right := by
  cases alike <;> rfl

theorem SameBlock.redactBlock_eq {left right : SessionTurnContentBlock}
    (alike : SameBlock ids left right) (memoryEnabled : Bool) :
    redactBlock ids memoryEnabled (projectBlockMedia left) =
      redactBlock ids memoryEnabled (projectBlockMedia right) := by
  cases alike with
  | same => rfl
  | input id left right => rfl
  | error id left right => rfl
  | result id left right call => simp only [projectBlockMedia, redactBlock, if_pos call]

theorem redactBlocks_eq (alike : List.Forall₂ (SameBlock ids) left right) :
    (left.map projectBlockMedia).map (redactBlock ids memoryEnabled) =
      (right.map projectBlockMedia).map (redactBlock ids memoryEnabled) := by
  induction alike with
  | nil => rfl
  | cons block _ ih => simp only [map_cons, block.redactBlock_eq, ih]

theorem memoryBlocks_eq (alike : List.Forall₂ (SameBlock ids) left right) :
    left.filterMap memoryToolUseId = right.filterMap memoryToolUseId := by
  induction alike with
  | nil => rfl
  | cons block _ ih => simp only [filterMap_cons, block.memoryToolUseId_eq, ih]

variable {left right : List (SessionTurnMessage Replay)}

theorem memoryToolUseIds_eq (alike : List.Forall₂ (SameMessage ids) left right) :
    memoryToolUseIds left = memoryToolUseIds right := by
  unfold memoryToolUseIds
  induction alike with
  | nil => rfl
  | cons message _ ih =>
    simp [flatMap_cons, filterMap_append, ih, memoryBlocks_eq message.content]

theorem memoryToolUseIds_media (messages : List (SessionTurnMessage Replay)) :
    memoryToolUseIds (messages.map projectCompactionInputMedia) = memoryToolUseIds messages := by
  have media : memoryToolUseId ∘ projectBlockMedia = memoryToolUseId := by
    funext block
    cases block <;> rfl
  unfold memoryToolUseIds
  induction messages with
  | nil => rfl
  | cons message rest ih =>
    simp only [map_cons, flatMap_cons, filterMap_append, ih,
      projectCompactionInputMedia, filterMap_map, media]

theorem SameButMemory.redact_eq (alike : SameButMemory left right) :
    redactMemoryToolMessages (left.map projectCompactionInputMedia) memoryEnabled =
      redactMemoryToolMessages (right.map projectCompactionInputMedia) memoryEnabled := by
  unfold redactMemoryToolMessages
  rw [memoryToolUseIds_media, memoryToolUseIds_media, ← memoryToolUseIds_eq alike]
  unfold SameButMemory at alike
  generalize memoryToolUseIds left = memoryIds at alike
  induction alike with
  | nil => rfl
  | cons message _ ih =>
    simp [map_cons, projectCompactionInputMedia, message.role, redactBlocks_eq message.content, ih]

/-- The transcript of a compaction tells nothing of the inputs, errors and results of the memory tool. -/
theorem compaction_transcript_keeps_memory_private (left right : List (SessionTurnMessage Replay))
    (alike : SameButMemory left right) (toolResultRawMaxChars : Nat) (memoryEnabled : Bool) :
    compactionTranscriptProjectionWithMemoryMode left toolResultRawMaxChars memoryEnabled =
      compactionTranscriptProjectionWithMemoryMode right toolResultRawMaxChars memoryEnabled := by
  unfold compactionTranscriptProjectionWithMemoryMode
  rw [alike.redact_eq]

namespace MemoryTurn

def messages (secret : Text) (replay : Option Nat) : List (SessionTurnMessage Nat) :=
  [.userText "remember".toList,
    ⟨userRole, [.toolResult "m1".toList secret, .toolResult "f1".toList "file".toList], none⟩,
    ⟨assistantRole, [.toolUse "m1".toList memoryTool (.str secret),
      .invalidToolUse "m2".toList memoryTool secret,
      .toolUse "f1".toList "file_read".toList .null], replay⟩]

theorem messages_alike (left right : Text) (leftReplay rightReplay : Option Nat) :
    SameButMemory (messages left leftReplay) (messages right rightReplay) := by
  have call : "m1".toList ∈ memoryToolUseIds (messages left leftReplay) := by
    simp [memoryToolUseIds, messages, memoryToolUseId]
  refine .cons ⟨rfl, .cons (.same _) .nil⟩ (.cons ⟨rfl, ?_⟩ (.cons ⟨rfl, ?_⟩ .nil))
  · exact .cons (.result _ _ _ call) (.cons (.same _) .nil)
  · exact .cons (.input _ _ _) (.cons (.error _ _ _) (.cons (.same _) .nil))

theorem memory_private_at_turn :
    compactionTranscriptProjectionWithMemoryMode (messages "key".toList (some 1)) 4 true =
      compactionTranscriptProjectionWithMemoryMode (messages "another".toList none) 4 true :=
  compaction_transcript_keeps_memory_private _ _ (messages_alike _ _ _ _) 4 true

end MemoryTurn

end AgentClaimNetwork.Session
