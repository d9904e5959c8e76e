import AgentClaimNetwork.Library.JsonReader
import AgentClaimNetwork.Library.LineLog

/-!
The assembly of a streamed assistant turn from its content blocks, from
`src/api/anthropic/streaming.rs`.
-/

namespace AgentClaimNetwork.Api.AnthropicStream

open Library

abbrev Text := List Char

inductive AnthropicError
  | afterMessageStop
  | secondMessageStart
  | missingContentBlock
  | missingDelta
  | stopBeforeStart
  | errorEvent (event : Json)
  | unknownEvent (kind : Option Text)
  | unknownDelta (kind : Option Text)
  | missingIndex
  | indexGap (expected actual : Nat)
  | unstartedBlock (index : Nat)
  | finishedBlock (index : Nat)
  | blockTypeMismatch (index : Nat)
  | missingField (field : Text)
  | invalidInput (raw : Text)
  | noMessageStop
  | noMessageStart
  | unfinishedBlock
  | noStopReason

inductive SessionTurnEvent (Usage : Type)
  | contextUsageUpdated (usage : Usage)
  | assistantTextDelta (text : Text)

inductive DeltaKind
  | text
  | inputJson
  | thinking
  | signature
deriving DecidableEq

def DeltaKind.ofName (name : Text) : Option DeltaKind :=
  if name = "text_delta".toList then some .text
  else if name = "input_json_delta".toList then some .inputJson
  else if name = "thinking_delta".toList then some .thinking
  else if name = "signature_delta".toList then some .signature
  else none

def DeltaKind.field : DeltaKind → Text
  | text => "text".toList
  | inputJson => "partial_json".toList
  | thinking => "thinking".toList
  | signature => "signature".toList

def DeltaKind.blockType : DeltaKind → Text
  | text => "text".toList
  | inputJson => "tool_use".toList
  | thinking | signature => "thinking".toList

def getStr (name : Text) (value : Json) : Option Text := (value.get? name).bind Json.asStr

def typeName : Text := "type".toList

def inputName : Text := "input".toList

def insert (name : Text) (item : Json) : Json → Json
  | .obj fields => .obj (Json.insertField fields (name, item))
  | other => other

def appendJsonStringField (value : Json) (field suffix : Text) : Json :=
  insert field (.str ((getStr field value).getD [] ++ suffix)) value

def mergeUsage (current : Option Json) : Json → Option Json
  | .obj update =>
    match current.getD (.obj []) with
    | .obj target => some (.obj (update.foldl Json.insertField target))
    | _ => some (.obj update)
  | _ => current

structure StreamingBlock where
  value : Json
  inputJson : Text
  finished : Bool

def StreamingBlock.add (block : StreamingBlock) (kind : DeltaKind) (text : Text) : StreamingBlock :=
  match kind with
  | .inputJson => { block with inputJson := block.inputJson ++ text }
  | kind => { block with value := appendJsonStringField block.value kind.field text }

/-- `blocks` never holds the `None` its type allows. -/
structure StreamingAssistantTurn where
  blocks : List StreamingBlock
  stopReason : Option Text
  mergedText : Text
  usage : Option Json
  sawMessageStart : Bool
  sawMessageStop : Bool

structure ContinuedAssistantTurn where
  finalBlocks : List Json
  finalStopReason : Text
  mergedText : Text
  finalResponse : Json
  replayMessages : List Json

/-- `serde_json::from_str::<Value>` and the readers of token counts. -/
structure Readers (Usage : Type) where
  parse : Text → Option Json
  inputUsage : Json → Option Usage
  committedUsage : Json → Option Usage

namespace StreamingAssistantTurn

variable {Usage : Type} (readers : Readers Usage)

def fresh : StreamingAssistantTurn := ⟨[], none, [], none, false, false⟩

def sseIndex (event : Json) : Except AnthropicError Nat :=
  match (event.get? "index".toList).bind Json.asU64 with
  | none => .error .missingIndex
  | some index => .ok index

section

variable (turn : StreamingAssistantTurn) (index : Nat)

def blockMut : Except AnthropicError StreamingBlock :=
  match turn.blocks[index]? with
  | none => .error (.unstartedBlock index)
  | some block => if block.finished then .error (.finishedBlock index) else .ok block

def startBlock (block : Json) : Except AnthropicError StreamingAssistantTurn :=
  if index ≠ turn.blocks.length then .error (.indexGap turn.blocks.length index)
  else .ok { turn with blocks := turn.blocks ++ [⟨block, [], false⟩] }

def applyContentDelta (delta : Json) :
    Except AnthropicError (StreamingAssistantTurn × List (SessionTurnEvent Usage)) := do
  let block ← turn.blockMut index
  match (getStr typeName delta).bind DeltaKind.ofName with
  | none => .error (.unknownDelta (getStr typeName delta))
  | some kind =>
    if getStr typeName block.value ≠ some kind.blockType then .error (.blockTypeMismatch index)
    else match getStr kind.field delta with
      | none => .error (.missingField kind.field)
      | some text => .ok (
          { turn with
            blocks := turn.blocks.set index (block.add kind text)
            mergedText := turn.mergedText ++ if kind = .text then text else [] },
          if kind = .text ∧ text ≠ [] then [.assistantTextDelta text] else [])

def finishBlock : Except AnthropicError StreamingAssistantTurn := do
  let block ← turn.blockMut index
  if getStr typeName block.value = some "tool_use".toList ∧ !LineLog.isBlank block.inputJson then
    match readers.parse block.inputJson with
    | none => .error (.invalidInput block.inputJson)
    | some input =>
      let block := { block with value := insert inputName input block.value, finished := true }
      .ok { turn with blocks := turn.blocks.set index block }
  else .ok { turn with blocks := turn.blocks.set index { block with finished := true } }

end

def applyEvent (turn : StreamingAssistantTurn) (event : Json) :
    Except AnthropicError (StreamingAssistantTurn × List (SessionTurnEvent Usage)) :=
  if turn.sawMessageStop then .error .afterMessageStop
  else
    let kind := getStr typeName event
    if kind = some "message_start".toList then
      if turn.sawMessageStart then .error .secondMessageStart
      else
        let turn := { turn with sawMessageStart := true }
        match (event.get? "message".toList).bind (·.get? "usage".toList) with
        | none => .ok (turn, [])
        | some usage => .ok ({ turn with usage := mergeUsage turn.usage usage },
            (readers.inputUsage usage).toList.map .contextUsageUpdated)
    else if kind = some "content_block_start".toList then do
      let index ← sseIndex event
      match event.get? "content_block".toList with
      | none => .error .missingContentBlock
      | some block => do
          let turn ← turn.startBlock index block
          return (turn, [])
    else if kind = some "content_block_delta".toList then do
      let index ← sseIndex event
      match event.get? "delta".toList with
      | none => .error .missingDelta
      | some delta => turn.applyContentDelta index delta
    else if kind = some "content_block_stop".toList then do
      let index ← sseIndex event
      let turn ← turn.finishBlock readers index
      return (turn, [])
    else if kind = some "message_delta".toList then
      .ok ({ turn with
        stopReason := ((event.get? "delta".toList).bind (getStr "stop_reason".toList)).or
          turn.stopReason
        usage := ((event.get? "usage".toList).map (mergeUsage turn.usage)).getD turn.usage }, [])
    else if kind = some "message_stop".toList then
      if turn.sawMessageStart then
        .ok ({ turn with sawMessageStop := true },
          (turn.usage.bind readers.committedUsage).toList.map .contextUsageUpdated)
      else .error .stopBeforeStart
    else if kind = some "ping".toList then .ok (turn, [])
    else if kind = some "error".toList then .error (.errorEvent event)
    else .error (.unknownEvent kind)

def applyEvents : StreamingAssistantTurn → List Json →
    Except AnthropicError (StreamingAssistantTurn × List (SessionTurnEvent Usage))
  | turn, [] => .ok (turn, [])
  | turn, event :: rest => do
      let (next, first) ← applyEvent readers turn event
      let (last, later) ← applyEvents next rest
      return (last, first ++ later)

def finish (turn : StreamingAssistantTurn) : Except AnthropicError ContinuedAssistantTurn :=
  if !turn.sawMessageStop then .error .noMessageStop
  else if !turn.sawMessageStart then .error .noMessageStart
  else if turn.blocks.any (!·.finished) then .error .unfinishedBlock
  else match turn.stopReason.filter (!LineLog.isBlank ·) with
    | none => .error .noStopReason
    | some stopReason =>
      let finalBlocks := turn.blocks.map StreamingBlock.value
      .ok ⟨finalBlocks, stopReason, turn.mergedText,
        .obj [("content".toList, .arr finalBlocks), ("stop_reason".toList, .str stopReason)], []⟩

end StreamingAssistantTurn

end AgentClaimNetwork.Api.AnthropicStream
