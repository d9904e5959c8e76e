import AgentClaimNetwork.Library.TornLog
import AgentClaimNetwork.Library.Grouping

/-!
The assembly of a streamed chat completion, from `src/api/chat_completions/streaming.rs`: the text
in the order of its arrival, and the tool calls by their index.
-/

namespace AgentClaimNetwork.Api.ChatStream

open Library

abbrev Text := List Char

inductive ChatFinishReason
  | stop
  | toolCalls
  | length
  | contentFilter
  | functionCall
  | other

structure ChatStreamToolCallFunctionDelta where
  name : Option Text
  arguments : Option Text

structure ChatStreamToolCallDelta where
  index : Option Nat
  id : Option Text
  kind : Option Text
  function : Option ChatStreamToolCallFunctionDelta

structure ChatStreamDelta where
  role : Option Text
  content : Option Text
  refusal : Option Text
  toolCalls : List ChatStreamToolCallDelta

structure ChatStreamChoice where
  delta : ChatStreamDelta
  finishReason : Option ChatFinishReason

structure ChatStreamFrame (Value : Type) where
  choices : List ChatStreamChoice
  usage : Option Value
  error : Option Value

structure ChatToolCallFunction where
  name : Text
  arguments : Text

structure ChatToolCall where
  id : Text
  kind : Text
  function : ChatToolCallFunction

structure ChatCompletionResponse (Value : Type) where
  role : Text
  content : Option Text
  refusal : Option Text
  toolCalls : List ChatToolCall
  finishReason : ChatFinishReason
  usage : Option Value

inductive ChatCompletionsError (Value : Type)
  | invalidJson (raw : Text)
  | failed (error : Value)
  | deltaAfterFinish (raw : Text)
  | noFinishReason
  | missingId (index : Nat)
  | missingName (index : Nat)

structure ToolCallDraft where
  id : Option Text := none
  kind : Option Text := none
  name : Option Text := none
  arguments : Text := []

def nonBlank (text : Option Text) : Option Text := text.filter fun text => !LineLog.isBlank text

def ToolCallDraft.add (draft : ToolCallDraft) (delta : ChatStreamToolCallDelta) :
    ToolCallDraft where
  id := (nonBlank delta.id).or draft.id
  kind := (nonBlank delta.kind).or draft.kind
  name := (nonBlank (delta.function.bind (·.name))).or draft.name
  arguments := draft.arguments ++ (delta.function.bind (·.arguments)).getD []

def ToolCallDraft.toToolCall {Value : Type} (draft : ToolCallDraft) (index : Nat) :
    Except (ChatCompletionsError Value) ChatToolCall :=
  match draft.id with
  | none => .error (.missingId index)
  | some id =>
    match draft.name with
    | none => .error (.missingName index)
    | some name => .ok ⟨id, draft.kind.getD "function".toList, ⟨name, draft.arguments⟩⟩

/-- The drafts by their index; `finish` reads them in its order. -/
abbrev Drafts := KeyedMap (Prod.fst : Nat × ToolCallDraft → Nat)

def Drafts.apply (drafts : Drafts) (delta : ChatStreamToolCallDelta) : Drafts :=
  let index := delta.index.getD drafts.values.length
  let draft := ((drafts.get? index).map Prod.snd).getD {}
  drafts.insert (index, draft.add delta)

structure ChatStreamAccumulator (Value : Type) where
  role : Option Text
  content : Text
  refusal : Text
  toolCalls : Drafts
  finishReason : Option ChatFinishReason
  usage : Option Value

namespace ChatStreamAccumulator

variable {Value : Type} (parse : Text → Option (ChatStreamFrame Value))

def fresh : ChatStreamAccumulator Value := ⟨none, [], [], KeyedMap.empty, none, none⟩

variable (state : ChatStreamAccumulator Value)

def applyChoice (choice : ChatStreamChoice) : ChatStreamAccumulator Value :=
  { state with
    finishReason := choice.finishReason.or state.finishReason
    role := state.role.or choice.delta.role
    content := state.content ++ choice.delta.content.getD []
    refusal := state.refusal ++ choice.delta.refusal.getD []
    toolCalls := choice.delta.toolCalls.foldl Drafts.apply state.toolCalls }

/-- The texts of the `ContentDelta` events of a choice. -/
def emitted (choice : ChatStreamChoice) : List Text :=
  choice.delta.content.toList.filter fun content => !content.isEmpty

def isDone (data : Text) : Bool := TornLog.trim data = "[DONE]".toList

def applyFrame (data : Text) :
    Except (ChatCompletionsError Value) (ChatStreamAccumulator Value × List Text) :=
  if isDone data then .ok (state, [])
  else match parse data with
    | none => .error (.invalidJson data)
    | some frame =>
      match frame.error with
      | some error => .error (.failed error)
      | none =>
        if state.finishReason.isSome && !frame.choices.isEmpty then
          .error (.deltaAfterFinish data)
        else
          .ok (frame.choices.foldl applyChoice
            { state with usage := frame.usage.or state.usage },
            frame.choices.flatMap emitted)

def applyFrames : ChatStreamAccumulator Value → List Text →
    Except (ChatCompletionsError Value) (ChatStreamAccumulator Value × List Text)
  | state, [] => .ok (state, [])
  | state, data :: rest =>
    match applyFrame parse state data with
    | .error error => .error error
    | .ok (next, first) =>
      match applyFrames next rest with
      | .error error => .error error
      | .ok (last, later) => .ok (last, first ++ later)

def finish : Except (ChatCompletionsError Value) (ChatCompletionResponse Value) :=
  match state.finishReason with
  | none => .error .noFinishReason
  | some finishReason =>
    match state.toolCalls.values.mapM fun entry => entry.2.toToolCall entry.1 with
    | .error error => .error error
    | .ok toolCalls => .ok
        { role := state.role.getD "assistant".toList
          content := if state.content.isEmpty then none else some state.content
          refusal := if state.refusal.isEmpty then none else some state.refusal
          toolCalls := toolCalls
          finishReason := finishReason
          usage := state.usage }

end ChatStreamAccumulator

end AgentClaimNetwork.Api.ChatStream
