import AgentClaimNetwork.Api.ResponsesErrors
import AgentClaimNetwork.Library.KeyedMap

/-!
The events of a Responses stream, and the response that a stream of them reduces to.
-/

namespace AgentClaimNetwork.Api.Responses

open Library
open TornLog (trimString)

inductive ResponsesTerminal
  | completed
  | maxOutputTokens
deriving DecidableEq

structure ResponsesFunctionCall where
  callId : String
  name : String
  arguments : String

structure ReducedResponses where
  responseId : Option String
  outputItems : List Json
  outputText : String
  refused : Bool
  functionCalls : List ResponsesFunctionCall
  usage : Option Json
  terminal : ResponsesTerminal

section

structure Gathered where
  outputText : String := ""
  refused : Bool := false
  functionCalls : List ResponsesFunctionCall := []

def itemLabel (index : Nat) : String := "output[" ++ toString index ++ "]"

def requiredItemString (item : Json) (index : Nat) (field : String) : Except String String :=
  match ((get item field).bind asString).filter fun value => trimString value ≠ "" with
  | some value => .ok value
  | none => .error (itemLabel index ++ " function_call 缺少 " ++ field)

def validateConsumableItemStatus (terminal : ResponsesTerminal) (index : Nat) (item : Json) :
    Except String Unit :=
  if terminal ≠ .completed then .ok ()
  else
    match get item "status" with
    | none => .ok ()
    | some status =>
      match asString status with
      | none => .error (itemLabel index ++ ".status 不是 string")
      | some status =>
        if status = "completed" then .ok ()
        else .error ("completed response 包含未完成的 " ++ itemLabel index ++
          " item: status=" ++ status)

def partLabel (itemIndex contentIndex : Nat) : String :=
  itemLabel itemIndex ++ ".content[" ++ toString contentIndex ++ "]"

def reducePart (itemIndex contentIndex : Nat) (gathered : Gathered) (part : Json) :
    Except String Gathered :=
  if isObject part = false then .error (partLabel itemIndex contentIndex ++ " 不是 object")
  else
    match (get part "type").bind asString with
    | none => .error (partLabel itemIndex contentIndex ++ " 缺少 type")
    | some kind =>
      let visible := if kind = "output_text" then some "text"
        else if kind = "refusal" then some "refusal" else none
      match visible with
      | none => .ok gathered
      | some field =>
        match (get part field).bind asString with
        | none => .error (partLabel itemIndex contentIndex ++ " " ++ kind ++ " 缺少 " ++ field)
        | some text => .ok { gathered with
            outputText := gathered.outputText ++ text
            refused := gathered.refused || kind = "refusal" }

def reduceParts (itemIndex : Nat) : Nat → Gathered → List Json → Except String Gathered
  | _, gathered, [] => .ok gathered
  | contentIndex, gathered, part :: parts =>
    match reducePart itemIndex contentIndex gathered part with
    | .error reason => .error reason
    | .ok next => reduceParts itemIndex (contentIndex + 1) next parts

def reduceMessageItem (itemIndex : Nat) (gathered : Gathered) (item : Json) :
    Except String Gathered :=
  match (get item "role").bind asString with
  | none => .error (itemLabel itemIndex ++ " message 缺少 role")
  | some role =>
    if role ≠ "assistant" then
      .error (itemLabel itemIndex ++ " message.role 必须是 assistant")
    else
      match (get item "content").bind asArray with
      | none => .error (itemLabel itemIndex ++ " message 缺少 content array")
      | some content => reduceParts itemIndex 0 gathered content

def reduceFunctionCall (index : Nat) (gathered : Gathered) (item : Json) : Except String Gathered :=
  match requiredItemString item index "call_id" with
  | .error reason => .error reason
  | .ok callId =>
    if gathered.functionCalls.any (·.callId = callId) then
      .error (itemLabel index ++ " function_call.call_id 重复: " ++ callId)
    else
      match requiredItemString item index "name", requiredItemString item index "arguments" with
      | .error reason, _ => .error reason
      | .ok _, .error reason => .error reason
      | .ok name, .ok arguments => .ok { gathered with
          functionCalls := gathered.functionCalls ++ [{ callId, name, arguments }] }

def reduceItem (terminal : ResponsesTerminal) (index : Nat) (gathered : Gathered) (item : Json) :
    Except String Gathered :=
  if isObject item = false then .error (itemLabel index ++ " 不是 object")
  else
    match (get item "type").bind asString with
    | none => .error (itemLabel index ++ " 缺少 type")
    | some kind =>
      if kind = "message" ∨ kind = "function_call" then
        match validateConsumableItemStatus terminal index item with
        | .error reason => .error reason
        | .ok () =>
          if kind = "message" then reduceMessageItem index gathered item
          else reduceFunctionCall index gathered item
      else .ok gathered

def reduceItems (terminal : ResponsesTerminal) : Nat → Gathered → List Json → Except String Gathered
  | _, gathered, [] => .ok gathered
  | index, gathered, item :: items =>
    match reduceItem terminal index gathered item with
    | .error reason => .error reason
    | .ok next => reduceItems terminal (index + 1) next items

variable (parse : List Char → Option Json)

def responseErrorMessage (error : Option Json) (code : Option String) : String :=
  normalizeResponsesErrorMessageWithCode parse
    ((((objectField error "message").bind asString).filter fun message =>
      trimString message ≠ "").getD "upstream response failed") code

def responseErrorCode (error : Option Json) : Option String :=
  ((error.bind structuredProviderErrorCode).filter fun code => trimString code ≠ "").map fun code =>
    (safeResponsesErrorCode code).getD "redacted"

def responseTerminal (value : Json) : Except ResponsesError ResponsesTerminal :=
  match (get value "status").bind asString with
  | none => .error (.outputShape "response 缺少 status")
  | some status =>
    if status = "completed" then .ok .completed
    else if status = "incomplete" then
      let reason := ((objectField (get value "incomplete_details") "reason").bind asString).getD
        "unknown"
      if reason = "max_output_tokens" then .ok .maxOutputTokens
      else .error (.incomplete
        ((safeResponsesErrorCode reason).getD "redacted_incomplete_reason"))
    else if status = "failed" then
      let code := responseErrorCode (get value "error")
      .error (.failed code (responseErrorMessage parse (get value "error") code))
    else .error (.outputShape ("response.status 不支持或尚未到达终态: " ++ status))

def reduceResponseValue (value : Json) : Except ResponsesError ReducedResponses :=
  if isObject value = false then .error (.outputShape "response 不是 JSON object")
  else
    match responseTerminal parse value with
    | .error error => .error error
    | .ok terminal =>
      match (get value "output").bind asArray with
      | none => .error (.outputShape "response 缺少 output array")
      | some outputItems =>
        match reduceItems terminal 0 {} outputItems with
        | .error reason => .error (.outputShape reason)
        | .ok gathered => .ok {
            responseId := ((get value "id").bind asString).filter fun id => trimString id ≠ ""
            outputItems
            outputText := gathered.outputText
            refused := gathered.refused
            functionCalls := gathered.functionCalls
            usage := (get value "usage").filter fun usage => !isNull usage
            terminal }

end

structure ResponsesEventDecoder where
  outputItems : List (Nat × Json) := []
  terminalResponse : Option Json := none
  terminalStatus : Option String := none

structure Applied where
  decoder : ResponsesEventDecoder
  emitted : Option String := none
  terminal : Bool := false

variable (parse : List Char → Option Json)

def eventErrorMessage (error : Option Json) (code : Option String) : String :=
  normalizeResponsesErrorMessageWithCode parse
    ((((errorMessage error).bind asString).filter fun message =>
      trimString message ≠ "").getD "upstream Responses stream failed") code

def eventErrorStatus (event : Json) : Option Nat :=
  (([["status"], ["status_code"], ["error", "status"], ["error", "status_code"],
    ["response", "error", "status"], ["response", "error", "status_code"]].findSome?
      (pointer event)).bind Json.asU64).filter (· < 2 ^ 16)

def responseStreamError (event : Json) (error : Option Json) : ResponsesError :=
  let code := (structuredProviderErrorCode event).map fun code =>
    (safeResponsesErrorCode code).getD "redacted"
  let message := eventErrorMessage parse error code
  match eventErrorStatus event with
  | none => .failed code message
  | some status =>
    let statusError := ResponsesError.status status
      (normalizeResponsesErrorBody parse (String.ofList event.render))
    if status = 413 || isExplicitWebsocketMessageTooBig statusError then statusError
    else if code.any isProviderTransientErrorCode then .failed code message
    else if status = 429 || 500 ≤ status then
      .failed (if code.all (· = "redacted") then
        some (if status = 429 then "rate_limit_error" else "server_error") else code) message
    else statusError

def announcedStatus (kind : String) : Option String :=
  if kind = "response.completed" then some "completed"
  else if kind = "response.incomplete" then some "incomplete"
  else none

def streamFailed {α : Type} (reason : String) : Except ResponsesError α :=
  .error (.streamFailure reason)

variable (decoder : ResponsesEventDecoder) (event : Json)

def applyItemDone : Except ResponsesError Applied :=
  match (get event "output_index").bind Json.asU64, (get event "item").filter isObject with
  | none, _ => streamFailed "response.output_item.done 缺少合法 output_index"
  | some _, none => streamFailed "response.output_item.done 缺少 item object"
  | some index, some item =>
    if decoder.outputItems.any (·.1 = index) then
      streamFailed ("response.output_item.done output_index=" ++ toString index ++ " 重复")
    else .ok { decoder := { decoder with
      outputItems := KeyedMap.insertSorted Prod.fst (index, item) decoder.outputItems } }

def applyEvent (kind : String) : Except ResponsesError Applied :=
  if kind = "response.output_text.delta" then
    match (get event "delta").bind asString with
    | none => streamFailed (kind ++ " 缺少 delta")
    | some delta => .ok { decoder, emitted := if delta = "" then none else some delta }
  else if kind = "response.refusal.delta" then
    match (get event "delta").bind asString with
    | none => streamFailed "response.refusal.delta 缺少 delta"
    | some _ => .ok { decoder }
  else if kind = "response.output_item.done" then applyItemDone decoder event
  else if kind = "response.failed" then
    .error (responseStreamError parse event (pointer event ["response", "error"]))
  else if kind = "error" then .error (responseStreamError parse event (some event))
  else
    match announcedStatus kind with
    | none => .ok { decoder }
    | some status =>
      match (get event "response").filter isObject with
      | none => streamFailed (kind ++ " 缺少 response object")
      | some response => .ok {
          decoder := { decoder with
            terminalResponse := some response, terminalStatus := some status }
          terminal := true }

def eventKind : Option String := (get event "type").bind asString

def applyEventText (data : List Char) : Except ResponsesError Applied :=
  if TornLog.trim data = "[DONE]".toList then .ok { decoder }
  else
    match parse data with
    | none => streamFailed "Responses event JSON 解析失败"
    | some event =>
      match eventKind event with
      | none => streamFailed "Responses event 缺少 type"
      | some kind =>
        if decoder.terminalResponse.isSome then
          streamFailed ("Responses terminal event 后仍收到 " ++ kind)
        else applyEvent parse decoder event kind

def contiguous : Nat → List (Nat × Json) → Except ResponsesError (List Json)
  | _, [] => .ok []
  | expected, (index, item) :: items =>
    if index ≠ expected then
      streamFailed ("Responses stream output_index 不连续: 期望 " ++ toString expected ++
        "，实际 " ++ toString index)
    else (contiguous (expected + 1) items).map (item :: ·)

def withOutput (output : List Json) : Json → Json
  | .obj fields => .obj (Json.insertField fields ("output".toList, .arr output))
  | value => value

def hasResponseId (response : Json) : Bool :=
  ((get response "id").bind asString).any fun id => trimString id ≠ ""

def finish (requireResponseId : Bool) : Except ResponsesError ReducedResponses :=
  match decoder.terminalResponse with
  | none => streamFailed "Responses stream 在 terminal event 前结束"
  | some response =>
    if isObject response = false then streamFailed "Responses terminal response 不是 object"
    else
      match (get response "status").bind asString, decoder.terminalStatus with
      | none, _ => streamFailed "Responses terminal response 缺少 status"
      | some _, none => streamFailed "Responses stream 缺少 terminal status"
      | some actual, some expected =>
        if actual ≠ expected then
          streamFailed ("Responses terminal event/status 不一致: event=" ++ expected ++
            ", response=" ++ actual)
        else
          match contiguous 0 decoder.outputItems with
          | .error error => .error error
          | .ok output =>
            if requireResponseId && !hasResponseId response then
              streamFailed "Responses WebSocket terminal response 缺少合法 id"
            else reduceResponseValue parse (withOutput output response)

end AgentClaimNetwork.Api.Responses
