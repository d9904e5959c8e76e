import Mathlib.Data.List.Infix
import AgentClaimNetwork.Library.JsonReader
import AgentClaimNetwork.Library.TornLog

/-!
The errors of the Responses API, and how the client reads the codes a provider writes into them.
-/

namespace AgentClaimNetwork.Api.Responses

open Library
open TornLog (trimString)

def get (value : Json) (key : String) : Option Json := value.get? key.toList

def pointer (value : Json) : List String → Option Json
  | [] => some value
  | key :: keys => (get value key).bind (pointer · keys)

def asString (value : Json) : Option String := value.asStr.map String.ofList

def asArray : Json → Option (List Json)
  | .arr items => some items
  | _ => none

def isObject : Json → Bool
  | .obj _ => true
  | _ => false

def isNull : Json → Bool
  | .null => true
  | _ => false

def asciiLowercase (text : String) : List Char := text.toList.map Char.toLower

def contains (text : List Char) (part : String) : Bool := decide (part.toList <:+: text)

section

variable (code : String)

def isProviderTransientErrorCode : Bool :=
  code ∈ ["rate_limit_error", "rate_limit_exceeded", "server_error", "api_error",
    "overloaded_error", "internal_server_error", "service_unavailable",
    "temporarily_unavailable"]

def isProviderNonRequestErrorCode : Bool :=
  code ∈ ["authentication_error", "invalid_api_key", "permission_error", "not_found_error",
    "model_not_found"] || isProviderTransientErrorCode code

def isProviderRequestTooLargeCode : Bool :=
  code ∈ ["request_too_large", "request_entity_too_large", "payload_too_large"]

def isContextWindowErrorBody (body : String) : Bool :=
  ["context_length_exceeded", "maximum context length", "prompt is too long", "prompt too long",
    "input is too long", "input exceeds the model context window",
    "input exceeds the context window", "context window exceeded", "context window is full",
    "exceeds the context length"].any (contains (asciiLowercase body))

def isProviderContentPolicyErrorCode : Bool :=
  code ∈ ["content_filter", "content_policy_violation", "safety_violation"]

def isContentPolicyErrorBody (body : String) : Bool :=
  ((asciiLowercase body).splitOnP fun character => !(character.isAlphanum || character = '_')).any
    fun word => isProviderContentPolicyErrorCode (String.ofList word)

def isProviderMediaErrorCode : Bool :=
  code ∈ ["invalid_image", "invalid_image_url", "image_too_large", "unsupported_image"]

def isProviderExplicitRequestErrorCode : Bool :=
  code ∈ ["invalid_request", "invalid_request_error", "invalid_prompt",
    "unsupported_media_type"] ||
    isProviderContentPolicyErrorCode code || isProviderMediaErrorCode code

def isProviderDeterministicRequestErrorCode : Bool :=
  isProviderExplicitRequestErrorCode code || isContextWindowErrorBody code ||
    isContentPolicyErrorBody code

/-- `safe_provider_error_code` with `ProviderErrorCodeProtocol::Responses`. -/
def safeResponsesErrorCode : Option String :=
  let known := isProviderNonRequestErrorCode code || isProviderExplicitRequestErrorCode code ||
    isProviderRequestTooLargeCode code || code = "context_length_exceeded"
  if known || isContextWindowErrorBody code || code = "websocket_message_too_big" then some code
  else none

end

def codePointers : List (List String) :=
  [["code"], ["error", "code"], ["error", "error", "code"], ["response", "error", "code"],
    ["response", "error", "error", "code"]]

def typePointers : List (List String) :=
  [["error", "type"], ["error", "error", "type"], ["response", "error", "type"],
    ["response", "error", "error", "type"], ["type"]]

def structuredProviderErrorCode (value : Json) : Option String :=
  let read := fun keys => ((pointer value keys).bind asString).filter fun code =>
    code ≠ "error" && !"response.".toList.isPrefixOf code.toList
  let known := fun code => isProviderNonRequestErrorCode code ||
    isProviderDeterministicRequestErrorCode code || isProviderRequestTooLargeCode code ||
    code = "websocket_message_too_big"
  let code := codePointers.findSome? read
  (code.filter known).or (((typePointers.filterMap read).find? known).or
    (code.or (typePointers.findSome? read)))

section

variable (parse : List Char → Option Json)

def objectField (value : Option Json) (key : String) : Option Json :=
  value.bind (get · key)

/-- `message` of an error object, or that of the error inside it. -/
def errorMessage (error : Option Json) : Option Json :=
  (objectField error "message").or (objectField (objectField error "error") "message")

variable (body : String)

def providerErrorMessage : Option String :=
  (parse body.toList).bind fun value =>
    ((errorMessage (get value "error")).or
      ((pointer value ["response", "error", "message"]).or (get value "message"))).bind asString

def bounded : Nat → List Char → List Char
  | _, [] => []
  | limit, character :: rest =>
    if character.utf8Size ≤ limit then character :: bounded (limit - character.utf8Size) rest
    else []

def providerErrorDisplayMessage : String :=
  match (providerErrorMessage parse body).filter fun message => trimString message ≠ "" with
  | some message => message
  | none =>
    let text := TornLog.trim body.toList
    if text = [] then "Unknown error"
    else if bounded 1000 text = text then String.ofList text
    else String.ofList (bounded 1000 text ++ ['…'])

def contentPolicyCode : String :=
  let normalized := asciiLowercase body
  if contains normalized "content_policy_violation" then "content_policy_violation"
  else if contains normalized "safety_violation" then "safety_violation"
  else "content_filter"

def mentionsTooBig (text : String) : Bool :=
  contains (asciiLowercase text) "1009" && contains (asciiLowercase text) "message too big"

def specific (code : String) : Bool :=
  isProviderNonRequestErrorCode code || !(code ∈ ["invalid_request", "invalid_request_error"] : Bool)

def classifiedResponsesErrorCode : Option String :=
  let structuredCode := (parse body.toList).bind structuredProviderErrorCode
  let classificationText := (providerErrorMessage parse body).getD body
  if mentionsTooBig body then some "websocket_message_too_big"
  else
    match structuredCode.filter specific with
    | some code => some ((safeResponsesErrorCode code).getD "redacted")
    | none =>
      if isContextWindowErrorBody classificationText then some "context_length_exceeded"
      else if isContentPolicyErrorBody classificationText then
        some (contentPolicyCode classificationText)
      else structuredCode.bind safeResponsesErrorCode

def normalizeResponsesErrorBody : String :=
  let message := ("message".toList, Json.str (providerErrorDisplayMessage parse body).toList)
  let code := (classifiedResponsesErrorCode parse body).map fun code =>
    ("code".toList, Json.str code.toList)
  String.ofList (Json.obj [("error".toList, Json.obj (message :: code.toList))]).render

def normalizeResponsesErrorMessageWithCode (message : String) (code : Option String) : String :=
  let classified :=
    if mentionsTooBig message then "websocket_message_too_big"
    else
      match code.filter specific with
      | some code => code
      | none => ((classifiedResponsesErrorCode parse message).or code).getD "redacted"
  classified ++ ": " ++ message

end

inductive ResponsesError
  | http (reason : String)
  | auth (body : String)
  | status (status : Nat) (body : String)
  | responseJson (reason : String)
  | invalidEndpoint (reason : String)
  | outputShape (reason : String)
  | streamFailure (reason : String)
  | failed (code : Option String) (message : String)
  | incomplete (reason : String)
  | recoveryInterrupted
  | requestPreparation (reason : String)
deriving DecidableEq

def isExplicitWebsocketMessageTooBig : ResponsesError → Bool
  | .status status body =>
    status ∈ [500, 502] &&
      (contains (asciiLowercase body) "websocket_message_too_big" || mentionsTooBig body)
  | _ => false

end AgentClaimNetwork.Api.Responses
