import AgentClaimNetwork.Library.Json

/-!
The messages of a conversation with a provider, from `src/api/types.rs`.
-/

namespace AgentClaimNetwork.Api

open Library

abbrev Text := List Char

inductive ModelContextSource
  | runtime
  | backgroundProcess
  | delegation
  | requestSizeRecovery
deriving DecidableEq

structure SkillInstructions where
  name : Text
  specPath : Text
  baseDir : Text
  arguments : Option Text
  content : Text
  contentHash : Text

inductive ToolCallSkipReason
  | turnCancelledBeforeDispatch
  | turnInterruptedBeforeDispatch

inductive ToolExecutionOutcome
  | completed
  | dispatchFailure
  | businessFailure
  | processExit (exitCode : Option Int32) (success : Bool)
  | processTerminated (signal : Option Int32)
  | processRunning
  | httpResponse (httpStatus : UInt16)

def codeJson : Option Int32 → Json
  | some code => .num code.toInt
  | none => .null

def ToolExecutionOutcome.json : ToolExecutionOutcome → Json
  | .completed => .obj [("kind".toList, .str "completed".toList)]
  | .dispatchFailure => .obj [("kind".toList, .str "dispatch_failure".toList)]
  | .businessFailure => .obj [("kind".toList, .str "business_failure".toList)]
  | .processExit exitCode success =>
    .obj [("kind".toList, .str "process_exit".toList), ("exit_code".toList, codeJson exitCode),
      ("success".toList, .bool success)]
  | .processTerminated signal =>
    .obj [("kind".toList, .str "process_terminated".toList), ("signal".toList, codeJson signal)]
  | .processRunning => .obj [("kind".toList, .str "process_running".toList)]
  | .httpResponse httpStatus =>
    .obj [("kind".toList, .str "http_response".toList),
      ("http_status".toList, .num httpStatus.toNat)]

inductive SessionTurnContentBlock
  | text (text : Text)
  | modelContext (source : ModelContextSource) (fingerprint text : Text)
  | skillInstructions (instruction : SkillInstructions)
  | image (mediaType data : Text)
  | document (mediaType data : Text) (filename : Option Text)
  | toolUse (id name : Text) (input : Json)
  | invalidToolUse (id name error : Text)
  | toolResult (toolUseId content : Text)

/-- `Replay` is what a provider wants back with its own messages. -/
structure SessionTurnMessage (Replay : Type) where
  role : Text
  content : List SessionTurnContentBlock
  providerReplay : Option Replay

/-- `str::replace` of one character. -/
def replaceChar (character : Char) (by_ text : Text) : Text :=
  text.flatMap fun other => if other = character then by_ else [other]

def userRole : Text := "user".toList

def assistantRole : Text := "assistant".toList

namespace SessionTurnMessage

variable {Replay : Type}

def userText (text : Text) : SessionTurnMessage Replay :=
  ⟨userRole, [.text text], none⟩

variable (message : SessionTurnMessage Replay)

def modelContextSnapshot : Option (ModelContextSource × Text × Text) :=
  if message.role ≠ userRole then none
  else match message.content with
    | [.modelContext source fingerprint text] => some (source, fingerprint, text)
    | _ => none

def toolUseIds : List Text :=
  message.content.filterMap fun
    | .toolUse id _ _ => some id
    | .invalidToolUse id _ _ => some id
    | _ => none

def toolResultIds : List Text :=
  message.content.filterMap fun
    | .toolResult toolUseId _ => some toolUseId
    | _ => none

theorem modelContextSnapshot_role {message : SessionTurnMessage Replay}
    (snapshot : message.modelContextSnapshot.isSome = true) : message.role = userRole := by
  unfold modelContextSnapshot at snapshot
  split_ifs at snapshot with other
  · cases snapshot
  · exact not_not.mp other

end SessionTurnMessage

end AgentClaimNetwork.Api
