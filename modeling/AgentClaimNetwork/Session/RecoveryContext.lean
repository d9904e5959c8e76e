import AgentClaimNetwork.Library.JsonReader
import AgentClaimNetwork.Session.TurnProjection

/-!
The context a new turn is given of the turns before it that did not end well, from
`src/session/turn_journal.rs`.
-/

namespace AgentClaimNetwork.Session

open Library Api

structure RecoveryContextLimits where
  originalUserRequestMaxChars : Nat
  partialAssistantMaxChars : Nat
  toolInputMaxChars : Nat
  toolOutputMaxChars : Nat
  userSteerMaxChars : Nat

def RecoveryContextLimits.default : RecoveryContextLimits where
  originalUserRequestMaxChars := 8192
  partialAssistantMaxChars := 8192
  toolInputMaxChars := 2048
  toolOutputMaxChars := 4096
  userSteerMaxChars := 8192

def truncateChars (value : Text) (maxChars : Nat) : Text :=
  if value.length ≤ maxChars then value else value.take maxChars ++ "...[truncated]".toList

def TurnJournalStatus.asStr : TurnJournalStatus → String
  | .committed => "committed"
  | .failed => "failed"
  | .rejectedByProvider => "rejected_by_provider"
  | .cancelled => "cancelled"
  | .interruptedByUser => "interrupted_by_user"

def TurnJournalNonStreamingFallbackState.asStr : TurnJournalNonStreamingFallbackState → String
  | .inProgress => "in_progress"
  | .attemptFailed => "attempt_failed"
  | .succeeded => "succeeded"

def stringValue (text : String) : Json := .str text.toList

def optionValue {Value : Type} (toJson : Value → Json) : Option Value → Json
  | none => .null
  | some value => toJson value

def field (name : String) (value : Json) : Text × Json := (name.toList, value)

def numberValue (value : Nat) : Json := .num value

def ToolCallSkipReason.toValue : ToolCallSkipReason → Json
  | .turnCancelledBeforeDispatch => stringValue "turn_cancelled_before_dispatch"
  | .turnInterruptedBeforeDispatch => stringValue "turn_interrupted_before_dispatch"

def SkillInstructions.toValue (skill : SkillInstructions) : Json := .obj [
  field "name" (.str skill.name),
  field "spec_path" (.str skill.specPath),
  field "base_dir" (.str skill.baseDir),
  field "arguments" (optionValue .str skill.arguments),
  field "content" (.str skill.content),
  field "content_hash" (.str skill.contentHash)]

def CompactionAssetKind.toValue : CompactionAssetKind → Json
  | .skillInstructions => stringValue "skill_instructions"
  | .textAttachment => stringValue "text_attachment"
  | .image => stringValue "image"
  | .document => stringValue "document"

def CompactionAssetReference.toValue (asset : CompactionAssetReference) : Json := .obj (
  [field "kind" asset.kind.toValue,
   field "sha256" (.str asset.sha256),
   field "path" (.str asset.path)] ++
  asset.sourceLabel.toList.map fun label => field "source_label" (.str label))

def backgroundCompletionRecoveryValue (background : TurnJournalBackgroundProcessCompletion) :
    Json := .obj [
  field "process_id" (.str background.processId),
  field "instance_id" (numberValue background.instanceId),
  field "status" (.str background.status),
  field "exit_code" (optionValue .num background.exitCode),
  field "signal" (optionValue .num background.signal),
  field "success" (.bool background.success)]

def backgroundField (tool : TurnJournalToolCall) : List (Text × Json) :=
  tool.backgroundCompletion.toList.map fun background =>
    field "background_completion" (backgroundCompletionRecoveryValue background)

section

variable (limits : RecoveryContextLimits) (tool : TurnJournalToolCall)

def completedTool : Option Json :=
  tool.completedSummary.map fun summary =>
    let output := tool.outputPreview.getD summary
    .obj (
      [field "tool_use_id" (.str tool.toolUseId),
       field "name" (.str tool.name),
       field "summary" (.str (truncateChars summary limits.toolOutputMaxChars)),
       field "outcome" (optionValue ToolExecutionOutcome.json tool.outcome),
       field "output_preview" (.str (truncateChars output limits.toolOutputMaxChars)),
       field "output_truncated" (.bool tool.outputTruncated)] ++ backgroundField tool)

def interruptedTool : Option Json :=
  tool.interruptedSummary.map fun summary => .obj (
    [field "tool_use_id" (.str tool.toolUseId),
     field "name" (.str tool.name),
     field "summary" (.str (truncateChars summary limits.toolOutputMaxChars))] ++
    backgroundField tool)

def skippedTool : Option Json :=
  tool.skippedSummary.map fun summary =>
    let input := if tool.inputPreview.isEmpty then summary else tool.inputPreview
    .obj [
      field "tool_use_id" (.str tool.toolUseId),
      field "name" (.str tool.name),
      field "summary" (.str (truncateChars summary limits.toolInputMaxChars)),
      field "input_preview" (.str (truncateChars input limits.toolInputMaxChars)),
      field "input_truncated" (.bool tool.inputTruncated),
      field "reason" (optionValue ToolCallSkipReason.toValue tool.skipReason)]

def pendingTool : Option Json :=
  if tool.completedSummary.isNone ∧ tool.interruptedSummary.isNone ∧ tool.skippedSummary.isNone then
    let input := if tool.inputPreview.isEmpty then tool.startedSummary else tool.inputPreview
    some (.obj [
      field "tool_use_id" (.str tool.toolUseId),
      field "name" (.str tool.name),
      field "summary" (.str (truncateChars tool.startedSummary limits.toolInputMaxChars)),
      field "input_preview" (.str (truncateChars input limits.toolInputMaxChars)),
      field "input_truncated" (.bool tool.inputTruncated)])
  else none

end

def fallbackValue (limits : RecoveryContextLimits) (fallback : TurnJournalNonStreamingFallback) :
    Json := .obj [
  field "attempt" (numberValue fallback.attempt),
  field "max_attempts" (numberValue fallback.maxAttempts),
  field "state" (stringValue fallback.state.asStr),
  field "last_error" (optionValue (fun error => .str (truncateChars error limits.toolOutputMaxChars))
    fallback.lastError)]

def nonEmpty (values : List Json) : Option Json :=
  if values.isEmpty then none else some (.arr values)

def present (entries : List (String × Option Json)) : List (Text × Json) :=
  entries.filterMap fun entry => entry.2.map (field entry.1)

variable {Stamp : Type}

def previousTurnStatus (turn : TurnJournalTurn Stamp) : String :=
  match turn.status with
  | some status => status.asStr
  | none =>
    -- without an end the turn was cut off
    if turn.nonStreamingFallbacks.isEmpty then TurnJournalStatus.failed.asStr else "interrupted"

section

variable (turn : TurnJournalTurn Stamp) (limits : RecoveryContextLimits)

def skillInstructionsValue : Option Json :=
  if turn.compactionAssets.any fun asset => asset.kind = .skillInstructions then none
  else nonEmpty (turn.skillInstructions.map SkillInstructions.toValue)

def assistantSummary : Option Json :=
  if (TornLog.trim turn.assistantText).isEmpty then none
  else some (.str (truncateChars turn.assistantText limits.partialAssistantMaxChars))

def userSteer : Option Json :=
  if turn.status = some .cancelled ∨ turn.userSteers.isEmpty then none
  else some (.str
    (truncateChars (['\n'].intercalate turn.userSteers) limits.userSteerMaxChars))

def recoveryTurnEntries : List (String × Option Json) := [
  ("previous_turn_status", some (stringValue (previousTurnStatus turn))),
  ("original_user_request", turn.originalUserRequest.map fun request =>
    .str (truncateChars request limits.originalUserRequestMaxChars)),
  ("skill_instructions", skillInstructionsValue turn),
  ("externalized_compaction_assets",
    nonEmpty (turn.compactionAssets.map CompactionAssetReference.toValue)),
  -- the label of the assistant's text is one of two
  ("assistant_completed_summary",
    if turn.assistantCompleted then assistantSummary turn limits else none),
  ("assistant_partial_or_completed_summary",
    if turn.assistantCompleted then none else assistantSummary turn limits),
  ("tools_completed", nonEmpty (turn.toolCalls.filterMap (completedTool limits))),
  ("tools_interrupted", nonEmpty (turn.toolCalls.filterMap (interruptedTool limits))),
  ("tools_skipped", nonEmpty (turn.toolCalls.filterMap (skippedTool limits))),
  ("tools_pending_or_skipped", nonEmpty (turn.toolCalls.filterMap (pendingTool limits))),
  ("user_steer", userSteer turn limits),
  ("non_streaming_fallbacks",
    nonEmpty (turn.nonStreamingFallbacks.map (fallbackValue limits)))]

def recoveryTurnValue : Json := .obj (present (recoveryTurnEntries turn limits))

end

def jsonForTagPayload (value : Json) : Text :=
  replaceChar '>' "\\u003e".toList (replaceChar '<' "\\u003c".toList value.render)

def isUnresolved (turn : TurnJournalTurn Stamp) : Bool :=
  turn.status ≠ some .committed && turn.status ≠ some .rejectedByProvider

def recoveryPayload (unresolved : List (TurnJournalTurn Stamp)) (limits : RecoveryContextLimits) :
    Json := .obj [
  field "unresolved_turn_count" (numberValue unresolved.length),
  field "unresolved_turns" (.arr (unresolved.map fun turn => recoveryTurnValue turn limits))]

def interruptedTurnContextOpen : Text := "<interrupted_turn_context>".toList

def interruptedTurnContextClose : Text := "</interrupted_turn_context>".toList

def turnJournalRecoveryContextForChain (turns : List (TurnJournalTurn Stamp))
    (limits : RecoveryContextLimits) : Option Text :=
  let unresolvedTurns := turns.filter isUnresolved
  if unresolvedTurns.isEmpty then none
  else some (interruptedTurnContextOpen ++ ['\n'] ++
    jsonForTagPayload (recoveryPayload unresolvedTurns limits) ++ ['\n'] ++
    interruptedTurnContextClose)

end AgentClaimNetwork.Session
