import Mathlib.Data.Char
import Mathlib.Data.List.Lex
import AgentClaimNetwork.Library.Grouping
import AgentClaimNetwork.Api.Message
import AgentClaimNetwork.Session.TurnJournalLog

/-!
The replay of a turn journal in `src/session/turn_journal.rs`: the events of a turn are folded
into an accumulator, which is projected at the end.
-/

namespace AgentClaimNetwork.Session

open Library Api

inductive TurnJournalStatus
  | committed
  | failed
  | rejectedByProvider
  | cancelled
  | interruptedByUser
deriving DecidableEq

inductive CompactionAssetKind
  | skillInstructions
  | textAttachment
  | image
  | document
deriving DecidableEq

structure CompactionAssetReference where
  kind : CompactionAssetKind
  sha256 : Text
  path : Text
  sourceLabel : Option Text

inductive SessionContentBlock
  | text (text : Text)
  | modelContext (source : ModelContextSource) (fingerprint text : Text)
  | skillInstructions (instruction : SkillInstructions)
  | image (mediaType data : Text)
  | document (mediaType data : Text) (filename : Option Text)
  | toolUse (id name : Text) (input : Json)
  | invalidToolUse (id name error : Text)
  | toolResult (toolUseId content : Text)

inductive FileChangeKind
  | created
  | modified

inductive FileDiffLineKind
  | context
  | add
  | remove
  | gap

inductive FileLineEnding
  | unknown
  | lf
  | crLf
  | none

structure FileDiffLine where
  kind : FileDiffLineKind
  oldLine : Option Nat
  newLine : Option Nat
  content : Text
  lineEnding : FileLineEnding
  contentTruncated : Bool

structure FileDiffHunk where
  lines : List FileDiffLine

structure FileChange where
  path : Text
  kind : FileChangeKind
  addedLines : Nat
  removedLines : Nat
  hunks : List FileDiffHunk
  truncatedChangedLines : Nat
  contentTruncated : Bool
  approximate : Bool

inductive TurnJournalEventKind
  | turnStarted
  | userInputAccepted (text : Text)
  | canonicalUserMessage (contentHash : Option Text) (content : Option (List SessionContentBlock))
  | modelContextAppended (source : ModelContextSource) (fingerprint text : Text)
  | skillInstructionsResolved (skills : List SkillInstructions)
  | compactionAssetsExternalized (assets : List CompactionAssetReference)
  | userSteerSubmitted (text : Text)
  | interruptRequested (reason : Option Text)
  | interruptPending (reason : Option Text)
  | assistantDelta (text : Text)
  | assistantOutputAccepted
  | assistantOutputCheckpoint (text : Text)
  | assistantOutputPreservedForFallback
  | assistantOutputDiscarded
  | assistantCompleted (text : Text)
  | nonStreamingFallbackAttemptStarted (attempt maxAttempts : Nat) (previousError : Text)
  | nonStreamingFallbackAttemptFailed (attempt maxAttempts : Nat) (error : Text)
  | nonStreamingFallbackSucceeded (attempt maxAttempts : Nat) (text : Text)
  | toolCallStarted (toolUseId name summary inputPreview : Text) (inputTruncated : Bool)
  | toolCallSkipped (toolUseId name summary inputPreview : Text) (inputTruncated : Bool)
      (reason : ToolCallSkipReason)
  | toolCallProgress (toolUseId summary : Text)
  | toolCallCompleted (toolUseId summary : Text) (outcome : Option ToolExecutionOutcome)
      (outputPreview : Text) (outputTruncated : Bool) (fileChange : Option FileChange)
  | toolCallInterrupted (toolUseId summary : Text)
  | backgroundProcessCompleted (toolUseId processId : Text) (instanceId : Nat) (status : Text)
      (exitCode signal : Option Int) (success : Bool)
  | providerRequestRejected (rejectionId : Nat) (discardTurn : Bool)
  | providerRequestRetriedAfterRejection (rejectionId : Nat)
  | historicalMediaCleaned
  | turnFinished (status : TurnJournalStatus)

def TurnJournalEventKind.isLate : TurnJournalEventKind → Bool
  | backgroundProcessCompleted .. => true
  | compactionAssetsExternalized _ => true
  | _ => false

structure TurnJournalModelContext (Stamp : Type) where
  source : ModelContextSource
  fingerprint : Text
  text : Text
  appendedAt : Stamp

inductive TurnJournalNonStreamingFallbackState
  | inProgress
  | attemptFailed
  | succeeded

structure TurnJournalNonStreamingFallback where
  attempt : Nat
  maxAttempts : Nat
  state : TurnJournalNonStreamingFallbackState
  lastError : Option Text

structure TurnJournalBackgroundProcessCompletion where
  processId : Text
  instanceId : Nat
  status : Text
  exitCode : Option Int
  signal : Option Int
  success : Bool

structure TurnJournalToolCall where
  toolUseId : Text
  name : Text
  startedSummary : Text
  inputPreview : Text
  inputTruncated : Bool
  latestProgress : Option Text
  completedSummary : Option Text
  interruptedSummary : Option Text
  skippedSummary : Option Text
  skipReason : Option ToolCallSkipReason
  outcome : Option ToolExecutionOutcome
  outputPreview : Option Text
  outputTruncated : Bool
  fileChange : Option FileChange
  backgroundCompletion : Option TurnJournalBackgroundProcessCompletion

structure ToolAccumulator extends TurnJournalToolCall

def ToolAccumulator.unknown (toolUseId : Text) : ToolAccumulator where
  toolUseId := toolUseId
  name := "unknown".toList
  startedSummary := []
  inputPreview := []
  inputTruncated := false
  latestProgress := none
  completedSummary := none
  interruptedSummary := none
  skippedSummary := none
  skipReason := none
  outcome := none
  outputPreview := none
  outputTruncated := false
  fileChange := none
  backgroundCompletion := none

def ToolAccumulator.finish (tool : ToolAccumulator) : TurnJournalToolCall :=
  tool.toTurnJournalToolCall

def ToolAccumulator.id (tool : ToolAccumulator) : Text := tool.toolUseId

structure AssistantSegment where
  text : Text
  completed : Bool
  acceptedBytes : Nat

inductive TimelineAccumulatorItem
  | assistant (segment : AssistantSegment)
  | toolCall (toolUseId : Text)

structure TurnAccumulator (Stamp : Type) where
  turnId : Text
  startedAt : Option Stamp
  acceptedAt : Option Stamp
  finishedAt : Option Stamp
  status : Option TurnJournalStatus
  originalUserRequest : Option Text
  canonicalUserContentHash : Option Text
  canonicalUserFirstText : Option Text
  modelContext : List (TurnJournalModelContext Stamp)
  skillInstructions : List SkillInstructions
  compactionAssets : List CompactionAssetReference
  toolCalls : KeyedMap ToolAccumulator.id
  toolOrder : List Text
  timelineItems : List TimelineAccumulatorItem
  userSteers : List Text
  nonStreamingFallbacks : List TurnJournalNonStreamingFallback
  providerRejectionStatus : Option TurnJournalStatus
  providerRejectionAt : Option Stamp
  providerRejectionId : Option Nat
  historicalMediaCleaned : Bool

inductive TurnJournalTimelineItem
  | assistant (text : Text) (completed : Bool)
  | toolCall (tool : TurnJournalToolCall)

structure TurnJournalTurn (Stamp : Type) where
  turnId : Text
  startedAt : Option Stamp
  acceptedAt : Option Stamp
  finishedAt : Option Stamp
  status : Option TurnJournalStatus
  originalUserRequest : Option Text
  canonicalUserContentHash : Option Text
  canonicalUserFirstText : Option Text
  modelContext : List (TurnJournalModelContext Stamp)
  skillInstructions : List SkillInstructions
  compactionAssets : List CompactionAssetReference
  assistantText : Text
  assistantCompleted : Bool
  toolCalls : List TurnJournalToolCall
  timelineItems : List TurnJournalTimelineItem
  userSteers : List Text
  nonStreamingFallbacks : List TurnJournalNonStreamingFallback

/-- `COMPACTION_ASSET_REFERENCES_PER_TURN_MAX`. -/
def compactionAssetReferencesPerTurnMax : Nat := 64

/-- `String::len`. -/
def len (text : Text) : Nat := (Utf8.encode text).length

/-- `str::is_char_boundary`: the byte at this place is not a continuation byte. -/
def isCharBoundary (text : Text) (place : Nat) : Bool :=
  place == 0 || match (Utf8.encode text)[place]? with
    | some byte => byte.toNat / 64 != 2
    | none => place == len text

/-- `String::truncate`, where `none` is its panic. -/
def truncate (text : Text) (newLen : Nat) : Option Text :=
  if newLen ≤ len text then
    if isCharBoundary text newLen then some (Utf8.lossy ((Utf8.encode text).take newLen)) else none
  else some text

namespace TurnAccumulator

variable {Stamp : Type}

def fresh (turnId : Text) : TurnAccumulator Stamp where
  turnId := turnId
  startedAt := none
  acceptedAt := none
  finishedAt := none
  status := none
  originalUserRequest := none
  canonicalUserContentHash := none
  canonicalUserFirstText := none
  modelContext := []
  skillInstructions := []
  compactionAssets := []
  toolCalls := KeyedMap.empty
  toolOrder := []
  timelineItems := []
  userSteers := []
  nonStreamingFallbacks := []
  providerRejectionStatus := none
  providerRejectionAt := none
  providerRejectionId := none
  historicalMediaCleaned := false

section

variable (turn : TurnAccumulator Stamp)

def openSegment : Option AssistantSegment :=
  match turn.timelineItems.getLast? with
  | some (.assistant segment) => if segment.completed then none else some segment
  | _ => none

def pushItem (item : TimelineAccumulatorItem) : TurnAccumulator Stamp :=
  { turn with timelineItems := turn.timelineItems ++ [item] }

def setLastItem (item : TimelineAccumulatorItem) : TurnAccumulator Stamp :=
  { turn with timelineItems := turn.timelineItems.dropLast ++ [item] }

def pushAssistantDelta (text : Text) : TurnAccumulator Stamp :=
  match turn.openSegment with
  | some segment => turn.setLastItem (.assistant { segment with text := segment.text ++ text })
  | none => turn.pushItem (.assistant ⟨text, false, 0⟩)

def acceptIncompleteAssistant : TurnAccumulator Stamp :=
  match turn.openSegment with
  | some segment =>
    turn.setLastItem (.assistant { segment with acceptedBytes := len segment.text })
  | none => turn

def checkpointAssistant (text : Text) : TurnAccumulator Stamp :=
  match turn.openSegment with
  | some segment =>
    turn.setLastItem (.assistant { segment with text := text, acceptedBytes := len text })
  | none => turn.pushItem (.assistant ⟨text, false, len text⟩)

def pushAssistantCompleted (text : Text) : TurnAccumulator Stamp :=
  match turn.openSegment with
  | some _ => turn.setLastItem (.assistant ⟨text, true, len text⟩)
  | none => turn.pushItem (.assistant ⟨text, true, len text⟩)

def discardIncompleteAssistant : Option (TurnAccumulator Stamp) :=
  match turn.openSegment with
  | some segment =>
    if segment.acceptedBytes = 0 then
      some { turn with timelineItems := turn.timelineItems.dropLast }
    else (truncate segment.text segment.acceptedBytes).map fun text =>
      turn.setLastItem (.assistant { segment with text := text })
  | none => some turn

def noteToolTimeline (toolUseId : Text) : TurnAccumulator Stamp :=
  if toolUseId ∈ turn.toolOrder then turn
  else { turn with
    toolOrder := turn.toolOrder ++ [toolUseId]
    timelineItems := turn.timelineItems ++ [.toolCall toolUseId] }

def onTool (toolUseId : Text)
    (change : ToolAccumulator → ToolAccumulator) : TurnAccumulator Stamp :=
  let noted := turn.noteToolTimeline toolUseId
  let tool := (noted.toolCalls.get? toolUseId).getD (ToolAccumulator.unknown toolUseId)
  { noted with toolCalls := noted.toolCalls.insert (change tool) }

def onNonStreamingFallback (attempt maxAttempts : Nat)
    (change : TurnJournalNonStreamingFallback → TurnJournalNonStreamingFallback) :
    TurnAccumulator Stamp :=
  match turn.nonStreamingFallbacks.getLast? with
  | some fallback =>
    { turn with nonStreamingFallbacks := turn.nonStreamingFallbacks.dropLast ++ [change fallback] }
  | none =>
    { turn with nonStreamingFallbacks := [change ⟨attempt, maxAttempts, .inProgress, none⟩] }

end

def addAssets (present : List CompactionAssetReference) :
    List CompactionAssetReference → List CompactionAssetReference
  | [] => present
  | asset :: rest =>
    if compactionAssetReferencesPerTurnMax ≤ present.length then present
    else if present.any fun existing =>
        existing.kind = asset.kind ∧ existing.sha256 = asset.sha256 then addAssets present rest
    else addAssets (present ++ [asset]) rest

def firstText (content : List SessionContentBlock) : Option Text :=
  content.findSome? fun
    | .text text => some text
    | _ => none

section

variable (contentHash : List SessionContentBlock → Option Text) (turn : TurnAccumulator Stamp)
  (createdAt : Stamp) (kind : TurnJournalEventKind)

/-- The match of `apply`.  `contentHash` is `canonical_user_content_hash`, and `none` is the
panic of a cut inside a character. -/
def perform : Option (TurnAccumulator Stamp) :=
  match kind with
  | .historicalMediaCleaned => some { turn with historicalMediaCleaned := true }
  | .turnStarted => some { turn with startedAt := some createdAt }
  | .userInputAccepted text => some { turn with
      acceptedAt := turn.acceptedAt.or (some createdAt)
      originalUserRequest := turn.originalUserRequest.or (some text) }
  | .canonicalUserMessage hash content =>
    if turn.canonicalUserContentHash.isNone then some { turn with
      canonicalUserContentHash := hash.or (content.bind contentHash)
      canonicalUserFirstText := content.bind firstText }
    else some turn
  | .modelContextAppended source fingerprint text => some { turn with
      modelContext := turn.modelContext ++ [⟨source, fingerprint, text, createdAt⟩] }
  | .skillInstructionsResolved skills =>
    if turn.skillInstructions.isEmpty then some { turn with skillInstructions := skills }
    else some turn
  | .compactionAssetsExternalized assets => some { turn with
      compactionAssets := addAssets turn.compactionAssets assets }
  | .userSteerSubmitted text => some { turn with userSteers := turn.userSteers ++ [text] }
  | .interruptRequested _ => some turn
  | .interruptPending _ => some turn
  | .assistantDelta text => some (turn.pushAssistantDelta text)
  | .assistantOutputAccepted => some turn.acceptIncompleteAssistant
  | .assistantOutputCheckpoint text => some (turn.checkpointAssistant text)
  | .assistantOutputPreservedForFallback => some turn
  | .assistantOutputDiscarded => turn.discardIncompleteAssistant
  | .assistantCompleted text => some (turn.pushAssistantCompleted text)
  | .nonStreamingFallbackAttemptStarted attempt maxAttempts previousError =>
    if attempt = 1 ∨ turn.nonStreamingFallbacks.isEmpty then some { turn with
      nonStreamingFallbacks := turn.nonStreamingFallbacks ++
        [⟨attempt, maxAttempts, .inProgress, some previousError⟩] }
    else some (turn.onNonStreamingFallback attempt maxAttempts fun _ =>
      ⟨attempt, maxAttempts, .inProgress, some previousError⟩)
  | .nonStreamingFallbackAttemptFailed attempt maxAttempts error =>
    some (turn.onNonStreamingFallback attempt maxAttempts fun fallback =>
      { fallback with state := .attemptFailed, lastError := some error })
  | .nonStreamingFallbackSucceeded attempt maxAttempts text =>
    some ((turn.onNonStreamingFallback attempt maxAttempts fun fallback =>
      { fallback with state := .succeeded }).pushAssistantCompleted text)
  | .toolCallStarted toolUseId name summary inputPreview inputTruncated =>
    some (turn.onTool toolUseId fun tool => { tool with
      name := name
      startedSummary := summary
      inputPreview := inputPreview
      inputTruncated := inputTruncated })
  | .toolCallSkipped toolUseId name summary inputPreview inputTruncated reason =>
    some (turn.onTool toolUseId fun tool => { tool with
      name := name
      skippedSummary := some summary
      inputPreview := inputPreview
      inputTruncated := inputTruncated
      skipReason := some reason })
  | .toolCallProgress toolUseId summary =>
    some (turn.onTool toolUseId fun tool => { tool with latestProgress := some summary })
  | .toolCallCompleted toolUseId summary outcome outputPreview outputTruncated fileChange =>
    some (turn.onTool toolUseId fun tool => { tool with
      completedSummary := some summary
      outcome := outcome
      outputPreview := some outputPreview
      outputTruncated := outputTruncated
      fileChange := fileChange })
  | .toolCallInterrupted toolUseId summary =>
    some (turn.onTool toolUseId fun tool => { tool with interruptedSummary := some summary })
  | .backgroundProcessCompleted toolUseId processId instanceId status exitCode signal success =>
    match turn.toolCalls.get? toolUseId with
    | some tool => some { turn with
        toolCalls := turn.toolCalls.insert { tool with
          backgroundCompletion :=
            some ⟨processId, instanceId, status, exitCode, signal, success⟩ } }
    | none => some turn
  | .providerRequestRejected rejectionId discardTurn => some { turn with
      providerRejectionStatus := some (if discardTurn then .rejectedByProvider else .failed)
      providerRejectionAt := some createdAt
      providerRejectionId := some rejectionId }
  | .providerRequestRetriedAfterRejection rejectionId =>
    if turn.providerRejectionId = some rejectionId then some { turn with
      providerRejectionStatus := none
      providerRejectionAt := none
      providerRejectionId := none }
    else some turn
  | .turnFinished status => some { turn with
      status := some status
      finishedAt := some createdAt }

def apply : Option (TurnAccumulator Stamp) :=
  if turn.status.isSome && !kind.isLate then some turn
  else turn.perform contentHash createdAt kind

end

def segments (turn : TurnAccumulator Stamp) : List AssistantSegment :=
  turn.timelineItems.filterMap fun
    | .assistant segment => some segment
    | .toolCall _ => none

def finishItem (turn : TurnAccumulator Stamp) :
    TimelineAccumulatorItem → Option TurnJournalTimelineItem
  | .assistant segment =>
    if segment.text.isEmpty then none else some (.assistant segment.text segment.completed)
  | .toolCall toolUseId =>
    (turn.toolCalls.get? toolUseId).map fun tool => .toolCall tool.finish

def finish (turn : TurnAccumulator Stamp) : TurnJournalTurn Stamp :=
  let status := turn.providerRejectionStatus.or turn.status
  { turnId := turn.turnId
    startedAt := turn.startedAt
    acceptedAt := turn.acceptedAt
    finishedAt := turn.finishedAt.or turn.providerRejectionAt
    status := status
    originalUserRequest := turn.originalUserRequest
    canonicalUserContentHash := turn.canonicalUserContentHash
    canonicalUserFirstText := turn.canonicalUserFirstText
    modelContext :=
      if status = some .rejectedByProvider then
        turn.modelContext.filter fun context =>
          turn.historicalMediaCleaned && context.source = .requestSizeRecovery
      else turn.modelContext
    skillInstructions := turn.skillInstructions
    compactionAssets := turn.compactionAssets
    assistantText := ['\n'].intercalate (turn.segments.map AssistantSegment.text)
    assistantCompleted := (turn.segments.getLast?.map AssistantSegment.completed).getD false
    toolCalls := (turn.toolCalls.drain turn.toolOrder).map ToolAccumulator.finish
    timelineItems := turn.timelineItems.filterMap turn.finishItem
    userSteers := turn.userSteers
    nonStreamingFallbacks := turn.nonStreamingFallbacks }

structure Standing where
  turnId : Text
  status : Option TurnJournalStatus
  rejectionStatus : Option TurnJournalStatus
  rejectionId : Option Nat
  mediaCleaned : Bool

def standing (turn : TurnAccumulator Stamp) : Standing :=
  ⟨turn.turnId, turn.status, turn.providerRejectionStatus, turn.providerRejectionId,
    turn.historicalMediaCleaned⟩

def Standing.after (standing : Standing) : TurnJournalEventKind → Standing
  | .historicalMediaCleaned => { standing with mediaCleaned := true }
  | .providerRequestRejected rejectionId discardTurn => { standing with
      rejectionStatus := some (if discardTurn then .rejectedByProvider else .failed)
      rejectionId := some rejectionId }
  | .providerRequestRetriedAfterRejection rejectionId =>
    if standing.rejectionId = some rejectionId then
      { standing with rejectionStatus := none, rejectionId := none }
    else standing
  | .turnFinished status => { standing with status := some status }
  | _ => standing

section

variable (turn : TurnAccumulator Stamp)

@[simp] theorem standing_pushAssistantDelta :
    (turn.pushAssistantDelta text).standing = turn.standing := by
  unfold pushAssistantDelta
  cases turn.openSegment <;> rfl

@[simp] theorem standing_acceptIncompleteAssistant :
    turn.acceptIncompleteAssistant.standing = turn.standing := by
  unfold acceptIncompleteAssistant
  cases turn.openSegment <;> rfl

@[simp] theorem standing_checkpointAssistant :
    (turn.checkpointAssistant text).standing = turn.standing := by
  unfold checkpointAssistant
  cases turn.openSegment <;> rfl

@[simp] theorem standing_pushAssistantCompleted :
    (turn.pushAssistantCompleted text).standing = turn.standing := by
  unfold pushAssistantCompleted
  cases turn.openSegment <;> rfl

theorem standing_discardIncompleteAssistant {turn next : TurnAccumulator Stamp}
    (discarded : turn.discardIncompleteAssistant = some next) :
    next.standing = turn.standing := by
  unfold discardIncompleteAssistant at discarded
  cases found : turn.openSegment with
  | none =>
    rw [found] at discarded
    cases discarded
    rfl
  | some segment =>
    simp only [found] at discarded
    split_ifs at discarded
    · cases discarded
      rfl
    · obtain ⟨text, _, rfl⟩ := Option.map_eq_some_iff.mp discarded
      rfl

@[simp] theorem standing_onTool :
    (turn.onTool toolUseId change).standing = turn.standing := by
  unfold onTool noteToolTimeline
  split_ifs <;> rfl

@[simp] theorem standing_onNonStreamingFallback :
    (turn.onNonStreamingFallback attempt maxAttempts change).standing = turn.standing := by
  unfold onNonStreamingFallback
  cases turn.nonStreamingFallbacks.getLast? <;> rfl

end

variable {contentHash : List SessionContentBlock → Option Text}

theorem perform_standing {turn next : TurnAccumulator Stamp}
    (performed : turn.perform contentHash createdAt kind = some next) :
    next.standing = turn.standing.after kind := by
  cases kind with
  | assistantOutputDiscarded => exact standing_discardIncompleteAssistant performed
  | backgroundProcessCompleted toolUseId =>
    simp only [perform] at performed
    split at performed <;> cases performed <;> rfl
  | providerRequestRetriedAfterRejection rejectionId =>
    by_cases same : turn.providerRejectionId = some rejectionId
    · simp only [perform, if_pos same] at performed
      cases performed
      exact (if_pos same).symm
    · simp only [perform, if_neg same] at performed
      cases performed
      exact (if_neg same).symm
  | canonicalUserMessage hash content | skillInstructionsResolved skills =>
    simp only [perform] at performed
    split_ifs at performed <;> cases performed <;> rfl
  | nonStreamingFallbackAttemptStarted attempt maxAttempts previousError =>
    simp only [perform] at performed
    split_ifs at performed
    · cases performed
      rfl
    · cases performed
      exact standing_onNonStreamingFallback turn
  | _ =>
    cases performed
    first
      | rfl
      | simp [Standing.after]

end TurnAccumulator

structure TurnJournalProjection (Stamp : Type) where
  turns : List (TurnJournalTurn Stamp)
  warnings : List TurnJournalWarning

variable {Stamp : Type} (contentHash : List SessionContentBlock → Option Text)

def applyEvent (turn : TurnAccumulator Stamp)
    (event : TurnJournalEvent Stamp TurnJournalEventKind) : Option (TurnAccumulator Stamp) :=
  turn.apply contentHash event.createdAt event.kind

def replayTurnJournal (read : TurnJournalRead Stamp TurnJournalEventKind) :
    Option (TurnJournalProjection Stamp) :=
  (read.events.foldlM (Grouped.add TurnJournalEvent.turnId TurnAccumulator.fresh
    (applyEvent contentHash)) (Grouped.empty : Grouped TurnAccumulator.turnId)).map fun group =>
      ⟨(group.values.drain group.order).map TurnAccumulator.finish, read.warnings⟩

def accumulate (turnId : Text) (events : List (TurnJournalEvent Stamp TurnJournalEventKind)) :
    Option (TurnAccumulator Stamp) :=
  (events.filter fun event => event.turnId == turnId).foldlM (applyEvent contentHash)
    (TurnAccumulator.fresh turnId)

end AgentClaimNetwork.Session
