import AgentClaimNetwork.Delegation.EventLog

/-!
The writing calls of `src/delegation/store.rs` at the level of records.  A call holds its locks
and checks before its first write, so it is one step.
-/

namespace AgentClaimNetwork.Delegation

open Library LineLog

structure DelegationCreateRequest where
  parentSessionId : Text
  parentTurnId : Text
  ownerAgentId : Text
  title : Text
  role : Text
  objective : Text
  constraints : List Text

structure DelegationMetadata where
  schemaVersion : Nat
  id : Text
  parentSessionId : Text
  parentTurnId : Text
  ownerAgentId : Text
  title : Text
  role : Text
  objective : Text
  constraints : List Text
  status : DelegationStatus
  createdAt : Text
  updatedAt : Text
  startedAt : Option Text
  completedAt : Option Text
  currentStep : Option Text
  progressSummary : Option Text
  errorSummary : Option Text
  resultRef : Option Text
  changedFiles : List Text

structure DelegationUpdate where
  currentStep : Option Text
  summary : Text
  artifacts : List DelegationArtifactRef

structure DelegationProgress where
  currentStep : Option Text
  summary : Text
  artifacts : List DelegationArtifactRef
  updatedAt : Text

structure DelegationResult where
  status : DelegationStatus
  summary : Text
  changedFiles : List Text
  artifacts : List DelegationArtifactRef
  errorSummary : Option Text
  completedAt : Text

structure DelegationSteering where
  seq : Nat
  stamp : Text
  instruction : Text
deriving DecidableEq

/-- `delegation.yaml`, `events.jsonl`, `steering.jsonl`, `progress.json` and `result.md`. -/
structure SubagentFiles where
  metadata : DelegationMetadata
  events : List DelegationEvent
  steering : Option (List DelegationSteering)
  progress : Option DelegationProgress
  result : Option Text

inductive StoreError
  | notFound (id : Text)
  | idCollisionExhausted (maxAttempts : Nat) (lastId : Text)
  | cannotSteer (id : Text) (status : DelegationStatus)
  | cannotTransition (id : Text) (before after : DelegationStatus)
  | nonTerminalResult (id : Text) (status : DelegationStatus)
  | cannotUpdateProgress (id : Text) (status : DelegationStatus)
  | parentSessionMismatch (expected actual : Text)

def delegationSchemaVersion : Nat := 1
def readTextMaxChars : Nat := 12000
def idMaxAttempts : Nat := 100
def resultMd : Text := "result.md".toList

def DelegationMetadata.new (id : Text) (request : DelegationCreateRequest) (now : Text) :
    DelegationMetadata where
  schemaVersion := delegationSchemaVersion
  id := id
  parentSessionId := request.parentSessionId
  parentTurnId := request.parentTurnId
  ownerAgentId := request.ownerAgentId
  title := request.title
  role := request.role
  objective := request.objective
  constraints := request.constraints
  status := .queued
  createdAt := now
  updatedAt := now
  startedAt := none
  completedAt := none
  currentStep := none
  progressSummary := none
  errorSummary := none
  resultRef := none
  changedFiles := []

def DelegationUpdate.progress (update : DelegationUpdate) (updatedAt : Text) : DelegationProgress :=
  ⟨update.currentStep, update.summary, update.artifacts, updatedAt⟩

def boundProgress (progress : DelegationProgress) : DelegationProgress :=
  { progress with
    currentStep := progress.currentStep.map (truncateText · summaryFieldLimit)
    summary := truncateText progress.summary summaryTextLimit
    artifacts := (progress.artifacts.take 8).map fun artifact =>
      { path := truncateText artifact.path summaryFieldLimit
        description := artifact.description.map (truncateText · summaryFieldLimit) } }

def boundResult (result : DelegationResult) : DelegationResult :=
  { result with
    summary := truncateText result.summary readTextMaxChars
    errorSummary := result.errorSummary.map (truncateText · summaryFieldLimit)
    changedFiles := boundChangedFiles result.changedFiles
    artifacts := boundArtifacts result.artifacts }

/-- The derived `Debug` text. -/
def DelegationStatus.debug : DelegationStatus → Text
  | .queued => "Queued".toList
  | .running => "Running".toList
  | .completed => "Completed".toList
  | .failed => "Failed".toList
  | .abandoned => "Abandoned".toList

def resultMarkdown (result : DelegationResult) : Text :=
  "# Subagent Result\n\n".toList ++ "status: ".toList ++ result.status.debug ++ "\n\n".toList ++
    result.summary ++ ['\n'] ++
    (if result.changedFiles.isEmpty then []
      else "\nchanged_files:\n".toList ++
        result.changedFiles.flatMap fun path => "- ".toList ++ path ++ ['\n']) ++
    (if result.artifacts.isEmpty then []
      else "\nartifacts:\n".toList ++
        result.artifacts.flatMap fun artifact => "- ".toList ++ artifact.path ++
          (match artifact.description with
            | some description => ": ".toList ++ description
            | none => []) ++ ['\n']) ++
    (match result.errorSummary with
      | some error => "\nerror_summary:\n".toList ++ error ++ ['\n']
      | none => [])

/-- The number `next_event_seq_unlocked` gives; a log that is empty starts at one. -/
def nextSeq (events : List DelegationEvent) : Nat :=
  match events.getLast? with
  | some last => min (last.seq + 1) maxSeq
  | none => 1

def told (events : List DelegationEvent) (kind : DelegationEventKind) (now : Text) :
    List DelegationEvent :=
  events ++ [⟨nextSeq events, now, boundEventKind kind⟩]

namespace SubagentFiles

/-- `append_event_unlocked` that runs to its end. -/
def appendUnlocked (files : SubagentFiles) (kind : DelegationEventKind) (now : Text) :
    SubagentFiles :=
  { files with events := told files.events kind now }

def appendStatusChange (files : SubagentFiles) (before after : DelegationStatus) (now : Text) :
    SubagentFiles :=
  if before ≠ after then files.appendUnlocked (.statusChanged before after) now else files

def appendSteering (files : SubagentFiles) (item : DelegationSteering) : SubagentFiles :=
  { files with steering := some (files.steering.getD [] ++ [item]) }

/-- `initialize_created_delegation` in a fresh directory. -/
def initializeCreated (metadata : DelegationMetadata) (now : Text) : SubagentFiles :=
  (({ metadata, events := [], steering := none, progress := none, result := none } :
    SubagentFiles).appendUnlocked .created now).appendUnlocked .queued now

def defaultReason : DelegationStatus → Text
  | .failed => "failed".toList
  | .abandoned => "abandoned".toList
  | _ => []

def endsWithReason : DelegationStatus → Bool
  | .failed | .abandoned => true
  | _ => false

def transition (files : SubagentFiles) (status : DelegationStatus) (reason : Option Text)
    (now : Text) : Except StoreError (SubagentFiles × DelegationMetadata) :=
  let previous := files.metadata.status
  if previous.isTerminal then
    if status = .abandoned then .ok (files, files.metadata)
    else .error (.cannotTransition files.metadata.id previous status)
  else if previous = status then .ok (files, files.metadata)
  else
    let reasonText := reason.getD (defaultReason status)
    let progress := if endsWithReason status then files.progress else none
    let metadata :=
      { files.metadata with
        status := status
        updatedAt := now
        startedAt :=
          if status = .running then some (files.metadata.startedAt.getD now)
          else files.metadata.startedAt
        completedAt := if status.isTerminal then some now else files.metadata.completedAt
        errorSummary :=
          if endsWithReason status then some (truncateText reasonText summaryFieldLimit)
          else files.metadata.errorSummary
        resultRef := if endsWithReason status then some resultMd else files.metadata.resultRef
        progressSummary :=
          match progress with
          | some progress => some progress.summary
          | none => files.metadata.progressSummary }
    let summary :=
      match progress with
      | some progress => progress.summary
      | none => status.debug ++ ": ".toList ++ reasonText
    let result := boundResult
      { status
        summary
        changedFiles := metadata.changedFiles
        artifacts := (progress.map DelegationProgress.artifacts).getD []
        errorSummary := some reasonText
        completedAt := now }
    let written :=
      { files with
        metadata := metadata
        result := if endsWithReason status then some (resultMarkdown result) else files.result }
    let changed := written.appendStatusChange previous status now
    let announced :=
      match status with
      | .running => changed.appendUnlocked .started now
      | .abandoned => changed.appendUnlocked (.abandoned reasonText) now
      | .failed => changed.appendUnlocked (.failed reasonText) now
      | .completed | .queued => changed
    .ok (announced, metadata)

def start (files : SubagentFiles) (now : Text) :
    Except StoreError (SubagentFiles × DelegationMetadata) :=
  files.transition .running none now

variable (files : SubagentFiles)

def abandon (reason now : Text) : Except StoreError (SubagentFiles × DelegationMetadata) :=
  files.transition .abandoned (some reason) now

def updateProgress (update : DelegationUpdate) (now : Text) :
    Except StoreError (SubagentFiles × DelegationMetadata) :=
  let progress := boundProgress (update.progress now)
  if files.metadata.status ≠ .running then
    .error (.cannotUpdateProgress files.metadata.id files.metadata.status)
  else
    let metadata :=
      { files.metadata with
        currentStep := progress.currentStep
        progressSummary := some progress.summary
        updatedAt := now }
    let written := { files with metadata := metadata, progress := some progress }
    .ok (written.appendUnlocked
      (.progressUpdated progress.currentStep progress.summary progress.artifacts) now, metadata)

/-- What `steer` has done once its event is in the log; `steering.jsonl` comes last. -/
def steerEvent (instruction now : Text) : SubagentFiles :=
  let metadata := { files.metadata with updatedAt := now }
  ({ files with metadata := metadata }).appendUnlocked
    (.steered (truncateText instruction summaryTextLimit)) now

def steer (instruction now : Text) : Except StoreError (SubagentFiles × DelegationMetadata) :=
  if files.metadata.status.isTerminal then
    .error (.cannotSteer files.metadata.id files.metadata.status)
  else
    let recorded := files.steerEvent instruction now
    .ok (recorded.appendSteering
      ⟨nextSeq files.events, now, truncateText instruction summaryTextLimit⟩, recorded.metadata)

def completionKind (result : DelegationResult) : DelegationEventKind :=
  match result.status with
  | .completed => .completed result.summary result.changedFiles
  | .failed => .failed (result.errorSummary.getD "subagent failed".toList)
  -- `complete` has turned the statuses that are not terminal away before it comes here
  | .abandoned | .queued | .running =>
    .abandoned (result.errorSummary.getD "subagent abandoned".toList)

def complete (given : DelegationResult) : Except StoreError (SubagentFiles × DelegationMetadata) :=
  let result := boundResult given
  let now := result.completedAt
  let previous := files.metadata.status
  if result.status.isTerminal = false then
    .error (.nonTerminalResult files.metadata.id result.status)
  else if previous.isTerminal then
    .error (.cannotTransition files.metadata.id previous result.status)
  else if ¬ (previous = .running ∨ previous = .queued ∧ result.status ≠ .completed) then
    .error (.cannotTransition files.metadata.id previous result.status)
  else
    let metadata :=
      { files.metadata with
        status := result.status
        updatedAt := now
        completedAt := some now
        progressSummary := some (truncateText result.summary summaryTextLimit)
        errorSummary := result.errorSummary
        resultRef := some resultMd
        changedFiles := result.changedFiles }
    let written := { files with metadata := metadata, result := some (resultMarkdown result) }
    .ok ((written.appendStatusChange previous metadata.status now).appendUnlocked
      (completionKind result) now, metadata)

def appendEvent (kind : DelegationEventKind) (now : Text) :
    Except StoreError (SubagentFiles × Unit) :=
  if files.metadata.status.isTerminal then .ok (files, ())
  else .ok (files.appendUnlocked kind now, ())

end SubagentFiles

abbrev Store := Text → Option SubagentFiles

def Store.empty : Store := fun _ => none

inductive Call
  | create (request : DelegationCreateRequest) (ids : Nat → Text) (now : Text)
  | start (id now : Text)
  | updateProgress (id : Text) (update : DelegationUpdate) (now : Text)
  | steer (id instruction now : Text)
  | appendEvent (id : Text) (kind : DelegationEventKind) (now : Text)
  | complete (id : Text) (result : DelegationResult)
  | abandon (id reason now : Text)

def Call.now : Call → Text
  | .create _ _ now | .start _ now | .updateProgress _ _ now | .steer _ _ now
  | .appendEvent _ _ now | .abandon _ _ now => now
  | .complete _ result => result.completedAt

variable (expectedSessionId : Option Text) (store : Store)

namespace Store

def onFiles {Out : Type} (store : Store) (id : Text)
    (call : SubagentFiles → Except StoreError (SubagentFiles × Out)) :
    Store × Except StoreError Out :=
  match store id with
  | none => (store, .error (.notFound id))
  | some files =>
    match call files with
    | .error error => (store, .error error)
    | .ok (next, out) => (Function.update store id (some next), .ok out)

/-- `create_with_id_factory`; `expectedSessionId` is the session of the directory. -/
def create (request : DelegationCreateRequest) (ids : Nat → Text) (now : Text) :
    Store × Except StoreError DelegationMetadata :=
  match expectedSessionId.filter (· ≠ request.parentSessionId) with
  | some expected => (store, .error (.parentSessionMismatch expected request.parentSessionId))
  | none =>
    match (List.range idMaxAttempts).find? fun attempt => (store (ids attempt)).isNone with
    | some attempt =>
      let metadata := DelegationMetadata.new (ids attempt) request now
      (Function.update store (ids attempt) (some (SubagentFiles.initializeCreated metadata now)),
        .ok metadata)
    | none => (store, .error (.idCollisionExhausted idMaxAttempts (ids (idMaxAttempts - 1))))

/-- The directory after a call, whether it returned `Ok` or `Err`. -/
def after : Call → Store
  | .create request ids now => (store.create expectedSessionId request ids now).1
  | .start id now => (store.onFiles id (·.start now)).1
  | .updateProgress id update now => (store.onFiles id (·.updateProgress update now)).1
  | .steer id instruction now => (store.onFiles id (·.steer instruction now)).1
  | .appendEvent id kind now => (store.onFiles id (·.appendEvent kind now)).1
  | .complete id result => (store.onFiles id (·.complete result)).1
  | .abandon id reason now => (store.onFiles id (·.abandon reason now)).1

end Store

def CallStep (call : Call) (next : Store) : Prop :=
  next = store.after expectedSessionId call

theorem nextSeq_numbered (numbered : events.map DelegationEvent.seq = List.range' 1 events.length)
    (room : events.length + 1 ≤ maxSeq) : nextSeq events = events.length + 1 := by
  have last := getLast?_numbered numbered
  unfold nextSeq
  cases found : events.getLast? with
  | none =>
    rw [List.getLast?_eq_none_iff.mp found]
    rfl
  | some event =>
    have nonempty : events ≠ [] := by
      rintro rfl
      cases found
    rw [found, if_neg nonempty, Option.map_some, Option.some.injEq] at last
    dsimp only
    rw [last]
    exact Nat.min_eq_left room

theorem appendUnlocked_refines {files : SubagentFiles} (holds : Holds reader files.events [] bytes)
    (fits : bytes.length < 2 ^ 64)
    (stamped : reader.stamps now) :
    ∃ event, (files.appendUnlocked kind now).events = files.events ++ [event] ∧
      Delegation.appendEvent reader ⟨bytes, sidecar⟩ ⟨kind, now, .completed⟩ =
        (⟨bytes ++ eventLine event, some event.seq⟩, some event) ∧
      Holds reader (files.appendUnlocked kind now).events [] (bytes ++ eventLine event) := by
  have room := holds.room fits.le
  have next := nextSeq_numbered holds.numbered room
  have whole := holds.bytes
  rw [List.append_nil] at whole
  obtain ⟨synced, numbered, unchanged⟩ := nextEventSeq_holds holds fits.le sidecar
  refine ⟨⟨files.events.length + 1, now, boundEventKind kind⟩, ?_, ?_, ?_⟩
  · rw [SubagentFiles.appendUnlocked, told, next]
  · have same : repairEventsTail reader bytes = bytes := by rw [whole, repair_complete]
    simp [Delegation.appendEvent, reduceCtorEq, same, numbered, unchanged]
  · have extended := @Holds.snoc reader files.events [] bytes holds
      ⟨files.events.length + 1, now, boundEventKind kind⟩ ⟨stamped, room, kind, rfl⟩ rfl
    rw [List.map_append, List.map_singleton, frame_append, frame_cons, frame_nil, ← whole]
      at extended
    rw [SubagentFiles.appendUnlocked, told, next, eventLine]
    exact extended

end AgentClaimNetwork.Delegation
