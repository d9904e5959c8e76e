import AgentClaimNetwork.Session.Transcript

/-!
The cleanup of old sessions, from `src/session/cleanup.rs` and
`src/session_tui/cleanup_housekeeping.rs`, beside what takes a session up again in
`src/session/mod.rs`.  A program that cleans up while its user works is two processes.
-/

namespace AgentClaimNetwork.Session.Cleanup

open Library LineLog
open Function (update)

variable {Process Stamp Replay History : Type}

/-- A session directory with a readable `session.yaml`: its files, when the directory was modified,
and the user text that the turn journal shows. -/
structure Directory (Stamp History : Type) where
  files : SessionFiles Stamp History
  modified : Stamp
  journalUserText : Option Api.Text

/-- What the store is told about a session: how messages are read, whose sessions these are and
which text of a transcript `extract_last_user_text` finds. -/
structure Store (Stamp Replay History : Type) where
  codec : MessageCodec Stamp Replay
  agentId : Api.Text
  extractLastUserText : List (SessionMessage Stamp Replay) → Option Api.Text

section

variable (store : Store Stamp Replay History)

/-- `none` for a line that is no message. -/
def lastCreatedAt : Option Stamp → List (List Char) → Option (Option Stamp)
  | last, [] => some last
  | last, line :: rest =>
    if isBlank line then lastCreatedAt last rest
    else match store.codec.read (Utf8.encode line) with
      | some message => lastCreatedAt (some message.createdAt) rest
      | none => none

/-- `none` where the file cannot be read or parsed. -/
def lastMessageCreatedAt (raw : List UInt8) : Option (Option Stamp) :=
  (Utf8.strict raw).bind fun text => lastCreatedAt store none (lines text)

def lastActivityAt (directory : Directory Stamp History) : Stamp :=
  match lastMessageCreatedAt store directory.files.messages with
  | some (some createdAt) => createdAt
  | some none | none => directory.modified

variable {store} in
theorem lastActivityAt_undated {directory : Directory Stamp History} (undated : ∀ createdAt,
      lastMessageCreatedAt store directory.files.messages ≠ some (some createdAt)) :
    lastActivityAt store directory = directory.modified := by
  unfold lastActivityAt
  split
  · rename_i createdAt read
    exact absurd read (undated createdAt)
  all_goals rfl

/-- The checks of `evaluate_candidate` on the metadata. -/
def isCandidate (id : Api.Text) (directory : Directory Stamp History) : Bool :=
  directory.files.metadata.id = id && directory.files.metadata.agentId = store.agentId &&
    directory.files.metadata.status = .closed

def resumableLastUserText (directory : Directory Stamp History) :
    Except SessionStoreError (Option Api.Text) := do
  let messages ← readMessagesFile store.codec directory.files.messages
  return (store.extractLastUserText messages).or directory.journalUserText

def loadTarget (files : SessionFiles Stamp History) :
    Except SessionStoreError (SessionMetadata Stamp History × SessionFiles Stamp History) :=
  if files.metadata.agentId ≠ store.agentId then
    .error (.wrongAgent files.metadata.id store.agentId)
  else if files.metadata.status = .finalizing then do
    let messages ← readMessagesFile store.codec files.messages
    validateAndReconcileResumeMetadata files.metadata messages files
  else do
    let loaded ← loadExistingSession store.codec store.agentId files
    return (loaded.metadata, loaded.files)

end

inductive SessionResumeKind
  | closed
  | interrupted
  | finalizing

def resumeKind (metadata : SessionMetadata Stamp History) :
    Except SessionStoreError SessionResumeKind :=
  match metadata.status with
  | .closed => .ok .closed
  | .opened =>
    if metadata.closedAt.isNone && metadata.finalizedAt.isNone then .ok .interrupted
    else .error (.notClosed metadata.id .opened)
  | .finalizing =>
    if metadata.closedAt.isNone && metadata.finalizedAt.isNone then .ok .finalizing
    else .error (.notClosed metadata.id .finalizing)

/-- `mark_open` on the files: it removes the checkpoint as well. -/
def markOpen (files : SessionFiles Stamp History) :
    Except SessionStoreError (SessionFiles Stamp History) := do
  let opened ← files.metadata.markOpen
  return { writeSessionYaml files opened with finalizeCheckpoint := .missing }

inductive HandleWrite (Stamp Replay : Type)
  | markOpen
  | markOpenAfterFinalizeTakeover
  | markFinalizing
  | markFinalized (finalizedAt : Stamp)
  | markClosed (closedAt : Stamp)
  | append (fate : AppendFate) (messages : List (NewSessionMessage Stamp Replay))

def HandleWrite.run (codec : MessageCodec Stamp Replay) (files : SessionFiles Stamp History) :
    HandleWrite Stamp Replay → SessionFiles Stamp History
  | .markOpen => (Cleanup.markOpen files).toOption.getD files
  | .markOpenAfterFinalizeTakeover =>
    (files.metadata.markOpenAfterFinalizeTakeover.toOption.map (writeSessionYaml files)).getD files
  | .markFinalizing =>
    (files.metadata.markFinalizing.toOption.map (writeSessionYaml files)).getD files
  | .markFinalized finalizedAt => writeSessionYaml files (files.metadata.markFinalized finalizedAt)
  | .markClosed closedAt => writeSessionYaml files (files.metadata.markClosed closedAt)
  | .append fate messages => (appendMessages codec fate messages files).1

/-- `evaluate_candidate` runs during the scan, and once more in front of the deletion. -/
inductive Evaluation
  | scan
  | preDelete

/-- `resume_runtime_session` opens a closed session, `reserve_runtime_session` leaves it closed. -/
inductive Request
  | runtime (openClosed : Bool)
  | reopen

/-- What a process is in the middle of.  Whoever is not idle has the session-cleanup lock. -/
inductive Task (Stamp : Type)
  | idle
  | scanning (cutoff : Stamp) (rest : List Api.Text)
  /-- The metadata was that of a candidate; its messages come next. -/
  | reading (evaluation : Evaluation) (cutoff : Stamp) (id : Api.Text) (rest : List Api.Text)
  /-- No message dates the session; the time of its directory comes next. -/
  | dating (evaluation : Evaluation) (cutoff : Stamp) (id : Api.Text) (rest : List Api.Text)
  | eligible (evaluation : Evaluation) (cutoff : Stamp) (id : Api.Text) (rest : List Api.Text)
  | requesting (request : Request) (id : Api.Text)
  /-- The runtime lease of the session is taken. -/
  | leased (openClosed : Bool) (id : Api.Text)
  | opening (request : Request) (id : Api.Text)

inductive Holding
  | nothing
  | handle
  | leasedHandle
deriving DecidableEq

/-- The home of an agent.  A directory whose `session.yaml` cannot be read counts as none: it is
neither cleaned up nor taken up. -/
structure State (Process Stamp History : Type) where
  sessions : Api.Text → Option (Directory Stamp History)
  cleanupLock : Option Process
  leases : Api.Text → Option Process
  holding : Process → Api.Text → Holding
  task : Process → Task Stamp

/-- A `modified` is what the directory's modification time is behind the step. -/
inductive Label (Process Stamp Replay : Type)
  | runCleanup (process : Process) (cutoff : Stamp) (listing : List Api.Text)
  | readMetadata (process : Process)
  | readMessages (process : Process)
  | readModified (process : Process)
  | removeDirAll (process : Process)
  | request (process : Process) (request : Request) (id : Api.Text)
  | acquireLease (process : Process) (modified : Stamp)
  | load (process : Process) (modified : Stamp)
  | markOpen (process : Process) (modified : Stamp)
  | stop (process : Process)
  | write (process : Process) (id : Api.Text) (write : HandleWrite Stamp Replay) (modified : Stamp)
  | releaseLease (process : Process) (id : Api.Text)
  | dropHandle (process : Process) (id : Api.Text)

namespace State

section

variable (state : State Process Stamp History) (id : Api.Text)

def lease (holder : Option Process) : State Process Stamp History :=
  { state with leases := update state.leases id holder }

def store (directory : Option (Directory Stamp History)) : State Process Stamp History :=
  { state with sessions := update state.sessions id directory }

def lock (holder : Option Process) : State Process Stamp History :=
  { state with cleanupLock := holder }

variable (holder : Option Process) (directory : Option (Directory Stamp History))

@[simp] theorem lease_sessions : (state.lease id holder).sessions = state.sessions := rfl
@[simp] theorem lease_leases :
    (state.lease id holder).leases = update state.leases id holder := rfl
@[simp] theorem lease_task : (state.lease id holder).task = state.task := rfl

@[simp] theorem store_sessions :
    (state.store id directory).sessions = update state.sessions id directory := rfl
@[simp] theorem store_leases : (state.store id directory).leases = state.leases := rfl
@[simp] theorem store_holding : (state.store id directory).holding = state.holding := rfl
@[simp] theorem store_task : (state.store id directory).task = state.task := rfl

@[simp] theorem lock_sessions : (state.lock holder).sessions = state.sessions := rfl

end

variable [DecidableEq Process] (state : State Process Stamp History) (process : Process)

def become (task : Task Stamp) : State Process Stamp History :=
  { state with task := update state.task process task }

def hold (id : Api.Text) (holding : Holding) : State Process Stamp History :=
  { state with
    holding := update state.holding process
      (update (state.holding process) id holding) }

def leave : State Process Stamp History := (state.become process .idle).lock none

def giveUp : State Process Stamp History :=
  match state.task process with
  | .leased _ id | .opening (.runtime _) id => (state.lease id none).leave process
  | _ => state.leave process

def complete (request : Request) (id : Api.Text) : State Process Stamp History :=
  match request with
  | .runtime _ => (state.hold process id .leasedHandle).leave process
  | .reopen =>
    (state.hold process id
      (if state.holding process id = .leasedHandle then .leasedHandle else .handle)).leave process

variable (task : Task Stamp) (id : Api.Text) (holding : Holding)

@[simp] theorem become_sessions : (state.become process task).sessions = state.sessions := rfl
@[simp] theorem become_task :
    (state.become process task).task = update state.task process task := rfl

@[simp] theorem hold_sessions : (state.hold process id holding).sessions = state.sessions := rfl
@[simp] theorem hold_leases : (state.hold process id holding).leases = state.leases := rfl
@[simp] theorem hold_task : (state.hold process id holding).task = state.task := rfl

theorem hold_holding (other : Process) (name : Api.Text) :
    (state.hold process id holding).holding other name =
      if other = process ∧ name = id then holding else state.holding other name := by
  by_cases same : other = process
  · subst same
    simp [hold, Function.update_apply]
  · simp [hold, same]

@[simp] theorem leave_task :
    (state.leave process).task = update state.task process .idle := rfl

@[simp] theorem giveUp_sessions : (state.giveUp process).sessions = state.sessions := by
  unfold giveUp
  split <;> rfl

@[simp] theorem complete_sessions :
    (state.complete process request id).sessions = state.sessions := by
  cases request <;> rfl

end State

variable [DecidableEq Process] [LinearOrder Stamp] (store : Store Stamp Replay History)
  (state : State Process Stamp History)

section

variable (process : Process) (evaluation : Evaluation) (cutoff : Stamp) (id : Api.Text)
  (rest : List Api.Text)

def examine : State Process Stamp History :=
  if (state.sessions id).any (isCandidate store id) then
    state.become process (.reading evaluation cutoff id rest)
  else state.become process (.scanning cutoff rest)

def judge (lastActivity : Stamp) : State Process Stamp History :=
  if cutoff ≤ lastActivity then state.become process (.scanning cutoff rest)
  else state.become process (.eligible evaluation cutoff id rest)

end

variable (process : Process)

def loadRuntime (openClosed : Bool) (id : Api.Text) (modified : Stamp)
    (directory : Directory Stamp History) : State Process Stamp History :=
  match loadTarget store directory.files with
  | .error _ => state.giveUp process
  | .ok (metadata, files) =>
    let loaded := state.store id (some { directory with files, modified })
    match resumableLastUserText store { directory with files, modified }, resumeKind metadata with
    | .ok (some _), .ok .closed =>
      if openClosed then loaded.become process (.opening (.runtime openClosed) id)
      else loaded.complete process (.runtime openClosed) id
    | .ok (some _), .ok _ => loaded.complete process (.runtime openClosed) id
    | _, _ => loaded.giveUp process

/-- `open_existing_session`. -/
def loadClosed (id : Api.Text) (modified : Stamp) (directory : Directory Stamp History) :
    State Process Stamp History :=
  match loadExistingSession store.codec store.agentId directory.files with
  | .error _ => state.giveUp process
  | .ok loaded =>
    let kept := state.store id (some { directory with files := loaded.files, modified })
    if loaded.metadata.status = .closed then kept.become process (.opening .reopen id)
    else kept.giveUp process

def openTarget (request : Request) (id : Api.Text) (modified : Stamp)
    (directory : Directory Stamp History) : State Process Stamp History :=
  match Cleanup.markOpen directory.files with
  | .error _ => state.giveUp process
  | .ok files =>
    (state.store id (some { directory with files, modified })).complete process request id

def next : Label Process Stamp Replay → Option (State Process Stamp History)
  | .runCleanup process cutoff listing =>
    match state.task process, state.cleanupLock with
    | .idle, none => some ((state.lock (some process)).become process (.scanning cutoff listing))
    | _, _ => none
  | .readMetadata process =>
    match state.task process with
    | .scanning cutoff (id :: rest) => some (examine store state process .scan cutoff id rest)
    | .eligible .scan cutoff id rest => some (examine store state process .preDelete cutoff id rest)
    | _ => none
  | .readMessages process =>
    match state.task process with
    | .reading evaluation cutoff id rest =>
      match (state.sessions id).bind fun directory =>
          lastMessageCreatedAt store directory.files.messages with
      | some (some createdAt) => some (judge state process evaluation cutoff id rest createdAt)
      | some none | none => some (state.become process (.dating evaluation cutoff id rest))
    | _ => none
  | .readModified process =>
    match state.task process with
    | .dating evaluation cutoff id rest =>
      match state.sessions id with
      | some directory => some (judge state process evaluation cutoff id rest directory.modified)
      | none => some (state.become process (.scanning cutoff rest))
    | _ => none
  | .removeDirAll process =>
    match state.task process with
    | .eligible .preDelete cutoff id rest =>
      some ((state.store id none).become process (.scanning cutoff rest))
    | _ => none
  | .request process request id =>
    match state.task process, state.cleanupLock with
    | .idle, none => some ((state.lock (some process)).become process (.requesting request id))
    | _, _ => none
  | .acquireLease process modified =>
    match state.task process with
    | .requesting (.runtime openClosed) id =>
      match state.leases id with
      | none =>
        some (((state.lease id (some process)).store id
          ((state.sessions id).map fun directory => { directory with modified })).become process
            (.leased openClosed id))
      | some _ => some (state.leave process)
    | _ => none
  | .load process modified =>
    match state.task process with
    | .leased openClosed id =>
      match state.sessions id with
      | some directory => some (loadRuntime store state process openClosed id modified directory)
      | none => some (state.giveUp process)
    | .requesting .reopen id =>
      match state.sessions id with
      | some directory => some (loadClosed store state process id modified directory)
      | none => some (state.giveUp process)
    | _ => none
  | .markOpen process modified =>
    match state.task process with
    | .opening request id =>
      match state.sessions id with
      | some directory => some (openTarget state process request id modified directory)
      | none => some (state.giveUp process)
    | _ => none
  | .stop process =>
    match state.task process with
    | .idle => none
    | _ => some (state.giveUp process)
  | .write process id write modified =>
    match state.holding process id, state.sessions id with
    | .nothing, _ | _, none => none
    | _, some directory =>
      some (state.store id
        (some { directory with files := write.run store.codec directory.files, modified }))
  | .releaseLease process id =>
    match state.holding process id with
    | .leasedHandle => some ((state.lease id none).hold process id .handle)
    | _ => none
  | .dropHandle process id =>
    match state.holding process id with
    | .handle => some (state.hold process id .nothing)
    | _ => none

end AgentClaimNetwork.Session.Cleanup
