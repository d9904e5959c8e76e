import AgentClaimNetwork.Session.Metadata

/-!
The jobs of the supervisor, from `src/supervisor.rs`: one file a job, replaced as a whole.
-/

namespace AgentClaimNetwork.Supervisor

open Session (SessionStatus)

inductive SupervisorJobStatus
  | queued
  | running
  | succeeded
  | failed
deriving DecidableEq

inductive SupervisorJobKind
  | finalize (sessionId : Api.Text)
  | recap (sessionId : Api.Text) (recapEndIndex : Nat)
deriving DecidableEq

structure SupervisorJob (Stamp : Type) where
  id : Api.Text
  agentId : Option Api.Text
  kind : SupervisorJobKind
  status : SupervisorJobStatus
  attempts : Nat
  manualRetries : Nat
  createdAt : Stamp
  updatedAt : Stamp
  startedAt : Option Stamp
  finishedAt : Option Stamp
  lastError : Option Api.Text
  notifyOnCompletion : Bool
deriving DecidableEq

def defaultSupervisorJobMaxAttempts : Nat := 5

variable {Stamp : Type}

def finalizeJobSessionId (job : SupervisorJob Stamp) : Option Api.Text :=
  match job.kind with
  | .finalize sessionId => some sessionId
  | .recap _ _ => none

def jobSessionIdRef (job : SupervisorJob Stamp) : Api.Text :=
  match job.kind with
  | .finalize sessionId => sessionId
  | .recap sessionId _ => sessionId

def unresolvedFinalizeJobs (jobs : List (SupervisorJob Stamp)) (sessionId : Api.Text) :
    List (SupervisorJob Stamp) :=
  jobs.filter fun job =>
    decide (finalizeJobSessionId job = some sessionId ∧ job.status ≠ .succeeded)

def writeJob (jobs : List (SupervisorJob Stamp)) (job : SupervisorJob Stamp) :
    List (SupervisorJob Stamp) :=
  jobs.map fun stored => if stored.id = job.id then job else stored

/-- `create_finalize_job_record` and `create_recap_job`, behind their checks. -/
def newJob (id agentId : Api.Text) (kind : SupervisorJobKind) (manualRetries : Nat)
    (lastError : Option Api.Text) (notifyOnCompletion : Bool) (now : Stamp) :
    SupervisorJob Stamp :=
  { id := id
    agentId := some agentId
    kind := kind
    status := .queued
    attempts := 0
    manualRetries := manualRetries
    createdAt := now
    updatedAt := now
    startedAt := none
    finishedAt := none
    lastError := lastError
    notifyOnCompletion := notifyOnCompletion }

section

variable (id agentId sessionId : Api.Text)

variable (notifyOnCompletion : Bool)

def createFinalizeJob (now : Stamp) : SupervisorJob Stamp :=
  newJob id agentId (.finalize sessionId) 0 none notifyOnCompletion now

def createRecapJob (recapEndIndex : Nat) (now : Stamp) : SupervisorJob Stamp :=
  newJob id agentId (.recap sessionId recapEndIndex) 0 none false now

def createRecoveryFinalizeJob (now : Stamp) : SupervisorJob Stamp :=
  newJob id agentId (.finalize sessionId) 1
    (some "manual retry recovered Finalizing session without a supervisor job".toList)
    notifyOnCompletion now

def createResumeRecoveryFinalizeJob (now : Stamp) : SupervisorJob Stamp :=
  newJob id agentId (.finalize sessionId) 0 none notifyOnCompletion now

end

variable (original : SupervisorJob Stamp)

def convertedRecapJob (sessionId : Api.Text) (recapEndIndex : Nat) (updatedAt : Stamp) :
    SupervisorJob Stamp :=
  { id := original.id
    agentId := original.agentId
    kind := .recap sessionId recapEndIndex
    status := .queued
    attempts := 0
    manualRetries := 0
    createdAt := original.createdAt
    updatedAt := updatedAt
    startedAt := none
    finishedAt := none
    lastError := none
    notifyOnCompletion := false }

def resetFinalizeJobForResumeRecovery (now : Stamp) : SupervisorJob Stamp :=
  { original with
    status := .queued
    attempts := 0
    updatedAt := now
    startedAt := none
    finishedAt := none
    lastError := none }

def recapJobAsFinalizeRecovery (sessionId : Api.Text) (notifyOnCompletion : Bool)
    (updatedAt : Stamp) : SupervisorJob Stamp :=
  { id := original.id
    agentId := original.agentId
    kind := .finalize sessionId
    status := .queued
    attempts := 0
    manualRetries := 0
    createdAt := original.createdAt
    updatedAt := updatedAt
    startedAt := none
    finishedAt := none
    lastError := none
    notifyOnCompletion := notifyOnCompletion }

section

variable (job : SupervisorJob Stamp)

variable (now : Stamp)

/-- The reset of `retry_finalize_job`. -/
def retriedFinalizeJob : SupervisorJob Stamp :=
  { job with
    status := .queued
    attempts := 0
    manualRetries := job.manualRetries + 1
    updatedAt := now
    startedAt := none
    finishedAt := none }

def reconciledClosedJob : SupervisorJob Stamp :=
  { job with
    status := .succeeded
    finishedAt := some now
    updatedAt := now
    lastError := none }

/-- The first write of `run_job`. -/
def startedJob : SupervisorJob Stamp :=
  { job with
    status := .running
    startedAt := some now
    updatedAt := now
    lastError := none }

def deferredJob (message : Api.Text) (now : Stamp) : SupervisorJob Stamp :=
  { job with
    status := .queued
    startedAt := none
    finishedAt := none
    updatedAt := now
    lastError := some ("Waiting for Dream commit recovery: ".toList ++ message) }

def countedJob : SupervisorJob Stamp :=
  { job with attempts := job.attempts + 1 }

def succeededJob : SupervisorJob Stamp :=
  { job with
    status := .succeeded
    lastError := none
    finishedAt := some now
    updatedAt := now }

def applyJobAttemptFailure (message : Api.Text) (now : Stamp) : SupervisorJob Stamp :=
  if job.attempts < defaultSupervisorJobMaxAttempts then
    { job with
      status := .queued
      finishedAt := none
      updatedAt := now
      lastError := some message }
  else
    { job with
      status := .failed
      finishedAt := some now
      updatedAt := now
      lastError := some message }

end

def recoverStaleRunningJob (original : SupervisorJob Stamp) (sessionStatus : SessionStatus)
    (retryMessage exhaustedMessage : Api.Text) (now : Stamp) : SupervisorJob Stamp :=
  match original.kind, sessionStatus with
  | .finalize _, .closed | .finalize _, .opened | .recap _ _, .finalizing | .recap _ _, .closed =>
    { original with
      status := .succeeded
      finishedAt := some now
      lastError := none
      updatedAt := now }
  | .finalize _, .finalizing | .recap _ _, .opened =>
    if defaultSupervisorJobMaxAttempts ≤ original.attempts then
      { original with
        status := .failed
        finishedAt := some now
        lastError := some exhaustedMessage
        updatedAt := now }
    else
      { original with
        status := .queued
        finishedAt := none
        lastError := some retryMessage
        updatedAt := now }

end AgentClaimNetwork.Supervisor
