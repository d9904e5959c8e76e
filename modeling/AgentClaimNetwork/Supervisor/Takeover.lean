import AgentClaimNetwork.Session.RecapCheckpoint
import AgentClaimNetwork.Supervisor.Job

/-!
The worker with the finalize job of one session and the requests that resume it, from
`src/supervisor.rs` and `src/agent/session_engine/finalize.rs`.  The attempt goes on between the
two steps of a request; an error of a request changes nothing but what it wrote before.
-/

namespace AgentClaimNetwork.Supervisor

open Library Session

inductive SessionRecapPreemptionPhase
  | cancelable
  | cancelRequested
  | prepared
  | finishedBeforePrepared
  | finishedAfterPrepared
deriving DecidableEq

structure SessionPreparedPreemptionControl where
  cancel : Bool
  phase : SessionRecapPreemptionPhase

namespace SessionPreparedPreemptionControl

def new : SessionPreparedPreemptionControl := ⟨false, .cancelable⟩

def requestBeforePrepared (control : SessionPreparedPreemptionControl) :
    SessionPreparedPreemptionControl × Bool :=
  if control.phase ≠ .cancelable then (control, false) else (⟨true, .cancelRequested⟩, true)

def finish (control : SessionPreparedPreemptionControl) : SessionPreparedPreemptionControl :=
  { control with
    phase :=
      match control.phase with
      | .prepared | .finishedAfterPrepared => .finishedAfterPrepared
      | .cancelable | .cancelRequested | .finishedBeforePrepared => .finishedBeforePrepared }

def finishedBeforePrepared (control : SessionPreparedPreemptionControl) : Bool :=
  control.phase = .finishedBeforePrepared

variable (control : SessionPreparedPreemptionControl)

def markExistingCheckpointPrepared : SessionPreparedPreemptionControl :=
  { control with phase := .prepared }

def commitPrepared : Option SessionPreparedPreemptionControl :=
  if control.phase = .cancelRequested then none else some { control with phase := .prepared }

def isCancelRequested : Bool :=
  control.phase = .cancelRequested

end SessionPreparedPreemptionControl

inductive RunningFinalizeResumeResult
  | opened
  | waitForFinalize
  | attemptFinishedBeforePrepared
  | failed (message : Api.Text)

inductive FinalizingResumeTakeover
  | opened (jobId : Option Api.Text)
  | waitForFinalize (jobId : Option Api.Text)
  | reopenClosed (jobId : Option Api.Text)

inductive SessionFinalizeOnceOutcome
  | completed
  | preemptedBeforePrepared
  | failed

/-- Where the worker stands, with its own copy of the job.  The engine is `controlled` unless it
goes on after a conversion that failed. -/
inductive Worker (Stamp : Type)
  | idle
  | claimed (job : SupervisorJob Stamp)
  | started (job : SupervisorJob Stamp)
  | deferring (job : SupervisorJob Stamp)
  | engaging (job : SupervisorJob Stamp) (controlled : Bool)
  | inside (job : SupervisorJob Stamp) (controlled : Bool)
  | returned (job : SupervisorJob Stamp) (outcome : SessionFinalizeOnceOutcome)
  | finished (job : SupervisorJob Stamp) (outcome : SessionFinalizeOnceOutcome)
      (beforePrepared : Bool)
  | succeeding (job : SupervisorJob Stamp)
  | failing (job : SupervisorJob Stamp) (beforePrepared : Bool)
  | reporting (job : SupervisorJob Stamp) (beforePrepared : Bool)
  | leaving (job : SupervisorJob Stamp) (runnerError : Bool)

structure Look (Stamp History : Type) where
  metadata : SessionMetadata Stamp History
  jobs : List (SupervisorJob Stamp)
  hasCheckpoint : Bool

structure Waiting where
  registration : Nat
  seen : Nat
  recapEndIndex : Nat
  jobId : Api.Text

structure TakeoverState (Stamp History Message Item Hash : Type) where
  session : RecapState Stamp History Message Item Hash
  jobs : List (SupervisorJob Stamp)
  worker : Worker Stamp
  /-- `running_finalize`: the number of the registration and its job. -/
  running : Option (Nat × Api.Text)
  registrations : Nat
  preemption : SessionPreparedPreemptionControl
  resumeTarget : Option Nat
  /-- What was sent on the channel of each registration, the latest last. -/
  results : Nat → List RunningFinalizeResumeResult
  gate : Option (Nat × Look Stamp History)
  waiting : Nat → Option Waiting

inductive TakeoverLabel (Stamp Message Item : Type)
  | worker
  | engine (label : RecapLabel Stamp Message Item)
  | look (request : Nat)
  | wait (request : Nat)
  | again (request : Nat)
  | answer (request : Nat) (outcome : FinalizingResumeTakeover)
  | fail (request : Nat)
  | failedRestore

variable {Stamp History Message Item Hash : Type}

def hasCheckpoint (session : RecapState Stamp History Message Item Hash) : Bool :=
  match session.checkpoint with
  | none => false
  | some checkpoint =>
    decide (finalizeCheckpointCoversPendingRange checkpoint session.metadata.recappedUntil
      session.metadata.messageCount)

def readLook (state : TakeoverState Stamp History Message Item Hash) : Look Stamp History :=
  ⟨state.session.metadata, state.jobs, hasCheckpoint state.session⟩

namespace Look

variable (look : Look Stamp History)

def isClosed : Prop :=
  look.metadata.status = .closed ∧ look.metadata.closedAt.isSome ∧ look.metadata.finalizedAt.isSome

def isOpen : Prop :=
  look.metadata.status = .opened ∧ look.metadata.closedAt = none ∧ look.metadata.finalizedAt = none

def isFinalizing : Prop :=
  look.metadata.status = .finalizing ∧ look.metadata.closedAt = none ∧
    look.metadata.finalizedAt = none

def unresolved : List (SupervisorJob Stamp) :=
  unresolvedFinalizeJobs look.jobs look.metadata.id

end Look

namespace TakeoverState

variable (state : TakeoverState Stamp History Message Item Hash)

def runningOf (job : SupervisorJob Stamp) : Option (Nat × Api.Text) :=
  state.running.filter fun running => running.2 = job.id

def send (result : RunningFinalizeResumeResult) : TakeoverState Stamp History Message Item Hash :=
  { state with
    results := fun registration =>
      if registration = state.registrations then state.results registration ++ [result]
      else state.results registration }

def unregister (job : SupervisorJob Stamp) : TakeoverState Stamp History Message Item Hash :=
  { state with running := state.running.filter fun running => running.2 ≠ job.id }

def setWaiting (request : Nat)
    (waiting : Option Waiting) : TakeoverState Stamp History Message Item Hash :=
  { state with
    waiting := fun other => if other = request then waiting else state.waiting other }

def withWorker (worker : Worker Stamp) : TakeoverState Stamp History Message Item Hash :=
  { state with worker := worker }

def withSession (session : RecapState Stamp History Message Item Hash) :
    TakeoverState Stamp History Message Item Hash :=
  { state with session := session }

def withJobs (jobs : List (SupervisorJob Stamp)) : TakeoverState Stamp History Message Item Hash :=
  { state with jobs := jobs }

def withPreemption (preemption : SessionPreparedPreemptionControl) :
    TakeoverState Stamp History Message Item Hash :=
  { state with preemption := preemption }

def release : TakeoverState Stamp History Message Item Hash :=
  { state with gate := none }

/-- The engine has left `finalize.lock`. -/
def leaveEngine : TakeoverState Stamp History Message Item Hash :=
  state.withSession { state.session with attempt := none }

def reopen
    (metadata : SessionMetadata Stamp History) : TakeoverState Stamp History Message Item Hash :=
  state.withSession { state.session with metadata := metadata }

end TakeoverState

def Worker.afterEngine (job : SupervisorJob Stamp) (controlled : Bool)
    (outcome : SessionFinalizeOnceOutcome) : Worker Stamp :=
  if controlled then .returned job outcome
  else
    match outcome with
    | .completed => .succeeding job
    -- the attempt had been preempted before its checkpoint when it lost its control
    | .preemptedBeforePrepared | .failed => .failing job true

def recoveredUnregistered (state : TakeoverState Stamp History Message Item Hash)
    (look : Look Stamp History) (job : SupervisorJob Stamp) (now : Stamp) : SupervisorJob Stamp :=
  if job.status = .running ∧ state.runningOf job = none then
    recoverStaleRunningJob job look.metadata.status
      "recovered unregistered running finalize job during resume takeover".toList
      ("unregistered running finalize job exhausted supervisor retry budget before resume " ++
        "takeover").toList now
  else job

def isPlain : RecapLabel Stamp Message Item → Prop
  | .review | .writeClaim | .record | .apply | .finish _ => True
  | _ => False

/-- `finalize_message_segment_checkpointed` has found the checkpoint of its own range. -/
def marksExisting (session : RecapState Stamp History Message Item Hash) : Bool :=
  match session.attempt with
  | some (.reviewing _ _) | some (.finishing _) => true
  | _ => false

variable (hasher : RecapHasher Message Item Hash) [DecidableEq Hash]

/-- The steps of the engine under `finalize.lock`. -/
inductive EngineStep (state : TakeoverState Stamp History Message Item Hash) :
    TakeoverLabel Stamp Message Item → TakeoverState Stamp History Message Item Hash → Prop
  | enter {job controlled session} : state.worker = .engaging job controlled →
      (controlled = true → hasCheckpoint state.session = true ∨
        state.preemption.isCancelRequested = false) →
      RecapStep hasher state.session .beginFinalize session →
      EngineStep state (.engine .beginFinalize)
        (((state.withSession session).withPreemption
          (if controlled && hasCheckpoint state.session then
            state.preemption.markExistingCheckpointPrepared
          else state.preemption)).withWorker (.inside job controlled))
  | markFinalizing {job controlled session} : state.worker = .engaging job controlled →
      RecapStep hasher state.session .markFinalizing session →
      EngineStep state (.engine .markFinalizing) (state.withSession session)
  | alreadyFinalized {job controlled} : state.worker = .engaging job controlled →
      state.session.metadata.finalizedAt.isSome →
      EngineStep state .worker (state.withWorker (Worker.afterEngine job controlled .completed))
  | plain {job controlled label session} : state.worker = .inside job controlled →
      isPlain label → RecapStep hasher state.session label session →
      EngineStep state (.engine label) (state.withSession session)
  | decide {job controlled session} : state.worker = .inside job controlled →
      RecapStep hasher state.session .decide session →
      EngineStep state (.engine .decide)
        ((state.withSession session).withPreemption
          (if controlled && marksExisting session then
            state.preemption.markExistingCheckpointPrepared
          else state.preemption))
  | commit {job label session preemption} : state.worker = .inside job true →
      (∃ analysis prepared, label = .prepare analysis prepared) ∨
        (∃ finalizedAt, label = .close finalizedAt) →
      state.preemption.commitPrepared = some preemption →
      RecapStep hasher state.session label session →
      EngineStep state (.engine label) ((state.withSession session).withPreemption preemption)
  | commitUncontrolled {job label session} : state.worker = .inside job false →
      (∃ analysis prepared, label = .prepare analysis prepared) ∨
        (∃ finalizedAt, label = .close finalizedAt) →
      RecapStep hasher state.session label session →
      EngineStep state (.engine label) (state.withSession session)
  | preempted {job attempt} : state.worker = .inside job true →
      state.session.attempt = some attempt →
      (state.preemption.isCancelRequested = true ∧ attempt = .deciding) ∨
        ((state.preemption.cancel = true ∨ state.preemption.isCancelRequested = true) ∧
          ∃ start stop hash goal, attempt = .generating start stop hash goal) →
      EngineStep state .worker
        (state.leaveEngine.withWorker (Worker.afterEngine job true .preemptedBeforePrepared))
  | preemptedWaiting {job} : state.worker = .engaging job true →
      state.preemption.cancel = true →
      EngineStep state .worker
        (state.withWorker (Worker.afterEngine job true .preemptedBeforePrepared))
  | completed {job controlled} : state.worker = .inside job controlled →
      state.session.attempt = none → state.session.metadata.finalizedAt.isSome →
      EngineStep state .worker (state.withWorker (Worker.afterEngine job controlled .completed))
  | failed {job controlled} :
      state.worker = .engaging job controlled ∨ state.worker = .inside job controlled →
      EngineStep state .worker
        (state.leaveEngine.withWorker (Worker.afterEngine job controlled .failed))
  /-- Background processes end and claims are edited beside the attempt. -/
  | beside {label session} :
      (∃ seq item, label = .complete seq item) ∨ (∃ claims, label = .editClaims claims) →
      RecapStep hasher state.session label session →
      EngineStep state (.engine label) (state.withSession session)

/-- The steps of `worker_loop` and `run_job` around the engine. -/
inductive WorkerStep (state : TakeoverState Stamp History Message Item Hash) :
    TakeoverLabel Stamp Message Item → TakeoverState Stamp History Message Item Hash → Prop
  | claim {job} : state.gate = none → state.worker = .idle → job ∈ state.jobs →
      job.status = .queued → job.kind = .finalize state.session.metadata.id →
      WorkerStep state .worker
        { state with
          worker := .claimed job
          running := some (state.registrations + 1, job.id)
          registrations := state.registrations + 1
          preemption := .new
          resumeTarget := none }
  | start {job} (now : Stamp) : state.worker = .claimed job →
      WorkerStep state .worker
        ((state.withJobs (writeJob state.jobs (startedJob job now))).withWorker
          (.started (startedJob job now)))
  | defer {job} (message : Api.Text) (now : Stamp) : state.worker = .started job →
      WorkerStep state .worker
        ((state.withJobs (writeJob state.jobs (deferredJob job message now))).withWorker
          (.deferring (deferredJob job message now)))
  | deferred {job} (message : Api.Text) : state.worker = .deferring job →
      WorkerStep state .worker
        (((state.withPreemption state.preemption.finish).send (.failed message)).withWorker
          (.leaving job false))
  | count {job} : state.worker = .started job →
      WorkerStep state .worker
        ((state.withJobs (writeJob state.jobs (countedJob job))).withWorker
          (.engaging (countedJob job) true))
  | finish {job outcome} : state.worker = .returned job outcome →
      WorkerStep state .worker
        ((state.withPreemption state.preemption.finish).withWorker
          (.finished job outcome state.preemption.finish.finishedBeforePrepared))
  | completed {job beforePrepared} : state.worker = .finished job .completed beforePrepared →
      WorkerStep state .worker ((state.send .waitForFinalize).withWorker (.succeeding job))
  | failed {job beforePrepared} : state.worker = .finished job .failed beforePrepared →
      WorkerStep state .worker (state.withWorker (.failing job beforePrepared))
  | noTarget {job beforePrepared} :
      state.worker = .finished job .preemptedBeforePrepared beforePrepared → state.gate = none →
      state.resumeTarget = none →
      WorkerStep state .worker (state.withWorker (.leaving job true))
  | converted {job beforePrepared recapEndIndex metadata} (now : Stamp) :
      state.worker = .finished job .preemptedBeforePrepared beforePrepared → state.gate = none →
      state.resumeTarget = some recapEndIndex →
      state.session.metadata.markOpenAfterFinalizeTakeover = .ok metadata →
      WorkerStep state .worker
        ((((state.withJobs (writeJob state.jobs
              (convertedRecapJob job state.session.metadata.id recapEndIndex now))).reopen
            metadata).send .opened).withWorker (.leaving job false))
  | notConverted {job beforePrepared recapEndIndex} (message : Api.Text) (now : Stamp) :
      state.worker = .finished job .preemptedBeforePrepared beforePrepared → state.gate = none →
      state.resumeTarget = some recapEndIndex →
      WorkerStep state .worker
        (((state.withJobs (writeJob (writeJob state.jobs
              (convertedRecapJob job state.session.metadata.id recapEndIndex now)) job)).send
            (.failed message)).withWorker (.engaging job false))
  | conversionStayed {job beforePrepared recapEndIndex} (message : Api.Text) (now : Stamp) :
      state.worker = .finished job .preemptedBeforePrepared beforePrepared → state.gate = none →
      state.resumeTarget = some recapEndIndex →
      WorkerStep state .failedRestore
        (((state.withJobs (writeJob state.jobs
              (convertedRecapJob job state.session.metadata.id recapEndIndex now))).send
            (.failed message)).withWorker (.engaging job false))
  | succeed {job} (now : Stamp) : state.worker = .succeeding job →
      WorkerStep state .worker
        ((state.withJobs (writeJob state.jobs (succeededJob job now))).withWorker
          (.leaving (succeededJob job now) false))
  | fail {job beforePrepared} (message : Api.Text) (now : Stamp) :
      state.worker = .failing job beforePrepared →
      WorkerStep state .worker
        ((state.withJobs (writeJob state.jobs (applyJobAttemptFailure job message now))).withWorker
          (.reporting (applyJobAttemptFailure job message now) beforePrepared))
  | reportFinished {job} : state.worker = .reporting job true → state.gate = none →
      state.results state.registrations = [] →
      WorkerStep state .worker
        (((state.unregister job).send .attemptFinishedBeforePrepared).withWorker
          (.leaving job false))
  | reportFailed {job} (message : Api.Text) : state.worker = .reporting job false →
      state.results state.registrations = [] →
      WorkerStep state .worker ((state.send (.failed message)).withWorker (.leaving job false))
  | reported {job beforePrepared} : state.worker = .reporting job beforePrepared →
      state.results state.registrations ≠ [] →
      WorkerStep state .worker (state.withWorker (.leaving job false))
  /-- A job file that `run_job` could not write. -/
  | runnerError {job} :
      state.worker = .claimed job ∨ state.worker = .started job ∨ state.worker = .succeeding job ∨
        (∃ beforePrepared, state.worker = .failing job beforePrepared) →
      WorkerStep state .worker (state.withWorker (.leaving job true))
  | leave {job} : state.worker = .leaving job false → state.gate = none →
      WorkerStep state .worker ((state.unregister job).withWorker .idle)
  | leaveRecovered {job stored} (retryMessage exhaustedMessage message : Api.Text) (now : Stamp) :
      state.worker = .leaving job true → state.gate = none → stored ∈ state.jobs →
      stored.id = job.id →
      WorkerStep state .worker
        ((((state.withJobs (if stored.status = .running then
              writeJob state.jobs (recoverStaleRunningJob stored state.session.metadata.status
                retryMessage exhaustedMessage now)
            else state.jobs)).unregister job).send (.failed message)).withWorker .idle)
  | leaveUnrecovered {job} (message : Api.Text) : state.worker = .leaving job true →
      state.gate = none →
      WorkerStep state .worker (((state.unregister job).send (.failed message)).withWorker .idle)

/-- The steps of `resume_finalizing_takeover`. -/
inductive RequestStep (state : TakeoverState Stamp History Message Item Hash) :
    TakeoverLabel Stamp Message Item → TakeoverState Stamp History Message Item Hash → Prop
  | look (request : Nat) : state.gate = none → state.waiting request = none →
      RequestStep state (.look request) { state with gate := some (request, readLook state) }
  | fail {request look} : state.gate = some (request, look) →
      RequestStep state (.fail request) state.release
  | closed {request look} (now : Stamp) : state.gate = some (request, look) → look.isClosed →
      RequestStep state
        (.answer request (.reopenClosed (look.unresolved.head?.map SupervisorJob.id)))
        (state.withJobs (match look.unresolved.head? with
          | some job => writeJob state.jobs (reconciledClosedJob job now)
          | none => state.jobs)).release
  | opened {request look} : state.gate = some (request, look) → look.isOpen →
      RequestStep state (.answer request (.opened none)) state.release
  | orphanLocked {request look} : state.gate = some (request, look) → look.isFinalizing →
      look.unresolved = [] → state.session.attempt.isSome →
      RequestStep state (.answer request (.waitForFinalize none)) state.release
  | orphanCheckpoint {request look} (id agentId : Api.Text) (notifyOnCompletion : Bool)
      (now : Stamp) : state.gate = some (request, look) → look.isFinalizing →
      look.unresolved = [] → state.session.attempt = none → look.hasCheckpoint = true →
      RequestStep state (.answer request (.waitForFinalize (some id)))
        (state.withJobs (state.jobs ++ [createResumeRecoveryFinalizeJob id agentId
          look.metadata.id notifyOnCompletion now])).release
  | orphanOpened {request look metadata} (id agentId : Api.Text) (now : Stamp) :
      state.gate = some (request, look) → look.isFinalizing → look.unresolved = [] →
      state.session.attempt = none → look.hasCheckpoint = false →
      state.session.metadata.markOpenAfterFinalizeTakeover = .ok metadata →
      RequestStep state
        (.answer request (.opened
          (if look.metadata.recappedUntil < look.metadata.messageCount then some id else none)))
        ((state.withJobs
          (if look.metadata.recappedUntil < look.metadata.messageCount then
            state.jobs ++ [createRecapJob id agentId look.metadata.id look.metadata.messageCount now]
          else state.jobs)).reopen metadata).release
  | orphanNotOpened {request look} (id agentId : Api.Text) (notifyOnCompletion : Bool)
      (now : Stamp) : state.gate = some (request, look) → look.isFinalizing →
      look.unresolved = [] → state.session.attempt = none → look.hasCheckpoint = false →
      RequestStep state (.fail request)
        (state.withJobs
          (if look.metadata.recappedUntil < look.metadata.messageCount then
            state.jobs ++ [recapJobAsFinalizeRecovery
              (createRecapJob id agentId look.metadata.id look.metadata.messageCount now)
              look.metadata.id notifyOnCompletion now]
          else state.jobs)).release
  | checkpointed {request look job} (now : Stamp) : state.gate = some (request, look) →
      look.isFinalizing → look.unresolved = [job] → look.hasCheckpoint = true →
      RequestStep state (.answer request (.waitForFinalize (some job.id)))
        (state.withJobs
          (if (recoveredUnregistered state look job now).status = .failed then
            writeJob state.jobs (resetFinalizeJobForResumeRecovery
              (recoveredUnregistered state look job now) now)
          else if job.status = .running ∧ state.runningOf job = none then
            writeJob state.jobs (recoveredUnregistered state look job now)
          else state.jobs)).release
  /-- The worker was already past its checkpoint. -/
  | tooLate {request look job running} : state.gate = some (request, look) →
      look.isFinalizing → look.unresolved = [job] → look.hasCheckpoint = false →
      state.runningOf job = some running → state.preemption.requestBeforePrepared.2 = false →
      state.preemption.finishedBeforePrepared = false →
      RequestStep state (.answer request (.waitForFinalize (some job.id)))
        { state with resumeTarget := some look.metadata.messageCount, gate := none }
  | wait {request look job running} : state.gate = some (request, look) →
      look.isFinalizing → look.unresolved = [job] → look.hasCheckpoint = false →
      state.runningOf job = some running →
      state.preemption.requestBeforePrepared.2 = true ∨
        state.preemption.finishedBeforePrepared = true →
      RequestStep state (.wait request)
        ({ state with
          resumeTarget := some look.metadata.messageCount
          preemption := state.preemption.requestBeforePrepared.1
          gate := none }.setWaiting request (some
            ⟨running.1, (state.results running.1).length, look.metadata.messageCount, job.id⟩))
  | converted {request look job metadata} (now : Stamp) : state.gate = some (request, look) →
      look.isFinalizing → look.unresolved = [job] → look.hasCheckpoint = false →
      state.runningOf job = none →
      (recoveredUnregistered state look job now).status = .queued ∨
        (recoveredUnregistered state look job now).status = .failed →
      state.session.metadata.markOpenAfterFinalizeTakeover = .ok metadata →
      RequestStep state (.answer request (.opened (some job.id)))
        ((state.withJobs (writeJob state.jobs (convertedRecapJob
          (recoveredUnregistered state look job now) look.metadata.id
          look.metadata.messageCount now))).reopen metadata).release
  | notConverted {request look job} (now : Stamp) : state.gate = some (request, look) →
      look.isFinalizing → look.unresolved = [job] → look.hasCheckpoint = false →
      state.runningOf job = none →
      RequestStep state (.fail request)
        (state.withJobs (writeJob state.jobs (recoveredUnregistered state look job now))).release
  | conversionStayed {request look job} (now : Stamp) : state.gate = some (request, look) →
      look.isFinalizing → look.unresolved = [job] → look.hasCheckpoint = false →
      state.runningOf job = none →
      RequestStep state .failedRestore
        (state.withJobs (writeJob state.jobs (convertedRecapJob
          (recoveredUnregistered state look job now) look.metadata.id
          look.metadata.messageCount now))).release
  | resultOpened {request waiting} : state.waiting request = some waiting →
      waiting.seen < (state.results waiting.registration).length →
      (state.results waiting.registration).getLast? = some .opened →
      RequestStep state (.answer request (.opened (some waiting.jobId)))
        (state.setWaiting request none)
  | resultWait {request waiting} : state.waiting request = some waiting →
      waiting.seen < (state.results waiting.registration).length →
      (state.results waiting.registration).getLast? = some .waitForFinalize →
      RequestStep state (.answer request (.waitForFinalize (some waiting.jobId)))
        (state.setWaiting request none)
  | resultAgain {request waiting} : state.waiting request = some waiting →
      waiting.seen < (state.results waiting.registration).length →
      (state.results waiting.registration).getLast? = some .attemptFinishedBeforePrepared →
      RequestStep state (.again request) (state.setWaiting request none)
  /-- The attempt failed, or its channel is gone. -/
  | resultFailed {request waiting} : state.waiting request = some waiting →
      RequestStep state (.fail request) (state.setWaiting request none)

inductive TakeoverStep (state : TakeoverState Stamp History Message Item Hash)
    (label : TakeoverLabel Stamp Message Item)
    (next : TakeoverState Stamp History Message Item Hash) : Prop
  | engine : EngineStep hasher state label next → TakeoverStep state label next
  | worker : WorkerStep state label next → TakeoverStep state label next
  | request : RequestStep state label next → TakeoverStep state label next

end AgentClaimNetwork.Supervisor
