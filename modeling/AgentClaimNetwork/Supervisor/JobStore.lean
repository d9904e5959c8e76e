import AgentClaimNetwork.Library.Trace
import AgentClaimNetwork.Supervisor.Job

/-!
All jobs of the supervisor with all its sessions, from `src/supervisor.rs`.  A step makes one
durable write at most; a section under the lifecycle gate with several writes keeps it in `taking`.
-/

namespace AgentClaimNetwork.Supervisor

open Library Session

/-- Where the worker stands, with its own copy of the job. -/
inductive JobWorker (Stamp : Type)
  | booting
  | idle
  | claimed (job : SupervisorJob Stamp)
  | started (job : SupervisorJob Stamp)
  | engaged (job : SupervisorJob Stamp)
  | preempted (job : SupervisorJob Stamp)
  | handing (job : SupervisorJob Stamp)
  | completed (job : SupervisorJob Stamp)
  | failed (job : SupervisorJob Stamp)
  | leaving (job : SupervisorJob Stamp) (runnerError : Bool)

/-- A takeover that holds the lifecycle gate between its writes; `executed` is how often the
job had been executed before its conversion. -/
inductive Taking (Stamp : Type)
  | converting (original : SupervisorJob Stamp) (sessionId : Api.Text) (executed : Nat)
      (byWorker : Bool)
  | orphan (sessionId : Api.Text) (recap : Option (SupervisorJob Stamp))
  | opened (sessionId : Api.Text) (byWorker : Bool)

structure StoreState (Stamp : Type) where
  jobs : List (SupervisorJob Stamp)
  status : Api.Text → SessionStatus
  worker : JobWorker Stamp
  /-- The job in `running_finalize`. -/
  registered : Option Api.Text
  taking : Option (Taking Stamp)
  /-- The finalization of the session was accepted and no takeover has answered since. -/
  accepted : Api.Text → Bool
  /-- How often a job was executed since its last reset. -/
  executions : Api.Text → Nat

inductive StoreLabel
  | client
  | accept (sessionId : Api.Text)
  | answer (sessionId : Api.Text)
  | execute (jobId : Api.Text)
  | worker
  | crash

variable {Stamp : Type}

namespace StoreState

def write (state : StoreState Stamp) (job : SupervisorJob Stamp) : StoreState Stamp :=
  { state with jobs := writeJob state.jobs job }

def create (state : StoreState Stamp) (job : SupervisorJob Stamp) : StoreState Stamp :=
  { state with jobs := state.jobs ++ [job] }

section

variable (state : StoreState Stamp)

def setStatus (sessionId : Api.Text) (status : SessionStatus) : StoreState Stamp :=
  { state with
    status := fun other => if other = sessionId then status else state.status other }

def setExecutions (jobId : Api.Text) (count : Nat) : StoreState Stamp :=
  { state with
    executions := fun other => if other = jobId then count else state.executions other }

def setAccepted (sessionId : Api.Text) (accepted : Bool) : StoreState Stamp :=
  { state with
    accepted := fun other => if other = sessionId then accepted else state.accepted other }

def withWorker (worker : JobWorker Stamp) : StoreState Stamp :=
  { state with worker := worker }

def take (taking : Option (Taking Stamp)) : StoreState Stamp :=
  { state with taking := taking }

end

variable (state : StoreState Stamp)

def register (registered : Option Api.Text) : StoreState Stamp :=
  { state with registered := registered }

def gateFree : Prop :=
  state.taking = none ∧ state.worker ≠ .booting

def fresh (id : Api.Text) : Prop :=
  ∀ job ∈ state.jobs, job.id ≠ id

def recovered (job : SupervisorJob Stamp) (retryMessage exhaustedMessage : Api.Text) (now : Stamp) :
    SupervisorJob Stamp :=
  recoverStaleRunningJob job (state.status (jobSessionIdRef job)) retryMessage exhaustedMessage now

end StoreState

/-- The requests, each under the lifecycle gate, and the sessions' own finalization marks. -/
inductive ClientStep (state : StoreState Stamp) : StoreLabel → StoreState Stamp → Prop
  | markFinalizing {sessionId} : state.status sessionId = .opened →
      ClientStep state .client (state.setStatus sessionId .finalizing)
  | enqueueFinalize {sessionId} (id agentId : Api.Text) (notifyOnCompletion : Bool) (now : Stamp) :
      state.gateFree → state.status sessionId = .finalizing →
      unresolvedFinalizeJobs state.jobs sessionId = [] → state.fresh id →
      ClientStep state .client
        (state.create (createFinalizeJob id agentId sessionId notifyOnCompletion now))
  /-- The answer to `EnqueueFinalize`, for a new job and for one that is there. -/
  | enqueued {sessionId job} : state.gateFree → state.status sessionId = .finalizing →
      unresolvedFinalizeJobs state.jobs sessionId = [job] →
      job.status = .queued ∨ job.status = .running →
      ClientStep state (.accept sessionId) (state.setAccepted sessionId true)
  | enqueueRecap (id agentId sessionId : Api.Text) (recapEndIndex : Nat) (now : Stamp) :
      state.gateFree → state.fresh id →
      ClientStep state .client
        (state.create (createRecapJob id agentId sessionId recapEndIndex now))
  | retry {sessionId job} (now : Stamp) : state.gateFree → state.status sessionId = .finalizing →
      job ∈ state.jobs → job.kind = .finalize sessionId → job.status = .failed →
      ClientStep state .client
        ((state.write (retriedFinalizeJob job now)).setExecutions job.id 0)
  | retryOrphan {sessionId} (id agentId : Api.Text) (notifyOnCompletion : Bool) (now : Stamp) :
      state.gateFree → state.status sessionId = .finalizing →
      unresolvedFinalizeJobs state.jobs sessionId = [] → state.fresh id →
      ClientStep state .client
        (state.create (createRecoveryFinalizeJob id agentId sessionId notifyOnCompletion now))
  | resumeClosed {sessionId job} (now : Stamp) : state.gateFree →
      state.status sessionId = .closed → unresolvedFinalizeJobs state.jobs sessionId = [job] →
      ClientStep state .client (state.write (reconciledClosedJob job now))
  | orphanCheckpoint {sessionId} (id agentId : Api.Text) (notifyOnCompletion : Bool)
      (now : Stamp) : state.gateFree → state.status sessionId = .finalizing →
      unresolvedFinalizeJobs state.jobs sessionId = [] → state.fresh id →
      ClientStep state .client
        (state.create
          (createResumeRecoveryFinalizeJob id agentId sessionId notifyOnCompletion now))
  | orphanRecap {sessionId} (id agentId : Api.Text) (recapEndIndex : Nat) (now : Stamp) :
      state.gateFree → state.status sessionId = .finalizing →
      unresolvedFinalizeJobs state.jobs sessionId = [] → state.fresh id →
      ClientStep state .client
        ((state.create (createRecapJob id agentId sessionId recapEndIndex now)).take
          (some (.orphan sessionId (some (createRecapJob id agentId sessionId recapEndIndex now)))))
  | orphanNoRecap {sessionId} : state.gateFree → state.status sessionId = .finalizing →
      unresolvedFinalizeJobs state.jobs sessionId = [] →
      ClientStep state .client (state.take (some (.orphan sessionId none)))
  | orphanOpened {sessionId recap} : state.taking = some (.orphan sessionId recap) →
      state.status sessionId = .finalizing →
      ClientStep state .client
        ((state.setStatus sessionId .opened).take (some (.opened sessionId false)))
  | orphanNotOpened {sessionId recap} (notifyOnCompletion : Bool) (now : Stamp) :
      state.taking = some (.orphan sessionId recap) →
      ClientStep state .client
        ((match recap with
          | some job =>
            state.write (recapJobAsFinalizeRecovery job sessionId notifyOnCompletion now)
          | none => state).take none)
  | resumeRecovered {sessionId job} (retryMessage exhaustedMessage : Api.Text) (now : Stamp) :
      state.gateFree → state.status sessionId = .finalizing →
      unresolvedFinalizeJobs state.jobs sessionId = [job] → job.status = .running →
      state.registered ≠ some job.id →
      ClientStep state .client
        (state.write (state.recovered job retryMessage exhaustedMessage now))
  | resumeReset {sessionId job} (now : Stamp) : state.gateFree →
      state.status sessionId = .finalizing →
      unresolvedFinalizeJobs state.jobs sessionId = [job] → job.status = .failed →
      ClientStep state .client
        ((state.write (resetFinalizeJobForResumeRecovery job now)).setExecutions job.id 0)
  | convert {sessionId job} (recapEndIndex : Nat) (now : Stamp) : state.gateFree →
      state.status sessionId = .finalizing →
      unresolvedFinalizeJobs state.jobs sessionId = [job] → state.registered ≠ some job.id →
      job.status = .queued ∨ job.status = .failed →
      ClientStep state .client
        (((state.write (convertedRecapJob job sessionId recapEndIndex now)).setExecutions
          job.id 0).take
            (some (.converting job sessionId (state.executions job.id) false)))

/-- The two ends of `convert_finalize_job_and_open` and its answer. -/
inductive TakingStep (state : StoreState Stamp) : StoreLabel → StoreState Stamp → Prop
  | opened {original sessionId executed byWorker} :
      state.taking = some (.converting original sessionId executed byWorker) →
      state.status sessionId = .finalizing →
      TakingStep state .client
        ((state.setStatus sessionId .opened).take (some (.opened sessionId byWorker)))
  | restored {original sessionId executed byWorker} :
      state.taking = some (.converting original sessionId executed byWorker) →
      TakingStep state .client
        ((((state.write original).setExecutions original.id executed).take none).withWorker
          -- the attempt goes on
          (if byWorker then .engaged original else state.worker))
  | answered {sessionId byWorker} : state.taking = some (.opened sessionId byWorker) →
      TakingStep state (.answer sessionId)
        (((state.setAccepted sessionId false).take none).withWorker
          (match byWorker, state.worker with
          | true, .handing job => .leaving job false
          | _, worker => worker))

/-- `worker_loop` and `run_job`. -/
inductive JobWorkerStep (state : StoreState Stamp) : StoreLabel → StoreState Stamp → Prop
  | claim {job} : state.taking = none → state.worker = .idle → job ∈ state.jobs →
      job.status = .queued →
      JobWorkerStep state .worker
        ((state.withWorker (.claimed job)).register
          ((finalizeJobSessionId job).map fun _ => job.id))
  | start {job} (now : Stamp) : state.worker = .claimed job →
      JobWorkerStep state .worker
        ((state.write (startedJob job now)).withWorker (.started (startedJob job now)))
  | defer {job} (message : Api.Text) (now : Stamp) : state.worker = .started job →
      JobWorkerStep state .worker
        ((state.write (deferredJob job message now)).withWorker
          (.leaving (deferredJob job message now) false))
  | execute {job} : state.worker = .started job →
      JobWorkerStep state (.execute job.id)
        (((state.write (countedJob job)).setExecutions job.id
          (state.executions job.id + 1)).withWorker (.engaged (countedJob job)))
  /-- The attempt closes its session. -/
  | close {job sessionId} : state.worker = .engaged job → job.kind = .finalize sessionId →
      state.status sessionId = .finalizing →
      JobWorkerStep state .worker
        ((state.setStatus sessionId .closed).withWorker (.completed job))
  | complete {job} : state.worker = .engaged job →
      (∀ sessionId, job.kind = .finalize sessionId → state.status sessionId = .closed) →
      JobWorkerStep state .worker (state.withWorker (.completed job))
  | fail {job} : state.worker = .engaged job →
      JobWorkerStep state .worker (state.withWorker (.failed job))
  | giveWay {job sessionId} : state.worker = .engaged job → job.kind = .finalize sessionId →
      JobWorkerStep state .worker (state.withWorker (.preempted job))
  | convert {job sessionId} (recapEndIndex : Nat) (now : Stamp) : state.taking = none →
      state.worker = .preempted job → job.kind = .finalize sessionId →
      JobWorkerStep state .worker
        ((((state.write (convertedRecapJob job sessionId recapEndIndex now)).setExecutions
          job.id 0).take (some (.converting job sessionId (state.executions job.id) true))).withWorker
            (.handing job))
  | succeed {job} (now : Stamp) : state.worker = .completed job →
      JobWorkerStep state .worker
        ((state.write (succeededJob job now)).withWorker (.leaving (succeededJob job now) false))
  | failed {job} (message : Api.Text) (now : Stamp) : state.worker = .failed job →
      JobWorkerStep state .worker
        ((state.write (applyJobAttemptFailure job message now)).withWorker
          (.leaving (applyJobAttemptFailure job message now) false))
  | runnerError {job} :
      state.worker = .claimed job ∨ state.worker = .started job ∨ state.worker = .preempted job ∨
        state.worker = .completed job ∨ state.worker = .failed job →
      JobWorkerStep state .worker (state.withWorker (.leaving job true))
  /-- `AttemptFinishedBeforePrepared`. -/
  | unregister {job runnerError} : state.taking = none → state.worker = .leaving job runnerError →
      JobWorkerStep state .worker (state.register none)
  | recover {job stored} (retryMessage exhaustedMessage : Api.Text) (now : Stamp) :
      state.taking = none → state.worker = .leaving job true → stored ∈ state.jobs →
      stored.id = job.id → stored.status = .running →
      JobWorkerStep state .worker
        (((state.write (state.recovered stored retryMessage exhaustedMessage now)).register
          none).withWorker .idle)
  | leave {job runnerError} : state.taking = none → state.worker = .leaving job runnerError →
      JobWorkerStep state .worker ((state.register none).withWorker .idle)

/-- A crash, and `reconcile_stale_running_jobs` of the next start. -/
inductive RestartStep (state : StoreState Stamp) : StoreLabel → StoreState Stamp → Prop
  | crash :
      RestartStep state .crash (((state.register none).take none).withWorker .booting)
  | reconcile {job} (retryMessage exhaustedMessage : Api.Text) (now : Stamp) :
      state.worker = .booting → state.taking = none → job ∈ state.jobs → job.status = .running →
      RestartStep state .worker
        (state.write (state.recovered job retryMessage exhaustedMessage now))
  | booted : state.worker = .booting → (∀ job ∈ state.jobs, job.status ≠ .running) →
      RestartStep state .worker (state.withWorker .idle)

inductive StoreStep (state : StoreState Stamp) (label : StoreLabel) (next : StoreState Stamp) :
    Prop
  | client : ClientStep state label next → StoreStep state label next
  | taking : TakingStep state label next → StoreStep state label next
  | worker : JobWorkerStep state label next → StoreStep state label next
  | restart : RestartStep state label next → StoreStep state label next

end AgentClaimNetwork.Supervisor
