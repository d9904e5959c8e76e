import AgentClaimNetwork.Supervisor.Takeover
import AgentClaimNetwork.Session.RecapOnce

/-!
What holds of the worker, its job and the requests while the finalization of a session is not
over, and what the worker's own steps keep of it.
-/

namespace AgentClaimNetwork.Supervisor

open Library Session

variable {Stamp History Message Item Hash : Type}

section

theorem hasCheckpoint_iff {session : RecapState Stamp History Message Item Hash} :
    hasCheckpoint session = true ↔
      ∃ checkpoint, session.checkpoint = some checkpoint ∧ coversPending session checkpoint := by
  unfold hasCheckpoint coversPending
  cases session.checkpoint with
  | none => simp
  | some checkpoint => simp

variable {session next : RecapState Stamp History Message Item Hash}

theorem hasCheckpoint_congr (checkpoint : next.checkpoint = session.checkpoint)
    (recappedUntil : next.metadata.recappedUntil = session.metadata.recappedUntil)
    (messageCount : next.metadata.messageCount = session.metadata.messageCount) :
    hasCheckpoint next = hasCheckpoint session := by
  unfold hasCheckpoint
  rw [checkpoint, recappedUntil, messageCount]

theorem hasCheckpoint_kept
    (covered : hasCheckpoint session = true) (checkpoint : next.checkpoint = session.checkpoint)
    (recappedUntil : next.metadata.recappedUntil = session.metadata.recappedUntil)
    (messageCount : next.metadata.messageCount = session.metadata.messageCount) :
    hasCheckpoint next = true :=
  (hasCheckpoint_congr checkpoint recappedUntil messageCount).trans covered

def GoalHeld (metadata : SessionMetadata Stamp History) : AttemptGoal → Prop
  | .recap _ => False
  | .recoverPrefix recapEndIndex => recapEndIndex ≤ metadata.messageCount
  | .finalize messageCount _ => messageCount = metadata.messageCount

/-- What the holder of `finalize.lock` has read is still so. -/
def AttemptHeld (session : RecapState Stamp History Message Item Hash) : Attempt Hash → Prop
  | .deciding => True
  | .generating start stop _ goal =>
    start = session.metadata.recappedUntil ∧ stop = session.metadata.messageCount ∧
      GoalHeld session.metadata goal
  | .reviewing checkpoint goal | .writing checkpoint goal | .recording checkpoint goal =>
    hasCheckpoint session = true ∧ coversPending session checkpoint ∧
      GoalHeld session.metadata goal
  | .finishing goal => hasCheckpoint session = true ∧ GoalHeld session.metadata goal

structure EngineHeld (session : RecapState Stamp History Message Item Hash) : Prop where
  bounded : session.metadata.recappedUntil ≤ session.metadata.messageCount
  attempt : ∀ attempt, session.attempt = some attempt → AttemptHeld session attempt

/-- A step of the engine keeps the pending range covered until it is recapped. -/
structure EngineEffect (session next : RecapState Stamp History Message Item Hash) : Prop where
  held : EngineHeld next
  id : next.metadata.id = session.metadata.id
  messageCount : next.metadata.messageCount = session.metadata.messageCount
  grows : session.metadata.recappedUntil ≤ next.metadata.recappedUntil
  covered : hasCheckpoint session = true →
    next.metadata.recappedUntil = session.metadata.recappedUntil → hasCheckpoint next = true
  status : (next.metadata.status = session.metadata.status ∧
      next.metadata.closedAt = session.metadata.closedAt ∧
      next.metadata.finalizedAt = session.metadata.finalizedAt) ∨
    (next.metadata.status = .closed ∧ next.metadata.finalizedAt.isSome ∧ next.attempt = none)

variable {session next : RecapState Stamp History Message Item Hash}

theorem EngineEffect.still (held : EngineHeld session) (metadata : next.metadata = session.metadata)
    (checkpoint : next.checkpoint = session.checkpoint)
    (attempt : ∀ attempt, next.attempt = some attempt → AttemptHeld next attempt) :
    EngineEffect session next where
  held := ⟨by rw [metadata]; exact held.bounded, attempt⟩
  id := by rw [metadata]
  messageCount := by rw [metadata]
  grows := by rw [metadata]
  covered := fun covered _ =>
    hasCheckpoint_kept covered checkpoint (by rw [metadata]) (by rw [metadata])
  status := .inl (by simp [metadata])

variable {attempt : Attempt Hash}

theorem AttemptHeld.congr (held : AttemptHeld session attempt)
    (metadata : next.metadata = session.metadata)
    (covered : hasCheckpoint session = true → hasCheckpoint next = true) :
    AttemptHeld next attempt := by
  cases attempt with
  | deciding => trivial
  | generating start stop hash goal =>
    simp only [AttemptHeld] at held ⊢
    rw [metadata]
    exact held
  | reviewing checkpoint goal | writing checkpoint goal | recording checkpoint goal =>
    simp only [AttemptHeld, coversPending] at held ⊢
    rw [metadata]
    exact ⟨covered held.1, held.2⟩
  | finishing goal =>
    simp only [AttemptHeld] at held ⊢
    rw [metadata]
    exact ⟨covered held.1, held.2⟩

theorem EngineEffect.written (held : EngineHeld session) (metadata : next.metadata = session.metadata)
    (covered : hasCheckpoint next = true)
    (attempt : ∀ attempt, next.attempt = some attempt → AttemptHeld next attempt) :
    EngineEffect session next where
  held := ⟨by rw [metadata]; exact held.bounded, attempt⟩
  id := by rw [metadata]
  messageCount := by rw [metadata]
  grows := by rw [metadata]
  covered := fun _ _ => covered
  status := .inl (by simp [metadata])

theorem discard_covers (current : List Claim) (covers : coversPending session checkpoint) :
    coversPending session (discardStaleFinalizeCheckpoint checkpoint current).1 := by
  unfold discardStaleFinalizeCheckpoint
  simp only
  split
  · exact covers
  · exact covers

def isEngine : RecapLabel Stamp Message Item → Prop
  | .complete _ _ | .editClaims _ | .beginFinalize | .decide | .close _ | .prepare _ _ | .review
  | .writeClaim | .record | .apply | .finish _ => True
  | _ => False

theorem prepare_effect {hash : Hash} (held : EngineHeld session)
    (generating : session.attempt = some (.generating start stop hash goal))
    (starts : checkpoint.recapStartIndex = start) (stops : checkpoint.recapEndIndex = stop) :
    EngineEffect session
      { session with
        checkpoint := some checkpoint
        attempt := some (.reviewing checkpoint goal)
        generations := generations } := by
  obtain ⟨atCursor, atCount, fits⟩ := held.attempt _ generating
  have bounded := held.bounded
  have covers : coversPending session checkpoint := by
    unfold coversPending finalizeCheckpointCoversPendingRange
    omega
  have onDisk : hasCheckpoint { session with
        checkpoint := some checkpoint
        attempt := some (.reviewing checkpoint goal)
        generations := generations } = true :=
    hasCheckpoint_iff.mpr ⟨checkpoint, rfl, covers⟩
  refine EngineEffect.written held rfl onDisk ?_
  intro attempt now
  cases now
  exact ⟨onDisk, covers, fits⟩

theorem review_effect
    (held : EngineHeld session) (reviewing : session.attempt = some (.reviewing checkpoint goal)) :
    EngineEffect session
      { session with
        checkpoint :=
          if (discardStaleFinalizeCheckpoint checkpoint session.claims).2 then
            some (discardStaleFinalizeCheckpoint checkpoint session.claims).1
          else session.checkpoint
        attempt := some
          (.writing (discardStaleFinalizeCheckpoint checkpoint session.claims).1 goal) } := by
  obtain ⟨covered, covers, fits⟩ := held.attempt _ reviewing
  have kept := discard_covers session.claims covers
  have onDisk : hasCheckpoint { session with
        checkpoint :=
          if (discardStaleFinalizeCheckpoint checkpoint session.claims).2 then
            some (discardStaleFinalizeCheckpoint checkpoint session.claims).1
          else session.checkpoint
        attempt := some
          (.writing (discardStaleFinalizeCheckpoint checkpoint session.claims).1 goal) } = true := by
    by_cases rewritten : (discardStaleFinalizeCheckpoint checkpoint session.claims).2
    · exact hasCheckpoint_iff.mpr ⟨_, if_pos rewritten, kept⟩
    · exact hasCheckpoint_kept covered (if_neg rewritten) rfl rfl
  refine EngineEffect.written held rfl onDisk ?_
  intro attempt now
  cases now
  exact ⟨onDisk, kept, fits⟩

theorem finish_effect (finalizedAt : Stamp) (held : EngineHeld session)
    (finishing : session.attempt = some (.finishing goal)) :
    EngineEffect session
      { session with
        metadata := finishGoal session.metadata finalizedAt goal
        attempt := afterGoal goal } := by
  obtain ⟨covered, fits⟩ := held.attempt _ finishing
  have bounded := held.bounded
  cases goal with
  | recap recapEndIndex => exact fits.elim
  | recoverPrefix recapEndIndex =>
    exact
      { held := ⟨max_le bounded fits, fun attempt now => by cases now; trivial⟩
        id := rfl
        messageCount := rfl
        grows := le_max_left _ _
        covered := fun _ same => hasCheckpoint_kept covered rfl same rfl
        status := .inl ⟨rfl, rfl, rfl⟩ }
  | finalize messageCount seq =>
    have atCount : messageCount = session.metadata.messageCount := fits
    exact
      { held := ⟨max_le bounded atCount.le, fun attempt now => by cases now⟩
        id := rfl
        messageCount := rfl
        grows := le_max_left _ _
        covered := fun _ same => hasCheckpoint_kept covered rfl same rfl
        status := .inr ⟨rfl, rfl, rfl⟩ }

variable [DecidableEq Hash]

theorem enterSegment_held
    (bounded : session.metadata.recappedUntil ≤ session.metadata.messageCount)
    (fits : GoalHeld session.metadata goal)
    (entered : enterSegment hasher session session.metadata.recappedUntil
      session.metadata.messageCount background goal = some attempt) :
    AttemptHeld session attempt := by
  unfold enterSegment at entered
  cases found : session.checkpoint with
  | none =>
    rw [found] at entered
    cases entered
    exact ⟨rfl, rfl, fits⟩
  | some checkpoint =>
    simp only [found] at entered
    split at entered
    case isFalse =>
      cases entered
      exact ⟨rfl, rfl, fits⟩
    case isTrue same =>
      have covers : coversPending session checkpoint := by
        unfold coversPending finalizeCheckpointCoversPendingRange
        omega
      split at entered
      · split at entered
        · cases entered
          exact ⟨hasCheckpoint_iff.mpr ⟨checkpoint, found, covers⟩, covers, fits⟩
        · cases entered
          exact ⟨hasCheckpoint_iff.mpr ⟨checkpoint, found, covers⟩, fits⟩
      · split at entered
        · cases entered
        · cases entered
          exact ⟨rfl, rfl, fits⟩

theorem recoverPrefix_held :
    AttemptHeld session (recoverPrefix hasher session) := by
  unfold recoverPrefix
  cases found : session.checkpoint with
  | none => trivial
  | some checkpoint =>
    simp only
    split
    case isFalse => trivial
    case isTrue covered =>
      have covers : coversPending session checkpoint := covered.1
      have onDisk := hasCheckpoint_iff.mpr ⟨checkpoint, found, covers⟩
      split
      · exact ⟨onDisk, covers, covers.2.2⟩
      · exact ⟨onDisk, covers.2.2⟩

theorem engine_effect {label : RecapLabel Stamp Message Item} (held : EngineHeld session)
    (taken : RecapStep hasher session label next) (engine : isEngine label) :
    EngineEffect session next := by
  cases taken with
  | append | markFinalizing | reopen | takeover | stop | beginRecap => exact engine.elim
  | complete | editClaims =>
    exact EngineEffect.still held rfl rfl fun attempt now => (held.attempt attempt now).congr rfl id
  | beginFinalize =>
    refine EngineEffect.still held rfl rfl fun attempt now => ?_
    cases now
    exact (recoverPrefix_held).congr rfl id
  | decide =>
    refine EngineEffect.still held rfl rfl fun attempt now => ?_
    have entered : enterSegment hasher session _ _ _ _ = some attempt := now
    refine (enterSegment_held held.bounded ?_ entered).congr rfl id
    exact Eq.refl session.metadata.messageCount
  | close =>
    exact
      { held := ⟨held.bounded, fun attempt now => by cases now⟩
        id := rfl
        messageCount := rfl
        grows := le_rfl
        covered := fun covered _ => hasCheckpoint_kept covered rfl rfl rfl
        status := .inr ⟨rfl, rfl, rfl⟩ }
  | prepare analysis prepared generating => exact prepare_effect held generating rfl rfl
  | review reviewing => exact review_effect held reviewing
  | writeClaim writing =>
    refine EngineEffect.still held rfl rfl fun attempt now => ?_
    cases now
    exact held.attempt _ writing
  | record recording =>
    obtain ⟨_, covers, fits⟩ := held.attempt _ recording
    refine EngineEffect.written held rfl (hasCheckpoint_iff.mpr ⟨_, rfl, covers⟩) ?_
    intro attempt now
    cases now
    exact ⟨hasCheckpoint_iff.mpr ⟨_, rfl, covers⟩, covers, fits⟩
  | apply writing =>
    obtain ⟨_, covers, fits⟩ := held.attempt _ writing
    refine EngineEffect.written held rfl (hasCheckpoint_iff.mpr ⟨_, rfl, covers⟩) ?_
    intro attempt now
    cases now
    exact ⟨hasCheckpoint_iff.mpr ⟨_, rfl, covers⟩, fits⟩
  | finish finalizedAt finishing => exact finish_effect finalizedAt held finishing

end

section

variable {Stamp : Type} {id sessionId : Api.Text} {job : SupervisorJob Stamp}

structure Unresolved (id sessionId : Api.Text) (job : SupervisorJob Stamp) : Prop where
  id : job.id = id
  kind : job.kind = .finalize sessionId
  status : job.status ≠ .succeeded

theorem writeJob_single (same : job.id = stored.id) : writeJob [stored] job = [job] := by
  simp [writeJob, same]

section

variable (unresolved : Unresolved id sessionId job)
include unresolved

theorem Unresolved.selected : unresolvedFinalizeJobs [job] sessionId = [job] := by
  simp [unresolvedFinalizeJobs, finalizeJobSessionId, unresolved.kind, unresolved.status]

theorem Unresolved.started (now : Stamp) : Unresolved id sessionId (startedJob job now) :=
  ⟨unresolved.id, unresolved.kind, (nomatch ·)⟩

theorem Unresolved.deferred (message : Api.Text)
    (now : Stamp) : Unresolved id sessionId (deferredJob job message now) :=
  ⟨unresolved.id, unresolved.kind, (nomatch ·)⟩

theorem Unresolved.counted : Unresolved id sessionId (countedJob job) :=
  ⟨unresolved.id, unresolved.kind, unresolved.status⟩

theorem Unresolved.reset :
    Unresolved id sessionId (resetFinalizeJobForResumeRecovery job now) :=
  ⟨unresolved.id, unresolved.kind, (nomatch ·)⟩

theorem Unresolved.attemptFailed (message : Api.Text)
    (now : Stamp) : Unresolved id sessionId (applyJobAttemptFailure job message now) := by
  unfold applyJobAttemptFailure
  split
  all_goals exact ⟨unresolved.id, unresolved.kind, (nomatch ·)⟩

theorem Unresolved.recovered (retryMessage exhaustedMessage : Api.Text) (now : Stamp) :
    Unresolved id sessionId
      (recoverStaleRunningJob job .finalizing retryMessage exhaustedMessage now) := by
  unfold recoverStaleRunningJob
  rw [unresolved.kind]
  simp only
  split
  all_goals exact ⟨unresolved.id, rfl, (nomatch ·)⟩

end

end

def Worker.job? : Worker Stamp → Option (SupervisorJob Stamp)
  | .idle => none
  | .claimed job | .started job | .deferring job | .engaging job _ | .inside job _
  | .returned job _ | .finished job _ _ | .succeeding job | .failing job _ | .reporting job _
  | .leaving job _ => some job

/-- The attempt has not taken `finalize.lock`, and listens to its control. -/
def Worker.isEarly : Worker Stamp → Bool
  | .claimed _ | .started _ | .deferring _ | .engaging _ true => true
  | _ => false

def Worker.isLate : Worker Stamp → Bool
  | .engaging _ false | .failing _ _ | .reporting _ _ => true
  | _ => false

def Listening (phase : SessionRecapPreemptionPhase) : Prop :=
  phase = .cancelable ∨ phase = .cancelRequested ∨ phase = .prepared

def Finished (phase : SessionRecapPreemptionPhase) : Prop :=
  phase = .finishedBeforePrepared ∨ phase = .finishedAfterPrepared

/-- What the stage of the worker says while the session is finalizing. -/
inductive StageSound (session : RecapState Stamp History Message Item Hash)
    (running : Option (Nat × Api.Text)) (phase : SessionRecapPreemptionPhase)
    (resumeTarget : Option Nat) : Worker Stamp → Prop
  | idle : session.attempt = none → running = none → StageSound session running phase resumeTarget .idle
  | early {worker} : worker.isEarly = true → session.attempt = none → running.isSome →
      phase = .cancelable ∨ phase = .cancelRequested →
      StageSound session running phase resumeTarget worker
  | inside {job} : running.isSome → Listening phase →
      (phase ≠ .prepared → hasCheckpoint session = false) →
      StageSound session running phase resumeTarget (.inside job true)
  | alone {job} : running.isSome → Finished phase →
      StageSound session running phase resumeTarget (.inside job false)
  | returned {job outcome} : session.attempt = none → running.isSome → Listening phase →
      outcome ≠ .completed → (outcome = .preemptedBeforePrepared → phase = .cancelRequested) →
      StageSound session running phase resumeTarget (.returned job outcome)
  | finished {job outcome beforePrepared} : session.attempt = none → running.isSome →
      Finished phase → outcome ≠ .completed →
      (outcome = .preemptedBeforePrepared → hasCheckpoint session = false ∧
        resumeTarget = some session.metadata.messageCount) →
      StageSound session running phase resumeTarget (.finished job outcome beforePrepared)
  | late {worker} : worker.isLate = true → session.attempt = none → running.isSome →
      Finished phase → StageSound session running phase resumeTarget worker
  | leaving {job} : session.attempt = none →
      StageSound session running phase resumeTarget (.leaving job false)
  | broken {job} : session.attempt = none → running.isSome →
      StageSound session running phase resumeTarget (.leaving job true)

/-- What a request has read and still may rely on. -/
structure LookSound (id : Api.Text) (state : TakeoverState Stamp History Message Item Hash)
    (look : Look Stamp History) : Prop where
  messageCount : look.metadata.messageCount = state.session.metadata.messageCount
  sessionId : look.metadata.id = state.session.metadata.id
  status : look.metadata.status = .finalizing
  job : ∃ read, look.jobs = [read] ∧ Unresolved id state.session.metadata.id read
  absent : look.hasCheckpoint = false →
    state.running = none ∨ state.preemption.phase = .cancelable →
    hasCheckpoint state.session = false

/-- The finalization is not over. -/
structure Live (id : Api.Text) (state : TakeoverState Stamp History Message Item Hash) :
    Prop where
  status : state.session.metadata.status = .finalizing
  closedAt : state.session.metadata.closedAt = none
  finalizedAt : state.session.metadata.finalizedAt = none
  held : EngineHeld state.session
  job : ∃ stored, state.jobs = [stored] ∧ Unresolved id state.session.metadata.id stored
  copy : ∀ job, state.worker.job? = some job → Unresolved id state.session.metadata.id job
  running : ∀ running, state.running = some running → running.2 = id
  requested : state.preemption.phase = .cancelRequested →
    hasCheckpoint state.session = false ∧
      state.resumeTarget = some state.session.metadata.messageCount
  cancelled : state.preemption.cancel = true → state.preemption.phase = .cancelRequested ∨
    state.preemption.phase = .finishedBeforePrepared
  stage : StageSound state.session state.running state.preemption.phase state.resumeTarget
    state.worker
  silent : ∀ registration, .opened ∉ state.results registration
  look : ∀ request look, state.gate = some (request, look) → LookSound id state look
  frozen : ∀ request waiting, state.waiting request = some waiting →
    waiting.recapEndIndex = state.session.metadata.messageCount

/-- A resume has taken the session over, and the attempt is gone. -/
structure Released (state : TakeoverState Stamp History Message Item Hash) : Prop where
  status : state.session.metadata.status = .opened
  attempt : state.session.attempt = none
  uncovered : hasCheckpoint state.session = false
  job : ∃ job, state.jobs = [job] ∧
    job.kind = .recap state.session.metadata.id state.session.metadata.messageCount
  worker : state.worker = .idle ∨ ∃ job, state.worker = .leaving job false
  look : ∀ request look, state.gate = some (request, look) → look.metadata.status = .opened ∧
    look.metadata.messageCount = state.session.metadata.messageCount
  frozen : ∀ request waiting, state.waiting request = some waiting →
    waiting.recapEndIndex = state.session.metadata.messageCount

structure Closed (state : TakeoverState Stamp History Message Item Hash) : Prop where
  status : state.session.metadata.status = .closed
  finalizedAt : state.session.metadata.finalizedAt.isSome
  attempt : state.session.attempt = none
  silent : ∀ registration, .opened ∉ state.results registration
  look : ∀ request look, state.gate = some (request, look) → look.metadata.status ≠ .opened

inductive TakeoverSound (id : Api.Text) (state : TakeoverState Stamp History Message Item Hash) :
    Prop
  | live : Live id state → TakeoverSound id state
  | released : Released state → TakeoverSound id state
  | closed : Closed state → TakeoverSound id state

variable {id : Api.Text} {state next : TakeoverState Stamp History Message Item Hash}

theorem silent_send (silent : ∀ registration, .opened ∉ state.results registration)
    (other : result ≠ .opened) (registration : Nat) :
    .opened ∉ (state.send result).results registration := by
  intro member
  simp only [TakeoverState.send] at member
  split at member
  · rcases mem_concat member with earlier | now
    · exact silent _ earlier
    · exact other now.symm
  · exact silent _ member

variable {job : SupervisorJob Stamp}

theorem Live.store (live : Live id state)
    (unresolved : Unresolved id state.session.metadata.id job) :
    Live id (state.withJobs (writeJob state.jobs job)) := by
  obtain ⟨stored, only, found⟩ := live.job
  exact
    { live with
      job := ⟨job, by
        simp only [TakeoverState.withJobs, only]
        exact writeJob_single (unresolved.id.trans found.id.symm), unresolved⟩
      look := fun request look held => { live.look request look held with } }

theorem Live.write (live : Live id state) {job : SupervisorJob Stamp} {worker : Worker Stamp}
    (unresolved : Unresolved id state.session.metadata.id job) (copy : worker.job? = some job)
    (stage : StageSound state.session state.running state.preemption.phase state.resumeTarget
      worker) :
    Live id ((state.withJobs (writeJob state.jobs job)).withWorker worker) :=
  { live.store unresolved with
    copy := fun other same => by
      cases copy.symm.trans same
      exact unresolved
    stage := stage
    look := fun request look held => { live.look request look held with } }

theorem Live.restore (live : Live id state) {job converted : SupervisorJob Stamp}
    (unresolved : Unresolved id state.session.metadata.id job) (same : converted.id = job.id) :
    writeJob (writeJob state.jobs converted) job = writeJob state.jobs job := by
  obtain ⟨stored, only, found⟩ := live.job
  rw [only, writeJob_single (same.trans (unresolved.id.trans found.id.symm)),
    writeJob_single same.symm, writeJob_single (unresolved.id.trans found.id.symm)]

theorem Live.move (live : Live id state) {job : SupervisorJob Stamp} {worker : Worker Stamp}
    (now : state.worker.job? = some job) (copy : worker.job? = some job)
    (stage : StageSound state.session state.running state.preemption.phase state.resumeTarget
      worker) : Live id (state.withWorker worker) :=
  { live with
    copy := fun other same => by
      cases copy.symm.trans same
      exact live.copy job now
    stage := stage
    look := fun request look held => { live.look request look held with } }

theorem Live.sent (live : Live id state) (result : RunningFinalizeResumeResult)
    (other : result ≠ .opened) : Live id (state.send result) :=
  { live with
    silent := silent_send live.silent other
    look := fun request look held => { live.look request look held with } }

theorem finish_finished (control : SessionPreparedPreemptionControl) :
    Finished control.finish.phase := by
  unfold SessionPreparedPreemptionControl.finish
  cases control.phase <;> simp [Finished]

variable {worker : Worker Stamp}

theorem Live.finished (live : Live id state)
    (now : state.worker.job? = some job) (copy : worker.job? = some job)
    (stage : StageSound state.session state.running state.preemption.finish.phase
      state.resumeTarget worker) :
    Live id ((state.withPreemption state.preemption.finish).withWorker worker) := by
  have finished := finish_finished state.preemption
  exact
    { live with
      copy := fun other same => by
        cases copy.symm.trans same
        exact live.copy job now
      requested := fun requested => by
        have phase : state.preemption.finish.phase = .cancelRequested := requested
        rw [phase] at finished
        rcases finished with other | other <;> cases other
      cancelled := fun cancel => by
        have phase : state.preemption.finish.phase = .finishedBeforePrepared := by
          rcases live.cancelled cancel with requested | before
          · simp [SessionPreparedPreemptionControl.finish, requested]
          · simp [SessionPreparedPreemptionControl.finish, before]
        exact .inr phase
      stage := stage
      look := fun request look held =>
        { live.look request look held with
          absent := fun absent either => by
            rcases either with none | cancelable
            · exact (live.look request look held).absent absent (.inl none)
            · have phase : state.preemption.finish.phase = .cancelable := cancelable
              rw [phase] at finished
              rcases finished with other | other <;> cases other } }

section

variable (live : Live id state)
include live

theorem Live.claim (free : state.gate = none)
    (idle : state.worker = .idle) (member : job ∈ state.jobs) :
    Live id
      { state with
        worker := .claimed job
        running := some (state.registrations + 1, job.id)
        registrations := state.registrations + 1
        preemption := .new
        resumeTarget := none } := by
  obtain ⟨stored, only, found⟩ := live.job
  rw [only] at member
  obtain rfl := List.mem_singleton.mp member
  have stage := live.stage
  rw [idle] at stage
  have attempt : state.session.attempt = none := by
    cases stage with
    | idle attempt => exact attempt
    | early early => cases early
    | late late => cases late
  exact
    { live with
      copy := fun other same => by
        cases same
        exact found
      running := fun running now => by
        cases now
        exact found.id
      requested := (nomatch ·)
      cancelled := (nomatch ·)
      stage := .early rfl attempt rfl (.inl rfl)
      look := fun request look held => by
        rw [free] at held
        cases held }

theorem Live.unregister_running
    (now : state.worker.job? = some job) : (state.unregister job).running = none := by
  simp only [TakeoverState.unregister]
  cases found : state.running with
  | none => rfl
  | some running =>
    have same : running.2 = job.id := (live.running running found).trans (live.copy job now).id.symm
    simp [same]

theorem Live.unregister (free : state.gate = none) (now : state.worker.job? = some job)
    (copy : worker.job? = none ∨ worker.job? = some job)
    (stage : StageSound state.session none state.preemption.phase state.resumeTarget worker) :
    Live id ((state.unregister job).withWorker worker) := by
  have gone := live.unregister_running now
  exact
    { live with
      copy := fun other same => by
        rcases copy with none | copied
        · cases none.symm.trans same
        · cases copied.symm.trans same
          exact live.copy job now
      running := fun running found => by
        have impossible : (state.unregister job).running = some running := found
        rw [gone] at impossible
        cases impossible
      stage := by
        have same : StageSound state.session (state.unregister job).running
            state.preemption.phase state.resumeTarget worker := by
          rw [gone]
          exact stage
        exact same
      look := fun request look held => by
        have none : state.gate = some (request, look) := held
        rw [free] at none
        cases none }

theorem Live.release {sessionId : Api.Text} (now : Stamp)
    (unresolved : Unresolved id state.session.metadata.id job)
    (sameSession : sessionId = state.session.metadata.id)
    (frozen : recapEndIndex = state.session.metadata.messageCount)
    (opened : state.session.metadata.markOpenAfterFinalizeTakeover = .ok metadata)
    (uncovered : hasCheckpoint state.session = false) (attempt : state.session.attempt = none)
    (free : next.gate = none) (waiting : next.waiting = state.waiting)
    (worker : next.worker = .idle ∨ ∃ job, next.worker = .leaving job false)
    (session : next.session = { state.session with metadata := metadata })
    (jobs : next.jobs = writeJob state.jobs (convertedRecapJob job sessionId recapEndIndex now)) :
    Released next := by
  obtain ⟨_, rfl⟩ := markOpenAfterFinalizeTakeover_cases opened
  obtain ⟨stored, only, found⟩ := live.job
  exact
    { status := by rw [session]
      attempt := by rw [session]; exact attempt
      uncovered := by
        rw [session]
        exact (hasCheckpoint_congr rfl rfl rfl).trans uncovered
      job := ⟨convertedRecapJob job sessionId recapEndIndex now, by
        rw [jobs, only]
        exact writeJob_single (unresolved.id.trans found.id.symm), by
        rw [session, sameSession, frozen]
        rfl⟩
      worker := worker
      look := fun request look held => by
        rw [free] at held
        cases held
      frozen := fun request waits held => by
        rw [waiting] at held
        rw [session]
        exact live.frozen request waits held }

theorem Live.stageAt (now : state.worker = worker) :
    StageSound state.session state.running state.preemption.phase state.resumeTarget worker := by
  rw [← now]
  exact live.stage

theorem Live.jobAt (now : state.worker = worker) (copy : worker.job? = some job) :
    Unresolved id state.session.metadata.id job := by
  rw [← now] at copy
  exact live.copy job copy

end

theorem jobOf (now : state.worker = worker)
    (copy : worker.job? = some job) : state.worker.job? = some job := by
  rw [now]
  exact copy

theorem Worker.not_late (early : worker.isEarly = true) : worker.isLate = false := by
  cases worker with
  | engaging job controlled =>
    cases controlled with
    | true => rfl
    | false => cases early
  | claimed | started | deferring => rfl
  | idle | inside | returned | finished | succeeding | failing | reporting | leaving => cases early

section

variable {session : RecapState Stamp History Message Item Hash} {running : Option (Nat × Api.Text)}
  {worker : Worker Stamp}

theorem StageSound.early_cases (stage : StageSound session running phase resumeTarget worker)
    (early : worker.isEarly = true) :
    session.attempt = none ∧ running.isSome ∧ (phase = .cancelable ∨ phase = .cancelRequested) := by
  cases stage with
  | early _ attempt registered phase => exact ⟨attempt, registered, phase⟩
  | late late => simp [Worker.not_late early] at late
  | idle | inside | alone | returned | finished | leaving | broken => cases early

theorem StageSound.late_cases (stage : StageSound session running phase resumeTarget worker)
    (late : worker.isLate = true) :
    session.attempt = none ∧ running.isSome ∧ Finished phase := by
  cases stage with
  | late _ attempt registered phase => exact ⟨attempt, registered, phase⟩
  | early early => simp [Worker.not_late early] at late
  | idle | inside | alone | returned | finished | leaving | broken => cases late

theorem StageSound.leaving_cases {job : SupervisorJob Stamp}
    (stage : StageSound session running phase resumeTarget (.leaving job runnerError)) :
    session.attempt = none := by
  cases stage with
  | leaving attempt | broken attempt => exact attempt
  | early early => cases early
  | late late => cases late

end

theorem Live.workerStep (live : Live id state) (taken : WorkerStep state label next)
    (restored : label ≠ .failedRestore) : TakeoverSound id next := by
  cases taken with
  | claim free idle member => exact .live (live.claim free idle member)
  | start now claimed =>
    obtain ⟨attempt, registered, phase⟩ := (live.stageAt claimed).early_cases rfl
    exact .live (live.write ((live.jobAt claimed rfl).started now) rfl
      (.early rfl attempt registered phase))
  | defer message now started =>
    obtain ⟨attempt, registered, phase⟩ := (live.stageAt started).early_cases rfl
    exact .live (live.write ((live.jobAt started rfl).deferred message now) rfl
      (.early rfl attempt registered phase))
  | deferred message deferring =>
    obtain ⟨attempt, registered, phase⟩ := (live.stageAt deferring).early_cases rfl
    exact .live ((live.finished (jobOf deferring rfl) rfl (.leaving attempt)).sent
      (.failed message) (nomatch ·))
  | count started =>
    obtain ⟨attempt, registered, phase⟩ := (live.stageAt started).early_cases rfl
    exact .live (live.write (live.jobAt started rfl).counted rfl
      (.early rfl attempt registered phase))
  | finish returned =>
    cases live.stageAt returned with
    | returned attempt registered listening uncompleted preempted =>
      refine .live (live.finished (jobOf returned rfl) rfl
        (.finished attempt registered (finish_finished _) uncompleted fun outcome => ?_))
      exact live.requested (preempted outcome)
    | early early => cases early
    | late late => cases late
  | completed finished =>
    cases live.stageAt finished with
    | finished _ _ _ uncompleted => exact absurd rfl uncompleted
    | early early => cases early
    | late late => cases late
  | failed finished =>
    cases live.stageAt finished with
    | finished attempt registered phase =>
      exact .live (live.move (jobOf finished rfl) rfl (.late rfl attempt registered phase))
    | early early => cases early
    | late late => cases late
  | noTarget finished =>
    cases live.stageAt finished with
    | finished attempt registered =>
      exact .live (live.move (jobOf finished rfl) rfl (.broken attempt registered))
    | early early => cases early
    | late late => cases late
  | converted now finished free target opened =>
    cases live.stageAt finished with
    | finished attempt registered phase uncompleted preempted =>
      obtain ⟨uncovered, frozen⟩ := preempted rfl
      exact .released (live.release now (live.jobAt finished rfl) rfl
        (Option.some.inj (target.symm.trans frozen)) opened uncovered attempt free rfl
        (.inr ⟨_, rfl⟩) rfl rfl)
    | early early => cases early
    | late late => cases late
  | @notConverted job beforePrepared recapEndIndex message now finished free target =>
    cases live.stageAt finished with
    | finished attempt registered phase =>
      have unresolved := live.jobAt finished rfl
      have written : Live id ((state.withJobs (writeJob state.jobs job)).withWorker
          (.engaging job false)) :=
        live.write unresolved rfl (.late rfl attempt registered phase)
      have same : (convertedRecapJob job state.session.metadata.id recapEndIndex now).id =
          job.id := rfl
      rw [← live.restore unresolved same] at written
      exact .live (written.sent (.failed message) (nomatch ·))
    | early early => cases early
    | late late => cases late
  | conversionStayed => exact absurd rfl restored
  | succeed now succeeding =>
    cases live.stageAt succeeding with
    | early early => cases early
    | late late => cases late
  | fail message now failing =>
    obtain ⟨attempt, registered, phase⟩ := (live.stageAt failing).late_cases rfl
    exact .live (live.write ((live.jobAt failing rfl).attemptFailed message now) rfl
      (.late rfl attempt registered phase))
  | reportFinished reporting free =>
    obtain ⟨attempt, _, _⟩ := (live.stageAt reporting).late_cases rfl
    have gone := live.unregister free (jobOf reporting rfl)
      (.inr rfl) (.leaving attempt)
    exact .live (gone.sent .attemptFinishedBeforePrepared (nomatch ·))
  | reportFailed message reporting =>
    obtain ⟨attempt, _, _⟩ := (live.stageAt reporting).late_cases rfl
    exact .live ((live.move (jobOf reporting rfl) rfl (.leaving attempt)).sent
      (.failed message) (nomatch ·))
  | reported reporting =>
    obtain ⟨attempt, _, _⟩ := (live.stageAt reporting).late_cases rfl
    exact .live (live.move (jobOf reporting rfl) rfl (.leaving attempt))
  | runnerError stages =>
    rcases stages with claimed | started | succeeding | ⟨beforePrepared, failing⟩
    · obtain ⟨attempt, registered, _⟩ := (live.stageAt claimed).early_cases rfl
      exact .live (live.move (jobOf claimed rfl) rfl (.broken attempt registered))
    · obtain ⟨attempt, registered, _⟩ := (live.stageAt started).early_cases rfl
      exact .live (live.move (jobOf started rfl) rfl (.broken attempt registered))
    · cases live.stageAt succeeding with
      | early early => cases early
      | late late => cases late
    · obtain ⟨attempt, registered, _⟩ := (live.stageAt failing).late_cases rfl
      exact .live (live.move (jobOf failing rfl) rfl (.broken attempt registered))
  | leave leaving free =>
    exact .live (live.unregister free (jobOf leaving rfl) (.inl rfl)
      (.idle (live.stageAt leaving).leaving_cases rfl))
  | @leaveRecovered job stored retryMessage exhaustedMessage message now leaving free member same =>
    obtain ⟨only, single, found⟩ := live.job
    rw [single] at member
    obtain rfl := List.mem_singleton.mp member
    have attempt := (live.stageAt leaving).leaving_cases
    split
    · rw [live.status]
      have written := live.store (found.recovered retryMessage exhaustedMessage now)
      exact .live ((written.unregister free (jobOf leaving rfl) (.inl rfl)
        (.idle attempt rfl)).sent (.failed message) (nomatch ·))
    · exact .live ((live.unregister free (jobOf leaving rfl) (.inl rfl)
        (.idle attempt rfl)).sent (.failed message) (nomatch ·))
  | leaveUnrecovered message leaving free =>
    exact .live ((live.unregister free (jobOf leaving rfl) (.inl rfl)
      (.idle (live.stageAt leaving).leaving_cases rfl)).sent (.failed message) (nomatch ·))

end AgentClaimNetwork.Supervisor
