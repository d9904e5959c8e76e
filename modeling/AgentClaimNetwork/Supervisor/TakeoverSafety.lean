import AgentClaimNetwork.Supervisor.TakeoverInvariant

/-!
A resume either takes the session over before the checkpoint of the running attempt, and then
the attempt is over, or it leaves the session to the finalization.
-/

namespace AgentClaimNetwork.Supervisor

open Library Session List
open TakeoverState (runningOf setWaiting withPreemption withSession withWorker)

section

variable {Stamp History Message Item Hash : Type} {id : Api.Text}
  {state next : TakeoverState Stamp History Message Item Hash}
  {label : TakeoverLabel Stamp Message Item}

variable {job : SupervisorJob Stamp} {worker : Worker Stamp}
  {preemption : SessionPreparedPreemptionControl}

variable (live : Live id state)

include live in
theorem Live.engaged {session : RecapState Stamp History Message Item Hash}
    (effect : EngineEffect state.session session)
    (registered : state.running.isSome) (now : state.worker.job? = some job)
    (copy : worker.job? = some job)
    (requested : preemption.phase = .cancelRequested →
      state.preemption.phase = .cancelRequested ∧ hasCheckpoint session = false)
    (cancelled : preemption.cancel = true → preemption.phase = .cancelRequested ∨
      preemption.phase = .finishedBeforePrepared)
    (cancelable : preemption.phase = .cancelable → state.preemption.phase = .cancelable ∧
      (hasCheckpoint state.session = false → hasCheckpoint session = false))
    (stage : StageSound session state.running preemption.phase state.resumeTarget worker) :
    TakeoverSound id
      (((state.withSession session).withPreemption preemption).withWorker worker) := by
  rcases effect.status with ⟨status, closedAt, finalizedAt⟩ | ⟨status, finalizedAt, attempt⟩
  · refine .live
      { status := status.trans live.status
        closedAt := closedAt.trans live.closedAt
        finalizedAt := finalizedAt.trans live.finalizedAt
        held := effect.held
        job := ?_
        copy := ?_
        running := live.running
        requested := ?_
        cancelled := cancelled
        stage := stage
        silent := live.silent
        look := ?_
        frozen := fun request waiting held =>
          (live.frozen request waiting held).trans effect.messageCount.symm }
    · obtain ⟨stored, only, found⟩ := live.job
      refine ⟨stored, only, ?_⟩
      simp only [withWorker, withPreemption, withSession]
      rw [effect.id]
      exact found
    · intro other same
      cases copy.symm.trans same
      simp only [withWorker, withPreemption, withSession]
      rw [effect.id]
      exact live.copy job now
    · intro phase
      obtain ⟨before, uncovered⟩ := requested phase
      refine ⟨uncovered, ?_⟩
      simp only [withWorker, withPreemption, withSession]
      rw [effect.messageCount]
      exact (live.requested before).2
    · intro request look held
      have sound := live.look request look held
      obtain ⟨read, only, found⟩ := sound.job
      refine ⟨sound.messageCount.trans effect.messageCount.symm,
        sound.sessionId.trans effect.id.symm, sound.status, ⟨read, only, ?_⟩, ?_⟩
      · simp only [withWorker, withPreemption,
          withSession]
        rw [effect.id]
        exact found
      · rintro absent (unregistered | phase)
        · have gone : state.running = none := unregistered
          rw [gone] at registered
          cases registered
        · obtain ⟨before, kept⟩ := cancelable phase
          exact kept (sound.absent absent (.inr before))
  · exact .closed ⟨status, finalizedAt, attempt, live.silent, fun request look held => by
      rw [(live.look request look held).status]
      exact (nomatch ·)⟩

theorem EngineEffect.leave (held : EngineHeld state.session) :
    EngineEffect state.session { state.session with attempt := none } :=
  EngineEffect.still held rfl rfl fun _ now => by cases now

variable {running : Option (Nat × Api.Text)} {resumeTarget : Option Nat}

theorem StageSound.congr {session later : RecapState Stamp History Message Item Hash}
    (stage : StageSound session running phase resumeTarget worker)
    (metadata : later.metadata = session.metadata) (checkpoint : later.checkpoint = session.checkpoint)
    (attempt : later.attempt = session.attempt) :
    StageSound later running phase resumeTarget worker := by
  have covered : hasCheckpoint later = hasCheckpoint session :=
    hasCheckpoint_congr checkpoint (by rw [metadata]) (by rw [metadata])
  cases stage with
  | idle none gone => exact .idle (attempt.trans none) gone
  | early early none registered phase => exact .early early (attempt.trans none) registered phase
  | inside registered listening uncovered =>
    exact .inside registered listening fun unprepared => covered.trans (uncovered unprepared)
  | alone registered finished => exact .alone registered finished
  | returned none registered listening uncompleted preempted =>
    exact .returned (attempt.trans none) registered listening uncompleted preempted
  | finished none registered finished uncompleted preempted =>
    refine .finished (attempt.trans none) registered finished uncompleted fun outcome => ?_
    rw [covered, metadata]
    exact preempted outcome
  | late late none registered finished => exact .late late (attempt.trans none) registered finished
  | leaving none => exact .leaving (attempt.trans none)
  | broken none registered => exact .broken (attempt.trans none) registered

include live in
theorem Live.beside {session : RecapState Stamp History Message Item Hash}
    (metadata : session.metadata = state.session.metadata)
    (checkpoint : session.checkpoint = state.session.checkpoint)
    (attempt : session.attempt = state.session.attempt) (held : EngineHeld session) :
    Live id (state.withSession session) := by
  have covered : hasCheckpoint session = hasCheckpoint state.session :=
    hasCheckpoint_congr checkpoint (by rw [metadata]) (by rw [metadata])
  refine
    { status := ?_
      closedAt := ?_
      finalizedAt := ?_
      held := held
      job := ?_
      copy := ?_
      running := live.running
      requested := ?_
      cancelled := live.cancelled
      stage := live.stage.congr metadata checkpoint attempt
      silent := live.silent
      look := fun request look now => ?_
      frozen := ?_ }
  all_goals simp only [withSession, metadata]
  · exact live.status
  · exact live.closedAt
  · exact live.finalizedAt
  · exact live.job
  · exact live.copy
  · rw [covered]
    exact live.requested
  · have sound := live.look request look now
    refine ⟨?_, ?_, sound.status, ?_, ?_⟩
    all_goals simp only [metadata]
    · exact sound.messageCount
    · exact sound.sessionId
    · exact sound.job
    · rw [covered]
      exact sound.absent
  · exact live.frozen

theorem marksExisting_covered {session : RecapState Stamp History Message Item Hash}
    (held : EngineHeld session) (marks : marksExisting session = true) :
    hasCheckpoint session = true := by
  unfold marksExisting at marks
  split at marks
  case h_1 now => exact (held.attempt _ now).1
  case h_2 now => exact (held.attempt _ now).1
  case h_3 => cases marks

section

variable (live : Live id state)
include live

theorem Live.insideControlled (inside : state.worker = .inside job true) :
    state.running.isSome ∧ Listening state.preemption.phase ∧
      (state.preemption.phase ≠ .prepared → hasCheckpoint state.session = false) := by
  cases live.stageAt inside with
  | inside registered listening uncovered => exact ⟨registered, listening, uncovered⟩
  | early early => cases early
  | late late => cases late

theorem Live.insideAlone (inside : state.worker = .inside job false) :
    state.running.isSome ∧ Finished state.preemption.phase := by
  cases live.stageAt inside with
  | alone registered finished => exact ⟨registered, finished⟩
  | early early => cases early
  | late late => cases late

theorem Live.asked (listening : Listening state.preemption.phase)
    (cancel : state.preemption.cancel = true) : state.preemption.phase = .cancelRequested := by
  rcases live.cancelled cancel with requested | finished
  · exact requested
  · rw [finished] at listening
    rcases listening with other | other | other <;> cases other

theorem Live.engagedAlone {session : RecapState Stamp History Message Item Hash}
    (effect : EngineEffect state.session session)
    (registered : state.running.isSome) (finished : Finished state.preemption.phase)
    (now : state.worker.job? = some job) (copy : worker.job? = some job)
    (stage : StageSound session state.running state.preemption.phase state.resumeTarget worker) :
    TakeoverSound id ((state.withSession session).withWorker worker) := by
  refine live.engaged effect registered now copy ?_ live.cancelled ?_ stage
  · intro requested
    rw [requested] at finished
    rcases finished with other | other <;> cases other
  · intro cancelable
    rw [cancelable] at finished
    rcases finished with other | other <;> cases other

theorem Live.engagedPrepared {session : RecapState Stamp History Message Item Hash}
    (effect : EngineEffect state.session session)
    (registered : state.running.isSome) (prepared : preemption.phase = .prepared)
    (uncancelled : preemption.cancel = false)
    (now : state.worker.job? = some job) (inside : worker = .inside job true) :
    TakeoverSound id
      (((state.withSession session).withPreemption preemption).withWorker worker) := by
  subst inside
  refine live.engaged effect registered now rfl ?_ ?_ ?_ ?_
  · rw [prepared]
    exact (nomatch ·)
  · rw [uncancelled]
    exact (nomatch ·)
  · rw [prepared]
    exact (nomatch ·)
  · exact .inside registered (.inr (.inr prepared)) fun other => absurd prepared other

theorem Live.uncancelled (listening : Listening state.preemption.phase)
    (unrequested : state.preemption.phase ≠ .cancelRequested) :
    state.preemption.cancel = false := by
  cases cancel : state.preemption.cancel with
  | false => rfl
  | true => exact absurd (live.asked listening cancel) unrequested

theorem Live.uncancelledCovered (listening : Listening state.preemption.phase)
    (covered : hasCheckpoint state.session = true) : state.preemption.cancel = false :=
  live.uncancelled listening fun requested => by
    rw [(live.requested requested).1] at covered
    cases covered

theorem Live.giveWay (now : state.worker = worker) (copy : worker.job? = some job)
    (registered : state.running.isSome) (asked : state.preemption.phase = .cancelRequested) :
    TakeoverSound id
      (state.leaveEngine.withWorker (Worker.afterEngine job true .preemptedBeforePrepared)) := by
  have same : hasCheckpoint { state.session with attempt := none } = hasCheckpoint state.session :=
    hasCheckpoint_congr rfl rfl rfl
  exact live.engaged (EngineEffect.leave live.held) registered (jobOf now copy) rfl
    (fun requested => ⟨requested, same.trans (live.requested requested).1⟩) live.cancelled
    (fun cancelable => ⟨cancelable, same.trans⟩)
    (.returned rfl registered (.inr (.inl asked)) (nomatch ·) fun _ => asked)

end

theorem leaveEngine_outside (outside : state.session.attempt = none) :
    state.leaveEngine = state := by
  have same : { state.session with attempt := none } = state.session := by
    rw [← outside]
  unfold TakeoverState.leaveEngine withSession
  rw [same]

include live in
theorem Live.engineFailed
    (now : state.worker = .engaging job controlled ∨ state.worker = .inside job controlled) :
    TakeoverSound id
      (state.leaveEngine.withWorker (Worker.afterEngine job controlled .failed)) := by
  have effect := EngineEffect.leave live.held
  have same : hasCheckpoint { state.session with attempt := none } = hasCheckpoint state.session :=
    hasCheckpoint_congr rfl rfl rfl
  have copied : state.worker.job? = some job := by
    rcases now with engaging | inside
    · exact jobOf engaging rfl
    · exact jobOf inside rfl
  cases controlled with
  | false =>
    have alone : state.running.isSome ∧ Finished state.preemption.phase := by
      rcases now with engaging | inside
      · exact ((live.stageAt engaging).late_cases rfl).2
      · exact live.insideAlone inside
    exact live.engagedAlone effect alone.1 alone.2 copied rfl (.late rfl rfl alone.1 alone.2)
  | true =>
    have controlled : state.running.isSome ∧ Listening state.preemption.phase := by
      rcases now with engaging | inside
      · obtain ⟨_, registered, phase⟩ := (live.stageAt engaging).early_cases rfl
        exact ⟨registered, phase.imp_right Or.inl⟩
      · obtain ⟨registered, listening, _⟩ := live.insideControlled inside
        exact ⟨registered, listening⟩
    exact live.engaged effect controlled.1 copied rfl
      (fun requested => ⟨requested, same.trans (live.requested requested).1⟩) live.cancelled
      (fun cancelable => ⟨cancelable, same.trans⟩)
      (.returned rfl controlled.1 controlled.2 (nomatch ·) (nomatch ·))

theorem no_look {holds : Nat → Look Stamp History → Prop} (free : state.gate = none)
    (request : Nat) (look : Look Stamp History) (held : state.gate = some (request, look)) :
    holds request look := by
  cases free.symm.trans held

include live in
theorem Live.ungate : Live id state.release :=
  { live with look := no_look rfl }

variable {request : Nat} {look : Look Stamp History}

include live in
theorem Live.look_job (held : state.gate = some (request, look)) :
    ∃ job, look.unresolved = [job] ∧ Unresolved id state.session.metadata.id job := by
  have sound := live.look request look held
  obtain ⟨read, only, found⟩ := sound.job
  refine ⟨read, ?_, found⟩
  unfold Look.unresolved
  rw [only, sound.sessionId]
  exact found.selected

theorem recoveredUnregistered_unresolved (unresolved : Unresolved id sessionId job)
    (status : look.metadata.status = .finalizing) :
    Unresolved id sessionId (recoveredUnregistered state look job now) := by
  unfold recoveredUnregistered
  split
  · rw [status]
    exact unresolved.recovered _ _ now
  · exact unresolved

include live

theorem Live.unregistered (unresolved : Unresolved id state.session.metadata.id job)
    (unregistered : state.runningOf job = none) : state.running = none := by
  unfold runningOf at unregistered
  cases found : state.running with
  | none => rfl
  | some running =>
    have same : running.2 = job.id := (live.running running found).trans unresolved.id.symm
    simp [found, same] at unregistered

theorem Live.resting (unregistered : state.running = none) : state.session.attempt = none ∧
      (state.worker = .idle ∨ ∃ job, state.worker = .leaving job false) := by
  have stage := live.stage
  rw [unregistered] at stage
  generalize now : state.worker = worker at stage
  cases stage with
  | idle attempt => exact ⟨attempt, .inl rfl⟩
  | leaving attempt => exact ⟨attempt, .inr ⟨_, rfl⟩⟩
  | early _ _ registered | inside registered | alone registered | returned _ registered
  | finished _ registered | late _ _ registered | broken _ registered => cases registered

omit live

theorem StageSound.retarget {session : RecapState Stamp History Message Item Hash}
    (stage : StageSound session running phase resumeTarget worker) :
    StageSound session running phase (some session.metadata.messageCount) worker := by
  cases stage with
  | idle attempt gone => exact .idle attempt gone
  | early early attempt registered phase => exact .early early attempt registered phase
  | inside registered listening uncovered => exact .inside registered listening uncovered
  | alone registered finished => exact .alone registered finished
  | returned attempt registered listening uncompleted preempted =>
    exact .returned attempt registered listening uncompleted preempted
  | finished attempt registered finished uncompleted preempted =>
    exact .finished attempt registered finished uncompleted fun outcome =>
      ⟨(preempted outcome).1, rfl⟩
  | late late attempt registered finished => exact .late late attempt registered finished
  | leaving attempt => exact .leaving attempt
  | broken attempt registered => exact .broken attempt registered

include live in
theorem Live.target (frozen : messageCount = state.session.metadata.messageCount) :
    Live id { state with resumeTarget := some messageCount } := by
  subst frozen
  exact
    { live with
      requested := fun requested => ⟨(live.requested requested).1, rfl⟩
      stage := live.stage.retarget
      look := fun request look held => { live.look request look held with } }

theorem StageSound.ask {session : RecapState Stamp History Message Item Hash}
    (stage : StageSound session running .cancelable resumeTarget worker)
    (uncovered : hasCheckpoint session = false) :
    StageSound session running .cancelRequested resumeTarget worker := by
  cases stage with
  | idle attempt gone => exact .idle attempt gone
  | early early attempt registered => exact .early early attempt registered (.inr rfl)
  | inside registered => exact .inside registered (.inr (.inl rfl)) fun _ => uncovered
  | returned attempt registered _ uncompleted _ =>
    exact .returned attempt registered (.inr (.inl rfl)) uncompleted fun _ => rfl
  | leaving attempt => exact .leaving attempt
  | broken attempt registered => exact .broken attempt registered
  | alone _ finished | finished _ _ finished | late _ _ _ finished =>
    rcases finished with other | other <;> cases other

include live in
theorem Live.ask (held : state.gate = some (request, look)) (absent : look.hasCheckpoint = false)
    (target : state.resumeTarget = some state.session.metadata.messageCount) :
    Live id (state.withPreemption state.preemption.requestBeforePrepared.1).release := by
  unfold SessionPreparedPreemptionControl.requestBeforePrepared
  split
  · exact live.ungate
  · rename_i cancelable
    have phase : state.preemption.phase = .cancelable := not_not.mp cancelable
    have uncovered := (live.look request look held).absent absent (.inr phase)
    have stage := live.stage
    rw [phase] at stage
    exact
      { live.ungate with
        requested := fun _ => ⟨uncovered, target⟩
        cancelled := fun _ => .inl rfl
        stage := stage.ask uncovered
        look := no_look rfl }

variable {waiting : Option Waiting}

include live

theorem Live.waits (frozen : ∀ now, waiting = some now →
      now.recapEndIndex = state.session.metadata.messageCount) :
    Live id (state.setWaiting request waiting) :=
  { live with
    look := fun request look held => { live.look request look held with }
    frozen := fun other now held => by
      simp only [setWaiting] at held
      split at held
      · exact frozen now held
      · exact live.frozen other now held }

theorem Live.looks (request : Nat) :
    Live id { state with gate := some (request, readLook state) } :=
  { live with
    look := fun other look held => by
      cases held
      exact
        { messageCount := rfl
          sessionId := rfl
          status := live.status
          job := live.job
          absent := fun absent _ => absent } }

theorem Live.not_opened (last : (state.results registration).getLast? = some .opened) : False :=
  live.silent registration (mem_of_getLast? last)

theorem Live.requestStep (taken : RequestStep state label next)
    (restored : label ≠ .failedRestore) : TakeoverSound id next := by
  cases taken with
  | look request => exact .live (live.looks request)
  | fail => exact .live live.ungate
  | closed now held closed =>
    rw [Look.isClosed, (live.look _ _ held).status] at closed
    cases closed.1
  | opened held opened =>
    rw [Look.isOpen, (live.look _ _ held).status] at opened
    cases opened.1
  | orphanLocked held _ none | orphanCheckpoint _ _ _ _ held _ none
  | orphanOpened _ _ _ held _ none | orphanNotOpened _ _ _ _ held _ none =>
    obtain ⟨job, only, _⟩ := live.look_job held
    cases only.symm.trans none
  | checkpointed now held _ selected =>
    obtain ⟨read, only, unresolved⟩ := live.look_job held
    obtain rfl := singleton_inj.mp (only.symm.trans selected)
    have recovered : Unresolved id state.session.metadata.id
        (recoveredUnregistered state _ read now) :=
      recoveredUnregistered_unresolved unresolved (live.look _ _ held).status
    split
    · exact .live (live.store recovered.reset).ungate
    · split
      · exact .live (live.store recovered).ungate
      · exact .live live.ungate
  | tooLate held => exact .live (live.target (live.look _ _ held).messageCount).ungate
  | wait held _ _ absent =>
    have frozen := (live.look _ _ held).messageCount
    have asked := (live.target frozen).ask held absent (by rw [frozen])
    refine .live (asked.waits fun now waits => ?_)
    cases waits
    exact frozen
  | converted now held _ selected absent unregistered _ opened =>
    obtain ⟨read, only, unresolved⟩ := live.look_job held
    obtain rfl := singleton_inj.mp (only.symm.trans selected)
    have sound := live.look _ _ held
    have gone := live.unregistered unresolved unregistered
    obtain ⟨attempt, worker⟩ := live.resting gone
    exact .released (live.release now
      (recoveredUnregistered_unresolved unresolved sound.status) sound.sessionId
      sound.messageCount opened (sound.absent absent (.inl gone)) attempt rfl rfl worker rfl rfl)
  | notConverted now held _ selected =>
    obtain ⟨read, only, unresolved⟩ := live.look_job held
    obtain rfl := singleton_inj.mp (only.symm.trans selected)
    exact .live (live.store (recoveredUnregistered_unresolved unresolved
      (live.look _ _ held).status)).ungate
  | conversionStayed => exact absurd rfl restored
  | resultOpened _ _ last => exact (live.not_opened last).elim
  | resultWait | resultAgain | resultFailed => exact .live (live.waits (nomatch ·, ·))

omit live

variable (released : Released state)

include released in
theorem Released.session {session : RecapState Stamp History Message Item Hash}
    (metadata : session.metadata = state.session.metadata)
    (checkpoint : session.checkpoint = state.session.checkpoint)
    (attempt : session.attempt = state.session.attempt) :
    Released (state.withSession session) := by
  have covered : hasCheckpoint session = hasCheckpoint state.session :=
    hasCheckpoint_congr checkpoint (by rw [metadata]) (by rw [metadata])
  exact
    { status := by simp only [withSession, metadata]; exact released.status
      attempt := attempt.trans released.attempt
      uncovered := covered.trans released.uncovered
      job := by simp only [withSession, metadata]; exact released.job
      worker := released.worker
      look := by simp only [withSession, metadata]; exact released.look
      frozen := by simp only [withSession, metadata]; exact released.frozen }

def Worker.isResting : Worker Stamp → Bool
  | .idle | .leaving _ false => true
  | _ => false

include released

theorem Released.notAt (now : state.worker = worker) (busy : worker.isResting = false) : False := by
  rcases released.worker with idle | ⟨job, leaving⟩
  · cases now.symm.trans idle
    cases busy
  · cases now.symm.trans leaving
    cases busy

theorem Released.workerStep (taken : WorkerStep state label next) :
    Released next ∧ next.session = state.session := by
  cases taken with
  | claim _ _ member _ kind =>
    obtain ⟨job, only, recap⟩ := released.job
    rw [only] at member
    obtain rfl := mem_singleton.mp member
    cases kind.symm.trans recap
  | leave leaving => exact ⟨{ released with worker := .inl rfl }, rfl⟩
  | runnerError stages =>
    rcases stages with now | now | now | ⟨_, now⟩
    all_goals exact (released.notAt now rfl).elim
  | start _ now | defer _ _ now | deferred _ now | count now | finish now | completed now
  | failed now | noTarget now | converted _ now | notConverted _ _ now | conversionStayed _ _ now
  | succeed _ now | fail _ _ now | reportFinished now | reportFailed _ now | reported now
  | leaveRecovered _ _ _ _ now | leaveUnrecovered _ now =>
    exact (released.notAt now rfl).elim

theorem Released.waits (none : waiting = none) : Released (state.setWaiting request waiting) :=
  { released with
    frozen := fun other now held => by
      simp only [setWaiting] at held
      split at held
      · cases none.symm.trans held
      · exact released.frozen other now held }

theorem Released.requestStep (taken : RequestStep state label next) :
    Released next ∧ next.session = state.session := by
  cases taken with
  | look request =>
    refine ⟨{ released with look := fun other look held => ?_ }, rfl⟩
    cases held
    exact ⟨released.status, rfl⟩
  | fail | opened => exact ⟨{ released with look := no_look rfl }, rfl⟩
  | closed now held closed =>
    cases closed.1.symm.trans (released.look _ _ held).1
  | orphanLocked held now | orphanCheckpoint _ _ _ _ held now | orphanOpened _ _ _ held now
  | orphanNotOpened _ _ _ _ held now | checkpointed _ held now | tooLate held now | wait held now
  | converted _ held now | notConverted _ held now | conversionStayed _ held now =>
    cases now.1.symm.trans (released.look _ _ held).1
  | resultOpened | resultWait | resultAgain | resultFailed =>
    exact ⟨released.waits rfl, rfl⟩

omit released

variable {metadata : SessionMetadata Stamp History}

theorem Closed.not_reopened (closed : Closed state)
    (opened : state.session.metadata.markOpenAfterFinalizeTakeover = .ok metadata) : False := by
  cases (markOpenAfterFinalizeTakeover_cases opened).1.symm.trans closed.status

theorem Closed.workerStep (closed : Closed state) (taken : WorkerStep state label next) :
    Closed next ∧ next.session = state.session := by
  cases taken with
  | converted _ _ _ _ opened => exact (closed.not_reopened opened).elim
  | claim | start | defer | count | finish | failed | noTarget | succeed | fail | reported
  | runnerError | leave => exact ⟨{ closed with }, rfl⟩
  | deferred | completed | notConverted | conversionStayed | reportFinished | reportFailed
  | leaveRecovered | leaveUnrecovered =>
    exact ⟨{ closed with silent := silent_send closed.silent (nomatch ·) }, rfl⟩

theorem Closed.requestStep (closed : Closed state) (taken : RequestStep state label next) :
    Closed next ∧ next.session = state.session := by
  cases taken with
  | look request =>
    refine ⟨{ closed with look := fun other look held => ?_ }, rfl⟩
    cases held
    intro opened
    cases opened.symm.trans closed.status
  | orphanOpened _ _ _ _ _ _ _ _ opened | converted _ _ _ _ _ _ _ opened =>
    exact (closed.not_reopened opened).elim
  | fail | closed | opened | orphanLocked | orphanCheckpoint | orphanNotOpened | checkpointed
  | tooLate | wait | notConverted | conversionStayed =>
    exact ⟨{ closed with look := no_look rfl }, rfl⟩
  | resultOpened | resultWait | resultAgain | resultFailed => exact ⟨{ closed with }, rfl⟩

structure Advances (session later : RecapState Stamp History Message Item Hash) : Prop where
  grows : session.metadata.recappedUntil ≤ later.metadata.recappedUntil
  covered : hasCheckpoint session = true →
    later.metadata.recappedUntil = session.metadata.recappedUntil → hasCheckpoint later = true

theorem Advances.same {session later : RecapState Stamp History Message Item Hash}
    (recappedUntil : later.metadata.recappedUntil = session.metadata.recappedUntil)
    (messageCount : later.metadata.messageCount = session.metadata.messageCount)
    (checkpoint : later.checkpoint = session.checkpoint) : Advances session later :=
  ⟨recappedUntil.ge, fun covered _ =>
    hasCheckpoint_kept covered checkpoint recappedUntil messageCount⟩

theorem Advances.opened {session : RecapState Stamp History Message Item Hash}
    (opened : session.metadata.markOpenAfterFinalizeTakeover = .ok metadata) :
    Advances session { session with metadata := metadata } := by
  obtain ⟨_, rfl⟩ := markOpenAfterFinalizeTakeover_cases opened
  exact .same rfl rfl rfl

theorem WorkerStep.advances (taken : WorkerStep state label next) :
    Advances state.session next.session := by
  cases taken with
  | converted _ _ _ _ opened => exact .opened opened
  | claim | start | defer | deferred | count | finish | completed | failed | noTarget | notConverted
  | conversionStayed | succeed | fail | reportFinished | reportFailed | reported | runnerError
  | leave | leaveRecovered | leaveUnrecovered => exact .same rfl rfl rfl

theorem RequestStep.advances (taken : RequestStep state label next) :
    Advances state.session next.session := by
  cases taken with
  | orphanOpened _ _ _ _ _ _ _ _ opened | converted _ _ _ _ _ _ _ opened => exact .opened opened
  | look | fail | closed | opened | orphanLocked | orphanCheckpoint | orphanNotOpened
  | checkpointed | tooLate | wait | notConverted | conversionStayed | resultOpened | resultWait
  | resultAgain | resultFailed => exact .same rfl rfl rfl

def frozenBy (state : TakeoverState Stamp History Message Item Hash) (request : Nat) : Option Nat :=
  match state.gate with
  | some (holder, look) =>
    if holder = request then some look.metadata.messageCount
    else (state.waiting request).map Waiting.recapEndIndex
  | none => (state.waiting request).map Waiting.recapEndIndex

include released in
theorem Released.frozenBy {request frozen : Nat}
    (read : Supervisor.frozenBy state request = some frozen) :
    frozen = state.session.metadata.messageCount := by
  have waits : (state.waiting request).map Waiting.recapEndIndex = some frozen →
      frozen = state.session.metadata.messageCount := by
    intro waited
    obtain ⟨waiting, found, rfl⟩ := Option.map_eq_some_iff.mp waited
    exact released.frozen request waiting found
  unfold Supervisor.frozenBy at read
  split at read
  · rename_i holder look held
    split at read
    · cases read
      exact (released.look holder look held).2
    · exact waits read
  · exact waits read

theorem TakeoverSound.opened (sound : TakeoverSound id state)
    (taken : RequestStep state (.answer request (.opened jobId)) next) :
    Released next ∧ ∀ frozen, frozenBy state request = some frozen →
      frozen = next.session.metadata.messageCount := by
  cases sound with
  | released released =>
    obtain ⟨later, same⟩ := released.requestStep taken
    refine ⟨later, fun frozen read => ?_⟩
    rw [same]
    exact released.frozenBy read
  | closed closed =>
    cases taken with
    | opened held opened => exact absurd opened.1 (closed.look _ _ held)
    | orphanOpened _ _ _ _ _ _ _ _ opened | converted _ _ _ _ _ _ _ opened =>
      exact (closed.not_reopened opened).elim
    | resultOpened _ _ last =>
      exact absurd (mem_of_getLast? last) (closed.silent _)
  | live live =>
    have later := live.requestStep taken (nomatch ·)
    cases taken with
    | opened held opened =>
      cases opened.1.symm.trans (live.look _ _ held).status
    | orphanOpened _ _ _ held _ none =>
      obtain ⟨job, only, _⟩ := live.look_job held
      cases only.symm.trans none
    | resultOpened _ _ last => exact (live.not_opened last).elim
    | converted now held _ _ _ _ _ opened =>
      have marked := (markOpenAfterFinalizeTakeover_cases opened).2
      subst marked
      refine ⟨?_, fun frozen read => ?_⟩
      · cases later with
        | released released => exact released
        | live live => cases live.status
        | closed closed => cases closed.status
      · simp only [frozenBy, held, if_true] at read
        cases read
        exact (live.look _ _ held).messageCount

/-- A session that waits with its finalize job for the worker. -/
structure Initial (state : TakeoverState Stamp History Message Item Hash) : Prop where
  status : state.session.metadata.status = .finalizing
  closedAt : state.session.metadata.closedAt = none
  finalizedAt : state.session.metadata.finalizedAt = none
  bounded : state.session.metadata.recappedUntil ≤ state.session.metadata.messageCount
  attempt : state.session.attempt = none
  job : ∃ job, state.jobs = [job] ∧ job.kind = .finalize state.session.metadata.id ∧
    job.status = .queued
  worker : state.worker = .idle
  running : state.running = none
  preemption : state.preemption = .new
  results : ∀ registration, state.results registration = []
  gate : state.gate = none
  waiting : ∀ request, state.waiting request = none

theorem Initial.sound (initial : Initial state) : ∃ id, TakeoverSound id state := by
  obtain ⟨job, only, kind, queued⟩ := initial.job
  refine ⟨job.id, .live ?_⟩
  exact
    { status := initial.status
      closedAt := initial.closedAt
      finalizedAt := initial.finalizedAt
      held := ⟨initial.bounded, fun attempt now => by cases initial.attempt.symm.trans now⟩
      job := ⟨job, only, rfl, kind, by rw [queued]; exact (nomatch ·)⟩
      copy := fun other copied => by
        rw [initial.worker] at copied
        cases copied
      running := fun running now => by cases initial.running.symm.trans now
      requested := by
        rw [initial.preemption]
        exact (nomatch ·)
      cancelled := by
        rw [initial.preemption]
        exact (nomatch ·)
      stage := by
        rw [initial.worker]
        exact .idle initial.attempt initial.running
      silent := fun registration member => by
        rw [initial.results registration] at member
        cases member
      look := fun request look held => by cases initial.gate.symm.trans held
      frozen := fun request waiting held => by cases (initial.waiting request).symm.trans held }

theorem TakeoverSound.stays (now : state.worker = worker)
    (sound : TakeoverSound id (state.withWorker worker)) : TakeoverSound id state := by
  rwa [← now] at sound

variable {hasher : RecapHasher Message Item Hash} [DecidableEq Hash]

theorem plain_covered {label : RecapLabel Stamp Message Item}
    {session later : RecapState Stamp History Message Item Hash} (held : EngineHeld session)
    (plain : isPlain label) (taken : RecapStep hasher session label later) :
    hasCheckpoint session = true ∧ isEngine label := by
  cases taken with
  | review now | writeClaim now | record now | apply now | finish _ now =>
    exact ⟨(held.attempt _ now).1, trivial⟩
  | append | complete | editClaims | markFinalizing | reopen | takeover | stop | beginRecap
  | beginFinalize | decide | close | prepare => exact plain.elim

include live

variable {session : RecapState Stamp History Message Item Hash}

theorem Live.enter (engaging : state.worker = .engaging job controlled)
    (unasked : controlled = true → hasCheckpoint state.session = true ∨ state.preemption.isCancelRequested = false)
    (taken : RecapStep hasher state.session .beginFinalize session) :
    TakeoverSound id
      (((state.withSession session).withPreemption
        (if controlled && hasCheckpoint state.session then
          state.preemption.markExistingCheckpointPrepared
        else state.preemption)).withWorker (.inside job controlled)) := by
  have effect := engine_effect live.held taken trivial
  have same : hasCheckpoint session = hasCheckpoint state.session := by
    cases taken
    exact hasCheckpoint_congr rfl rfl rfl
  cases controlled with
  | false =>
    obtain ⟨_, registered, finished⟩ := (live.stageAt engaging).late_cases rfl
    exact live.engagedAlone effect registered finished (jobOf engaging rfl) rfl
      (.alone registered finished)
  | true =>
    obtain ⟨_, registered, phase⟩ := (live.stageAt engaging).early_cases rfl
    have listening : Listening state.preemption.phase := phase.imp_right Or.inl
    cases covered : hasCheckpoint state.session with
    | true =>
      exact live.engagedPrepared effect registered rfl (live.uncancelledCovered listening covered)
        (jobOf engaging rfl) rfl
    | false =>
      rw [covered] at same
      have uncovered : hasCheckpoint session = false := same
      exact live.engaged effect registered (jobOf engaging rfl) rfl
        (fun requested => ⟨requested, uncovered⟩) live.cancelled
        (fun cancelable => ⟨cancelable, fun _ => uncovered⟩)
        (.inside registered listening fun _ => uncovered)

theorem Live.plain {label : RecapLabel Stamp Message Item}
    (inside : state.worker = .inside job controlled) (plain : isPlain label)
    (taken : RecapStep hasher state.session label session) :
    TakeoverSound id (state.withSession session) := by
  obtain ⟨covered, engine⟩ := plain_covered live.held plain taken
  have effect := engine_effect live.held taken engine
  refine .stays inside ?_
  cases controlled with
  | false =>
    obtain ⟨registered, finished⟩ := live.insideAlone inside
    exact live.engagedAlone effect registered finished (jobOf inside rfl) rfl
      (.alone registered finished)
  | true =>
    obtain ⟨registered, listening, uncovered⟩ := live.insideControlled inside
    have prepared : state.preemption.phase = .prepared := by
      by_contra other
      rw [uncovered other] at covered
      cases covered
    exact live.engagedPrepared effect registered prepared
      (live.uncancelledCovered listening covered) (jobOf inside rfl) rfl

theorem Live.decide (inside : state.worker = .inside job controlled)
    (taken : RecapStep hasher state.session .decide session) :
    TakeoverSound id
      ((state.withSession session).withPreemption
        (if controlled && marksExisting session then
          state.preemption.markExistingCheckpointPrepared
        else state.preemption)) := by
  have effect := engine_effect live.held taken trivial
  have same : hasCheckpoint session = hasCheckpoint state.session := by
    cases taken
    exact hasCheckpoint_congr rfl rfl rfl
  refine .stays inside ?_
  cases controlled with
  | false =>
    obtain ⟨registered, finished⟩ := live.insideAlone inside
    exact live.engagedAlone effect registered finished (jobOf inside rfl) rfl
      (.alone registered finished)
  | true =>
    obtain ⟨registered, listening, uncovered⟩ := live.insideControlled inside
    cases marks : marksExisting session with
    | true =>
      have covered := same.symm.trans (marksExisting_covered effect.held marks)
      exact live.engagedPrepared effect registered rfl (live.uncancelledCovered listening covered)
        (jobOf inside rfl) rfl
    | false =>
      refine live.engaged effect registered (jobOf inside rfl) rfl ?_ live.cancelled ?_ ?_
      · intro requested
        exact ⟨requested, same.trans (live.requested requested).1⟩
      · intro cancelable
        exact ⟨cancelable, same.trans⟩
      · exact .inside registered listening fun other => same.trans (uncovered other)

theorem Live.commit {label : RecapLabel Stamp Message Item}
    (inside : state.worker = .inside job true) (engine : isEngine label)
    (committed : state.preemption.commitPrepared = some preemption)
    (taken : RecapStep hasher state.session label session) :
    TakeoverSound id ((state.withSession session).withPreemption preemption) := by
  have effect := engine_effect live.held taken engine
  obtain ⟨registered, listening, _⟩ := live.insideControlled inside
  unfold SessionPreparedPreemptionControl.commitPrepared at committed
  split at committed
  case isTrue => cases committed
  case isFalse unrequested =>
    obtain rfl := Option.some.inj committed
    refine .stays inside ?_
    exact live.engagedPrepared effect registered rfl (live.uncancelled listening unrequested)
      (jobOf inside rfl) rfl

omit live

theorem isEngine_commit {label : RecapLabel Stamp Message Item}
    (commits : (∃ analysis prepared, label = .prepare analysis prepared) ∨
      (∃ finalizedAt, label = .close finalizedAt)) : isEngine label := by
  rcases commits with ⟨analysis, prepared, rfl⟩ | ⟨finalizedAt, rfl⟩
  · trivial
  · trivial

include live in
theorem Live.engineStep (taken : EngineStep hasher state label next) : TakeoverSound id next := by
  cases taken with
  | enter engaging unasked taken => exact live.enter engaging unasked taken
  | markFinalizing _ taken =>
    cases taken with
    | markFinalizing marked =>
      have isOpen := (markFinalizing_cases marked).1
      rw [live.status] at isOpen
      cases isOpen
  | alreadyFinalized _ finalized | completed _ _ finalized =>
    rw [live.finalizedAt] at finalized
    cases finalized
  | plain inside plain taken => exact live.plain inside plain taken
  | decide inside taken => exact live.decide inside taken
  | commit inside commits committed taken =>
    exact live.commit inside (isEngine_commit commits) committed taken
  | @commitUncontrolled job _ session inside commits taken =>
    obtain ⟨registered, finished⟩ := live.insideAlone inside
    exact .stays inside (live.engagedAlone (engine_effect live.held taken (isEngine_commit commits))
      registered finished (jobOf inside rfl) rfl (.alone registered finished))
  | preempted inside now gives =>
    obtain ⟨registered, listening, _⟩ := live.insideControlled inside
    have asked : state.preemption.phase = .cancelRequested := by
      rcases gives with ⟨requested, _⟩ | ⟨cancel | requested, _⟩
      · exact of_decide_eq_true requested
      · exact live.asked listening cancel
      · exact of_decide_eq_true requested
    exact live.giveWay inside rfl registered asked
  | preemptedWaiting engaging cancel =>
    obtain ⟨attempt, registered, phase⟩ := (live.stageAt engaging).early_cases rfl
    have asked := live.asked (phase.imp_right Or.inl) cancel
    have gone := live.giveWay engaging rfl registered asked
    rw [leaveEngine_outside attempt] at gone
    exact gone
  | failed now => exact live.engineFailed now
  | beside which taken =>
    rcases which with ⟨seq, item, rfl⟩ | ⟨claims, rfl⟩
    all_goals
      have effect := engine_effect live.held taken trivial
      cases taken
      exact .live (live.beside rfl rfl rfl effect.held)

include released

theorem Released.engineStep (taken : EngineStep hasher state label next) :
    Released next ∧ next.session.metadata = state.session.metadata ∧
      next.session.checkpoint = state.session.checkpoint := by
  cases taken with
  | beside which taken =>
    rcases which with ⟨seq, item, rfl⟩ | ⟨claims, rfl⟩
    all_goals
      cases taken
      exact ⟨released.session rfl rfl rfl, rfl, rfl⟩
  | failed now =>
    rcases now with now | now
    all_goals exact (released.notAt now rfl).elim
  | enter now | markFinalizing now | alreadyFinalized now | plain now | decide now | commit now
  | commitUncontrolled now | preempted now | preemptedWaiting now | completed now =>
    exact (released.notAt now rfl).elim

theorem Released.step (taken : TakeoverStep hasher state label next) :
    Released next ∧ next.session.metadata = state.session.metadata ∧
      next.session.checkpoint = state.session.checkpoint := by
  cases taken with
  | engine taken => exact released.engineStep taken
  | worker taken =>
    obtain ⟨later, same⟩ := released.workerStep taken
    exact ⟨later, by rw [same], by rw [same]⟩
  | request taken =>
    obtain ⟨later, same⟩ := released.requestStep taken
    exact ⟨later, by rw [same], by rw [same]⟩

theorem Released.run (run : Trace (TakeoverStep hasher) state labels next) :
    Released next ∧ next.session.metadata = state.session.metadata ∧
      next.session.checkpoint = state.session.checkpoint := by
  induction run with
  | nil => exact ⟨released, rfl, rfl⟩
  | snoc _ taken ih =>
    obtain ⟨before, metadata, checkpoint⟩ := ih
    obtain ⟨after, sameMetadata, sameCheckpoint⟩ := before.step taken
    exact ⟨after, sameMetadata.trans metadata, sameCheckpoint.trans checkpoint⟩

omit released

theorem Closed.engineStep (closed : Closed state) (taken : EngineStep hasher state label next) :
    Closed next ∧ next.session.metadata = state.session.metadata := by
  have outside := closed.attempt
  have final := closed.finalizedAt
  cases taken with
  | enter _ _ taken =>
    cases taken with
    | beginFinalize _ unfinalized =>
      rw [unfinalized] at final
      cases final
  | markFinalizing _ taken =>
    cases taken with
    | markFinalizing marked =>
      cases (markFinalizing_cases marked).1.symm.trans closed.status
  | plain _ plain taken =>
    cases taken with
    | review now | writeClaim now | record now | apply now | finish _ now =>
      cases outside.symm.trans now
    | append | complete | editClaims | markFinalizing | reopen | takeover | stop | beginRecap
    | beginFinalize | decide | close | prepare => exact plain.elim
  | decide _ taken =>
    cases taken with
    | decide now => cases outside.symm.trans now
  | commit _ commits _ taken | commitUncontrolled _ commits taken =>
    rcases commits with ⟨analysis, prepared, rfl⟩ | ⟨finalizedAt, rfl⟩
    · cases taken with
      | prepare _ _ now => cases outside.symm.trans now
    · cases taken with
      | close _ now => cases outside.symm.trans now
  | preempted _ now => cases outside.symm.trans now
  | alreadyFinalized | preemptedWaiting | completed => exact ⟨{ closed with }, rfl⟩
  | failed => exact ⟨{ closed with attempt := rfl }, rfl⟩
  | beside which taken =>
    rcases which with ⟨seq, item, rfl⟩ | ⟨claims, rfl⟩
    all_goals
      cases taken
      exact ⟨{ closed with }, rfl⟩

theorem Closed.step (closed : Closed state) (taken : TakeoverStep hasher state label next) :
    Closed next ∧ next.session.metadata = state.session.metadata := by
  cases taken with
  | engine taken => exact closed.engineStep taken
  | worker taken =>
    obtain ⟨later, same⟩ := closed.workerStep taken
    exact ⟨later, by rw [same]⟩
  | request taken =>
    obtain ⟨later, same⟩ := closed.requestStep taken
    exact ⟨later, by rw [same]⟩

theorem TakeoverSound.step (sound : TakeoverSound id state)
    (taken : TakeoverStep hasher state label next) (restored : label ≠ .failedRestore) :
    TakeoverSound id next := by
  cases sound with
  | live live =>
    cases taken with
    | engine taken => exact live.engineStep taken
    | worker taken => exact live.workerStep taken restored
    | request taken => exact live.requestStep taken restored
  | released released => exact .released (released.step taken).1
  | closed closed => exact .closed (closed.step taken).1

theorem EngineStep.advances (held : EngineHeld state.session)
    (taken : EngineStep hasher state label next) : Advances state.session next.session := by
  have effective : ∀ {label : RecapLabel Stamp Message Item} {session},
      RecapStep hasher state.session label session → isEngine label →
      Advances state.session session := fun taken engine =>
    ⟨(engine_effect held taken engine).grows, (engine_effect held taken engine).covered⟩
  cases taken with
  | enter _ _ taken | decide _ taken => exact effective taken trivial
  | plain _ plain taken => exact effective taken (plain_covered held plain taken).2
  | commit _ commits _ taken | commitUncontrolled _ commits taken =>
    exact effective taken (isEngine_commit commits)
  | beside which taken =>
    rcases which with ⟨seq, item, rfl⟩ | ⟨claims, rfl⟩
    all_goals exact effective taken trivial
  | markFinalizing _ taken =>
    cases taken with
    | markFinalizing marked =>
      obtain ⟨_, rfl⟩ := markFinalizing_cases marked
      exact .same rfl rfl rfl
  | alreadyFinalized | preempted | preemptedWaiting | completed | failed => exact .same rfl rfl rfl

/-- A checkpoint that began at `start` is behind the cursor, or covers the pending range until
the session is closed. -/
def Guarded (start : Nat) (state : TakeoverState Stamp History Message Item Hash) : Prop :=
  start ≤ state.session.metadata.recappedUntil ∧
    (start = state.session.metadata.recappedUntil →
      hasCheckpoint state.session = true ∨ state.session.metadata.status = .closed)

theorem Guarded.step (guarded : Guarded start state) (sound : TakeoverSound id state)
    (taken : TakeoverStep hasher state label next) : Guarded start next := by
  cases sound with
  | released released =>
    obtain ⟨_, metadata, checkpoint⟩ := released.step taken
    have covered : hasCheckpoint next.session = hasCheckpoint state.session :=
      hasCheckpoint_congr checkpoint (by rw [metadata]) (by rw [metadata])
    unfold Guarded
    rw [metadata, covered]
    exact guarded
  | closed closed =>
    obtain ⟨later, metadata⟩ := closed.step taken
    refine ⟨?_, fun _ => .inr later.status⟩
    rw [metadata]
    exact guarded.1
  | live live =>
    have advances : Advances state.session next.session := by
      cases taken with
      | engine taken => exact taken.advances live.held
      | worker taken | request taken => exact taken.advances
    refine ⟨guarded.1.trans advances.grows, fun atCursor => .inl ?_⟩
    have still : next.session.metadata.recappedUntil = state.session.metadata.recappedUntil :=
      le_antisymm (atCursor ▸ guarded.1) advances.grows
    rcases guarded.2 (atCursor.trans still) with covered | closed
    · exact advances.covered covered still
    · cases closed.symm.trans live.status

theorem TakeoverSound.run (sound : TakeoverSound id state)
    (run : Trace (TakeoverStep hasher) state labels next) (restored : .failedRestore ∉ labels) :
    TakeoverSound id next ∧ ∀ start, Guarded start state → Guarded start next := by
  induction run with
  | nil => exact ⟨sound, fun _ guarded => guarded⟩
  | snoc _ taken ih =>
    rw [mem_append, not_or] at restored
    obtain ⟨before, kept⟩ := ih restored.1
    refine ⟨before.step taken fun same => restored.2 (by simp [same]), fun start guarded => ?_⟩
    exact (kept start guarded).step before taken

variable {prepared : List Claim}

theorem prepare_attempting {session later : RecapState Stamp History Message Item Hash}
    (taken : RecapStep hasher session (.prepare analysis prepared) later) :
    session.attempt ≠ none := by
  cases taken with
  | prepare _ _ generating =>
    rw [generating]
    exact (nomatch ·)

variable {checkpoint : FinalizeCheckpoint Hash}

theorem prepare_covers {session later : RecapState Stamp History Message Item Hash}
    (held : EngineHeld session)
    (taken : RecapStep hasher session (.prepare analysis prepared) later)
    (written : later.checkpoint = some checkpoint) :
    checkpoint.recapStartIndex = later.metadata.recappedUntil ∧ hasCheckpoint later = true := by
  have after := (engine_effect held taken trivial).held
  cases taken with
  | prepare _ _ generating =>
    cases written
    obtain ⟨covered, covers, _⟩ := after.attempt _ rfl
    exact ⟨covers.1, covered⟩

theorem prepare_guarded (sound : TakeoverSound id state)
    (taken : TakeoverStep hasher state (.engine (.prepare analysis prepared)) next)
    (written : next.session.checkpoint = some checkpoint) :
    Guarded checkpoint.recapStartIndex next := by
  have prepares : RecapStep hasher state.session (.prepare analysis prepared) next.session := by
    cases taken with
    | engine taken =>
      cases taken with
      | plain _ plain => exact plain.elim
      | commit _ _ _ taken | commitUncontrolled _ _ taken => exact taken
      | beside which => rcases which with ⟨_, _, other⟩ | ⟨_, other⟩ <;> cases other
    | worker taken | request taken => cases taken
  cases sound with
  | released released => exact absurd released.attempt (prepare_attempting prepares)
  | closed closed => exact absurd closed.attempt (prepare_attempting prepares)
  | live live =>
    obtain ⟨starts, covered⟩ := prepare_covers live.held prepares written
    exact ⟨starts.le, fun _ => .inl covered⟩

/-- A request that is told that the session is open finds it open and its job a recap of what the
request froze, and the attempt neither writes a checkpoint nor closes the session any more.  Once it
has written one, no request opens the session before it is closed or its cursor has passed the start. -/
theorem resume_takeover_excludes_finalize (hasher : RecapHasher Message Item Hash)
    {first state : TakeoverState Stamp History Message Item Hash}
    {labels : List (TakeoverLabel Stamp Message Item)} (initial : Initial first)
    (run : Trace (TakeoverStep hasher) first labels state) (restored : .failedRestore ∉ labels) :
    (∀ request jobId opened,
      TakeoverStep hasher state (.answer request (.opened jobId)) opened →
      opened.session.metadata.status = .opened ∧ hasCheckpoint opened.session = false ∧
        (∃ job, opened.jobs = [job] ∧ ∀ frozen, frozenBy state request = some frozen →
          job.kind = .recap opened.session.metadata.id frozen) ∧
        ∀ later after, Trace (TakeoverStep hasher) opened later after →
          after.session.metadata = opened.session.metadata ∧
            after.session.checkpoint = opened.session.checkpoint) ∧
    ∀ analysis prepared written checkpoint,
      TakeoverStep hasher state (.engine (.prepare analysis prepared)) written →
      written.session.checkpoint = some checkpoint →
      ∀ later after, Trace (TakeoverStep hasher) written later after → .failedRestore ∉ later →
        after.session.metadata.status = .opened →
        checkpoint.recapStartIndex < after.session.metadata.recappedUntil := by
  obtain ⟨id, start⟩ := initial.sound
  obtain ⟨sound, _⟩ := start.run run restored
  constructor
  · intro request jobId opened taken
    have answered : RequestStep state (.answer request (.opened jobId)) opened := by
      cases taken with
      | engine taken | worker taken => cases taken
      | request taken => exact taken
    obtain ⟨released, frozen⟩ := sound.opened answered
    obtain ⟨job, only, kind⟩ := released.job
    refine ⟨released.status, released.uncovered, ⟨job, only, fun count read => ?_⟩, ?_⟩
    · rw [frozen count read]
      exact kind
    · intro later after run
      exact (released.run run).2
  · intro analysis prepared written checkpoint taken found later after run quiet isOpen
    have guarded := prepare_guarded sound taken found
    obtain ⟨afterSound, kept⟩ := (sound.step taken (nomatch ·)).run run quiet
    obtain ⟨behind, covered⟩ := kept _ guarded
    refine lt_of_le_of_ne behind fun atCursor => ?_
    cases afterSound with
    | live live => cases live.status.symm.trans isOpen
    | closed closed => cases closed.status.symm.trans isOpen
    | released released =>
      rcases covered atCursor with present | closed
      · cases released.uncovered.symm.trans present
      · cases closed.symm.trans isOpen

/-- A session that is finalizing has the one job that finalizes it, one that is open again has the
recap it was reopened with and no attempt at work, and one that is closed was finalized. -/
theorem session_follows_its_job (initial : Initial first)
    (run : Trace (TakeoverStep hasher) first labels state) (restored : .failedRestore ∉ labels) :
    match state.session.metadata.status with
    | .finalizing => (∃ id job, state.jobs = [job] ∧
        Unresolved id state.session.metadata.id job) ∧
        ∀ registration, .opened ∉ state.results registration
    | .opened => state.session.attempt = none ∧ hasCheckpoint state.session = false ∧
        ∃ job, state.jobs = [job] ∧
          job.kind = .recap state.session.metadata.id state.session.metadata.messageCount
    | .closed => state.session.attempt = none ∧ state.session.metadata.finalizedAt.isSome ∧
        ∀ registration, .opened ∉ state.results registration := by
  obtain ⟨id, sound⟩ := initial.sound
  cases (sound.run run restored).1 with
  | live live =>
    rw [live.status]
    exact ⟨⟨id, live.job⟩, live.silent⟩
  | released released =>
    rw [released.status]
    exact ⟨released.attempt, released.uncovered, released.job⟩
  | closed closed =>
    rw [closed.status]
    exact ⟨closed.attempt, closed.finalizedAt, closed.silent⟩

end

namespace FailedRecovery

open Session.LongerRecap (lengths)

abbrev State := TakeoverState Unit Unit Unit Unit Nat

def job : SupervisorJob Unit :=
  createFinalizeJob "job".toList "agent".toList "session".toList true ()

def waiting : State where
  session :=
    { metadata := ⟨"session".toList, "agent".toList, .finalizing, none, "model".toList, 1, none, 0,
        some 0, some 0, none⟩
      messages := [()]
      completions := []
      claims := []
      checkpoint := none
      attempt := none
      generations := [] }
  jobs := [job]
  worker := .idle
  running := none
  registrations := 0
  preemption := .new
  resumeTarget := none
  results := fun _ => []
  gate := none
  waiting := fun _ => none

theorem waiting_initial : Initial waiting where
  status := rfl
  closedAt := rfl
  finalizedAt := rfl
  bounded := by decide
  attempt := rfl
  job := ⟨job, rfl, rfl, rfl⟩
  worker := rfl
  running := rfl
  preemption := rfl
  results := fun _ => rfl
  gate := rfl
  waiting := fun _ => rfl

/-- A resume that finds the job still queued. -/
theorem resume_takeover_excludes_finalize_queued :
    ∃ looked opened, Trace (TakeoverStep lengths) waiting [.look 0] looked ∧
      TakeoverStep lengths looked (.answer 0 (.opened (some "job".toList))) opened ∧
      frozenBy looked 0 = some 1 ∧ opened.session.metadata.status = .opened ∧
      (∃ job, opened.jobs = [job] ∧ job.kind = .recap "session".toList 1) := by
  have looks : Trace (TakeoverStep lengths) waiting [.look 0]
      { waiting with gate := some (0, readLook waiting) } :=
    Trace.single (.request (.look 0 rfl rfl))
  have opens : TakeoverStep lengths { waiting with gate := some (0, readLook waiting) }
      (.answer 0 (.opened (some "job".toList))) _ :=
    .request (.converted () rfl ⟨rfl, rfl, rfl⟩
      (show (readLook waiting).unresolved = [job] by decide) (by decide) (by decide) (by decide)
      rfl)
  have holds := resume_takeover_excludes_finalize lengths waiting_initial looks (by simp)
  obtain ⟨isOpen, _, ⟨job, only, kind⟩, _⟩ := holds.1 0 _ _ opens
  exact ⟨_, _, looks, opens, rfl, isOpen, job, only, kind 1 rfl⟩

abbrev Label := TakeoverLabel Unit Unit Unit

def UnclosedStep (state : State) (label : Label) (next : State) : Prop :=
  TakeoverStep lengths state label next ∧ next.session.metadata.status ≠ .closed

def checkpoint : FinalizeCheckpoint Nat := ⟨some [], [], 0, 1, 1, [], .prepared⟩

def prepared : State :=
  { waiting with
    session :=
      { waiting.session with
        checkpoint := some checkpoint
        attempt := some (.reviewing checkpoint (.finalize 1 0))
        generations := [⟨0, 1, false⟩] }
    jobs := [countedJob (startedJob job ())]
    worker := .inside (countedJob (startedJob job ())) true
    running := some (1, "job".toList)
    registrations := 1
    preemption := ⟨false, .prepared⟩ }

theorem preparedRun : ∃ state, Trace (TakeoverStep lengths) waiting
      [.worker, .worker, .worker, .engine .beginFinalize, .engine .decide] state ∧
    TakeoverStep lengths state (.engine (.prepare [] [])) prepared := by
  have claimed : Trace (TakeoverStep lengths) waiting [.worker] _ :=
    Trace.single (.worker (.claim rfl rfl (mem_singleton.mpr rfl) rfl rfl))
  have counted := (claimed.snoc (.worker (.start () rfl))).snoc (.worker (.count rfl))
  have entered := counted.snoc
    (.engine (.enter rfl (fun _ => .inr rfl) (.beginFinalize rfl rfl rfl rfl rfl)))
  have decided := entered.snoc (.engine (.decide rfl (.decide rfl fun nothing =>
    nothing.1.elim (absurd · (by decide)) (absurd · (by decide)))))
  exact ⟨_, decided, .engine (.commit rfl (.inl ⟨[], [], rfl⟩) rfl (.prepare [] [] rfl))⟩

theorem reopenedRun : ∃ labels after, Trace UnclosedStep prepared labels after ∧
    .failedRestore ∉ labels ∧ after.session.metadata.status = .opened := by
  have failed : Trace UnclosedStep prepared [.worker] _ :=
    Trace.single ⟨.engine (.failed (.inr rfl)), by decide⟩
  have reported := (((failed.snoc ⟨.worker (.finish rfl), by decide⟩).snoc
    ⟨.worker (.failed rfl), by decide⟩).snoc ⟨.worker (.fail [] () rfl), by decide⟩).snoc
    ⟨.worker (.reportFailed [] rfl rfl), by decide⟩
  have idle := reported.snoc ⟨.worker (.leave rfl rfl), by decide⟩
  have again := ((idle.snoc
    ⟨.worker (.claim rfl rfl (mem_singleton.mpr rfl) rfl rfl), by decide⟩).snoc
    ⟨.worker (.start () rfl), by decide⟩).snoc ⟨.worker (.count rfl), by decide⟩
  have recovering := again.snoc ⟨.engine (.enter rfl (fun _ => .inl rfl)
    (.beginFinalize rfl rfl rfl rfl rfl)), by decide⟩
  have applied := (recovering.snoc ⟨.engine (.plain rfl (by trivial) (.review rfl)), by decide⟩).snoc
    ⟨.engine (.plain rfl (by trivial) (.apply rfl rfl)), by decide⟩
  have advanced := applied.snoc ⟨.engine (.plain rfl (by trivial) (.finish () rfl)), by decide⟩
  have failedAgain := (((advanced.snoc ⟨.engine (.failed (.inr rfl)), by decide⟩).snoc
    ⟨.worker (.finish rfl), by decide⟩).snoc ⟨.worker (.failed rfl), by decide⟩).snoc
    ⟨.worker (.fail [] () rfl), by decide⟩
  have idleAgain := (failedAgain.snoc ⟨.worker (.reportFailed [] rfl rfl), by decide⟩).snoc
    ⟨.worker (.leave rfl rfl), by decide⟩
  have looked := idleAgain.snoc ⟨.request (.look 0 rfl rfl), by decide⟩
  have opened := looked.snoc ⟨.request (.converted () rfl ⟨rfl, rfl, rfl⟩ rfl rfl rfl
    (.inl rfl) rfl), by decide⟩
  exact ⟨_, _, opened, by simp, rfl⟩

/-- Behind a checkpoint the session may be open again before it was closed. -/
theorem checkpoint_does_not_forbid_takeover :
    ¬ ∀ (first state written after : State) (labels later : List Label)
      (analysis prepared : List Claim), Initial first →
      Trace (TakeoverStep lengths) first labels state → .failedRestore ∉ labels →
      TakeoverStep lengths state (.engine (.prepare analysis prepared)) written →
      Trace UnclosedStep written later after → .failedRestore ∉ later →
      after.session.metadata.status ≠ .opened := by
  intro forbids
  obtain ⟨state, before, prepares⟩ := preparedRun
  obtain ⟨later, after, run, restored, opened⟩ := reopenedRun
  exact forbids _ _ _ _ _ _ _ _ waiting_initial before (by simp) prepares run restored opened

end FailedRecovery

theorem session_follows_its_job_prepared : ∃ state : FailedRecovery.State,
    (∃ id job, state.jobs = [job] ∧ Unresolved id state.session.metadata.id job) ∧
      ∀ registration, .opened ∉ state.results registration := by
  obtain ⟨state, run, prepares⟩ := FailedRecovery.preparedRun
  exact ⟨_, session_follows_its_job FailedRecovery.waiting_initial (run.snoc prepares) (by simp)⟩

end AgentClaimNetwork.Supervisor
