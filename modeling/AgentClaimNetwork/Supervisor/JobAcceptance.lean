import AgentClaimNetwork.Supervisor.JobSafety

/-!
What becomes of a finalization that was accepted: its job is there until the session is closed or
handed over, if no crash falls into the handing over.
-/

namespace AgentClaimNetwork.Supervisor

open Library Session

section

variable {Stamp : Type} {state next : StoreState Stamp} {label : StoreLabel}
  {job stored : SupervisorJob Stamp}

def Takes (sessionId : Api.Text) : Option (Taking Stamp) → Prop
  | some (.converting _ other _ _) => other = sessionId
  | some (.opened other _) => other = sessionId
  | _ => False

def Cared (state : StoreState Stamp) (sessionId : Api.Text) : Prop :=
  state.status sessionId = .closed ∨ (∃ job ∈ state.jobs, PendingJob sessionId job) ∨
    Takes sessionId state.taking

def AcceptedSound (state : StoreState Stamp) : Prop :=
  ∀ sessionId, state.accepted sessionId = true → Cared state sessionId

theorem Cared.write (sound : StoreSound state) {sessionId : Api.Text} (cared : Cared state sessionId)
    (jobs : next.jobs = writeJob state.jobs job) (member : stored ∈ state.jobs)
    (same : job.id = stored.id)
    (status : state.status sessionId = .closed → next.status sessionId = .closed)
    (taking : Takes sessionId state.taking → Cared next sessionId)
    (kept : PendingJob sessionId stored → PendingJob sessionId job ∨ Cared next sessionId) :
    Cared next sessionId := by
  rcases cared with closed | ⟨waits, inside, pending⟩ | takes
  · exact .inl (status closed)
  · by_cases own : waits.id = stored.id
    · obtain rfl := sound.jobs.same inside member own
      rcases kept pending with still | cared
      · exact .inr (.inl ⟨job, jobs ▸ mem_writeJob_self inside same, still⟩)
      · exact cared
    · exact .inr (.inl ⟨waits, jobs ▸ mem_writeJob_other inside (same ▸ own), pending⟩)
  · exact taking takes

variable {sessionId : Api.Text}

theorem Cared.grow (cared : Cared state sessionId)
    (status : state.status sessionId = .closed → next.status sessionId = .closed)
    (jobs : ∀ job ∈ state.jobs, job ∈ next.jobs)
    (taking : Takes sessionId state.taking → Cared next sessionId) : Cared next sessionId := by
  rcases cared with closed | ⟨waits, inside, pending⟩ | takes
  · exact .inl (status closed)
  · exact .inr (.inl ⟨waits, jobs waits inside, pending⟩)
  · exact taking takes

theorem not_takes (free : state.taking = none) : ¬ Takes sessionId state.taking := by
  rw [free]
  exact id

theorem closed_kept {sessionId other : Api.Text} (unclosed : state.status other ≠ .closed)
    (closed : state.status sessionId = .closed) :
    (state.setStatus other status).status sessionId = .closed := by
  have apart : sessionId ≠ other := by
    rintro rfl
    exact unclosed closed
  exact (if_neg apart).trans closed

theorem recovered_kept (sound : StoreSound state) (member : stored ∈ state.jobs)
    (running : stored.status = .running)
    (pending : PendingJob sessionId stored) :
    PendingJob sessionId (state.recovered stored retryMessage exhaustedMessage now) ∨
      state.status sessionId = .closed := by
  have recovery := recoverStaleRunningJob_recovery stored (state.status (jobSessionIdRef stored))
    retryMessage exhaustedMessage now
  have session : jobSessionIdRef stored = sessionId := by
    unfold jobSessionIdRef
    rw [pending.1]
  have unopened := (sound.jobs.job stored member).runs sessionId pending.1 running
  rcases recovery.outcome with ⟨_, elsewhere⟩ | ⟨again, _⟩
  · refine .inr ?_
    have unfinalizing := elsewhere sessionId pending.1
    rw [session] at unfinalizing
    cases found : state.status sessionId with
    | opened => exact absurd found unopened
    | finalizing => exact absurd found unfinalizing
    | closed => rfl
  · refine .inl ⟨recovery.kind.trans pending.1, fun done => ?_⟩
    rcases again with failed | ⟨queued, _⟩
    · cases failed.symm.trans done
    · cases queued.symm.trans done

section

variable (accepted : AcceptedSound state)
include accepted

theorem AcceptedSound.created (free : state.taking = none) :
    AcceptedSound (state.create job) := fun sessionId was =>
  (accepted sessionId was).grow (fun closed => closed)
    (fun _ member => List.mem_append_left _ member) fun takes => absurd takes (not_takes free)

theorem AcceptedSound.clientWrite (sound : StoreSound state)
    (free : state.taking = none) (jobs : next.jobs = writeJob state.jobs job)
    (member : stored ∈ state.jobs) (same : job.id = stored.id) (statuses : next.status = state.status)
    (accepts : next.accepted = state.accepted)
    (kept : ∀ sessionId, PendingJob sessionId stored →
      PendingJob sessionId job ∨ Cared next sessionId) :
    AcceptedSound next := fun sessionId was => by
  rw [accepts] at was
  exact (accepted sessionId was).write sound jobs member same (fun closed => statuses ▸ closed)
    (fun takes => absurd takes (not_takes free)) (kept sessionId)

theorem AcceptedSound.clientStep (sound : StoreSound state)
    (taken : ClientStep state label next) : AcceptedSound next := by
  cases taken with
  | markFinalizing opened =>
    exact fun sessionId was => (accepted sessionId was).grow
      (closed_kept (by rw [opened]; rintro ⟨⟩)) (fun _ member => member)
      fun takes => .inr (.inr takes)
  | enqueueFinalize _ _ _ _ free | enqueueRecap _ _ _ _ _ free | retryOrphan _ _ _ _ free
  | orphanCheckpoint _ _ _ _ free => exact accepted.created free.1
  | @enqueued accepting job free finalizing only =>
    obtain ⟨member, pending⟩ := unresolved_single only
    intro sessionId was
    by_cases same : sessionId = accepting
    · subst same
      exact .inr (.inl ⟨job, member, pending⟩)
    · have before : state.accepted sessionId = true := by
        simpa [StoreState.setAccepted, same] using was
      exact (accepted sessionId before).grow (fun closed => closed) (fun _ member => member)
        fun takes => .inr (.inr takes)
  | retry now free finalizing member kind failed =>
    exact accepted.clientWrite sound free.1 rfl member rfl rfl rfl
      fun sessionId pending => .inl ⟨pending.1, by rintro ⟨⟩⟩
  | resumeClosed now free closed only =>
    obtain ⟨member, pending⟩ := unresolved_single only
    refine accepted.clientWrite sound free.1 rfl member rfl rfl rfl fun sessionId also => ?_
    cases pending.1.symm.trans also.1
    exact .inr (.inl closed)
  | orphanRecap _ _ _ _ free =>
    exact fun sessionId was => (accepted sessionId was).grow (fun closed => closed)
      (fun _ member => List.mem_append_left _ member) fun takes => absurd takes (not_takes free.1)
  | orphanNoRecap free =>
    exact fun sessionId was => (accepted sessionId was).grow (fun closed => closed)
      (fun _ member => member) fun takes => absurd takes (not_takes free.1)
  | orphanOpened held finalizing =>
    refine fun sessionId was => (accepted sessionId was).grow
      (closed_kept (by rw [finalizing]; rintro ⟨⟩)) (fun _ member => member) fun takes => ?_
    rw [held] at takes
    exact takes.elim
  | @orphanNotOpened opening recap notifyOnCompletion now held =>
    intro sessionId was
    have taking := sound.taking
    rw [held] at taking
    have untaken : ¬ Takes sessionId state.taking := by
      rw [held]
      exact id
    cases recap with
    | none =>
      exact (accepted sessionId was).grow (fun closed => closed) (fun _ member => member)
        fun takes => absurd takes untaken
    | some job =>
      cases taking with
      | orphan _ _ created =>
        obtain ⟨stored, member, id, idle⟩ := (created job rfl).1
        exact (accepted sessionId was).write sound rfl member id.symm (fun closed => closed)
          (fun takes => absurd takes untaken) fun pending => absurd pending (idle sessionId)
  | resumeRecovered retryMessage exhaustedMessage now free finalizing only running =>
    obtain ⟨member, _⟩ := unresolved_single only
    refine accepted.clientWrite sound free.1 rfl member
      (recoverStaleRunningJob_recovery _ _ _ _ _).id rfl rfl fun sessionId also => ?_
    exact (recovered_kept sound member running also).imp_right
      Or.inl
  | resumeReset now free finalizing only =>
    obtain ⟨member, _⟩ := unresolved_single only
    exact accepted.clientWrite sound free.1 rfl member rfl rfl rfl
      fun sessionId pending => .inl ⟨pending.1, by rintro ⟨⟩⟩
  | convert recapEndIndex now free finalizing only =>
    obtain ⟨member, pending⟩ := unresolved_single only
    refine accepted.clientWrite sound free.1 rfl member rfl rfl rfl fun sessionId also => ?_
    cases pending.1.symm.trans also.1
    exact .inr (.inr (.inr rfl))

theorem AcceptedSound.takingStep (sound : StoreSound state)
    (taken : TakingStep state label next) : AcceptedSound next := by
  have taking := sound.taking
  cases taken with
  | opened held finalizing =>
    refine fun sessionId was => (accepted sessionId was).grow
      (closed_kept (by rw [finalizing]; exact (nomatch ·))) (fun _ member => member) fun takes => ?_
    rw [held] at takes
    exact .inr (.inr takes)
  | restored held =>
    rw [held] at taking
    cases taking with
    | converting pending clear inside =>
      obtain ⟨stored, member, id, idle⟩ := inside
      refine fun sessionId was => (accepted sessionId was).write sound rfl member id.symm
        (fun closed => closed) (fun takes => ?_) fun also => absurd also (idle sessionId)
      rw [held] at takes
      cases takes
      exact .inr (.inl ⟨_, mem_writeJob_self member id.symm, pending⟩)
  | @answered answering byWorker held =>
    intro sessionId was
    by_cases same : sessionId = answering
    · simp [StoreState.setAccepted, StoreState.take, StoreState.withWorker, same] at was
    · have before : state.accepted sessionId = true := by
        simpa [StoreState.setAccepted, StoreState.take, StoreState.withWorker, same] using was
      refine (accepted sessionId before).grow (fun closed => closed) (fun _ member => member)
        fun takes => ?_
      rw [held] at takes
      exact absurd takes.symm same

theorem AcceptedSound.workerWrite (sound : StoreSound state)
    (jobs : next.jobs = writeJob state.jobs job) (member : stored ∈ state.jobs)
    (same : job.id = stored.id) (statuses : next.status = state.status)
    (accepts : next.accepted = state.accepted) (taking : next.taking = state.taking)
    (kept : ∀ sessionId, PendingJob sessionId stored →
      PendingJob sessionId job ∨ state.status sessionId = .closed) : AcceptedSound next :=
  fun sessionId was => by
    rw [accepts] at was
    refine (accepted sessionId was).write sound jobs member same (fun closed => statuses ▸ closed)
      (fun takes => .inr (.inr (taking ▸ takes))) fun pending => ?_
    exact (kept sessionId pending).imp_right fun closed => .inl (statuses ▸ closed)

theorem AcceptedSound.unchanged (jobs : next.jobs = state.jobs)
    (statuses : next.status = state.status) (accepts : next.accepted = state.accepted)
    (taking : next.taking = state.taking) : AcceptedSound next := fun sessionId was => by
  rw [accepts] at was
  have cared := accepted sessionId was
  unfold Cared at cared ⊢
  rw [jobs, statuses, taking]
  exact cared

theorem AcceptedSound.workerStep (sound : StoreSound state)
    (taken : JobWorkerStep state label next) : AcceptedSound next := by
  cases taken with
  | claim | complete | fail | giveWay | runnerError | unregister | leave =>
    exact accepted.unchanged rfl rfl rfl rfl
  | start now claimed =>
    cases sound.workerAt claimed with
    | free free => cases free
    | claimed holds =>
      exact accepted.workerWrite sound rfl holds.member rfl rfl rfl rfl
        fun sessionId pending => .inl ⟨pending.1, (nomatch ·)⟩
  | defer message now started =>
    cases sound.workerAt started with
    | free free => cases free
    | started holds =>
      exact accepted.workerWrite sound rfl holds.member rfl rfl rfl rfl
        fun sessionId pending => .inl ⟨pending.1, (nomatch ·)⟩
  | execute started =>
    cases sound.workerAt started with
    | free free => cases free
    | started holds =>
      exact accepted.workerWrite sound rfl holds.member rfl rfl rfl rfl
        fun sessionId pending => .inl ⟨pending.1, pending.2⟩
  | @close job closing engaged kind finalizing =>
    intro sessionId was
    by_cases same : sessionId = closing
    · exact .inl (if_pos same)
    · exact (accepted sessionId was).grow
        (closed_kept (by rw [finalizing]; exact (nomatch ·))) (fun _ member => member)
        fun takes => .inr (.inr takes)
  | convert recapEndIndex now free preempted kind =>
    cases sound.workerAt preempted with
    | free free => cases free
    | preempted holds =>
      refine accepted.clientWrite sound free rfl holds.member rfl rfl rfl
        fun sessionId also => ?_
      cases kind.symm.trans also.1
      exact .inr (.inr (.inr rfl))
  | succeed now completed =>
    cases sound.workerAt completed with
    | free free => cases free
    | completed member id same attempts closed =>
      exact accepted.workerWrite sound rfl member id.symm rfl rfl rfl
        fun sessionId pending => .inr (closed sessionId (same.symm.trans pending.1))
  | failed message now failed =>
    cases sound.workerAt failed with
    | free free => cases free
    | failed holds =>
      refine accepted.workerWrite sound rfl holds.member ?_ rfl rfl rfl
        fun sessionId pending => .inl ?_
      · unfold applyJobAttemptFailure
        split <;> rfl
      · unfold applyJobAttemptFailure
        split
        all_goals exact ⟨pending.1, (nomatch ·)⟩
  | recover retryMessage exhaustedMessage now free leaving member id running =>
    exact accepted.workerWrite sound rfl member
      (recoverStaleRunningJob_recovery _ _ _ _ _).id rfl rfl rfl fun sessionId also =>
      recovered_kept sound member running also

end

def CarefulStep (state : StoreState Stamp) (label : StoreLabel) (next : StoreState Stamp) : Prop :=
  StoreStep state label next ∧ (label = .crash → ∀ sessionId, ¬ Takes sessionId state.taking)

theorem AcceptedSound.step (accepted : AcceptedSound state) (sound : StoreSound state)
    (taken : CarefulStep state label next) : AcceptedSound next := by
  obtain ⟨taken, careful⟩ := taken
  cases taken with
  | client taken => exact accepted.clientStep sound taken
  | taking taken => exact accepted.takingStep sound taken
  | worker taken => exact accepted.workerStep sound taken
  | restart taken =>
    cases taken with
    | crash =>
      exact fun sessionId was => (accepted sessionId was).grow (fun closed => closed)
        (fun _ member => member) fun takes => absurd takes (careful rfl sessionId)
    | reconcile retryMessage exhaustedMessage now _ _ member running =>
      exact accepted.workerWrite sound rfl member
        (recoverStaleRunningJob_recovery _ _ _ _ _).id rfl rfl rfl fun sessionId also =>
        recovered_kept sound member running also
    | booted => exact accepted.unchanged rfl rfl rfl rfl

def JobsKept (state : StoreState Stamp) : Prop :=
  StoreSound state ∧ AcceptedSound state

theorem JobsKept.step (taken : CarefulStep state label next) (kept : JobsKept state) :
    JobsKept next :=
  ⟨kept.1.step taken.1, kept.2.step kept.1 taken⟩

def StoreState.empty (status : Api.Text → SessionStatus) : StoreState Stamp where
  jobs := []
  status := status
  worker := .idle
  registered := none
  taking := none
  accepted := fun _ => false
  executions := fun _ => 0

theorem empty_sound :
    StoreSound (StoreState.empty status : StoreState Stamp) where
  jobs :=
    { ids := List.nodup_nil
      unique := (nomatch ·, ·)
      job := (nomatch ·, ·)
      unborn := fun _ _ => rfl }
  worker := .free rfl
  taking := .none

/-- In every run without a crash in the middle of a takeover, a session has at most one unresolved
finalize job, no job was executed more often than its budget since its last reset, and a session
whose finalization was accepted is closed, has its unresolved finalize job or is being handed over. -/
theorem accepted_finalize_kept {status : Api.Text → SessionStatus} {labels : List StoreLabel}
    {state : StoreState Stamp} (run : Trace CarefulStep (.empty status) labels state) :
    (∀ sessionId, (unresolvedFinalizeJobs state.jobs sessionId).length ≤ 1) ∧
      (∀ jobId, state.executions jobId ≤ defaultSupervisorJobMaxAttempts) ∧
      ∀ sessionId, state.accepted sessionId = true →
        state.status sessionId = .closed ∨ unresolvedFinalizeJobs state.jobs sessionId ≠ [] ∨
          Takes sessionId state.taking := by
  have sound : JobsKept state :=
    run.invariant (fun taken kept => JobsKept.step taken kept)
      ⟨empty_sound, fun _ never => nomatch never⟩
  refine ⟨sound.1.jobs.unresolved_le_one, sound.1.jobs.executions_le, fun sessionId was => ?_⟩
  rcases sound.2 sessionId was with closed | ⟨job, member, pending⟩ | takes
  · exact .inl closed
  · refine .inr (.inl fun none => ?_)
    exact unresolved_nil.mp none job member pending
  · exact .inr (.inr takes)

end

namespace LostFinalize

def session : Api.Text := "session".toList

def job : SupervisorJob Unit := createFinalizeJob "job".toList "agent".toList session true ()

def again : SupervisorJob Unit := createFinalizeJob "again".toList "agent".toList session true ()

def start : StoreState Unit := .empty fun _ => .finalizing

def acceptedState : StoreState Unit := (start.create job).setAccepted session true

theorem acceptedRun : Trace CarefulStep start [.client, .accept session] acceptedState := by
  have created : CarefulStep start .client (start.create job) :=
    ⟨.client (.enqueueFinalize "job".toList "agent".toList true () ⟨rfl, (nomatch ·)⟩ rfl rfl
      (nomatch ·, ·)), (nomatch ·)⟩
  have answered : CarefulStep (start.create job) (.accept session) acceptedState :=
    ⟨.client (.enqueued ⟨rfl, (nomatch ·)⟩ rfl
      (show unresolvedFinalizeJobs [job] session = [job] by decide) (.inl rfl)), (nomatch ·)⟩
  exact (Trace.single created).snoc answered

/-- A takeover reopens the session; its second finalization is accepted, a crash cuts the attempt
off, and the restart puts its job back. -/
theorem accepted_finalize_kept_queued : ∃ (labels : List StoreLabel) (state : StoreState Unit),
    Trace CarefulStep start labels state ∧ .answer session ∈ labels ∧ .crash ∈ labels ∧
      state.accepted session = true ∧ state.executions again.id = 1 ∧
      (∀ sessionId, (unresolvedFinalizeJobs state.jobs sessionId).length ≤ 1) ∧
      (∀ jobId, state.executions jobId ≤ defaultSupervisorJobMaxAttempts) ∧
      (state.status session = .closed ∨ unresolvedFinalizeJobs state.jobs session ≠ [] ∨
        Takes session state.taking) := by
  have converted := acceptedRun.snoc ⟨.client (.convert 0 () ⟨rfl, nofun⟩ rfl
    (show unresolvedFinalizeJobs [job] session = [job] by decide) nofun (.inl rfl)), nofun⟩
  have opened := converted.snoc ⟨.taking (.opened rfl rfl), nofun⟩
  have answered := opened.snoc ⟨.taking (.answered rfl), nofun⟩
  have marked := answered.snoc ⟨.client (@ClientStep.markFinalizing _ _ session rfl), nofun⟩
  have created := marked.snoc ⟨.client (@ClientStep.enqueueFinalize _ _ session again.id
    "agent".toList true () ⟨rfl, nofun⟩ rfl (by decide) (by unfold StoreState.fresh; decide)), nofun⟩
  have accepted := created.snoc ⟨.client (.enqueued ⟨rfl, nofun⟩ rfl
    (show unresolvedFinalizeJobs _ session = [again] by decide) (.inl rfl)), nofun⟩
  have claimed := accepted.snoc
    ⟨.worker (.claim rfl rfl (List.mem_append_right _ List.mem_cons_self) rfl), nofun⟩
  have begun := claimed.snoc ⟨.worker (.start () rfl), nofun⟩
  have executed := begun.snoc ⟨.worker (.execute rfl), nofun⟩
  have crashed := executed.snoc ⟨.restart .crash, fun _ _ => id⟩
  have recovered := crashed.snoc ⟨.restart (@RestartStep.reconcile _ _
    (countedJob (startedJob again ())) [] [] () rfl rfl
    (List.mem_cons_of_mem _ List.mem_cons_self) rfl), nofun⟩
  have booted := recovered.snoc ⟨.restart (.booted rfl (by decide)), nofun⟩
  obtain ⟨single, bounded, kept⟩ := accepted_finalize_kept booted
  exact ⟨_, _, booted, by simp, by simp, rfl, rfl, single, bounded, kept session rfl⟩

theorem lostRun : ∃ state : StoreState Unit,
    Trace StoreStep start [.client, .accept session, .client, .crash] state ∧
      state.accepted session = true ∧ state.status session = .finalizing ∧
      unresolvedFinalizeJobs state.jobs session = [] ∧ state.taking = none := by
  have accepted : Trace StoreStep start [.client, .accept session] acceptedState :=
    acceptedRun.mono And.left
  have converted := accepted.snoc (.client (.convert 0 () ⟨rfl, (nomatch ·)⟩ rfl
    (show unresolvedFinalizeJobs [job] session = [job] by decide) (nomatch ·) (.inl rfl)))
  exact ⟨_, converted.snoc (.restart .crash), by decide, rfl, by decide, rfl⟩

/-- With a crash in the middle of a takeover an accepted finalization is lost. -/
theorem crashed_takeover_loses_finalize :
    ¬ ∀ (labels : List StoreLabel) (state : StoreState Unit), Trace StoreStep start labels state →
      ∀ sessionId, state.accepted sessionId = true →
        state.status sessionId = .closed ∨ unresolvedFinalizeJobs state.jobs sessionId ≠ [] ∨
          Takes sessionId state.taking := by
  intro kept
  obtain ⟨state, run, accepted, finalizing, none, free⟩ := lostRun
  rcases kept _ state run session accepted with closed | waits | takes
  · cases finalizing.symm.trans closed
  · exact waits none
  · rw [free] at takes
    exact takes

end LostFinalize

/-- A crash anywhere keeps the jobs and the sessions in step: a finalization waits only for a
session that is finalizing, and none runs for one that is open. -/
theorem jobs_follow_sessions {status : Api.Text → SessionStatus} {state : StoreState Stamp}
    (run : Trace StoreStep (.empty status) labels state) :
    (state.jobs.map SupervisorJob.id).Nodup ∧
      ∀ job ∈ state.jobs, job.attempts ≤ defaultSupervisorJobMaxAttempts ∧
        (job.status = .queued → job.attempts < defaultSupervisorJobMaxAttempts) ∧
        ∀ sessionId, job.kind = .finalize sessionId →
          (job.status = .queued ∨ job.status = .failed → state.status sessionId = .finalizing) ∧
          (job.status = .running → state.status sessionId ≠ .opened) := by
  have sound : StoreSound state :=
    run.invariant (fun taken sound => StoreSound.step sound taken) empty_sound
  refine ⟨sound.jobs.ids, fun job member => ?_⟩
  have holds := sound.jobs.job job member
  exact ⟨holds.bounded, holds.queued, fun sessionId kind =>
    ⟨holds.waits sessionId kind, holds.runs sessionId kind⟩⟩

theorem jobs_follow_sessions_lost : ∃ state : StoreState Unit,
    state.accepted LostFinalize.session = true ∧
      unresolvedFinalizeJobs state.jobs LostFinalize.session = [] ∧
      (state.jobs.map SupervisorJob.id).Nodup ∧
      ∀ job ∈ state.jobs, job.attempts ≤ defaultSupervisorJobMaxAttempts ∧
        (job.status = .queued → job.attempts < defaultSupervisorJobMaxAttempts) ∧
        ∀ sessionId, job.kind = .finalize sessionId →
          (job.status = .queued ∨ job.status = .failed → state.status sessionId = .finalizing) ∧
          (job.status = .running → state.status sessionId ≠ .opened) := by
  obtain ⟨state, run, accepted, _, lost, _⟩ := LostFinalize.lostRun
  exact ⟨state, accepted, lost, jobs_follow_sessions run⟩

end AgentClaimNetwork.Supervisor
