import Mathlib.Data.List.Nodup
import AgentClaimNetwork.Supervisor.JobStore

/-!
No session has two unresolved finalize jobs, no job is executed more often than its budget allows,
and an accepted finalization keeps its job, unless the supervisor dies in a takeover.
-/

namespace AgentClaimNetwork.Supervisor

open Library Session List
open StoreState (create register setAccepted setStatus withWorker write)

variable {Stamp : Type} {jobs : List (SupervisorJob Stamp)} {sessionId : Api.Text}
variable {later : Api.Text → SessionStatus}

section

variable {job stored : SupervisorJob Stamp}

theorem mem_writeJob : found ∈ writeJob jobs job ↔
      (found = job ∧ ∃ stored ∈ jobs, stored.id = job.id) ∨ (found ∈ jobs ∧ found.id ≠ job.id) := by
  unfold writeJob
  rw [mem_map]
  constructor
  · rintro ⟨stored, member, rfl⟩
    by_cases same : stored.id = job.id
    · exact .inl ⟨if_pos same, stored, member, same⟩
    · rw [if_neg same]
      exact .inr ⟨member, same⟩
  · rintro (⟨rfl, stored, member, same⟩ | ⟨member, other⟩)
    · exact ⟨stored, member, if_pos same⟩
    · exact ⟨found, member, if_neg other⟩

theorem writeJob_ids : (writeJob jobs job).map SupervisorJob.id = jobs.map SupervisorJob.id := by
  unfold writeJob
  rw [map_map]
  refine map_congr_left fun stored _ => ?_
  by_cases same : stored.id = job.id
  · simp [same]
  · simp [same]

theorem mem_writeJob_self (member : stored ∈ jobs) (same : job.id = stored.id) :
    job ∈ writeJob jobs job :=
  mem_writeJob.mpr (.inl ⟨rfl, stored, member, same.symm⟩)

theorem mem_writeJob_other (member : other ∈ jobs) (apart : other.id ≠ job.id) :
    other ∈ writeJob jobs job :=
  mem_writeJob.mpr (.inr ⟨member, apart⟩)

def PendingJob (sessionId : Api.Text) (job : SupervisorJob Stamp) : Prop :=
  job.kind = .finalize sessionId ∧ job.status ≠ .succeeded

def Clear (jobs : List (SupervisorJob Stamp)) (sessionId : Api.Text) : Prop :=
  ∀ job ∈ jobs, ¬ PendingJob sessionId job

theorem pendingJob_iff :
    decide (finalizeJobSessionId job = some sessionId ∧ job.status ≠ .succeeded) = true ↔
      PendingJob sessionId job := by
  unfold finalizeJobSessionId PendingJob
  cases job.kind with
  | finalize other => simp
  | recap => simp

theorem mem_unresolved :
    job ∈ unresolvedFinalizeJobs jobs sessionId ↔ job ∈ jobs ∧ PendingJob sessionId job := by
  unfold unresolvedFinalizeJobs
  rw [mem_filter, pendingJob_iff]

theorem unresolved_nil : unresolvedFinalizeJobs jobs sessionId = [] ↔ Clear jobs sessionId := by
  rw [eq_nil_iff_forall_not_mem]
  constructor
  · intro none job member pending
    exact none job (mem_unresolved.mpr ⟨member, pending⟩)
  · intro clear job member
    obtain ⟨inside, pending⟩ := mem_unresolved.mp member
    exact clear job inside pending

theorem unresolved_single (only : unresolvedFinalizeJobs jobs sessionId = [job]) :
    job ∈ jobs ∧ PendingJob sessionId job :=
  mem_unresolved.mp (by rw [only]; exact mem_singleton.mpr rfl)

/-- What a stored job says, with the statuses of the sessions and its own executions. -/
structure JobSound (status : Api.Text → SessionStatus) (executed : Nat)
    (job : SupervisorJob Stamp) : Prop where
  waits : ∀ sessionId, job.kind = .finalize sessionId →
    job.status = .queued ∨ job.status = .failed → status sessionId = .finalizing
  runs : ∀ sessionId, job.kind = .finalize sessionId → job.status = .running →
    status sessionId ≠ .opened
  counted : executed ≤ job.attempts
  bounded : job.attempts ≤ defaultSupervisorJobMaxAttempts
  queued : job.status = .queued → job.attempts < defaultSupervisorJobMaxAttempts

structure JobsSound (jobs : List (SupervisorJob Stamp)) (status : Api.Text → SessionStatus)
    (executions : Api.Text → Nat) : Prop where
  ids : (jobs.map SupervisorJob.id).Nodup
  unique : ∀ left ∈ jobs, ∀ right ∈ jobs, ∀ sessionId, PendingJob sessionId left →
    PendingJob sessionId right → left.id = right.id
  job : ∀ job ∈ jobs, JobSound status (executions job.id) job
  unborn : ∀ id, (∀ job ∈ jobs, job.id ≠ id) → executions id = 0

variable {status : Api.Text → SessionStatus} {executions : Api.Text → Nat}

section

variable (sound : JobsSound jobs status executions)
include sound

theorem JobsSound.same (leftIn : left ∈ jobs) (rightIn : right ∈ jobs) (ids : left.id = right.id) :
    left = right :=
  inj_on_of_nodup_map sound.ids leftIn rightIn ids

theorem JobsSound.one {sessionId : Api.Text} {left right : SupervisorJob Stamp}
    (leftIn : left ∈ jobs) (rightIn : right ∈ jobs) (leftPending : PendingJob sessionId left)
    (rightPending : PendingJob sessionId right) : left = right :=
  sound.same leftIn rightIn (sound.unique left leftIn right rightIn sessionId leftPending rightPending)

theorem JobsSound.unresolved_le_one (sessionId : Api.Text) :
    (unresolvedFinalizeJobs jobs sessionId).length ≤ 1 := by
  have distinct : (unresolvedFinalizeJobs jobs sessionId).Nodup :=
    (List.Nodup.of_map _ sound.ids).filter _
  match found : unresolvedFinalizeJobs jobs sessionId with
  | [] => simp
  | [_] => simp
  | left :: right :: rest =>
    rw [found] at distinct
    obtain ⟨leftIn, leftPending⟩ := mem_unresolved.mp
      (show left ∈ unresolvedFinalizeJobs jobs sessionId by rw [found]; simp)
    obtain ⟨rightIn, rightPending⟩ := mem_unresolved.mp
      (show right ∈ unresolvedFinalizeJobs jobs sessionId by rw [found]; simp)
    have same := sound.one leftIn rightIn leftPending rightPending
    simp [same] at distinct

theorem JobsSound.executions_le (id : Api.Text) :
    executions id ≤ defaultSupervisorJobMaxAttempts := by
  by_cases born : ∀ job ∈ jobs, job.id ≠ id
  · rw [sound.unborn id born]
    exact Nat.zero_le _
  · push Not at born
    obtain ⟨job, member, rfl⟩ := born
    exact Nat.le_trans (sound.job job member).counted (sound.job job member).bounded

theorem JobsSound.write (member : stored ∈ jobs) (same : job.id = stored.id)
    (kept : ∀ sessionId, PendingJob sessionId job → PendingJob sessionId stored ∨ Clear jobs sessionId)
    {later : Api.Text → Nat} (others : ∀ id, id ≠ job.id → later id = executions id)
    (held : JobSound status (later job.id) job) : JobsSound (writeJob jobs job) status later where
  ids := by
    rw [writeJob_ids]
    exact sound.ids
  unique := by
    have pair : ∀ other ∈ jobs, other.id ≠ job.id → ∀ sessionId, PendingJob sessionId job →
        ¬ PendingJob sessionId other := by
      intro other inside apart sessionId pending otherPending
      rcases kept sessionId pending with before | clear
      · exact apart ((sound.unique other inside stored member sessionId otherPending before).trans
          same.symm)
      · exact clear other inside otherPending
    intro left leftIn right rightIn sessionId leftPending rightPending
    rcases mem_writeJob.mp leftIn with ⟨rfl, _⟩ | ⟨leftWas, leftApart⟩
    · rcases mem_writeJob.mp rightIn with ⟨rfl, _⟩ | ⟨rightWas, rightApart⟩
      · rfl
      · exact absurd rightPending (pair right rightWas rightApart sessionId leftPending)
    · rcases mem_writeJob.mp rightIn with ⟨rfl, _⟩ | ⟨rightWas, rightApart⟩
      · exact absurd leftPending (pair left leftWas leftApart sessionId rightPending)
      · exact sound.unique left leftWas right rightWas sessionId leftPending rightPending
  job := by
    intro other inside
    rcases mem_writeJob.mp inside with ⟨rfl, _⟩ | ⟨inside, apart⟩
    · exact held
    · rw [others other.id apart]
      exact sound.job other inside
  unborn := by
    intro id born
    have apart : id ≠ job.id := fun equal =>
      born job (mem_writeJob_self member same) equal.symm
    rw [others id apart]
    refine sound.unborn id fun other inside equal => ?_
    exact born other (mem_writeJob_other inside (equal ▸ apart)) equal

theorem JobsSound.create (fresh : ∀ other ∈ jobs, other.id ≠ job.id)
    (clear : ∀ sessionId, PendingJob sessionId job → Clear jobs sessionId)
    (held : JobSound status 0 job) : JobsSound (jobs ++ [job]) status executions where
  ids := by
    rw [map_append, map_singleton]
    refine List.Nodup.append sound.ids (nodup_singleton _) ?_
    intro id inside single
    obtain ⟨other, member, rfl⟩ := mem_map.mp inside
    exact fresh other member (mem_singleton.mp single)
  unique := by
    intro left leftIn right rightIn sessionId leftPending rightPending
    rcases mem_concat leftIn with leftWas | rfl
    · rcases mem_concat rightIn with rightWas | rfl
      · exact sound.unique left leftWas right rightWas sessionId leftPending rightPending
      · exact absurd leftPending (clear sessionId rightPending left leftWas)
    · rcases mem_concat rightIn with rightWas | rightNew
      · exact absurd rightPending (clear sessionId leftPending right rightWas)
      · rw [rightNew]
  job := by
    intro other inside
    rcases mem_concat inside with inside | rfl
    · exact sound.job other inside
    · rw [sound.unborn other.id fresh]
      exact held
  unborn := by
    intro id born
    exact sound.unborn id fun other inside => born other (mem_append_left _ inside)

end

theorem pending_kept (kind : job.kind = stored.kind) (unresolved : stored.status ≠ .succeeded)
    (sessionId : Api.Text) (pending : PendingJob sessionId job) :
    PendingJob sessionId stored ∨ Clear jobs sessionId :=
  Or.inl ⟨kind.symm.trans pending.1, unresolved⟩

section

variable {executed : Nat}

theorem JobSound.rest (kindStatus : ∀ sessionId, job.kind = .finalize sessionId →
      status sessionId = .finalizing)
    (counted : executed ≤ job.attempts) (bounded : job.attempts ≤ defaultSupervisorJobMaxAttempts)
    (queued : job.status = .queued → job.attempts < defaultSupervisorJobMaxAttempts) :
    JobSound status executed job where
  waits sessionId kind _ := kindStatus sessionId kind
  runs sessionId kind _ opened := by cases (kindStatus sessionId kind).symm.trans opened
  counted := counted
  bounded := bounded
  queued := queued

theorem JobSound.succeeded (done : job.status = .succeeded) (counted : executed ≤ job.attempts)
    (bounded : job.attempts ≤ defaultSupervisorJobMaxAttempts) :
    JobSound status executed job where
  waits sessionId _ resting := by rcases resting with other | other <;> cases done.symm.trans other
  runs sessionId _ running := by cases done.symm.trans running
  counted := counted
  bounded := bounded
  queued queued := by cases done.symm.trans queued

theorem JobSound.recap {sessionId : Api.Text} (kind : job.kind = .recap sessionId recapEndIndex)
    (counted : executed ≤ job.attempts) (bounded : job.attempts < defaultSupervisorJobMaxAttempts) :
    JobSound status executed job where
  waits other finalize _ := by cases kind.symm.trans finalize
  runs other finalize _ := by cases kind.symm.trans finalize
  counted := counted
  bounded := Nat.le_of_lt bounded
  queued _ := bounded

/-- A running job without a worker either succeeds or is queued or failed again, a finalization
the latter only while its session is finalizing. -/
structure Recovery (job : SupervisorJob Stamp) (sessionStatus : SessionStatus)
    (later : SupervisorJob Stamp) : Prop where
  id : later.id = job.id
  kind : later.kind = job.kind
  attempts : later.attempts = job.attempts
  outcome :
    (later.status = .succeeded ∧
      ∀ sessionId, job.kind = .finalize sessionId → sessionStatus ≠ .finalizing) ∨
    ((later.status = .failed ∨
        later.status = .queued ∧ job.attempts < defaultSupervisorJobMaxAttempts) ∧
      ∀ sessionId, job.kind = .finalize sessionId → sessionStatus = .finalizing)

theorem recoverStaleRunningJob_recovery (job : SupervisorJob Stamp) (sessionStatus : SessionStatus)
    (retryMessage exhaustedMessage : Api.Text) (now : Stamp) :
    Recovery job sessionStatus
      (recoverStaleRunningJob job sessionStatus retryMessage exhaustedMessage now) := by
  obtain ⟨id, agentId, kind, status, attempts, manualRetries, createdAt, updatedAt, startedAt,
    finishedAt, lastError, notify⟩ := job
  unfold recoverStaleRunningJob
  cases kind with
  | finalize sessionId =>
    cases sessionStatus with
    | opened | closed => exact ⟨rfl, rfl, rfl, .inl ⟨rfl, fun _ _ => (nomatch ·)⟩⟩
    | finalizing =>
      simp only
      split
      · exact ⟨rfl, rfl, rfl, .inr ⟨.inl rfl, fun _ _ => rfl⟩⟩
      · rename_i left
        exact ⟨rfl, rfl, rfl, .inr ⟨.inr ⟨rfl, Nat.lt_of_not_le left⟩, fun _ _ => rfl⟩⟩
  | recap sessionId recapEndIndex =>
    cases sessionStatus with
    | finalizing | closed => exact ⟨rfl, rfl, rfl, .inl ⟨rfl, (nomatch ·, ·)⟩⟩
    | opened =>
      simp only
      split
      · exact ⟨rfl, rfl, rfl, .inr ⟨.inl rfl, (nomatch ·, ·)⟩⟩
      · rename_i left
        exact ⟨rfl, rfl, rfl, .inr ⟨.inr ⟨rfl, Nat.lt_of_not_le left⟩, (nomatch ·, ·)⟩⟩

theorem JobSound.recovered {later : SupervisorJob Stamp} (held : JobSound status executed job)
    (recovery : Recovery job (status (jobSessionIdRef job)) later) :
    JobSound status executed later := by
  have counted : executed ≤ later.attempts := recovery.attempts ▸ held.counted
  have bounded := recovery.attempts ▸ held.bounded
  rcases recovery.outcome with ⟨done, _⟩ | ⟨again, finalizing⟩
  · exact .succeeded done counted bounded
  · refine .rest (fun sessionId kind => ?_) counted bounded fun queued => ?_
    · have original := recovery.kind.symm.trans kind
      have session : jobSessionIdRef job = sessionId := by
        unfold jobSessionIdRef
        rw [original]
      rw [← session]
      exact finalizing sessionId original
    · rcases again with failed | ⟨_, left⟩
      · cases failed.symm.trans queued
      · rw [recovery.attempts]
        exact left

end

theorem JobSound.setStatus {executed : Nat} (held : JobSound status executed job)
    (agree : ∀ sessionId, PendingJob sessionId job → later sessionId = status sessionId ∨
      (job.status = .running ∧ later sessionId ≠ .opened)) : JobSound later executed job where
  waits sessionId kind resting := by
    have pending : PendingJob sessionId job :=
      ⟨kind, by rcases resting with now | now <;> rw [now] <;> exact (nomatch ·)⟩
    rcases agree sessionId pending with same | ⟨running, _⟩
    · rw [same]
      exact held.waits sessionId kind resting
    · rcases resting with now | now <;> cases running.symm.trans now
  runs sessionId kind running := by
    have pending : PendingJob sessionId job := ⟨kind, by rw [running]; exact (nomatch ·)⟩
    rcases agree sessionId pending with same | ⟨_, unopened⟩
    · rw [same]
      exact held.runs sessionId kind running
    · exact unopened
  counted := held.counted
  bounded := held.bounded
  queued := held.queued

theorem JobsSound.setStatus (sound : JobsSound jobs status executions)
    (agree : ∀ job ∈ jobs, ∀ sessionId, PendingJob sessionId job →
      later sessionId = status sessionId ∨ (job.status = .running ∧ later sessionId ≠ .opened)) :
    JobsSound jobs later executions :=
  { sound with job := fun job member => (sound.job job member).setStatus (agree job member) }

theorem JobSound.unopened {executed : Nat}
    (held : JobSound status executed job) (pending : PendingJob sessionId job) :
    status sessionId ≠ .opened := by
  cases now : job.status with
  | queued => rw [held.waits sessionId pending.1 (.inl now)]; exact (nomatch ·)
  | failed => rw [held.waits sessionId pending.1 (.inr now)]; exact (nomatch ·)
  | running => exact held.runs sessionId pending.1 now
  | succeeded => exact absurd now pending.2

end

def JobWorker.copy? : JobWorker Stamp → Option (SupervisorJob Stamp)
  | .claimed job | .started job | .engaged job | .preempted job | .completed job | .failed job =>
    some job
  | .booting | .idle | .handing _ | .leaving _ _ => none

structure Holds (jobs : List (SupervisorJob Stamp)) (status : Api.Text → SessionStatus)
    (registered : Option Api.Text) (job : SupervisorJob Stamp) : Prop where
  member : job ∈ jobs
  finalizing : ∀ sessionId, job.kind = .finalize sessionId →
    registered = some job.id ∧ status sessionId = .finalizing

inductive WorkerSound (jobs : List (SupervisorJob Stamp)) (status : Api.Text → SessionStatus)
    (registered : Option Api.Text) : JobWorker Stamp → Prop
  | free {worker} : worker.copy? = none → WorkerSound jobs status registered worker
  | claimed {job} : Holds jobs status registered job → job.status = .queued →
      WorkerSound jobs status registered (.claimed job)
  | started {job} : Holds jobs status registered job → job.status = .running →
      job.attempts < defaultSupervisorJobMaxAttempts →
      WorkerSound jobs status registered (.started job)
  | engaged {job} : Holds jobs status registered job → job.status = .running →
      WorkerSound jobs status registered (.engaged job)
  | preempted {job} : Holds jobs status registered job → job.status = .running →
      WorkerSound jobs status registered (.preempted job)
  | failed {job} : Holds jobs status registered job → job.status = .running →
      WorkerSound jobs status registered (.failed job)
  | completed {job stored} : stored ∈ jobs → stored.id = job.id → stored.kind = job.kind →
      stored.attempts = job.attempts →
      (∀ sessionId, job.kind = .finalize sessionId → status sessionId = .closed) →
      WorkerSound jobs status registered (.completed job)

def Placeholder (jobs : List (SupervisorJob Stamp)) (id : Api.Text) : Prop :=
  ∃ stored ∈ jobs, stored.id = id ∧ ∀ sessionId, ¬ PendingJob sessionId stored

inductive TakingSound (state : StoreState Stamp) : Option (Taking Stamp) → Prop
  | none : TakingSound state none
  | converting {original sessionId executed byWorker} : PendingJob sessionId original →
      Clear state.jobs sessionId → Placeholder state.jobs original.id →
      JobSound state.status executed original → state.status sessionId = .finalizing →
      (∀ copy, state.worker.copy? = some copy → copy.id ≠ original.id) →
      (byWorker = true → state.worker = .handing original ∧
        state.registered = some original.id ∧ original.status = .running) →
      TakingSound state (some (.converting original sessionId executed byWorker))
  | orphan {sessionId recap} : Clear state.jobs sessionId →
      state.status sessionId = .finalizing →
      (∀ job, recap = some job → Placeholder state.jobs job.id ∧
        state.executions job.id = 0 ∧
        ∀ copy, state.worker.copy? = some copy → copy.id ≠ job.id) →
      TakingSound state (some (.orphan sessionId recap))
  | opened {sessionId byWorker} : TakingSound state (some (.opened sessionId byWorker))

structure StoreSound (state : StoreState Stamp) : Prop where
  jobs : JobsSound state.jobs state.status state.executions
  worker : WorkerSound state.jobs state.status state.registered state.worker
  taking : TakingSound state state.taking

variable {state next : StoreState Stamp} {job copy : SupervisorJob Stamp}

variable {status : Api.Text → SessionStatus}

theorem Holds.write {jobs : List (SupervisorJob Stamp)} {registered : Option Api.Text}
    (holds : Holds jobs status registered copy) (apart : copy.id ≠ job.id) :
    Holds (writeJob jobs job) status registered copy :=
  ⟨mem_writeJob_other holds.member apart, holds.finalizing⟩

theorem WorkerSound.write {jobs : List (SupervisorJob Stamp)} {registered : Option Api.Text}
    {worker : JobWorker Stamp} (sound : WorkerSound jobs status registered worker)
    (apart : ∀ copy, worker.copy? = some copy → copy.id ≠ job.id) :
    WorkerSound (writeJob jobs job) status registered worker := by
  cases sound with
  | free free => exact .free free
  | claimed holds queued => exact .claimed (holds.write (apart _ rfl)) queued
  | started holds running left => exact .started (holds.write (apart _ rfl)) running left
  | engaged holds running => exact .engaged (holds.write (apart _ rfl)) running
  | preempted holds running => exact .preempted (holds.write (apart _ rfl)) running
  | failed holds running => exact .failed (holds.write (apart _ rfl)) running
  | completed member id kind attempts closed =>
    exact .completed (mem_writeJob_other member (id ▸ apart _ rfl)) id kind attempts closed

theorem WorkerSound.create {jobs : List (SupervisorJob Stamp)} {registered : Option Api.Text}
    {worker : JobWorker Stamp} (sound : WorkerSound jobs status registered worker) :
    WorkerSound (jobs ++ [job]) status registered worker := by
  have grows : ∀ {copy : SupervisorJob Stamp}, Holds jobs status registered copy →
      Holds (jobs ++ [job]) status registered copy := fun holds =>
    ⟨mem_append_left _ holds.member, holds.finalizing⟩
  cases sound with
  | free free => exact .free free
  | claimed holds queued => exact .claimed (grows holds) queued
  | started holds running left => exact .started (grows holds) running left
  | engaged holds running => exact .engaged (grows holds) running
  | preempted holds running => exact .preempted (grows holds) running
  | failed holds running => exact .failed (grows holds) running
  | completed member id kind attempts closed =>
    exact .completed (mem_append_left _ member) id kind attempts closed

variable {worker : JobWorker Stamp} {registered : Option Api.Text}

theorem WorkerSound.setStatus {status : Api.Text → SessionStatus}
    (sound : WorkerSound jobs status registered worker)
    (agree : ∀ copy sessionId, worker.copy? = some copy → copy.kind = .finalize sessionId →
      later sessionId = status sessionId) : WorkerSound jobs later registered worker := by
  have keeps : ∀ {copy : SupervisorJob Stamp}, worker.copy? = some copy →
      Holds jobs status registered copy → Holds jobs later registered copy := fun now holds =>
    ⟨holds.member, fun sessionId kind => ⟨(holds.finalizing sessionId kind).1,
      (agree _ sessionId now kind).trans (holds.finalizing sessionId kind).2⟩⟩
  cases sound with
  | free free => exact .free free
  | claimed holds queued => exact .claimed (keeps rfl holds) queued
  | started holds running left => exact .started (keeps rfl holds) running left
  | engaged holds running => exact .engaged (keeps rfl holds) running
  | preempted holds running => exact .preempted (keeps rfl holds) running
  | failed holds running => exact .failed (keeps rfl holds) running
  | completed member id kind attempts closed =>
    exact .completed member id kind attempts fun sessionId same =>
      (agree _ sessionId rfl same).trans (closed sessionId same)

theorem WorkerSound.copy_cases {status : Api.Text → SessionStatus}
    (sound : WorkerSound jobs status registered worker) (now : worker.copy? = some copy) :
    (Holds jobs status registered copy ∧ (copy.status = .queued ∨ copy.status = .running)) ∨
      ∃ stored ∈ jobs, stored.id = copy.id ∧ stored.kind = copy.kind ∧
        ∀ sessionId, copy.kind = .finalize sessionId → status sessionId = .closed := by
  cases sound with
  | free free => cases free.symm.trans now
  | claimed holds queued =>
    cases now
    exact .inl ⟨holds, .inl queued⟩
  | started holds running | engaged holds running | preempted holds running
  | failed holds running =>
    cases now
    exact .inl ⟨holds, .inr running⟩
  | completed member id kind _ closed =>
    cases now
    exact .inr ⟨_, member, id, kind, closed⟩

variable (sound : StoreSound state)

include sound in
theorem StoreSound.copy_id (now : state.worker.copy? = some copy) :
    ∃ stored ∈ state.jobs, stored.id = copy.id := by
  rcases sound.worker.copy_cases now with ⟨holds, _⟩ | ⟨stored, member, id, _⟩
  · exact ⟨copy, holds.member, rfl⟩
  · exact ⟨stored, member, id⟩

variable {stored : SupervisorJob Stamp}

include sound

theorem StoreSound.apart (member : stored ∈ state.jobs)
    (kind : stored.kind = .finalize sessionId) (finalizing : state.status sessionId = .finalizing)
    (resting : stored.status = .failed ∨ state.registered ≠ some stored.id) :
    ∀ copy, state.worker.copy? = some copy → copy.id ≠ stored.id := by
  intro copy now same
  rcases sound.worker.copy_cases now with ⟨holds, active⟩ | ⟨other, inside, id, otherKind, closed⟩
  · obtain rfl := sound.jobs.same holds.member member same
    rcases resting with failed | unregistered
    · rcases active with now | now <;> cases failed.symm.trans now
    · exact unregistered (holds.finalizing sessionId kind).1
  · obtain rfl := sound.jobs.same inside member (id.trans same)
    cases (closed sessionId (otherKind.symm.trans kind)).symm.trans finalizing

theorem StoreSound.not_busy
    (clear : Clear state.jobs sessionId) (finalizing : state.status sessionId = .finalizing)
    (now : state.worker.copy? = some copy) : copy.kind ≠ .finalize sessionId := by
  intro kind
  rcases sound.worker.copy_cases now with ⟨holds, active⟩ | ⟨_, _, _, _, closed⟩
  · refine clear copy holds.member ⟨kind, ?_⟩
    rcases active with now | now <;> rw [now] <;> exact (nomatch ·)
  · cases (closed sessionId kind).symm.trans finalizing

theorem StoreSound.clientWrite (free : state.taking = none)
    (member : stored ∈ state.jobs) (same : job.id = stored.id)
    (kept : ∀ sessionId, PendingJob sessionId job →
      PendingJob sessionId stored ∨ Clear state.jobs sessionId)
    {later : Api.Text → Nat} (others : ∀ id, id ≠ job.id → later id = state.executions id)
    (held : JobSound state.status (later job.id) job)
    (apart : ∀ copy, state.worker.copy? = some copy → copy.id ≠ job.id) :
    StoreSound { state.write job with executions := later } where
  jobs := sound.jobs.write member same kept others held
  worker := sound.worker.write apart
  taking := by
    simp only [write]
    rw [free]
    exact .none

theorem StoreSound.clientCreate (free : state.taking = none) (fresh : state.fresh job.id)
    (clear : ∀ sessionId, PendingJob sessionId job → Clear state.jobs sessionId)
    (held : JobSound state.status 0 job) : StoreSound (state.create job) where
  jobs := sound.jobs.create fresh clear held
  worker := sound.worker.create
  taking := by
    simp only [create]
    rw [free]
    exact .none

omit sound

theorem budget_pos : 0 < defaultSupervisorJobMaxAttempts := by decide

variable {notifyOnCompletion : Bool}

theorem newFinalize_sound {status : Api.Text → SessionStatus} {id agentId sessionId : Api.Text}
    (finalizing : status sessionId = .finalizing) :
    JobSound status 0 (newJob id agentId (.finalize sessionId) manualRetries lastError
      notifyOnCompletion now) :=
  .rest (fun other kind => by cases kind; exact finalizing) (Nat.zero_le _) (Nat.zero_le _)
    fun _ => budget_pos

include sound in
theorem StoreSound.createFinalize (free : state.gateFree)
    {id agentId sessionId : Api.Text} (finalizing : state.status sessionId = .finalizing)
    (none : unresolvedFinalizeJobs state.jobs sessionId = []) (fresh : state.fresh id) :
    StoreSound (state.create (newJob id agentId (.finalize sessionId) manualRetries lastError
      notifyOnCompletion now)) := by
  refine sound.clientCreate free.1 fresh (fun other pending => ?_) (newFinalize_sound finalizing)
  cases pending.1
  exact unresolved_nil.mp none

theorem recap_not_pending {sessionId other : Api.Text}
    (kind : job.kind = .recap other recapEndIndex) : ¬ PendingJob sessionId job := by
  rintro ⟨finalize, _⟩
  cases kind.symm.trans finalize

include sound

theorem StoreSound.reopened (clear : Clear state.jobs sessionId)
    (finalizing : state.status sessionId = .finalizing) :
    StoreSound ((state.setStatus sessionId .opened).take (some (.opened sessionId byWorker))) where
  jobs := by
    refine sound.jobs.setStatus fun job member other pending => .inl ?_
    have apart : other ≠ sessionId := by
      rintro rfl
      exact clear job member pending
    exact if_neg apart
  worker := by
    refine sound.worker.setStatus fun copy other now kind => ?_
    have apart : other ≠ sessionId := by
      rintro rfl
      exact sound.not_busy clear finalizing now kind
    exact if_neg apart
  taking := .opened

theorem StoreSound.reset (free : state.taking = none) (member : stored ∈ state.jobs)
    (pending : PendingJob sessionId stored) (finalizing : state.status sessionId = .finalizing)
    (failed : stored.status = .failed) (same : job.id = stored.id)
    (kind : job.kind = stored.kind) (attempts : job.attempts = 0) :
    StoreSound ((state.write job).setExecutions job.id 0) := by
  refine sound.clientWrite free member same (pending_kept kind pending.2)
    (fun id other => if_neg other) ?_ (same ▸ sound.apart member pending.1 finalizing (.inl failed))
  refine .rest (fun other finalize => ?_) ?_ ?_ fun _ => ?_
  · cases (kind.symm.trans finalize).symm.trans pending.1
    exact finalizing
  · rw [if_pos rfl]
    exact Nat.zero_le _
  · rw [attempts]
    exact Nat.zero_le _
  · rw [attempts]
    exact budget_pos

omit sound

theorem JobsSound.converted_clear {status : Api.Text → SessionStatus} {executions : Api.Text → Nat}
    (sound : JobsSound jobs status executions)
    (member : stored ∈ jobs)
    (pending : PendingJob sessionId stored) :
    Clear (writeJob jobs (convertedRecapJob stored sessionId recapEndIndex now)) sessionId := by
  intro other inside otherPending
  rcases mem_writeJob.mp inside with ⟨rfl, _⟩ | ⟨was, apart⟩
  · exact recap_not_pending rfl otherPending
  · exact apart (sound.unique other was stored member sessionId otherPending pending)

theorem JobsSound.converted {status : Api.Text → SessionStatus} {executions : Api.Text → Nat}
    (sound : JobsSound jobs status executions)
    (member : stored ∈ jobs) :
    JobsSound (writeJob jobs (convertedRecapJob stored sessionId recapEndIndex now)) status
      fun other => if other = stored.id then 0 else executions other := by
  have same : (convertedRecapJob stored sessionId recapEndIndex now).id = stored.id := rfl
  refine sound.write member same (fun other pending => ?_) (fun id other => if_neg other) ?_
  · exact absurd pending (recap_not_pending rfl)
  · refine .recap rfl ?_ budget_pos
    exact Nat.le_of_eq (if_pos rfl)

theorem converted_placeholder (member : stored ∈ jobs) :
    Placeholder (writeJob jobs (convertedRecapJob stored sessionId recapEndIndex now)) stored.id :=
  ⟨_, mem_writeJob_self member rfl, rfl, fun _ => recap_not_pending rfl⟩

theorem Placeholder.write {jobs : List (SupervisorJob Stamp)} {id : Api.Text}
    (held : Placeholder jobs id) (apart : id ≠ job.id) : Placeholder (writeJob jobs job) id := by
  obtain ⟨stored, member, same, idle⟩ := held
  exact ⟨stored, mem_writeJob_other member (same ▸ apart), same, idle⟩

include sound

theorem StoreSound.resumeClosed (free : state.taking = none)
    (closed : state.status sessionId = .closed) (member : stored ∈ state.jobs)
    (pending : PendingJob sessionId stored) :
    StoreSound (state.write (reconciledClosedJob stored now)) := by
  have held := sound.jobs.job stored member
  have same : (reconciledClosedJob stored now).id = stored.id := rfl
  refine ⟨sound.jobs.write member same (pending_kept rfl pending.2) (fun _ _ => rfl)
    (.succeeded rfl held.counted held.bounded), ?_, ?_⟩
  · have apart : ∀ copy, Holds state.jobs state.status state.registered copy →
        copy.id ≠ (reconciledClosedJob stored now).id := by
      intro copy holds same
      obtain rfl := sound.jobs.same holds.member member same
      cases (holds.finalizing sessionId pending.1).2.symm.trans closed
    have worker := sound.worker
    simp only [write]
    generalize state.worker = stage at worker
    cases worker with
    | free free => exact .free free
    | claimed holds queued => exact .claimed (holds.write (apart _ holds)) queued
    | started holds running left => exact .started (holds.write (apart _ holds)) running left
    | engaged holds running => exact .engaged (holds.write (apart _ holds)) running
    | preempted holds running => exact .preempted (holds.write (apart _ holds)) running
    | failed holds running => exact .failed (holds.write (apart _ holds)) running
    | @completed copy other inside id kind attempts done =>
      by_cases same : other.id = stored.id
      · obtain rfl := sound.jobs.same inside member same
        have self : reconciledClosedJob other now ∈
            writeJob state.jobs (reconciledClosedJob other now) := mem_writeJob_self inside rfl
        exact .completed self id kind attempts done
      · exact .completed (mem_writeJob_other inside same) id kind attempts done
  · simp only [write]
    rw [free]
    exact .none

theorem StoreSound.recoverWrite (free : state.taking = none)
    (retryMessage exhaustedMessage : Api.Text) (now : Stamp)
    (member : stored ∈ state.jobs) (running : stored.status = .running)
    (apart : ∀ copy, state.worker.copy? = some copy → copy.id ≠ stored.id) :
    StoreSound (state.write (state.recovered stored retryMessage exhaustedMessage now)) := by
  have recovery := recoverStaleRunningJob_recovery stored (state.status (jobSessionIdRef stored))
    retryMessage exhaustedMessage now
  have held := sound.jobs.job stored member
  have unresolved : stored.status ≠ .succeeded := by
    rw [running]
    exact (nomatch ·)
  refine sound.clientWrite free member recovery.id (pending_kept recovery.kind unresolved)
    (fun _ _ => rfl) ?_ (recovery.id ▸ apart)
  rw [recovery.id]
  exact held.recovered recovery

theorem StoreSound.markFinalizing (opened : state.status sessionId = .opened) :
    StoreSound (state.setStatus sessionId .finalizing) := by
  have agree : ∀ other, state.status other ≠ .opened →
      (state.setStatus sessionId .finalizing).status other = state.status other := by
    intro other unopened
    have apart : other ≠ sessionId := by
      rintro rfl
      exact unopened opened
    exact if_neg apart
  have unopened : ∀ other, state.status other = .finalizing → state.status other ≠ .opened := by
    intro other finalizing
    rw [finalizing]
    exact (nomatch ·)
  refine ⟨?_, ?_, ?_⟩
  · exact sound.jobs.setStatus fun job member other pending =>
      Or.inl (agree other ((sound.jobs.job job member).unopened pending))
  · refine sound.worker.setStatus fun copy other now kind => agree other ?_
    rcases sound.worker.copy_cases now with ⟨holds, _⟩ | ⟨_, _, _, _, closed⟩
    · exact unopened other (holds.finalizing other kind).2
    · rw [closed other kind]
      exact (nomatch ·)
  · have taking := sound.taking
    simp only [setStatus]
    generalize state.taking = held at taking
    cases taking with
    | none => exact .none
    | converting pending clear inside held finalizing apart byWorker =>
      refine .converting pending clear inside ?_ ?_ apart byWorker
      · exact held.setStatus fun other also => .inl (agree other (held.unopened also))
      · exact (agree _ (unopened _ finalizing)).trans finalizing
    | orphan clear finalizing recap =>
      exact .orphan clear ((agree _ (unopened _ finalizing)).trans finalizing) recap
    | opened => exact .opened

omit sound

theorem StoreSound.orphanNotOpened (sound : StoreSound state) {sessionId : Api.Text} (clear : Clear state.jobs sessionId)
    (finalizing : state.status sessionId = .finalizing)
    (created : Placeholder state.jobs job.id ∧ state.executions job.id = 0 ∧
      ∀ copy, state.worker.copy? = some copy → copy.id ≠ job.id) :
    StoreSound
      ((state.write (recapJobAsFinalizeRecovery job sessionId notifyOnCompletion now)).take
        none) := by
  obtain ⟨⟨stored, member, id, _⟩, unexecuted, apart⟩ := created
  have same : (recapJobAsFinalizeRecovery job sessionId notifyOnCompletion now).id = stored.id :=
    id.symm
  refine ⟨sound.jobs.write member same (fun other pending => ?_) (fun _ _ => rfl) ?_,
    sound.worker.write apart, .none⟩
  · cases pending.1
    exact .inr clear
  · refine .rest (fun other kind => ?_) (Nat.le_of_eq unexecuted) (Nat.zero_le _)
      fun _ => budget_pos
    cases kind
    exact finalizing

include sound

theorem StoreSound.clientStep (taken : ClientStep state label next) : StoreSound next := by
  cases taken with
  | markFinalizing opened => exact sound.markFinalizing opened
  | enqueueFinalize _ _ _ _ free finalizing none fresh
  | retryOrphan _ _ _ _ free finalizing none fresh
  | orphanCheckpoint _ _ _ _ free finalizing none fresh =>
    exact sound.createFinalize free finalizing none fresh
  | enqueued free => exact ⟨sound.jobs, sound.worker, by rw [setAccepted, free.1]; exact .none⟩
  | enqueueRecap _ _ _ _ _ free fresh =>
    exact sound.clientCreate free.1 fresh (fun _ pending => absurd pending (recap_not_pending rfl))
      (.recap rfl (Nat.zero_le _) budget_pos)
  | retry now free finalizing member kind failed =>
    exact sound.reset free.1 member ⟨kind, by rw [failed]; exact (nomatch ·)⟩ finalizing failed
      rfl rfl rfl
  | resumeClosed now free closed only =>
    obtain ⟨member, pending⟩ := unresolved_single only
    exact sound.resumeClosed free.1 closed member pending
  | @orphanRecap sessionId id agentId recapEndIndex now free finalizing none fresh =>
    have created : StoreSound
        (state.create (createRecapJob id agentId sessionId recapEndIndex now)) :=
      sound.clientCreate free.1 fresh
        (fun _ pending => absurd pending (recap_not_pending rfl))
        (.recap rfl (Nat.zero_le _) budget_pos)
    refine ⟨created.jobs, created.worker, .orphan ?_ finalizing ?_⟩
    · intro other inside pending
      rcases mem_concat inside with was | rfl
      · exact unresolved_nil.mp none other was pending
      · exact recap_not_pending rfl pending
    · intro job same
      cases same
      refine ⟨⟨_, mem_append_right _ (mem_singleton.mpr rfl), rfl,
        fun _ => recap_not_pending rfl⟩, sound.jobs.unborn id fresh, fun copy now equal => ?_⟩
      obtain ⟨stored, member, same⟩ := sound.copy_id now
      exact fresh stored member (same.trans equal)
  | orphanNoRecap free finalizing none =>
    exact ⟨sound.jobs, sound.worker, .orphan (unresolved_nil.mp none) finalizing (nomatch ·, ·)⟩
  | orphanOpened held finalizing =>
    have taking := sound.taking
    rw [held] at taking
    cases taking with
    | orphan clear => exact sound.reopened clear finalizing
  | @orphanNotOpened sessionId recap notifyOnCompletion now held =>
    have taking := sound.taking
    rw [held] at taking
    cases taking with
    | orphan clear finalizing created =>
      cases recap with
      | none => exact ⟨sound.jobs, sound.worker, .none⟩
      | some job =>
        exact sound.orphanNotOpened clear finalizing (created job rfl)
  | resumeRecovered retryMessage exhaustedMessage now free finalizing only running unregistered =>
    obtain ⟨member, pending⟩ := unresolved_single only
    exact sound.recoverWrite free.1 retryMessage exhaustedMessage now member running
      (sound.apart member pending.1 finalizing (.inr unregistered))
  | resumeReset now free finalizing only failed =>
    obtain ⟨member, pending⟩ := unresolved_single only
    exact sound.reset free.1 member pending finalizing failed rfl rfl rfl
  | convert recapEndIndex now free finalizing only unregistered resting =>
    obtain ⟨member, pending⟩ := unresolved_single only
    have apart := sound.apart member pending.1 finalizing (.inr unregistered)
    exact ⟨sound.jobs.converted member, sound.worker.write apart,
      .converting pending (sound.jobs.converted_clear member pending) (converted_placeholder member)
        (sound.jobs.job _ member) finalizing apart (nomatch ·)⟩

theorem StoreSound.takingStep (taken : TakingStep state label next) : StoreSound next := by
  have taking := sound.taking
  cases taken with
  | opened held finalizing =>
    rw [held] at taking
    cases taking with
    | converting _ clear => exact sound.reopened clear finalizing
  | @restored original sessionId executed byWorker held =>
    rw [held] at taking
    cases taking with
    | converting pending clear inside sounds finalizing apart handing =>
      obtain ⟨stored, member, id, _⟩ := inside
      refine ⟨sound.jobs.write member id.symm (fun other also => ?_)
        (fun _ other => if_neg other) ?_, ?_, .none⟩
      · cases pending.1.symm.trans also.1
        exact .inr clear
      · simpa [withWorker, StoreState.take, StoreState.setExecutions] using sounds
      · cases byWorker with
        | false => exact sound.worker.write apart
        | true =>
          obtain ⟨_, registered, running⟩ := handing rfl
          refine .engaged ⟨mem_writeJob_self member id.symm, fun other kind => ?_⟩ running
          cases pending.1.symm.trans kind
          exact ⟨registered, finalizing⟩
  | answered held =>
    refine ⟨sound.jobs, ?_, .none⟩
    split
    · exact .free rfl
    · exact sound.worker

theorem StoreSound.ownWrite {later : Api.Text → Nat}
    (now : state.worker.copy? = some copy) (member : stored ∈ state.jobs)
    (storedId : stored.id = copy.id) (same : job.id = copy.id)
    (kept : ∀ sessionId, PendingJob sessionId job → PendingJob sessionId stored)
    (others : ∀ id, id ≠ job.id → later id = state.executions id)
    (held : JobSound state.status (later job.id) job)
    (after : ∀ other, worker.copy? = some other → other.id = copy.id)
    (sounds : WorkerSound (writeJob state.jobs job) state.status state.registered worker) :
    StoreSound ({ state.write job with executions := later }.withWorker worker) := by
  refine ⟨sound.jobs.write member (same.trans storedId.symm)
    (fun sessionId pending => .inl (kept sessionId pending)) others held, sounds, ?_⟩
  have clears : ∀ sessionId, Clear state.jobs sessionId →
      Clear (writeJob state.jobs job) sessionId := by
    intro sessionId clear other inside pending
    rcases mem_writeJob.mp inside with ⟨rfl, _⟩ | ⟨was, _⟩
    · exact clear stored member (kept sessionId pending)
    · exact clear other was pending
  have taking := sound.taking
  simp only [withWorker, write]
  generalize state.taking = taken at taking
  cases taking with
  | none => exact .none
  | converting pending clear inside held finalizing apart byWorker =>
    refine .converting pending (clears _ clear)
      (inside.write fun equal => apart copy now (same.symm.trans equal.symm)) held finalizing
      (fun other copied => ?_) fun own => ?_
    · rw [after other copied]
      exact apart copy now
    · obtain ⟨handing, _⟩ := byWorker own
      rw [handing] at now
      cases now
  | orphan clear finalizing recap =>
    refine .orphan (clears _ clear) finalizing fun created isRecap => ?_
    obtain ⟨inside, unexecuted, apart⟩ := recap created isRecap
    have distinct : created.id ≠ job.id := fun equal =>
      apart copy now (same.symm.trans equal.symm)
    refine ⟨inside.write distinct, (others created.id distinct).trans unexecuted,
      fun other copied => ?_⟩
    · rw [after other copied]
      exact apart copy now
  | opened => exact .opened

omit sound

theorem StoreSound.move (sound : StoreSound state) {before worker : JobWorker Stamp}
    (now : state.worker = before) (busy : ∀ job, before ≠ .handing job)
    (after : ∀ other, worker.copy? = some other → before.copy? = some other)
    (sounds : WorkerSound state.jobs state.status state.registered worker) :
    StoreSound (state.withWorker worker) := by
  subst now
  refine ⟨sound.jobs, sounds, ?_⟩
  have taking := sound.taking
  simp only [withWorker]
  generalize state.taking = taken at taking
  cases taking with
  | none => exact .none
  | converting pending clear inside held finalizing apart byWorker =>
    exact .converting pending clear inside held finalizing
      (fun other copied => apart other (after other copied))
      fun own => absurd (byWorker own).1 (busy _)
  | orphan clear finalizing recap =>
    refine .orphan clear finalizing fun created isRecap => ?_
    obtain ⟨inside, unexecuted, apart⟩ := recap created isRecap
    exact ⟨inside, unexecuted, fun other copied => apart other (after other copied)⟩
  | opened => exact .opened

include sound in
theorem StoreSound.workerAt (now : state.worker = worker) :
    WorkerSound state.jobs state.status state.registered worker := by
  rw [← now]
  exact sound.worker

theorem copyAt (now : state.worker = worker)
    (copied : worker.copy? = some copy) : state.worker.copy? = some copy := by
  rw [now]
  exact copied

include sound

theorem StoreSound.engaged (now : state.worker = .engaged copy) :
    Holds state.jobs state.status state.registered copy ∧ copy.status = .running := by
  cases sound.workerAt now with
  | free free => cases free
  | engaged holds running => exact ⟨holds, running⟩

theorem StoreSound.lastWrite (now : state.worker.copy? = some copy)
    (member : stored ∈ state.jobs) (storedId : stored.id = copy.id) (same : job.id = copy.id)
    (kept : ∀ sessionId, PendingJob sessionId job → PendingJob sessionId stored)
    (held : JobSound state.status (state.executions job.id) job) :
    StoreSound ((state.write job).withWorker (.leaving job error)) :=
  sound.ownWrite now member storedId same kept (fun _ _ => rfl) held (nomatch ·, ·) (.free rfl)

theorem StoreSound.closed
    (now : state.worker = .engaged copy) (kind : copy.kind = .finalize sessionId) :
    StoreSound ((state.setStatus sessionId .closed).withWorker (.completed copy)) := by
  obtain ⟨holds, running⟩ := sound.engaged now
  have pending : PendingJob sessionId copy := ⟨kind, by rw [running]; exact (nomatch ·)⟩
  have agree : ∀ other, other ≠ sessionId →
      (state.setStatus sessionId .closed).status other = state.status other :=
    fun other apart => if_neg apart
  have here : (state.setStatus sessionId .closed).status sessionId = .closed := if_pos rfl
  refine ⟨?_, ?_, ?_⟩
  · refine sound.jobs.setStatus fun job member other also => ?_
    by_cases same : other = sessionId
    · subst same
      obtain rfl := sound.jobs.one member holds.member also pending
      exact .inr ⟨running, fun opened => by cases here.symm.trans opened⟩
    · exact .inl (agree other same)
  · refine .completed holds.member rfl rfl rfl fun other same => ?_
    cases kind.symm.trans same
    exact here
  · have taking := sound.taking
    simp only [withWorker, setStatus]
    generalize state.taking = taken at taking
    cases taking with
    | none => exact .none
    | @converting original other executed byWorker waits clear inside held finalizing apart own =>
      have distinct : other ≠ sessionId := by
        rintro rfl
        exact clear copy holds.member pending
      refine .converting waits clear inside ?_ ((agree other distinct).trans finalizing)
        (fun after copied => ?_) fun isOwn => ?_
      · refine held.setStatus fun session also => .inl (agree session ?_)
        cases waits.1.symm.trans also.1
        exact distinct
      · cases copied
        exact apart copy (copyAt now rfl)
      · cases now.symm.trans (own isOwn).1
    | @orphan other recap clear finalizing created =>
      have distinct : other ≠ sessionId := by
        rintro rfl
        exact clear copy holds.member pending
      refine .orphan clear ((agree other distinct).trans finalizing) fun job isRecap => ?_
      obtain ⟨inside, unexecuted, apart⟩ := created job isRecap
      refine ⟨inside, unexecuted, fun after copied => ?_⟩
      cases copied
      exact apart copy (copyAt now rfl)
    | opened => exact .opened

theorem StoreSound.claim (free : state.taking = none)
    (member : job ∈ state.jobs) (queued : job.status = .queued) :
    StoreSound ((state.withWorker (.claimed job)).register
      ((finalizeJobSessionId job).map fun _ => job.id)) := by
  refine ⟨sound.jobs, .claimed ⟨member, fun sessionId kind => ⟨?_, ?_⟩⟩ queued, ?_⟩
  · simp [register, finalizeJobSessionId, kind]
  · exact (sound.jobs.job job member).waits sessionId kind (.inl queued)
  · simp only [register, withWorker]
    rw [free]
    exact .none

omit sound

theorem StoreSound.start (sound : StoreSound state) (claimed : state.worker = .claimed job) :
    StoreSound ((state.write (startedJob job now)).withWorker (.started (startedJob job now))) := by
  cases sound.workerAt claimed with
  | free free => cases free
  | claimed holds queued =>
    have held := sound.jobs.job job holds.member
    have same : (startedJob job now).id = job.id := rfl
    refine sound.ownWrite (copyAt claimed rfl) holds.member rfl same
      (fun sessionId pending => ⟨pending.1, by rw [queued]; exact (nomatch ·)⟩) (fun _ _ => rfl)
      (.rest (fun sessionId kind => (holds.finalizing sessionId kind).2) held.counted held.bounded
        (nomatch ·)) (fun other copied => by cases copied; rfl) ?_
    exact .started ⟨mem_writeJob_self holds.member same, holds.finalizing⟩ rfl (held.queued queued)

variable (sound : StoreSound state)
include sound

theorem StoreSound.defer (message : Api.Text) (now : Stamp)
    (started : state.worker = .started job) :
    StoreSound ((state.write (deferredJob job message now)).withWorker
      (.leaving (deferredJob job message now) false)) := by
  cases sound.workerAt started with
  | free free => cases free
  | started holds running left =>
    have held := sound.jobs.job job holds.member
    exact sound.lastWrite (copyAt started rfl) holds.member rfl rfl
      (fun sessionId pending => ⟨pending.1, by rw [running]; exact (nomatch ·)⟩)
      (.rest (fun sessionId kind => (holds.finalizing sessionId kind).2) held.counted held.bounded
        fun _ => left)

theorem StoreSound.execute (started : state.worker = .started job) :
    StoreSound (((state.write (countedJob job)).setExecutions job.id
      (state.executions job.id + 1)).withWorker (.engaged (countedJob job))) := by
  cases sound.workerAt started with
  | free free => cases free
  | started holds running left =>
    have held := sound.jobs.job job holds.member
    have same : (countedJob job).id = job.id := rfl
    refine sound.ownWrite (copyAt started rfl) holds.member rfl same
      (fun sessionId pending => ⟨pending.1, by rw [running]; exact (nomatch ·)⟩)
      (fun _ other => if_neg other) ?_ (fun other copied => by cases copied; rfl) ?_
    · refine .rest (fun sessionId kind => (holds.finalizing sessionId kind).2) ?_
        (Nat.succ_le_of_lt left) fun queued => ?_
      · have count : (if (countedJob job).id = job.id then state.executions job.id + 1
            else state.executions (countedJob job).id) = state.executions job.id + 1 := if_pos rfl
        exact Nat.le_trans (Nat.le_of_eq count) (Nat.succ_le_succ held.counted)
      · cases running.symm.trans queued
    · exact .engaged ⟨mem_writeJob_self holds.member same, holds.finalizing⟩ running

theorem StoreSound.workerConvert
    (recapEndIndex : Nat) (now : Stamp) (preempted : state.worker = .preempted job)
    (kind : job.kind = .finalize sessionId) :
    StoreSound ((((state.write (convertedRecapJob job sessionId recapEndIndex now)).setExecutions
      job.id 0).take (some (.converting job sessionId (state.executions job.id) true))).withWorker
        (.handing job)) := by
  cases sound.workerAt preempted with
  | free free => cases free
  | preempted holds running =>
    have pending : PendingJob sessionId job := ⟨kind, by rw [running]; exact (nomatch ·)⟩
    obtain ⟨registered, finalizing⟩ := holds.finalizing sessionId kind
    exact ⟨sound.jobs.converted holds.member, .free rfl,
      .converting pending (sound.jobs.converted_clear holds.member pending)
        (converted_placeholder holds.member) (sound.jobs.job job holds.member) finalizing (nomatch ·, ·)
        fun _ => ⟨rfl, registered, running⟩⟩

theorem StoreSound.succeed (now : Stamp) (completed : state.worker = .completed job) :
    StoreSound ((state.write (succeededJob job now)).withWorker
      (.leaving (succeededJob job now) false)) := by
  cases sound.workerAt completed with
  | free free => cases free
  | completed member id kind attempts =>
    have held := sound.jobs.job _ member
    refine sound.lastWrite (copyAt completed rfl) member id rfl
      (fun sessionId pending => absurd rfl pending.2) (.succeeded rfl ?_ ?_)
    · have counted := held.counted
      rw [id, attempts] at counted
      exact counted
    · have bounded := held.bounded
      rw [attempts] at bounded
      exact bounded

theorem StoreSound.attemptFailed (message : Api.Text) (now : Stamp)
    (failed : state.worker = .failed job) :
    StoreSound ((state.write (applyJobAttemptFailure job message now)).withWorker
      (.leaving (applyJobAttemptFailure job message now) false)) := by
  cases sound.workerAt failed with
  | free free => cases free
  | failed holds running =>
    have held := sound.jobs.job job holds.member
    have unresolved : job.status ≠ .succeeded := by
      rw [running]
      exact (nomatch ·)
    unfold applyJobAttemptFailure
    split
    · rename_i left
      exact sound.lastWrite (copyAt failed rfl) holds.member rfl rfl
        (fun sessionId pending => ⟨pending.1, unresolved⟩)
        (.rest (fun sessionId kind => (holds.finalizing sessionId kind).2) held.counted
          held.bounded fun _ => left)
    · exact sound.lastWrite (copyAt failed rfl) holds.member rfl rfl
        (fun sessionId pending => ⟨pending.1, unresolved⟩)
        (.rest (fun sessionId kind => (holds.finalizing sessionId kind).2) held.counted
          held.bounded (nomatch ·))

theorem StoreSound.workerStep (taken : JobWorkerStep state label next) : StoreSound next := by
  cases taken with
  | claim free _ member queued => exact sound.claim free member queued
  | start now claimed => exact sound.start claimed
  | defer message now started => exact sound.defer message now started
  | execute started => exact sound.execute started
  | close engaged kind => exact sound.closed engaged kind
  | complete engaged closed =>
    obtain ⟨holds, _⟩ := sound.engaged engaged
    exact sound.move engaged (fun _ => (nomatch ·)) (fun _ copied => copied)
      (.completed holds.member rfl rfl rfl closed)
  | fail engaged =>
    obtain ⟨holds, running⟩ := sound.engaged engaged
    exact sound.move engaged (fun _ => (nomatch ·)) (fun _ copied => copied)
      (.failed holds running)
  | giveWay engaged =>
    obtain ⟨holds, running⟩ := sound.engaged engaged
    exact sound.move engaged (fun _ => (nomatch ·)) (fun _ copied => copied)
      (.preempted holds running)
  | convert recapEndIndex now _ preempted kind =>
    exact sound.workerConvert recapEndIndex now preempted kind
  | succeed now completed => exact sound.succeed now completed
  | failed message now failed => exact sound.attemptFailed message now failed
  | runnerError stages =>
    rcases stages with now | now | now | now | now
    all_goals exact sound.move now (fun _ => (nomatch ·)) (fun _ copied => nomatch copied) (.free rfl)
  | unregister free leaving =>
    refine ⟨sound.jobs, ?_, by rw [register, free]; exact .none⟩
    simp only [register]
    rw [leaving]
    exact .free rfl
  | recover retryMessage exhaustedMessage now free leaving member _ running =>
    have written := sound.recoverWrite free retryMessage exhaustedMessage now member running
      (fun copy copied => by rw [leaving] at copied; cases copied)
    exact ⟨written.jobs, .free rfl, by
      simp only [withWorker, register, write]
      rw [free]
      exact .none⟩
  | leave free =>
    exact ⟨sound.jobs, .free rfl, by
      simp only [withWorker, register]
      rw [free]
      exact .none⟩

theorem StoreSound.restartStep (taken : RestartStep state label next) : StoreSound next := by
  cases taken with
  | crash => exact ⟨sound.jobs, .free rfl, .none⟩
  | reconcile retryMessage exhaustedMessage now booting free member running =>
    exact sound.recoverWrite free retryMessage exhaustedMessage now member running
      (fun copy copied => by rw [booting] at copied; cases copied)
  | booted booting =>
    exact sound.move booting (fun _ => (nomatch ·)) (fun _ copied => copied) (.free rfl)

theorem StoreSound.step (taken : StoreStep state label next) : StoreSound next := by
  cases taken with
  | client taken => exact sound.clientStep taken
  | taking taken => exact sound.takingStep taken
  | worker taken => exact sound.workerStep taken
  | restart taken => exact sound.restartStep taken

end AgentClaimNetwork.Supervisor
