import AgentClaimNetwork.Session.Cleanup

/-!
Which directories a cleanup removes: a session that nobody leases when it is read before its
deletion stays so until it is gone.  A reserved session is leased, and closed, beyond the lock.
-/

namespace AgentClaimNetwork.Session.Cleanup

open Library

def Task.deletes {Stamp : Type} : Task Stamp → Option Api.Text
  | .reading .preDelete _ id _ | .dating .preDelete _ id _ | .eligible .preDelete _ id _ => some id
  | _ => none

variable {Process Stamp Replay History : Type}

structure Owned (state : State Process Stamp History) : Prop where
  lease : ∀ process id, state.holding process id = .leasedHandle → state.leases id = some process
  present : ∀ process id, state.holding process id = .leasedHandle → (state.sessions id).isSome

theorem Owned.unheld {state : State Process Stamp History} {id : Api.Text} (owned : Owned state)
    (free : state.leases id = none) (process : Process) :
    state.holding process id ≠ .leasedHandle := by
  intro holds
  have owner := owned.lease process id holds
  rw [free] at owner
  cases owner

structure Active (state : State Process Stamp History) (process : Process) : Prop where
  owned : Owned state
  lock : state.cleanupLock = some process
  alone : ∀ other, other ≠ process → state.task other = .idle

variable {state : State Process Stamp History} {process : Process} {id : Api.Text}

namespace Active

section

variable (active : Active state process)
include active

theorem put {directory : Option (Directory Stamp History)}
    (kept : directory.isSome ∨ ∀ other, state.holding other id ≠ .leasedHandle) :
    Active (state.store id directory) process where
  owned :=
    { lease := active.owned.lease
      present := by
        intro other name holds
        by_cases same : name = id
        · subst same
          have written := kept.resolve_right fun unheld => unheld other holds
          simpa using written
        · simpa [same] using active.owned.present other name holds }
  lock := active.lock
  alone := active.alone

theorem take (free : state.leases id = none) :
    Active (state.lease id holder) process where
  owned :=
    { lease := by
        intro other name holds
        have owner := active.owned.lease other name holds
        have different : name ≠ id := by
          rintro rfl
          simp [free] at owner
        simpa [different] using owner
      present := active.owned.present }
  lock := active.lock
  alone := active.alone

theorem giveBack (mine : state.leases id = some process)
    (unheld : state.holding process id ≠ .leasedHandle) :
    Active (state.lease id none) process where
  owned :=
    { lease := by
        intro other name holds
        have owner := active.owned.lease other name holds
        have different : name ≠ id := by
          rintro rfl
          obtain rfl := Option.some.inj (mine.symm.trans owner)
          exact unheld holds
        simpa [different] using owner
      present := active.owned.present }
  lock := active.lock
  alone := active.alone

end

theorem hand [DecidableEq Process] (active : Active state process)
    (leased : holding = .leasedHandle →
      state.leases id = some process ∧ (state.sessions id).isSome) :
    Active (state.hold process id holding) process where
  owned :=
    { lease := by
        intro other name holds
        rw [State.hold_holding] at holds
        split at holds
        · rename_i here
          rw [here.1, here.2]
          exact (leased holds).1
        · exact active.owned.lease other name holds
      present := by
        intro other name holds
        rw [State.hold_holding] at holds
        split at holds
        · rename_i here
          rw [here.2]
          exact (leased holds).2
        · exact active.owned.present other name holds }
  lock := active.lock
  alone := active.alone

end Active

variable [LinearOrder Stamp] (store : Store Stamp Replay History)

def Doomed (state : State Process Stamp History) (id : Api.Text)
    (found : Directory Stamp History → Prop) : Prop :=
  state.leases id = none ∧
    ∃ directory, state.sessions id = some directory ∧ isCandidate store id directory = true ∧
      found directory

def Ready (state : State Process Stamp History) (process : Process) : Task Stamp → Prop
  | .reading .preDelete _ id _ => Doomed store state id fun _ => True
  | .dating .preDelete _ id _ => Doomed store state id fun directory =>
    ∀ createdAt, lastMessageCreatedAt store directory.files.messages ≠ some (some createdAt)
  | .eligible .preDelete cutoff id _ => Doomed store state id fun directory =>
    lastActivityAt store directory < cutoff
  | .leased _ id | .opening (.runtime _) id =>
    state.leases id = some process ∧ state.holding process id ≠ .leasedHandle
  | _ => True

structure Guarded (state : State Process Stamp History) : Prop where
  owned : Owned state
  locked : ∀ process, state.task process ≠ .idle → state.cleanupLock = some process
  ready : ∀ process, Ready store state process (state.task process)

def Meets (state : State Process Stamp History) : Label Process Stamp Replay → Prop
  | .readMetadata process => ∀ cutoff id rest,
      state.task process = .eligible .scan cutoff id rest →
      (state.sessions id).any (isCandidate store id) = true → state.leases id = none
  | .write process id _ _ => state.holding process id = .leasedHandle ∨
      ∀ other, (state.task other).deletes ≠ some id
  | _ => True

variable {store}

theorem Guarded.active (guarded : Guarded store state) (current : state.task process = task)
    (busy : task ≠ .idle) : Active state process where
  owned := guarded.owned
  lock := guarded.locked process (current ▸ busy)
  alone other different := by
    by_contra working
    have held := guarded.locked other working
    rw [guarded.locked process (current ▸ busy)] at held
    exact different (Option.some.inj held).symm

theorem Ready.same (ready : Ready store state process task)
    (sessions : other.sessions = state.sessions) (leases : other.leases = state.leases)
    (holding : other.holding = state.holding) : Ready store other process task := by
  unfold Ready Doomed at ready ⊢
  rw [sessions, leases, holding]
  exact ready

namespace Active

variable [DecidableEq Process] (active : Active state process)
include active

theorem become (ready : Ready store state process task) :
    Guarded store (state.become process task) where
  owned := ⟨active.owned.lease, active.owned.present⟩
  locked other working := by
    by_cases same : other = process
    · rw [same]
      exact active.lock
    · simp [same, active.alone other same] at working
  ready other := by
    by_cases same : other = process
    · subst same
      rw [State.become_task, Function.update_self]
      exact ready.same rfl rfl rfl
    · simp [same, active.alone other same, Ready]

theorem leave : Guarded store (state.leave process) where
  owned := ⟨active.owned.lease, active.owned.present⟩
  locked other working := by
    by_cases same : other = process
    · simp [same] at working
    · simp [same, active.alone other same] at working
  ready other := by
    by_cases same : other = process
    · simp [same, Ready]
    · simp [same, active.alone other same, Ready]

theorem giveUp (ready : Ready store state process (state.task process)) :
    Guarded store (state.giveUp process) := by
  unfold State.giveUp
  split
  · rename_i current
    rw [current] at ready
    exact (active.giveBack ready.1 ready.2).leave
  · rename_i current
    rw [current] at ready
    exact (active.giveBack ready.1 ready.2).leave
  · exact active.leave

theorem complete (ready : Ready store state process (.opening request id))
    (present : (state.sessions id).isSome) : Guarded store (state.complete process request id) := by
  cases request with
  | runtime openClosed => exact (active.hand fun _ => ⟨ready.1, present⟩).leave
  | reopen =>
    refine (active.hand fun leased => ?_).leave
    split at leased
    · rename_i already
      exact ⟨active.owned.lease _ _ already, present⟩
    · cases leased

variable {directory : Directory Stamp History}

theorem examine (free : evaluation = .preDelete →
      (state.sessions id).any (isCandidate store id) = true → state.leases id = none) :
    Guarded store (Cleanup.examine store state process evaluation cutoff id rest) := by
  unfold Cleanup.examine
  split
  · rename_i candidate
    refine active.become ?_
    cases evaluation with
    | scan => trivial
    | preDelete =>
      obtain ⟨directory, here, checked⟩ := (Option.any_eq_true _ _).mp candidate
      exact ⟨free rfl candidate, directory, here, checked, trivial⟩
  · exact active.become trivial

theorem judge (doomed : evaluation = .preDelete →
      Doomed store state id fun directory => lastActivityAt store directory = lastActivity) :
    Guarded store (Cleanup.judge state process evaluation cutoff id rest lastActivity) := by
  unfold Cleanup.judge
  split
  · exact active.become trivial
  · rename_i old
    refine active.become ?_
    cases evaluation with
    | scan => trivial
    | preDelete =>
      obtain ⟨free, directory, here, checked, dated⟩ := doomed rfl
      exact ⟨free, directory, here, checked, dated.trans_lt (not_le.mp old)⟩

theorem loadRuntime (current : state.task process = .leased openClosed id)
    (ready : Ready store state process (state.task process)) :
    Guarded store (Cleanup.loadRuntime store state process openClosed id modified directory) := by
  unfold Cleanup.loadRuntime
  split
  · exact active.giveUp ready
  · rename_i metadata files loaded
    rw [current] at ready
    have written : Active (state.store id (some { directory with files, modified })) process :=
      active.put (.inl rfl)
    have present : ((state.store id (some { directory with files, modified })).sessions id).isSome :=
      by simp
    have completed : Guarded store ((state.store id (some { directory with files, modified })).complete
        process (.runtime openClosed) id) := written.complete ready present
    split
    · split
      · exact written.become ready
      · exact completed
    · exact completed
    · refine written.giveUp ?_
      rw [State.store_task, current]
      exact ready

theorem loadClosed (current : state.task process = .requesting .reopen id) :
    Guarded store (Cleanup.loadClosed store state process id modified directory) := by
  unfold Cleanup.loadClosed
  split
  · refine active.giveUp ?_
    rw [current]
    trivial
  · rename_i loaded _
    have written : Active (state.store id
        (some { directory with files := loaded.files, modified })) process :=
      active.put (.inl rfl)
    split
    · exact written.become trivial
    · refine written.giveUp ?_
      rw [State.store_task, current]
      trivial

theorem openTarget (current : state.task process = .opening request id)
    (ready : Ready store state process (state.task process)) :
    Guarded store (Cleanup.openTarget state process request id modified directory) := by
  unfold Cleanup.openTarget
  split
  · exact active.giveUp ready
  · rename_i files opened
    rw [current] at ready
    have written : Active (state.store id (some { directory with files, modified })) process :=
      active.put (.inl rfl)
    refine written.complete ?_ (by simp)
    cases request with
    | runtime openClosed => exact ready
    | reopen => trivial

end Active

namespace Guarded

theorem acquire (guarded : Guarded store state) (free : state.cleanupLock = none) :
    Active (state.lock (some process)) process where
  owned := ⟨guarded.owned.lease, guarded.owned.present⟩
  lock := rfl
  alone other _ := by
    by_contra working
    have held := guarded.locked other working
    rw [free] at held
    cases held

theorem undoomed (guarded : Guarded store state)
    (deletes : (state.task process).deletes = some id) : state.leases id = none := by
  have ready := guarded.ready process
  unfold Task.deletes at deletes
  split at deletes
  all_goals
    rename_i current
    cases deletes
  all_goals
    rw [current] at ready
    exact ready.1

theorem write (guarded : Guarded store state) {directory : Directory Stamp History}
    (spared : state.holding process id = .leasedHandle ∨
      ∀ other, (state.task other).deletes ≠ some id) :
    Guarded store (state.store id (some directory)) where
  owned :=
    { lease := guarded.owned.lease
      present := by
        intro other name holds
        by_cases same : name = id
        · simp [same]
        · simpa [same] using guarded.owned.present other name holds }
  locked := guarded.locked
  ready other := by
    have ready := guarded.ready other
    have untouched : (state.task other).deletes ≠ some id := by
      rcases spared with leased | spared
      · intro deletes
        have owner := guarded.owned.lease process id leased
        simp [guarded.undoomed deletes] at owner
      · exact spared other
    rw [State.store_task]
    generalize state.task other = task at ready untouched
    unfold Task.deletes at untouched
    unfold Ready Doomed at ready ⊢
    split at ready
    all_goals simp_all

variable [DecidableEq Process]

theorem releaseLease (guarded : Guarded store state)
    (leased : state.holding process id = .leasedHandle) :
    Guarded store ((state.lease id none).hold process id .handle) := by
  have owner := guarded.owned.lease process id leased
  have others : ∀ other name, ((state.lease id none).hold process id .handle).holding other name =
      .leasedHandle → name ≠ id ∧ state.holding other name = .leasedHandle := by
    intro other name holds
    rw [State.hold_holding] at holds
    split at holds
    · cases holds
    · rename_i elsewhere
      refine ⟨?_, holds⟩
      rintro rfl
      have same := guarded.owned.lease other name holds
      rw [owner] at same
      exact elsewhere ⟨(Option.some.inj same).symm, rfl⟩
  refine ⟨⟨?_, ?_⟩, guarded.locked, ?_⟩
  · intro other name holds
    obtain ⟨different, before⟩ := others other name holds
    simpa [different] using guarded.owned.lease other name before
  · intro other name holds
    exact guarded.owned.present other name (others other name holds).2
  · intro other
    have ready := guarded.ready other
    have free : ∀ name, state.leases name = none →
        (Function.update state.leases id none) name = none := by
      intro name before
      by_cases same : name = id
      · simp [same]
      · simpa [same] using before
    have mine : ∀ name, state.leases name = some other ∧ state.holding other name ≠ .leasedHandle →
        (Function.update state.leases id none) name = some other ∧
          ((state.lease id none).hold process id .handle).holding other name ≠ .leasedHandle := by
      rintro name ⟨claimed, unheld⟩
      have different : name ≠ id := by
        rintro rfl
        rw [owner] at claimed
        obtain rfl := Option.some.inj claimed
        exact unheld leased
      exact ⟨by simpa [different] using claimed, fun holds => unheld (others other name holds).2⟩
    rw [State.hold_task, State.lease_task]
    generalize state.task other = task at ready
    unfold Ready Doomed at ready ⊢
    split at ready
    all_goals simp_all

theorem dropHandle (guarded : Guarded store state) :
    Guarded store (state.hold process id .nothing) := by
  have others : ∀ other name, (state.hold process id .nothing).holding other name =
      .leasedHandle → state.holding other name = .leasedHandle := by
    intro other name holds
    rw [State.hold_holding] at holds
    split at holds
    · cases holds
    · exact holds
  refine ⟨⟨fun other name holds => guarded.owned.lease other name (others other name holds),
    fun other name holds => guarded.owned.present other name (others other name holds)⟩,
    guarded.locked, fun other => ?_⟩
  have ready := guarded.ready other
  rw [State.hold_task]
  generalize state.task other = task at ready
  unfold Ready Doomed at ready ⊢
  split at ready
  all_goals simp_all
  all_goals
    intro holds
    exact ready.2 (others _ _ holds)

end Guarded

variable [DecidableEq Process]

theorem Guarded.readMessages (guarded : Guarded store state)
    (taken : next store state (.readMessages process) = some following) :
    Guarded store following := by
  simp only [next] at taken
  split at taken
  · rename_i evaluation cutoff id rest current
    have active := guarded.active current nofun
    have ready := guarded.ready process
    rw [current] at ready
    split at taken
    · rename_i createdAt read
      cases taken
      refine active.judge fun again => ?_
      subst again
      obtain ⟨free, directory, here, checked, _⟩ := ready
      rw [here, Option.bind_some] at read
      exact ⟨free, directory, here, checked, by simp [lastActivityAt, read]⟩
    all_goals
      rename_i read
      cases taken
      refine active.become ?_
      cases evaluation with
      | scan => trivial
      | preDelete =>
        obtain ⟨free, directory, here, checked, _⟩ := ready
        rw [here, Option.bind_some] at read
        exact ⟨free, directory, here, checked, by simp [read]⟩
  · cases taken

theorem Guarded.readModified (guarded : Guarded store state)
    (taken : next store state (.readModified process) = some following) :
    Guarded store following := by
  simp only [next] at taken
  split at taken
  · rename_i evaluation cutoff id rest current
    have active := guarded.active current nofun
    have ready := guarded.ready process
    rw [current] at ready
    split at taken
    · rename_i directory here
      cases taken
      refine active.judge fun again => ?_
      subst again
      obtain ⟨free, same, found, checked, undated⟩ := ready
      obtain rfl := Option.some.inj (here.symm.trans found)
      exact ⟨free, directory, here, checked, lastActivityAt_undated undated⟩
    · cases taken
      exact active.become trivial
  · cases taken

theorem guarded_step (guarded : Guarded store state) (meets : Meets store state label)
    (taken : next store state label = some following) : Guarded store following := by
  cases label with
  | runCleanup process cutoff listing | request process request id =>
    simp only [next] at taken
    split at taken
    · rename_i free
      cases taken
      exact (guarded.acquire free).become trivial
    · cases taken
  | readMetadata process =>
    simp only [next] at taken
    split at taken
    · rename_i current
      cases taken
      exact (guarded.active current nofun).examine nofun
    · rename_i current
      cases taken
      exact (guarded.active current nofun).examine fun _ => meets _ _ _ current
    · cases taken
  | readMessages process => exact guarded.readMessages taken
  | readModified process => exact guarded.readModified taken
  | removeDirAll process =>
    simp only [next] at taken
    split at taken
    · rename_i current
      cases taken
      have ready := guarded.ready process
      rw [current] at ready
      have active := guarded.active current nofun
      exact (active.put (.inr (guarded.owned.unheld ready.1))).become trivial
    · cases taken
  | acquireLease process modified =>
    simp only [next] at taken
    split at taken
    · rename_i openClosed id current
      have active := guarded.active current nofun
      split at taken
      · rename_i free
        cases taken
        have unheld := guarded.owned.unheld free
        exact ((active.take free).put (.inr unheld)).become
          ⟨by simp, unheld process⟩
      · cases taken
        exact active.leave
    · cases taken
  | load process modified =>
    simp only [next] at taken
    split at taken
    · rename_i openClosed id current
      have active := guarded.active current nofun
      split at taken
      · cases taken
        exact active.loadRuntime current (guarded.ready process)
      · cases taken
        exact active.giveUp (guarded.ready process)
    · rename_i id current
      have active := guarded.active current nofun
      split at taken
      · cases taken
        exact active.loadClosed current
      · cases taken
        exact active.giveUp (guarded.ready process)
    · cases taken
  | markOpen process modified =>
    simp only [next] at taken
    split at taken
    · rename_i request id current
      have active := guarded.active current nofun
      split at taken
      · cases taken
        exact active.openTarget current (guarded.ready process)
      · cases taken
        exact active.giveUp (guarded.ready process)
    · cases taken
  | stop process =>
    simp only [next] at taken
    split at taken
    · cases taken
    · rename_i busy
      cases taken
      exact (guarded.active rfl busy).giveUp (guarded.ready process)
  | write process id write modified =>
    simp only [next] at taken
    split at taken
    · cases taken
    · cases taken
    · cases taken
      exact guarded.write meets
  | releaseLease process id =>
    simp only [next] at taken
    split at taken
    · rename_i leased
      cases taken
      exact guarded.releaseLease leased
    · cases taken
  | dropHandle process id =>
    simp only [next] at taken
    split at taken
    · cases taken
      exact guarded.dropHandle
    · cases taken

end AgentClaimNetwork.Session.Cleanup
