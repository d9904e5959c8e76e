import AgentClaimNetwork.Session.CleanupSafety
import AgentClaimNetwork.Session.MessageJson

/-!
Cleanups beside the processes that take sessions up and put them down: only unused sessions are
removed, but for reserved ones.
-/

namespace AgentClaimNetwork.Session.Cleanup

open Library

variable {Process Stamp Replay History : Type}

section

variable {state following : State Process Stamp History} {id : Api.Text}

def Keeps (state following : State Process Stamp History) : Prop :=
  ∀ id, (state.sessions id).isSome → (following.sessions id).isSome

theorem Keeps.same (sessions : following.sessions = state.sessions) : Keeps state following := by
  intro id present
  rwa [sessions]

theorem Keeps.written {directory : Directory Stamp History}
    (sessions : following.sessions = Function.update state.sessions id (some directory)) :
    Keeps state following := by
  intro name present
  rw [sessions]
  by_cases same : name = id
  · simp [same]
  · simpa [same] using present

structure Fresh (state : State Process Stamp History) : Prop where
  unlocked : state.cleanupLock = none
  unleased : ∀ id, state.leases id = none
  unheld : ∀ process id, state.holding process id = .nothing
  idle : ∀ process, state.task process = .idle

theorem Fresh.guarded [LinearOrder Stamp] {store : Store Stamp Replay History} (fresh : Fresh state) : Guarded store state where
  owned :=
    { lease := by simp [fresh.unheld]
      present := by simp [fresh.unheld] }
  locked := by simp [fresh.idle]
  ready := by simp [fresh.idle, Ready]

end

section

variable [DecidableEq Process] {store : Store Stamp Replay History}
  {state following : State Process Stamp History} {process : Process} {id : Api.Text}
  {label : Label Process Stamp Replay}

section

variable {modified : Stamp} {directory : Directory Stamp History}

theorem examine_keeps : Keeps state (examine store state process evaluation cutoff id rest) := by
  unfold examine
  split <;> exact .same rfl

theorem loadRuntime_keeps :
    Keeps state (loadRuntime store state process openClosed id modified directory) := by
  unfold loadRuntime
  split
  · exact .same (by simp)
  · split
    · split <;> exact .written (by simp; rfl)
    all_goals exact .written (by simp; rfl)

theorem loadClosed_keeps : Keeps state (loadClosed store state process id modified directory) := by
  unfold loadClosed
  split
  · exact .same (by simp)
  · split <;> exact .written (by simp; rfl)

theorem openTarget_keeps :
    Keeps state (openTarget state process request id modified directory) := by
  unfold openTarget
  split
  · exact .same (by simp)
  · exact .written (by simp; rfl)

theorem acquired_keeps :
    Keeps state (((state.lease id holder).store id
      ((state.sessions id).map fun directory => { directory with modified })).become process task) := by
  intro name present
  by_cases same : name = id
  · subst same
    simpa using present
  · simpa [same] using present

end

variable [LinearOrder Stamp]

theorem judge_keeps : Keeps state (judge state process evaluation cutoff id rest lastActivity) := by
  unfold judge
  split <;> exact .same rfl

theorem next_keeps (taken : next store state label = some following)
    (stays : ∀ process, label ≠ .removeDirAll process) : Keeps state following := by
  cases label with
  | removeDirAll process => exact absurd rfl (stays process)
  | runCleanup | request | stop | releaseLease | dropHandle =>
    simp only [next] at taken
    split at taken <;> cases taken
    all_goals exact .same (by simp)
  | readMetadata =>
    simp only [next] at taken
    split at taken <;> cases taken
    all_goals exact examine_keeps
  | readMessages =>
    simp only [next] at taken
    split at taken
    · split at taken <;> cases taken
      · exact judge_keeps
      all_goals exact .same rfl
    · cases taken
  | readModified =>
    simp only [next] at taken
    split at taken
    · split at taken <;> cases taken
      · exact judge_keeps
      · exact .same rfl
    · cases taken
  | acquireLease =>
    simp only [next] at taken
    split at taken
    · split at taken <;> cases taken
      · exact acquired_keeps
      · exact .same rfl
    · cases taken
  | load =>
    simp only [next] at taken
    split at taken
    · split at taken <;> cases taken
      · exact loadRuntime_keeps
      · exact .same (by simp)
    · split at taken <;> cases taken
      · exact loadClosed_keeps
      · exact .same (by simp)
    · cases taken
  | markOpen =>
    simp only [next] at taken
    split at taken
    · split at taken <;> cases taken
      · exact openTarget_keeps
      · exact .same (by simp)
    · cases taken
  | write =>
    simp only [next] at taken
    split at taken <;> cases taken
    exact .written rfl

theorem removed_by (taken : next store state label = some following)
    (here : (state.sessions id).isSome) (gone : following.sessions id = none) :
    ∃ process cutoff rest,
      label = .removeDirAll process ∧ state.task process = .eligible .preDelete cutoff id rest := by
  by_cases removes : ∃ process, label = .removeDirAll process
  · obtain ⟨process, rfl⟩ := removes
    simp only [next] at taken
    split at taken
    · rename_i cutoff name rest current
      cases taken
      by_cases same : id = name
      · exact ⟨process, cutoff, rest, rfl, same ▸ current⟩
      · simp [same] at gone
        simp [gone] at here
    · cases taken
  · have keeps := next_keeps taken (not_exists.mp removes) id here
    simp [gone] at keeps

variable (store) in
def Careful (state : State Process Stamp History) (label : Label Process Stamp Replay)
    (following : State Process Stamp History) : Prop :=
  Meets store state label ∧ next store state label = some following

theorem guarded_run {labels : List (Label Process Stamp Replay)} (fresh : Fresh first)
    (run : Trace (Careful store) first labels last) : Guarded store last :=
  @Trace.invariant _ _ _ (Guarded store) (fun taken guarded => guarded_step guarded taken.1 taken.2)
    _ _ _ run fresh.guarded

variable (store) in
def RemovesUnused (state following : State Process Stamp History) : Prop :=
  ∀ id directory, state.sessions id = some directory → following.sessions id = none →
    directory.files.metadata.status = .closed ∧ state.leases id = none ∧
      ∃ process cutoff rest, state.task process = .eligible .preDelete cutoff id rest ∧
        lastActivityAt store directory < cutoff

theorem Guarded.removesUnused (guarded : Guarded store state)
    (taken : next store state label = some following) : RemovesUnused store state following := by
  intro id directory here gone
  obtain ⟨process, cutoff, rest, rfl, current⟩ := removed_by taken (by simp [here]) gone
  have ready := guarded.ready process
  rw [current] at ready
  obtain ⟨free, same, found, candidate, old⟩ := ready
  obtain rfl := Option.some.inj (here.symm.trans found)
  simp only [isCandidate, Bool.and_eq_true, decide_eq_true_eq] at candidate
  exact ⟨candidate.2, free, process, cutoff, rest, current, old⟩

/-- A leased handle has its session on disk, and a cleanup removes only what is unused. -/
theorem cleanup_removes_unused_sessions (store : Store Stamp Replay History)
    {first last : State Process Stamp History} {labels : List (Label Process Stamp Replay)}
    (fresh : Fresh first) (run : Trace (Careful store) first labels last) :
    (∀ process id, last.holding process id = .leasedHandle → (last.sessions id).isSome) ∧
      ∀ label following, next store last label = some following →
        RemovesUnused store last following := by
  have guarded := guarded_run fresh run
  exact ⟨guarded.owned.present, fun _ _ taken => guarded.removesUnused taken⟩

end

namespace Example

def lastUserText (messages : List (SessionMessage Nat Json)) : Option Api.Text :=
  (messages.filter fun message => message.role = .user).getLast?.bind fun message =>
    (message.content.filterMap fun
      | .text body => some body
      | _ => none).head?

noncomputable def store : Store Nat Json Unit where
  codec := MessageCodec.exact (fun time : Nat => Json.num time) id
    (fun _ _ same => Int.ofNat.inj (Json.num.inj same)) Function.injective_id
  agentId := "agent".toList
  extractLastUserText := lastUserText

def id : Api.Text := "session_1".toList

def directory : Directory Nat Unit where
  files :=
    { metadata := ⟨id, "agent".toList, .closed, some 5, "model".toList, 0, some 5, 0, some 0, some 0, none⟩
      messages := []
      providerHistory := .missing
      finalizeCheckpoint := .missing
      latestBackgroundCompletionSeq := 0 }
  modified := 5
  journalUserText := some "hello".toList

def state : State Nat Nat Unit where
  sessions := Function.update (fun _ => none) id (some directory)
  cleanupLock := none
  leases _ := none
  holding _ _ := .nothing
  task _ := .idle

def cleanup : List (Label Nat Nat Json) :=
  [.runCleanup 2 10 [id], .readMetadata 2, .readMessages 2, .readModified 2, .readMetadata 2,
    .readMessages 2, .readModified 2]

def reserving : List (Label Nat Nat Json) :=
  [.request 1 (.runtime false) id, .acquireLease 1 5, .load 1 5]

theorem fresh : Fresh state := ⟨rfl, fun _ => rfl, fun _ _ => rfl, fun _ => rfl⟩

def resuming : List (Label Nat Nat Json) :=
  [.request 1 (.runtime true) id, .acquireLease 1 5, .load 1 5, .markOpen 1 6,
    .write 1 id (.markClosed 7) 7, .releaseLease 1 id]

end Example

/-- A session that was reserved is removed under its holder. -/
theorem reserved_session_is_removed : ∃ last following : State Nat Nat Unit, Fresh Example.state ∧
      Trace (fun state label following => next Example.store state label = some following)
        Example.state (Example.reserving ++ Example.cleanup) last ∧
      next Example.store last (.removeDirAll 2) = some following ∧
      last.holding 1 Example.id = .leasedHandle ∧ following.sessions Example.id = none ∧
      ¬RemovesUnused Example.store last following := by
  refine ⟨_, _, Example.fresh, Trace.of_execute rfl, rfl, rfl, rfl, fun unused => ?_⟩
  obtain ⟨_, free, _⟩ := unused Example.id Example.directory rfl rfl
  exact absurd free nofun

theorem released_session_is_removed : ∃ last following : State Nat Nat Unit,
    next Example.store last (.removeDirAll 2) = some following ∧
      following.sessions Example.id = none ∧ RemovesUnused Example.store last following := by
  have released : ∀ name, Function.update (Function.update (fun _ => none) Example.id (some 1))
      Example.id none name = (none : Option Nat) := by
    intro name
    simp [Function.update_apply]
  have resumed : ∃ middle, Trace.execute (next Example.store) Example.state Example.resuming =
      some middle ∧ Trace (Careful Example.store) Example.state Example.resuming middle :=
    ⟨_, rfl, .snoc (.snoc (.snoc (.snoc (.snoc (.single ⟨trivial, rfl⟩) ⟨trivial, rfl⟩)
      ⟨trivial, rfl⟩) ⟨trivial, rfl⟩) ⟨Or.inl rfl, rfl⟩) ⟨trivial, rfl⟩⟩
  obtain ⟨middle, ran, before⟩ := resumed
  cases ran
  have cleaned : ∃ last, Trace.execute (next Example.store) Example.state
      (Example.resuming ++ Example.cleanup) = some last ∧
      Trace (Careful Example.store) Example.state (Example.resuming ++ Example.cleanup) last :=
    ⟨_, rfl, before.append (.snoc (.snoc (.snoc (.snoc (.snoc (.snoc (.single ⟨trivial, rfl⟩)
      ⟨fun _ name _ _ _ => released name, rfl⟩) ⟨trivial, rfl⟩) ⟨trivial, rfl⟩)
      ⟨fun _ name _ _ _ => released name, rfl⟩) ⟨trivial, rfl⟩) ⟨trivial, rfl⟩)⟩
  obtain ⟨last, ran, careful⟩ := cleaned
  cases ran
  have safe := (cleanup_removes_unused_sessions Example.store Example.fresh careful).2
    (.removeDirAll 2) _ rfl
  exact ⟨_, _, rfl, rfl, safe⟩

end AgentClaimNetwork.Session.Cleanup
