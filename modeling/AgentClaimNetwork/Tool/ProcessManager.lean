import Mathlib.Data.List.Sort
import AgentClaimNetwork.Api.Message

/-!
The processes a main session owns, from `src/tool/process/manager.rs`, and their projection in
`src/tool/command.rs`.
-/

namespace AgentClaimNetwork.Tool

open Api List

inductive ProcessState
  | starting
  | running
  | terminating
  | finished (exitCode signal : Option Int) (success : Bool)
  | terminated (exitCode signal : Option Int)
  | error

namespace ProcessState

def isLive : ProcessState → Bool
  | starting | running | terminating => true
  | _ => false

def label : ProcessState → Text
  | starting | running => "running".toList
  | terminating => "terminating".toList
  | finished .. => "finished".toList
  | terminated .. => "terminated".toList
  | error => "error".toList

def semanticLabel : ProcessState → Text
  | starting => "starting".toList
  | running => "running".toList
  | terminating => "terminating".toList
  | finished .. => "finished".toList
  | terminated .. => "terminated".toList
  | error => "error".toList

def exitCode : ProcessState → Option Int
  | finished exitCode .. | terminated exitCode _ => exitCode
  | _ => none

def signal : ProcessState → Option Int
  | finished _ signal _ | terminated _ signal => signal
  | _ => none

def success : ProcessState → Bool
  | finished _ _ success => success
  | _ => false

/-- `mark_running`, `request_terminate`, `mark_finished` and `mark_error`. -/
inductive Transition
  | markRunning
  | requestTerminate
  | markFinished (exitCode signal : Option Int) (success : Bool)
  | markError

def after : Transition → ProcessState → ProcessState
  | .markRunning, starting => running
  | .requestTerminate, starting | .requestTerminate, running => terminating
  | .markFinished exitCode signal _, terminating => terminated exitCode signal
  | .markFinished exitCode signal success, starting
  | .markFinished exitCode signal success, running => finished exitCode signal success
  | .markError, starting | .markError, running | .markError, terminating => error
  | _, state => state

variable {state : ProcessState}

theorem after_of_ended (ended : state.isLive = false)
    (transition : Transition) : state.after transition = state := by
  cases state <;> cases transition <;> first | rfl | cases ended

theorem semanticLabel_of_ended (ended : state.isLive = false) :
    state.semanticLabel = state.label := by
  cases state <;> first | rfl | cases ended

end ProcessState

inductive CompletionRegistration
  | unrecorded
  | registered
  | finalOutputDelivered
deriving DecidableEq

structure ProcessCompletion where
  processId : Text
  originatingTurnId : Option Text
  originatingToolUseId : Option Text
  instanceId : Nat
  status : Text
  exitCode : Option Int
  signal : Option Int
  success : Bool

abbrev Allocation := Text × Nat

def ProcessCompletion.allocation (completion : ProcessCompletion) : Allocation :=
  (completion.processId, completion.instanceId)

structure ManagedProcess where
  id : Text
  instanceId : Nat
  originatingTurnId : Option Text
  originatingToolUseId : Option Text
  command : Text
  cwd : Text
  tty : Bool
  state : ProcessState
  registration : CompletionRegistration
  /-- Whether it is still an entry of the process table. -/
  retained : Bool

namespace ManagedProcess

variable (process : ManagedProcess)

def allocation : Allocation := (process.id, process.instanceId)

def completion : ProcessCompletion where
  processId := process.id
  originatingTurnId := process.originatingTurnId
  originatingToolUseId := process.originatingToolUseId
  instanceId := process.instanceId
  status := process.state.label
  exitCode := process.state.exitCode
  signal := process.state.signal
  success := process.state.success

def associated : Bool :=
  process.originatingTurnId.isSome && process.originatingToolUseId.isSome

end ManagedProcess

structure ProviderCompletionNotification where
  completion : ProcessCompletion
  inflight : Bool

/-- `processes` are all allocations of the runtime, `obligations` the completion notifications
of the root session. -/
structure ProcessManager where
  processes : List ManagedProcess
  nextInstanceId : Nat
  obligations : List ProcessCompletion
  notifications : List ProviderCompletionNotification

namespace ProcessManager

def initial : ProcessManager := ⟨[], 1, [], []⟩

def reserve (manager : ProcessManager) (id : Text)
    (originatingTurnId originatingToolUseId : Option Text) (command cwd : Text) (tty : Bool) :
    Option ProcessManager :=
  if manager.processes.any (fun process => process.retained && process.id == id) then none
  else some
    { manager with
      processes := manager.processes ++
        [{ id, originatingTurnId, originatingToolUseId, command, cwd, tty
           instanceId := manager.nextInstanceId
           state := .starting
           registration := .unrecorded
           retained := true }]
      nextInstanceId := manager.nextInstanceId + 1 }

section

variable (manager : ProcessManager) (instanceId : Nat)

def update (change : ManagedProcess → ManagedProcess) : ProcessManager :=
  { manager with
    processes := manager.processes.map fun process =>
      if process.instanceId = instanceId then change process else process }

def advance (transition : ProcessState.Transition) : ProcessManager :=
  manager.update instanceId fun process =>
    { process with state := process.state.after transition }

def evict : ProcessManager :=
  manager.update instanceId fun process => { process with retained := false }

end

def enqueueObligation (queue : List ProcessCompletion) (completion : ProcessCompletion) :
    List ProcessCompletion :=
  if queue.any (fun existing => existing.instanceId == completion.instanceId) then queue
  else queue ++ [completion]

def enqueueNotification (queue : List ProviderCompletionNotification)
    (completion : ProcessCompletion) : List ProviderCompletionNotification :=
  if queue.any (fun existing => existing.completion.instanceId == completion.instanceId) then
    queue
  else queue ++ [⟨completion, false⟩]

def register (manager : ProcessManager) (process : ManagedProcess) : ProcessManager :=
  { manager.update process.instanceId fun process =>
      { process with registration := .registered } with
    obligations :=
      if process.associated then enqueueObligation manager.obligations process.completion
      else manager.obligations
    notifications := enqueueNotification manager.notifications process.completion }

variable (manager : ProcessManager)

def recordCompletion (instanceId : Nat) : ProcessManager :=
  match manager.processes.find? (·.instanceId == instanceId) with
  | none => manager
  | some process =>
    if process.state.isLive || process.registration ≠ .unrecorded then manager
    else manager.register process

/-- What `commit_deliveries` does once the provider has the final output of a process. -/
def commitFinalOutput (instanceId : Nat) : ProcessManager :=
  match manager.processes.find? (·.instanceId == instanceId) with
  | none => manager
  | some process =>
    if process.state.isLive then manager
    else
      let recorded := manager.recordCompletion instanceId
      let delivered := recorded.update instanceId fun process =>
        { process with registration := .finalOutputDelivered, retained := false }
      { delivered with
        notifications := delivered.notifications.filter
          fun notification => notification.completion.instanceId ≠ instanceId }

def acknowledge (instanceId : Nat) : ProcessManager :=
  { manager with
    obligations := manager.obligations.filter fun completion =>
      completion.instanceId ≠ instanceId }

def rollbackNotifications : ProcessManager :=
  { manager with
    notifications := manager.notifications.map fun notification =>
      { notification with inflight := false } }

def deliverable : List ProcessCompletion :=
  (manager.notifications.filter fun notification => !notification.inflight).map (·.completion)

def beginNotifications : ProcessManager :=
  { manager with
    notifications := manager.notifications.map fun notification =>
      { notification with inflight := true } }

def commitNotifications (receipts : List Allocation) : ProcessManager :=
  { manager with
    notifications := manager.notifications.filter fun notification =>
      !(notification.inflight && receipts.contains notification.completion.allocation) }

end ProcessManager

/-- A line of the projection; `terminal` is what it says of an entry of the table only. -/
structure ProcessRow where
  processId : Text
  instanceId : Nat
  state : Text
  exitCode : Option Int
  signal : Option Int
  finalOutputAvailable : Bool
  terminal : Option (Bool × Text × Text)
deriving DecidableEq

def ManagedProcess.row (process : ManagedProcess) : ProcessRow where
  processId := process.id
  instanceId := process.instanceId
  state := process.state.semanticLabel
  exitCode := process.state.exitCode
  signal := process.state.signal
  finalOutputAvailable := !process.state.isLive
  terminal := some (process.tty, process.command.take 400, process.cwd.take 200)

def ProcessCompletion.row (completion : ProcessCompletion) : ProcessRow where
  processId := completion.processId
  instanceId := completion.instanceId
  state := completion.status
  exitCode := completion.exitCode
  signal := completion.signal
  finalOutputAvailable := false
  terminal := none

/-- `none` is the projection that says there is no process. -/
abbrev BackgroundProjection := Option (List ProcessRow)

def ProcessRow.Before (left right : ProcessRow) : Prop :=
  left.processId < right.processId ∨
    (left.processId = right.processId ∧ left.instanceId ≤ right.instanceId)

instance : DecidableRel ProcessRow.Before := fun _ _ =>
  inferInstanceAs (Decidable (_ ∨ (_ ∧ _)))

def entryRows (entries : List ManagedProcess) (journaled : List Allocation) : List ProcessRow :=
  (entries.filter fun process =>
    process.state.isLive || journaled.contains process.allocation).map ManagedProcess.row

def completionRows (shown : List ProcessRow) (notifications : List ProcessCompletion) :
    List ProcessRow :=
  (notifications.filter fun completion =>
    !shown.any fun row => (row.processId, row.instanceId) == completion.allocation).map
      ProcessCompletion.row

def backgroundProcessProjection (manager : ProcessManager)
    (notifications : List ProcessCompletion) (journaled : List Allocation) :
    BackgroundProjection :=
  let entries := manager.processes.filter (·.retained)
  if entries.isEmpty && notifications.isEmpty then none
  else
    let rows := entryRows entries journaled
    some ((rows ++ completionRows rows notifications).insertionSort ProcessRow.Before)

namespace ProcessManager

def Ended (manager : ProcessManager) (completion : ProcessCompletion) : Prop :=
  ∃ process ∈ manager.processes, process.state.isLive = false ∧ process.completion = completion

/-- `journaled` are the allocations whose end the turn journal has. -/
structure Sound (manager : ProcessManager) (journaled : List Allocation) : Prop where
  distinct : (manager.processes.map (·.instanceId)).Nodup
  bounded : ∀ process ∈ manager.processes, process.instanceId < manager.nextInstanceId
  obligations : ∀ completion ∈ manager.obligations, manager.Ended completion
  notifications : ∀ notification ∈ manager.notifications, manager.Ended notification.completion
  kept : ∀ process ∈ manager.processes, process.registration ≠ .unrecorded →
    process.state.isLive = false ∧ (process.associated →
      process.completion ∈ manager.obligations ∨ process.allocation ∈ journaled)

variable {manager : ProcessManager} {journaled : List Allocation}

theorem sound_initial : initial.Sound journaled where
  distinct := nodup_nil
  bounded _ listed := by cases listed
  obligations _ listed := by cases listed
  notifications _ listed := by cases listed
  kept _ listed := by cases listed

variable (sound : manager.Sound journaled)

include sound

theorem Sound.same (isLeft : left ∈ manager.processes)
    (isRight : right ∈ manager.processes) (same : left.instanceId = right.instanceId) :
    left = right :=
  inj_on_of_nodup_map sound.distinct isLeft isRight same

theorem Sound.journal_more
    (grows : ∀ allocation ∈ journaled, allocation ∈ more) : manager.Sound more :=
  { sound with
    kept := fun process listed recorded =>
      ⟨(sound.kept process listed recorded).1, fun associated =>
        ((sound.kept process listed recorded).2 associated).imp_right (grows _)⟩ }

omit sound

section

variable {id : Text} {next : ProcessManager}

theorem reserve_processes (reserved : manager.reserve id originatingTurnId originatingToolUseId
    command cwd tty = some next) :
    next = { manager with
      processes := manager.processes ++
        [{ id, originatingTurnId, originatingToolUseId, command, cwd, tty
           instanceId := manager.nextInstanceId
           state := .starting
           registration := .unrecorded
           retained := true }]
      nextInstanceId := manager.nextInstanceId + 1 } := by
  unfold reserve at reserved
  split at reserved
  · cases reserved
  · exact (Option.some.inj reserved).symm

theorem Ended.reserve {completion : ProcessCompletion} (ended : manager.Ended completion)
    (reserved : manager.reserve id originatingTurnId originatingToolUseId command cwd tty =
      some next) : next.Ended completion := by
  obtain ⟨process, listed, stopped⟩ := ended
  rw [reserve_processes reserved]
  exact ⟨process, mem_append_left _ listed, stopped⟩

theorem Sound.reserve (sound : manager.Sound journaled)
    (reserved : manager.reserve id originatingTurnId originatingToolUseId command cwd tty =
      some next) : next.Sound journaled := by
  have still : ∀ completion, manager.Ended completion → next.Ended completion :=
    fun _ ended => ended.reserve reserved
  rw [reserve_processes reserved] at still ⊢
  constructor
  · rw [map_append]
    refine nodup_append.mpr ⟨sound.distinct, nodup_singleton _, ?_⟩
    intro taken isTaken fresh isFresh
    obtain ⟨process, listed, rfl⟩ := mem_map.mp isTaken
    cases mem_singleton.mp isFresh
    exact (sound.bounded process listed).ne
  · intro process listed
    rcases Library.mem_concat listed with earlier | rfl
    · exact (sound.bounded process earlier).trans (Nat.lt_succ_self _)
    · exact Nat.lt_succ_self _
  · exact fun completion listed => still _ (sound.obligations completion listed)
  · exact fun notification listed => still _ (sound.notifications notification listed)
  · intro process listed recorded
    rcases Library.mem_concat listed with earlier | rfl
    · exact sound.kept process earlier recorded
    · exact absurd rfl recorded

end

structure Stays (before after : ManagedProcess) : Prop where
  instanceId : after.instanceId = before.instanceId
  completion : before.state.isLive = false →
    after.state.isLive = false ∧ after.completion = before.completion

section

variable {instanceId : Nat}

theorem mem_update (listed : process ∈ (manager.update instanceId change).processes) :
    ∃ before ∈ manager.processes,
      (before.instanceId = instanceId ∧ process = change before) ∨
        (before.instanceId ≠ instanceId ∧ process = before) := by
  obtain ⟨before, isBefore, rfl⟩ := mem_map.mp listed
  refine ⟨before, isBefore, ?_⟩
  split
  · rename_i chosen
    exact .inl ⟨chosen, rfl⟩
  · rename_i other
    exact .inr ⟨other, rfl⟩

theorem Ended.update {completion : ProcessCompletion} (ended : manager.Ended completion)
    (stays : ∀ process, Stays process (change process)) :
    (manager.update instanceId change).Ended completion := by
  obtain ⟨process, listed, stopped, rfl⟩ := ended
  refine ⟨_, mem_map_of_mem listed, ?_⟩
  split
  · exact (stays process).completion stopped
  · exact ⟨stopped, rfl⟩

theorem Sound.update (sound : manager.Sound journaled)
    (stays : ∀ process, Stays process (change process))
    (kept : ∀ process ∈ manager.processes, process.instanceId = instanceId →
      (change process).registration ≠ .unrecorded → (change process).state.isLive = false ∧
        ((change process).associated → (change process).completion ∈ manager.obligations ∨
          (change process).allocation ∈ journaled)) :
    (manager.update instanceId change).Sound journaled where
  distinct := by
    have numbers : (manager.update instanceId change).processes.map (·.instanceId) =
        manager.processes.map (·.instanceId) := by
      refine (map_map ..).trans (map_congr_left fun process _ => ?_)
      dsimp only [Function.comp_apply]
      split
      · exact (stays process).instanceId
      · rfl
    rw [numbers]
    exact sound.distinct
  bounded process listed := by
    obtain ⟨before, isBefore, ⟨_, rfl⟩ | ⟨_, rfl⟩⟩ := mem_update listed
    · rw [(stays before).instanceId]
      exact sound.bounded before isBefore
    · exact sound.bounded _ isBefore
  obligations completion listed := (sound.obligations completion listed).update stays
  notifications notification listed := (sound.notifications notification listed).update stays
  kept process listed recorded := by
    obtain ⟨before, isBefore, ⟨chosen, rfl⟩ | ⟨_, rfl⟩⟩ := mem_update listed
    · exact kept before isBefore chosen recorded
    · exact sound.kept _ isBefore recorded

end

theorem stays_advance (transition : ProcessState.Transition) (process : ManagedProcess) :
    Stays process { process with state := process.state.after transition } where
  instanceId := rfl
  completion stopped := by
    rw [ProcessState.after_of_ended stopped]
    exact ⟨stopped, rfl⟩

theorem stays_of_state {before after : ManagedProcess}
    (completion : after.completion = before.completion) (state : after.state = before.state) :
    Stays before after where
  instanceId := congrArg ProcessCompletion.instanceId completion
  completion stopped := ⟨state ▸ stopped, completion⟩

include sound

theorem Sound.advance : (manager.advance instanceId transition).Sound journaled := by
  refine sound.update (stays_advance transition) fun process listed _ recorded => ?_
  obtain ⟨stopped, fate⟩ := sound.kept process listed recorded
  rw [ProcessState.after_of_ended stopped]
  exact ⟨stopped, fate⟩

theorem Sound.evict : (manager.evict instanceId).Sound journaled :=
  sound.update (fun _ => stays_of_state rfl rfl) fun process listed _ recorded =>
    sound.kept process listed recorded

omit sound

theorem mem_enqueueObligation {completion other : ProcessCompletion}
    (listed : other ∈ enqueueObligation queue completion) : other ∈ queue ∨ other = completion := by
  unfold enqueueObligation at listed
  split at listed
  · exact .inl listed
  · exact (mem_append.mp listed).imp_right mem_singleton.mp

variable {completion : ProcessCompletion}

theorem mem_enqueueNotification (listed : other ∈ enqueueNotification queue completion) :
    other ∈ queue ∨ other.completion = completion := by
  unfold enqueueNotification at listed
  split at listed
  · exact .inl listed
  · exact (mem_append.mp listed).imp_right
      fun last => congrArg ProviderCompletionNotification.completion (mem_singleton.mp last)

include sound in
theorem Sound.queues (obligations : List ProcessCompletion)
    (notifications : List ProviderCompletionNotification)
    (obliged : ∀ completion ∈ obligations, manager.Ended completion)
    (notified : ∀ notification ∈ notifications, manager.Ended notification.completion)
    (waits : ∀ completion ∈ manager.obligations, completion ∈ obligations) :
    Sound { manager with obligations, notifications } journaled :=
  { sound with
    obligations := obliged
    notifications := notified
    kept := fun process listed recorded =>
      ⟨(sound.kept process listed recorded).1, fun associated =>
        ((sound.kept process listed recorded).2 associated).imp_left (waits _)⟩ }

theorem Sound.register (sound : manager.Sound journaled) {process : ManagedProcess}
    (listed : process ∈ manager.processes) (stopped : process.state.isLive = false) :
    (manager.register process).Sound journaled := by
  have own : manager.Ended process.completion := ⟨process, listed, stopped, rfl⟩
  have waits : ∀ completion ∈ manager.obligations,
      completion ∈ (manager.register process).obligations := by
    intro completion queued
    unfold ProcessManager.register enqueueObligation
    split
    · split
      · exact queued
      · exact mem_append_left _ queued
    · exact queued
  have enqueued := sound.queues (manager.register process).obligations
    (manager.register process).notifications ?_ ?_ waits
  · refine enqueued.update (fun _ => stays_of_state rfl rfl) fun other isOther same _ => ?_
    cases sound.same isOther listed same
    refine ⟨stopped, fun associated => .inl ?_⟩
    have associated : process.associated := associated
    unfold ProcessManager.register enqueueObligation
    rw [if_pos associated]
    split
    · rename_i queued
      obtain ⟨existing, isQueued, twin⟩ := any_eq_true.mp queued
      obtain ⟨author, isAuthor, _, rfl⟩ := sound.obligations existing isQueued
      cases sound.same isAuthor listed (of_decide_eq_true twin)
      exact isQueued
    · exact mem_append_right _ (mem_singleton.mpr rfl)
  · intro completion queued
    unfold ProcessManager.register at queued
    split at queued
    · rcases mem_enqueueObligation queued with earlier | rfl
      · exact sound.obligations completion earlier
      · exact own
    · exact sound.obligations completion queued
  · intro notification queued
    rcases mem_enqueueNotification queued with earlier | same
    · exact sound.notifications notification earlier
    · rw [same]
      exact own

theorem find_instance {instanceId : Nat}
    (found : manager.processes.find? (·.instanceId == instanceId) = some process) :
    process ∈ manager.processes ∧ process.instanceId = instanceId :=
  ⟨List.mem_of_find?_eq_some found, by simpa using List.find?_some found⟩

include sound in
theorem Sound.recordCompletion (instanceId : Nat) :
    (manager.recordCompletion instanceId).Sound journaled := by
  unfold ProcessManager.recordCompletion
  split
  · exact sound
  · rename_i process found
    split
    · exact sound
    · rename_i ready
      have stopped : process.state.isLive = false := by
        cases live : process.state.isLive with
        | false => rfl
        | true => simp [live] at ready
      exact sound.register (find_instance found).1 stopped

theorem Ended.recordCompletion (ended : manager.Ended completion) :
    (manager.recordCompletion instanceId).Ended completion := by
  unfold ProcessManager.recordCompletion
  split
  · exact ended
  · split
    · exact ended
    · exact ended.update fun _ => stays_of_state rfl rfl

include sound

theorem recordCompletion_recorded {instanceId : Nat}
    (found : manager.processes.find? (·.instanceId == instanceId) = some process)
    (stopped : process.state.isLive = false)
    (listed : other ∈ (manager.recordCompletion instanceId).processes)
    (same : other.instanceId = instanceId) : other.registration ≠ .unrecorded := by
  obtain ⟨isProcess, number⟩ := find_instance found
  by_cases fresh : process.registration = .unrecorded
  · rw [ProcessManager.recordCompletion, found] at listed
    dsimp only at listed
    rw [if_neg (by simp [stopped, fresh])] at listed
    obtain ⟨before, _, ⟨_, rfl⟩ | ⟨apart, rfl⟩⟩ := mem_update listed
    · exact CompletionRegistration.noConfusion
    · exact absurd (same.trans number.symm) apart
  · rw [ProcessManager.recordCompletion, found] at listed
    dsimp only at listed
    rw [if_pos (by simp [fresh])] at listed
    cases sound.same listed isProcess (same.trans number.symm)
    exact fresh

theorem Sound.commitFinalOutput {instanceId : Nat} :
    (manager.commitFinalOutput instanceId).Sound journaled := by
  unfold ProcessManager.commitFinalOutput
  split
  · exact sound
  · rename_i process found
    split
    · exact sound
    · rename_i ended
      have stopped : process.state.isLive = false := Bool.eq_false_iff.mpr ended
      have recorded := sound.recordCompletion instanceId
      have delivered : ((manager.recordCompletion instanceId).update instanceId fun process =>
          { process with registration := .finalOutputDelivered, retained := false }).Sound
            journaled :=
        recorded.update (fun _ => stays_of_state rfl rfl) fun other listed same _ =>
          recorded.kept other listed (recordCompletion_recorded sound found stopped listed same)
      refine delivered.queues _ _ delivered.obligations ?_ fun _ queued => queued
      exact fun notification listed =>
        delivered.notifications notification (mem_of_mem_filter listed)

omit sound

theorem Ended.commitFinalOutput (ended : manager.Ended completion) :
    (manager.commitFinalOutput instanceId).Ended completion := by
  unfold ProcessManager.commitFinalOutput
  split
  · exact ended
  · split
    · exact ended
    · exact (ended.recordCompletion).update fun _ => stays_of_state rfl rfl

variable (sound : manager.Sound journaled)
include sound

theorem Sound.rollbackNotifications : manager.rollbackNotifications.Sound journaled := by
  refine sound.queues _ _ sound.obligations ?_ fun _ queued => queued
  intro notification listed
  obtain ⟨before, isBefore, rfl⟩ := mem_map.mp listed
  exact sound.notifications before isBefore

theorem Sound.beginNotifications : manager.beginNotifications.Sound journaled := by
  refine sound.queues _ _ sound.obligations ?_ fun _ queued => queued
  intro notification listed
  obtain ⟨before, isBefore, rfl⟩ := mem_map.mp listed
  exact sound.notifications before isBefore

theorem Sound.deliverable
    (listed : completion ∈ manager.deliverable) : manager.Ended completion := by
  obtain ⟨notification, isListed, rfl⟩ := mem_map.mp listed
  exact sound.notifications notification (mem_of_mem_filter isListed)

theorem Sound.commitNotifications : (manager.commitNotifications receipts).Sound journaled :=
  sound.queues _ _ sound.obligations
    (fun notification listed =>
      sound.notifications notification (mem_of_mem_filter listed))
    fun _ queued => queued

theorem Sound.acknowledge
    (ended : manager.Ended completion) (written : completion.allocation ∈ journaled) :
    (manager.acknowledge completion.instanceId).Sound journaled where
  distinct := sound.distinct
  bounded := sound.bounded
  obligations other queued := sound.obligations other (mem_of_mem_filter queued)
  notifications := sound.notifications
  kept process listed recorded := by
    refine ⟨(sound.kept process listed recorded).1, fun associated => ?_⟩
    rcases (sound.kept process listed recorded).2 associated with queued | already
    · obtain ⟨author, isAuthor, _, rfl⟩ := ended
      by_cases same : process.instanceId = author.instanceId
      · cases sound.same listed isAuthor same
        exact .inr written
      · exact .inl (mem_filter.mpr ⟨queued, decide_eq_true same⟩)
    · exact .inr already

end ProcessManager

def ProcessRow.Reports (row : ProcessRow) (completion : ProcessCompletion) : Prop :=
  row.processId = completion.processId ∧ row.instanceId = completion.instanceId ∧
    row.state = completion.status ∧ row.exitCode = completion.exitCode ∧
    row.signal = completion.signal

def BackgroundProjection.Shows (projection : BackgroundProjection)
    (completion : ProcessCompletion) : Prop :=
  ∃ rows, projection = some rows ∧ ∃ row ∈ rows, row.Reports completion

theorem row_reports {process : ManagedProcess} (stopped : process.state.isLive = false) :
    process.row.Reports process.completion :=
  ⟨rfl, rfl, ProcessState.semanticLabel_of_ended stopped, rfl, rfl⟩

theorem projection_shows {manager : ProcessManager} {journaled : List Allocation}
    (sound : manager.Sound journaled) {completion : ProcessCompletion}
    (listed : completion ∈ notifications) (ended : manager.Ended completion)
    {shown : List Allocation} :
    (backgroundProcessProjection manager notifications shown).Shows completion := by
  obtain ⟨author, isAuthor, stopped, rfl⟩ := ended
  have some_rows : notifications.isEmpty = false := by
    cases notifications with
    | nil => cases listed
    | cons => rfl
  unfold backgroundProcessProjection
  dsimp only
  rw [some_rows, Bool.and_false, if_neg Bool.false_ne_true]
  refine ⟨_, rfl, ?_⟩
  simp only [mem_insertionSort, mem_append]
  by_cases entered : (entryRows (manager.processes.filter (·.retained)) shown).any
      (fun row => (row.processId, row.instanceId) == author.completion.allocation) = true
  · obtain ⟨row, isRow, same⟩ := any_eq_true.mp entered
    obtain ⟨process, kept, rfl⟩ := mem_map.mp isRow
    have isProcess := mem_of_mem_filter (mem_of_mem_filter kept)
    have number : process.instanceId = author.instanceId :=
      congrArg Prod.snd (beq_iff_eq.mp same)
    cases sound.same isProcess isAuthor number
    exact ⟨_, .inl isRow, row_reports stopped⟩
  · refine ⟨author.completion.row, .inr (mem_map_of_mem ?_), rfl, rfl, rfl, rfl, rfl⟩
    exact mem_filter.mpr ⟨listed, by simpa using entered⟩

end AgentClaimNetwork.Tool
