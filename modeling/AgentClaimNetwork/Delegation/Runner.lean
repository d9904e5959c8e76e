import AgentClaimNetwork.Delegation.Lifecycle

/-!
The runner of `src/delegation/runner.rs` as independent tasks: a section under the state mutex and
a call of the store are one step each.  A call may fail before or after its metadata is written.
-/

namespace AgentClaimNetwork.Delegation

open Library List
open Function (update update_of_ne update_self)

/-- How a call of the store ends: with `Ok`, or with an I/O error before or after the
metadata reached the disk. -/
inductive StoreWrite
  | done
  | failed (written : Bool)
deriving DecidableEq

def StoreWrite.status (write : StoreWrite) (before after : DelegationStatus) : DelegationStatus :=
  match write with
  | .done | .failed true => after
  | .failed false => before

def abandonStatus (status : DelegationStatus) : DelegationStatus :=
  if status.isTerminal then status else .abandoned

/-- The status `complete` leaves when it is given a terminal one. -/
def completeStatus (status target : DelegationStatus) : DelegationStatus :=
  if status.isTerminal then status
  else if status = .running ∨ target ≠ .completed then target
  else status

section

variable {files : SubagentFiles}

end

structure RunnerState where
  queued : List Text
  starting : Nat
  /-- The keys of the map of handles. -/
  running : List Text
  abandonGeneration : Nat

namespace RunnerState

def initial : RunnerState := ⟨[], 0, [], 0⟩

variable (state : RunnerState)

def abortAllInMemory : RunnerState :=
  { queued := [], starting := 0, running := [],
    abandonGeneration := min (state.abandonGeneration + 1) maxSeq }

/-- The last section of `prune_terminal_in_memory`. -/
def pruneTerminal (terminalIds : List Text) : RunnerState :=
  { state with
    queued := state.queued.filter (fun id => decide (id ∉ terminalIds))
    running := state.running.filter (fun id => decide (id ∉ terminalIds)) }

/-- The first section of a turn of `pump_queue`; none ends the pump. -/
def takeNext (maxConcurrent : Nat) (finished : List Text) (state : RunnerState) :
    RunnerState × Option (Text × Nat) :=
  let state :=
    { state with running := state.running.filter (fun id => decide (id ∉ finished)) }
  if maxConcurrent ≤ state.running.length + state.starting then (state, none)
  else match state.queued with
    | [] => (state, none)
    | id :: rest =>
      ({ state with queued := rest, starting := state.starting + 1 },
        some (id, state.abandonGeneration))

def giveBack : RunnerState := { state with starting := state.starting - 1 }

def register (id : Text) : RunnerState :=
  { state with running := if id ∈ state.running then state.running else state.running ++ [id] }

end RunnerState

/-- Who holds the pump lock, and how far it has come. -/
inductive Holder
  | free
  | pumping
  -- `store.start` is under way for the id that was popped
  | starting (id : Text) (generation : Nat)
  | started (id : Text) (generation : Nat)
  | refused (id : Text)
  | broken (id : Text)
  | marking (id : Text)
  | undoing (id : Text)
  | abandoning (session : Text) (known : List Text)
  | abandonLoop (session : Text) (seen rest : List Text) (failed : Bool)
  | pruning (rest found : List Text)

def Holder.hand : Holder → List Text
  | .starting id _ | .started id _ | .refused id | .broken id | .marking id | .undoing id => [id]
  | _ => []

/-- What the holder has added to `starting`. -/
def Holder.counted : Holder → Nat
  | .starting _ _ | .started _ _ | .refused _ | .broken _ => 1
  | _ => 0

structure RunnerWorld where
  statuses : Text → Option DelegationStatus
  parent : Text → Text
  created : List Text
  /-- Creations between their metadata and their registration. -/
  unregistered : List Text
  state : RunnerState
  holder : Holder
  /-- Calls of `pump_queue` that wait for the lock. -/
  pumps : Nat
  pushed : List Text
  spawned : List Text
  /-- Tasks that have not yet removed their handle, and tasks that are finished. -/
  tasks : List Text
  ended : List Text

namespace RunnerWorld

def initial : RunnerWorld where
  statuses := fun _ => none
  parent := fun _ => []
  created := []
  unregistered := []
  state := RunnerState.initial
  holder := .free
  pumps := 0
  pushed := []
  spawned := []
  tasks := []
  ended := []

variable (world : RunnerWorld)

def terminal (id : Text) : Prop :=
  ∃ status, world.statuses id = some status ∧ status.isTerminal = true

instance (world : RunnerWorld) (id : Text) : Decidable (world.terminal id) :=
  decidable_of_iff ((world.statuses id).any DelegationStatus.isTerminal = true) (by
    unfold terminal
    cases world.statuses id <;> simp)

def setStatus (id : Text) (status : DelegationStatus) : RunnerWorld :=
  { world with statuses := update world.statuses id (some status) }

def belongs (expectedSessionId : Option Text) (session id : Text) : Prop :=
  world.parent id = session ∨ expectedSessionId = some session

instance (world : RunnerWorld) (expectedSessionId : Option Text) (session id : Text) :
    Decidable (world.belongs expectedSessionId session id) :=
  inferInstanceAs (Decidable (_ ∨ _))

end RunnerWorld

inductive RunnerLabel
  | create (id parent : Text)
  | register (id : Text)
  | withdraw (id : Text) (write : StoreWrite)
  | pumpLock
  | pumpTake (finished : List Text)
  | pumpStart
  | pumpStartFails (written : Bool)
  | pumpSpawn
  | pumpGiveBack
  | pumpMark (write : StoreWrite)
  | pumpUndo (write : StoreWrite)
  | taskWrite (id : Text) (target : DelegationStatus) (write : StoreWrite)
  | taskRemove (id : Text)
  | taskEnd (id : Text)
  | abandonLock (session : Text)
  | abandonList (seen unreadable : List Text)
  | abandonListFails
  | abandonOne (write : StoreWrite)
  | abandonClear
  | abandonIncomplete
  | pruneLook (readable : Bool)
  | pruneRetain

section

variable (maxConcurrent : Nat) (expectedSessionId : Option Text)

/-- One step of some task of the runner. -/
inductive RunnerStep (world : RunnerWorld) : RunnerLabel → RunnerWorld → Prop
  -- `create_until_registered`: `store.create` in a fresh directory of the right session
  | create {id parent : Text} : id ∉ world.created →
      expectedSessionId = none ∨ expectedSessionId = some parent →
      RunnerStep world (.create id parent)
        { world.setStatus id .queued with
          parent := update world.parent id parent
          created := world.created ++ [id]
          unregistered := world.unregistered ++ [id] }
  | register {id : Text} : id ∈ world.unregistered →
      RunnerStep world (.register id)
        { world with
          unregistered := world.unregistered.erase id
          state := { world.state with queued := world.state.queued ++ [id] }
          pushed := world.pushed ++ [id]
          pumps := world.pumps + 1 }
  -- the token was cancelled before the push
  | withdraw {id : Text} {status : DelegationStatus} (write : StoreWrite) :
      id ∈ world.unregistered → world.statuses id = some status →
      RunnerStep world (.withdraw id write)
        { world.setStatus id (write.status status (abandonStatus status)) with
          unregistered := world.unregistered.erase id }
  | pumpLock {pumps : Nat} : world.holder = .free → world.pumps = pumps + 1 →
      RunnerStep world .pumpLock { world with holder := .pumping, pumps := pumps }
  | pumpEnds {state : RunnerState} (finished : List Text) : world.holder = .pumping →
      (∀ id ∈ finished, id ∈ world.ended) →
      world.state.takeNext maxConcurrent finished = (state, none) →
      RunnerStep world (.pumpTake finished) { world with state := state, holder := .free }
  | pumpTakes {state : RunnerState} {id : Text} {generation : Nat} (finished : List Text) :
      world.holder = .pumping → (∀ id ∈ finished, id ∈ world.ended) →
      world.state.takeNext maxConcurrent finished = (state, some (id, generation)) →
      RunnerStep world (.pumpTake finished)
        { world with state := state, holder := .starting id generation }
  | pumpStarts {id : Text} {generation : Nat} {status : DelegationStatus} :
      world.holder = .starting id generation → world.statuses id = some status →
      status.isTerminal = false →
      RunnerStep world .pumpStart
        { world.setStatus id .running with holder := .started id generation }
  -- `CannotTransition`
  | pumpRefused {id : Text} {generation : Nat} : world.holder = .starting id generation →
      world.terminal id →
      RunnerStep world .pumpStart { world with holder := .refused id }
  | pumpBreaks {id : Text} {generation : Nat} {status : DelegationStatus} (written : Bool) :
      world.holder = .starting id generation → world.statuses id = some status →
      (written = true → status.isTerminal = false) →
      RunnerStep world (.pumpStartFails written)
        { world.setStatus id ((StoreWrite.failed written).status status .running) with
          holder := .broken id }
  | pumpSpawns {id : Text} {generation : Nat} : world.holder = .started id generation →
      world.state.abandonGeneration = generation →
      RunnerStep world .pumpSpawn
        { world with
          state := world.state.giveBack.register id
          holder := .pumping
          spawned := world.spawned ++ [id]
          tasks := world.tasks ++ [id] }
  | pumpOutdated {id : Text} {generation : Nat} : world.holder = .started id generation →
      world.state.abandonGeneration ≠ generation →
      RunnerStep world .pumpSpawn
        { world with state := world.state.giveBack, holder := .undoing id }
  | pumpUndo {id : Text} {status : DelegationStatus} (write : StoreWrite) :
      world.holder = .undoing id → world.statuses id = some status →
      RunnerStep world (.pumpUndo write)
        { world.setStatus id (write.status status (abandonStatus status)) with holder := .pumping }
  | pumpSkips {id : Text} : world.holder = .refused id →
      RunnerStep world .pumpGiveBack
        { world with state := world.state.giveBack, holder := .pumping }
  | pumpGivesBack {id : Text} : world.holder = .broken id →
      RunnerStep world .pumpGiveBack
        { world with state := world.state.giveBack, holder := .marking id }
  | pumpMark {id : Text} {status : DelegationStatus} (write : StoreWrite) :
      world.holder = .marking id → world.statuses id = some status →
      RunnerStep world (.pumpMark write)
        { world.setStatus id (write.status status (completeStatus status .failed)) with
          holder := .pumping }
  | taskWrite {id : Text} {status target : DelegationStatus} (write : StoreWrite) :
      id ∈ world.tasks → world.statuses id = some status → target.isTerminal = true →
      RunnerStep world (.taskWrite id target write)
        (world.setStatus id (write.status status (completeStatus status target)))
  | taskRemove {id : Text} : id ∈ world.tasks →
      RunnerStep world (.taskRemove id)
        { world with
          state := { world.state with running := world.state.running.erase id }
          tasks := world.tasks.erase id
          pumps := world.pumps + 1 }
  | taskEnd {id : Text} : id ∈ world.spawned →
      RunnerStep world (.taskEnd id)
        { world with tasks := world.tasks.erase id, ended := world.ended ++ [id] }
  | abandonLock (session : Text) : world.holder = .free →
      RunnerStep world (.abandonLock session)
        { world with holder := .abandoning session world.created }
  -- the listing has everything that was there when it began
  | abandonList {session : Text} {known : List Text} (seen unreadable : List Text) :
      world.holder = .abandoning session known →
      (∀ id ∈ known, id ∈ seen ∨ id ∈ unreadable) → (∀ id ∈ seen, id ∈ world.created) →
      RunnerStep world (.abandonList seen unreadable)
        { world with
          holder := .abandonLoop session seen
            (seen.filter fun id => decide (world.belongs expectedSessionId session id ∧
              ¬ world.terminal id))
            (decide (unreadable ≠ [])) }
  | abandonListFails {session : Text} {known : List Text} :
      world.holder = .abandoning session known →
      RunnerStep world .abandonListFails
        { world with holder := .pruning (world.state.running ++ world.state.queued) [] }
  | abandonOne {session id : Text} {seen rest : List Text} {failed : Bool}
      {status : DelegationStatus} (write : StoreWrite) :
      world.holder = .abandonLoop session seen (id :: rest) failed →
      world.statuses id = some status →
      RunnerStep world (.abandonOne write)
        { world.setStatus id (write.status status (abandonStatus status)) with
          holder := .abandonLoop session seen rest (failed || decide (write ≠ .done)) }
  | abandonClear {session : Text} {seen : List Text} :
      world.holder = .abandonLoop session seen [] false →
      RunnerStep world .abandonClear
        { world with state := world.state.abortAllInMemory, holder := .free }
  | abandonIncomplete {session : Text} {seen : List Text} :
      world.holder = .abandonLoop session seen [] true →
      RunnerStep world .abandonIncomplete
        { world with holder := .pruning (world.state.running ++ world.state.queued) [] }
  | pruneLook {id : Text} {rest found : List Text} (readable : Bool) :
      world.holder = .pruning (id :: rest) found →
      RunnerStep world (.pruneLook readable)
        { world with
          holder := .pruning rest
            (if readable = true ∧ world.terminal id then found ++ [id] else found) }
  | pruneRetain {found : List Text} : world.holder = .pruning [] found →
      RunnerStep world .pruneRetain
        { world with state := world.state.pruneTerminal found, holder := .free }

def Careful (world : RunnerWorld) : RunnerLabel → Prop
  | .abandonClear => ∀ session seen rest failed,
      world.holder = .abandonLoop session seen rest failed →
      ∀ id ∈ world.state.queued, id ∈ seen ∧ world.belongs expectedSessionId session id
  | .pumpMark write => write ≠ .failed false
  | _ => True

def CarefulStep (world : RunnerWorld) (label : RunnerLabel) (next : RunnerWorld) : Prop :=
  RunnerStep maxConcurrent expectedSessionId world label next ∧
    Careful expectedSessionId world label

end

def Holder.outdated (generation : Nat) : Holder → Prop
  | .starting _ taken | .started _ taken => taken ≠ generation
  | .undoing _ => True
  | _ => False

/-- The books of the runner: the places are counted, and every id is in one place. -/
structure Booked (maxConcurrent : Nat) (state : RunnerState) (holder : Holder)
    (created unregistered pushed spawned : List Text) : Prop where
  capacity : state.running.length + state.starting ≤ maxConcurrent
  counted : state.starting = holder.counted
  distinct : (state.queued ++ holder.hand ++ spawned).Nodup
  placed : ∀ id ∈ state.queued ++ holder.hand ++ spawned, id ∈ pushed
  known : ∀ id ∈ pushed, id ∈ created
  fresh : ∀ id ∈ unregistered, id ∉ pushed ∧ id ∈ created
  once : unregistered.Nodup
  current : ¬ holder.outdated state.abandonGeneration

namespace RunnerState

variable {maxConcurrent : Nat} {state next : RunnerState}

theorem takeNext_none (ends : state.takeNext maxConcurrent finished = (next, none)) :
    next.queued = state.queued ∧ next.starting = state.starting ∧
      next.running.length ≤ state.running.length ∧
      next.abandonGeneration = state.abandonGeneration := by
  have fewer := length_filter_le (fun id => decide (id ∉ finished)) state.running
  unfold takeNext at ends
  dsimp only at ends
  split_ifs at ends with full
  · obtain ⟨rfl, _⟩ := Prod.mk.inj ends
    exact ⟨rfl, rfl, fewer, rfl⟩
  · split at ends
    · obtain ⟨rfl, _⟩ := Prod.mk.inj ends
      exact ⟨rfl, rfl, fewer, rfl⟩
    · cases ends

theorem takeNext_some {id : Text}
    (takes : state.takeNext maxConcurrent finished = (next, some (id, generation))) :
    state.queued = id :: next.queued ∧ next.starting = state.starting + 1 ∧
      next.running.length + next.starting ≤ maxConcurrent ∧
      next.abandonGeneration = state.abandonGeneration ∧
      generation = state.abandonGeneration := by
  unfold takeNext at takes
  dsimp only at takes
  split_ifs at takes with full
  · cases takes
  · split at takes
    · cases takes
    · rename_i first rest waiting
      cases takes
      refine ⟨waiting, rfl, ?_, rfl, rfl⟩
      simp only at full ⊢
      omega

theorem register_length (state : RunnerState) (id : Text) :
    (state.register id).running.length ≤ state.running.length + 1 := by
  unfold register
  dsimp only
  split_ifs
  · omega
  · rw [length_append, length_singleton]

end RunnerState

namespace Booked

variable {maxConcurrent : Nat} {state : RunnerState} {holder : Holder}
  {created unregistered pushed spawned : List Text}

variable (booked : Booked maxConcurrent state holder created unregistered pushed spawned)

include booked

theorem hold
    {next : Holder} (counted : next.counted = holder.counted) (hand : next.hand = holder.hand)
    (current : ¬ next.outdated state.abandonGeneration) :
    Booked maxConcurrent state next created unregistered pushed spawned where
  capacity := booked.capacity
  counted := booked.counted.trans counted.symm
  distinct := by
    rw [hand]
    exact booked.distinct
  placed := by
    rw [hand]
    exact booked.placed
  known := booked.known
  fresh := booked.fresh
  once := booked.once
  current := current

theorem shrink {after : RunnerState} {next : Holder} (queued : after.queued.Sublist state.queued)
    (running : after.running.length ≤ state.running.length) (starting : after.starting ≤ state.starting)
    (counted : after.starting = next.counted) (hand : next.hand.Sublist holder.hand)
    (current : ¬ next.outdated after.abandonGeneration) :
    Booked maxConcurrent after next created unregistered pushed spawned where
  capacity := by
    have before := booked.capacity
    omega
  counted := counted
  distinct := ((queued.append hand).append (List.Sublist.refl spawned)).nodup booked.distinct
  placed := fun id member =>
    booked.placed id (((queued.append hand).append (List.Sublist.refl spawned)).subset member)
  known := booked.known
  fresh := booked.fresh
  once := booked.once
  current := current

omit booked

variable {id : Text}

theorem create (booked : Booked maxConcurrent state holder created unregistered pushed spawned)
    (new : id ∉ created) :
    Booked maxConcurrent state holder (created ++ [id]) (unregistered ++ [id]) pushed spawned where
  capacity := booked.capacity
  counted := booked.counted
  distinct := booked.distinct
  placed := booked.placed
  known := fun other member => mem_append_left _ (booked.known other member)
  fresh := by
    intro other member
    rcases mem_concat member with old | latest
    · obtain ⟨unpushed, before⟩ := booked.fresh other old
      exact ⟨unpushed, mem_append_left _ before⟩
    · rw [latest]
      exact ⟨fun member => new (booked.known id member), by simp⟩
  once := by
    rw [nodup_append]
    refine ⟨booked.once, by simp, ?_⟩
    intro other member last isLast same
    rw [same, mem_singleton.mp isLast] at member
    exact new (booked.fresh id member).2
  current := booked.current

include booked in
theorem withdraw : Booked maxConcurrent state holder created (unregistered.erase id) pushed spawned where
  capacity := booked.capacity
  counted := booked.counted
  distinct := booked.distinct
  placed := booked.placed
  known := booked.known
  fresh := fun other member => booked.fresh other (mem_of_mem_erase member)
  once := booked.once.erase id
  current := booked.current

theorem register (booked : Booked maxConcurrent state holder created unregistered pushed spawned)
    (waiting : id ∈ unregistered) :
    Booked maxConcurrent { state with queued := state.queued ++ [id] } holder created
      (unregistered.erase id) (pushed ++ [id]) spawned where
  capacity := booked.capacity
  counted := booked.counted
  distinct := by
    have absent : id ∉ state.queued ++ holder.hand ++ spawned :=
      fun member => (booked.fresh id waiting).1 (booked.placed id member)
    have moved : (state.queued ++ [id] ++ holder.hand ++ spawned).Perm
        (id :: (state.queued ++ holder.hand ++ spawned)) := by
      simp only [append_assoc, cons_append, nil_append]
      exact perm_middle
    exact moved.nodup_iff.mpr (nodup_cons.mpr ⟨absent, booked.distinct⟩)
  placed := by
    intro other member
    simp only [append_assoc, mem_append, mem_singleton] at member
    rw [mem_append]
    rcases member with old | rfl | held | gone
    · exact .inl (booked.placed other (by simp [old]))
    · exact .inr (by simp)
    · exact .inl (booked.placed other (by simp [held]))
    · exact .inl (booked.placed other (by simp [gone]))
  known := by
    intro other member
    rcases mem_concat member with old | latest
    · exact booked.known other old
    · rw [latest]
      exact (booked.fresh id waiting).2
  fresh := by
    intro other member
    obtain ⟨unpushed, before⟩ := booked.fresh other (mem_of_mem_erase member)
    refine ⟨?_, before⟩
    intro now
    rcases mem_concat now with old | rfl
    · exact unpushed old
    · exact booked.once.not_mem_erase member
  once := booked.once.erase id
  current := booked.current

include booked

theorem take {next : RunnerState} (empty : holder.hand = []) (uncounted : holder.counted = 0)
    (takes : state.takeNext maxConcurrent finished = (next, some (id, generation))) :
    Booked maxConcurrent next (.starting id generation) created unregistered pushed spawned := by
  obtain ⟨queued, starting, room, sameGeneration, taken⟩ := RunnerState.takeNext_some takes
  have moved : (next.queued ++ [id] ++ spawned).Perm (state.queued ++ holder.hand ++ spawned) := by
    rw [queued, empty, append_nil]
    exact (perm_append_singleton id next.queued).append_right spawned
  exact
    { capacity := room
      counted := by
        rw [starting, booked.counted, uncounted]
        rfl
      distinct := moved.nodup_iff.mpr booked.distinct
      placed := fun other member => booked.placed other (moved.subset member)
      known := booked.known
      fresh := booked.fresh
      once := booked.once
      current := by
        rw [Holder.outdated, sameGeneration, taken]
        simp }

theorem spawn (held : holder.hand = [id]) (counted : holder.counted = 1) :
    Booked maxConcurrent (state.giveBack.register id) .pumping created unregistered pushed
      (spawned ++ [id]) where
  capacity := by
    have before := booked.capacity
    have one := booked.counted
    have length := state.giveBack.register_length id
    have starting : (state.giveBack.register id).starting = state.starting - 1 := rfl
    have running : state.giveBack.running = state.running := rfl
    rw [running] at length
    omega
  counted := by
    have one := booked.counted
    have starting : (state.giveBack.register id).starting = state.starting - 1 := rfl
    rw [starting, one, counted]
    rfl
  distinct := by
    have before := booked.distinct
    rw [held, append_assoc] at before
    have moved : (state.queued ++ (spawned ++ [id])).Perm (state.queued ++ ([id] ++ spawned)) :=
      List.Perm.append_left _ (perm_append_singleton id spawned)
    have none : Holder.pumping.hand = [] := rfl
    rw [none, append_nil]
    exact moved.nodup_iff.mpr before
  placed := by
    intro other member
    have none : Holder.pumping.hand = [] := rfl
    have queued : (state.giveBack.register id).queued = state.queued := rfl
    rw [none, append_nil, queued, mem_append, mem_append,
      mem_singleton] at member
    apply booked.placed other
    rw [held, mem_append, mem_append, mem_singleton]
    tauto
  known := booked.known
  fresh := booked.fresh
  once := booked.once
  current := fun outdated => outdated

omit booked

end Booked

section

variable {maxConcurrent : Nat} {expectedSessionId : Option Text} {world next : RunnerWorld}

def RunnerWorld.Booked (maxConcurrent : Nat) (world : RunnerWorld) : Prop :=
  Delegation.Booked maxConcurrent world.state world.holder world.created world.unregistered
    world.pushed world.spawned

theorem initial_booked : RunnerWorld.initial.Booked maxConcurrent where
  capacity := Nat.zero_le _
  counted := rfl
  distinct := nodup_nil
  placed := by simp [RunnerWorld.initial, RunnerState.initial, Holder.hand]
  known := by simp [RunnerWorld.initial]
  fresh := by simp [RunnerWorld.initial]
  once := nodup_nil
  current := fun outdated => outdated

theorem step_booked (taken : RunnerStep maxConcurrent expectedSessionId world label next)
    (booked : world.Booked maxConcurrent) : next.Booked maxConcurrent := by
  have counted := Delegation.Booked.counted booked
  have current := Delegation.Booked.current booked
  cases taken with
  | create new _ => exact Booked.create booked new
  | register waiting => exact Booked.register booked waiting
  | withdraw _ _ _ => exact Booked.withdraw booked
  | pumpLock held _ => exact Booked.hold booked (by rw [held]; rfl) (by rw [held]; rfl) id
  | pumpEnds _ held _ ends =>
    obtain ⟨queued, starting, running, _⟩ := RunnerState.takeNext_none ends
    rw [held] at counted
    exact Booked.shrink booked (by rw [queued]) running starting.le
      (starting.trans counted) (nil_sublist _) id
  | pumpTakes _ held _ takes =>
    exact Booked.take booked (by rw [held]; rfl) (by rw [held]; rfl) takes
  | pumpStarts held _ _ =>
    rw [held] at current
    exact Booked.hold booked (by rw [held]; rfl) (by rw [held]; rfl) current
  | pumpRefused held _ | pumpBreaks _ held _ _ =>
    exact Booked.hold booked (by rw [held]; rfl) (by rw [held]; rfl) id
  | pumpSpawns held _ => exact Booked.spawn booked (by rw [held]; rfl) (by rw [held]; rfl)
  | pumpOutdated held outdated =>
    rw [held] at current
    exact (current (Ne.symm outdated)).elim
  | pumpUndo _ held _ =>
    rw [held] at current
    exact (current trivial).elim
  | pumpSkips held =>
    rw [held] at counted
    exact Booked.shrink booked (List.Sublist.refl _) (Nat.le_refl _) (Nat.sub_le _ _)
      (by rw [RunnerState.giveBack, counted]; rfl) (nil_sublist _) id
  | pumpGivesBack held =>
    rw [held] at counted
    exact Booked.shrink booked (List.Sublist.refl _) (Nat.le_refl _) (Nat.sub_le _ _)
      (by rw [RunnerState.giveBack, counted]; rfl) (by rw [held]; exact List.Sublist.refl _) id
  | pumpMark _ held _ =>
    rw [held] at counted
    exact Booked.shrink booked (List.Sublist.refl _) (Nat.le_refl _) (Nat.le_refl _) counted
      (nil_sublist _) id
  | taskWrite _ _ _ _ | taskEnd _ => exact booked
  | taskRemove _ =>
    exact Booked.shrink booked (List.Sublist.refl _) length_erase_le (Nat.le_refl _)
      counted (List.Sublist.refl _) current
  | abandonLock _ held => exact Booked.hold booked (by rw [held]; rfl) (by rw [held]; rfl) id
  | abandonList _ _ held _ _ =>
    exact Booked.hold booked (by rw [held]; rfl) (by rw [held]; rfl) id
  | abandonListFails held | abandonOne _ held _ =>
    exact Booked.hold booked (by rw [held]; rfl) (by rw [held]; rfl) id
  | abandonClear held =>
    exact Booked.shrink booked (nil_sublist _) (Nat.zero_le _) (Nat.zero_le _) rfl
      (nil_sublist _) id
  | abandonIncomplete held | pruneLook _ held =>
    exact Booked.hold booked (by rw [held]; rfl) (by rw [held]; rfl) id
  | pruneRetain held =>
    rw [held] at counted
    exact Booked.shrink booked filter_sublist (length_filter_le _ _) (Nat.le_refl _)
      counted (nil_sublist _) id

def RunnerWorld.inSight (world : RunnerWorld) (id : Text) : Prop :=
  id ∈ world.state.queued ∨ id ∈ world.holder.hand ∨ id ∈ world.spawned ∨ world.terminal id

def RunnerWorld.facts (expectedSessionId : Option Text) (world : RunnerWorld) : Prop :=
  match world.holder with
  | .refused id => world.terminal id
  | .abandonLoop session seen rest failed =>
    (∀ id ∈ seen, id ∈ world.created) ∧
    (failed = false → ∀ id ∈ seen, world.belongs expectedSessionId session id →
      id ∈ rest ∨ world.terminal id)
  | .pruning _ found => ∀ id ∈ found, world.terminal id
  | _ => True

structure Accounted (expectedSessionId : Option Text) (world : RunnerWorld) : Prop where
  unknown : ∀ id, id ∉ world.created → world.statuses id = none
  facts : world.facts expectedSessionId
  inSight : ∀ id ∈ world.pushed, world.inSight id

variable {status : DelegationStatus}

theorem abandonStatus_terminal {write : StoreWrite} (ended : status.isTerminal = true) :
    (write.status status (abandonStatus status)).isTerminal = true := by
  have same : abandonStatus status = status := if_pos ended
  rw [same]
  cases write with
  | done => exact ended
  | failed written => cases written <;> exact ended

theorem completeStatus_terminal (write : StoreWrite) (target : DelegationStatus)
    (ended : status.isTerminal = true) :
    (write.status status (completeStatus status target)).isTerminal = true := by
  have same : completeStatus status target = status := if_pos ended
  rw [same]
  cases write with
  | done => exact ended
  | failed written => cases written <;> exact ended

theorem setStatus_terminal {target id : Text} {before after : DelegationStatus}
    (here : world.statuses target = some before)
    (kept : before.isTerminal = true → after.isTerminal = true) (ended : world.terminal id) :
    (world.setStatus target after).terminal id := by
  obtain ⟨status, found, isTerminal⟩ := ended
  by_cases same : id = target
  · subst same
    rw [here, Option.some.injEq] at found
    subst found
    exact ⟨after, update_self _ _ _, kept isTerminal⟩
  · exact ⟨status, (update_of_ne same _ _).trans found, isTerminal⟩

theorem step_keeps (taken : RunnerStep maxConcurrent expectedSessionId world label next)
    (unknown : ∀ id, id ∉ world.created → world.statuses id = none) {id : Text}
    (ended : world.terminal id) : next.terminal id := by
  cases taken with
  | @create target parent new _ =>
    obtain ⟨status, found, isTerminal⟩ := ended
    have elsewhere : id ≠ target := by
      rintro rfl
      rw [unknown id new] at found
      cases found
    exact ⟨status, (update_of_ne elsewhere _ _).trans found, isTerminal⟩
  | withdraw write _ here =>
    exact setStatus_terminal here abandonStatus_terminal ended
  | pumpStarts _ here live =>
    exact setStatus_terminal here (fun impossible => by rw [live] at impossible; cases impossible)
      ended
  | pumpBreaks written _ here live =>
    refine setStatus_terminal here (fun isTerminal => ?_) ended
    cases written with
    | false => exact isTerminal
    | true =>
      rw [live rfl] at isTerminal
      cases isTerminal
  | pumpUndo write _ here | abandonOne write _ here =>
    exact setStatus_terminal here abandonStatus_terminal ended
  | pumpMark write _ here =>
    exact setStatus_terminal here (completeStatus_terminal write .failed) ended
  | taskWrite write _ here _ =>
    exact setStatus_terminal here (completeStatus_terminal write _) ended
  | _ => exact ended

theorem facts_kept (facts : world.facts expectedSessionId) (same : next.holder = world.holder)
    (keeps : ∀ id, world.terminal id → next.terminal id)
    (grown : ∀ id ∈ world.created, id ∈ next.created ∧ next.parent id = world.parent id) :
    next.facts expectedSessionId := by
  unfold RunnerWorld.facts at facts ⊢
  rw [same]
  split at facts
  · exact keeps _ facts
  · obtain ⟨listed, reached⟩ := facts
    refine ⟨fun id member => (grown id (listed id member)).1, ?_⟩
    intro clean id member mine
    rw [RunnerWorld.belongs, (grown id (listed id member)).2] at mine
    rcases reached clean id member mine with waiting | ended
    · exact .inl waiting
    · exact .inr (keeps id ended)
  · intro id member
    exact keeps id (facts id member)
  · trivial

theorem inSight_kept {id : Text} (seen : world.inSight id)
    (keeps : ∀ id, world.terminal id → next.terminal id)
    (queued : ∀ id ∈ world.state.queued, next.inSight id)
    (hand : ∀ id ∈ world.holder.hand, next.inSight id)
    (spawned : ∀ id ∈ world.spawned, id ∈ next.spawned) : next.inSight id := by
  rcases seen with waiting | held | running | ended
  · exact queued id waiting
  · exact hand id held
  · exact .inr (.inr (.inl (spawned id running)))
  · exact .inr (.inr (.inr (keeps id ended)))

theorem setStatus_unknown (unknown : ∀ id, id ∉ world.created → world.statuses id = none)
    (here : world.statuses target = some before) {after : DelegationStatus} :
    ∀ id, id ∉ world.created → (world.setStatus target after).statuses id = none := by
  intro id absent
  have elsewhere : id ≠ target := by
    rintro rfl
    rw [unknown id absent] at here
    cases here
  exact (update_of_ne elsewhere _ _).trans (unknown id absent)

section

variable (taken : RunnerStep maxConcurrent expectedSessionId world label next)
include taken

theorem step_unknown (unknown : ∀ id, id ∉ world.created → world.statuses id = none) :
    ∀ id, id ∉ next.created → next.statuses id = none := by
  cases taken with
  | @create target parent _ _ =>
    intro id absent
    have elsewhere : id ≠ target := fun same => absent (by simp [same])
    exact (update_of_ne elsewhere _ _).trans
      (unknown id fun member => absent (mem_append_left _ member))
  | withdraw _ _ here | pumpStarts _ here _ | pumpBreaks _ _ here _ | pumpUndo _ _ here
  | pumpMark _ _ here | taskWrite _ _ here _ | abandonOne _ _ here =>
    exact setStatus_unknown unknown here
  | _ => exact unknown

theorem step_facts
    (accounted : Accounted expectedSessionId world) : next.facts expectedSessionId := by
  have keeps : ∀ id, world.terminal id → next.terminal id :=
    fun id => step_keeps taken accounted.unknown
  have facts := accounted.facts
  cases taken with
  | @create target parent new _ =>
    refine facts_kept facts rfl keeps ?_
    intro id member
    have elsewhere : id ≠ target := fun same => new (same ▸ member)
    exact ⟨mem_append_left _ member, update_of_ne elsewhere _ _⟩
  | register _ | withdraw _ _ _ | taskWrite _ _ _ _ | taskRemove _ | taskEnd _ =>
    exact facts_kept facts rfl keeps fun id member => ⟨member, rfl⟩
  | pumpRefused _ ended => exact ended
  | abandonList seen unreadable held _ listed =>
    refine ⟨listed, ?_⟩
    intro _ id member mine
    by_cases ended : world.terminal id
    · exact .inr ended
    · exact .inl (mem_filter.mpr ⟨member, decide_eq_true ⟨mine, ended⟩⟩)
  | abandonListFails _ | abandonIncomplete _ => exact fun id member => absurd member not_mem_nil
  | @abandonOne session target seen rest failed status write held here =>
    rw [RunnerWorld.facts, held] at facts
    obtain ⟨listed, reached⟩ := facts
    refine ⟨listed, ?_⟩
    intro clean id member mine
    simp only [ne_eq, decide_not, Bool.or_eq_false_iff, Bool.not_eq_eq_eq_not, Bool.not_false,
      decide_eq_true_eq] at clean
    obtain ⟨soFar, rfl⟩ := clean
    rcases reached soFar id member mine with waiting | ended
    · rcases mem_cons.mp waiting with rfl | later
      · right
        refine ⟨abandonStatus status, update_self _ _ _, ?_⟩
        unfold abandonStatus
        split_ifs with already
        · exact already
        · rfl
      · exact .inl later
    · exact .inr (keeps id ended)
  | @pruneLook target rest found readable held =>
    rw [RunnerWorld.facts, held] at facts
    intro id member
    split_ifs at member with ended
    · rcases mem_concat member with old | rfl
      · exact facts id old
      · exact ended.2
    · exact facts id member
  | _ => trivial

theorem step_inSight
    (careful : Careful expectedSessionId world label) (booked : world.Booked maxConcurrent)
    (accounted : Accounted expectedSessionId world) : ∀ id ∈ next.pushed, next.inSight id := by
  have keeps : ∀ id, world.terminal id → next.terminal id :=
    fun id => step_keeps taken accounted.unknown
  have facts := accounted.facts
  have current := Delegation.Booked.current booked
  have seen := accounted.inSight
  have ends : ∀ {id}, next.terminal id → next.inSight id := fun ended =>
    Or.inr (.inr (.inr ended))
  -- a step that leaves the queue alone and whose holder keeps or spawns what it has in hand
  have quiet : next.pushed = world.pushed → next.state.queued = world.state.queued →
      next.spawned = world.spawned → (∀ id ∈ world.holder.hand, next.inSight id) →
      ∀ id ∈ next.pushed, next.inSight id := by
    intro pushed queued spawned hand id member
    rw [pushed] at member
    refine inSight_kept (seen id member) keeps ?_ hand ?_
    · intro other waiting
      exact .inl (by rwa [queued])
    · intro other running
      rwa [spawned]
  cases taken with
  | create _ _ | withdraw _ _ _ => exact quiet rfl rfl rfl fun id held => .inr (.inl held)
  | @register target _ =>
    intro id member
    rcases mem_append.mp member with old | latest
    · refine inSight_kept (seen id old) keeps ?_ ?_ ?_
      · exact fun other waiting => .inl (mem_append_left _ waiting)
      · exact fun other held => .inr (.inl held)
      · exact fun other running => running
    · exact .inl (mem_append_right _ latest)
  | pumpLock held _ =>
    refine quiet rfl rfl rfl ?_
    rw [held]
    exact fun id member => absurd member not_mem_nil
  | pumpEnds _ held _ none =>
    refine quiet rfl (RunnerState.takeNext_none none).1 rfl ?_
    rw [held]
    exact fun id member => absurd member not_mem_nil
  | @pumpTakes state target generation _ held _ takes =>
    have queued := (RunnerState.takeNext_some takes).1
    intro id member
    refine inSight_kept (seen id member) keeps ?_ ?_ ?_
    · intro other waiting
      rw [queued] at waiting
      rcases mem_cons.mp waiting with rfl | later
      · exact .inr (.inl (mem_singleton.mpr rfl))
      · exact .inl later
    · rw [held]
      exact fun other member => absurd member not_mem_nil
    · exact fun other running => running
  | pumpStarts held _ _ | pumpRefused held _ | pumpBreaks _ held _ _ =>
    refine quiet rfl rfl rfl ?_
    rw [held]
    exact fun id member => .inr (.inl member)
  | pumpSpawns held _ =>
    intro id member
    refine inSight_kept (seen id member) keeps ?_ ?_ ?_
    · exact fun other waiting => .inl waiting
    · rw [held]
      exact fun other member => .inr (.inr (.inl (mem_append_right _ member)))
    · exact fun other running => mem_append_left _ running
  | pumpOutdated held outdated =>
    rw [held] at current
    exact (current (Ne.symm outdated)).elim
  | pumpUndo _ held _ =>
    rw [held] at current
    exact (current trivial).elim
  | @pumpSkips target held =>
    rw [RunnerWorld.facts, held] at facts
    refine quiet rfl rfl rfl ?_
    rw [held]
    intro id member
    rw [mem_singleton.mp member]
    exact ends (keeps target facts)
  | pumpGivesBack held =>
    refine quiet rfl rfl rfl ?_
    rw [held]
    exact fun id member => .inr (.inl member)
  | @pumpMark target status write held here =>
    refine quiet rfl rfl rfl ?_
    rw [held]
    intro id member
    rw [mem_singleton.mp member]
    refine ends ⟨completeStatus status .failed, ?_, ?_⟩
    · have written : write.status status (completeStatus status .failed) =
          completeStatus status .failed := by
        cases write with
        | done => rfl
        | failed written =>
          cases written with
          | true => rfl
          | false => exact (careful rfl).elim
      rw [written]
      exact update_self _ _ _
    · unfold completeStatus
      split_ifs with ended legal
      · exact ended
      · rfl
      · exact (legal (.inr (by decide))).elim
  | taskWrite _ _ _ _ | taskRemove _ | taskEnd _ =>
    exact quiet rfl rfl rfl fun id held => .inr (.inl held)
  | abandonLock _ held | abandonList _ _ held _ _ | abandonListFails held | abandonOne _ held _
  | abandonIncomplete held | pruneLook _ held =>
    refine quiet rfl rfl rfl ?_
    rw [held]
    exact fun id member => absurd member not_mem_nil
  | @abandonClear session listed held =>
    rw [RunnerWorld.facts, held] at facts
    intro id member
    refine inSight_kept (seen id member) keeps ?_ ?_ ?_
    · intro other waiting
      obtain ⟨inListing, mine⟩ := careful session listed [] false held other waiting
      rcases facts.2 rfl other inListing mine with left | ended
      · cases left
      · exact ends (keeps other ended)
    · rw [held]
      exact fun other member => absurd member not_mem_nil
    · exact fun other running => running
  | @pruneRetain found held =>
    rw [RunnerWorld.facts, held] at facts
    intro id member
    refine inSight_kept (seen id member) keeps ?_ ?_ ?_
    · intro other waiting
      by_cases ended : other ∈ found
      · exact ends (keeps other (facts other ended))
      · exact .inl (mem_filter.mpr ⟨waiting, decide_eq_true ended⟩)
    · rw [held]
      exact fun other member => absurd member not_mem_nil
    · exact fun other running => running

end

theorem initial_accounted : Accounted expectedSessionId RunnerWorld.initial where
  unknown := fun _ _ => rfl
  facts := trivial
  inSight := by simp [RunnerWorld.initial]

theorem step_accounted (taken : CarefulStep maxConcurrent expectedSessionId world label next)
    (booked : world.Booked maxConcurrent) (accounted : Accounted expectedSessionId world) :
    Accounted expectedSessionId next where
  unknown := step_unknown taken.1 accounted.unknown
  facts := step_facts taken.1 accounted
  inSight := step_inSight taken.1 taken.2 booked accounted

end

/-- In every interleaving the places in use stay within the limit and no id is spawned twice.  If no
abandonment clears a queue with ids that its listing missed or its session does not own, and no mark
on a failed start is lost, every registered id is queued, held by the pump, spawned or terminal. -/
theorem runner_queue_safety (maxConcurrent : Nat) (expectedSessionId : Option Text) :
    (∀ labels world, Trace (RunnerStep maxConcurrent expectedSessionId) RunnerWorld.initial
        labels world →
      world.state.running.length + world.state.starting ≤ maxConcurrent ∧
        world.spawned.Nodup) ∧
    ∀ labels world, Trace (CarefulStep maxConcurrent expectedSessionId) RunnerWorld.initial
        labels world →
      ∀ id ∈ world.pushed, id ∈ world.state.queued ∨ id ∈ world.holder.hand ∨
        id ∈ world.spawned ∨
        ∃ status, world.statuses id = some status ∧ status.isTerminal = true := by
  constructor
  · intro labels world run
    have booked : world.Booked maxConcurrent :=
      run.invariant (fun taken booked => step_booked taken booked) initial_booked
    refine ⟨Delegation.Booked.capacity booked, ?_⟩
    exact (sublist_append_right _ _).nodup (Delegation.Booked.distinct booked)
  · intro labels world run
    have both : world.Booked maxConcurrent ∧ Accounted expectedSessionId world := by
      refine @Trace.invariant _ _ _
        (fun world => world.Booked maxConcurrent ∧ Accounted expectedSessionId world)
        ?_ _ _ _ run ⟨initial_booked, initial_accounted⟩
      intro before label after taken both
      exact ⟨step_booked taken.1 both.1, step_accounted taken both.1 both.2⟩
    exact both.2.inSight

namespace LateRegistration

def session : Text := "session".toList

def late : Text := "subagent_00000001".toList

def labels : List RunnerLabel :=
  [.abandonLock session, .abandonList [] [], .create late session, .register late, .abandonClear]

def startLabels : List RunnerLabel :=
  [.create late session, .register late, .pumpLock, .pumpTake [], .pumpStart, .pumpSpawn]

theorem new : late ∉ RunnerWorld.initial.created := not_mem_nil

theorem waiting : late ∈ RunnerWorld.initial.unregistered ++ [late] :=
  mem_append_right _ (mem_singleton.mpr rfl)

theorem queued : update RunnerWorld.initial.statuses late
    (some DelegationStatus.queued) late = some .queued :=
  update_self _ _ _

theorem takenRun : ∃ world,
    Trace (CarefulStep 1 (some session)) RunnerWorld.initial (startLabels.take 4) world ∧
      world.holder = .starting late 0 ∧ world.statuses late = some .queued ∧
      world.state.abandonGeneration = 0 ∧ world.pushed = [late] :=
  ⟨_, Trace.snoc (Trace.snoc (Trace.snoc
    (Trace.single ⟨RunnerStep.create new (.inr rfl), trivial⟩)
    ⟨RunnerStep.register waiting, trivial⟩) ⟨RunnerStep.pumpLock rfl rfl, trivial⟩)
    ⟨RunnerStep.pumpTakes [] rfl (fun _ member => absurd member not_mem_nil) rfl, trivial⟩,
    rfl, queued, rfl, rfl⟩

theorem startRun : ∃ world,
    Trace (CarefulStep 1 (some session)) RunnerWorld.initial startLabels world ∧
      world.pushed = [late] := by
  obtain ⟨world, run, held, here, generation, pushed⟩ := takenRun
  exact ⟨_, Trace.snoc (Trace.snoc run ⟨RunnerStep.pumpStarts held here rfl, trivial⟩)
    ⟨RunnerStep.pumpSpawns rfl generation, trivial⟩, pushed⟩

end LateRegistration

theorem runner_queue_safety_startedSubagent :
    ∃ world, Trace (CarefulStep 1 (some LateRegistration.session)) RunnerWorld.initial
        LateRegistration.startLabels world ∧
      (LateRegistration.late ∈ world.state.queued ∨
        LateRegistration.late ∈ world.holder.hand ∨ LateRegistration.late ∈ world.spawned ∨
        ∃ status, world.statuses LateRegistration.late = some status ∧
          status.isTerminal = true) := by
  obtain ⟨world, run, pushed⟩ := LateRegistration.startRun
  refine ⟨world, run, ?_⟩
  exact (runner_queue_safety 1 (some LateRegistration.session)).2 _ world run _ (by simp [pushed])

theorem registered_subagent_lost_to_abandonment :
    ∃ world, Trace (RunnerStep 1 (some LateRegistration.session)) RunnerWorld.initial
        LateRegistration.labels world ∧
      LateRegistration.late ∈ world.pushed ∧ LateRegistration.late ∉ world.state.queued ∧
      world.holder = .free ∧ LateRegistration.late ∉ world.spawned ∧
      world.statuses LateRegistration.late = some .queued := by
  have noneSeen : ∀ id ∈ ([] : List Text), id ∈ RunnerWorld.initial.created :=
    fun _ member => absurd member not_mem_nil
  have noneKnown : ∀ id ∈ RunnerWorld.initial.created, id ∈ ([] : List Text) ∨ id ∈ ([] : List Text) :=
    fun _ member => absurd member not_mem_nil
  exact ⟨_, Trace.snoc (Trace.snoc (Trace.snoc (Trace.snoc
    (Trace.single (RunnerStep.abandonLock LateRegistration.session rfl))
    (RunnerStep.abandonList [] [] rfl noneKnown noneSeen))
    (RunnerStep.create LateRegistration.new (.inr rfl)))
    (RunnerStep.register LateRegistration.waiting)) (RunnerStep.abandonClear rfl),
    mem_singleton.mpr rfl, not_mem_nil, rfl, not_mem_nil,
    LateRegistration.queued⟩

end AgentClaimNetwork.Delegation
