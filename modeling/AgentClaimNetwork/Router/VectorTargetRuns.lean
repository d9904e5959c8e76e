import Mathlib.Data.List.InsertIdx
import AgentClaimNetwork.Router.VectorCache
import AgentClaimNetwork.Router.VectorTargetEntries

/-!
Whole runs at the vector files of one claim: off the branches that forget a target, the last
published one is on disk in every state.
-/

namespace AgentClaimNetwork.Router

open Library Durable List
open Triple (bind ok write)
open VectorSystem (setPhase settle)

variable {Fingerprint Scalar Stamp : Type} {runtime : VectorRuntime Scalar Stamp}
  {held remaining : List Nat} {before store : VectorStore Fingerprint Scalar Stamp}
  {workers : List (VectorWorker Fingerprint Stamp)} {index place : Nat}
  {worker : VectorWorker Fingerprint Stamp} {published : PublishedSystem Fingerprint Scalar Stamp}
  {fingerprint : Fingerprint}

section

structure Emptied (held : List Nat) (store : VectorStore Fingerprint Scalar Stamp) : Prop where
  drained : readPending store = []
  taken : ∀ batch ∈ store.inflight, batch.name ∈ held

/-- A worker has drained the queue into its own batch. -/
structure Drained (held : List Nat) (name : Nat) (entries : Queue Fingerprint Stamp)
    (before store : VectorStore Fingerprint Scalar Stamp) : Prop extends
    Framed held before store where
  intent : store.intent = before.intent
  state : store.state = before.state
  emptied : Emptied (held ++ [name]) store
  disk : ∀ entry, OnDisk held before entry →
    OnDisk (held ++ [name]) store entry ∨ Queued entries entry
  own : ∃ batch ∈ store.inflight, batch.name = name ∧ ∀ entry ∈ entries, Queued batch.entries entry
  isNew : ∀ batch ∈ before.inflight, batch.name ∈ held → batch.name ≠ name

structure Released (held remaining : List Nat) (left : VectorQueueEntry Fingerprint Stamp → Prop)
    (before store : VectorStore Fingerprint Scalar Stamp) : Prop where
  document : store.document = before.document
  intent : store.intent = before.intent
  state : store.state = before.state
  batches : ∀ batch ∈ before.inflight, batch.name ∈ remaining → batch ∈ store.inflight
  disk : ∀ entry, OnDisk held before entry ∨ left entry → OnDisk remaining store entry

variable {left : VectorQueueEntry Fingerprint Stamp → Prop} {name : Nat}

theorem released_batch (fewer : ∀ other ∈ remaining, other ∈ held) (gone : name ∉ remaining)
    (member : batch ∈ before.inflight) (isName : batch.name = name)
    (own : ∀ entry, left entry → Queued batch.entries entry) :
    Released held remaining left before before where
  document := rfl
  intent := rfl
  state := rfl
  batches _ member _ := member
  disk entry place := by
    rcases place with (pending | ⟨other, inFlight, stale, queued⟩) | inWorker
    · exact .inl pending
    · exact .inr ⟨other, inFlight, fun isHeld => stale (fewer _ isHeld), queued⟩
    · exact .inr ⟨batch, member, isName ▸ gone, own entry inWorker⟩

/-- What is to be tried again is back in `pending.jsonl`. -/
structure Gathered (retries : Queue Fingerprint Stamp)
    (before store : VectorStore Fingerprint Scalar Stamp) : Prop where
  document : store.document = before.document
  intent : store.intent = before.intent
  state : store.state = before.state
  inflight : store.inflight = before.inflight
  pending : ∀ entry, Queued (readPending before) entry ∨ Queued retries entry →
    Queued (readPending store) entry

variable {retries : Queue Fingerprint Stamp}

theorem Gathered.released (gathered : Gathered retries before store)
    (isHeld : name ∈ held) (fewer : ∀ other ∈ remaining, other ∈ held) (gone : name ∉ remaining) :
    Released held remaining (Queued retries) before store ∧
      Released held remaining (Queued retries) before
        { store with inflight := store.inflight.filter fun batch => batch.name ≠ name } := by
  have disk : ∀ entry, OnDisk held before entry ∨ Queued retries entry →
      Queued (readPending store) entry ∨ ∃ batch ∈ before.inflight, batch.name ∉ held ∧
        Queued batch.entries entry := by
    rintro entry ((pending | stale) | inWorker)
    · exact .inl (gathered.pending entry (.inl pending))
    · exact .inr stale
    · exact .inl (gathered.pending entry (.inr inWorker))
  constructor
  · refine ⟨gathered.document, gathered.intent, gathered.state, ?_, fun entry place => ?_⟩
    · exact fun batch member _ => gathered.inflight ▸ member
    · refine (disk entry place).imp_right ?_
      rintro ⟨batch, member, stale, queued⟩
      exact ⟨batch, gathered.inflight ▸ member, fun isHeld => stale (fewer _ isHeld), queued⟩
  · refine ⟨gathered.document, gathered.intent, gathered.state, ?_, fun entry place => ?_⟩
    · intro batch member stays
      refine mem_filter.mpr ⟨gathered.inflight ▸ member, ?_⟩
      simpa using fun isName : batch.name = name => gone (isName ▸ stays)
    · refine (disk entry place).imp_right ?_
      rintro ⟨batch, member, stale, queued⟩
      refine ⟨batch, ?_, fun isHeld => stale (fewer _ isHeld), queued⟩
      refine mem_filter.mpr ⟨gathered.inflight ▸ member, ?_⟩
      simpa using fun isName : batch.name = name => stale (isName ▸ isHeld)

variable [DecidableEq Fingerprint] [LinearOrder Stamp]

theorem triple_drain {name : Nat} : Triple (fun store => store = before)
    (drainQueueEntries held name)
    (fun result store => match result with
      | some entries => Drained held name entries before store
      | none => Requeued held before store ∧ Emptied held store)
    (Requeued held before) := by
  refine bind triple_recover fun _ => Triple.known fun middle restored =>
    Triple.look_known ?_
  have requeued := restored.toRequeued
  have same : ∀ store, store = middle → Requeued held before store := by
    rintro store rfl
    exact requeued
  refine Triple.guard same fun untaken => ?_
  have untaken : ∀ batch ∈ middle.inflight, batch.name ≠ name := by simpa using untaken
  split
  · rename_i missing
    refine ok ?_
    rintro store rfl
    exact ⟨requeued, by simp [readPending, missing], restored.taken⟩
  · have moved : Triple (fun store => store = middle)
        (Program.write fun store =>
          { store with
            pending := none
            tail := none
            inflight := store.inflight ++ [⟨name, readPending store⟩] })
        (fun _ => Drained held name (dedupeQueueEntries (readPending middle)) before)
        (Requeued held before) := by
      refine write same ?_
      rintro store rfl
      exact
        { document := requeued.document
          batches := fun batch member isHeld =>
            mem_append_left _ (requeued.batches batch member isHeld)
          intent := requeued.intent
          state := requeued.state
          emptied := ⟨rfl, by
            intro batch member
            rcases mem_concat member with old | rfl
            · exact mem_append_left _ (restored.taken batch old)
            · exact mem_append_right _ (mem_singleton_self _)⟩
          disk := by
            intro entry onDisk
            rcases requeued.disk entry onDisk with pending | ⟨batch, member, stale, queued⟩
            · exact .inr (queued_dedupe.mpr pending)
            · refine .inl (.inr ⟨batch, mem_append_left _ member, ?_, queued⟩)
              simp [stale, untaken batch member]
          own := ⟨_, mem_append_right _ (mem_singleton_self _), rfl,
            fun entry member => queued_dedupe.mp (.of_mem member)⟩
          isNew := fun batch member isHeld =>
            untaken batch (requeued.batches batch member isHeld) }
    exact bind moved fun _ => ok fun _ drained => drained

theorem triple_finish
    (isHeld : name ∈ held) (fewer : ∀ other ∈ remaining, other ∈ held) (gone : name ∉ remaining)
    (crashed : Released held remaining (Queued retries) before before) :
    Triple (fun store => store = before) (finishInFlightQueue name retries)
      (fun _ => Released held remaining (Queued retries) before)
      (Released held remaining (Queued retries) before) := by
  have stopped : ∀ store, store = before → Released held remaining (Queued retries) before store := by
    rintro store rfl
    exact crashed
  have removal : Triple (Gathered retries before) (removeInFlight name)
      (fun _ => Released held remaining (Queued retries) before)
      (Released held remaining (Queued retries) before) :=
    write (fun _ gathered => (gathered.released isHeld fewer gone).1)
      fun _ gathered => (gathered.released isHeld fewer gone).2
  refine Triple.look_known ?_
  split
  · rename_i none
    refine removal.weaken ?_ fun _ _ released => released
    rintro store rfl
    exact ⟨rfl, rfl, rfl, rfl, fun entry place => by simpa [isEmpty_iff.mp none] using place⟩
  · refine bind (write stopped ?_) fun _ => removal
    rintro store rfl
    exact ⟨rfl, rfl, rfl, rfl, fun entry place => by simpa [readPending, queued_dedupe] using place⟩

end

section

variable {task : VectorTask Fingerprint Stamp}

def CarriedElsewhere (workers : List (VectorWorker Fingerprint Stamp)) (index place : Nat)
    (entry : VectorQueueEntry Fingerprint Stamp) : Prop :=
  ∃ at_index worker at_place task, workers[at_index]? = some worker ∧
    worker.tasks[at_place]? = some task ∧ ¬(at_index = index ∧ at_place = place) ∧
    worker.Keeps task ∧ queueEntryKey task.entry = queueEntryKey entry

theorem changed_mem {Item : Type} {items : List Item} {item : Item} {change : Item → Item}
    (found : items[index]? = some item) : change item ∈ items.modify index change := by
  refine mem_of_getElem? (i := index) ?_
  simp [found]

theorem unchanged_mem {Item : Type} {items : List Item} {item : Item} {change : Item → Item}
    (found : items[place]? = some item) (apart : index ≠ place) :
    item ∈ items.modify index change := by
  refine mem_of_getElem? (i := place) ?_
  simp [apart, found]

theorem Carried.elsewhere (carried : Carried workers other)
    (isWorker : workers[index]? = some worker) (isTask : worker.tasks[place]? = some task) :
    CarriedElsewhere workers index place other ∨
      queueEntryKey task.entry = queueEntryKey other := by
  obtain ⟨found, member, item, inTasks, keeps, same⟩ := carried
  obtain ⟨at_index, isFound⟩ := mem_iff_getElem?.mp member
  obtain ⟨at_place, isItem⟩ := mem_iff_getElem?.mp inTasks
  by_cases here : at_index = index ∧ at_place = place
  · obtain ⟨rfl, rfl⟩ := here
    cases isWorker.symm.trans isFound
    cases isTask.symm.trans isItem
    exact .inr same
  · exact .inl ⟨at_index, found, at_place, item, isFound, isItem, here, keeps, same⟩

theorem CarriedElsewhere.settled (elsewhere : CarriedElsewhere workers index place other) :
    Carried (workers.modify index fun worker => setPhase worker place phase)
      other := by
  obtain ⟨at_index, worker, at_place, task, isWorker, isTask, apart, keeps, same⟩ := elsewhere
  by_cases here : at_index = index
  · subst here
    refine ⟨_, changed_mem isWorker, task, unchanged_mem isTask ?_, keeps, same⟩
    exact fun same => apart ⟨rfl, same.symm⟩
  · exact ⟨worker, unchanged_mem isWorker (Ne.symm here), task, mem_of_getElem? isTask, keeps,
      same⟩

theorem Carried.settled (carried : Carried workers other)
    (isWorker : workers[index]? = some worker) (isTask : worker.tasks[place]? = some task)
    (stays : worker.Keeps ⟨task.entry, phase⟩) :
    Carried (workers.modify index fun worker => setPhase worker place phase)
      other := by
  rcases carried.elsewhere isWorker isTask with elsewhere | same
  · exact elsewhere.settled
  · exact ⟨_, changed_mem isWorker, _, changed_mem isTask, stays, same⟩

theorem Carried.erase (carried : Carried workers other) (isWorker : workers[index]? = some worker) :
    Carried (workers.eraseIdx index) other ∨ ∃ task ∈ worker.tasks, worker.Keeps task ∧
      queueEntryKey task.entry = queueEntryKey other := by
  obtain ⟨found, member, rest⟩ := carried
  obtain ⟨at_index, isFound⟩ := mem_iff_getElem?.mp member
  by_cases here : at_index = index
  · subst here
    cases isWorker.symm.trans isFound
    exact .inr rest
  · exact .inl ⟨found, mem_eraseIdx_iff_getElem?.mpr ⟨at_index, here, isFound⟩, rest⟩

end

section

variable {system : VectorSystem Fingerprint Scalar Stamp}

structure Batched (workers : List (VectorWorker Fingerprint Stamp))
    (inflight : List (InFlight Fingerprint Stamp)) : Prop where
  distinct : (workers.map (·.batch)).Nodup
  batches : ∀ worker ∈ workers, ∃ batch ∈ inflight, batch.name = worker.batch ∧
    ∀ task ∈ worker.tasks, Queued batch.entries task.entry

theorem Batched.kept (batched : Batched workers before.inflight)
    (kept : ∀ batch ∈ before.inflight, batch.name ∈ workers.map (·.batch) → batch ∈ store.inflight) :
    Batched workers store.inflight where
  distinct := batched.distinct
  batches worker member := by
    obtain ⟨batch, inFlight, isName, tasks⟩ := batched.batches worker member
    exact ⟨batch, kept batch inFlight (isName ▸ mem_map_of_mem member), isName, tasks⟩

theorem settled_batches :
    (workers.modify index fun worker => setPhase worker place phase).map (·.batch) =
      workers.map (·.batch) := by
  apply ext_getElem?
  intro position
  rw [List.getElem?_map, List.getElem?_map, List.getElem?_modify]
  cases workers[position]? with
  | none => rfl
  | some worker => by_cases here : index = position <;> simp [here, setPhase]

theorem Batched.live (batched : Batched workers store.inflight)
    (place : OnDisk held store entry ∨ Carried workers entry) :
    Queued (liveEntries store) entry := by
  rw [queued_live]
  rcases place with (pending | ⟨batch, member, _, queued⟩) | ⟨worker, inWorkers, task, inTasks, _, same⟩
  · exact .inl pending
  · exact .inr ⟨batch, member, queued⟩
  · obtain ⟨batch, member, _, tasks⟩ := batched.batches worker inWorkers
    obtain ⟨queued, inBatch, key⟩ := tasks task inTasks
    exact .inr ⟨batch, member, queued, inBatch, key.trans same⟩

variable {inflight : List (InFlight Fingerprint Stamp)}

theorem Batched.settled (batched : Batched workers inflight) :
    Batched (workers.modify index fun worker => setPhase worker place phase)
      inflight where
  distinct := by
    rw [settled_batches]
    exact batched.distinct
  batches worker member := by
    rcases mem_modify member with same | ⟨old, isOld, rfl⟩
    · exact batched.batches worker same
    · obtain ⟨batch, inFlight, isName, tasks⟩ := batched.batches old (mem_of_getElem? isOld)
      refine ⟨batch, inFlight, isName, fun task inTasks => ?_⟩
      rcases mem_modify inTasks with same | ⟨former, isFormer, rfl⟩
      · exact tasks task same
      · exact tasks former (mem_of_getElem? isFormer)

variable {index : Nat}

theorem erased_held : ∀ other ∈ (workers.eraseIdx index).map (·.batch),
    other ∈ workers.map (·.batch) := by
  intro other member
  obtain ⟨worker, inWorkers, rfl⟩ := mem_map.mp member
  exact mem_map_of_mem (mem_of_mem_eraseIdx inWorkers)

theorem Batched.gone (batched : Batched workers inflight)
    (isWorker : workers[index]? = some worker) :
    worker.batch ∉ (workers.eraseIdx index).map (·.batch) := by
  rw [← eraseIdx_map]
  intro member
  obtain ⟨position, apart, found⟩ := mem_eraseIdx_iff_getElem?.mp member
  have here : (workers.map (·.batch))[index]? = some worker.batch := by simp [isWorker]
  have inside : index < (workers.map (·.batch)).length := (List.getElem?_eq_some_iff.mp here).1
  exact apart ((List.getElem?_inj inside batched.distinct).mp (here.trans found.symm)).symm

theorem Batched.crashed
    (batched : Batched workers store.inflight) (isWorker : workers[index]? = some worker)
    {left : VectorQueueEntry Fingerprint Stamp → Prop}
    (own : ∀ entry, left entry → ∃ task ∈ worker.tasks,
      queueEntryKey task.entry = queueEntryKey entry) :
    Released (workers.map (·.batch)) ((workers.eraseIdx index).map (·.batch)) left store store := by
  obtain ⟨batch, inFlight, isName, tasks⟩ := batched.batches worker (mem_of_getElem? isWorker)
  refine released_batch erased_held (batched.gone isWorker) inFlight isName fun entry isLeft => ?_
  obtain ⟨task, inTasks, same⟩ := own entry isLeft
  obtain ⟨queued, inBatch, key⟩ := tasks task inTasks
  exact ⟨queued, inBatch, key.trans same⟩

theorem Batched.erase (batched : Batched workers inflight) : Batched (workers.eraseIdx index) inflight where
  distinct := by
    rw [← eraseIdx_map]
    exact batched.distinct.eraseIdx index
  batches worker member := batched.batches worker (mem_of_mem_eraseIdx member)

variable [DecidableEq Fingerprint]

structure KeepsTarget (runtime : VectorRuntime Scalar Stamp)
    (published : PublishedSystem Fingerprint Scalar Stamp) : Prop where
  sound : SoundSystem runtime published.system
  batched : Batched published.system.workers published.system.store.inflight
  remembered : Remembered runtime published.system.held (Carried published.system.workers)
    published.target published.system.store

theorem KeepsTarget.initial :
    KeepsTarget runtime (PublishedSystem.initial : PublishedSystem Fingerprint Scalar Stamp) where
  sound := .initial
  batched := ⟨nodup_nil, nofun⟩
  remembered := nofun

theorem released_worker {left : VectorQueueEntry Fingerprint Stamp → Prop}
    (batched : Batched workers before.inflight)
    (remembered : Remembered runtime (workers.map (·.batch)) (Carried workers) target before)
    (isWorker : workers[index]? = some worker)
    (isLeft : ∀ entry, (∃ task ∈ worker.tasks, worker.Keeps task ∧
      queueEntryKey task.entry = queueEntryKey entry) → left entry)
    (released : Released (workers.map (·.batch)) ((workers.eraseIdx index).map (·.batch)) left
      before store) :
    Batched (workers.eraseIdx index) store.inflight ∧
      Remembered runtime ((workers.eraseIdx index).map (·.batch))
        (Carried (workers.eraseIdx index)) target store := by
  constructor
  · exact (batched.erase).kept fun batch member isHeld => released.batches batch member isHeld
  · refine remembered.move released.document released.intent released.state ?_
    rintro entry (onDisk | carried)
    · exact .inl (released.disk entry (.inl onDisk))
    · rcases carried.erase isWorker with elsewhere | own
      · exact .inr elsewhere
      · exact .inl (released.disk entry (.inr (isLeft entry own)))

theorem KeepsTarget.section (keeps : KeepsTarget runtime published)
    (sound : SoundSystem runtime { published.system with store })
    (kept : Kept runtime published.system.held (Carried published.system.workers) other
      published.system.store store) :
    KeepsTarget runtime ⟨{ published.system with store }, other⟩ where
  sound := sound
  batched := keeps.batched.kept kept.batches
  remembered := kept.remembered

theorem KeepsTarget.crash {index : Nat} (keeps : KeepsTarget runtime published)
    (sound : SoundSystem runtime
      { published.system with workers := published.system.workers.eraseIdx index }) :
    KeepsTarget runtime ⟨{ published.system with
      workers := published.system.workers.eraseIdx index }, published.target⟩ := by
  cases isWorker : published.system.workers[index]? with
  | none =>
    have same := eraseIdx_of_length_le (List.getElem?_eq_none_iff.mp isWorker)
    simp only [same]
    exact keeps
  | some worker =>
    have released := keeps.batched.crashed isWorker fun entry isLeft => isLeft
    obtain ⟨batched, remembered⟩ := released_worker keeps.batched keeps.remembered isWorker
      (fun entry ⟨task, inTasks, _, same⟩ => ⟨task, inTasks, same⟩) released
    exact ⟨sound, batched, remembered⟩

theorem keeps_settle {task : VectorTask Fingerprint Stamp} {Result : Type}
    {ended : Outcome (VectorStore Fingerprint Scalar Stamp) Result} {phase : Result → TaskPhase}
    {after : Result → VectorQueueEntry Fingerprint Stamp → Prop}
    (batched : Batched system.workers system.store.inflight)
    (isWorker : system.workers[index]? = some worker) (isTask : worker.tasks[place]? = some task)
    (covers : ∀ result other, after result other → Carried (system.workers.modify index
      fun worker => setPhase worker place (phase result)) other)
    (ends : ended.Ends
      (fun result => Kept runtime system.held (after result) target system.store)
      (Kept runtime system.held (Carried system.workers) target system.store))
    (sound : SoundSystem runtime (settle system index place ended phase)) :
    KeepsTarget runtime ⟨settle system index place ended phase, target⟩ := by
  have moved : ∀ {carried : VectorQueueEntry Fingerprint Stamp → Prop}
      {store : VectorStore Fingerprint Scalar Stamp} {next : TaskPhase},
      Kept runtime system.held carried target system.store store →
      (∀ other, carried other → Carried (system.workers.modify index
        fun worker => setPhase worker place next) other) →
      Batched (system.workers.modify index
        fun worker => setPhase worker place next) store.inflight ∧
      Remembered runtime ((system.workers.modify index
        fun worker => setPhase worker place next).map (·.batch))
        (Carried (system.workers.modify index
          fun worker => setPhase worker place next)) target store := by
    intro carried store next kept covered
    refine ⟨(batched.kept kept.batches).settled, ?_⟩
    rw [settled_batches]
    exact kept.remembered.mono covered
  cases ended with
  | value result store fates =>
    obtain ⟨batches, remembered⟩ := moved ends (covers result)
    exact ⟨sound, batches, remembered⟩
  | error store fates =>
    obtain ⟨batches, remembered⟩ := @moved _ _ (.finished none) ends
      fun other carried => carried.settled isWorker isTask trivial
    exact ⟨sound, batches, remembered⟩
  | stopped store =>
    have here := batched.kept ends.batches
    obtain ⟨batches, remembered⟩ := released_worker here ends.remembered isWorker
      (fun entry ⟨task, inTasks, _, same⟩ => ⟨task, inTasks, same⟩)
      (here.crashed isWorker fun entry isLeft => isLeft)
    exact ⟨sound, batches, remembered⟩

end

section

variable {published next : PublishedSystem Fingerprint Scalar Stamp}
  {system after : VectorSystem Fingerprint Scalar Stamp}

variable {entries : Queue Fingerprint Stamp} {name : Nat}

theorem Batched.drained (batched : Batched workers before.inflight)
    (drained : Drained (workers.map (·.batch)) name entries before store) :
    Batched (workers ++ [⟨fingerprint, name, entries.map fun entry => ⟨entry, .waiting⟩⟩])
      store.inflight where
  distinct := by
    rw [map_append, nodup_append]
    refine ⟨batched.distinct, by simp, ?_⟩
    rintro held isHeld other member rfl
    cases mem_singleton.mp member
    obtain ⟨worker, inWorkers, isName⟩ := mem_map.mp isHeld
    obtain ⟨batch, inFlight, same, _⟩ := batched.batches worker inWorkers
    exact drained.isNew batch inFlight (by rw [same, isName]; exact isHeld) (same.trans isName)
  batches worker member := by
    rcases mem_concat member with old | rfl
    · obtain ⟨batch, inFlight, same, tasks⟩ := batched.batches worker old
      exact ⟨batch, drained.batches batch inFlight (same ▸ mem_map_of_mem old), same, tasks⟩
    · obtain ⟨batch, inFlight, isName, own⟩ := drained.own
      refine ⟨batch, inFlight, isName, fun task inTasks => ?_⟩
      obtain ⟨entry, inEntries, rfl⟩ := mem_map.mp inTasks
      exact own entry inEntries

theorem Drained.places
    (drained : Drained held name entries before store) (fingerprint : Fingerprint)
    (entry : VectorQueueEntry Fingerprint Stamp)
    (place : OnDisk held before entry ∨ Carried workers entry) :
    OnDisk (held ++ [name]) store entry ∨ Carried (workers ++
      [⟨fingerprint, name, entries.map fun entry => ⟨entry, .waiting⟩⟩]) entry := by
  rcases place with onDisk | ⟨worker, member, task, inTasks, keeps, same⟩
  · rcases drained.disk entry onDisk with stays | ⟨queued, inEntries, same⟩
    · exact .inl stays
    · exact .inr ⟨_, mem_append_right _ (mem_singleton_self _), ⟨queued, .waiting⟩,
        mem_map_of_mem inEntries, trivial, same⟩
  · exact .inr ⟨worker, mem_append_left _ member, task, inTasks, keeps, same⟩

theorem VectorWorker.Keeps.retries {worker : VectorWorker Fingerprint Stamp}
    {task : VectorTask Fingerprint Stamp} (keeps : worker.Keeps task)
    (finished : task.isFinished = true) : task.retries = true := by
  obtain ⟨entry, phase⟩ := task
  cases phase with
  | waiting | embedding searchText => nomatch finished
  | finished outcome =>
    rcases outcome with _ | _ | _ | _
    · rfl
    · exact keeps.elim
    · rfl
    · exact keeps.elim

variable [DecidableEq Fingerprint] [LinearOrder Stamp] (keeps : KeepsTarget runtime published)

include keeps

theorem keeps_drain
    (taken : published.system.apply runtime dimensionError (.drain fingerprint name fates) =
      some after) (sound : SoundSystem runtime after) :
    KeepsTarget runtime ⟨after, published.target⟩ := by
  have ends := @triple_drain _ _ _ published.system.held published.system.store _ _ name
    published.system.store fates rfl
  unfold VectorSystem.apply at taken
  dsimp only at taken
  split at taken
  · rename_i entries store rest ended
    rw [ended] at ends
    cases taken
    refine ⟨sound, ?_, ?_⟩
    · exact keeps.batched.drained ends
    · have places := keeps.remembered.move ends.document ends.intent ends.state
        (ends.places fingerprint)
      simpa [VectorSystem.held] using places
  · rename_i notDrained
    cases taken
    refine keeps.section sound (keeps.remembered.kept ?_)
    generalize isEnd : drainQueueEntries published.system.held name published.system.store fates =
      ended at ends notDrained
    rcases ended with ⟨_ | entries, store, rest⟩ | ⟨store, rest⟩ | store
    · exact ends.1
    · exact absurd rfl (notDrained entries store rest)
    · exact ends
    · exact ends

theorem keeps_prepare {now later : Stamp}
    (meets : VectorLabel.Meets runtime published (.prepare index place now later fates))
    (taken : published.system.apply runtime dimensionError (.prepare index place now later fates) =
      some after) (sound : SoundSystem runtime after) :
    KeepsTarget runtime ⟨after, published.target⟩ := by
  unfold VectorSystem.apply at taken
  dsimp only at taken
  split at taken
  · nomatch taken
  rename_i worker isWorker
  split at taken
  · rename_i entry isTask
    cases taken
    have triple : Triple (fun store => store = published.system.store)
        (prepareQueueEntry runtime worker.fingerprint entry now later)
        (fun result => Kept runtime published.system.held
          (leftAfter (Carried published.system.workers)
            (CarriedElsewhere published.system.workers index place) entry worker.fingerprint result)
          published.target published.system.store)
        (Kept runtime published.system.held (Carried published.system.workers) published.target
          published.system.store) := by
      refine triple_prepare keeps.remembered ?_ ?_ ?_
      · exact ⟨worker, mem_of_getElem? isWorker, _, mem_of_getElem? isTask, trivial, rfl⟩
      · exact fun other carried => carried.elsewhere isWorker isTask
      · intro document state other isDocument hash model here older isTarget missing
        exact meets worker entry document state other isWorker isTask isDocument hash model here older
          isTarget missing
    refine keeps_settle keeps.batched isWorker isTask ?_ (triple _ fates rfl) sound
    rintro ((_ | _ | summary) | searchText) other left
    · exact left.settled
    · exact left.1.settled isWorker isTask left.2
    · exact left.settled
    · exact left.settled isWorker isTask trivial
  · nomatch taken

theorem keeps_complete (taken : published.system.apply runtime dimensionError
      (.complete index place embedded completedAt now fates) = some after)
    (sound : SoundSystem runtime after) :
    KeepsTarget runtime ⟨after, published.target⟩ := by
  unfold VectorSystem.apply at taken
  dsimp only at taken
  split at taken
  · nomatch taken
  rename_i worker isWorker
  split at taken
  · rename_i entry searchText isTask
    have task := keeps.sound.tasks worker (mem_of_getElem? isWorker) _
      (mem_of_getElem? isTask)
    have triple : Triple (fun store => store = published.system.store)
        (completeQueueEntry runtime worker.fingerprint entry embedded dimensionError completedAt now)
        (fun _ => Kept runtime published.system.held
          (CarriedElsewhere published.system.workers index place) published.target
          published.system.store)
        (Kept runtime published.system.held (Carried published.system.workers) published.target
          published.system.store) := by
      refine triple_complete keeps.remembered ?_ (task.embeds searchText rfl).model ?_
      · exact fun other carried => carried.elsewhere isWorker isTask
      · intro state here
        obtain ⟨present, isPresent, reached⟩ := task.reached searchText rfl
        cases here.symm.trans isPresent
        exact reached
    have ends := triple _ fates rfl
    have settled : ∀ answered : VectorSystem Fingerprint Scalar Stamp,
        answered.store = published.system.store → answered.workers = published.system.workers →
        SoundSystem runtime (settle answered index place
          (completeQueueEntry runtime worker.fingerprint entry embedded dimensionError completedAt
            now published.system.store fates) fun outcome => .finished (some outcome)) →
        KeepsTarget runtime ⟨settle answered index place
          (completeQueueEntry runtime worker.fingerprint entry embedded dimensionError completedAt
            now published.system.store fates) fun outcome => .finished (some outcome),
          published.target⟩ := by
      rintro ⟨_, _, returned⟩ rfl rfl sound
      exact keeps_settle keeps.batched isWorker isTask (fun outcome other left => left.settled) ends
        sound
    cases taken
    split
    all_goals exact settled _ rfl rfl sound
  · nomatch taken

theorem keeps_finish {index : Nat}
    (taken : published.system.apply runtime dimensionError (.finish index fates) = some after)
    (sound : SoundSystem runtime after) :
    KeepsTarget runtime ⟨after, published.target⟩ := by
  unfold VectorSystem.apply at taken
  dsimp only at taken
  split at taken
  · nomatch taken
  rename_i worker isWorker
  split at taken
  · rename_i finished
    cases taken
    have retried : ∀ entry, (∃ task ∈ worker.tasks, worker.Keeps task ∧
        queueEntryKey task.entry = queueEntryKey entry) →
        Queued ((worker.tasks.filter VectorTask.retries).map (·.entry)) entry := by
      rintro entry ⟨task, inTasks, keeps, same⟩
      have done := all_eq_true.mp finished task inTasks
      have retries := keeps.retries done
      exact ⟨task.entry, mem_map_of_mem (mem_filter.mpr ⟨inTasks, retries⟩), same⟩
    have crashed := keeps.batched.crashed isWorker fun entry
        (queued : Queued ((worker.tasks.filter VectorTask.retries).map (·.entry)) entry) => by
      obtain ⟨_, member, same⟩ := queued
      obtain ⟨task, inRetries, rfl⟩ := mem_map.mp member
      exact ⟨task, mem_of_mem_filter inRetries, same⟩
    have ends := (triple_finish (mem_map_of_mem (mem_of_getElem? isWorker)) erased_held
      (keeps.batched.gone isWorker) crashed).ends fates rfl
    obtain ⟨batched, remembered⟩ := released_worker keeps.batched keeps.remembered isWorker retried
      ends
    exact ⟨sound, batched, remembered⟩
  · nomatch taken

theorem keeps_step (meets : label.Meets runtime published)
    (taken : published.apply runtime dimensionError label = some next) :
    KeepsTarget runtime next := by
  obtain ⟨after, isStep, rfl⟩ := Option.map_eq_some_iff.mp taken
  have sound := (sound_step keeps.sound isStep).sound
  cases label with
  | publish document fingerprint now fates =>
    cases isStep
    exact keeps.section sound (publish_kept keeps.remembered meets)
  | requeueExpected fingerprint expectedContentHash queryDimensions now fates =>
    cases isStep
    exact keeps.section sound ((triple_requeueExpected keeps.remembered meets).ends fates rfl)
  | requeueMismatch fingerprint expectedContentHash queryDimensions now fates =>
    cases isStep
    exact keeps.section sound ((triple_requeueMismatch keeps.remembered meets).ends fates rfl)
  | recoverIntent fingerprint now fates =>
    cases isStep
    have triple := (@triple_recoverIntent _ _ _ _ runtime _ _ _ _ fingerprint now _ keeps.remembered
      meets).weaken (fun _ same => same) fun _ _ recovered => recovered.toKept
    exact keeps.section sound (triple.ends fates rfl)
  | drain fingerprint name fates => exact keeps_drain keeps isStep sound
  | prepare index place now later fates => exact keeps_prepare keeps meets isStep sound
  | complete index place embedded completedAt now fates => exact keeps_complete keeps isStep sound
  | finish index fates => exact keeps_finish keeps isStep sound
  | crash index =>
    cases isStep
    exact keeps.crash sound

omit keeps

end

variable [DecidableEq Fingerprint] {document : RetrievalDocument}

structure WorkedThrough (runtime : VectorRuntime Scalar Stamp) (document : RetrievalDocument)
    (fingerprint : Fingerprint) (published : PublishedSystem Fingerprint Scalar Stamp) : Prop where
  recovered : published.system.store.intent ≠ some (intentFor runtime document fingerprint)
  emptied : Emptied published.system.held published.system.store
  worked : ∀ worker ∈ published.system.workers, worker.fingerprint = fingerprint ∧
    ∀ task ∈ worker.tasks, ∃ outcome, task.phase = .finished (some outcome)

section

variable (keeps : KeepsTarget runtime published)
include keeps

theorem KeepsTarget.anchored (isDocument : published.system.store.document = some document)
    (isTarget : published.target = some fingerprint) :
    Anchored published.system.held (Carried published.system.workers) published.system.store
      (runtime.searchTextHash document.searchText) fingerprint :=
  keeps.remembered document fingerprint isDocument isTarget

theorem KeepsTarget.remembers : Remembers runtime published := by
  intro document fingerprint isDocument isTarget
  rcases keeps.anchored isDocument isTarget with intent | ⟨state, here, matched, left⟩
  · exact .inl intent
  right
  cases status : state.status with
  | ready => exact .inl ⟨state, here, matched, .inl status⟩
  | failed => exact .inl ⟨state, here, matched, .inr status⟩
  | pending =>
    obtain ⟨entry, wanted, place⟩ := left.resolve_left fun unpending => unpending status
    obtain ⟨live, member, same⟩ := keeps.batched.live place
    have wanted := wanted.of_key same
    refine .inr ⟨live, member, wanted.contentHash, wanted.fingerprint, ?_⟩
    exact Bool.eq_false_iff.mpr fun discarded => discarded_unwanted discarded here matched wanted

theorem KeepsTarget.settled (isDocument : published.system.store.document = some document)
    (isTarget : published.target = some fingerprint)
    (worked : WorkedThrough runtime document fingerprint published) :
    ∃ state, published.system.store.state = some state ∧
      vectorStateMatches state (runtime.searchTextHash document.searchText) fingerprint = true ∧
      (state.status = .ready ∨ state.status = .failed) := by
  obtain ⟨state, here, matched, left⟩ :=
    (keeps.anchored isDocument isTarget).resolve_left worked.recovered
  refine ⟨state, here, matched, ?_⟩
  cases status : state.status with
  | ready => exact .inl rfl
  | failed => exact .inr rfl
  | pending =>
    obtain ⟨entry, wanted, place⟩ := left.resolve_left fun unpending => unpending status
    rcases place with (pending | ⟨batch, member, stale, _⟩) |
      ⟨worker, inWorkers, task, inTasks, keeps, same⟩
    · rw [worked.emptied.drained] at pending
      exact absurd pending queued_nil
    · exact absurd (worked.emptied.taken batch member) stale
    · obtain ⟨rfl, finished⟩ := worked.worked worker inWorkers
      obtain ⟨outcome, isOutcome⟩ := finished task inTasks
      simp only [VectorWorker.Keeps, isOutcome] at keeps
      cases outcome with
      | complete | embeddingFailureRecorded summary => exact keeps.elim
      | requeueForMatchingWorker => exact absurd (wanted.of_key same).fingerprint keeps

end

end AgentClaimNetwork.Router
