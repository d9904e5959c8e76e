import Mathlib.Data.Fintype.EquivFin
import AgentClaimNetwork.Router.VectorTargetRuns

/-!
A worker alone: it recovers the intent, drains the queue, works on each entry and finishes, and all
of it gets through.
-/

namespace AgentClaimNetwork.Router

open Library Durable List
open VectorSystem (apply setPhase settle)
open GetsThrough (bind completes forAll look ok require write)

variable {Fingerprint Scalar Stamp : Type} {runtime : VectorRuntime Scalar Stamp} {held : List Nat}
  {before store : VectorStore Fingerprint Scalar Stamp}
  {entry : VectorQueueEntry Fingerprint Stamp} {fingerprint : Fingerprint} {now later : Stamp}

structure Unexhausted (store : VectorStore Fingerprint Scalar Stamp) : Prop where
  state : ∀ state, store.state = some state → state.generationSeq < maxGeneration
  live : ∀ entry ∈ liveEntries store, entry.generationSeq < maxGeneration

theorem foldl_generation_lt {entries : Queue Fingerprint Stamp} (below : first < bound)
    (each : ∀ entry ∈ entries, entry.generationSeq < bound) :
    entries.foldl (fun highest entry => max highest entry.generationSeq) first < bound := by
  induction entries generalizing first with
  | nil => exact below
  | cons entry rest ih =>
    have here := each entry mem_cons_self
    exact ih (max_lt below here) fun other member => each other (mem_cons_of_mem _ member)

theorem append_through : GetsThrough (appendQueueEntryLocked entry) before :=
  look <| bind write fun _ _ =>
    bind write fun _ _ => write

theorem persist_completes : Completes (persistVectorTargetIntent intent) before fun _ last =>
    liveEntries last = liveEntries before := by
  cases intent with
  | none => exact Completes.ok rfl
  | some intent => exact Completes.write rfl

theorem load_through {Result : Type} {next : Option (VectorState Fingerprint Scalar Stamp) →
      VectorProgram Fingerprint Scalar Stamp Result}
    (rest : GetsThrough (next before.state) before) :
    GetsThrough (loadVectorStateOpt >>= next) before :=
  rest

def Restated (before store : VectorStore Fingerprint Scalar Stamp) : Prop :=
  ∃ state, store = { before with state := state }

section

variable {middle : VectorStore Fingerprint Scalar Stamp} {Result : Type}
  {post : Result → VectorStore Fingerprint Scalar Stamp → Prop}

theorem document_completes {document : RetrievalDocument}
    {next : Option RetrievalDocument → VectorProgram Fingerprint Scalar Stamp Result}
    (present : before.document = some document)
    (rest : Completes (next (some document)) before post) :
    Completes (readDocumentOpt >>= next) before post := by
  rw [← present] at rest
  exact rest

theorem load_completes {next : Option (VectorState Fingerprint Scalar Stamp) →
      VectorProgram Fingerprint Scalar Stamp Result}
    (rest : Completes (next before.state) before post) :
    Completes (loadVectorStateOpt >>= next) before post :=
  rest

variable {state : VectorState Fingerprint Scalar Stamp}

theorem state_completes (restated : Restated before middle) :
    Completes (writeVectorState state) middle fun _ => Restated before := by
  obtain ⟨_, rfl⟩ := restated
  exact Completes.write ⟨some state, rfl⟩

theorem stateIf_completes {condition : Prop} [Decidable condition]
    (restated : Restated before middle) :
    Completes (if condition then writeVectorState state else pure ()) middle
      fun _ => Restated before := by
  split
  · exact state_completes restated
  · exact Completes.ok restated

end

variable [DecidableEq Fingerprint] [LinearOrder Stamp]

section

theorem recover_completes :
    Completes (recoverStaleInFlightLocked held) before fun _ => Restored held before := by
  refine completes (look ?_) triple_recover
  dsimp only
  split
  · exact ok
  · exact bind write fun _ _ => forAll fun _ _ =>
      write

section

theorem hasLive_through : GetsThrough
    (hasLiveQueueEntry held contentHash fingerprint expectedDimensions generationSeq) before :=
  recover_completes.through fun _ _ _ => look ok

theorem copy_through : GetsThrough
    (enqueueVectorPendingCopy held contentHash fingerprint expectedDimensions generationSeq now)
    before := by
  refine recover_completes.through fun _ _ _ => look ?_
  split
  · exact ok
  · exact append_through

theorem enqueueNew_through (below : current < maxGeneration)
    (live : ∀ entry ∈ liveEntries before, entry.generationSeq < maxGeneration) : GetsThrough
    (enqueueNewVectorGeneration held contentHash fingerprint expectedDimensions current now)
    before := by
  refine recover_completes.through fun _ middle restored => ?_
  have still : ∀ entry ∈ liveEntries middle, entry.generationSeq < maxGeneration := by
    intro entry member
    obtain ⟨twin, inLive, same⟩ := restored.live entry (.of_mem member)
    simp only [queueEntryKey, Prod.mk.injEq] at same
    rw [← same.2.1]
    exact live twin inLive
  have next : GetsThrough (nextGenerationSeqLocked current) middle := by
    refine look (bind (require ?_) fun _ _ => ok)
    exact decide_eq_true (foldl_generation_lt below still)
  exact bind next fun _ _ => bind append_through fun _ _ => ok

theorem ensure_through {document : RetrievalDocument} (unexhausted : Unexhausted before) :
    GetsThrough (ensureVectorPendingLocked runtime held document fingerprint now intent) before := by
  have persisted := (@persist_completes _ _ _ before intent)
  refine load_through ?_
  split
  · split
    · exact ok
    · refine bind hasLive_through fun live middle => ?_
      split
      · exact ok
      · exact persist_completes.through fun _ _ _ => bind copy_through fun _ _ =>
          ok
    · split
      · exact ok
      · exact persisted.through fun _ _ _ => bind copy_through fun _ _ =>
          bind write fun _ _ => ok
  · refine persisted.through fun _ middle live => ?_
    refine bind (enqueueNew_through ?_ ?_) fun _ _ =>
      bind write fun _ _ => ok
    · cases here : before.state with
      | none => simp [maxGeneration]
      | some state => exact unexhausted.state state here
    · rw [live]
      exact unexhausted.live

end

theorem drain_through {name : Nat} (untaken : ∀ batch ∈ before.inflight, batch.name ≠ name) :
    GetsThrough (drainQueueEntries held name) before := by
  refine recover_completes.through fun _ middle restored => look ?_
  refine bind (require ?_) fun _ _ => ?_
  · simpa using fun batch member => untaken batch (restored.fewer batch member)
  · split
    · exact ok
    · exact bind write fun _ _ => ok

theorem prepare_completes {document : RetrievalDocument}
    (present : before.document = some document) :
    Completes (prepareQueueEntry runtime fingerprint entry now later) before
      fun _ => Restated before := by
  have same : Restated before before := ⟨before.state, rfl⟩
  refine document_completes present ?_
  dsimp only
  split
  · exact Completes.ok same
  refine load_completes ?_
  split
  · split <;> exact Completes.ok same
  refine Completes.bind (stateIf_completes same) fun _ created restated => ?_
  split
  · exact Completes.ok restated
  split
  · exact Completes.ok restated
  split
  · exact Completes.bind (state_completes restated) fun _ _ ended => Completes.ok ended
  refine Completes.bind (stateIf_completes restated) fun _ advanced moved => ?_
  split
  · split
    · exact Completes.bind (state_completes moved) fun _ _ ended => Completes.ok ended
    · exact Completes.ok moved
  · split <;> exact Completes.ok moved

omit [LinearOrder Stamp] in
theorem complete_completes {document : RetrievalDocument}
    {state : VectorState Fingerprint Scalar Stamp} {embedded : Except Text (List Scalar)}
    {dimensionError : Nat → Nat → Text} {completedAt : Stamp}
    (present : before.document = some document) (here : before.state = some state) :
    Completes (completeQueueEntry runtime fingerprint entry embedded dimensionError completedAt now)
      before fun _ => Restated before := by
  have same : Restated before before := ⟨before.state, rfl⟩
  refine document_completes present ?_
  dsimp only
  split
  · exact Completes.ok same
  refine load_completes ?_
  rw [here]
  dsimp only
  split
  · exact Completes.ok same
  split
  all_goals exact Completes.bind (state_completes same) fun _ _ ended => Completes.ok ended

theorem finish_through {name : Nat} {retries : Queue Fingerprint Stamp} :
    GetsThrough (finishInFlightQueue name retries) before := by
  refine look ?_
  split
  · exact write
  · exact bind write fun _ _ => write

theorem recoverIntent_through (unexhausted : Unexhausted before) :
    GetsThrough (recoverVectorTargetIntent runtime held fingerprint now) before := by
  refine look ?_
  split
  · exact ok
  · exact write
  · split
    · exact write
    · split
      · exact ok
      · exact bind (ensure_through unexhausted) fun _ _ => write

end

variable {label : VectorLabel Fingerprint Scalar Stamp}

variable {middle last : PublishedSystem Fingerprint Scalar Stamp}

section

variable {dimensionError : Nat → Nat → Text} {published : PublishedSystem Fingerprint Scalar Stamp}
  {document : RetrievalDocument} {answers : Nat → Except Text (List Scalar)}

def TargetStep (runtime : VectorRuntime Scalar Stamp) (dimensionError : Nat → Nat → Text)
    (earlier : PublishedSystem Fingerprint Scalar Stamp)
    (label : VectorLabel Fingerprint Scalar Stamp)
    (later : PublishedSystem Fingerprint Scalar Stamp) : Prop :=
  label.Meets runtime earlier ∧ earlier.apply runtime dimensionError label = some later

variable {last : PublishedSystem Fingerprint Scalar Stamp}

theorem keeps_trace (run : Trace (TargetStep runtime dimensionError) published labels last)
    (keeps : KeepsTarget runtime published) : KeepsTarget runtime last := by
  induction run with
  | nil => exact keeps
  | snoc _ step ih => exact keeps_step ih step.1 step.2

def VectorLabel.OfWorker (answers : Nat → Except Text (List Scalar)) (now : Stamp)
    (fingerprint : Fingerprint) : VectorLabel Fingerprint Scalar Stamp → Prop
  | .recoverIntent other time _ => other = fingerprint ∧ time = now
  | .drain other _ _ => other = fingerprint
  | .prepare index _ first second _ => index = 0 ∧ first = now ∧ second = now
  | .complete index place embedded first second _ =>
    index = 0 ∧ embedded = answers place ∧ first = now ∧ second = now
  | .finish index _ => index = 0
  | _ => False

def Passes (runtime : VectorRuntime Scalar Stamp) (dimensionError : Nat → Nat → Text)
    (answers : Nat → Except Text (List Scalar)) (now : Stamp) (fingerprint : Fingerprint) (first last : PublishedSystem Fingerprint Scalar Stamp) : Prop :=
  ∃ labels, Trace (TargetStep runtime dimensionError) first labels last ∧
    ∀ label ∈ labels, label.OfWorker answers now fingerprint

theorem Passes.refl : Passes runtime dimensionError answers now fingerprint published published :=
  ⟨[], Trace.nil _, nofun⟩

theorem Passes.trans
    (first : Passes runtime dimensionError answers now fingerprint published middle)
    (second : Passes runtime dimensionError answers now fingerprint middle last) :
    Passes runtime dimensionError answers now fingerprint published last := by
  obtain ⟨labels, run, ofWorker⟩ := first
  obtain ⟨more, rest, still⟩ := second
  exact ⟨labels ++ more, run.append rest, fun label member =>
    (mem_append.mp member).elim (ofWorker label) (still label)⟩

theorem Passes.keeps (passes : Passes runtime dimensionError answers now fingerprint published last)
    (keeps : KeepsTarget runtime published) : KeepsTarget runtime last :=
  passes.elim fun _ run => keeps_trace run.1 keeps

theorem Passes.step
    {next : PublishedSystem Fingerprint Scalar Stamp} (meets : label.Meets runtime published)
    (taken : published.apply runtime dimensionError label = some next)
    (ofWorker : label.OfWorker answers now fingerprint) :
    Passes runtime dimensionError answers now fingerprint published next := by
  refine ⟨[label], Trace.single ⟨meets, taken⟩, fun other member => ?_⟩
  cases mem_singleton.mp member
  exact ofWorker

structure Reaches (runtime : VectorRuntime Scalar Stamp) (dimensionError : Nat → Nat → Text)
    (answers : Nat → Except Text (List Scalar)) (now : Stamp) (fingerprint : Fingerprint) (first last : PublishedSystem Fingerprint Scalar Stamp) : Prop where
  passes : Passes runtime dimensionError answers now fingerprint first last
  target : last.target = first.target
  store : Restated first.system.store last.system.store

theorem Reaches.refl : Reaches runtime dimensionError answers now fingerprint published published :=
  ⟨.refl, rfl, published.system.store.state, rfl⟩

theorem Reaches.trans
    (first : Reaches runtime dimensionError answers now fingerprint published middle)
    (second : Reaches runtime dimensionError answers now fingerprint middle last) :
    Reaches runtime dimensionError answers now fingerprint published last := by
  obtain ⟨_, same⟩ := first.store
  obtain ⟨state, later⟩ := second.store
  exact ⟨first.passes.trans second.passes, second.target.trans first.target, state, by
    rw [later, same]⟩

theorem Reaches.keeps
    (reaches : Reaches runtime dimensionError answers now fingerprint published last)
    (keeps : KeepsTarget runtime published) : KeepsTarget runtime last :=
  reaches.passes.keeps keeps

theorem Reaches.same_document
    (reaches : Reaches runtime dimensionError answers now fingerprint published last) :
    last.system.store.document = published.system.store.document := by
  obtain ⟨state, same⟩ := reaches.store
  rw [same]

section

variable {worker : VectorWorker Fingerprint Stamp} {place : Nat}

theorem reaches_step (meets : label.Meets runtime published)
    (taken : published.system.apply runtime dimensionError label = some system)
    (ofWorker : label.OfWorker answers now fingerprint)
    (targets : ∀ document fingerprint now fates, label ≠ .publish document fingerprint now fates)
    (restated : Restated published.system.store system.store) :
    Reaches runtime dimensionError answers now fingerprint published ⟨system, published.target⟩ := by
  refine ⟨.step meets ?_ ofWorker, rfl, restated⟩
  cases label with
  | publish document fingerprint now fates =>
    exact absurd rfl (targets document fingerprint now fates)
  | _ => simp [PublishedSystem.apply, taken]

theorem complete_pass {searchText : Text}
    (keeps : KeepsTarget runtime published) (workers : published.system.workers = [worker])
    (isTask : worker.tasks[place]? = some ⟨entry, .embedding searchText⟩)
    (isDocument : published.system.store.document = some document) :
    ∃ last outcome, Reaches runtime dimensionError answers now worker.fingerprint published last ∧
      last.system.workers =
        [setPhase worker place (.finished (some outcome))] := by
  have isWorker : published.system.workers[0]? = some worker := by simp [workers]
  have task := keeps.sound.tasks worker (mem_of_getElem? isWorker) _
    (mem_of_getElem? isTask)
  obtain ⟨state, here, _⟩ := task.reached searchText rfl
  obtain ⟨count, outcome, store, restated, runs⟩ :=
    @complete_completes _ _ _ runtime published.system.store entry worker.fingerprint now _
      document state (answers place) dimensionError now isDocument here
  have taken : ∃ returned, published.system.apply runtime dimensionError
      (.complete 0 place (answers place) now now (replicate count .done ++ [])) =
      some ⟨store, [setPhase worker place (.finished (some outcome))], returned⟩ := by
    generalize answers place = answer at runs
    cases answer with
    | ok vector | error summary => exact ⟨_, by
        simp only [apply, isWorker, isTask, runs, settle]
        rw [workers]
        rfl⟩
  obtain ⟨returned, taken⟩ := taken
  have meets : VectorLabel.Meets runtime published
      (.complete 0 place (answers place) now now (replicate count .done ++ [])) := trivial
  exact ⟨_, outcome, reaches_step meets taken ⟨rfl, rfl, rfl, rfl⟩ nofun restated, rfl⟩

theorem prepare_pass
    (keeps : KeepsTarget runtime published) (workers : published.system.workers = [worker])
    (isTask : worker.tasks[place]? = some ⟨entry, .waiting⟩)
    (isDocument : published.system.store.document = some document)
    (isTarget : published.target = some worker.fingerprint) :
    ∃ last outcome, Reaches runtime dimensionError answers now worker.fingerprint published last ∧
      last.system.workers =
        [setPhase worker place (.finished (some outcome))] := by
  have isWorker : published.system.workers[0]? = some worker := by simp [workers]
  obtain ⟨count, result, store, restated, runs⟩ :=
    @prepare_completes _ _ _ runtime published.system.store entry worker.fingerprint now now _ _
      document isDocument
  have meets : VectorLabel.Meets runtime published
      (.prepare 0 place now now (replicate count .done ++ [])) := by
    intro found task current state target isFound _ _ _ _ _ _ same _
    cases isWorker.symm.trans isFound
    exact Option.some.inj (same.symm.trans isTarget)
  cases result with
  | inl outcome =>
    have taken : published.system.apply runtime dimensionError
        (.prepare 0 place now now (replicate count .done ++ [])) =
        some ⟨store, [setPhase worker place (.finished (some outcome))],
          published.system.returned⟩ := by
      simp only [apply, isWorker, isTask, runs, settle]
      rw [workers]
      rfl
    exact ⟨_, outcome, reaches_step meets taken ⟨rfl, rfl, rfl⟩ nofun restated, rfl⟩
  | inr searchText =>
    have taken : published.system.apply runtime dimensionError
        (.prepare 0 place now now (replicate count .done ++ [])) =
        some ⟨store, [setPhase worker place (.embedding searchText)],
          published.system.returned⟩ := by
      simp only [apply, isWorker, isTask, runs, settle]
      rw [workers]
      rfl
    have reaches : Reaches runtime dimensionError answers now worker.fingerprint published ⟨_, published.target⟩ :=
      reaches_step meets taken ⟨rfl, rfl, rfl⟩ nofun restated
    obtain ⟨last, outcome, rest, done⟩ := @complete_pass _ _ _ runtime entry now _ _
      dimensionError _ document answers
      (setPhase worker place (.embedding searchText)) place searchText (reaches.keeps keeps) rfl (by simp [setPhase, isTask])
      (reaches.same_document.trans isDocument)
    refine ⟨last, outcome, reaches.trans rest, done.trans ?_⟩
    simp [setPhase, modify_modify_eq, Function.comp_def]

def WorkedUpTo (worker : VectorWorker Fingerprint Stamp) (place : Nat) : Prop :=
  ∀ position task, worker.tasks[position]? = some task →
    (position < place → ∃ outcome, task.phase = .finished (some outcome)) ∧
      (place ≤ position → task.phase = .waiting)

omit [DecidableEq Fingerprint] [LinearOrder Stamp] in
theorem WorkedUpTo.next (worked : WorkedUpTo worker place) :
    WorkedUpTo (setPhase worker place (.finished (some outcome))) (place + 1) := by
  intro position task found
  simp only [setPhase, List.getElem?_modify] at found
  obtain ⟨old, isOld, rfl⟩ := Option.map_eq_some_iff.mp found
  have before := worked position old isOld
  by_cases here : place = position
  · simp only [here, if_true]
    exact ⟨fun _ => ⟨outcome, rfl⟩, fun beyond => by omega⟩
  · simp only [here, if_false]
    exact ⟨fun below => before.1 (by omega), fun beyond => before.2 (by omega)⟩

theorem tasks_pass {count : Nat}
    (rest : worker.tasks.length = place + count) (worked : WorkedUpTo worker place)
    (keeps : KeepsTarget runtime published) (workers : published.system.workers = [worker])
    (isDocument : published.system.store.document = some document)
    (isTarget : published.target = some worker.fingerprint) :
    ∃ last final, Reaches runtime dimensionError answers now worker.fingerprint published last ∧
      last.system.workers = [final] ∧ final.fingerprint = worker.fingerprint ∧
      final.batch = worker.batch ∧
      ∀ task ∈ final.tasks, ∃ outcome, task.phase = .finished (some outcome) := by
  induction count generalizing place worker published with
  | zero =>
    refine ⟨published, worker, .refl, workers, rfl, rfl, fun task member => ?_⟩
    obtain ⟨position, found⟩ := mem_iff_getElem?.mp member
    have inside := (List.getElem?_eq_some_iff.mp found).1
    exact (worked position task found).1 (by omega)
  | succ count ih =>
    obtain ⟨⟨entry, phase⟩, isTask⟩ : ∃ task, worker.tasks[place]? = some task :=
      ⟨_, List.getElem?_eq_getElem (by omega)⟩
    obtain rfl : phase = .waiting := (worked place _ isTask).2 le_rfl
    have turn : ∃ last outcome, Reaches runtime dimensionError answers now worker.fingerprint published last ∧
        last.system.workers =
          [setPhase worker place (.finished (some outcome))] :=
      prepare_pass keeps workers isTask isDocument isTarget
    obtain ⟨middle, outcome, reaches, isNext⟩ := turn
    have length : (setPhase worker place
        (.finished (some outcome))).tasks.length = place + 1 + count := by
      simp only [setPhase, length_modify]
      omega
    obtain ⟨last, final, goesOn, isFinal, model, batch, finished⟩ := ih length worked.next
      (reaches.keeps keeps) isNext (reaches.same_document.trans isDocument)
      (reaches.target.trans isTarget)
    exact ⟨last, final, reaches.trans goesOn, isFinal, model, batch, finished⟩

end

theorem recover_pass (keeps : KeepsTarget runtime published) (alone : published.system.workers = [])
    (isDocument : published.system.store.document = some document)
    (isTarget : published.target = some fingerprint)
    (clean : published.system.store.intent = some (intentFor runtime document fingerprint) →
      Clean [] published.system.store)
    (unexhausted : Unexhausted published.system.store) :
    ∃ last, Passes runtime dimensionError answers now fingerprint published last ∧
      last.system.workers = [] ∧ last.target = some fingerprint ∧
      last.system.store.document = some document ∧
      last.system.store.intent ≠ some (intentFor runtime document fingerprint) := by
  have held : published.system.held = [] := by simp [VectorSystem.held, alone]
  have meets : ∀ fates, VectorLabel.Meets runtime published (.recoverIntent fingerprint now fates) := by
    intro fates current isCurrent isIntent
    cases isDocument.symm.trans isCurrent
    rw [held]
    refine ⟨clean isIntent, ?_, fun other isOther => ?_⟩
    · intro state _ _ _ entry member _
      rcases queued_live.mp (.of_mem member) with pending | ⟨batch, inFlight, queued⟩
      · exact .inl (.inl pending)
      · exact .inl (.inr ⟨batch, inFlight, by simp, queued⟩)
    · exact Option.some.inj (isOther.symm.trans isTarget)
  have triple := @triple_recoverIntent _ _ _ _ runtime _ _ _ _ fingerprint now _ keeps.remembered
    (meets [])
  obtain ⟨count, _, store, recovered, runs⟩ := (recoverIntent_through unexhausted).completes triple
  have taken : published.apply runtime dimensionError
      (.recoverIntent fingerprint now (replicate count .done ++ [])) =
      some ⟨{ published.system with store }, published.target⟩ := by
    simp only [PublishedSystem.apply, apply, runs]
    rfl
  have stays := recovered.document.trans isDocument
  exact ⟨_, .step (meets _) taken ⟨rfl, rfl⟩, alone, isTarget, stays, recovered.recovered document stays⟩

theorem drain_pass (alone : published.system.workers = []) :
    ∃ last, Passes runtime dimensionError answers now fingerprint published last ∧
      last.target = published.target ∧
      last.system.store.document = published.system.store.document ∧
      last.system.store.intent = published.system.store.intent ∧
      Emptied last.system.held last.system.store ∧
      (last.system.workers = [] ∨ ∃ worker, last.system.workers = [worker] ∧
        worker.fingerprint = fingerprint ∧ WorkedUpTo worker 0) := by
  obtain ⟨name, isNew⟩ := Infinite.exists_notMem_finset
    (published.system.store.inflight.map (·.name)).toFinset
  have untaken : ∀ batch ∈ published.system.store.inflight, batch.name ≠ name := by
    rintro batch member rfl
    exact isNew (mem_toFinset.mpr (mem_map_of_mem member))
  obtain ⟨count, result, store, ended, runs⟩ :=
    (@drain_through _ _ _ published.system.held _ _ _ _ untaken).completes triple_drain
  have meets : VectorLabel.Meets runtime published
      (.drain fingerprint name (replicate count .done ++ [])) := trivial
  cases result with
  | none =>
    obtain ⟨requeued, emptied⟩ := ended
    have taken : published.apply runtime dimensionError
        (.drain fingerprint name (replicate count .done ++ [])) =
        some ⟨{ published.system with store }, published.target⟩ := by
      simp only [PublishedSystem.apply, apply, runs]
      rfl
    exact ⟨_, .step meets taken rfl, rfl, requeued.document, requeued.intent, emptied,
      Or.inl alone⟩
  | some entries =>
    have taken : published.apply runtime dimensionError
        (.drain fingerprint name (replicate count .done ++ [])) =
        some ⟨{ published.system with
          store
          workers := published.system.workers ++
            [⟨fingerprint, name, entries.map fun entry => ⟨entry, .waiting⟩⟩] },
          published.target⟩ := by
      simp only [PublishedSystem.apply, apply, runs]
      rfl
    refine ⟨_, .step meets taken rfl, rfl, ended.document, ended.intent, ?_, .inr
      ⟨_, by rw [alone]; rfl, rfl, ?_⟩⟩
    · simpa [VectorSystem.held, alone] using ended.emptied
    · intro position task found
      simp only [List.getElem?_map, Option.map_eq_some_iff] at found
      obtain ⟨entry, _, rfl⟩ := found
      exact ⟨fun before => absurd before (Nat.not_lt_zero position), fun _ => rfl⟩

theorem finish_pass {worker : VectorWorker Fingerprint Stamp}
    (workers : published.system.workers = [worker])
    (finished : worker.tasks.all VectorTask.isFinished = true) :
    ∃ last, Passes runtime dimensionError answers now fingerprint published last ∧
      last.system.workers = [] ∧ last.system.store.state = published.system.store.state := by
  have isWorker : published.system.workers[0]? = some worker := by simp [workers]
  obtain ⟨count, _, store, same, runs⟩ := (@finish_through _ _ _ published.system.store _ _
    worker.batch ((worker.tasks.filter VectorTask.retries).map (·.entry))).completes
      (fixed_finish.weaken (fun _ same => congrArg _ same) fun _ _ fixed => fixed)
  have meets : VectorLabel.Meets runtime published
      (.finish 0 (replicate count .done ++ [])) := trivial
  have taken : published.apply runtime dimensionError (.finish 0 (replicate count .done ++ [])) =
      some ⟨{ published.system with store, workers := published.system.workers.eraseIdx 0 },
        published.target⟩ := by
    simp only [PublishedSystem.apply, apply, isWorker, finished, runs]
    rfl
  exact ⟨_, .step meets taken rfl, by simp [workers], same⟩

theorem worker_pass (keeps : KeepsTarget runtime published) (alone : published.system.workers = [])
    (isDocument : published.system.store.document = some document)
    (isTarget : published.target = some fingerprint)
    (clean : published.system.store.intent = some (intentFor runtime document fingerprint) →
      Clean [] published.system.store)
    (unexhausted : Unexhausted published.system.store) :
    ∃ last, Passes runtime dimensionError answers now fingerprint published last ∧
      last.system.workers = [] ∧ ∃ state, last.system.store.state = some state ∧
        vectorStateMatches state (runtime.searchTextHash document.searchText) fingerprint = true ∧
        (state.status = .ready ∨ state.status = .failed) := by
  obtain ⟨first, toFirst, stillAlone, firstTarget, firstDocument, recovered⟩ :=
    @recover_pass _ _ _ runtime _ now _ _ dimensionError _ document answers keeps alone isDocument isTarget
      clean unexhausted
  obtain ⟨second, toSecond, sameTarget, sameDocument, sameIntent, emptied, worker⟩ :=
    @drain_pass _ _ _ runtime fingerprint now _ _ dimensionError first answers stillAlone
  have secondKeeps := (toFirst.trans toSecond).keeps keeps
  have secondTarget := sameTarget.trans firstTarget
  have secondDocument := sameDocument.trans firstDocument
  rw [← sameIntent] at recovered
  rcases worker with none | ⟨worker, isWorker, rfl, waiting⟩
  · have worked : WorkedThrough runtime document fingerprint second :=
      ⟨recovered, emptied, by simp [none]⟩
    exact ⟨second, toFirst.trans toSecond, none, secondKeeps.settled secondDocument secondTarget worked⟩
  · obtain ⟨third, final, reaches, isFinal, model, batch, finished⟩ :=
      @tasks_pass _ _ _ runtime now _ _ dimensionError second document answers worker 0 _
        (Nat.zero_add _).symm waiting secondKeeps isWorker secondDocument secondTarget
    have worked : WorkedThrough runtime document worker.fingerprint third := by
      obtain ⟨state, restated⟩ := reaches.store
      refine ⟨by rw [restated]; exact recovered, ?_, ?_⟩
      · have sameHeld : third.system.held = second.system.held := by
          simp [VectorSystem.held, isFinal, isWorker, batch]
        rw [sameHeld, restated]
        exact ⟨emptied.drained, emptied.taken⟩
      · intro other member
        rw [isFinal] at member
        cases mem_singleton.mp member
        exact ⟨model, finished⟩
    obtain ⟨state, here, matched, settled⟩ := (reaches.keeps secondKeeps).settled
      (reaches.same_document.trans secondDocument) (reaches.target.trans secondTarget) worked
    have all : final.tasks.all VectorTask.isFinished = true := by
      refine all_eq_true.mpr fun task member => ?_
      obtain ⟨outcome, isPhase⟩ := finished task member
      simp [VectorTask.isFinished, isPhase]
    obtain ⟨last, toLast, nobody, same⟩ :=
      @finish_pass _ _ _ runtime worker.fingerprint now _ _ dimensionError third answers final isFinal
        all
    exact ⟨last, ((toFirst.trans toSecond).trans reaches.passes).trans toLast, nobody, state,
      same.trans here, matched, settled⟩

/-- In a run that keeps off the branches that forget a target, the last published one is always on
disk; once the queue is worked through it is ready or failed, and a worker of its fingerprint alone,
without another query, gets there. -/
theorem published_targets_are_remembered {labels : List (VectorLabel Fingerprint Scalar Stamp)}
    (run : Trace (TargetStep runtime dimensionError) PublishedSystem.initial labels published) :
    Remembers runtime published ∧
    ∀ document fingerprint, published.system.store.document = some document →
      published.target = some fingerprint →
      (WorkedThrough runtime document fingerprint published →
        ∃ state, published.system.store.state = some state ∧
          vectorStateMatches state (runtime.searchTextHash document.searchText) fingerprint = true ∧
          (state.status = .ready ∨ state.status = .failed)) ∧
      (published.system.workers = [] →
        (published.system.store.intent = some (intentFor runtime document fingerprint) →
          Clean [] published.system.store) →
        Unexhausted published.system.store → ∀ answers (now : Stamp), ∃ last,
          Passes runtime dimensionError answers now fingerprint published last ∧ last.system.workers = [] ∧
          ∃ state, last.system.store.state = some state ∧
            vectorStateMatches state (runtime.searchTextHash document.searchText) fingerprint = true ∧
            (state.status = .ready ∨ state.status = .failed)) := by
  have keeps := keeps_trace run .initial
  refine ⟨keeps.remembers, fun document fingerprint isDocument isTarget => ⟨?_, ?_⟩⟩
  · exact keeps.settled isDocument isTarget
  · intro alone clean unexhausted answers now
    exact worker_pass keeps alone isDocument isTarget clean unexhausted

end

def forgettingLabels : List (VectorLabel Nat Nat Nat) :=
  [.publish firstDocument (some 7) 0 (replicate 9 .done),
    .drain 7 0 (replicate 9 .done),
    .publish secondDocument none 1 (replicate 9 .done),
    .prepare 0 0 2 2 (replicate 9 .done),
    .publish firstDocument (some 7) 3 (replicate 9 .done),
    .finish 0 (replicate 9 .done)]

def forgetfulSystem : PublishedSystem Nat Nat Nat :=
  (Trace.execute (PublishedSystem.apply plainRuntime fun _ _ => []) .initial
    forgettingLabels).getD .initial

theorem trusted_entry_is_dropped :
    Trace (fun earlier label later => PublishedSystem.apply plainRuntime (fun _ _ => []) earlier
      label = some later) PublishedSystem.initial forgettingLabels forgetfulSystem ∧
    forgetfulSystem.system.workers = [] ∧ ¬Remembers plainRuntime forgetfulSystem := by
  refine ⟨Trace.of_execute rfl, rfl, fun remembers => ?_⟩
  rcases remembers firstDocument 7 rfl rfl with intent | ⟨state, here, _, settled⟩ | live
  · nomatch intent
  · cases here
    rcases settled with ready | failed
    · nomatch ready
    · nomatch failed
  · obtain ⟨entry, member, _⟩ := live
    nomatch member

/-- The same text in another document. -/
def rescopedDocument : RetrievalDocument := ⟨['s'], ['a'], [], []⟩

def republishing : List (VectorLabel Nat Nat Nat) :=
  [.publish firstDocument (some 7) 0 (replicate 9 .done), .drain 7 0 (replicate 9 .done),
    .publish rescopedDocument (some 7) 1 (replicate 9 .done), .crash 0]

def publishedAfter (count : Nat) : PublishedSystem Nat Nat Nat :=
  (Trace.execute (PublishedSystem.apply plainRuntime fun _ _ => []) .initial
    (republishing.take count)).getD .initial

theorem republishing_run : Trace (TargetStep plainRuntime fun _ _ => []) PublishedSystem.initial
    republishing (publishedAfter 4) := by
  have first : TargetStep plainRuntime (fun _ _ => []) .initial republishing[0]
      (publishedAfter 1) := by
    refine ⟨⟨fun _ _ _ isDocument => ?_, fun _ _ => ⟨.inl rfl, fun _ present => ?_⟩⟩, rfl⟩
    · nomatch isDocument
    · nomatch present
  have drained : TargetStep plainRuntime (fun _ _ => []) (publishedAfter 1) republishing[1]
      (publishedAfter 2) := ⟨trivial, rfl⟩
  -- the entry in flight is still to be worked on
  have again : TargetStep plainRuntime (fun _ _ => []) (publishedAfter 2) republishing[2]
      (publishedAfter 3) := by
    refine ⟨⟨fun interrupted => ?_, ?_⟩, rfl⟩
    · exact absurd interrupted.2.2 (by simp [replicate])
    · rintro target ⟨⟩
      refine ⟨.inl rfl, ?_⟩
      rintro state ⟨⟩ _ _ entry member _
      cases mem_singleton.mp member
      exact .inr ⟨_, mem_cons_self, _, mem_cons_self, trivial, rfl⟩
  have crashed : TargetStep plainRuntime (fun _ _ => []) (publishedAfter 3) republishing[3]
      (publishedAfter 4) := ⟨trivial, rfl⟩
  exact (((Trace.single first).snoc drained).snoc again).snoc crashed

theorem republished_target_is_remembered :
    (publishedAfter 4).target = some 7 ∧ Remembers plainRuntime (publishedAfter 4) ∧
    ∃ last, Passes plainRuntime (fun _ _ => []) (fun _ => .ok [1]) 1 7 (publishedAfter 4) last ∧
      last.system.workers = [] ∧ ∃ state, last.system.store.state = some state ∧
        vectorStateMatches state (plainRuntime.searchTextHash rescopedDocument.searchText) 7 = true ∧
        (state.status = .ready ∨ state.status = .failed) := by
  obtain ⟨remembers, each⟩ := published_targets_are_remembered republishing_run
  obtain ⟨_, passes⟩ := each rescopedDocument 7 rfl rfl
  refine ⟨rfl, remembers, passes rfl nofun ⟨?_, ?_⟩ (fun _ => .ok [1]) 1⟩
  · rintro state ⟨⟩
    decide
  · intro entry member
    cases mem_singleton.mp member
    decide

end AgentClaimNetwork.Router
