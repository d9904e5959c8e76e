import AgentClaimNetwork.Router.VectorSafety

/-!
Whole runs over the vector files of one claim: the stored generation only rises, and a ready
vector is the one of its hash and fingerprint.
-/

namespace AgentClaimNetwork.Router

open Library Durable List
open VectorSystem (apply initial setPhase settle)

variable {Fingerprint Scalar Stamp : Type} {runtime : VectorRuntime Scalar Stamp}
  {returned : List (Fingerprint × Text × List Scalar)}
  {state : VectorState Fingerprint Scalar Stamp} {store : VectorStore Fingerprint Scalar Stamp}
  {system next : VectorSystem Fingerprint Scalar Stamp} {worker : VectorWorker Fingerprint Stamp}
  {dimensionError : Nat → Nat → Text}

section

variable {Result : Type}

theorem Genuine.extended
    (genuine : Genuine runtime returned state) : Genuine runtime (returned ++ more) state := by
  intro ready
  obtain ⟨fingerprint, searchText, vector, model, holds, hash, answered, rest⟩ := genuine ready
  exact ⟨fingerprint, searchText, vector, model, holds, hash, mem_append_left more answered,
    rest⟩

theorem SoundState.extended {state : Option (VectorState Fingerprint Scalar Stamp)}
    (sound : SoundState runtime returned floor state) :
    SoundState runtime (returned ++ more) floor state where
  genuine present isPresent := (sound.genuine present isPresent).extended
  reached := sound.reached

structure Risen (runtime : VectorRuntime Scalar Stamp)
    (returned : List (Fingerprint × Text × List Scalar))
    (earlier later : VectorStore Fingerprint Scalar Stamp) : Prop where
  sound : SoundState runtime returned none later.state
  rises : ∀ least, Reached least earlier.state → Reached least later.state

theorem sound_with_floor (sound : SoundState runtime returned none store.state)
    (reached : Reached least store.state) : SoundStore runtime returned (some least) store where
  genuine := sound.genuine
  reached _ isLeast := by
    cases isLeast
    exact reached

theorem risen_of_triple (triple : ∀ floor, Keeps (SoundStore runtime returned floor) program)
    (sound : SoundState runtime returned none store.state) (fates : List Fate) :
    Risen runtime returned store (program store fates).store where
  sound := (triple none).ends fates sound
  rises least reached :=
    ((triple (some least)).ends fates (sound_with_floor sound reached)).reached least rfl

theorem risen_of_section (triple : ∀ floor present, SoundState runtime returned floor present →
      Triple (Fixed present) program (fun _ => SoundStore runtime returned floor)
        (SoundStore runtime returned floor))
    (sound : SoundState runtime returned none store.state) (fates : List Fate) :
    Risen runtime returned store (program store fates).store :=
  risen_of_triple (fun floor => sound_section (triple floor)) sound fates

theorem risen_of_fixed (fixed : ∀ present, Keeps (Fixed present) program)
    (sound : SoundState runtime returned none store.state) :
    Risen runtime returned store (program store fates).store :=
  risen_of_section (fun _ present sound => sound_fixed sound (fixed present)) sound fates

end

variable {workers : List (VectorWorker Fingerprint Stamp)}

section

theorem mem_modify {Item : Type} {change : Item → Item} {items : List Item} {item : Item}
    (member : item ∈ items.modify index change) :
    item ∈ items ∨ ∃ old, items[index]? = some old ∧ item = change old := by
  obtain ⟨position, found⟩ := mem_iff_getElem?.mp member
  rw [List.getElem?_modify] at found
  obtain ⟨old, isOld, same⟩ := Option.map_eq_some_iff.mp found
  split at same
  · rename_i here
    cases here
    exact Or.inr ⟨old, isOld, same.symm⟩
  · cases same
    exact Or.inl (mem_of_getElem? isOld)

structure SoundTask (runtime : VectorRuntime Scalar Stamp)
    (state : Option (VectorState Fingerprint Scalar Stamp)) (fingerprint : Fingerprint)
    (task : VectorTask Fingerprint Stamp) : Prop where
  embeds : ∀ searchText, task.phase = .embedding searchText →
    Embeds runtime fingerprint task.entry searchText
  reached : ∀ searchText, task.phase = .embedding searchText →
    Reached task.entry.generationSeq state

structure SoundSystem (runtime : VectorRuntime Scalar Stamp)
    (system : VectorSystem Fingerprint Scalar Stamp) : Prop where
  store : SoundState runtime system.returned none system.store.state
  tasks : ∀ worker ∈ system.workers, ∀ task ∈ worker.tasks,
    SoundTask runtime system.store.state worker.fingerprint task

variable {task : VectorTask Fingerprint Stamp}

theorem SoundTask.rise {state later : Option (VectorState Fingerprint Scalar Stamp)}
    {fingerprint : Fingerprint}
    (sound : SoundTask runtime state fingerprint task)
    (rises : ∀ least, Reached least state → Reached least later) :
    SoundTask runtime later fingerprint task where
  embeds := sound.embeds
  reached searchText embedding := rises _ (sound.reached searchText embedding)

theorem SoundSystem.initial :
    SoundSystem runtime (initial : VectorSystem Fingerprint Scalar Stamp) where
  store := ⟨nofun, nofun⟩
  tasks := nofun

section

variable (sound : SoundSystem runtime system)
include sound

theorem SoundSystem.after (risen : Risen runtime system.returned system.store store)
    (fewer : ∀ worker ∈ workers, worker ∈ system.workers) :
    SoundSystem runtime { system with store, workers } where
  store := risen.sound
  tasks worker member task inTasks :=
    (sound.tasks worker (fewer worker member) task inTasks).rise risen.rises

theorem SoundSystem.settled
    (isWorker : system.workers[index]? = some worker) (isTask : worker.tasks[place]? = some task)
    (risen : Risen runtime system.returned system.store store) {phase : TaskPhase}
    (embeds : ∀ searchText, phase = .embedding searchText →
      Embeds runtime worker.fingerprint task.entry searchText ∧
        Reached task.entry.generationSeq store.state) :
    SoundSystem runtime
      { system with
        store
        workers := system.workers.modify index fun worker =>
          setPhase worker place phase } where
  store := risen.sound
  tasks other member item inTasks := by
    rcases mem_modify member with same | ⟨old, isOld, rfl⟩
    · exact (sound.tasks other same item inTasks).rise risen.rises
    · cases isWorker.symm.trans isOld
      rcases mem_modify inTasks with same | ⟨old, isOld, rfl⟩
      · exact (sound.tasks worker (mem_of_getElem? isWorker) item same).rise risen.rises
      · cases isTask.symm.trans isOld
        exact ⟨fun text same => (embeds text same).1, fun text same => (embeds text same).2⟩

theorem SoundSystem.settle
    (isWorker : system.workers[index]? = some worker) (isTask : worker.tasks[place]? = some task)
    {Result : Type} {ended : Outcome (VectorStore Fingerprint Scalar Stamp) Result}
    {phase : Result → TaskPhase}
    (risen : Risen runtime system.returned system.store ended.store)
    (embeds : ∀ result store fates, ended = .value result store fates →
      ∀ searchText, phase result = .embedding searchText →
        Embeds runtime worker.fingerprint task.entry searchText ∧
          Reached task.entry.generationSeq store.state) :
    SoundSystem runtime (settle system index place ended phase) := by
  cases ended with
  | value result store fates =>
    exact sound.settled isWorker isTask risen (embeds result store fates rfl)
  | error store fates => exact sound.settled isWorker isTask risen nofun
  | stopped store => exact sound.after risen fun _ => mem_of_mem_eraseIdx

theorem SoundSystem.answer (answers : List (Fingerprint × Text × List Scalar)) :
    SoundSystem runtime { system with returned := system.returned ++ answers } where
  store := sound.store.extended
  tasks := sound.tasks

end

theorem settle_store {Result : Type} {phase : Result → TaskPhase}
    {ended : Outcome (VectorStore Fingerprint Scalar Stamp) Result} :
    (settle system index place ended phase).store = ended.store := by
  cases ended <;> rfl

end

section

structure StepSound (runtime : VectorRuntime Scalar Stamp)
    (earlier later : VectorSystem Fingerprint Scalar Stamp) : Prop where
  sound : SoundSystem runtime later
  rises : ∀ least, Reached least earlier.store.state → Reached least later.store.state

theorem StepSound.of_counted (step : StepSound runtime { system with returned := returned } next) :
    StepSound runtime system next :=
  ⟨step.sound, step.rises⟩

variable (sound : SoundSystem runtime system)

include sound

theorem sound_section_step {store : VectorStore Fingerprint Scalar Stamp}
    (risen : Risen runtime system.returned system.store store)
    (fewer : ∀ worker ∈ workers, worker ∈ system.workers) :
    StepSound runtime system { system with store, workers } :=
  ⟨sound.after risen fewer, risen.rises⟩

variable {fates : List Fate} {embedded : Except Text (List Scalar)} {completedAt now : Stamp}
  [DecidableEq Fingerprint]

theorem sound_answer_step {task : VectorTask Fingerprint Stamp}
    (isWorker : system.workers[index]? = some worker) (isTask : worker.tasks[place]? = some task)
    {searchText : Text} (embeds : Embeds runtime worker.fingerprint task.entry searchText)
    (answered : ∀ vector, embedded = .ok vector →
      (worker.fingerprint, searchText, vector) ∈ system.returned) :
    StepSound runtime system (settle system index place
      (completeQueueEntry runtime worker.fingerprint task.entry embedded dimensionError
        completedAt now system.store fates) fun outcome => .finished (some outcome)) := by
  have triple : ∀ floor present, SoundState runtime system.returned floor present →
      Triple (Fixed present)
        (completeQueueEntry runtime worker.fingerprint task.entry embedded dimensionError
          completedAt now)
        (fun _ => SoundStore runtime system.returned floor)
        (SoundStore runtime system.returned floor) :=
    fun _ _ present => sound_complete present embeds answered
  have risen := risen_of_section triple sound.store fates
  refine ⟨sound.settle isWorker isTask risen ?_, ?_⟩
  · intro _ _ _ _ _ embedding
    nomatch embedding
  · rw [settle_store]
    exact risen.rises

variable [LinearOrder Stamp]

theorem sound_drain_step {fingerprint : Fingerprint}
    (taken : system.apply runtime dimensionError (.drain fingerprint name fates) = some next) :
    StepSound runtime system next := by
  have risen : Risen runtime system.returned system.store
      (drainQueueEntries system.held name system.store fates).store :=
    risen_of_fixed (fun _ => fixed_drain) sound.store
  unfold apply at taken
  dsimp only at taken
  split at taken
  · rename_i entries store rest ended
    cases taken
    rw [ended] at risen
    refine ⟨⟨risen.sound, ?_⟩, risen.rises⟩
    intro worker member task inTasks
    rcases mem_concat member with old | rfl
    · exact (sound.tasks worker old task inTasks).rise risen.rises
    · obtain ⟨entry, _, rfl⟩ := mem_map.mp inTasks
      exact ⟨nofun, nofun⟩
  · cases taken
    exact sound_section_step sound risen fun _ same => same

theorem sound_prepare_step {now later : Stamp}
    (taken : system.apply runtime dimensionError (.prepare index place now later fates) =
      some next) :
    StepSound runtime system next := by
  unfold apply at taken
  dsimp only at taken
  split at taken
  · nomatch taken
  rename_i worker isWorker
  split at taken
  · rename_i entry isTask
    cases taken
    have triple : ∀ floor, Triple (SoundStore runtime system.returned floor)
        (prepareQueueEntry runtime worker.fingerprint entry now later)
        (Prepared runtime system.returned floor worker.fingerprint entry)
        (SoundStore runtime system.returned floor) :=
      fun floor => sound_section fun _ => sound_prepare
    have risen := risen_of_triple
      (fun floor => (triple floor).weaken (fun _ same => same) fun _ _ prepared => prepared.1)
      sound.store fates
    refine ⟨sound.settle isWorker isTask risen ?_, ?_⟩
    · intro result store rest ended searchText embedding
      have ends := triple none system.store fates sound.store
      rw [ended] at ends
      refine ends.2 searchText ?_
      split at embedding
      · nomatch embedding
      · cases embedding
        rfl
    · rw [settle_store]
      exact risen.rises
  · nomatch taken

theorem sound_complete_step (taken : system.apply runtime dimensionError
      (.complete index place embedded completedAt now fates) = some next) :
    StepSound runtime system next := by
  unfold apply at taken
  dsimp only at taken
  split at taken
  · nomatch taken
  rename_i worker isWorker
  split at taken
  · rename_i entry searchText isTask
    have embeds := (sound.tasks worker (mem_of_getElem? isWorker) _
      (mem_of_getElem? isTask)).embeds searchText rfl
    cases taken
    split
    · rename_i vector
      have counted := sound.answer [(worker.fingerprint, searchText, vector)]
      refine (sound_answer_step counted isWorker isTask embeds ?_).of_counted
      intro other same
      cases same
      exact mem_append_right _ (mem_singleton.mpr rfl)
    · exact sound_answer_step sound isWorker isTask embeds nofun
  · nomatch taken

theorem sound_step (taken : system.apply runtime dimensionError label = some next) :
    StepSound runtime system next := by
  cases label with
  | publish document fingerprint now fates =>
    cases taken
    exact sound_section_step sound
      (risen_of_triple (fun _ => sound_ensureTarget) sound.store fates) fun _ same => same
  | requeueExpected fingerprint expectedContentHash queryDimensions now fates =>
    cases taken
    exact sound_section_step sound
      (risen_of_section (fun _ _ => sound_requeueExpected) sound.store fates) fun _ same => same
  | requeueMismatch fingerprint expectedContentHash queryDimensions now fates =>
    cases taken
    exact sound_section_step sound
      (risen_of_section (fun _ _ => sound_requeueMismatch) sound.store fates) fun _ same => same
  | recoverIntent fingerprint now fates =>
    cases taken
    exact sound_section_step sound
      (risen_of_triple (fun _ => sound_recoverIntent) sound.store fates) fun _ same => same
  | drain fingerprint name fates => exact sound_drain_step sound taken
  | prepare index place now later fates => exact sound_prepare_step sound taken
  | complete index place embedded completedAt now fates => exact sound_complete_step sound taken
  | finish index fates =>
    unfold apply at taken
    dsimp only at taken
    split at taken
    · nomatch taken
    · split at taken
      · cases taken
        exact sound_section_step sound (risen_of_fixed (fun _ => fixed_finish) sound.store)
          fun _ => mem_of_mem_eraseIdx
      · nomatch taken
  | crash index =>
    cases taken
    exact sound_section_step sound ⟨sound.store, fun _ same => same⟩
      fun _ => mem_of_mem_eraseIdx

theorem sound_rest
    (rest : Trace (fun earlier label later => earlier.apply runtime dimensionError label =
      some later) system labels next) :
    StepSound runtime system next := by
  induction rest with
  | nil => exact ⟨sound, fun _ same => same⟩
  | snoc _ taken ih =>
    have step := sound_step ih.sound taken
    exact ⟨step.sound, fun least reached => step.rises least (ih.rises least reached)⟩

omit sound

theorem sound_run
    (run : VectorRun runtime dimensionError labels system) : SoundSystem runtime system :=
  (sound_rest SoundSystem.initial run).sound

end

section

variable {ClaimId : Type} [DecidableEq Fingerprint] {fingerprint : Fingerprint} {score : Nat}

/-- What a hit says of the state that was read. -/
structure Served (runtime : VectorRuntime Scalar Stamp) (queryVector : List Scalar)
    (fingerprint : Fingerprint) (expectedContentHash : Option Text)
    (state : VectorState Fingerprint Scalar Stamp) (score : Nat) : Prop where
  ready : state.status = .ready
  hash : expectedContentHash = some state.contentHash
  model : state.embeddingFingerprint = some fingerprint
  dimensions : state.vectorDimensions = some queryVector.length
  vector : ∃ vector, state.vector = some vector ∧ vector.length = queryVector.length ∧
    runtime.cosineSimilarity queryVector vector = some score

theorem served_of_hit
    (hit : inspectState runtime state queryVector fingerprint expectedContentHash = .hit score) :
    Served runtime queryVector fingerprint expectedContentHash state score := by
  unfold inspectState at hit
  split at hit
  · nomatch hit
  split at hit
  · nomatch hit
  rename_i hash
  split at hit
  · nomatch hit
  rename_i model
  split at hit
  · split at hit
    · nomatch hit
    · nomatch hit
  rename_i ready
  split at hit
  · nomatch hit
  rename_i vector isVector
  split at hit
  · nomatch hit
  rename_i fits
  obtain ⟨ownLength, queryLength⟩ := not_or.mp fits
  have dimensions := not_not.mp queryLength
  split at hit
  · nomatch hit
  rename_i found isScore
  split at hit
  · nomatch hit
  cases hit
  exact ⟨not_not.mp ready, not_not.mp hash, not_not.mp model, dimensions, vector, isVector,
    Option.some.inj ((not_not.mp ownLength).symm.trans dimensions), isScore⟩

variable [LinearOrder ClaimId]

theorem served_of_search (found : searchReadyVectorsForClaims runtime reads queryVector fingerprint
      expectedContentHashes limit = .ok hits) {hit : VectorHit ClaimId} (member : hit ∈ hits) :
    ∃ state, (hit.claimId, state) ∈ reads ∧
      Served runtime queryVector fingerprint (expectedContentHashes hit.claimId) state
        hit.score := by
  unfold searchReadyVectorsForClaims at found
  split at found
  · nomatch found
  cases found
  have sorted := mem_of_mem_take member
  obtain ⟨⟨claimId, state⟩, isRead, inspected⟩ :=
    mem_filterMap.mp ((perm_insertionSort _ _).mem_iff.mp sorted)
  split at inspected
  · rename_i score hits
    cases inspected
    exact ⟨state, isRead, served_of_hit hits⟩
  · nomatch inspected

end

section

theorem overtaken_for_good {system later : VectorSystem Fingerprint Scalar Stamp}
    (sound : SoundSystem runtime system) (step : StepSound runtime system later)
    (isWorker : worker ∈ system.workers) {task : VectorTask Fingerprint Stamp}
    (isTask : task ∈ worker.tasks) (embedding : task.phase = .embedding searchText)
    (stored : system.store.state = some state)
    (overtaken : state.generationSeq ≠ task.entry.generationSeq) :
    ∀ current, later.store.state = some current →
      current.generationSeq ≠ task.entry.generationSeq := by
  intro current isCurrent
  obtain ⟨_, isPresent, atLeast⟩ := (sound.tasks worker isWorker task isTask).reached _ embedding
  cases stored.symm.trans isPresent
  have beyond : Reached (task.entry.generationSeq + 1) system.store.state :=
    ⟨state, stored, Nat.lt_of_le_of_ne atLeast overtaken.symm⟩
  obtain ⟨_, isLater, higher⟩ := step.rises _ beyond
  cases isCurrent.symm.trans isLater
  exact Nat.ne_of_gt higher

variable [DecidableEq Fingerprint] [LinearOrder Stamp] {ClaimId : Type} [LinearOrder ClaimId]

/-- The stored generation never decreases; a ready vector is one that the embedder of its fingerprint
returned for a text of its hash; an answer for another generation than the stored one changes nothing;
and a search serves only ready vectors of the expected hash, the fingerprint and the length. -/
theorem vector_cache_is_never_stale {labels : List (VectorLabel Fingerprint Scalar Stamp)}
    {system : VectorSystem Fingerprint Scalar Stamp}
    (run : VectorRun runtime dimensionError labels system) :
    (∀ more later, Trace (fun earlier label later => earlier.apply runtime dimensionError label =
        some later) system more later →
      (∀ state, system.store.state = some state → ∃ newer, later.store.state = some newer ∧
        state.generationSeq ≤ newer.generationSeq) ∧
      ∀ worker ∈ system.workers, ∀ task ∈ worker.tasks, ∀ searchText,
        task.phase = .embedding searchText → ∀ state, system.store.state = some state →
          state.generationSeq ≠ task.entry.generationSeq →
          ∀ embedded completedAt now fates, (completeQueueEntry runtime worker.fingerprint
            task.entry embedded dimensionError completedAt now later.store fates).store =
              later.store) ∧
    (∀ state, system.store.state = some state → Genuine runtime system.returned state) ∧
    ∀ (reads : List (ClaimId × VectorState Fingerprint Scalar Stamp)) queryVector fingerprint
      expectedContentHashes limit hits,
      searchReadyVectorsForClaims runtime reads queryVector fingerprint expectedContentHashes
        limit = .ok hits →
      ∀ hit ∈ hits, ∃ state, (hit.claimId, state) ∈ reads ∧
        Served runtime queryVector fingerprint (expectedContentHashes hit.claimId) state
          hit.score := by
  have sound := sound_run run
  refine ⟨?_, sound.store.genuine, ?_⟩
  · intro more later rest
    have step := sound_rest sound rest
    refine ⟨fun state stored => step.rises _ ⟨state, stored, le_rfl⟩, ?_⟩
    intro worker isWorker task isTask searchText embedding state stored overtaken _ _ _ _
    exact complete_overtaken
      (overtaken_for_good sound step isWorker isTask embedding stored overtaken)
  · intro reads queryVector fingerprint expectedContentHashes limit hits found hit member
    exact served_of_search found member

end

def plainRuntime : VectorRuntime Nat Nat where
  digest bytes := bytes
  isFinite _ := true
  isNegligible value := value == 0
  cosineSimilarity query vector := some (query.zipWith (· * ·) vector).sum
  retryAt attempts now := now + attempts

def firstDocument : RetrievalDocument := ⟨[], ['a'], [], []⟩

def secondDocument : RetrievalDocument := ⟨[], ['b'], [], []⟩

def overtakingLabels : List (VectorLabel Nat Nat Nat) :=
  [.publish firstDocument (some 7) 0 (replicate 9 .done),
    .drain 7 0 (replicate 9 .done),
    .prepare 0 0 1 1 (replicate 9 .done),
    .publish secondDocument (some 7) 2 (replicate 9 .done)]

def overtakenSystem : VectorSystem Nat Nat Nat :=
  (Trace.execute (apply plainRuntime fun _ _ => []) .initial overtakingLabels).getD
    .initial

theorem overtaken_worker_of_the_first_text :
    ∃ worker ∈ overtakenSystem.workers, ∃ task ∈ worker.tasks, ∃ state,
      task.phase = .embedding ['a'] ∧ overtakenSystem.store.state = some state ∧
      state.generationSeq ≠ task.entry.generationSeq ∧
      ∀ embedded completedAt now fates, (completeQueueEntry plainRuntime worker.fingerprint
        task.entry embedded (fun _ _ => []) completedAt now overtakenSystem.store fates).store =
          overtakenSystem.store := by
  have run : VectorRun plainRuntime (fun _ _ => []) overtakingLabels overtakenSystem :=
    Trace.of_execute rfl
  have cache := @vector_cache_is_never_stale Nat Nat Nat plainRuntime _ _ _ Nat _ _ _ run
  refine ⟨_, mem_cons_self, _, mem_cons_self, _, rfl, rfl, by decide, ?_⟩
  exact (cache.1 [] _ (Trace.nil _)).2 _ mem_cons_self _ mem_cons_self _ rfl _ rfl
    (by decide)

end AgentClaimNetwork.Router
