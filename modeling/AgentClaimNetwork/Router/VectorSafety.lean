import AgentClaimNetwork.Router.VectorWorkers

/-!
The vector of a claim is never stale or mislabelled, whatever publications, searches, recoveries
and workers do to its files and wherever they stop.
-/

namespace AgentClaimNetwork.Router

open Library Durable
open Triple (bail bind given guard look_any ok seq write)

variable {Fingerprint Scalar Stamp : Type} {floor : Option Nat}
  {present : Option (VectorState Fingerprint Scalar Stamp)} {held : List Nat}
  {fingerprint : Fingerprint}

section

variable (runtime : VectorRuntime Scalar Stamp)
  (returned : List (Fingerprint × Text × List Scalar))

def Genuine (state : VectorState Fingerprint Scalar Stamp) : Prop :=
  state.status = .ready → ∃ fingerprint searchText vector,
    state.embeddingFingerprint = some fingerprint ∧ state.vector = some vector ∧
    runtime.searchTextHash searchText = state.contentHash ∧
    (fingerprint, searchText, vector) ∈ returned ∧
    state.vectorDimensions = some vector.length ∧
    ∀ expected, state.expectedDimensions = some expected → expected = vector.length

def Reached (least : Nat) (state : Option (VectorState Fingerprint Scalar Stamp)) : Prop :=
  ∃ present, state = some present ∧ least ≤ present.generationSeq

structure SoundState (floor : Option Nat)
    (state : Option (VectorState Fingerprint Scalar Stamp)) : Prop where
  genuine : ∀ present, state = some present → Genuine runtime returned present
  reached : ∀ least, floor = some least → Reached least state

def SoundStore (floor : Option Nat) (store : VectorStore Fingerprint Scalar Stamp) : Prop :=
  SoundState runtime returned floor store.state

def Fixed (present : Option (VectorState Fingerprint Scalar Stamp))
    (store : VectorStore Fingerprint Scalar Stamp) : Prop :=
  store.state = present

end

section

variable {runtime : VectorRuntime Scalar Stamp} {returned : List (Fingerprint × Text × List Scalar)}
  {Result : Type}

theorem fixed_write (same : ∀ store, (change store).state = store.state) :
    Keeps (Fixed present) (Program.write change) :=
  write (fun _ fixed => fixed) fun store fixed => (same store).trans fixed

theorem fixed_persist : Keeps (Fixed present) (persistVectorTargetIntent intent) := by
  cases intent with
  | none => exact ok fun _ fixed => fixed
  | some intent => exact fixed_write fun _ => rfl

theorem fixed_load {post : Result → VectorStore Fingerprint Scalar Stamp → Prop}
    {crash : VectorStore Fingerprint Scalar Stamp → Prop}
    (rest : Triple (Fixed present) (next present) post crash) :
    Triple (Fixed present) (loadVectorStateOpt >>= next) post crash := by
  intro store fates fixed
  have ends := rest store fates fixed
  rw [← show store.state = present from fixed] at ends
  exact ends

theorem load_same {post : Result → VectorStore Fingerprint Scalar Stamp → Prop}
    {crash : VectorStore Fingerprint Scalar Stamp → Prop}
    (rest : Triple (fun other => other = store) (next store.state) post crash) :
    Triple (fun other => other = store) (loadVectorStateOpt >>= next) post crash := by
  intro other fates same
  cases same
  exact rest store fates rfl

theorem le_foldl_generation (entries : Queue Fingerprint Stamp) (first : Nat) :
    first ≤ entries.foldl (fun highest entry => max highest entry.generationSeq) first := by
  induction entries generalizing first with
  | nil => exact le_rfl
  | cons entry entries ih => exact (le_max_left _ _).trans (ih _)

theorem fixed_next {current : Nat} : Triple (Fixed present) (nextGenerationSeqLocked current)
      (fun generationSeq store => Fixed present store ∧ current < generationSeq)
      (Fixed present) := by
  refine look_any fun seen => ?_
  refine guard (fun _ fixed => fixed) fun _ => ok fun _ fixed => ?_
  exact ⟨fixed, Nat.lt_succ_of_le (le_foldl_generation _ _)⟩

variable {state : VectorState Fingerprint Scalar Stamp}

theorem genuine_unready (unready : state.status ≠ .ready) : Genuine runtime returned state :=
  fun ready => absurd ready unready

theorem unready_choice (condition : Bool) {first second : VectorStatus} (left : first ≠ .ready)
    (right : second ≠ .ready) : (if condition then first else second) ≠ .ready := by
  split
  · exact left
  · exact right

variable (sound : SoundState runtime returned floor present)

include sound

theorem SoundState.replace (genuine : Genuine runtime returned state)
    (higher : ∀ old, present = some old → old.generationSeq ≤ state.generationSeq) :
    SoundState runtime returned floor (some state) where
  genuine other same := by
    cases same
    exact genuine
  reached least isFloor := by
    obtain ⟨old, isOld, low⟩ := sound.reached least isFloor
    exact ⟨state, rfl, low.trans (higher old isOld)⟩

theorem sound_of_fixed
    (store : VectorStore Fingerprint Scalar Stamp) (fixed : Fixed present store) :
    SoundStore runtime returned floor store := by
  unfold SoundStore
  rw [fixed]
  exact sound

omit sound

theorem sound_section {post : Result → VectorStore Fingerprint Scalar Stamp → Prop}
    (each : ∀ present, SoundState runtime returned floor present →
      Triple (Fixed present) program post (SoundStore runtime returned floor)) :
    Triple (SoundStore runtime returned floor) program post
      (SoundStore runtime returned floor) :=
  fun store fates sound => each store.state sound store fates rfl

include sound

theorem sound_fixed (fixed : Keeps (Fixed present) program) :
    Triple (Fixed present) program (fun _ => SoundStore runtime returned floor)
      (SoundStore runtime returned floor) :=
  (fixed.weaken (fun _ fixed => fixed) fun _ store => sound_of_fixed sound store).relax
    (sound_of_fixed sound)

theorem sound_writeVectorState (genuine : Genuine runtime returned state)
    (higher : ∀ old, present = some old → old.generationSeq ≤ state.generationSeq) :
    Triple (Fixed present) (writeVectorState state)
      (fun _ => SoundStore runtime returned floor) (SoundStore runtime returned floor) :=
  write (sound_of_fixed sound) fun _ _ => sound.replace genuine higher

omit sound

theorem fixed_writeVectorState :
    Triple (Fixed present) (writeVectorState state) (fun _ => Fixed (some state))
      (Fixed present) :=
  write (fun _ fixed => fixed) fun _ _ => rfl

theorem fixed_writeVectorState_if {condition : Prop} [Decidable condition]
    (same : ¬condition → present = some state) :
    Triple (Fixed present) (if condition then writeVectorState state else pure ())
      (fun _ => Fixed (some state)) (Fixed present) := by
  split
  · exact fixed_writeVectorState
  · rename_i skipped
    exact ok fun _ fixed => fixed.trans (same skipped)

include sound in
theorem SoundState.orFresh {fresh : VectorState Fingerprint Scalar Stamp}
    (unready : fresh.status ≠ .ready) :
    SoundState runtime returned floor (some (present.getD fresh)) := by
  cases present with
  | none => exact sound.replace (genuine_unready unready) nofun
  | some => exact sound

theorem fixed_created (fresh : VectorState Fingerprint Scalar Stamp) :
    Triple (Fixed present) (if present.isNone then writeVectorState fresh else pure ())
      (fun _ => Fixed (some (present.getD fresh))) (Fixed present) := by
  cases present with
  | none => exact fixed_writeVectorState
  | some => exact ok fun _ fixed => fixed

theorem sound_write (same : ∀ store, (change store).state = store.state) :
    Keeps (SoundStore runtime returned floor) (Program.write change) :=
  sound_section fun _ sound => sound_fixed sound (fixed_write same)

theorem sound_persist :
    Keeps (SoundStore runtime returned floor) (persistVectorTargetIntent intent) :=
  sound_section fun _ sound => sound_fixed sound fixed_persist

theorem sound_attempt (sound : Keeps (SoundStore runtime returned floor) program) :
    Keeps (SoundStore runtime returned floor) (Program.attempt program) :=
  Triple.attempt sound (fun _ _ after => after) fun _ after => after

theorem fixed_append {present : Option (VectorState Fingerprint Scalar Stamp)}
    {entry : VectorQueueEntry Fingerprint Stamp} :
    Keeps (Fixed present) (appendQueueEntryLocked entry) :=
  look_any fun _ => seq (fixed_write fun _ => rfl) fun _ =>
    seq (fixed_write fun _ => rfl) fun _ => fixed_write fun _ => rfl

end

variable {runtime : VectorRuntime Scalar Stamp} {returned : List (Fingerprint × Text × List Scalar)}
  {entry : VectorQueueEntry Fingerprint Stamp} {fresh state : VectorState Fingerprint Scalar Stamp}
  {searchText : Text} {embedded : Except Text (List Scalar)} {dimensionError : Nat → Nat → Text}
  {completedAt now : Stamp}

structure Embeds (runtime : VectorRuntime Scalar Stamp) (fingerprint : Fingerprint)
    (entry : VectorQueueEntry Fingerprint Stamp) (searchText : Text) : Prop where
  hash : runtime.searchTextHash searchText = entry.contentHash
  model : entry.embeddingFingerprint = some fingerprint

/-- What a worker may count on after `prepareQueueEntry`. -/
def Prepared (runtime : VectorRuntime Scalar Stamp)
    (returned : List (Fingerprint × Text × List Scalar)) (floor : Option Nat)
    (fingerprint : Fingerprint) (entry : VectorQueueEntry Fingerprint Stamp)
    (result : QueueEntryOutcome ⊕ Text) (store : VectorStore Fingerprint Scalar Stamp) : Prop :=
  SoundStore runtime returned floor store ∧ ∀ searchText, result = .inr searchText →
    Embeds runtime fingerprint entry searchText ∧ Reached entry.generationSeq store.state

theorem prepared_outcome (sound : SoundState runtime returned floor present) :
    Triple (Fixed present) (pure (.inl outcome))
      (Prepared runtime returned floor fingerprint entry) (SoundStore runtime returned floor) :=
  ok fun store fixed => ⟨sound_of_fixed sound store fixed, nofun⟩

theorem prepared_text {searchText : Text} (embeds : Embeds runtime fingerprint entry searchText)
    (sound : SoundState runtime returned floor (some state))
    (reached : entry.generationSeq ≤ state.generationSeq) :
    Triple (Fixed (some state)) (pure (.inr searchText))
      (Prepared runtime returned floor fingerprint entry) (SoundStore runtime returned floor) := by
  refine ok fun store fixed => ⟨sound_of_fixed sound store fixed, ?_⟩
  intro _ same
  cases same
  exact ⟨embeds, state, fixed, reached⟩

theorem accepted_of_ok
    (accepted : acceptVector runtime dimensionError expectedDimensions embedded = .ok vector) :
    embedded = .ok vector ∧
      ∀ expected, expectedDimensions = some expected → expected = vector.length := by
  unfold acceptVector at accepted
  split at accepted
  · nomatch accepted
  · split at accepted
    · nomatch accepted
    · split at accepted
      · split at accepted
        · nomatch accepted
        · rename_i fits
          cases accepted
          refine ⟨rfl, fun expected same => ?_⟩
          cases same
          exact (not_not.mp fits).symm
      · cases accepted
        exact ⟨rfl, nofun⟩

variable [DecidableEq Fingerprint]

theorem advance_sound (now : Stamp) (sound : SoundState runtime returned floor (some state))
    (older : state.generationSeq ≤ fresh.generationSeq)
    (newer : state.generationSeq ≤ entry.generationSeq) (unready : fresh.status ≠ .ready) :
    SoundState runtime returned floor (some (advanceToEntry state entry fresh now)) := by
  unfold advanceToEntry
  split
  · exact sound
  · split
    · refine sound.replace (genuine_unready nofun) ?_
      intro old isOld
      cases isOld
      exact newer
    · refine sound.replace (genuine_unready unready) ?_
      intro old isOld
      cases isOld
      exact older

theorem advance_generation (now : Stamp) (newer : state.generationSeq ≤ entry.generationSeq)
    (same : fresh.generationSeq = entry.generationSeq) :
    (advanceToEntry state entry fresh now).generationSeq = entry.generationSeq := by
  unfold advanceToEntry
  split
  · rename_i reached
    exact newer.antisymm reached
  · split
    · rfl
    · exact same

theorem matches_generation (matched : ¬vectorStateMatchesQueueEntry state entry = false) :
    state.generationSeq = entry.generationSeq := by
  have both := Bool.eq_true_of_not_eq_false matched
  exact beq_iff_eq.mp (Bool.and_eq_true_iff.mp both).1

theorem sound_complete (sound : SoundState runtime returned floor present)
    (embeds : Embeds runtime fingerprint entry searchText)
    (answered : ∀ vector, embedded = .ok vector → (fingerprint, searchText, vector) ∈ returned) :
    Triple (Fixed present)
      (completeQueueEntry runtime fingerprint entry embedded dimensionError completedAt now)
      (fun _ => SoundStore runtime returned floor) (SoundStore runtime returned floor) := by
  have kept := sound_of_fixed sound
  refine look_any fun seen => ?_
  split
  · exact bail kept
  split
  · exact ok kept
  refine fixed_load ?_
  split
  · exact bail kept
  rename_i current
  split
  · exact ok kept
  rename_i matched
  have generation := matches_generation fun missed => matched (.inl missed)
  have higher : ∀ old, some current = some old → old.generationSeq ≤ entry.generationSeq := by
    intro old isOld
    cases isOld
    exact generation.le
  split
  · exact bind (sound_writeVectorState sound (genuine_unready nofun) higher) fun _ =>
      ok fun _ after => after
  · rename_i vector accepted
    obtain ⟨isAnswer, fits⟩ := accepted_of_ok accepted
    refine bind (sound_writeVectorState sound ?_ higher) fun _ =>
      ok fun _ after => after
    exact fun _ => ⟨fingerprint, searchText, vector, rfl, rfl, embeds.hash,
      answered vector isAnswer, rfl, fits⟩

theorem complete_overtaken (overtaken : ∀ current, store.state = some current →
      current.generationSeq ≠ entry.generationSeq) :
    (completeQueueEntry runtime fingerprint entry embedded dimensionError completedAt now store
      fates).store = store := by
  have unchanged : Triple (fun other => other = store)
      (completeQueueEntry runtime fingerprint entry embedded dimensionError completedAt now)
      (fun _ other => other = store) (fun other => other = store) := by
    refine look_any fun seen => ?_
    split
    · exact bail fun _ same => same
    split
    · exact ok fun _ same => same
    refine load_same ?_
    split
    · exact bail fun _ same => same
    rename_i current isCurrent
    split
    · exact ok fun _ same => same
    rename_i matched
    have generation := matches_generation fun missed => matched (.inl missed)
    exact absurd generation (overtaken current isCurrent)
  exact unchanged.ends fates rfl

variable [LinearOrder Stamp]

theorem fixed_recover : Keeps (Fixed present) (recoverStaleInFlightLocked held) := by
  refine look_any fun seen => ?_
  dsimp only
  split
  · exact ok fun _ fixed => fixed
  · exact seq (fixed_write fun _ => rfl) fun _ =>
      Triple.forAll_keeps fun batch _ => fixed_write fun _ => rfl

theorem fixed_enqueueNew : Triple (Fixed present)
      (enqueueNewVectorGeneration held contentHash fingerprint expectedDimensions current now)
      (fun generationSeq store => Fixed present store ∧ current < generationSeq)
      (Fixed present) := by
  refine seq fixed_recover fun _ => bind fixed_next fun generationSeq => ?_
  refine given fun higher => seq fixed_append fun _ => ?_
  exact ok fun _ fixed => ⟨fixed, higher⟩

theorem fixed_reserve : Triple (Fixed present) (reserveNewVectorGeneration held current)
      (fun generationSeq store => Fixed present store ∧ current < generationSeq)
      (Fixed present) :=
  seq fixed_recover fun _ => fixed_next

theorem fixed_allocate (enqueues : Bool) : Triple (Fixed present) (if enqueues then
        enqueueNewVectorGeneration held contentHash fingerprint expectedDimensions current now
      else reserveNewVectorGeneration held current)
      (fun generationSeq store => Fixed present store ∧ current < generationSeq)
      (Fixed present) := by
  split
  · exact fixed_enqueueNew
  · exact fixed_reserve

theorem fixed_hasLive : Keeps (Fixed present)
    (hasLiveQueueEntry held contentHash fingerprint expectedDimensions generationSeq) :=
  seq fixed_recover fun _ => look_any fun _ => ok fun _ fixed => fixed

theorem fixed_copy : Keeps (Fixed present)
    (enqueueVectorPendingCopy held contentHash fingerprint expectedDimensions generationSeq now) := by
  refine seq fixed_recover fun _ => look_any fun seen => ?_
  split
  · exact ok fun _ fixed => fixed
  · exact fixed_append

theorem fixed_drain : Keeps (Fixed present) (drainQueueEntries held name) := by
  refine seq fixed_recover fun _ => look_any fun seen => ?_
  refine guard (fun _ fixed => fixed) fun _ => ?_
  split
  · exact ok fun _ fixed => fixed
  · exact seq (fixed_write fun _ => rfl) fun _ => ok fun _ fixed => fixed

theorem fixed_finish : Keeps (Fixed present) (finishInFlightQueue name retries) := by
  refine look_any fun seen => ?_
  split
  · exact fixed_write fun _ => rfl
  · exact seq (fixed_write fun _ => rfl) fun _ => fixed_write fun _ => rfl

theorem sound_ensurePending (sound : SoundState runtime returned floor present) :
    Triple (Fixed present)
      (ensureVectorPendingLocked runtime held document fingerprint now intent)
      (fun _ => SoundStore runtime returned floor) (SoundStore runtime returned floor) := by
  have kept := sound_of_fixed sound
  refine fixed_load ?_
  split
  · rename_i state found
    obtain ⟨isPresent, _⟩ := Option.filter_eq_some_iff.mp found
    split
    · exact ok fun _ => kept _
    · refine bind (fixed_hasLive.relax kept) fun live => ?_
      split
      · exact ok fun _ => kept _
      · exact bind ((fixed_persist).relax kept) fun _ =>
          bind (fixed_copy.relax kept) fun _ => ok fun _ => kept _
    · split
      · exact ok fun _ => kept _
      · refine bind ((fixed_persist).relax kept) fun _ =>
          bind (fixed_copy.relax kept) fun _ =>
            bind (sound_writeVectorState sound (genuine_unready nofun) ?_) fun _ =>
              ok fun _ after => after
        intro old isOld
        cases isPresent.symm.trans isOld
        exact le_rfl
  · refine bind ((fixed_persist).relax kept) fun _ =>
      bind (fixed_enqueueNew.relax kept) fun generationSeq =>
        given fun higher =>
          bind (sound_writeVectorState sound (genuine_unready nofun) ?_) fun _ =>
            ok fun _ after => after
    intro old isOld
    rw [isOld] at higher
    exact higher.le

theorem sound_ensureTarget : Keeps (SoundStore runtime returned floor)
    (ensureRetrievalTargetLocked runtime held document target now) := by
  refine look_any fun seen => ?_
  refine seq (sound_attempt ?_) fun anchored => ?_
  · split
    · exact sound_persist
    · exact ok fun _ sound => sound
  · split
    · exact ok fun _ sound => sound
    · refine seq ?_ fun _ => ?_
      · split
        · exact sound_write fun _ => rfl
        · exact ok fun _ sound => sound
      · split
        · exact ok fun _ sound => sound
        · refine seq (sound_attempt (sound_section fun _ => sound_ensurePending))
            fun ensured => ?_
          split
          · exact seq (sound_attempt (sound_write fun _ => rfl)) fun _ =>
              ok fun _ sound => sound
          · exact seq (sound_attempt sound_persist) fun _ =>
              ok fun _ sound => sound

theorem sound_recoverIntent : Keeps (SoundStore runtime returned floor)
    (recoverVectorTargetIntent runtime held fingerprint now) := by
  refine look_any fun seen => ?_
  split
  · exact ok fun _ sound => sound
  · exact sound_write fun _ => rfl
  · split
    · exact sound_write fun _ => rfl
    · split
      · exact ok fun _ sound => sound
      · exact seq (sound_section fun _ => sound_ensurePending) fun _ =>
          sound_write fun _ => rfl

theorem sound_requeueExpected (sound : SoundState runtime returned floor present) :
    Triple (Fixed present)
      (requeueExpectedDimensionChange runtime held fingerprint expectedContentHash
        queryDimensions now)
      (fun _ => SoundStore runtime returned floor) (SoundStore runtime returned floor) := by
  have kept := sound_of_fixed sound
  refine look_any fun seen => guard kept fun _ => ?_
  split
  · exact ok kept
  · refine fixed_load ?_
    split
    · exact ok kept
    · rename_i current
      split
      · exact ok kept
      · rename_i stays
        have unready : current.status ≠ .ready := fun ready => stays (.inl ready)
        refine bind ((fixed_allocate _).relax kept) fun generationSeq =>
          given fun higher => sound_writeVectorState sound (genuine_unready ?_) ?_
        · refine unready_choice _ nofun ?_
          rw [apply_ite VectorState.status]
          exact unready_choice _ nofun unready
        · intro old isOld
          cases isOld
          exact higher.le

theorem sound_requeueMismatch (sound : SoundState runtime returned floor present) :
    Triple (Fixed present)
      (requeueDimensionMismatch runtime held fingerprint expectedContentHash queryDimensions now)
      (fun _ => SoundStore runtime returned floor) (SoundStore runtime returned floor) := by
  have kept := sound_of_fixed sound
  refine look_any fun seen => guard kept fun _ => ?_
  split
  · exact ok kept
  · refine fixed_load ?_
    split
    · exact ok kept
    · rename_i current
      split
      · exact ok kept
      · split
        · exact ok kept
        · refine bind (fixed_enqueueNew.relax kept) fun generationSeq =>
            given fun higher => sound_writeVectorState sound (genuine_unready nofun) ?_
          intro old isOld
          cases isOld
          exact higher.le

theorem sound_prepare (sound : SoundState runtime returned floor present) :
    Triple (Fixed present) (prepareQueueEntry runtime fingerprint entry now later)
      (Prepared runtime returned floor fingerprint entry) (SoundStore runtime returned floor) := by
  have kept := sound_of_fixed sound
  refine look_any fun seen => ?_
  dsimp only
  split
  · exact bail kept
  rename_i document _
  split
  · exact prepared_outcome sound
  rename_i hashed
  refine fixed_load ?_
  split
  · split
    all_goals exact prepared_outcome sound
  rename_i modelled
  have embeds : Embeds runtime fingerprint entry document.searchText :=
    ⟨not_not.mp hashed, not_not.mp modelled⟩
  generalize isFresh : VectorState.newPending (runtime.searchTextHash document.searchText)
    fingerprint entry.expectedDimensions entry.generationSeq now = fresh
  have freshUnready : fresh.status ≠ .ready := by
    rw [← isFresh]
    nofun
  have freshGeneration : fresh.generationSeq = entry.generationSeq := by
    rw [← isFresh]
    rfl
  refine bind ((fixed_created fresh).relax kept) fun _ => ?_
  have sound := sound.orFresh freshUnready
  generalize present.getD fresh = state at sound ⊢
  split
  · exact prepared_outcome sound
  rename_i newer
  have newer := Nat.le_of_not_lt newer
  split
  · exact prepared_outcome sound
  split
  · rename_i failed
    refine bind (fixed_writeVectorState.relax (sound_of_fixed sound)) fun _ =>
      prepared_outcome (sound.replace (genuine_unready ?_) ?_)
    · intro ready
      exact nomatch failed.2.2.1.symm.trans ready
    · intro old isOld
      cases isOld
      exact newer
  refine bind ((fixed_writeVectorState_if ?_).relax (sound_of_fixed sound)) fun _ => ?_
  · intro reached
    exact congrArg some (if_pos (Nat.le_of_not_lt reached)).symm
  have generation := advance_generation now newer freshGeneration
  have sound := advance_sound now sound (newer.trans freshGeneration.ge) newer freshUnready
  generalize advanceToEntry state entry fresh now = advanced at generation sound ⊢
  split
  · split
    · refine bind (fixed_writeVectorState.relax (sound_of_fixed sound)) fun _ =>
        prepared_text embeds (sound.replace (genuine_unready freshUnready) ?_) freshGeneration.ge
      intro old isOld
      cases isOld
      exact (generation.trans freshGeneration.symm).le
    · exact prepared_outcome sound
  · split
    · exact prepared_outcome sound
    · exact prepared_text embeds sound generation.ge

end AgentClaimNetwork.Router
