import AgentClaimNetwork.Router.VectorTargetPublishing

/-!
A worker's sections on an entry keep the target of the document, and the entry is dropped only where
the target does not need it.
-/

namespace AgentClaimNetwork.Router

open Library Durable
open Triple (bail bind ok)

variable {Fingerprint Scalar Stamp : Type} [DecidableEq Fingerprint]
  {runtime : VectorRuntime Scalar Stamp} {held : List Nat}
  {carried fewer : VectorQueueEntry Fingerprint Stamp → Prop}
  {before : VectorStore Fingerprint Scalar Stamp} {target : Option Fingerprint}
  {state fresh : VectorState Fingerprint Scalar Stamp}
  {entry other : VectorQueueEntry Fingerprint Stamp} {contentHash : Text}
  {fingerprint : Fingerprint}

section

omit [DecidableEq Fingerprint] in
theorem Wanted.of_key (wanted : Wanted state contentHash fingerprint other)
    (same : queueEntryKey entry = queueEntryKey other) :
    Wanted state contentHash fingerprint entry := by
  simp only [queueEntryKey, Prod.mk.injEq] at same
  obtain ⟨hash, generation, model, dimensions⟩ := same
  refine ⟨hash.trans wanted.contentHash, model.trans wanted.fingerprint, ?_⟩
  rw [generation, dimensions]
  exact wanted.current

theorem Remembered.drop (remembered : Remembered runtime held carried target before)
    (dropped : ∀ other, carried other → fewer other ∨ queueEntryKey entry = queueEntryKey other)
    (unwanted : ∀ document fingerprint state, before.document = some document →
      before.state = some state →
      vectorStateMatches state (runtime.searchTextHash document.searchText) fingerprint = true →
      ¬Wanted state (runtime.searchTextHash document.searchText) fingerprint entry) :
    Remembered runtime held fewer target before := by
  intro document fingerprint present isTarget
  rcases remembered document fingerprint present isTarget with intent | ⟨state, here, matched, left⟩
  · exact .inl intent
  · refine .inr ⟨state, here, matched, left.imp_right ?_⟩
    rintro ⟨other, wanted, onDisk | inWorker⟩
    · exact ⟨other, wanted, .inl onDisk⟩
    · rcases dropped other inWorker with kept | same
      · exact ⟨other, wanted, .inr kept⟩
      · exact absurd (wanted.of_key same) (unwanted document fingerprint state present here matched)

theorem Remembered.settled (remembered : Remembered runtime held carried target before)
    (here : before.state = some state) (unpending : state.status ≠ .pending) :
    Remembered runtime held fewer target before :=
  remembered.replace here rfl rfl here rfl rfl fun _ _ _ => .inl unpending

theorem overtaken_unwanted (matched : vectorStateMatches state contentHash fingerprint = true)
    (overtaken : entry.generationSeq < state.generationSeq ∨
      state.generationSeq = entry.generationSeq ∧
        vectorStateTargetMatchesQueueEntry state entry = false) :
    ¬Wanted state contentHash fingerprint entry := by
  rintro ⟨hash, model, current⟩
  simp only [vectorStateMatches, Bool.and_eq_true, beq_iff_eq] at matched
  rcases overtaken with behind | ⟨same, mismatch⟩
  · omega
  · have dimensions : state.expectedDimensions = entry.expectedDimensions :=
      (current.resolve_left (by omega)).2
    simp [vectorStateTargetMatchesQueueEntry, matched.1, matched.2, hash, model, dimensions] at mismatch

theorem discarded_unwanted {present : Option (VectorState Fingerprint Scalar Stamp)}
    (discarded : discards present entry = true) (here : present = some state)
    (matched : vectorStateMatches state contentHash fingerprint = true) :
    ¬Wanted state contentHash fingerprint entry := by
  rw [discards, here, Option.any_some, Bool.or_eq_true] at discarded
  exact overtaken_unwanted matched
    (discarded.imp of_decide_eq_true fun both => by simpa using both)

theorem targetMatches_iff : vectorStateTargetMatchesQueueEntry state entry = true ↔
    state.contentHash = entry.contentHash ∧
      state.embeddingFingerprint = entry.embeddingFingerprint ∧
      state.expectedDimensions = entry.expectedDimensions := by
  simp [vectorStateTargetMatchesQueueEntry, and_assoc]

end

section

variable {now : Stamp} {document : RetrievalDocument}

theorem bindsUnknown_same (binds : bindsUnknownDimension state entry = true) :
    state.contentHash = entry.contentHash ∧
      state.embeddingFingerprint = entry.embeddingFingerprint := by
  simp only [bindsUnknownDimension, Bool.and_eq_true, beq_iff_eq] at binds
  exact ⟨binds.1.1.1.2, binds.1.1.2⟩

theorem advance_matches (isFresh : vectorStateTargetMatchesQueueEntry fresh entry = true)
    (newer : state.generationSeq ≤ entry.generationSeq)
    (same : ¬(state.generationSeq = entry.generationSeq ∧
      vectorStateTargetMatchesQueueEntry state entry = false)) :
    vectorStateTargetMatchesQueueEntry (advanceToEntry state entry fresh now) entry = true := by
  unfold advanceToEntry
  split
  · rename_i reached
    exact Bool.eq_true_of_not_eq_false fun mismatch => same ⟨by omega, mismatch⟩
  · split
    · rename_i binds
      exact targetMatches_iff.mpr ⟨(bindsUnknown_same binds).1, (bindsUnknown_same binds).2, rfl⟩
    · exact isFresh

theorem left_of_entry (inWorker : carried entry)
    (isTarget : vectorStateTargetMatchesQueueEntry next entry = true)
    (generation : next.generationSeq = entry.generationSeq)
    (matched : vectorStateMatches next contentHash fingerprint = true) :
    next.status ≠ .pending ∨ ∃ entry, Wanted next contentHash fingerprint entry ∧
      (OnDisk held store entry ∨ carried entry) := by
  obtain ⟨hash, model, dimensions⟩ := targetMatches_iff.mp isTarget
  simp only [vectorStateMatches, Bool.and_eq_true, beq_iff_eq] at matched
  exact .inr ⟨entry, ⟨hash.symm.trans matched.1, model.symm.trans matched.2,
    Or.inr ⟨generation, dimensions⟩⟩, .inr inWorker⟩

theorem advance_remembered (remembered : Remembered runtime held carried target before)
    (here : before.state = some state) (present : before.document = some document)
    (inWorker : carried entry)
    (isFresh : vectorStateTargetMatchesQueueEntry fresh entry = true)
    (freshMatches : vectorStateMatches fresh (runtime.searchTextHash document.searchText)
      fingerprint = true)
    (freshGeneration : fresh.generationSeq = entry.generationSeq)
    (only : state.generationSeq < entry.generationSeq → ∀ other, target = some other →
      before.intent ≠ some (intentFor runtime document other) → other = fingerprint) :
    Remembered runtime held carried target
      { before with state := some (advanceToEntry state entry fresh now) } := by
  unfold advanceToEntry
  split
  · rw [← here]
    exact remembered
  rename_i older
  split
  · rename_i binds
    obtain ⟨hash, model⟩ := bindsUnknown_same binds
    exact remembered.replace here rfl rfl rfl rfl rfl fun _ _ matched =>
      left_of_entry inWorker (targetMatches_iff.mpr ⟨hash, model, rfl⟩) rfl matched
  · intro current other isCurrent isTarget
    cases present.symm.trans isCurrent
    by_cases intent : before.intent = some (intentFor runtime document other)
    · exact .inl intent
    · cases only (Nat.lt_of_not_le older) other isTarget intent
      exact .inr ⟨fresh, rfl, freshMatches,
        left_of_entry inWorker isFresh freshGeneration freshMatches⟩

end

variable {now completedAt : Stamp} {present : Option (VectorState Fingerprint Scalar Stamp)}

def leftAfter (carried fewer : VectorQueueEntry Fingerprint Stamp → Prop)
    (entry : VectorQueueEntry Fingerprint Stamp) (fingerprint : Fingerprint)
    (result : QueueEntryOutcome ⊕ Text) (other : VectorQueueEntry Fingerprint Stamp) : Prop :=
  match result with
  | .inr _ => carried other
  | .inl .requeueForMatchingWorker =>
    carried other ∧ entry.embeddingFingerprint ≠ some fingerprint
  | .inl _ => fewer other

variable (remembered : Remembered runtime held carried target { before with state := present })

include remembered

theorem kept_of_state :
    ∀ store, store = { before with state := present } →
      Kept runtime held carried target before store := by
  rintro store rfl
  exact ⟨fun _ member _ => member, remembered⟩

theorem triple_state {next : VectorState Fingerprint Scalar Stamp} :
    Triple (fun store => store = { before with state := present }) (writeVectorState next)
      (fun _ store => store = { before with state := some next })
      (Kept runtime held carried target before) := by
  refine Triple.write (kept_of_state remembered) ?_
  rintro store rfl
  rfl

theorem triple_created :
    Triple (fun store => store = { before with state := present })
      (if present.isNone then writeVectorState fresh else pure ())
      (fun _ store => store = { before with state := some (present.getD fresh) })
      (Kept runtime held carried target before) := by
  cases present with
  | none => exact triple_state remembered
  | some state => exact ok fun _ same => same

theorem Remembered.orFresh :
    Remembered runtime held carried target { before with state := some (present.getD fresh) } := by
  cases present with
  | some state => exact remembered
  | none =>
    intro document fingerprint isDocument isTarget
    rcases remembered document fingerprint isDocument isTarget with intent | ⟨state, here, _⟩
    · exact .inl intent
    · nomatch here

omit remembered

theorem triple_state_if {condition : Prop} [Decidable condition]
    (remembered : Remembered runtime held carried target { before with state := some state })
    (same : ¬condition → state = next) :
    Triple (fun store => store = { before with state := some state })
      (if condition then writeVectorState next else pure ())
      (fun _ store => store = { before with state := some next })
      (Kept runtime held carried target before) := by
  split
  · exact triple_state remembered
  · rename_i skipped
    rw [same skipped]
    exact ok fun _ same => same

theorem triple_complete (remembered : Remembered runtime held carried target before)
    (dropped : ∀ other, carried other → fewer other ∨ queueEntryKey entry = queueEntryKey other)
    (model : entry.embeddingFingerprint = some fingerprint)
    (reached : ∀ state, before.state = some state → entry.generationSeq ≤ state.generationSeq) :
    Triple (fun store => store = before)
      (completeQueueEntry runtime fingerprint entry embedded dimensionError completedAt now)
      (fun _ => Kept runtime held fewer target before)
      (Kept runtime held carried target before) := by
  have same : ∀ store, store = before → Kept runtime held carried target before store :=
    kept_of_state remembered
  refine triple_document ?_
  split
  · exact bail same
  rename_i document isDocument
  split
  · rename_i otherHash
    refine ok (kept_of_state (remembered.drop dropped ?_))
    rintro current _ state isCurrent _ _ wanted
    cases isDocument.symm.trans isCurrent
    exact otherHash wanted.contentHash.symm
  refine load_same ?_
  split
  · exact bail same
  rename_i current here
  split
  · rename_i passed
    refine ok (kept_of_state ?_)
    rcases passed with mismatch | ready
    · refine remembered.drop dropped ?_
      intro _ _ state _ isState matched
      cases here.symm.trans isState
      have newer := reached current here
      refine overtaken_unwanted matched ?_
      by_cases generation : current.generationSeq = entry.generationSeq
      · refine .inr ⟨generation, ?_⟩
        simpa [vectorStateMatchesQueueEntry, generation] using mismatch
      · exact .inl (by omega)
    · exact remembered.settled here (by simp [ready])
  rename_i passes
  obtain ⟨matched, _⟩ := not_or.mp passes
  have isTarget : vectorStateTargetMatchesQueueEntry current entry = true :=
    (Bool.and_eq_true_iff.mp (Bool.eq_true_of_not_eq_false matched)).2
  obtain ⟨sameHash, sameModel, _⟩ := targetMatches_iff.mp isTarget
  have answered : ∀ next : VectorState Fingerprint Scalar Stamp,
      next.contentHash = entry.contentHash → next.embeddingFingerprint = some fingerprint →
      next.status ≠ .pending → Triple (fun store => store = before) (writeVectorState next)
        (fun _ => Kept runtime held fewer target before)
        (Kept runtime held carried target before) := by
    intro next hash isModel unpending
    have next_remembered : Remembered runtime held fewer target { before with state := some next } :=
      remembered.replace here rfl rfl rfl (hash.trans sameHash.symm)
        ((isModel.trans model.symm).trans sameModel.symm) fun _ _ _ => .inl unpending
    exact (@triple_state _ _ _ _ _ _ _ before _ before.state remembered next).weaken
      (fun _ same => same) fun _ => kept_of_state next_remembered
  split
  all_goals exact bind (answered _ rfl rfl (by rintro ⟨⟩)) fun _ => ok fun _ kept => kept

variable [LinearOrder Stamp]

theorem triple_prepare (remembered : Remembered runtime held carried target before)
    (inWorker : carried entry)
    (dropped : ∀ other, carried other → fewer other ∨ queueEntryKey entry = queueEntryKey other)
    (only : ∀ document state other, before.document = some document →
      entry.contentHash = runtime.searchTextHash document.searchText →
      entry.embeddingFingerprint = some fingerprint → before.state = some state →
      state.generationSeq < entry.generationSeq → target = some other →
      before.intent ≠ some (intentFor runtime document other) → other = fingerprint) :
    Triple (fun store => store = before)
      (prepareQueueEntry runtime fingerprint entry now later)
      (fun result => Kept runtime held (leftAfter carried fewer entry fingerprint result) target before)
      (Kept runtime held carried target before) := by
  have same : ∀ store, store = before → Kept runtime held carried target before store :=
    kept_of_state remembered
  refine triple_document ?_
  dsimp only
  split
  · exact bail same
  rename_i document isDocument
  split
  · rename_i otherHash
    refine ok (kept_of_state (remembered.drop dropped ?_))
    rintro current _ state isCurrent _ _ wanted
    cases isDocument.symm.trans isCurrent
    exact otherHash wanted.contentHash.symm
  rename_i hash
  have hash := not_not.mp hash
  refine load_same ?_
  split
  · split
    · rename_i discarded
      refine ok (kept_of_state (remembered.drop dropped ?_))
      exact fun _ _ state _ here matched => discarded_unwanted discarded here matched
    · rename_i other _
      exact ok (kept_of_state (remembered.mono fun _ carried => ⟨carried, other⟩))
  rename_i model
  have model := not_not.mp model
  generalize isFresh : VectorState.newPending (runtime.searchTextHash document.searchText)
    fingerprint entry.expectedDimensions entry.generationSeq now = fresh
  have freshTarget : vectorStateTargetMatchesQueueEntry fresh entry = true := by
    rw [← isFresh]
    exact targetMatches_iff.mpr ⟨hash, model.symm, rfl⟩
  have freshMatches : vectorStateMatches fresh (runtime.searchTextHash document.searchText)
      fingerprint = true := by
    rw [← isFresh]
    simp [vectorStateMatches, VectorState.newPending]
  have freshGeneration : fresh.generationSeq = entry.generationSeq := by
    rw [← isFresh]
    rfl
  refine bind (triple_created remembered) fun _ => ?_
  have remembered : Remembered runtime held carried target
      { before with state := some (before.state.getD fresh) } := remembered.orFresh
  have only : (before.state.getD fresh).generationSeq < entry.generationSeq → ∀ other,
      target = some other → before.intent ≠ some (intentFor runtime document other) →
      other = fingerprint := by
    intro older other isTarget missing
    cases here : before.state with
    | none =>
      rw [here, Option.getD_none] at older
      omega
    | some state =>
      rw [here, Option.getD_some] at older
      exact only document state other isDocument hash.symm model here older isTarget missing
  generalize before.state.getD fresh = state at remembered only ⊢
  split
  · rename_i behind
    refine ok (kept_of_state (remembered.drop dropped ?_))
    rintro _ _ _ _ ⟨⟩ matched
    exact overtaken_unwanted matched (.inl behind)
  rename_i newer
  have newer := Nat.le_of_not_lt newer
  split
  · rename_i mismatch
    refine ok (kept_of_state (remembered.drop dropped ?_))
    rintro _ _ _ _ ⟨⟩ matched
    exact overtaken_unwanted matched (.inr mismatch)
  rename_i fits
  split
  · rename_i failed
    refine bind (triple_state remembered) fun _ => ok (kept_of_state ?_)
    refine remembered.replace rfl rfl rfl rfl rfl rfl fun _ _ _ => .inl ?_
    rw [failed.2.2.1]
    rintro ⟨⟩
  have advance : Remembered runtime held carried target
      { before with state := some (advanceToEntry state entry fresh now) } := by
    have advanced := @advance_remembered _ _ _ _ _ _ _ _ _ _ _ _ _ now document remembered rfl
      isDocument inWorker freshTarget freshMatches freshGeneration only
    exact advanced
  have isTarget := @advance_matches _ _ _ _ _ _ _ now freshTarget newer fits
  refine bind (triple_state_if remembered fun reached =>
    (if_pos (Nat.le_of_not_lt reached)).symm) fun _ => ?_
  generalize advanceToEntry state entry fresh now = advanced at advance isTarget ⊢
  obtain ⟨advancedHash, advancedModel, _⟩ := targetMatches_iff.mp isTarget
  obtain ⟨freshHash, freshModel, _⟩ := targetMatches_iff.mp freshTarget
  split
  · rename_i ready
    split
    · refine bind (triple_state advance) fun _ => ok (kept_of_state ?_)
      exact advance.replace rfl rfl rfl rfl (freshHash.trans advancedHash.symm)
        (freshModel.trans advancedModel.symm) fun _ _ matched =>
          left_of_entry inWorker freshTarget freshGeneration matched
    · exact ok (kept_of_state (advance.settled rfl (by simp [ready])))
  · split
    · rename_i failed
      exact ok (kept_of_state (advance.settled rfl (by simp [failed.1])))
    · exact ok (kept_of_state advance)

end AgentClaimNetwork.Router
