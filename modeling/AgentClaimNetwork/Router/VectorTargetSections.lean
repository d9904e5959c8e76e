import AgentClaimNetwork.Router.VectorTargets

/-!
What the sections under the queue lock and the claim lock do to the records of a target: no
section loses an entry.
-/

namespace AgentClaimNetwork.Router

open Library Durable
open Triple (bind known look_known ok write)

variable {Fingerprint Scalar Stamp : Type} {store : VectorStore Fingerprint Scalar Stamp}

variable {carried : VectorQueueEntry Fingerprint Stamp → Prop}

variable {held : List Nat}

section

variable {before middle after : VectorStore Fingerprint Scalar Stamp} {contentHash : Text}

structure Framed (held : List Nat) (before after : VectorStore Fingerprint Scalar Stamp) :
    Prop where
  document : after.document = before.document
  batches : ∀ batch ∈ before.inflight, batch.name ∈ held → batch ∈ after.inflight

theorem Framed.refl : Framed held store store :=
  ⟨rfl, fun _ member _ => member⟩

theorem Framed.trans (first : Framed held before middle) (second : Framed held middle after) :
    Framed held before after where
  document := second.document.trans first.document
  batches batch member isHeld :=
    second.batches batch (first.batches batch member isHeld) isHeld

structure Requeued (held : List Nat) (before after : VectorStore Fingerprint Scalar Stamp) : Prop
    extends Framed held before after where
  intent : after.intent = before.intent
  state : after.state = before.state
  disk : ∀ entry, OnDisk held before entry → OnDisk held after entry

theorem Requeued.refl : Requeued held store store :=
  ⟨.refl, rfl, rfl, fun _ onDisk => onDisk⟩

theorem Requeued.trans (first : Requeued held before middle) (second : Requeued held middle after) :
    Requeued held before after where
  toFramed := first.toFramed.trans second.toFramed
  intent := second.intent.trans first.intent
  state := second.state.trans first.state
  disk entry onDisk := second.disk entry (first.disk entry onDisk)

variable [DecidableEq Fingerprint]

theorem Recorded.mono (recorded : Recorded held carried before contentHash fingerprint)
    (state : after.state = before.state)
    (disk : ∀ entry, OnDisk held before entry → OnDisk held after entry) :
    Recorded held carried after contentHash fingerprint := by
  obtain ⟨stored, here, matched, left⟩ := recorded
  refine ⟨stored, state.trans here, matched, left.imp_right ?_⟩
  rintro ⟨entry, wanted, place⟩
  exact ⟨entry, wanted, place.imp_left (disk entry)⟩

end

variable {before : VectorStore Fingerprint Scalar Stamp}
variable {middle : VectorStore Fingerprint Scalar Stamp}

section

variable {entry : VectorQueueEntry Fingerprint Stamp}

theorem queued_live : Queued (liveEntries store) entry ↔
      Queued (readPending store) entry ∨ ∃ batch ∈ store.inflight, Queued batch.entries entry := by
  rw [liveEntries, queued_append, queued_flatMap]

structure Merged (held : List Nat) (before store : VectorStore Fingerprint Scalar Stamp) : Prop
    extends Framed held before store where
  intent : store.intent = before.intent
  state : store.state = before.state
  fewer : ∀ batch ∈ store.inflight, batch ∈ before.inflight
  tail : store.tail = none
  pending : ∀ entry, Queued (readPending store) entry ↔ OnDisk held before entry

structure Restored (held : List Nat) (before store : VectorStore Fingerprint Scalar Stamp) : Prop
    extends Requeued held before store where
  tail : Clean held before → store.tail = none
  live : ∀ entry, Queued (liveEntries store) entry → Queued (liveEntries before) entry
  fewer : ∀ batch ∈ store.inflight, batch ∈ before.inflight
  taken : ∀ batch ∈ store.inflight, batch.name ∈ held

theorem Merged.requeued (merged : Merged held before store) : Requeued held before store where
  toFramed := merged.toFramed
  intent := merged.intent
  state := merged.state
  disk entry onDisk := .inl ((merged.pending entry).mpr onDisk)

theorem Merged.live (merged : Merged held before store)
    (queued : Queued (liveEntries store) entry) : Queued (liveEntries before) entry := by
  rw [queued_live] at queued ⊢
  rcases queued with pending | ⟨batch, member, queued⟩
  · rcases (merged.pending entry).mp pending with pending | ⟨batch, member, _, queued⟩
    · exact .inl pending
    · exact .inr ⟨batch, member, queued⟩
  · exact .inr ⟨batch, merged.fewer batch member, queued⟩

theorem read_clean (clean : before.tail = none) : readPending before = before.pending.getD [] := by
  unfold readPending
  split <;> simp [*]

theorem triple_append (clean : before.tail = none) :
    Triple (fun store => store = before) (appendQueueEntryLocked entry)
      (fun _ store => Requeued held before store ∧ OnDisk held store entry)
      (Requeued held before) := by
  have started : Requeued held before
      { before with pending := some (before.pending.getD []), tail := some none } :=
    ⟨⟨rfl, fun _ member _ => member⟩, rfl, rfl, fun entry onDisk => by
      rw [OnDisk, read_clean clean] at onDisk
      simpa [OnDisk, readPending] using onDisk⟩
  have lined : Requeued held before
      { before with pending := some (before.pending.getD []), tail := some (some entry) } :=
    ⟨⟨rfl, fun _ member _ => member⟩, rfl, rfl, fun entry onDisk => by
      rw [OnDisk, read_clean clean] at onDisk
      rcases onDisk with queued | stale
      · exact .inl (by simpa [readPending] using Or.inl queued)
      · exact .inr stale⟩
  refine look_known (bind (@write _ _ _ _
    (fun _ store => store = { before with pending := some (before.pending.getD []), tail := some none })
    ?_ ?_) fun _ => bind (@write _ _ _ _
    (fun _ store => store =
      { before with pending := some (before.pending.getD []), tail := some (some entry) })
    ?_ ?_) fun _ => write ?_ ?_)
  · rintro store rfl
    exact .refl
  · rintro store rfl
    rfl
  · rintro store rfl
    exact started
  · rintro store rfl
    simp [clean]
  · rintro store rfl
    exact lined
  · rintro store rfl
    refine ⟨⟨⟨rfl, fun _ member _ => member⟩, rfl, rfl, fun other onDisk => ?_⟩, ?_⟩
    · have onDisk := lined.disk other onDisk
      simpa [OnDisk, readPending] using onDisk
    · exact .inl (by simp [readPending])

def Placed (held : List Nat) (store : VectorStore Fingerprint Scalar Stamp)
    (key : Text × Nat × Option Fingerprint × Option Nat) : Prop :=
  ∃ entry, queueEntryKey entry = key ∧ OnDisk held store entry

theorem triple_append_after (requeued : Requeued held before middle) (clean : middle.tail = none) :
    Triple (fun store => store = middle) (appendQueueEntryLocked entry)
      (fun _ store => Requeued held before store ∧ Placed held store (queueEntryKey entry))
      (Requeued held before) :=
  ((triple_append clean).weaken (fun _ same => same) fun _ _ ⟨moved, onDisk⟩ =>
    ⟨requeued.trans moved, entry, rfl, onDisk⟩).relax fun _ moved => requeued.trans moved

theorem triple_next : Triple (fun store => store = before) (nextGenerationSeqLocked current)
      (fun _ store => store = before) (fun store => store = before) :=
  look_known (Triple.guard (fun _ same => same) fun _ => ok fun _ same => same)

theorem Merged.removed {store : VectorStore Fingerprint Scalar Stamp}
    (merged : Merged held before store) {name : Nat} (stale : name ∉ held) :
    Merged held before
      { store with inflight := store.inflight.filter fun batch => batch.name ≠ name } where
  document := merged.document
  batches := by
    intro batch member isHeld
    refine List.mem_filter.mpr ⟨merged.batches batch member isHeld, ?_⟩
    simpa using fun same : batch.name = name => stale (same ▸ isHeld)
  intent := merged.intent
  state := merged.state
  fewer batch member := merged.fewer batch (List.mem_of_mem_filter member)
  tail := merged.tail
  pending := merged.pending

theorem triple_removals {stale : List (InFlight Fingerprint Stamp)}
    (isStale : ∀ batch ∈ stale, batch.name ∉ held) :
    Triple (Merged held before) (Program.forAll stale fun batch => removeInFlight batch.name)
      (fun _ store => Merged held before store ∧
        ∀ batch ∈ stale, ∀ other ∈ store.inflight, other.name ≠ batch.name)
      (Requeued held before) := by
  have removed : ∀ passed batch, batch ∈ stale → Triple (fun store => Merged held before store ∧
          ∀ old ∈ passed, ∀ other ∈ store.inflight, other.name ≠ old.name)
        (removeInFlight batch.name)
        (fun _ store => Merged held before store ∧
          ∀ old ∈ passed ++ [batch], ∀ other ∈ store.inflight, other.name ≠ old.name)
        (Requeued held before) := by
    intro passed batch listed
    refine write (fun _ both => both.1.requeued) fun store ⟨merged, gone⟩ => ?_
    refine ⟨merged.removed (isStale batch listed), fun old member other inFlight => ?_⟩
    obtain ⟨there, apart⟩ := List.mem_filter.mp inFlight
    rcases mem_concat member with earlier | rfl
    · exact gone old earlier other there
    · simpa using apart
  exact (@Triple.forAll _ _ _ _ (fun done store => Merged held before store ∧
    ∀ old ∈ done, ∀ other ∈ store.inflight, other.name ≠ old.name) [] stale removed).weaken
      (fun _ merged => ⟨merged, nofun⟩) fun _ _ ended => ended

variable [DecidableEq Fingerprint] [LinearOrder Stamp]

theorem merged_write : Merged held before { before with
      pending := some (dedupeQueueEntries
        (dedupeQueueEntries (readPending before) ++
          (before.inflight.filter fun batch => !held.contains batch.name).flatMap fun batch =>
            dedupeQueueEntries batch.entries))
      tail := none } where
  document := rfl
  batches _ member _ := member
  intent := rfl
  state := rfl
  fewer _ member := member
  tail := rfl
  pending entry := by
    simp [readPending, queued_dedupe, queued_flatMap, OnDisk, and_assoc]

theorem triple_recover : Triple (fun store => store = before) (recoverStaleInFlightLocked held)
    (fun _ => Restored held before) (Requeued held before) := by
  have isStale : ∀ batch, batch ∈ before.inflight.filter (fun batch => !held.contains batch.name) ↔
      batch ∈ before.inflight ∧ batch.name ∉ held := by simp
  refine look_known ?_
  dsimp only
  split
  · rename_i nothing
    rw [List.isEmpty_iff] at nothing
    simp only [nothing, List.not_mem_nil, false_iff, not_and, not_not] at isStale
    refine ok ?_
    rintro store rfl
    refine ⟨.refl, ?_, fun _ queued => queued, fun _ member => member, isStale⟩
    rintro (ended | ⟨batch, member, stale⟩)
    · exact ended
    · exact absurd (isStale batch member) stale
  · refine bind (@write _ _ _ _ (fun _ => Merged held before) ?_ ?_) fun _ => ?_
    · rintro store rfl
      exact .refl
    · rintro store rfl
      exact merged_write
    · refine (triple_removals fun batch listed => ((isStale batch).mp listed).2).weaken
        (fun _ merged => merged) fun _ store ⟨merged, gone⟩ => ?_
      refine ⟨merged.requeued, fun _ => merged.tail, fun entry queued => merged.live queued,
        merged.fewer, fun batch member => ?_⟩
      by_contra stale
      exact gone batch ((isStale batch).mpr ⟨merged.fewer batch member, stale⟩) batch member rfl

section

variable {contentHash : Text} {now : Stamp}

theorem triple_hasLive : Triple (fun store => store = before)
    (hasLiveQueueEntry held contentHash fingerprint expectedDimensions generationSeq)
    (fun live store => Requeued held before store ∧ (Clean held before → store.tail = none) ∧
      (live = true → ∃ entry ∈ liveEntries before,
        queueEntryKey entry = (contentHash, generationSeq, some fingerprint, expectedDimensions)))
    (Requeued held before) := by
  refine bind triple_recover fun _ => known fun middle restored =>
    look_known (ok ?_)
  rintro store rfl
  refine ⟨restored.toRequeued, restored.tail, fun found => ?_⟩
  obtain ⟨entry, member, key⟩ := List.any_eq_true.mp found
  obtain ⟨twin, twinMember, same⟩ := restored.live entry (.of_mem member)
  exact ⟨twin, twinMember, same.trans (of_decide_eq_true key)⟩

theorem triple_copy (clean : Clean held before) : Triple (fun store => store = before)
    (enqueueVectorPendingCopy held contentHash fingerprint expectedDimensions generationSeq now)
    (fun _ store => Requeued held before store ∧
      Placed held store (contentHash, generationSeq, some fingerprint, expectedDimensions))
    (Requeued held before) := by
  refine bind triple_recover fun _ => known fun middle restored =>
    look_known ?_
  split
  · rename_i present
    refine ok ?_
    rintro store rfl
    obtain ⟨entry, member, key⟩ := List.any_eq_true.mp present
    exact ⟨restored.toRequeued, entry, of_decide_eq_true key, .inl (.of_mem member)⟩
  · exact triple_append_after restored.toRequeued (restored.tail clean)

theorem triple_enqueueNew (clean : Clean held before) : Triple (fun store => store = before)
      (enqueueNewVectorGeneration held contentHash fingerprint expectedDimensions current now)
      (fun generationSeq store => Requeued held before store ∧
        Placed held store (contentHash, generationSeq, some fingerprint, expectedDimensions))
      (Requeued held before) := by
  refine bind triple_recover fun _ => known fun middle restored => ?_
  have requeued := restored.toRequeued
  refine bind (triple_next.relax fun _ same => same ▸ requeued) fun generationSeq => ?_
  exact bind (triple_append_after requeued (restored.tail clean)) fun _ =>
    ok fun _ ended => ended

theorem triple_reserve : Triple (fun store => store = before)
    (reserveNewVectorGeneration held current) (fun _ => Requeued held before)
    (Requeued held before) := by
  refine bind triple_recover fun _ => known fun middle restored => ?_
  have requeued := restored.toRequeued
  exact (triple_next.weaken (fun _ same => same) fun _ _ same => same ▸ requeued).relax
    fun _ same => same ▸ requeued

end

end

variable {document : RetrievalDocument} {intent : VectorTargetIntent Fingerprint} {now : Stamp}

structure Interim (held : List Nat) (intent : VectorTargetIntent Fingerprint)
    (before store : VectorStore Fingerprint Scalar Stamp) : Prop extends
    Framed held before store where
  anchor : store.intent = some intent ∨ Requeued held before store

theorem Requeued.interim
    (requeued : Requeued held before store) : Interim held intent before store :=
  ⟨requeued.toFramed, .inr requeued⟩

theorem Framed.interim {middle store : VectorStore Fingerprint Scalar Stamp}
    (framed : Framed held before middle)
    (requeued : Requeued held { middle with intent := some intent } store) :
    Interim held intent before store where
  document := requeued.document.trans framed.document
  batches batch member isHeld :=
    requeued.batches batch (framed.batches batch member isHeld) isHeld
  anchor := .inl requeued.intent

theorem triple_load {crash : VectorStore Fingerprint Scalar Stamp → Prop} :
    Triple (fun store => store = before) loadVectorStateOpt
      (fun present store => store = before ∧ present = before.state) crash := by
  refine look_known (ok ?_)
  rintro store rfl
  exact ⟨rfl, rfl⟩

theorem triple_persist (requeued : Requeued held before middle) :
    Triple (fun store => store = middle) (persistVectorTargetIntent (some intent))
      (fun _ store => store = { middle with intent := some intent })
      (Interim held intent before) := by
  refine write ?_ ?_
  · rintro store rfl
    exact requeued.interim
  · rintro store rfl
    rfl

theorem Placed.wanted
    {contentHash : Text}
    (placed : Placed held store (contentHash, generationSeq, some fingerprint, expectedDimensions))
    (generation : state.generationSeq = generationSeq)
    (dimensions : state.expectedDimensions = expectedDimensions) :
    ∃ entry, Wanted state contentHash fingerprint entry ∧ (OnDisk held store entry ∨ carried entry) := by
  obtain ⟨entry, key, onDisk⟩ := placed
  simp only [queueEntryKey, Prod.mk.injEq] at key
  obtain ⟨hash, sameGeneration, model, sameDimensions⟩ := key
  exact ⟨entry, ⟨hash, model, .inr ⟨generation.trans sameGeneration.symm,
    dimensions.trans sameDimensions.symm⟩⟩, .inl onDisk⟩

variable [DecidableEq Fingerprint]

structure Ensured (held : List Nat) (carried : VectorQueueEntry Fingerprint Stamp → Prop)
    (intent : VectorTargetIntent Fingerprint) (before store : VectorStore Fingerprint Scalar Stamp) :
    Prop extends Interim held intent before store where
  recorded : Recorded held carried store intent.contentHash intent.embeddingFingerprint

variable [LinearOrder Stamp]

theorem triple_ensure (clean : Clean held before)
    (trusted : Trusted held carried before (runtime.searchTextHash document.searchText) fingerprint) :
    Triple (fun store => store = before)
      (ensureVectorPendingLocked runtime held document fingerprint now
        (some (intentFor runtime document fingerprint)))
      (fun _ => Ensured held carried (intentFor runtime document fingerprint) before)
      (Interim held (intentFor runtime document fingerprint) before) := by
  have anchored : Clean held
      { before with intent := some (intentFor runtime document fingerprint) } := clean
  refine bind triple_load fun previous => Triple.given fun isState => ?_
  subst isState
  split
  · rename_i state found
    obtain ⟨here, matched⟩ := Option.filter_eq_some_iff.mp found
    split
    · rename_i ready
      refine ok ?_
      rintro store rfl
      exact ⟨(Requeued.refl).interim, state, here, matched, .inl (by simp [ready])⟩
    · rename_i pending
      refine bind (triple_hasLive.relax fun _ => Requeued.interim) fun live =>
        known fun middle ⟨requeued, tail, entry⟩ => ?_
      split
      · rename_i isLive
        refine ok ?_
        rintro store rfl
        obtain ⟨entry, member, key⟩ := entry isLive
        refine ⟨requeued.interim, state, requeued.state.trans here, matched,
          Or.inr ⟨entry, ?_, ?_⟩⟩
        · simp only [queueEntryKey, Prod.mk.injEq] at key
          exact ⟨key.1, key.2.2.1, .inr ⟨key.2.1.symm, key.2.2.2.symm⟩⟩
        · exact (trusted state here matched pending entry member key).imp_left (requeued.disk entry)
      · have ended : Clean held
            { middle with intent := some (intentFor runtime document fingerprint) } :=
          Or.inl (tail clean)
        refine bind (triple_persist requeued) fun _ => ?_
        refine bind ((triple_copy ended).relax
          fun _ => requeued.toFramed.interim) fun _ => ok ?_
        rintro store ⟨moved, placed⟩
        have kept : store.state = some state := moved.state.trans (requeued.state.trans here)
        exact ⟨requeued.toFramed.interim moved, state, kept, matched,
          Or.inr (placed.wanted rfl rfl)⟩
    · rename_i failed
      split
      · refine ok ?_
        rintro store rfl
        exact ⟨(Requeued.refl).interim, state, here, matched, .inl (by simp [failed])⟩
      · refine bind (triple_persist (.refl)) fun _ => ?_
        refine bind ((triple_copy anchored).relax fun _ => (Framed.refl).interim) fun _ => ?_
        refine bind (@write _ _ _ _ (fun _ =>
          Ensured held carried (intentFor runtime document fingerprint) before) ?_ ?_)
          fun _ => ok fun _ ensured => ensured
        · rintro store ⟨moved, _⟩
          exact (Framed.refl).interim moved
        · rintro store ⟨moved, placed⟩
          have interim := (Framed.refl).interim moved
          exact ⟨⟨⟨interim.document, interim.batches⟩, .inl moved.intent⟩, _, rfl, matched,
            Or.inr (placed.wanted rfl rfl)⟩
  · refine bind (triple_persist (.refl)) fun _ => ?_
    refine bind ((triple_enqueueNew anchored).relax fun _ => (Framed.refl).interim)
      fun generationSeq => ?_
    refine bind (@write _ _ _ _ (fun _ =>
      Ensured held carried (intentFor runtime document fingerprint) before) ?_ ?_)
      fun _ => ok fun _ ensured => ensured
    · rintro store ⟨moved, _⟩
      exact (Framed.refl).interim moved
    · rintro store ⟨moved, placed⟩
      have interim := (Framed.refl).interim moved
      exact ⟨⟨⟨interim.document, interim.batches⟩, .inl moved.intent⟩, _, rfl,
        by simp [vectorStateMatches, VectorState.newPending, intentFor],
        Or.inr (placed.wanted rfl rfl)⟩

end AgentClaimNetwork.Router
