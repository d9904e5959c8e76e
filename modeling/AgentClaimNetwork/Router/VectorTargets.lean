import AgentClaimNetwork.Router.VectorWorkers

/-!
What of a published vector target is on disk.  A queue entry counts for what its key says, and
only while no worker that has it has decided to drop it.
-/

namespace AgentClaimNetwork.Router

open Library Durable

variable {Fingerprint Scalar Stamp : Type}

section

variable {entries : Queue Fingerprint Stamp} {entry : VectorQueueEntry Fingerprint Stamp}

def Queued (entries : Queue Fingerprint Stamp) (entry : VectorQueueEntry Fingerprint Stamp) : Prop :=
  ∃ queued ∈ entries, queueEntryKey queued = queueEntryKey entry

theorem Queued.of_mem (member : entry ∈ entries) : Queued entries entry := ⟨entry, member, rfl⟩

@[simp] theorem queued_nil : ¬Queued ([] : Queue Fingerprint Stamp) entry := by
  simp [Queued]

@[simp] theorem queued_append : Queued (entries ++ more) entry ↔
    Queued entries entry ∨ Queued more entry := by
  simp [Queued, or_and_right, exists_or]

@[simp] theorem queued_singleton :
    Queued [added] entry ↔ queueEntryKey added = queueEntryKey entry := by
  simp [Queued]

theorem queued_flatMap {Item : Type} {items : List Item} {entriesOf : Item → Queue Fingerprint Stamp} :
    Queued (items.flatMap entriesOf) entry ↔ ∃ item ∈ items, Queued (entriesOf item) entry := by
  simp only [Queued, List.mem_flatMap]
  constructor
  · rintro ⟨queued, ⟨item, inItems, member⟩, same⟩
    exact ⟨item, inItems, queued, member, same⟩
  · rintro ⟨item, inItems, queued, member, same⟩
    exact ⟨queued, ⟨item, inItems, member⟩, same⟩

variable [DecidableEq Fingerprint] [LinearOrder Stamp]

theorem queued_insert : Queued (insertQueueEntry entries added) entry ↔
    Queued entries entry ∨ queueEntryKey added = queueEntryKey entry := by
  unfold insertQueueEntry
  split
  · rename_i present
    obtain ⟨twin, twinMember, twinKey⟩ := List.any_eq_true.mp present
    have sameKey : ∀ existing : VectorQueueEntry Fingerprint Stamp,
        queueEntryKey (if queueEntryKey existing = queueEntryKey added ∧
          existing.enqueuedAt < added.enqueuedAt then added else existing) =
            queueEntryKey existing := by
      intro existing
      split
      · rename_i both
        exact both.1.symm
      · rfl
    constructor
    · rintro ⟨queued, member, same⟩
      obtain ⟨existing, inEntries, rfl⟩ := List.mem_map.mp member
      rw [sameKey] at same
      exact Or.inl ⟨existing, inEntries, same⟩
    · intro queued
      have queued : Queued entries entry :=
        queued.elim id fun same => ⟨twin, twinMember, (of_decide_eq_true twinKey).trans same⟩
      obtain ⟨existing, inEntries, same⟩ := queued
      exact ⟨_, List.mem_map_of_mem inEntries, (sameKey existing).trans same⟩
  · simp

theorem queued_dedupe : Queued (dedupeQueueEntries entries) entry ↔ Queued entries entry := by
  suffices folded : ∀ collected, Queued (entries.foldl insertQueueEntry collected) entry ↔
      Queued collected entry ∨ Queued entries entry by
    simpa [dedupeQueueEntries] using folded []
  induction entries with
  | nil => simp
  | cons first rest ih =>
    intro collected
    rw [List.foldl_cons, ih, queued_insert, ← List.singleton_append, queued_append,
      queued_singleton, or_assoc]

end

section

/-- The entry can be read from `pending.jsonl`, or from a batch that no worker holds. -/
def OnDisk (held : List Nat) (store : VectorStore Fingerprint Scalar Stamp)
    (entry : VectorQueueEntry Fingerprint Stamp) : Prop :=
  Queued (readPending store) entry ∨
    ∃ batch ∈ store.inflight, batch.name ∉ held ∧ Queued batch.entries entry

def VectorWorker.Keeps (worker : VectorWorker Fingerprint Stamp)
    (task : VectorTask Fingerprint Stamp) : Prop :=
  match task.phase with
  | .waiting | .embedding _ | .finished none => True
  | .finished (some .requeueForMatchingWorker) =>
    task.entry.embeddingFingerprint ≠ some worker.fingerprint
  | .finished (some _) => False

def Carried (workers : List (VectorWorker Fingerprint Stamp))
    (entry : VectorQueueEntry Fingerprint Stamp) : Prop :=
  ∃ worker ∈ workers, ∃ task ∈ worker.tasks, worker.Keeps task ∧
    queueEntryKey task.entry = queueEntryKey entry

structure Wanted (state : VectorState Fingerprint Scalar Stamp) (contentHash : Text)
    (fingerprint : Fingerprint) (entry : VectorQueueEntry Fingerprint Stamp) : Prop where
  contentHash : entry.contentHash = contentHash
  fingerprint : entry.embeddingFingerprint = some fingerprint
  current : state.generationSeq < entry.generationSeq ∨
    state.generationSeq = entry.generationSeq ∧ state.expectedDimensions = entry.expectedDimensions

variable [DecidableEq Fingerprint]

section

variable (held : List Nat) (carried : VectorQueueEntry Fingerprint Stamp → Prop)
  (store : VectorStore Fingerprint Scalar Stamp) (contentHash : Text) (fingerprint : Fingerprint)

def Recorded : Prop :=
  ∃ state, store.state = some state ∧ vectorStateMatches state contentHash fingerprint = true ∧
    (state.status ≠ .pending ∨
      ∃ entry, Wanted state contentHash fingerprint entry ∧ (OnDisk held store entry ∨ carried entry))

def Anchored : Prop :=
  store.intent = some ⟨contentHash, fingerprint⟩ ∨
    Recorded held carried store contentHash fingerprint

end

/-- What is appended to `pending.jsonl` starts on a line of its own: the file ends with a newline,
or a stale batch is merged into it first. -/
def Clean (held : List Nat) (store : VectorStore Fingerprint Scalar Stamp) : Prop :=
  store.tail = none ∨ ∃ batch ∈ store.inflight, batch.name ∉ held

def Trusted (held : List Nat) (carried : VectorQueueEntry Fingerprint Stamp → Prop)
    (store : VectorStore Fingerprint Scalar Stamp) (contentHash : Text)
    (fingerprint : Fingerprint) : Prop :=
  ∀ state, store.state = some state →
    vectorStateMatches state contentHash fingerprint = true → state.status = .pending →
    ∀ entry ∈ liveEntries store,
      queueEntryKey entry =
        (contentHash, state.generationSeq, some fingerprint, state.expectedDimensions) →
      OnDisk held store entry ∨ carried entry

end

variable [DecidableEq Fingerprint] [LinearOrder Stamp]

section

structure PublishedSystem (Fingerprint Scalar Stamp : Type) where
  system : VectorSystem Fingerprint Scalar Stamp
  target : Option Fingerprint

variable (runtime : VectorRuntime Scalar Stamp) (dimensionError : Nat → Nat → Text)

def publishedIntent (store : VectorStore Fingerprint Scalar Stamp) (document : RetrievalDocument)
    (fingerprint : Option Fingerprint) : Option (VectorTargetIntent Fingerprint) :=
  match fingerprint with
  | some fingerprint => some (intentFor runtime document fingerprint)
  | none =>
    if store.document ≠ some document then
      inheritVectorTargetIntent runtime store document store.document
    else none

def returnsState (ended : Outcome (VectorStore Fingerprint Scalar Stamp)
    (Option (VectorState Fingerprint Scalar Stamp))) : Bool :=
  match ended with
  | .value (some _) _ _ => true
  | _ => false

variable (published : PublishedSystem Fingerprint Scalar Stamp)

def publishedTarget (document : RetrievalDocument) (fingerprint : Option Fingerprint) (now : Stamp)
    (fates : List Fate) : Option Fingerprint :=
  let store := published.system.store
  let ended := ensureRetrievalTargetLocked runtime published.system.held document fingerprint now
    store fates
  match fingerprint with
  | some fingerprint =>
    if returnsState ended = true ∨ (ended.store.document = some document ∧
        ended.store.intent = some (intentFor runtime document fingerprint)) then some fingerprint
    else published.target
  | none =>
    if store.document ≠ some document ∧ ended.store.document = some document then
      (publishedIntent runtime store document none).map (·.embeddingFingerprint)
    else published.target

def PublishedSystem.initial : PublishedSystem Fingerprint Scalar Stamp := ⟨.initial, none⟩

def PublishedSystem.apply (label : VectorLabel Fingerprint Scalar Stamp) :
    Option (PublishedSystem Fingerprint Scalar Stamp) :=
  (published.system.apply runtime dimensionError label).map fun system =>
    { system
      target := match label with
        | .publish document fingerprint now fates =>
          publishedTarget runtime published document fingerprint now fates
        | _ => published.target }

def discards (state : Option (VectorState Fingerprint Scalar Stamp))
    (entry : VectorQueueEntry Fingerprint Stamp) : Bool :=
  state.any fun state => entry.generationSeq < state.generationSeq ||
    (state.generationSeq == entry.generationSeq && !vectorStateTargetMatchesQueueEntry state entry)

def Remembers : Prop :=
  ∀ document fingerprint, published.system.store.document = some document →
    published.target = some fingerprint →
    published.system.store.intent = some (intentFor runtime document fingerprint) ∨
    (∃ state, published.system.store.state = some state ∧
      vectorStateMatches state (runtime.searchTextHash document.searchText) fingerprint = true ∧
      (state.status = .ready ∨ state.status = .failed)) ∨
    ∃ entry ∈ liveEntries published.system.store,
      entry.contentHash = runtime.searchTextHash document.searchText ∧
      entry.embeddingFingerprint = some fingerprint ∧
      discards published.system.store.state entry = false

end

variable (runtime : VectorRuntime Scalar Stamp)

def Interrupted (store : VectorStore Fingerprint Scalar Stamp) (document : RetrievalDocument)
    (fingerprint : Option Fingerprint) (fates : List Fate) : Prop :=
  store.document ≠ some document ∧ (publishedIntent runtime store document fingerprint).isSome ∧
    (fates = [.done] ∨ ∃ rest, fates = .done :: .failed :: rest)

def VectorLabel.Meets (published : PublishedSystem Fingerprint Scalar Stamp)
    (label : VectorLabel Fingerprint Scalar Stamp) : Prop :=
  let system := published.system
  let store := system.store
  match label with
  | .publish document fingerprint _ fates =>
    (Interrupted runtime store document fingerprint fates →
      ∀ current target, store.document = some current → published.target = some target →
        Recorded system.held (Carried system.workers) store
          (runtime.searchTextHash current.searchText) target) ∧
    ∀ target, fingerprint = some target → Clean system.held store ∧
      Trusted system.held (Carried system.workers) store
        (runtime.searchTextHash document.searchText) target
  | .recoverIntent fingerprint _ _ =>
    ∀ document, store.document = some document →
      store.intent = some (intentFor runtime document fingerprint) →
      Clean system.held store ∧
        Trusted system.held (Carried system.workers) store
          (runtime.searchTextHash document.searchText) fingerprint ∧
        ∀ target, published.target = some target → target = fingerprint
  | .requeueExpected .. | .requeueMismatch .. => Clean system.held store
  | .prepare index task _ _ _ =>
    ∀ worker entry document state target, system.workers[index]? = some worker →
      worker.tasks[task]? = some ⟨entry, .waiting⟩ → store.document = some document →
      entry.contentHash = runtime.searchTextHash document.searchText →
      entry.embeddingFingerprint = some worker.fingerprint →
      store.state = some state → state.generationSeq < entry.generationSeq →
      published.target = some target →
      store.intent ≠ some (intentFor runtime document target) → target = worker.fingerprint
  | _ => True

end AgentClaimNetwork.Router
