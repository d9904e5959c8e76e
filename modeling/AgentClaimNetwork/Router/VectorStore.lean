import Mathlib.Data.List.Sort
import AgentClaimNetwork.Library.Durable
import AgentClaimNetwork.Library.Hex
import Mathlib.Order.Basic

/-!
The vector state, intent and queue of one claim, from `src/router/vector.rs`.  A section under a
lock is a program over the files.
-/

namespace AgentClaimNetwork.Router

open Library Durable
open Program (attempt bail forAll look require write)

variable {Fingerprint Scalar Stamp : Type}

abbrev Text := List Char

structure RetrievalDocument where
  scopeText : Text
  searchText : Text
  openDisputeIds : List Text
  resolvedDisputeIds : List Text
deriving DecidableEq

inductive VectorStatus
  | pending
  | ready
  | failed
deriving DecidableEq

structure VectorState (Fingerprint Scalar Stamp : Type) where
  status : VectorStatus
  updatedAt : Stamp
  contentHash : Text
  generationSeq : Nat
  embeddingFingerprint : Option Fingerprint
  vectorDimensions : Option Nat
  expectedDimensions : Option Nat
  attempts : Nat
  lastAttemptAt : Option Stamp
  nextRetryAt : Option Stamp
  vector : Option (List Scalar)
  errorSummary : Option Text

structure VectorAttemptMetadata (Stamp : Type) where
  attempts : Nat
  lastAttemptAt : Stamp
  nextRetryAt : Option Stamp

namespace VectorState

variable (contentHash : Text) (fingerprint : Fingerprint) (expectedDimensions : Option Nat)
  (generationSeq : Nat)

def newPending (now : Stamp) :
    VectorState Fingerprint Scalar Stamp where
  status := .pending
  updatedAt := now
  contentHash
  generationSeq
  embeddingFingerprint := some fingerprint
  vectorDimensions := none
  expectedDimensions
  attempts := 0
  lastAttemptAt := none
  nextRetryAt := none
  vector := none
  errorSummary := none

def newReady (attempt : VectorAttemptMetadata Stamp) (vector : List Scalar) (now : Stamp) :
    VectorState Fingerprint Scalar Stamp where
  status := .ready
  updatedAt := now
  contentHash
  generationSeq
  embeddingFingerprint := some fingerprint
  vectorDimensions := some vector.length
  expectedDimensions
  attempts := attempt.attempts
  lastAttemptAt := some attempt.lastAttemptAt
  nextRetryAt := attempt.nextRetryAt
  vector := some vector
  errorSummary := none

def newFailed (attempt : VectorAttemptMetadata Stamp) (errorSummary : Text) (now : Stamp) :
    VectorState Fingerprint Scalar Stamp where
  status := .failed
  updatedAt := now
  contentHash
  generationSeq
  embeddingFingerprint := some fingerprint
  vectorDimensions := none
  expectedDimensions
  attempts := attempt.attempts
  lastAttemptAt := some attempt.lastAttemptAt
  nextRetryAt := attempt.nextRetryAt
  vector := none
  errorSummary := some errorSummary

end VectorState

structure VectorQueueEntry (Fingerprint Stamp : Type) where
  contentHash : Text
  generationSeq : Nat
  embeddingFingerprint : Option Fingerprint
  expectedDimensions : Option Nat
  enqueuedAt : Stamp

structure VectorTargetIntent (Fingerprint : Type) where
  contentHash : Text
  embeddingFingerprint : Fingerprint
deriving DecidableEq

structure InFlight (Fingerprint Stamp : Type) where
  name : Nat
  entries : List (VectorQueueEntry Fingerprint Stamp)

/-- `pending` holds the complete lines of `pending.jsonl`, and `tail` is the last line when it lacks
its newline: what an append has left that was cut, with its entry if that can be read. -/
structure VectorStore (Fingerprint Scalar Stamp : Type) where
  document : Option RetrievalDocument
  intent : Option (VectorTargetIntent Fingerprint)
  state : Option (VectorState Fingerprint Scalar Stamp)
  pending : Option (List (VectorQueueEntry Fingerprint Stamp))
  tail : Option (Option (VectorQueueEntry Fingerprint Stamp))
  inflight : List (InFlight Fingerprint Stamp)

def VectorStore.empty {Fingerprint Scalar Stamp : Type} : VectorStore Fingerprint Scalar Stamp :=
  ⟨none, none, none, none, none, []⟩

structure VectorRuntime (Scalar Stamp : Type) where
  digest : List UInt8 → List UInt8
  isFinite : Scalar → Bool
  isNegligible : Scalar → Bool
  cosineSimilarity : List Scalar → List Scalar → Option Nat
  retryAt : Nat → Stamp → Stamp

def maxGeneration : Nat := 2 ^ 64 - 1

def maxAttempts : Nat := 2 ^ 32 - 1

variable [DecidableEq Fingerprint] [LinearOrder Stamp]

namespace VectorRuntime

variable (runtime : VectorRuntime Scalar Stamp)

def searchTextHash (text : Text) : Text :=
  "sha256-v1:".toList ++ Hex.encode (runtime.digest (Utf8.encode text))

/-- `None` for a vector that may be stored or searched with. -/
def validateEmbeddingVector (vector : List Scalar) : Option Text :=
  if vector.isEmpty then some "embedding 返回空向量".toList
  else if vector.any (fun value => !runtime.isFinite value) then
    some "embedding 返回非有限数值".toList
  else if vector.all runtime.isNegligible then some "embedding 返回全零向量".toList
  else none

end VectorRuntime

def isCurrentSearchTextHash (value : Text) : Bool :=
  "sha256-v1:".toList.isPrefixOf value &&
    (let hex := value.drop 10
     hex.length == 64 && hex.all fun character =>
       ('0' ≤ character && character ≤ '9') || ('a' ≤ character && character ≤ 'f'))

abbrev Queue (Fingerprint Stamp : Type) := List (VectorQueueEntry Fingerprint Stamp)

def queueEntryKey (entry : VectorQueueEntry Fingerprint Stamp) :
    Text × Nat × Option Fingerprint × Option Nat :=
  (entry.contentHash, entry.generationSeq, entry.embeddingFingerprint, entry.expectedDimensions)

variable (entries : Queue Fingerprint Stamp)

def insertQueueEntry (entry : VectorQueueEntry Fingerprint Stamp) : Queue Fingerprint Stamp :=
  if entries.any fun existing => queueEntryKey existing = queueEntryKey entry then
    entries.map fun existing =>
      if queueEntryKey existing = queueEntryKey entry ∧ existing.enqueuedAt < entry.enqueuedAt
      then entry else existing
  else entries ++ [entry]

def dedupeQueueEntries : Queue Fingerprint Stamp :=
  entries.foldl insertQueueEntry []

section

variable (state : VectorState Fingerprint Scalar Stamp)

def vectorStateMatches (contentHash : Text) (fingerprint : Fingerprint) : Bool :=
  state.contentHash == contentHash && state.embeddingFingerprint == some fingerprint

def vectorStateTargetMatchesQueueEntry (entry : VectorQueueEntry Fingerprint Stamp) : Bool :=
  state.contentHash == entry.contentHash &&
    state.embeddingFingerprint == entry.embeddingFingerprint &&
    state.expectedDimensions == entry.expectedDimensions

def vectorStateMatchesQueueEntry (entry : VectorQueueEntry Fingerprint Stamp) : Bool :=
  state.generationSeq == entry.generationSeq && vectorStateTargetMatchesQueueEntry state entry

end

abbrev VectorProgram (Fingerprint Scalar Stamp Result : Type) :=
  Program (VectorStore Fingerprint Scalar Stamp) Result

def loadVectorStateOpt :
    VectorProgram Fingerprint Scalar Stamp (Option (VectorState Fingerprint Scalar Stamp)) := do
  let store ← look
  pure store.state

def readDocumentOpt : VectorProgram Fingerprint Scalar Stamp (Option RetrievalDocument) := do
  let store ← look
  pure store.document

def writeVectorState (state : VectorState Fingerprint Scalar Stamp) :
    VectorProgram Fingerprint Scalar Stamp Unit :=
  write fun store => { store with state := some state }

def writeDocument (document : RetrievalDocument) : VectorProgram Fingerprint Scalar Stamp Unit :=
  write fun store => { store with document := some document }

def writeVectorTargetIntent (intent : VectorTargetIntent Fingerprint) :
    VectorProgram Fingerprint Scalar Stamp Unit :=
  write fun store => { store with intent := some intent }

def persistVectorTargetIntent (intent : Option (VectorTargetIntent Fingerprint)) :
    VectorProgram Fingerprint Scalar Stamp Unit :=
  match intent with
  | some intent => writeVectorTargetIntent intent
  | none => pure ()

def removeVectorTargetIntent : VectorProgram Fingerprint Scalar Stamp Unit :=
  write fun store => { store with intent := none }

def appendQueueEntryLocked (entry : VectorQueueEntry Fingerprint Stamp) :
    VectorProgram Fingerprint Scalar Stamp Unit := do
  let seen ← look
  write fun store => { store with pending := some (store.pending.getD []), tail := some none }
  write fun store => { store with tail := some (if seen.tail.isNone then some entry else none) }
  write fun store =>
    { store with
      pending := some (store.pending.getD [] ++ store.tail.join.toList)
      tail := none }

def writeQueueEntriesAtomic : VectorProgram Fingerprint Scalar Stamp Unit :=
  write fun store => { store with pending := some entries, tail := none }

/-- The entries of `pending.jsonl` that can be read. -/
def readPending (store : VectorStore Fingerprint Scalar Stamp) : Queue Fingerprint Stamp :=
  match store.pending with
  | none => []
  | some lines => lines ++ store.tail.join.toList

def removeInFlight (name : Nat) : VectorProgram Fingerprint Scalar Stamp Unit :=
  write fun store =>
    { store with inflight := store.inflight.filter fun batch => batch.name ≠ name }

/-- `held` are the batches whose lease a living worker holds. -/
def recoverStaleInFlightLocked (held : List Nat) : VectorProgram Fingerprint Scalar Stamp Unit := do
  let store ← look
  let stale := store.inflight.filter fun batch => !held.contains batch.name
  if stale.isEmpty then pure ()
  else
    writeQueueEntriesAtomic (dedupeQueueEntries
      (dedupeQueueEntries (readPending store) ++
        stale.flatMap fun batch => dedupeQueueEntries batch.entries))
    forAll stale fun batch => removeInFlight batch.name

def liveEntries (store : VectorStore Fingerprint Scalar Stamp) : Queue Fingerprint Stamp :=
  readPending store ++ store.inflight.flatMap (·.entries)

def nextGenerationSeqLocked (currentGenerationSeq : Nat) :
    VectorProgram Fingerprint Scalar Stamp Nat := do
  let store ← look
  let highest := (liveEntries store).foldl
    (fun highest entry => max highest entry.generationSeq) currentGenerationSeq
  require (highest < maxGeneration)
  pure (highest + 1)

def enqueueNewVectorGeneration (held : List Nat) (contentHash : Text) (fingerprint : Fingerprint)
    (expectedDimensions : Option Nat) (currentGenerationSeq : Nat) (now : Stamp) :
    VectorProgram Fingerprint Scalar Stamp Nat := do
  recoverStaleInFlightLocked held
  let generationSeq ← nextGenerationSeqLocked currentGenerationSeq
  appendQueueEntryLocked
    { contentHash, generationSeq, expectedDimensions
      embeddingFingerprint := some fingerprint
      enqueuedAt := now }
  pure generationSeq

def reserveNewVectorGeneration (held : List Nat) (currentGenerationSeq : Nat) :
    VectorProgram Fingerprint Scalar Stamp Nat := do
  recoverStaleInFlightLocked held
  nextGenerationSeqLocked currentGenerationSeq

section

variable (held : List Nat) (contentHash : Text) (fingerprint : Fingerprint)
  (expectedDimensions : Option Nat) (generationSeq : Nat)

def hasLiveQueueEntry :
    VectorProgram Fingerprint Scalar Stamp Bool := do
  recoverStaleInFlightLocked held
  let store ← look
  pure ((liveEntries store).any fun entry =>
    queueEntryKey entry = (contentHash, generationSeq, some fingerprint, expectedDimensions))

def enqueueVectorPendingCopy (now : Stamp) :
    VectorProgram Fingerprint Scalar Stamp Unit := do
  recoverStaleInFlightLocked held
  let store ← look
  if (readPending store).any fun queued =>
      queueEntryKey queued = (contentHash, generationSeq, some fingerprint, expectedDimensions)
  then pure ()
  else
    appendQueueEntryLocked
      { contentHash, generationSeq, expectedDimensions
        embeddingFingerprint := some fingerprint
        enqueuedAt := now }

end

/-- `name` is a file name that is not taken. -/
def drainQueueEntries (held : List Nat) (name : Nat) :
    VectorProgram Fingerprint Scalar Stamp (Option (Queue Fingerprint Stamp)) := do
  recoverStaleInFlightLocked held
  let store ← look
  require (!(store.inflight.map (·.name)).contains name)
  match store.pending with
  | none => pure none
  | some _ =>
    write fun store =>
      { store with
        pending := none
        tail := none
        inflight := store.inflight ++ [⟨name, readPending store⟩] }
    pure (some (dedupeQueueEntries (readPending store)))

def finishInFlightQueue (name : Nat) (retryEntries : Queue Fingerprint Stamp) :
    VectorProgram Fingerprint Scalar Stamp Unit := do
  let store ← look
  if retryEntries.isEmpty then pure ()
  else
    writeQueueEntriesAtomic
      (dedupeQueueEntries (dedupeQueueEntries (readPending store) ++ retryEntries))
  removeInFlight name

variable (runtime : VectorRuntime Scalar Stamp)

def intentFor (document : RetrievalDocument) (fingerprint : Fingerprint) :
    VectorTargetIntent Fingerprint :=
  ⟨runtime.searchTextHash document.searchText, fingerprint⟩

def ensureVectorPendingLocked (held : List Nat) (document : RetrievalDocument)
    (fingerprint : Fingerprint) (now : Stamp) (intent : Option (VectorTargetIntent Fingerprint)) :
    VectorProgram Fingerprint Scalar Stamp (VectorState Fingerprint Scalar Stamp) := do
  let contentHash := runtime.searchTextHash document.searchText
  let previous ← loadVectorStateOpt
  match previous.filter fun state => vectorStateMatches state contentHash fingerprint with
  | some state =>
    match state.status with
    | .ready => pure state
    | .pending => do
        let live ← hasLiveQueueEntry held contentHash fingerprint state.expectedDimensions
          state.generationSeq
        if live then pure state
        else
          persistVectorTargetIntent intent
          enqueueVectorPendingCopy held contentHash fingerprint state.expectedDimensions
            state.generationSeq now
          pure state
    | .failed =>
      if state.nextRetryAt.any (now < ·) then pure state
      else do
        let pending :=
          { state with
            status := .pending
            updatedAt := now
            nextRetryAt := none
            errorSummary := none }
        persistVectorTargetIntent intent
        enqueueVectorPendingCopy held contentHash fingerprint pending.expectedDimensions
          pending.generationSeq now
        writeVectorState pending
        pure pending
  | none => do
      persistVectorTargetIntent intent
      let generationSeq ← enqueueNewVectorGeneration held contentHash fingerprint none
        (previous.elim 0 (·.generationSeq)) now
      let state := VectorState.newPending contentHash fingerprint none generationSeq now
      writeVectorState state
      pure state

def inheritVectorTargetIntent (store : VectorStore Fingerprint Scalar Stamp)
    (document : RetrievalDocument) (existing : Option RetrievalDocument) :
    Option (VectorTargetIntent Fingerprint) :=
  existing.bind fun existing =>
    let existingHash := runtime.searchTextHash existing.searchText
    match store.intent.filter fun intent => intent.contentHash == existingHash with
    | some intent => some (intentFor runtime document intent.embeddingFingerprint)
    | none =>
      (store.state.filter fun state => state.contentHash == existingHash).bind fun state =>
        state.embeddingFingerprint.map (intentFor runtime document)

def ensureRetrievalTargetLocked (held : List Nat) (document : RetrievalDocument)
    (fingerprint : Option Fingerprint) (now : Stamp) :
    VectorProgram Fingerprint Scalar Stamp (Option (VectorState Fingerprint Scalar Stamp)) := do
  let store ← look
  let needsRefresh := decide (store.document ≠ some document)
  let targetIntent := match fingerprint with
    | some fingerprint => some (intentFor runtime document fingerprint)
    | none =>
      if needsRefresh then inheritVectorTargetIntent runtime store document store.document
      else none
  let anchor : VectorProgram Fingerprint Scalar Stamp Unit :=
    if needsRefresh then persistVectorTargetIntent targetIntent else pure ()
  let refresh : VectorProgram Fingerprint Scalar Stamp Unit :=
    if needsRefresh then writeDocument document else pure ()
  let anchored ← attempt anchor
  if anchored.isNone then pure none
  else
    refresh
    match fingerprint with
    | none => pure none
    | some fingerprint => do
        let ensured ← attempt
          (ensureVectorPendingLocked runtime held document fingerprint now targetIntent)
        match ensured with
        | some state =>
          let _ ← attempt removeVectorTargetIntent
          pure (some state)
        | none =>
          let _ ← attempt (persistVectorTargetIntent targetIntent)
          pure none

/-- One intent of `recover_vector_target_intents`. -/
def recoverVectorTargetIntent (held : List Nat) (workerFingerprint : Fingerprint) (now : Stamp) :
    VectorProgram Fingerprint Scalar Stamp Unit := do
  let store ← look
  match store.intent, store.document with
  | none, _ => pure ()
  | some _, none => removeVectorTargetIntent
  | some intent, some document =>
    if runtime.searchTextHash document.searchText ≠ intent.contentHash then
      removeVectorTargetIntent
    else if intent.embeddingFingerprint ≠ workerFingerprint then pure ()
    else do
      let _ ← ensureVectorPendingLocked runtime held document workerFingerprint now (some intent)
      removeVectorTargetIntent

section

variable (held : List Nat) (fingerprint : Fingerprint) (expectedContentHash : Text)
  (queryDimensions : Nat) (now : Stamp)

def requeueExpectedDimensionChange :
    VectorProgram Fingerprint Scalar Stamp Unit := do
  let document ← readDocumentOpt
  require document.isSome
  if document.map (fun document => runtime.searchTextHash document.searchText) ≠
      some expectedContentHash then pure ()
  else
    let current ← loadVectorStateOpt
    match current with
    | none => pure ()
    | some current =>
      if current.status = .ready ∨ current.contentHash ≠ expectedContentHash ∨
          current.embeddingFingerprint ≠ some fingerprint ∨
          current.expectedDimensions = some queryDimensions then pure ()
      else
        let hadKnownDimensions := current.expectedDimensions.isSome
        let shouldEnqueue := hadKnownDimensions || match current.status with
          | .pending => true
          | .failed => current.nextRetryAt.all (· ≤ now)
          | .ready => false
        let allocate : VectorProgram Fingerprint Scalar Stamp Nat :=
          if shouldEnqueue then
            enqueueNewVectorGeneration held expectedContentHash fingerprint
              (some queryDimensions) current.generationSeq now
          else reserveNewVectorGeneration held current.generationSeq
        let generationSeq ← allocate
        let base := if hadKnownDimensions then
            VectorState.newPending expectedContentHash fingerprint (some queryDimensions)
              generationSeq now
          else current
        writeVectorState
          { base with
            generationSeq
            expectedDimensions := some queryDimensions
            updatedAt := now
            status := if shouldEnqueue then .pending else base.status
            nextRetryAt := if shouldEnqueue then none else base.nextRetryAt
            errorSummary := if shouldEnqueue then none else base.errorSummary }

def requeueDimensionMismatch :
    VectorProgram Fingerprint Scalar Stamp Unit := do
  let document ← readDocumentOpt
  require document.isSome
  if document.map (fun document => runtime.searchTextHash document.searchText) ≠
      some expectedContentHash then pure ()
  else
    let current ← loadVectorStateOpt
    match current with
    | none => pure ()
    | some current =>
      if current.status ≠ .ready ∨ current.contentHash ≠ expectedContentHash ∨
          current.embeddingFingerprint ≠ some fingerprint then pure ()
      else if current.vectorDimensions = current.vector.map List.length ∧
          current.vectorDimensions = some queryDimensions then pure ()
      else
        let generationSeq ← enqueueNewVectorGeneration held expectedContentHash fingerprint
          (some queryDimensions) current.generationSeq now
        writeVectorState (VectorState.newPending expectedContentHash fingerprint
          (some queryDimensions) generationSeq now)

end

inductive QueueEntryOutcome
  | complete
  | requeueForMatchingWorker
  | embeddingFailureRecorded (summary : Text)

section

variable (state : VectorState Fingerprint Scalar Stamp) (entry : VectorQueueEntry Fingerprint Stamp)

def bindsUnknownDimension : Bool :=
  state.status ≠ .ready && state.contentHash == entry.contentHash &&
    state.embeddingFingerprint == entry.embeddingFingerprint &&
    state.expectedDimensions.isNone && entry.expectedDimensions.isSome

def advanceToEntry (fresh : VectorState Fingerprint Scalar Stamp)
    (now : Stamp) : VectorState Fingerprint Scalar Stamp :=
  if entry.generationSeq ≤ state.generationSeq then state
  else if bindsUnknownDimension state entry then
    { state with
      updatedAt := now
      generationSeq := entry.generationSeq
      expectedDimensions := entry.expectedDimensions
      status := .pending
      vectorDimensions := none
      nextRetryAt := none
      vector := none
      errorSummary := none }
  else fresh

end

/-- What `process_queue_entry` does before it calls the embedding client: an outcome, or the text
to embed. -/
def prepareQueueEntry (fingerprint : Fingerprint) (entry : VectorQueueEntry Fingerprint Stamp)
    (now later : Stamp) :
    VectorProgram Fingerprint Scalar Stamp (QueueEntryOutcome ⊕ Text) := do
  let found ← readDocumentOpt
  match found with
  | none => bail
  | some document =>
    let actualHash := runtime.searchTextHash document.searchText
    if actualHash ≠ entry.contentHash then pure (.inl .complete)
    else
      let present ← loadVectorStateOpt
      if entry.embeddingFingerprint ≠ some fingerprint then
        if present.any fun state => entry.generationSeq < state.generationSeq ||
            (state.generationSeq == entry.generationSeq &&
              !vectorStateTargetMatchesQueueEntry state entry) then
          pure (.inl .complete)
        else pure (.inl .requeueForMatchingWorker)
      else
        let fresh := VectorState.newPending actualHash fingerprint entry.expectedDimensions
          entry.generationSeq now
        let created : VectorProgram Fingerprint Scalar Stamp Unit :=
          if present.isNone then writeVectorState fresh else pure ()
        created
        let state := present.getD fresh
        if entry.generationSeq < state.generationSeq then pure (.inl .complete)
        else if state.generationSeq = entry.generationSeq ∧
            vectorStateTargetMatchesQueueEntry state entry = false then pure (.inl .complete)
        else if state.generationSeq < entry.generationSeq ∧ bindsUnknownDimension state entry ∧
            state.status = .failed ∧ state.nextRetryAt.any (now < ·) then do
          writeVectorState
            { state with
              updatedAt := now
              generationSeq := entry.generationSeq
              expectedDimensions := entry.expectedDimensions }
          pure (.inl .complete)
        else
          let advanced := advanceToEntry state entry fresh now
          let advance : VectorProgram Fingerprint Scalar Stamp Unit :=
            if state.generationSeq < entry.generationSeq then writeVectorState advanced
            else pure ()
          advance
          if advanced.status = .ready then
            if entry.expectedDimensions.any fun expected =>
                advanced.vectorDimensions ≠ some expected ||
                  advanced.vector.map List.length ≠ some expected then do
              writeVectorState fresh
              pure (.inr document.searchText)
            else pure (.inl .complete)
          else if advanced.status = .failed ∧ advanced.nextRetryAt.any (later < ·) then
            pure (.inl .complete)
          else pure (.inr document.searchText)

def acceptVector (dimensionError : Nat → Nat → Text) (expectedDimensions : Option Nat)
    (embedded : Except Text (List Scalar)) : Except Text (List Scalar) :=
  match embedded with
  | .error summary => .error summary
  | .ok vector =>
    match runtime.validateEmbeddingVector vector with
    | some summary => .error summary
    | none =>
      match expectedDimensions with
      | some expected =>
        if vector.length ≠ expected then .error (dimensionError expected vector.length)
        else .ok vector
      | none => .ok vector

def completeQueueEntry (fingerprint : Fingerprint) (entry : VectorQueueEntry Fingerprint Stamp)
    (embedded : Except Text (List Scalar)) (dimensionError : Nat → Nat → Text)
    (completedAt now : Stamp) :
    VectorProgram Fingerprint Scalar Stamp QueueEntryOutcome := do
  let found ← readDocumentOpt
  match found with
  | none => bail
  | some document =>
    if runtime.searchTextHash document.searchText ≠ entry.contentHash then pure .complete
    else
      let present ← loadVectorStateOpt
      match present with
      | none => bail
      | some current =>
        if vectorStateMatchesQueueEntry current entry = false ∨ current.status = .ready then
          pure .complete
        else
          let attempts := min (current.attempts + 1) maxAttempts
          match acceptVector runtime dimensionError current.expectedDimensions embedded with
          | .error summary => do
              writeVectorState (VectorState.newFailed entry.contentHash fingerprint
                current.expectedDimensions entry.generationSeq
                ⟨attempts, completedAt, some (runtime.retryAt attempts completedAt)⟩ summary
                now)
              pure (.embeddingFailureRecorded summary)
          | .ok vector => do
              writeVectorState (VectorState.newReady entry.contentHash fingerprint
                current.expectedDimensions entry.generationSeq ⟨attempts, completedAt, none⟩
                vector now)
              pure .complete

structure VectorHit (ClaimId : Type) where
  claimId : ClaimId
  score : Nat

inductive Inspection
  | skip
  | expectedDimensionChange
  | dimensionMismatch
  | hit (score : Nat)

def inspectState (state : VectorState Fingerprint Scalar Stamp) (queryVector : List Scalar)
    (fingerprint : Fingerprint) (expectedContentHash : Option Text) : Inspection :=
  if !isCurrentSearchTextHash state.contentHash then .skip
  else if expectedContentHash ≠ some state.contentHash then .skip
  else if state.embeddingFingerprint ≠ some fingerprint then .skip
  else if state.status ≠ .ready then
    if state.expectedDimensions ≠ some queryVector.length then .expectedDimensionChange else .skip
  else match state.vector with
    | none => .dimensionMismatch
    | some vector =>
      if state.vectorDimensions ≠ some vector.length ∨
          state.vectorDimensions ≠ some queryVector.length then .dimensionMismatch
      else match runtime.cosineSimilarity queryVector vector with
        | none => .skip
        | some score => if score = 0 then .skip else .hit score

variable {ClaimId : Type} [LinearOrder ClaimId]

def VectorHit.Before (left right : VectorHit ClaimId) : Prop :=
  right.score < left.score ∨ (right.score = left.score ∧ left.claimId ≤ right.claimId)

instance : DecidableRel (@VectorHit.Before ClaimId _) := fun _ _ =>
  inferInstanceAs (Decidable (_ ∨ (_ ∧ _)))

def searchReadyVectorsForClaims (reads : List (ClaimId × VectorState Fingerprint Scalar Stamp))
    (queryVector : List Scalar) (fingerprint : Fingerprint)
    (expectedContentHashes : ClaimId → Option Text) (limit : Nat) :
    Except Text (List (VectorHit ClaimId)) :=
  match runtime.validateEmbeddingVector queryVector with
  | some summary => .error summary
  | none =>
    let hits := reads.filterMap fun read =>
      match inspectState runtime read.2 queryVector fingerprint
          (expectedContentHashes read.1) with
      | .hit score => some (VectorHit.mk read.1 score)
      | _ => none
    .ok ((hits.insertionSort VectorHit.Before).take limit)

end AgentClaimNetwork.Router
