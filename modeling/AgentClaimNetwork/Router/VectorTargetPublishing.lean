import AgentClaimNetwork.Router.VectorSafety
import AgentClaimNetwork.Router.VectorTargetSections

/-!
Publications, intent recoveries and searches leave the target of the document on disk: its intent,
or a state for it with an entry.
-/

namespace AgentClaimNetwork.Router

open Library Durable
open Triple (guard ok write)

variable {Fingerprint Scalar Stamp : Type} [DecidableEq Fingerprint]
  {runtime : VectorRuntime Scalar Stamp} {held : List Nat}
  {carried fewer : VectorQueueEntry Fingerprint Stamp → Prop}
  {before store : VectorStore Fingerprint Scalar Stamp} {target : Option Fingerprint}

section

def Remembered (runtime : VectorRuntime Scalar Stamp) (held : List Nat)
    (carried : VectorQueueEntry Fingerprint Stamp → Prop) (target : Option Fingerprint)
    (store : VectorStore Fingerprint Scalar Stamp) : Prop :=
  ∀ document fingerprint, store.document = some document → target = some fingerprint →
    Anchored held carried store (runtime.searchTextHash document.searchText) fingerprint

theorem Remembered.move {remaining : List Nat}
    (remembered : Remembered runtime held carried target before)
    (document : store.document = before.document) (intent : store.intent = before.intent)
    (state : store.state = before.state)
    (places : ∀ entry, OnDisk held before entry ∨ carried entry →
      OnDisk remaining store entry ∨ fewer entry) :
    Remembered runtime remaining fewer target store := by
  intro current fingerprint present isTarget
  rw [document] at present
  rcases remembered current fingerprint present isTarget with isIntent | ⟨stored, here, matched, left⟩
  · exact .inl (intent.trans isIntent)
  · refine .inr ⟨stored, state.trans here, matched, left.imp_right ?_⟩
    rintro ⟨entry, wanted, place⟩
    exact ⟨entry, wanted, places entry place⟩

variable (remembered : Remembered runtime held carried target before)

include remembered

theorem Remembered.requeued
    (requeued : Requeued held before store) : Remembered runtime held carried target store :=
  remembered.move requeued.document requeued.intent requeued.state
    fun entry place => place.imp_left (requeued.disk entry)

theorem Remembered.mono (covers : ∀ other, carried other → fewer other) :
    Remembered runtime held fewer target before :=
  remembered.move rfl rfl rfl fun entry place => place.imp_right (covers entry)

omit remembered

variable {document : RetrievalDocument} {fingerprint : Fingerprint}

include remembered in
theorem Remembered.interim (present : before.document = some document)
    (same : ∀ other, target = some other → other = fingerprint)
    (interim : Interim held (intentFor runtime document fingerprint) before store) :
    Remembered runtime held carried target store := by
  rcases interim.anchor with intent | requeued
  · intro current other isCurrent isTarget
    rw [interim.document, present] at isCurrent
    cases isCurrent
    cases same other isTarget
    exact .inl intent
  · exact remembered.requeued requeued

theorem Remembered.of_recorded (present : store.document = some document)
    (same : ∀ other, target = some other → other = fingerprint)
    (recorded : Recorded held carried store (runtime.searchTextHash document.searchText)
      fingerprint) :
    Remembered runtime held carried target store := by
  intro current other isCurrent isTarget
  cases present.symm.trans isCurrent
  cases same other isTarget
  exact .inr recorded

include remembered in
theorem Remembered.replace
    (here : before.state = some state) (document : store.document = before.document)
    (intent : store.intent = before.intent) (isNext : store.state = some next)
    (hash : next.contentHash = state.contentHash)
    (model : next.embeddingFingerprint = state.embeddingFingerprint)
    (left : ∀ contentHash fingerprint, vectorStateMatches next contentHash fingerprint = true →
      next.status ≠ .pending ∨ ∃ entry, Wanted next contentHash fingerprint entry ∧
        (OnDisk held store entry ∨ fewer entry)) :
    Remembered runtime held fewer target store := by
  intro current fingerprint isCurrent isTarget
  rw [document] at isCurrent
  rcases remembered current fingerprint isCurrent isTarget with isIntent | ⟨old, isOld, matched, _⟩
  · exact .inl (intent.trans isIntent)
  · cases here.symm.trans isOld
    have matches_next : vectorStateMatches next (runtime.searchTextHash current.searchText)
        fingerprint = true := by
      simpa [vectorStateMatches, hash, model] using matched
    exact .inr ⟨next, isNext, matches_next, left _ _ matches_next⟩

structure Kept (runtime : VectorRuntime Scalar Stamp) (held : List Nat)
    (carried : VectorQueueEntry Fingerprint Stamp → Prop) (target : Option Fingerprint)
    (before store : VectorStore Fingerprint Scalar Stamp) : Prop where
  batches : ∀ batch ∈ before.inflight, batch.name ∈ held → batch ∈ store.inflight
  remembered : Remembered runtime held carried target store

include remembered in
theorem Remembered.kept
    (requeued : Requeued held before store) : Kept runtime held carried target before store :=
  ⟨requeued.batches, remembered.requeued requeued⟩

end

theorem Remembered.same (remembered : Remembered runtime held carried target before) :
    ∀ store, store = before → Kept runtime held carried target before store := by
  rintro store rfl
  exact remembered.kept .refl

variable {document : RetrievalDocument} {fingerprint : Fingerprint} {now : Stamp}
  {fates : List Fate} {intent : VectorTargetIntent Fingerprint}
  {middle : VectorStore Fingerprint Scalar Stamp} {published : PublishedSystem Fingerprint Scalar Stamp}

omit [DecidableEq Fingerprint] in
theorem triple_document {Result : Type}
    {next : Option RetrievalDocument → VectorProgram Fingerprint Scalar Stamp Result}
    {post : Result → VectorStore Fingerprint Scalar Stamp → Prop}
    {crash : VectorStore Fingerprint Scalar Stamp → Prop}
    (rest : Triple (fun store => store = before) (next before.document) post crash) :
    Triple (fun store => store = before) (readDocumentOpt >>= next) post crash := by
  rintro store fates rfl
  exact rest store fates rfl

omit [DecidableEq Fingerprint] in
theorem publishedIntent_eq {fingerprint : Option Fingerprint}
    (isIntent : publishedIntent runtime store document fingerprint = some intent) :
    intent = intentFor runtime document intent.embeddingFingerprint := by
  cases fingerprint with
  | some fingerprint =>
    cases isIntent
    rfl
  | none =>
    unfold publishedIntent inheritVectorTargetIntent at isIntent
    dsimp only at isIntent
    split at isIntent
    · obtain ⟨existing, _, found⟩ := Option.bind_eq_some_iff.mp isIntent
      split at found
      · cases found
        rfl
      · obtain ⟨state, _, model⟩ := Option.bind_eq_some_iff.mp found
        obtain ⟨inherited, _, rfl⟩ := Option.map_eq_some_iff.mp model
        rfl
    · nomatch isIntent

omit [DecidableEq Fingerprint] in
theorem triple_attemptPersist : Keeps (Interim held intent before)
      (Program.attempt (persistVectorTargetIntent (some intent))) := by
  have persisted : Keeps (Interim held intent before)
      (persistVectorTargetIntent (some intent)) := by
    refine write (fun _ interim => interim) fun store interim => ?_
    exact ⟨⟨interim.document, interim.batches⟩, .inl rfl⟩
  exact persisted.attempt (fun _ _ interim => interim) fun _ interim => interim

theorem triple_attemptRemoval :
    Triple (Ensured held carried intent before) (Program.attempt removeVectorTargetIntent)
      (fun _ store => Framed held before store ∧
        Recorded held carried store intent.contentHash intent.embeddingFingerprint)
      (Interim held intent before) := by
  have removed : Triple (Ensured held carried intent before) removeVectorTargetIntent
      (fun _ store => Framed held before store ∧
        Recorded held carried store intent.contentHash intent.embeddingFingerprint)
      (Ensured held carried intent before) := by
    refine write (fun _ ensured => ensured) fun store ensured => ?_
    exact ⟨⟨ensured.document, ensured.batches⟩, ensured.recorded.mono rfl fun _ same => same⟩
  have attempted : Triple (Ensured held carried intent before)
      (Program.attempt removeVectorTargetIntent)
      (fun _ store => Framed held before store ∧
        Recorded held carried store intent.contentHash intent.embeddingFingerprint)
      (Ensured held carried intent before) :=
    removed.attempt (fun _ _ ended => ended) fun _ ensured => ⟨ensured.toFramed, ensured.recorded⟩
  exact attempted.relax fun _ ensured => ensured.toInterim

theorem interim_kept (present : before.document = some document)
    (remembered : before.intent ≠ some (intentFor runtime document fingerprint) →
      Remembered runtime held carried target before)
    (interim : Interim held (intentFor runtime document fingerprint) before store) :
    Remembered runtime held carried
      (if store.document = some document ∧
        store.intent = some (intentFor runtime document fingerprint) then some fingerprint
      else target) store := by
  have stays : store.document = some document := interim.document.trans present
  split
  · rename_i both
    intro current other isCurrent isTarget
    cases stays.symm.trans isCurrent
    cases isTarget
    exact .inl both.2
  · rename_i missing
    have without : store.intent ≠ some (intentFor runtime document fingerprint) :=
      fun intent => missing ⟨stays, intent⟩
    have requeued := interim.anchor.resolve_left without
    refine (remembered fun intent => without ?_).requeued requeued
    exact requeued.intent.trans intent

theorem interrupted_kept
    (recorded : ∀ current target, published.system.store.document = some current →
      published.target = some target →
      Recorded published.system.held (Carried published.system.workers) published.system.store
        (runtime.searchTextHash current.searchText) target) :
    Kept runtime published.system.held (Carried published.system.workers) published.target
      published.system.store { published.system.store with intent := some intent } where
  batches _ member _ := member
  remembered current target isCurrent isTarget :=
    Or.inr ((recorded current target isCurrent isTarget).mono rfl fun _ same => same)

structure Recovered (runtime : VectorRuntime Scalar Stamp) (held : List Nat)
    (carried : VectorQueueEntry Fingerprint Stamp → Prop) (target : Option Fingerprint)
    (fingerprint : Fingerprint) (before store : VectorStore Fingerprint Scalar Stamp) : Prop
    extends Kept runtime held carried target before store where
  document : store.document = before.document
  recovered : ∀ document, store.document = some document →
    store.intent ≠ some (intentFor runtime document fingerprint)

theorem triple_removeIntent (framed : Framed held before middle)
    (remembered : Remembered runtime held carried target middle)
    (recorded : ∀ document fingerprint, middle.document = some document →
      target = some fingerprint → Recorded held carried middle
        (runtime.searchTextHash document.searchText) fingerprint) :
    Triple (fun store => store = middle) removeVectorTargetIntent
      (fun _ => Recovered runtime held carried target fingerprint before)
      (Kept runtime held carried target before) := by
  refine write ?_ ?_
  · rintro store rfl
    exact ⟨framed.batches, remembered⟩
  · rintro store rfl
    refine ⟨⟨framed.batches, fun document fingerprint present isTarget => .inr ?_⟩,
      framed.document, nofun⟩
    exact (recorded document fingerprint present isTarget).mono rfl fun _ same => same

theorem changed_kept {current base : VectorState Fingerprint Scalar Stamp} {updatedAt : Stamp}
    {retry : Option Stamp} {summary : Option Text}
    (remembered : Remembered runtime held carried target before)
    (here : before.state = some current) (hash : base.contentHash = current.contentHash)
    (model : base.embeddingFingerprint = current.embeddingFingerprint)
    (failed : enqueues = false → base.status ≠ .pending)
    (isModel : current.embeddingFingerprint = some fingerprint)
    (requeued : Requeued held before middle)
    (placed : enqueues = true → Placed held middle
      (current.contentHash, generationSeq, some fingerprint, some queryDimensions)) :
    Kept runtime held carried target before
      { middle with
        state := some
          { base with
            generationSeq
            expectedDimensions := some queryDimensions
            updatedAt
            status := if enqueues then .pending else base.status
            nextRetryAt := retry
            errorSummary := summary } } := by
  refine ⟨requeued.batches, remembered.replace here requeued.document requeued.intent rfl hash model
    fun contentHash other matched => ?_⟩
  cases enqueues with
  | false => exact .inl (failed rfl)
  | true =>
    simp only [vectorStateMatches, hash, model, isModel, Bool.and_eq_true, beq_iff_eq,
      Option.some.injEq] at matched
    obtain ⟨rfl, rfl⟩ := matched
    exact .inr ((placed rfl).wanted rfl rfl)

variable [LinearOrder Stamp]

section

def establishTarget (runtime : VectorRuntime Scalar Stamp) (held : List Nat)
    (document : RetrievalDocument) (fingerprint : Option Fingerprint) (now : Stamp) :
    VectorProgram Fingerprint Scalar Stamp (Option (VectorState Fingerprint Scalar Stamp)) :=
  match fingerprint with
  | none => pure none
  | some fingerprint => do
      let ensured ← Program.attempt (ensureVectorPendingLocked runtime held document fingerprint now
        (some (intentFor runtime document fingerprint)))
      match ensured with
      | some state =>
        let _ ← Program.attempt removeVectorTargetIntent
        pure (some state)
      | none =>
        let _ ← Program.attempt
          (persistVectorTargetIntent (some (intentFor runtime document fingerprint)))
        pure none

theorem publish_same {fingerprint : Option Fingerprint} (present : store.document = some document) :
    ensureRetrievalTargetLocked runtime held document fingerprint now store fates =
      establishTarget runtime held document fingerprint now store fates := by
  have refreshed : decide (store.document ≠ some document) = false := by simp [present]
  simp only [ensureRetrievalTargetLocked, bind, Program.andThen, Program.look, refreshed]
  cases fingerprint <;> rfl

theorem publish_lexical {fingerprint : Option Fingerprint} (fresh : store.document ≠ some document)
    (nothing : publishedIntent runtime store document fingerprint = none) :
    ensureRetrievalTargetLocked runtime held document fingerprint now store fates =
      (writeDocument document >>= fun _ => pure none) store fates := by
  cases fingerprint with
  | some fingerprint => nomatch nothing
  | none =>
    simp only [publishedIntent, ne_eq, fresh, not_false_eq_true, if_true] at nothing
    simp only [ensureRetrievalTargetLocked, bind, Program.andThen, Program.look,
      decide_eq_true fresh, nothing]
    rfl

theorem publish_fresh {fingerprint : Option Fingerprint} (fresh : store.document ≠ some document)
    (isIntent : publishedIntent runtime store document fingerprint = some intent) :
    ensureRetrievalTargetLocked runtime held document fingerprint now store fates =
      match fates with
      | [] => .stopped store
      | .failed :: rest => .value none store rest
      | [.done] => .stopped { store with intent := some intent }
      | .done :: .failed :: rest => .error { store with intent := some intent } rest
      | .done :: .done :: rest => establishTarget runtime held document fingerprint now
          { store with document := some document, intent := some intent } rest := by
  have needsRefresh := decide_eq_true fresh
  cases fingerprint with
  | none =>
    simp only [publishedIntent, ne_eq, fresh, not_false_eq_true, if_true] at isIntent
    simp only [ensureRetrievalTargetLocked, bind, Program.andThen, Program.look, needsRefresh,
      isIntent]
    rcases fates with _ | ⟨_ | _, _ | ⟨_ | _, rest⟩⟩ <;> rfl
  | some fingerprint =>
    cases isIntent
    simp only [ensureRetrievalTargetLocked, bind, Program.andThen, Program.look, needsRefresh]
    rcases fates with _ | ⟨_ | _, _ | ⟨_ | _, rest⟩⟩ <;> rfl

def Established (held : List Nat) (carried : VectorQueueEntry Fingerprint Stamp → Prop)
    (intent : VectorTargetIntent Fingerprint) (before : VectorStore Fingerprint Scalar Stamp)
    (result : Option (VectorState Fingerprint Scalar Stamp))
    (store : VectorStore Fingerprint Scalar Stamp) : Prop :=
  match result with
  | some _ => Framed held before store ∧
      Recorded held carried store intent.contentHash intent.embeddingFingerprint
  | none => Interim held intent before store

theorem triple_establish (clean : Clean held before)
    (trusted : Trusted held carried before (runtime.searchTextHash document.searchText) fingerprint) :
    Triple (fun store => store = before)
      (establishTarget runtime held document (some fingerprint) now)
      (Established held carried (intentFor runtime document fingerprint) before)
      (Interim held (intentFor runtime document fingerprint) before) := by
  have ensured : Triple (fun store => store = before)
      (Program.attempt (ensureVectorPendingLocked runtime held document fingerprint now
        (some (intentFor runtime document fingerprint))))
      (fun result store => match result with
        | some _ => Ensured held carried (intentFor runtime document fingerprint) before store
        | none => Interim held (intentFor runtime document fingerprint) before store)
      (Interim held (intentFor runtime document fingerprint) before) :=
    Triple.attempt (triple_ensure clean trusted) (fun _ _ ensured => ensured) fun _ interim => interim
  refine Triple.bind ensured fun result => ?_
  cases result with
  | some state => exact Triple.bind triple_attemptRemoval fun _ => ok fun _ ended => ended
  | none => exact Triple.bind triple_attemptPersist fun _ => ok fun _ interim => interim

theorem establish_kept (present : before.document = some document)
    (remembered : before.intent ≠ some (intentFor runtime document fingerprint) →
      Remembered runtime held carried target before)
    (clean : Clean held before)
    (trusted : Trusted held carried before (runtime.searchTextHash document.searchText) fingerprint)
    {ended : Outcome (VectorStore Fingerprint Scalar Stamp)
      (Option (VectorState Fingerprint Scalar Stamp))}
    (isEnd : ended =
      establishTarget runtime held document (some fingerprint) now before fates) :
    Kept runtime held carried
      (if returnsState ended = true ∨ (ended.store.document = some document ∧
        ended.store.intent = some (intentFor runtime document fingerprint)) then some fingerprint
      else target) before ended.store := by
  have ends := @triple_establish _ _ _ _ runtime held carried before document fingerprint now _ clean
    trusted before fates rfl
  rw [← isEnd] at ends
  rcases ended with ⟨_ | state, store, rest⟩ | ⟨store, rest⟩ | store
  · exact ⟨ends.batches, by simpa [returnsState, Outcome.store] using interim_kept present remembered ends⟩
  · obtain ⟨framed, recorded⟩ := ends
    refine ⟨framed.batches, ?_⟩
    refine .of_recorded (framed.document.trans present) ?_ recorded
    rintro other ⟨⟩
    rfl
  all_goals
    exact ⟨ends.batches, by simpa [returnsState, Outcome.store] using interim_kept present remembered ends⟩

variable (fresh : published.system.store.document ≠ some document)

include fresh in
theorem unpublished_target {fingerprint : Option Fingerprint}
    (isEnd : ensureRetrievalTargetLocked runtime published.system.held document fingerprint now
      published.system.store fates = ended)
    (old : ended.store.document = published.system.store.document)
    (unreturned : returnsState ended = false) :
    publishedTarget runtime published document fingerprint now fates = published.target := by
  have missing : ended.store.document ≠ some document := fun present => fresh (old.symm.trans present)
  unfold publishedTarget
  cases fingerprint <;> simp [isEnd, missing, unreturned]

include fresh

theorem lexical_kept {fingerprint : Option Fingerprint}
    (nothing : publishedIntent runtime published.system.store document fingerprint = none)
    (ended : ensureRetrievalTargetLocked runtime published.system.held document fingerprint now
        published.system.store fates =
      .value none { published.system.store with document := some document } fates.tail) :
    Kept runtime published.system.held carried
      (publishedTarget runtime published document fingerprint now fates) published.system.store
      (ensureRetrievalTargetLocked runtime published.system.held document fingerprint now
        published.system.store fates).store := by
  cases fingerprint with
  | some fingerprint => nomatch nothing
  | none =>
    have untargeted : publishedTarget runtime published document none now fates = none := by
      simp [publishedTarget, ended, fresh, nothing, Outcome.store]
    rw [untargeted, ended]
    exact ⟨fun _ member _ => member, nofun⟩

theorem refreshed_kept {fingerprint : Option Fingerprint}
    (isIntent : publishedIntent runtime published.system.store document fingerprint = some intent)
    (safe : ∀ target, fingerprint = some target →
      Clean published.system.held published.system.store ∧
      Trusted published.system.held carried published.system.store
        (runtime.searchTextHash document.searchText) target)
    (ended : ensureRetrievalTargetLocked runtime published.system.held document fingerprint now
        published.system.store fates =
      establishTarget runtime published.system.held document fingerprint now
        { published.system.store with document := some document, intent := some intent } rest) :
    Kept runtime published.system.held carried
      (publishedTarget runtime published document fingerprint now fates) published.system.store
      (ensureRetrievalTargetLocked runtime published.system.held document fingerprint now
        published.system.store fates).store := by
  have same := publishedIntent_eq isIntent
  cases fingerprint with
  | some fingerprint =>
    cases isIntent
    obtain ⟨clean, trusted⟩ := safe fingerprint rfl
    have kept := @establish_kept _ _ _ _ runtime published.system.held carried
      { published.system.store with
        document := some document
        intent := some (intentFor runtime document fingerprint) } published.target document
      fingerprint now rest _ rfl (fun missing => absurd rfl missing) clean trusted _ ended
    exact ⟨kept.batches, kept.remembered⟩
  | none =>
    have inherited : publishedTarget runtime published document none now fates =
        some intent.embeddingFingerprint := by
      simp [publishedTarget, ended, establishTarget, fresh, isIntent, Outcome.store, pure, Program.ok]
    rw [inherited, ended]
    refine ⟨fun _ member _ => member, ?_⟩
    intro current other isCurrent isTarget
    cases isCurrent
    cases isTarget
    exact .inl (congrArg some same)

omit fresh

theorem publish_kept {fingerprint : Option Fingerprint}
    (remembered : Remembered runtime published.system.held (Carried published.system.workers)
      published.target published.system.store)
    (meets : VectorLabel.Meets runtime published (.publish document fingerprint now fates)) :
    Kept runtime published.system.held (Carried published.system.workers)
      (publishedTarget runtime published document fingerprint now fates) published.system.store
      (ensureRetrievalTargetLocked runtime published.system.held document fingerprint now
        published.system.store fates).store := by
  obtain ⟨uninterrupted, safe⟩ := meets
  by_cases present : published.system.store.document = some document
  · cases fingerprint with
    | none =>
      have same : publishedTarget runtime published document none now fates = published.target := by
        simp [publishedTarget, present]
      rw [publish_same present, same]
      exact remembered.kept (.refl)
    | some fingerprint =>
      obtain ⟨clean, trusted⟩ := safe fingerprint rfl
      exact establish_kept present (fun _ => remembered) clean trusted (publish_same present)
  · cases isIntent : publishedIntent runtime published.system.store document fingerprint with
    | none =>
      have ended := @publish_lexical _ _ _ _ runtime published.system.held _ document now fates _
        fingerprint present isIntent
      cases fates with
      | nil =>
        rw [unpublished_target present ended rfl rfl, ended]
        exact remembered.kept (.refl)
      | cons fate rest =>
        cases fate with
        | failed =>
          rw [unpublished_target present ended rfl rfl, ended]
          exact remembered.kept (.refl)
        | done => exact lexical_kept present isIntent ended
    | some intent =>
      have ended := @publish_fresh _ _ _ _ runtime published.system.held _ document now fates
        intent _ fingerprint present isIntent
      cases fates with
      | nil =>
        rw [unpublished_target present ended rfl rfl, ended]
        exact remembered.kept (.refl)
      | cons fate rest =>
        cases fate with
        | failed =>
          cases rest <;>
            rw [unpublished_target present ended rfl rfl, ended] <;>
            exact remembered.kept (.refl)
        | done =>
          cases rest with
          | nil =>
            rw [unpublished_target present ended rfl rfl, ended]
            exact interrupted_kept (uninterrupted ⟨present, by simp [isIntent], .inl rfl⟩)
          | cons fate rest =>
            cases fate with
            | failed =>
              rw [unpublished_target present ended rfl rfl, ended]
              exact interrupted_kept
                (uninterrupted ⟨present, by simp [isIntent], .inr ⟨rest, rfl⟩⟩)
            | done => exact refreshed_kept present isIntent safe ended

end

theorem triple_recoverIntent (remembered : Remembered runtime held carried target before)
    (meets : ∀ document, before.document = some document →
      before.intent = some (intentFor runtime document fingerprint) →
      Clean held before ∧
        Trusted held carried before (runtime.searchTextHash document.searchText) fingerprint ∧
        ∀ other, target = some other → other = fingerprint) :
    Triple (fun store => store = before) (recoverVectorTargetIntent runtime held fingerprint now)
      (fun _ => Recovered runtime held carried target fingerprint before)
      (Kept runtime held carried target before) := by
  refine Triple.look_known ?_
  have unchanged := remembered.kept (.refl)
  split
  · rename_i isNone
    refine ok ?_
    rintro store rfl
    exact ⟨unchanged, rfl, fun document _ => by simp [isNone]⟩
  · rename_i isIntent absent
    refine triple_removeIntent (.refl) remembered ?_
    intro document fingerprint present
    nomatch absent.symm.trans present
  · rename_i intent document isIntent present
    split
    · rename_i other
      refine triple_removeIntent (.refl) remembered ?_
      intro current fingerprint isCurrent isTarget
      refine (remembered current fingerprint isCurrent isTarget).resolve_left fun same => other ?_
      cases present.symm.trans isCurrent
      cases isIntent.symm.trans same
      rfl
    · rename_i hash
      split
      · rename_i other
        refine ok ?_
        rintro store rfl
        refine ⟨unchanged, rfl, fun current _ same => other ?_⟩
        cases isIntent.symm.trans same
        rfl
      · rename_i model
        have same : intent = intentFor runtime document fingerprint := by
          cases intent
          simp only [not_not] at hash model
          simp [intentFor, hash, model]
        subst same
        obtain ⟨clean, trusted, only⟩ := meets document present isIntent
        refine Triple.bind ((triple_ensure clean trusted).relax fun store interim =>
          ⟨interim.batches, remembered.interim present only interim⟩) fun _ => ?_
        refine Triple.known fun middle ensured => ?_
        have stays := ensured.document.trans present
        refine triple_removeIntent ensured.toFramed (.of_recorded stays only ensured.recorded) ?_
        intro current other isCurrent isTarget
        cases stays.symm.trans isCurrent
        cases only other isTarget
        exact ensured.recorded

theorem triple_requeueMismatch (remembered : Remembered runtime held carried target before)
    (clean : Clean held before) :
    Triple (fun store => store = before)
      (requeueDimensionMismatch runtime held fingerprint expectedContentHash queryDimensions now)
      (fun _ => Kept runtime held carried target before)
      (Kept runtime held carried target before) := by
  have same := remembered.same
  refine triple_document (guard same fun _ => ?_)
  split
  · exact ok same
  refine load_same ?_
  split
  · exact ok same
  rename_i current here
  split
  · exact ok same
  split
  · exact ok same
  rename_i meant _
  simp only [not_or, not_not] at meant
  obtain ⟨_, hash, model⟩ := meant
  refine Triple.bind ((triple_enqueueNew clean).relax fun _ => remembered.kept)
    fun generationSeq => ?_
  refine write (fun _ ended => remembered.kept ended.1) fun store ended => ?_
  obtain ⟨requeued, placed⟩ := ended
  refine ⟨requeued.batches, remembered.replace here requeued.document requeued.intent rfl hash.symm
    model.symm fun contentHash other matched => .inr ?_⟩
  simp only [vectorStateMatches, VectorState.newPending, Bool.and_eq_true, beq_iff_eq,
    Option.some.injEq] at matched
  obtain ⟨rfl, rfl⟩ := matched
  exact placed.wanted rfl rfl

theorem triple_allocate (clean : Clean held before) : Triple (fun store => store = before)
      (if enqueues then
        enqueueNewVectorGeneration held contentHash fingerprint expectedDimensions current now
      else reserveNewVectorGeneration held current)
      (fun generationSeq store => Requeued held before store ∧ (enqueues = true →
        Placed held store (contentHash, generationSeq, some fingerprint, expectedDimensions)))
      (Requeued held before) := by
  split
  · exact (triple_enqueueNew clean).weaken (fun _ same => same)
      fun _ _ ended => ⟨ended.1, fun _ => ended.2⟩
  · rename_i reserves
    exact triple_reserve.weaken (fun _ same => same)
      fun _ _ requeued => ⟨requeued, fun enqueues => absurd enqueues reserves⟩

theorem triple_requeueExpected (remembered : Remembered runtime held carried target before)
    (clean : Clean held before) :
    Triple (fun store => store = before)
      (requeueExpectedDimensionChange runtime held fingerprint expectedContentHash queryDimensions
        now)
      (fun _ => Kept runtime held carried target before)
      (Kept runtime held carried target before) := by
  have same := remembered.same
  refine triple_document (guard same fun _ => ?_)
  split
  · exact ok same
  refine load_same ?_
  split
  · exact ok same
  rename_i current here
  split
  · exact ok same
  rename_i meant
  simp only [not_or, not_not] at meant
  obtain ⟨unready, rfl, model, _⟩ := meant
  refine Triple.bind ((triple_allocate clean).relax fun _ => remembered.kept)
    fun generationSeq => ?_
  refine write (fun _ ended => remembered.kept ended.1) fun store ended => ?_
  refine changed_kept remembered here ?_ ?_ ?_ model ended.1 ended.2
  · split <;> rfl
  · split
    · exact model.symm
    · rfl
  · intro stays
    simp only [Bool.or_eq_false_iff] at stays
    cases status : current.status with
    | ready => exact absurd status unready
    | pending => simp [status] at stays
    | failed => simp [stays.1, status]

end AgentClaimNetwork.Router
