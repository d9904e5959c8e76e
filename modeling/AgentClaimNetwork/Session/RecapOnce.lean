import AgentClaimNetwork.Session.RecapCheckpoint

/-!
Which messages the checkpoints of a session cover, over whole runs of recaps and
finalizations.
-/

namespace AgentClaimNetwork.Session

open Library List
variable {start stop : Nat} {Stamp History Message Item Hash : Type}
  {state next : RecapState Stamp History Message Item Hash} {checkpoint : FinalizeCheckpoint Hash}

section

variable {hasher : RecapHasher Message Item Hash}

structure RecappedOnce (state : RecapState Stamp History Message Item Hash) : Prop where
  once : state.generations.Pairwise fun early late =>
    early.begun = true → late.begun = true → ∀ index,
      early.recapStartIndex ≤ index → index < early.recapEndIndex →
        ¬ (late.recapStartIndex ≤ index ∧ index < late.recapEndIndex)
  covered : ∀ index, index < state.metadata.recappedUntil →
    ∃ generation ∈ state.generations, generation.begun = true ∧
      generation.recapStartIndex ≤ index ∧ index < generation.recapEndIndex

structure OwnForm (checkpoint later : FinalizeCheckpoint Hash) : Prop where
  recapStartIndex : later.recapStartIndex = checkpoint.recapStartIndex
  recapEndIndex : later.recapEndIndex = checkpoint.recapEndIndex
  recapSegmentHash : later.recapSegmentHash = checkpoint.recapSegmentHash
  preparedClaims : later.preparedClaims = checkpoint.preparedClaims ∨ later.preparedClaims = []

structure KeepsCheckpoint (state next : RecapState Stamp History Message Item Hash) : Prop where
  written : ∀ checkpoint, next.checkpoint = some checkpoint →
    next.checkpoint ≠ state.checkpoint →
      checkpoint.recapStartIndex = state.metadata.recappedUntil
  kept : ∀ checkpoint, state.checkpoint = some checkpoint → checkpoint.status = .prepared →
    (∃ later, next.checkpoint = some later ∧ OwnForm checkpoint later) ∧
      next.metadata.recappedUntil = checkpoint.recapStartIndex

def TakesUp (hasher : RecapHasher Message Item Hash)
    (state : RecapState Stamp History Message Item Hash) :
    RecapLabel Stamp Message Item → Prop
  | .beginRecap recapEndIndex => ∀ checkpoint, state.checkpoint = some checkpoint →
      coversPending state checkpoint → checkpoint.recapEndIndex = recapEndIndex
  | .decide => ∀ checkpoint, state.checkpoint = some checkpoint → coversPending state checkpoint →
      checkpoint.recapStartIndex < checkpoint.recapEndIndex → checkpoint.status = .applied →
        checkpoint.recapEndIndex = state.metadata.messageCount ∧
          checkpoint.recapSegmentHash = hashFinalizeRecapInput hasher
            (segment state.messages state.metadata.recappedUntil state.metadata.messageCount)
            (sessionRecapBackgroundProcessCompletions state)
  | _ => True

section

def Tiled : Nat → List Generation → Nat → Prop
  | start, [], stop => start = stop
  | start, generation :: rest, stop =>
    generation.recapStartIndex = start ∧ generation.recapStartIndex ≤ generation.recapEndIndex ∧
      generation.begun = true ∧ Tiled generation.recapEndIndex rest stop

theorem Tiled.snoc {start stop : Nat} {generations : List Generation}
    (tiled : Tiled start generations stop) {generation : Generation}
    (follows : generation.recapStartIndex = stop)
    (ordered : generation.recapStartIndex ≤ generation.recapEndIndex)
    (begun : generation.begun = true) :
    Tiled start (generations ++ [generation]) generation.recapEndIndex := by
  induction generations generalizing start with
  | nil =>
    obtain rfl : start = stop := tiled
    exact ⟨follows, ordered, begun, rfl⟩
  | cons first rest ih =>
    obtain ⟨first_start, first_ordered, first_begun, later⟩ := tiled
    exact ⟨first_start, first_ordered, first_begun, ih later⟩

variable {generations : List Generation} {start stop : Nat}

section

variable (tiled : Tiled start generations stop)
include tiled

theorem Tiled.bounds :
    start ≤ stop ∧ ∀ generation ∈ generations,
      start ≤ generation.recapStartIndex ∧ generation.recapEndIndex ≤ stop := by
  induction generations generalizing start with
  | nil =>
    obtain rfl : start = stop := tiled
    exact ⟨Nat.le_refl _, by simp⟩
  | cons first rest ih =>
    obtain ⟨first_start, first_ordered, _, later⟩ := tiled
    obtain ⟨upper, inside⟩ := ih later
    refine ⟨by omega, ?_⟩
    intro generation member
    rcases mem_cons.mp member with rfl | inRest
    · omega
    · have bounds := inside generation inRest
      omega

theorem Tiled.covers (lower : start ≤ index) (upper : index < stop) :
    ∃ generation ∈ generations, generation.begun = true ∧
      generation.recapStartIndex ≤ index ∧ index < generation.recapEndIndex := by
  induction generations generalizing start with
  | nil =>
    obtain rfl : start = stop := tiled
    omega
  | cons first rest ih =>
    obtain ⟨first_start, _, begun, later⟩ := tiled
    by_cases inside : index < first.recapEndIndex
    · exact ⟨first, by simp, begun, by omega, inside⟩
    · obtain ⟨generation, member, found⟩ := ih later (by omega)
      exact ⟨generation, by simp [member], found⟩

theorem Tiled.pairwise :
    generations.Pairwise fun early late => early.recapEndIndex ≤ late.recapStartIndex := by
  induction generations generalizing start with
  | nil => exact List.Pairwise.nil
  | cons first rest ih =>
    obtain ⟨_, _, _, later⟩ := tiled
    exact pairwise_cons.mpr ⟨fun other member => (later.bounds.2 other member).1, ih later⟩

end

theorem beginLatest_snoc (generations : List Generation) (latest : Generation) :
    beginLatest (generations ++ [latest]) = generations ++ [{ latest with begun := true }] := by
  simp [beginLatest]

end

def recapHash (hasher : RecapHasher Message Item Hash) (messages : List Message)
    (start stop : Nat) : Hash :=
  hasher.segment (segment messages start stop)

def Pending (recappedUntil : Nat) (checkpoint : FinalizeCheckpoint Hash) : Prop :=
  checkpoint.status = .prepared ∨
    checkpoint.recapStartIndex = recappedUntil ∧ checkpoint.recapStartIndex < checkpoint.recapEndIndex

structure CheckpointSound (hasher : RecapHasher Message Item Hash)
    (state : RecapState Stamp History Message Item Hash) (checkpoint : FinalizeCheckpoint Hash) :
    Prop where
  ordered : checkpoint.recapStartIndex ≤ checkpoint.recapEndIndex
  within : checkpoint.recapEndIndex ≤ state.metadata.messageCount
  reached : checkpoint.recapStartIndex ≤ state.metadata.recappedUntil
  current : checkpoint.status = .prepared →
    checkpoint.recapStartIndex = state.metadata.recappedUntil
  /-- Only a finalization takes completions, and it keeps the session from opening. -/
  foreign : checkpoint.recapStartIndex = state.metadata.recappedUntil →
    checkpoint.recapSegmentHash ≠ recapHash hasher state.messages checkpoint.recapStartIndex
      checkpoint.recapEndIndex →
    state.metadata.status ≠ .opened ∧ checkpoint.recapEndIndex = state.metadata.messageCount
  fresh : checkpoint.status = .prepared →
    checkpoint.recapSegmentHash ≠ recapHash hasher state.messages checkpoint.recapStartIndex
      checkpoint.recapEndIndex →
    (sessionRecapBackgroundProcessCompletions state).items ≠ []
  unclosed : state.metadata.status = .closed → checkpoint.status = .applied

def GoalFits (metadata : SessionMetadata Stamp History) (stop : Nat) : AttemptGoal → Prop
  | .recap recapEndIndex => recapEndIndex = stop
  | .recoverPrefix recapEndIndex => recapEndIndex = stop ∧ metadata.status = .finalizing
  | .finalize messageCount _ => messageCount = stop ∧ stop = metadata.messageCount ∧
      metadata.status = .finalizing

structure Agrees (disk copy : FinalizeCheckpoint Hash) : Prop where
  recapStartIndex : copy.recapStartIndex = disk.recapStartIndex
  recapEndIndex : copy.recapEndIndex = disk.recapEndIndex
  recapSegmentHash : copy.recapSegmentHash = disk.recapSegmentHash
  preparedClaims : copy.preparedClaims = disk.preparedClaims
  status : copy.status = disk.status

structure Holding (state : RecapState Stamp History Message Item Hash)
    (checkpoint : FinalizeCheckpoint Hash) (goal : AttemptGoal) : Prop where
  unclosed : state.metadata.status ≠ .closed
  prepared : checkpoint.status = .prepared
  disk : ∃ disk, state.checkpoint = some disk ∧ Agrees disk checkpoint
  fits : GoalFits state.metadata checkpoint.recapEndIndex goal

structure Generating (hasher : RecapHasher Message Item Hash)
    (state : RecapState Stamp History Message Item Hash) (start stop : Nat) (hash : Hash)
    (goal : AttemptGoal) : Prop where
  unclosed : state.metadata.status ≠ .closed
  atCursor : start = state.metadata.recappedUntil
  ordered : start ≤ stop
  within : stop ≤ state.metadata.messageCount
  fits : GoalFits state.metadata stop goal
  input : hash ≠ recapHash hasher state.messages start stop →
    (∃ messageCount seq, goal = .finalize messageCount seq) ∧
      (sessionRecapBackgroundProcessCompletions state).items ≠ []
  clear : ∀ checkpoint, state.checkpoint = some checkpoint →
    ¬ Pending state.metadata.recappedUntil checkpoint

def AttemptSound (hasher : RecapHasher Message Item Hash)
    (state : RecapState Stamp History Message Item Hash) : Attempt Hash → Prop
  | .deciding => state.metadata.status = .finalizing ∧
      ∀ checkpoint, state.checkpoint = some checkpoint → checkpoint.status = .prepared →
        checkpoint.recapSegmentHash ≠ recapHash hasher state.messages checkpoint.recapStartIndex
          checkpoint.recapEndIndex
  | .generating start stop hash goal => Generating hasher state start stop hash goal
  | .reviewing checkpoint goal => Holding state checkpoint goal
  | .writing checkpoint goal => Holding state checkpoint goal
  | .recording checkpoint goal => Holding state checkpoint goal
  | .finishing goal => state.metadata.status ≠ .closed ∧
      ∃ checkpoint, state.checkpoint = some checkpoint ∧ checkpoint.status = .applied ∧
        checkpoint.recapStartIndex = state.metadata.recappedUntil ∧
        GoalFits state.metadata checkpoint.recapEndIndex goal

def Latest (recappedUntil : Nat) (checkpoint : Option (FinalizeCheckpoint Hash))
    (latest : List Generation) : Prop :=
  match checkpoint with
  | none => latest = []
  | some checkpoint =>
    (¬ Pending recappedUntil checkpoint ∧ latest = []) ∨
    (Pending recappedUntil checkpoint ∧ ∃ generation, latest = [generation] ∧
      generation.recapStartIndex = checkpoint.recapStartIndex ∧
      generation.recapEndIndex = checkpoint.recapEndIndex ∧
      (checkpoint.status = .applied → generation.begun = true))

structure RecapSound (hasher : RecapHasher Message Item Hash)
    (state : RecapState Stamp History Message Item Hash) : Prop where
  counted : state.metadata.messageCount = state.messages.length
  bounded : state.metadata.recappedUntil ≤ state.metadata.messageCount
  complete : state.metadata.status = .closed →
    state.metadata.recappedUntil = state.metadata.messageCount
  checkpoint : ∀ checkpoint, state.checkpoint = some checkpoint →
    CheckpointSound hasher state checkpoint
  attempt : ∀ attempt, state.attempt = some attempt → AttemptSound hasher state attempt
  generations : ∃ settled latest, state.generations = settled ++ latest ∧
    Tiled 0 settled state.metadata.recappedUntil ∧
    Latest state.metadata.recappedUntil state.checkpoint latest

section

variable {state : RecapState Stamp History Message Item Hash}

theorem RecapSound.recappedOnce (sound : RecapSound hasher state) : RecappedOnce state := by
  obtain ⟨settled, latest, split, tiled, current⟩ := sound.generations
  have behind : ∀ generation ∈ latest,
      generation.recapStartIndex = state.metadata.recappedUntil ∧ latest = [generation] := by
    intro generation member
    cases disk : state.checkpoint with
    | none =>
      rw [disk] at current
      obtain rfl : latest = [] := current
      cases member
    | some checkpoint =>
      rw [disk] at current
      rcases current with ⟨_, rfl⟩ | ⟨pending, only, rfl, start, _, _⟩
      · cases member
      · obtain rfl := mem_singleton.mp member
        refine ⟨?_, rfl⟩
        rw [start]
        rcases pending with prepared | ⟨atCursor, _⟩
        · exact (sound.checkpoint checkpoint disk).current prepared
        · exact atCursor
  constructor
  · rw [split, pairwise_append]
    refine ⟨tiled.pairwise.imp fun apart _ _ index lower upper inside => ?_, ?_, ?_⟩
    · omega
    · rcases latest with _ | ⟨only, rest⟩
      · exact List.Pairwise.nil
      · obtain ⟨_, alone⟩ := behind only (by simp)
        rw [alone]
        exact pairwise_singleton _ _
    · intro early settledEarly late isLatest _ _ index lower upper inside
      have bounds := tiled.bounds.2 early settledEarly
      have start := (behind late isLatest).1
      omega
  · intro index below
    obtain ⟨generation, member, found⟩ := tiled.covers (Nat.zero_le index) below
    exact ⟨generation, by rw [split]; exact mem_append_left _ member, found⟩

theorem segment_append (within : stop ≤ messages.length) :
    segment (messages ++ new) start stop = segment messages start stop := by
  rw [segment, segment, take_append_of_le_length within]

theorem items_eq_nil : (sessionRecapBackgroundProcessCompletions state).items = [] ↔
      state.completions.filter (fun completion =>
        state.metadata.recapBackgroundCompletionUntilSeq.getD 0 < completion.1) = [] := by
  unfold sessionRecapBackgroundProcessCompletions
  rw [drop_eq_nil_iff, length_map, ← length_eq_zero_iff]
  have positive : 0 < finalizeBackgroundCompletionMaxItems := by decide
  omega

end

section

/-- What the other writers of the session may do meanwhile: messages while it is open, the
end of the open time, completions. -/
structure Quiet (state next : RecapState Stamp History Message Item Hash) : Prop where
  checkpoint : next.checkpoint = state.checkpoint
  generations : next.generations = state.generations
  recappedUntil : next.metadata.recappedUntil = state.metadata.recappedUntil
  counted : next.metadata.messageCount = next.messages.length
  messages : ∃ new, next.messages = state.messages ++ new
  unopened : state.metadata.status ≠ .opened → next.metadata.status = state.metadata.status ∧
    next.metadata.messageCount = state.metadata.messageCount
  closed : next.metadata.status = .closed → state.metadata.status = .closed
  items : (sessionRecapBackgroundProcessCompletions state).items ≠ [] →
    (sessionRecapBackgroundProcessCompletions next).items ≠ []

theorem Quiet.still (sound : RecapSound hasher state) (metadata : next.metadata = state.metadata)
    (messages : next.messages = state.messages)
    (completions : next.completions = state.completions)
    (checkpoint : next.checkpoint = state.checkpoint)
    (generations : next.generations = state.generations) : Quiet state next where
  checkpoint := checkpoint
  generations := generations
  recappedUntil := by rw [metadata]
  counted := by rw [metadata, messages, sound.counted]
  messages := ⟨[], by rw [messages, append_nil]⟩
  unopened := by simp [metadata]
  closed := by simp [metadata]
  items := by
    unfold sessionRecapBackgroundProcessCompletions
    rw [metadata, completions]
    exact id

theorem Quiet.grows (quiet : Quiet state next) (sound : RecapSound hasher state) :
    state.metadata.messageCount ≤ next.metadata.messageCount := by
  obtain ⟨new, messages⟩ := quiet.messages
  rw [sound.counted, quiet.counted, messages, length_append]
  exact Nat.le_add_right _ _

theorem Quiet.recapHash (quiet : Quiet state next) (sound : RecapSound hasher state)
    (within : stop ≤ state.metadata.messageCount) :
    recapHash hasher next.messages start stop = recapHash hasher state.messages start stop := by
  obtain ⟨new, messages⟩ := quiet.messages
  rw [Session.recapHash, Session.recapHash, messages,
    segment_append (Nat.le_trans within (Nat.le_of_eq sound.counted))]

theorem CheckpointSound.quiet (held : CheckpointSound hasher state checkpoint)
    (quiet : Quiet state next) (sound : RecapSound hasher state) :
    CheckpointSound hasher next checkpoint := by
  have hashes : recapHash hasher next.messages checkpoint.recapStartIndex
      checkpoint.recapEndIndex = _ := quiet.recapHash sound held.within
  constructor
  · exact held.ordered
  · exact Nat.le_trans held.within (quiet.grows sound)
  · rw [quiet.recappedUntil]
    exact held.reached
  · rw [quiet.recappedUntil]
    exact held.current
  · rw [quiet.recappedUntil, hashes]
    intro atCursor different
    obtain ⟨unopened, ends⟩ := held.foreign atCursor different
    obtain ⟨status, count⟩ := quiet.unopened unopened
    rw [status, count]
    exact ⟨unopened, ends⟩
  · rw [hashes]
    exact fun prepared different => quiet.items (held.fresh prepared different)
  · exact fun closed => held.unclosed (quiet.closed closed)

theorem GoalFits.quiet {stop : Nat} (fits : GoalFits state.metadata stop goal)
    (quiet : Quiet state next) : GoalFits next.metadata stop goal := by
  cases goal with
  | recap recapEndIndex => exact fits
  | recoverPrefix recapEndIndex =>
    obtain ⟨ends, finalizing⟩ := fits
    have status := (quiet.unopened (by rw [finalizing]; decide)).1
    exact ⟨ends, status.trans finalizing⟩
  | finalize messageCount seq =>
    obtain ⟨ends, all, finalizing⟩ := fits
    obtain ⟨status, count⟩ := quiet.unopened (by rw [finalizing]; decide)
    exact ⟨ends, all.trans count.symm, status.trans finalizing⟩

theorem AttemptSound.quiet {attempt : Attempt Hash} (held : AttemptSound hasher state attempt)
    (quiet : Quiet state next) (sound : RecapSound hasher state) :
    AttemptSound hasher next attempt := by
  have holding : ∀ {checkpoint goal}, Holding state checkpoint goal →
      Holding next checkpoint goal := by
    intro checkpoint goal held
    refine ⟨mt quiet.closed held.unclosed, held.prepared, ?_, held.fits.quiet quiet⟩
    rw [quiet.checkpoint]
    exact held.disk
  cases attempt with
  | deciding =>
    obtain ⟨finalizing, apart⟩ := held
    have status := (quiet.unopened (by rw [finalizing]; decide)).1
    refine ⟨status.trans finalizing, ?_⟩
    rw [quiet.checkpoint]
    intro checkpoint disk prepared
    rw [quiet.recapHash sound (sound.checkpoint checkpoint disk).within]
    exact apart checkpoint disk prepared
  | generating start stop hash goal =>
    refine ⟨mt quiet.closed held.unclosed, ?_, held.ordered,
      Nat.le_trans held.within (quiet.grows sound), held.fits.quiet quiet, ?_, ?_⟩
    · rw [quiet.recappedUntil]
      exact held.atCursor
    · rw [quiet.recapHash sound held.within]
      intro different
      exact ⟨(held.input different).1, quiet.items (held.input different).2⟩
    · rw [quiet.checkpoint, quiet.recappedUntil]
      exact held.clear
  | reviewing checkpoint goal | writing checkpoint goal | recording checkpoint goal =>
    exact holding held
  | finishing goal =>
    obtain ⟨unclosed, checkpoint, disk, applied, atCursor, fits⟩ := held
    refine ⟨mt quiet.closed unclosed, checkpoint, ?_, applied, ?_, fits.quiet quiet⟩
    · rw [quiet.checkpoint]
      exact disk
    · rw [quiet.recappedUntil]
      exact atCursor

theorem RecapSound.quiet (sound : RecapSound hasher state) (quiet : Quiet state next)
    (attempt : ∀ attempt, next.attempt = some attempt → AttemptSound hasher next attempt) :
    RecapSound hasher next where
  counted := quiet.counted
  bounded := by
    rw [quiet.recappedUntil]
    exact Nat.le_trans sound.bounded (quiet.grows sound)
  complete := by
    intro closed
    have before := quiet.closed closed
    rw [quiet.recappedUntil, (quiet.unopened (by rw [before]; decide)).2]
    exact sound.complete before
  checkpoint := by
    rw [quiet.checkpoint]
    exact fun checkpoint disk => (sound.checkpoint checkpoint disk).quiet quiet sound
  attempt := attempt
  generations := by
    rw [quiet.generations, quiet.recappedUntil, quiet.checkpoint]
    exact sound.generations

theorem Quiet.keeps (quiet : Quiet state next) (sound : RecapSound hasher state) :
    KeepsCheckpoint state next where
  written checkpoint _ changed := absurd quiet.checkpoint changed
  kept := by
    intro checkpoint disk prepared
    rw [quiet.recappedUntil, quiet.checkpoint]
    exact ⟨⟨checkpoint, disk, rfl, rfl, rfl, .inl rfl⟩,
      ((sound.checkpoint checkpoint disk).current prepared).symm⟩

end

section

theorem append_quiet (sound : RecapSound hasher state) (isOpen : state.metadata.status = .opened)
    (new : List Message) (model : Api.Text) :
    Quiet state { state with
      metadata := state.metadata.commitMessages (state.metadata.messageCount + new.length) model
      messages := state.messages ++ new } where
  checkpoint := rfl
  generations := rfl
  recappedUntil := rfl
  counted := by
    rw [length_append, ← sound.counted]
    rfl
  messages := ⟨new, rfl⟩
  unopened other := absurd isOpen other
  closed := id
  items := id

theorem complete_quiet (sound : RecapSound hasher state) (seq : Nat) (item : Item) :
    Quiet state { state with completions := state.completions ++ [(seq, item)] } where
  checkpoint := rfl
  generations := rfl
  recappedUntil := rfl
  counted := sound.counted
  messages := ⟨[], (append_nil _).symm⟩
  unopened _ := ⟨rfl, rfl⟩
  closed := id
  items := by
    rw [ne_eq, ne_eq, items_eq_nil, items_eq_nil, filter_append, append_eq_nil_iff]
    exact fun some_items both => some_items both.1

theorem markFinalizing_cases {metadata later : SessionMetadata Stamp History}
    (marked : metadata.markFinalizing = .ok later) :
    metadata.status = .opened ∧ later = { metadata with status := .finalizing } := by
  unfold SessionMetadata.markFinalizing at marked
  split_ifs at marked with refused
  · refine ⟨?_, (Except.ok.inj marked).symm⟩
    simp only [Bool.or_eq_true, bne_iff_ne, not_or, not_not] at refused
    exact refused.2

variable {metadata : SessionMetadata Stamp History}

theorem markFinalizing_quiet (sound : RecapSound hasher state)
    (marked : state.metadata.markFinalizing = .ok metadata) :
    Quiet state { state with metadata := metadata } := by
  obtain ⟨isOpen, rfl⟩ := markFinalizing_cases marked
  exact ⟨rfl, rfl, rfl, sound.counted, ⟨[], (append_nil _).symm⟩,
    fun other => absurd isOpen other, (nomatch ·), id⟩

theorem markOpenAfterFinalizeTakeover_cases {metadata later : SessionMetadata Stamp History}
    (marked : metadata.markOpenAfterFinalizeTakeover = .ok later) :
    metadata.status = .finalizing ∧ later = { metadata with status := .opened } := by
  unfold SessionMetadata.markOpenAfterFinalizeTakeover at marked
  split_ifs at marked with refused
  · refine ⟨?_, (Except.ok.inj marked).symm⟩
    simp only [Bool.or_eq_true, bne_iff_ne, not_or, not_not] at refused
    exact refused.1.1

theorem CheckpointSound.covers (held : CheckpointSound hasher state checkpoint)
    (atCursor : checkpoint.recapStartIndex = state.metadata.recappedUntil) :
    coversPending state checkpoint :=
  ⟨atCursor, held.ordered, held.within⟩

theorem CheckpointSound.covers_pending (held : CheckpointSound hasher state checkpoint)
    (pending : Pending state.metadata.recappedUntil checkpoint) : coversPending state checkpoint :=
  held.covers (pending.elim held.current And.left)

section

variable (sound : RecapSound hasher state)
include sound

theorem takeover_sound (marked : state.metadata.markOpenAfterFinalizeTakeover = .ok metadata)
    (uncovered : ∀ checkpoint, state.checkpoint = some checkpoint →
      ¬ coversPending state checkpoint) :
    RecapSound hasher { state with
        metadata := metadata
        attempt := state.attempt.filter Attempt.isRecap } ∧
      KeepsCheckpoint state { state with
        metadata := metadata
        attempt := state.attempt.filter Attempt.isRecap } := by
  obtain ⟨finalizing, rfl⟩ := markOpenAfterFinalizeTakeover_cases marked
  have past : ∀ checkpoint, state.checkpoint = some checkpoint →
      checkpoint.recapStartIndex ≠ state.metadata.recappedUntil :=
    fun checkpoint disk atCursor =>
      uncovered checkpoint disk ((sound.checkpoint checkpoint disk).covers atCursor)
  refine ⟨⟨sound.counted, sound.bounded, (nomatch ·), ?_, ?_, sound.generations⟩, ?_, ?_⟩
  · intro checkpoint disk
    have held := sound.checkpoint checkpoint disk
    exact ⟨held.ordered, held.within, held.reached, held.current,
      fun atCursor => absurd atCursor (past checkpoint disk), held.fresh, (nomatch ·)⟩
  · intro attempt found
    obtain ⟨holds, isRecap⟩ := Option.filter_eq_some_iff.mp found
    have held := sound.attempt attempt holds
    have none : ∀ {checkpoint goal}, Holding state checkpoint goal → False := by
      intro checkpoint goal held
      obtain ⟨disk, onDisk, agrees⟩ := held.disk
      exact past disk onDisk ((sound.checkpoint disk onDisk).current
        (agrees.status.symm.trans held.prepared))
    cases attempt with
    | deciding => cases isRecap
    | generating start stop hash goal =>
      cases goal with
      | recap recapEndIndex =>
        exact ⟨by simp, held.atCursor, held.ordered, held.within, held.fits,
          held.input, held.clear⟩
      | recoverPrefix recapEndIndex | finalize messageCount seq => cases isRecap
    | reviewing checkpoint goal | writing checkpoint goal | recording checkpoint goal =>
      exact (none held).elim
    | finishing goal =>
      obtain ⟨_, checkpoint, disk, _, atCursor, _⟩ := held
      exact absurd atCursor (past checkpoint disk)
  · exact fun _ _ changed => absurd rfl changed
  · intro checkpoint disk prepared
    exact absurd ((sound.checkpoint checkpoint disk).current prepared) (past checkpoint disk)

theorem reopen_sound
    (isClosed : state.metadata.status = .closed) (marked : state.metadata.markOpen = .ok metadata) :
    RecapSound hasher { state with metadata := metadata, checkpoint := none } ∧
      KeepsCheckpoint state { state with metadata := metadata, checkpoint := none } := by
  obtain rfl : metadata =
      { state.metadata with status := .opened, closedAt := none, finalizedAt := none } := by
    unfold SessionMetadata.markOpen at marked
    split_ifs at marked
    exact (Except.ok.inj marked).symm
  have idle : state.attempt = none := by
    cases found : state.attempt with
    | none => rfl
    | some attempt =>
      exfalso
      have held := sound.attempt attempt found
      cases attempt with
      | deciding => exact absurd (isClosed.symm.trans held.1) (by decide)
      | generating start stop hash goal | reviewing checkpoint goal | writing checkpoint goal
      | recording checkpoint goal => exact held.unclosed isClosed
      | finishing goal => exact held.1 isClosed
  obtain ⟨settled, latest, split, tiled, current⟩ := sound.generations
  have none_latest : latest = [] := by
    cases disk : state.checkpoint with
    | none =>
      rw [disk] at current
      exact current
    | some checkpoint =>
      rw [disk] at current
      rcases current with ⟨_, nothing⟩ | ⟨prepared | ⟨atCursor, nonempty⟩, _⟩
      · exact nothing
      · have applied := (sound.checkpoint checkpoint disk).unclosed isClosed
        exact absurd (prepared.symm.trans applied) (by decide)
      · have within := (sound.checkpoint checkpoint disk).within
        have all := sound.complete isClosed
        omega
  refine ⟨⟨sound.counted, sound.bounded, (nomatch ·), ?_, ?_, ?_⟩, ?_, ?_⟩
  · intro checkpoint found
    cases found
  · intro attempt found
    exact absurd (idle.symm.trans found) (by simp)
  · exact ⟨settled, latest, split, tiled, none_latest⟩
  · intro checkpoint found
    cases found
  · intro checkpoint disk prepared
    have applied := (sound.checkpoint checkpoint disk).unclosed isClosed
    exact absurd (prepared.symm.trans applied) (by decide)

theorem withAttempt_quiet (attempt : Option (Attempt Hash)) :
    Quiet state { state with attempt := attempt } :=
  Quiet.still sound rfl rfl rfl rfl rfl

theorem withAttempt_sound {attempt : Option (Attempt Hash)}
    (holds : ∀ held, attempt = some held → AttemptSound hasher state held) :
    RecapSound hasher { state with attempt := attempt } ∧
      KeepsCheckpoint state { state with attempt := attempt } := by
  have quiet := withAttempt_quiet sound attempt
  exact ⟨sound.quiet quiet fun held found => (holds held found).quiet quiet sound,
    quiet.keeps sound⟩

end

theorem hash_noBackground (messages : List Message) (start stop : Nat) :
    hashFinalizeRecapInput hasher (segment messages start stop) noBackground =
      recapHash hasher messages start stop := rfl

theorem hash_background
    (different : hashFinalizeRecapInput hasher (segment messages start stop) background ≠
      recapHash hasher messages start stop) : background.items ≠ [] := by
  intro nothing
  apply different
  rw [hashFinalizeRecapInput, nothing]
  rfl

variable [DecidableEq Hash]
variable {attempt : Attempt Hash}

theorem enterSegment_sound (sound : RecapSound hasher state) {stop : Nat}
    (unclosed : state.metadata.status ≠ .closed)
    (ordered : state.metadata.recappedUntil ≤ stop) (within : stop ≤ state.metadata.messageCount)
    (fits : GoalFits state.metadata stop goal)
    (input : background.items ≠ [] → (∃ messageCount seq, goal = .finalize messageCount seq) ∧
      (sessionRecapBackgroundProcessCompletions state).items ≠ [])
    (other : ∀ checkpoint, state.checkpoint = some checkpoint →
      Pending state.metadata.recappedUntil checkpoint →
      checkpoint.recapStartIndex = state.metadata.recappedUntil → checkpoint.recapEndIndex = stop)
    (regenerated : ∀ checkpoint, state.checkpoint = some checkpoint →
      checkpoint.recapStartIndex = state.metadata.recappedUntil →
      checkpoint.recapEndIndex = stop → checkpoint.status = .applied →
      checkpoint.recapStartIndex < checkpoint.recapEndIndex →
      checkpoint.recapSegmentHash = hashFinalizeRecapInput hasher
        (segment state.messages state.metadata.recappedUntil stop) background)
    (entered : enterSegment hasher state state.metadata.recappedUntil stop background goal =
      some attempt) : AttemptSound hasher state attempt := by
  have generating : (∀ checkpoint, state.checkpoint = some checkpoint →
      ¬ Pending state.metadata.recappedUntil checkpoint) →
      Generating hasher state state.metadata.recappedUntil stop
        (hashFinalizeRecapInput hasher (segment state.messages state.metadata.recappedUntil stop)
          background) goal := fun clear =>
    ⟨unclosed, rfl, ordered, within, fits, fun different => input (hash_background different), clear⟩
  unfold enterSegment at entered
  cases disk : state.checkpoint with
  | none =>
    rw [disk] at entered
    obtain rfl := Option.some.inj entered
    exact generating fun checkpoint found => absurd (disk.symm.trans found) (by simp)
  | some checkpoint =>
    have only : ∀ {P : FinalizeCheckpoint Hash → Prop}, P checkpoint →
        ∀ other, state.checkpoint = some other → P other := by
      intro P holds other found
      rw [disk] at found
      exact Option.some.inj found ▸ holds
    have held := sound.checkpoint checkpoint disk
    rw [disk] at entered
    dsimp only at entered
    split_ifs at entered with same hash prepared
    · -- the checkpoint of this very input
      cases status : checkpoint.status with
      | prepared =>
        rw [status] at entered
        obtain rfl := Option.some.inj entered
        exact ⟨unclosed, status, ⟨checkpoint, disk, rfl, rfl, rfl, rfl, rfl⟩, same.2 ▸ fits⟩
      | applied =>
        rw [status] at entered
        obtain rfl := Option.some.inj entered
        exact ⟨unclosed, checkpoint, disk, status, same.1, same.2 ▸ fits⟩
    · -- applied for another input
      obtain rfl := Option.some.inj entered
      refine generating (only ?_)
      have applied : checkpoint.status = .applied := by
        cases status : checkpoint.status with
        | prepared => exact absurd status prepared
        | applied => rfl
      rintro (isPrepared | ⟨_, nonempty⟩)
      · exact prepared isPrepared
      · exact hash (regenerated checkpoint disk same.1 same.2 applied nonempty)
    · -- another range
      obtain rfl := Option.some.inj entered
      refine generating (only ?_)
      intro pending
      have atCursor := (held.covers_pending pending).1
      exact same ⟨atCursor, other checkpoint disk pending atCursor⟩

theorem beginRecap_sound (sound : RecapSound hasher state)
    (isOpen : state.metadata.status = .opened)
    (within : recapEndIndex ≤ state.metadata.messageCount)
    (more : state.metadata.recappedUntil < recapEndIndex)
    (takesUp : TakesUp hasher state (.beginRecap recapEndIndex : RecapLabel Stamp Message Item))
    (entered : enterSegment hasher state state.metadata.recappedUntil recapEndIndex noBackground
      (.recap recapEndIndex) = some attempt) : AttemptSound hasher state attempt := by
  have fits : GoalFits state.metadata recapEndIndex (.recap recapEndIndex) := rfl
  apply enterSegment_sound sound (by rw [isOpen]; decide) (Nat.le_of_lt more) within fits
    (fun items => absurd rfl items) ?_ ?_ entered
  · intro checkpoint disk pending _
    exact takesUp checkpoint disk ((sound.checkpoint checkpoint disk).covers_pending pending)
  · intro checkpoint disk atCursor ends _ _
    by_contra different
    rw [hash_noBackground, ← atCursor, ← ends] at different
    exact ((sound.checkpoint checkpoint disk).foreign atCursor different).1 isOpen

theorem recoverPrefix_sound (sound : RecapSound hasher state)
    (finalizing : state.metadata.status = .finalizing) :
    AttemptSound hasher state (recoverPrefix hasher state) := by
  have unclosed : state.metadata.status ≠ .closed := by rw [finalizing]; decide
  unfold recoverPrefix
  cases disk : state.checkpoint with
  | none =>
    refine ⟨finalizing, fun checkpoint found => ?_⟩
    exact absurd (disk.symm.trans found) (by simp)
  | some checkpoint =>
    have held := sound.checkpoint checkpoint disk
    dsimp only
    split_ifs with matching
    · cases status : checkpoint.status with
      | prepared =>
        exact ⟨unclosed, status, ⟨checkpoint, disk, rfl, rfl, rfl, rfl, rfl⟩, rfl, finalizing⟩
      | applied => exact ⟨unclosed, checkpoint, disk, status, matching.1.1, rfl, finalizing⟩
    · refine ⟨finalizing, fun other found prepared same => ?_⟩
      rw [disk] at found
      obtain rfl := Option.some.inj found
      exact matching ⟨held.covers (held.current prepared), same⟩

theorem decide_sound (sound : RecapSound hasher state) (deciding : state.attempt = some .deciding)
    (takesUp : TakesUp hasher state (.decide : RecapLabel Stamp Message Item))
    (entered : enterSegment hasher state state.metadata.recappedUntil state.metadata.messageCount
      (sessionRecapBackgroundProcessCompletions state)
      (.finalize state.metadata.messageCount seq) = some attempt) :
    AttemptSound hasher state attempt := by
  obtain ⟨finalizing, apart⟩ := sound.attempt _ deciding
  have fits : GoalFits state.metadata state.metadata.messageCount
      (.finalize state.metadata.messageCount seq) := ⟨rfl, rfl, finalizing⟩
  apply enterSegment_sound sound (by rw [finalizing]; decide) sound.bounded (Nat.le_refl _) fits
    (fun items => ⟨⟨_, _, rfl⟩, items⟩) ?_ ?_ entered
  · intro checkpoint disk pending atCursor
    have held := sound.checkpoint checkpoint disk
    by_cases prepared : checkpoint.status = .prepared
    · exact (held.foreign atCursor (apart checkpoint disk prepared)).2
    · have applied : checkpoint.status = .applied := by
        cases status : checkpoint.status with
        | prepared => exact absurd status prepared
        | applied => rfl
      exact (takesUp checkpoint disk (held.covers atCursor)
        (pending.resolve_left prepared).2 applied).1
  · intro checkpoint disk atCursor _ applied nonempty
    exact (takesUp checkpoint disk ((sound.checkpoint checkpoint disk).covers atCursor) nonempty
      applied).2

end

section

variable {disk : FinalizeCheckpoint Hash}

/-- The writes of an attempt that holds its prepared checkpoint. -/
structure Rewrites (state next : RecapState Stamp History Message Item Hash)
    (disk later : FinalizeCheckpoint Hash) : Prop where
  metadata : next.metadata = state.metadata
  messages : next.messages = state.messages
  completions : next.completions = state.completions
  before : state.checkpoint = some disk
  prepared : disk.status = .prepared
  checkpoint : next.checkpoint = some later
  own : OwnForm disk later
  unclosed : state.metadata.status ≠ .closed

theorem sameCompletions (metadata : next.metadata = state.metadata)
    (completions : next.completions = state.completions) :
    sessionRecapBackgroundProcessCompletions next =
      sessionRecapBackgroundProcessCompletions state := by
  unfold sessionRecapBackgroundProcessCompletions
  rw [metadata, completions]

theorem Rewrites.checkpointSound (rewrites : Rewrites state next disk later)
    (sound : RecapSound hasher state) : CheckpointSound hasher next later := by
  have held := sound.checkpoint disk rewrites.before
  have own := rewrites.own
  have items := sameCompletions rewrites.metadata rewrites.completions
  constructor
  · rw [own.recapStartIndex, own.recapEndIndex]
    exact held.ordered
  · rw [own.recapEndIndex, rewrites.metadata]
    exact held.within
  · rw [own.recapStartIndex, rewrites.metadata]
    exact held.reached
  · rw [own.recapStartIndex, rewrites.metadata]
    exact fun _ => held.current rewrites.prepared
  · rw [own.recapStartIndex, own.recapEndIndex, own.recapSegmentHash, rewrites.metadata,
      rewrites.messages]
    exact held.foreign
  · rw [own.recapStartIndex, own.recapEndIndex, own.recapSegmentHash, rewrites.messages, items]
    exact fun _ => held.fresh rewrites.prepared
  · rw [rewrites.metadata]
    exact fun closed => absurd closed rewrites.unclosed

theorem Rewrites.keeps (rewrites : Rewrites state next disk later)
    (sound : RecapSound hasher state) : KeepsCheckpoint state next where
  written := by
    intro checkpoint found _
    obtain rfl := Option.some.inj (rewrites.checkpoint.symm.trans found)
    rw [rewrites.own.recapStartIndex]
    exact (sound.checkpoint disk rewrites.before).current rewrites.prepared
  kept := by
    intro checkpoint found prepared
    obtain rfl := Option.some.inj (rewrites.before.symm.trans found)
    rw [rewrites.metadata]
    exact ⟨⟨later, rewrites.checkpoint, rewrites.own⟩,
      ((sound.checkpoint disk rewrites.before).current prepared).symm⟩

theorem Rewrites.latest (rewrites : Rewrites state next disk later)
    (sound : RecapSound hasher state) :
    ∃ settled generation, state.generations = settled ++ [generation] ∧
      Tiled 0 settled state.metadata.recappedUntil ∧
      generation.recapStartIndex = state.metadata.recappedUntil ∧
      generation.recapStartIndex = later.recapStartIndex ∧
      generation.recapEndIndex = later.recapEndIndex := by
  obtain ⟨settled, latest, split, tiled, current⟩ := sound.generations
  rw [rewrites.before] at current
  rcases current with ⟨idle, _⟩ | ⟨_, generation, rfl, start, stop, _⟩
  · exact absurd (.inl rewrites.prepared) idle
  · refine ⟨settled, generation, split, tiled, ?_, ?_, ?_⟩
    · exact start.trans ((sound.checkpoint disk rewrites.before).current rewrites.prepared)
    · rw [start, rewrites.own.recapStartIndex]
    · rw [stop, rewrites.own.recapEndIndex]

theorem Rewrites.sound (rewrites : Rewrites state next disk later) (sound : RecapSound hasher state)
    (attempt : ∀ attempt, next.attempt = some attempt → AttemptSound hasher next attempt)
    (generations : ∃ settled latest, next.generations = settled ++ latest ∧
      Tiled 0 settled state.metadata.recappedUntil ∧
      Latest state.metadata.recappedUntil (some later) latest) :
    RecapSound hasher next := by
  refine ⟨?_, ?_, ?_, ?_, attempt, ?_⟩
  · rw [rewrites.metadata, rewrites.messages]
    exact sound.counted
  · rw [rewrites.metadata]
    exact sound.bounded
  · rw [rewrites.metadata]
    exact sound.complete
  · intro checkpoint found
    obtain rfl := Option.some.inj (rewrites.checkpoint.symm.trans found)
    exact rewrites.checkpointSound sound
  · rw [rewrites.metadata, rewrites.checkpoint]
    exact generations

theorem Rewrites.sound_prepared (rewrites : Rewrites state next disk later)
    (sound : RecapSound hasher state) (prepared : later.status = .prepared)
    (generations : next.generations = state.generations ∨
      next.generations = beginLatest state.generations)
    (attempt : ∀ attempt, next.attempt = some attempt → AttemptSound hasher next attempt) :
    RecapSound hasher next := by
  obtain ⟨settled, generation, split, tiled, _, start, stop⟩ := rewrites.latest sound
  refine rewrites.sound sound attempt ?_
  have pending : Pending state.metadata.recappedUntil later := .inl prepared
  rcases generations with same | begun
  · exact ⟨settled, [generation], same.trans split, tiled, .inr ⟨pending, generation, rfl, start,
      stop, fun applied => absurd (prepared.symm.trans applied) (by decide)⟩⟩
  · rw [split, beginLatest_snoc] at begun
    exact ⟨settled, _, begun, tiled, .inr ⟨pending, _, rfl, start, stop, fun _ => rfl⟩⟩

theorem Rewrites.sound_applied (rewrites : Rewrites state next disk later)
    (sound : RecapSound hasher state) (applied : later.status = .applied)
    (generations : next.generations = beginLatest state.generations)
    (attempt : ∀ attempt, next.attempt = some attempt → AttemptSound hasher next attempt) :
    RecapSound hasher next := by
  obtain ⟨settled, generation, split, tiled, atCursor, start, stop⟩ := rewrites.latest sound
  rw [split, beginLatest_snoc] at generations
  refine rewrites.sound sound attempt ?_
  by_cases nonempty : later.recapStartIndex < later.recapEndIndex
  · refine ⟨settled, _, generations, tiled, .inr ⟨.inr ⟨?_, nonempty⟩, _, rfl, start, stop,
      fun _ => rfl⟩⟩
    omega
  · -- a range without messages is settled as soon as it is applied
    have ordered := (rewrites.checkpointSound sound).ordered
    refine ⟨settled ++ [{ generation with begun := true }], [],
      generations.trans (append_nil _).symm, ?_, .inl ⟨?_, rfl⟩⟩
    · have longer : ∀ ends, generation.recapEndIndex = ends →
          Tiled 0 (settled ++ [{ generation with begun := true }]) ends := by
        rintro _ rfl
        exact tiled.snoc atCursor (by dsimp only; omega) rfl
      exact longer _ (by omega)
    · rintro (prepared | ⟨_, more⟩)
      · exact absurd (prepared.symm.trans applied) (by decide)
      · exact nonempty more

theorem Holding.rewrites
    (holding : Holding state checkpoint goal) (metadata : next.metadata = state.metadata)
    (messages : next.messages = state.messages)
    (completions : next.completions = state.completions)
    (written : next.checkpoint = some later)
    (own : ∀ disk, Agrees disk checkpoint → OwnForm disk later) :
    ∃ disk, Rewrites state next disk later := by
  obtain ⟨disk, before, agrees⟩ := holding.disk
  exact ⟨disk, metadata, messages, completions, before, agrees.status.symm.trans holding.prepared,
    written, own disk agrees, holding.unclosed⟩

theorem Holding.carry {checkpoint copy : FinalizeCheckpoint Hash}
    (holding : Holding state checkpoint goal) (metadata : next.metadata = state.metadata)
    (ends : copy.recapEndIndex = checkpoint.recapEndIndex) (status : copy.status = .prepared)
    (disk : ∃ disk, next.checkpoint = some disk ∧ Agrees disk copy) : Holding next copy goal := by
  refine ⟨?_, status, disk, ?_⟩
  · rw [metadata]
    exact holding.unclosed
  · rw [metadata, ends]
    exact holding.fits

theorem review_own :
    OwnForm checkpoint (discardStaleFinalizeCheckpoint checkpoint current).1 ∧
      (discardStaleFinalizeCheckpoint checkpoint current).1.status = checkpoint.status ∧
      ((discardStaleFinalizeCheckpoint checkpoint current).2 = false →
        (discardStaleFinalizeCheckpoint checkpoint current).1.preparedClaims =
          checkpoint.preparedClaims) := by
  unfold discardStaleFinalizeCheckpoint
  dsimp only
  split_ifs
  · exact ⟨⟨rfl, rfl, rfl, .inr rfl⟩, rfl, (nomatch ·)⟩
  · exact ⟨⟨rfl, rfl, rfl, .inl rfl⟩, rfl, fun _ => rfl⟩

theorem Agrees.own (agrees : Agrees disk copy) (own : OwnForm copy later) : OwnForm disk later where
  recapStartIndex := own.recapStartIndex.trans agrees.recapStartIndex
  recapEndIndex := own.recapEndIndex.trans agrees.recapEndIndex
  recapSegmentHash := own.recapSegmentHash.trans agrees.recapSegmentHash
  preparedClaims := own.preparedClaims.imp_left fun same => same.trans agrees.preparedClaims

section

variable (sound : RecapSound hasher state) (holding : Holding state checkpoint goal)
include sound holding

theorem review_sound
    (metadata : next.metadata = state.metadata) (messages : next.messages = state.messages)
    (completions : next.completions = state.completions)
    (generations : next.generations = state.generations)
    (written : next.checkpoint =
      if (discardStaleFinalizeCheckpoint checkpoint state.claims).2 then
        some (discardStaleFinalizeCheckpoint checkpoint state.claims).1
      else state.checkpoint)
    (attempt : next.attempt = some
      (.writing (discardStaleFinalizeCheckpoint checkpoint state.claims).1 goal)) :
    RecapSound hasher next ∧ KeepsCheckpoint state next := by
  obtain ⟨own, status, unchanged⟩ := review_own
  have prepared := status.trans holding.prepared
  have nextAttempt : (∃ disk, next.checkpoint = some disk ∧
      Agrees disk (discardStaleFinalizeCheckpoint checkpoint state.claims).1) →
      ∀ held, next.attempt = some held → AttemptSound hasher next held := by
    intro disk held found
    obtain rfl := Option.some.inj (attempt.symm.trans found)
    exact holding.carry metadata own.recapEndIndex prepared disk
  cases stale : (discardStaleFinalizeCheckpoint checkpoint state.claims).2 with
  | true =>
    rw [stale, if_pos rfl] at written
    obtain ⟨disk, rewrites⟩ := holding.rewrites metadata messages completions written
      fun disk agrees => agrees.own own
    exact ⟨rewrites.sound_prepared sound prepared (.inl generations)
      (nextAttempt ⟨_, written, rfl, rfl, rfl, rfl, rfl⟩), rewrites.keeps sound⟩
  | false =>
    rw [stale, if_neg (by simp)] at written
    obtain ⟨disk, before, agrees⟩ := holding.disk
    have quiet : Quiet state next :=
      Quiet.still sound metadata messages completions written generations
    refine ⟨sound.quiet quiet (nextAttempt ⟨disk, written.trans before, ?_⟩), quiet.keeps sound⟩
    exact ⟨own.recapStartIndex.trans agrees.recapStartIndex,
      own.recapEndIndex.trans agrees.recapEndIndex,
      own.recapSegmentHash.trans agrees.recapSegmentHash,
      (unchanged stale).trans agrees.preparedClaims, status.trans agrees.status⟩

theorem writeClaim_sound (applied : List Claim) (written : next = { state with
      claims := claims
      attempt := some (.recording { checkpoint with appliedClaims := applied } goal)
      generations := beginLatest state.generations }) :
    RecapSound hasher next ∧ KeepsCheckpoint state next := by
  subst written
  obtain ⟨disk, before, agrees⟩ := holding.disk
  have prepared := agrees.status.symm.trans holding.prepared
  have rewrites : Rewrites state { state with
      claims := claims
      attempt := some (.recording { checkpoint with appliedClaims := applied } goal)
      generations := beginLatest state.generations } disk disk :=
    ⟨rfl, rfl, rfl, before, prepared, before, ⟨rfl, rfl, rfl, .inl rfl⟩, holding.unclosed⟩
  refine ⟨rewrites.sound_prepared sound prepared (.inr rfl) ?_, rewrites.keeps sound⟩
  intro held found
  obtain rfl := Option.some.inj found
  exact holding.carry rfl rfl holding.prepared ⟨disk, before, agrees.recapStartIndex,
    agrees.recapEndIndex, agrees.recapSegmentHash, agrees.preparedClaims, agrees.status⟩

theorem record_sound (written : next = { state with
      checkpoint := some checkpoint
      attempt := some (.writing checkpoint goal) }) :
    RecapSound hasher next ∧ KeepsCheckpoint state next := by
  obtain ⟨disk, rewrites⟩ : ∃ disk, Rewrites state next disk checkpoint := by
    subst written
    exact holding.rewrites rfl rfl rfl rfl
      fun disk agrees => agrees.own ⟨rfl, rfl, rfl, .inl rfl⟩
  refine ⟨rewrites.sound_prepared sound holding.prepared (.inl (by rw [written])) ?_,
    rewrites.keeps sound⟩
  subst written
  intro held found
  obtain rfl := Option.some.inj found
  exact holding.carry rfl rfl holding.prepared ⟨checkpoint, rfl, rfl, rfl, rfl, rfl, rfl⟩

theorem apply_sound (written : next = { state with
      checkpoint := some { checkpoint with status := .applied }
      attempt := some (.finishing goal)
      generations := beginLatest state.generations }) :
    RecapSound hasher next ∧ KeepsCheckpoint state next := by
  have own : ∀ disk, Agrees disk checkpoint →
      OwnForm disk { checkpoint with status := .applied } := fun disk agrees =>
    agrees.own ⟨rfl, rfl, rfl, .inl rfl⟩
  obtain ⟨disk, rewrites⟩ : ∃ disk, Rewrites state next disk
      { checkpoint with status := .applied } := by
    subst written
    exact holding.rewrites rfl rfl rfl rfl own
  refine ⟨rewrites.sound_applied sound rfl (by rw [written]) ?_, rewrites.keeps sound⟩
  subst written
  intro held found
  obtain rfl := Option.some.inj found
  refine ⟨holding.unclosed, _, rfl, rfl, ?_, holding.fits⟩
  rw [rewrites.own.recapStartIndex]
  exact (sound.checkpoint disk rewrites.before).current rewrites.prepared

end

theorem prepare_sound (sound : RecapSound hasher state) {hash : Hash}
    (generating : Generating hasher state start stop hash goal)
    (analysis prepared : List Claim)
    (written : next = { state with
      checkpoint := some ⟨some analysis, [], start, stop, hash, prepared, .prepared⟩
      attempt := some
        (.reviewing ⟨some analysis, [], start, stop, hash, prepared, .prepared⟩ goal)
      generations := state.generations ++ [⟨start, stop, false⟩] }) :
    RecapSound hasher next ∧ KeepsCheckpoint state next := by
  subst written
  obtain ⟨settled, latest, split, tiled, current⟩ := sound.generations
  have none_latest : latest = [] := by
    cases disk : state.checkpoint with
    | none =>
      rw [disk] at current
      exact current
    | some checkpoint =>
      rw [disk] at current
      rcases current with ⟨_, nothing⟩ | ⟨pending, _⟩
      · exact nothing
      · exact absurd pending (generating.clear checkpoint disk)
  refine ⟨⟨sound.counted, sound.bounded, sound.complete, ?_, ?_, ?_⟩, ?_, ?_⟩
  · intro checkpoint found
    obtain rfl := Option.some.inj found
    refine ⟨generating.ordered, generating.within, Nat.le_of_eq generating.atCursor,
      fun _ => generating.atCursor, ?_, ?_, fun closed => absurd closed generating.unclosed⟩
    · intro _ different
      obtain ⟨⟨messageCount, seq, rfl⟩, _⟩ := generating.input different
      obtain ⟨_, ends, finalizing⟩ := generating.fits
      refine ⟨?_, ends⟩
      rw [finalizing]
      decide
    · exact fun _ different => (generating.input different).2
  · intro held found
    obtain rfl := Option.some.inj found
    exact ⟨generating.unclosed, rfl, ⟨_, rfl, rfl, rfl, rfl, rfl, rfl⟩, generating.fits⟩
  · refine ⟨settled, [⟨start, stop, false⟩], ?_, tiled, .inr ⟨.inl rfl, _, rfl, rfl, rfl, ?_⟩⟩
    · rw [split, none_latest, append_nil]
    · exact fun applied => absurd applied (by simp)
  · intro checkpoint found _
    obtain rfl := Option.some.inj found
    exact generating.atCursor
  · intro checkpoint found isPrepared
    exact absurd (.inl isPrepared) (generating.clear checkpoint found)

theorem advance_generations (sound : RecapSound hasher state)
    (disk : state.checkpoint = some checkpoint)
    (applied : checkpoint.status = .applied)
    (atCursor : checkpoint.recapStartIndex = state.metadata.recappedUntil) :
    ∃ settled latest, state.generations = settled ++ latest ∧
      Tiled 0 settled checkpoint.recapEndIndex ∧
      Latest checkpoint.recapEndIndex (some checkpoint) latest := by
  have held := sound.checkpoint checkpoint disk
  have settles : ¬ Pending checkpoint.recapEndIndex checkpoint := by
    rintro (prepared | ⟨same, nonempty⟩)
    · exact absurd (prepared.symm.trans applied) (by decide)
    · omega
  obtain ⟨settled, latest, split, tiled, current⟩ := sound.generations
  rw [disk] at current
  rcases current with ⟨idle, rfl⟩ | ⟨_, generation, rfl, start, stop, begun⟩
  · refine ⟨settled, [], split, ?_, .inl ⟨settles, rfl⟩⟩
    have empty : ¬ checkpoint.recapStartIndex < checkpoint.recapEndIndex := fun nonempty =>
      idle (.inr ⟨atCursor, nonempty⟩)
    have ordered := held.ordered
    have ends : checkpoint.recapEndIndex = state.metadata.recappedUntil := by omega
    rw [ends]
    exact tiled
  · refine ⟨settled ++ [generation], [], split.trans (append_nil _).symm, ?_,
      Or.inl ⟨settles, rfl⟩⟩
    rw [← stop]
    exact tiled.snoc (start.trans atCursor) (by rw [start, stop]; exact held.ordered)
      (begun applied)

theorem finish_recapped
    {stop : Nat} (fits : GoalFits metadata stop goal)
    (more : metadata.recappedUntil ≤ stop) :
    (finishGoal metadata finalizedAt goal).recappedUntil = stop ∧
      (finishGoal metadata finalizedAt goal).messageCount = metadata.messageCount := by
  cases goal with
  | recap recapEndIndex =>
    obtain rfl : recapEndIndex = stop := fits
    exact ⟨Nat.max_eq_right more, rfl⟩
  | recoverPrefix recapEndIndex | finalize messageCount seq =>
    obtain ⟨rfl, _⟩ := fits
    exact ⟨Nat.max_eq_right more, rfl⟩

theorem finish_sound (sound : RecapSound hasher state)
    (finalizedAt : Stamp) (held : AttemptSound hasher state (.finishing goal))
    (written : next = { state with
      metadata := finishGoal state.metadata finalizedAt goal
      attempt := afterGoal goal }) :
    RecapSound hasher next ∧ KeepsCheckpoint state next := by
  subst written
  obtain ⟨unclosed, checkpoint, disk, applied, atCursor, fits⟩ := held
  have sane := sound.checkpoint checkpoint disk
  obtain ⟨recapped, count⟩ := finish_recapped fits
    (by rw [← atCursor]; exact sane.ordered)
  have isApplied : ∀ other, state.checkpoint = some other → other.status = .applied := by
    intro other found
    obtain rfl := Option.some.inj (disk.symm.trans found)
    exact applied
  have whole : (finishGoal state.metadata finalizedAt goal).status = .closed →
      checkpoint.recapEndIndex = state.metadata.messageCount := by
    cases goal with
    | recap recapEndIndex | recoverPrefix recapEndIndex =>
      exact fun closed => absurd closed unclosed
    | finalize messageCount seq => exact fun _ => fits.2.1
  have notOpened : state.metadata.status ≠ .opened →
      (finishGoal state.metadata finalizedAt goal).status ≠ .opened := by
    cases goal with
    | recap recapEndIndex | recoverPrefix recapEndIndex => exact id
    | finalize messageCount seq => exact fun _ => by simp [finishGoal,
        SessionMetadata.recapAndMarkFinalizedWithBackgroundCursor, SessionMetadata.markFinalized]
  refine ⟨⟨?_, ?_, ?_, ?_, ?_, ?_⟩, ?_, ?_⟩
  · exact count.trans sound.counted
  · rw [recapped]
    exact Nat.le_trans sane.within (Nat.le_of_eq count.symm)
  · intro closed
    exact recapped.trans ((whole closed).trans count.symm)
  · intro other found
    obtain rfl := Option.some.inj (disk.symm.trans found)
    refine ⟨sane.ordered, ?_, ?_, ?_, ?_, ?_, fun _ => applied⟩
    · exact Nat.le_trans sane.within (Nat.le_of_eq count.symm)
    · exact Nat.le_trans sane.ordered (Nat.le_of_eq recapped.symm)
    · exact fun prepared => absurd (prepared.symm.trans applied) (by decide)
    · intro _ different
      obtain ⟨unopened, ends⟩ := sane.foreign atCursor different
      exact ⟨notOpened unopened, ends.trans count.symm⟩
    · exact fun prepared => absurd (prepared.symm.trans applied) (by decide)
  · intro attempt found
    cases goal with
    | recap recapEndIndex | finalize messageCount seq => cases found
    | recoverPrefix recapEndIndex =>
      obtain rfl := Option.some.inj found
      exact ⟨fits.2, fun other onDisk prepared =>
        absurd (prepared.symm.trans (isApplied other onDisk)) (by decide)⟩
  · change ∃ settled latest, state.generations = settled ++ latest ∧
      Tiled 0 settled (finishGoal state.metadata finalizedAt goal).recappedUntil ∧
      Latest (finishGoal state.metadata finalizedAt goal).recappedUntil state.checkpoint latest
    rw [recapped, disk]
    exact advance_generations sound disk applied atCursor
  · exact fun _ _ changed => absurd rfl changed
  · intro other onDisk prepared
    exact absurd (prepared.symm.trans (isApplied other onDisk)) (by decide)

theorem close_sound (sound : RecapSound hasher state) (finalizedAt : Stamp)
    (deciding : state.attempt = some .deciding) (nothing : nothingToRecap state)
    (written : next = { state with
      metadata := state.metadata.markFinalized finalizedAt
      attempt := none }) :
    RecapSound hasher next ∧ KeepsCheckpoint state next := by
  subst written
  obtain ⟨finalizing, apart⟩ := sound.attempt _ deciding
  have whole : state.metadata.recappedUntil = state.metadata.messageCount := by
    have bounded := sound.bounded
    rcases nothing.1 with zero | same
    · omega
    · exact same
  have isApplied : ∀ checkpoint, state.checkpoint = some checkpoint →
      checkpoint.status = .applied := by
    intro checkpoint disk
    cases status : checkpoint.status with
    | applied => rfl
    | prepared =>
      exact absurd nothing.2 ((sound.checkpoint checkpoint disk).fresh status
        (apart checkpoint disk status))
  refine ⟨⟨sound.counted, sound.bounded, fun _ => whole, ?_, ?_, sound.generations⟩, ?_, ?_⟩
  · intro checkpoint disk
    have held := sound.checkpoint checkpoint disk
    refine ⟨held.ordered, held.within, held.reached, held.current, ?_, ?_,
      fun _ => isApplied checkpoint disk⟩
    · exact fun atCursor different => ⟨by simp [SessionMetadata.markFinalized],
        (held.foreign atCursor different).2⟩
    · exact fun prepared =>
        absurd (prepared.symm.trans (isApplied checkpoint disk)) (by decide)
  · intro attempt found
    cases found
  · exact fun _ _ changed => absurd rfl changed
  · intro checkpoint disk prepared
    exact absurd (prepared.symm.trans (isApplied checkpoint disk)) (by decide)

end

section

variable {label : RecapLabel Stamp Message Item}

def RecapState.created (metadata : SessionMetadata Stamp History) (claims : List Claim) :
    RecapState Stamp History Message Item Hash where
  metadata := { metadata with status := .opened, messageCount := 0, recappedUntil := 0 }
  messages := []
  completions := []
  claims := claims
  checkpoint := none
  attempt := none
  generations := []

theorem created_sound :
    RecapSound hasher (RecapState.created metadata claims) where
  counted := rfl
  bounded := Nat.le_refl 0
  complete _ := rfl
  checkpoint _ found := nomatch found
  attempt _ found := nomatch found
  generations := ⟨[], [], rfl, rfl, rfl⟩

variable [DecidableEq Hash]

theorem RecapSound.step (sound : RecapSound hasher state)
    (taken : RecapStep hasher state label next) (takesUp : TakesUp hasher state label) :
    RecapSound hasher next ∧ KeepsCheckpoint state next := by
  have carried : Quiet state next → next.attempt = state.attempt →
      RecapSound hasher next ∧ KeepsCheckpoint state next := by
    intro quiet same
    refine ⟨sound.quiet quiet fun attempt found => ?_, quiet.keeps sound⟩
    exact (sound.attempt attempt (same.symm.trans found)).quiet quiet sound
  cases taken with
  | append new model isOpen _ => exact carried (append_quiet sound isOpen new model) rfl
  | complete seq item => exact carried (complete_quiet sound seq item) rfl
  | editClaims claims => exact carried (Quiet.still sound rfl rfl rfl rfl rfl) rfl
  | markFinalizing marked => exact carried (markFinalizing_quiet sound marked) rfl
  | reopen isClosed marked => exact reopen_sound sound isClosed marked
  | takeover marked uncovered _ => exact takeover_sound sound marked uncovered
  | stop => exact withAttempt_sound sound fun held found => nomatch found
  | beginRecap recapEndIndex _ isOpen _ _ within more =>
    exact withAttempt_sound sound fun held found =>
      beginRecap_sound sound isOpen within more takesUp found
  | beginFinalize _ _ _ finalizing _ =>
    refine withAttempt_sound sound fun held found => ?_
    obtain rfl := Option.some.inj found
    exact recoverPrefix_sound sound finalizing
  | decide deciding _ =>
    exact withAttempt_sound sound fun held found => decide_sound sound deciding takesUp found
  | close finalizedAt deciding nothing => exact close_sound sound finalizedAt deciding nothing rfl
  | prepare analysis prepared generating =>
    exact prepare_sound sound (sound.attempt _ generating) analysis prepared rfl
  | review reviewing =>
    exact review_sound sound (sound.attempt _ reviewing) rfl rfl rfl rfl rfl rfl
  | writeClaim writing _ => exact writeClaim_sound sound (sound.attempt _ writing) _ rfl
  | record recording => exact record_sound sound (sound.attempt _ recording) rfl
  | apply writing _ => exact apply_sound sound (sound.attempt _ writing) rfl
  | finish finalizedAt finishing =>
    exact finish_sound sound finalizedAt (sound.attempt _ finishing) rfl

def CarefulStep (hasher : RecapHasher Message Item Hash)
    (state : RecapState Stamp History Message Item Hash) (label : RecapLabel Stamp Message Item)
    (next : RecapState Stamp History Message Item Hash) : Prop :=
  RecapStep hasher state label next ∧ TakesUp hasher state label

/-- In a run of careful steps every message is recapped once, and every step keeps the
checkpoint on disk. -/
theorem messages_recapped_once (hasher : RecapHasher Message Item Hash)
    {metadata : SessionMetadata Stamp History} {claims : List Claim}
    {labels : List (RecapLabel Stamp Message Item)}
    (run : Trace (CarefulStep hasher) (RecapState.created metadata claims) labels state) :
    RecappedOnce state ∧
      ∀ label next, CarefulStep hasher state label next → KeepsCheckpoint state next := by
  have sound : RecapSound hasher state :=
    run.invariant (fun taken sound => (sound.step taken.1 taken.2).1) created_sound
  exact ⟨sound.recappedOnce, fun label next taken => (sound.step taken.1 taken.2).2⟩

end

end

namespace LongerRecap

def claim (id : ClaimId) : Claim :=
  ⟨id, "name", "statement", "", "agent", .high, .active, 0, none, [], ""⟩

def lengths : RecapHasher Unit Unit Nat := ⟨length, fun messages _ => messages.length⟩

def metadata : SessionMetadata Unit Unit :=
  ⟨"session".toList, "agent".toList, .opened, none, "model".toList, 0, none, 0, some 0, some 0, none⟩

abbrev State := RecapState Unit Unit Unit Unit Nat

def stage (count : Nat) (claims : List Claim) (checkpoint : Option (FinalizeCheckpoint Nat))
    (attempt : Option (Attempt Nat)) (generations : List Generation) : State where
  metadata := { metadata with messageCount := count }
  messages := replicate count ()
  completions := []
  claims := claims
  checkpoint := checkpoint
  attempt := attempt
  generations := generations

def first : FinalizeCheckpoint Nat := ⟨some [], [], 0, 2, 2, [claim "claim_a"], .prepared⟩

def second : FinalizeCheckpoint Nat :=
  ⟨some [claim "claim_a"], [], 0, 3, 3, [claim "claim_b"], .prepared⟩

theorem first_fresh : discardStaleFinalizeCheckpoint first [] = (first, false) := by
  decide +kernel

theorem second_fresh :
    discardStaleFinalizeCheckpoint second [claim "claim_a"] = (second, false) := by
  decide +kernel

/-- The labels of a recap of `count` messages that stops behind its first claim. -/
def recapLabels (count : Nat) (analysis prepared : List Claim) : List (RecapLabel Unit Unit Unit) :=
  [.beginRecap count, .prepare analysis prepared, .review, .writeClaim, .stop]

theorem review_fresh {state : State} {checkpoint reviewed : FinalizeCheckpoint Nat}
    (reviewing : state.attempt = some (.reviewing checkpoint goal))
    (fresh : discardStaleFinalizeCheckpoint checkpoint state.claims = (reviewed, false)) :
    CarefulStep lengths state .review { state with attempt := some (.writing reviewed goal) } := by
  have step := @RecapStep.review _ _ _ _ _ lengths _ state checkpoint goal reviewing
  rw [fresh] at step
  exact ⟨step, trivial⟩

theorem firstRun : Trace (CarefulStep lengths) (RecapState.created metadata [] : State)
      (.append [(), ()] metadata.model :: recapLabels 2 [] [claim "claim_a"])
      (stage 2 [claim "claim_a"] (some first) none [⟨0, 2, true⟩]) := by
  have appended : CarefulStep lengths (RecapState.created metadata [] : State)
      (.append [(), ()] metadata.model) (stage 2 [] none none []) :=
    ⟨.append [(), ()] _ rfl rfl, trivial⟩
  have begun : CarefulStep lengths (stage 2 [] none none []) (.beginRecap 2)
      (stage 2 [] none (some (.generating 0 2 2 (.recap 2))) []) :=
    ⟨.beginRecap 2 rfl rfl rfl rfl (by decide) (by decide), fun _ found => nomatch found⟩
  have prepared : CarefulStep lengths (stage 2 [] none (some (.generating 0 2 2 (.recap 2))) [])
      (.prepare [] [claim "claim_a"])
      (stage 2 [] (some first) (some (.reviewing first (.recap 2))) [⟨0, 2, false⟩]) :=
    ⟨.prepare [] [claim "claim_a"] rfl, trivial⟩
  have reviewed : CarefulStep lengths
      (stage 2 [] (some first) (some (.reviewing first (.recap 2))) [⟨0, 2, false⟩]) .review
      (stage 2 [] (some first) (some (.writing first (.recap 2))) [⟨0, 2, false⟩]) :=
    review_fresh rfl first_fresh
  have written : CarefulStep lengths
      (stage 2 [] (some first) (some (.writing first (.recap 2))) [⟨0, 2, false⟩]) .writeClaim
      (stage 2 [claim "claim_a"] (some first)
        (some (.recording { first with appliedClaims := [claim "claim_a"] } (.recap 2)))
        [⟨0, 2, true⟩]) :=
    ⟨.writeClaim rfl rfl, trivial⟩
  exact ((((((Trace.single appended).snoc begun).snoc prepared).snoc reviewed).snoc written).snoc
    ⟨.stop, trivial⟩)

theorem secondRun :
    Trace (RecapStep lengths) (stage 2 [claim "claim_a"] (some first) none [⟨0, 2, true⟩])
      (.append [()] metadata.model :: recapLabels 3 [claim "claim_a"] [claim "claim_b"])
      (stage 3 [claim "claim_a", claim "claim_b"] (some second) none
        [⟨0, 2, true⟩, ⟨0, 3, true⟩]) := by
  have appended : RecapStep lengths
      (stage 2 [claim "claim_a"] (some first) none [⟨0, 2, true⟩]) (.append [()] metadata.model)
      (stage 3 [claim "claim_a"] (some first) none [⟨0, 2, true⟩]) :=
    .append [()] _ rfl rfl
  have begun : RecapStep lengths
      (stage 3 [claim "claim_a"] (some first) none [⟨0, 2, true⟩]) (.beginRecap 3)
      (stage 3 [claim "claim_a"] (some first) (some (.generating 0 3 3 (.recap 3)))
        [⟨0, 2, true⟩]) :=
    .beginRecap 3 rfl rfl rfl rfl (by decide) (by decide)
  have prepared : RecapStep lengths
      (stage 3 [claim "claim_a"] (some first) (some (.generating 0 3 3 (.recap 3)))
        [⟨0, 2, true⟩]) (.prepare [claim "claim_a"] [claim "claim_b"])
      (stage 3 [claim "claim_a"] (some second) (some (.reviewing second (.recap 3)))
        [⟨0, 2, true⟩, ⟨0, 3, false⟩]) :=
    .prepare [claim "claim_a"] [claim "claim_b"] rfl
  have written : RecapStep lengths
      (stage 3 [claim "claim_a"] (some second) (some (.writing second (.recap 3)))
        [⟨0, 2, true⟩, ⟨0, 3, false⟩]) .writeClaim
      (stage 3 (writeClaim [claim "claim_a"] (claim "claim_b")) (some second)
        (some (.recording { second with appliedClaims := [claim "claim_b"] } (.recap 3)))
        [⟨0, 2, true⟩, ⟨0, 3, true⟩]) :=
    .writeClaim rfl rfl
  have claims : writeClaim [claim "claim_a"] (claim "claim_b") =
      [claim "claim_a", claim "claim_b"] := by decide +kernel
  exact (((((Trace.single appended).snoc begun).snoc prepared).snoc
    (review_fresh rfl second_fresh).1).snoc written).snoc .stop

def reviewed : FinalizeCheckpoint Nat := { first with appliedClaims := [claim "claim_a"] }

def last : FinalizeCheckpoint Nat := ⟨some [claim "claim_a"], [], 2, 3, 1, [], .prepared⟩

theorem first_reviewed : discardStaleFinalizeCheckpoint first [claim "claim_a"] =
    (reviewed, false) := by decide +kernel

theorem last_fresh : discardStaleFinalizeCheckpoint last [claim "claim_a"] = (last, false) := by
  decide +kernel

/-- A state behind the first recap. -/
def recapped (count : Nat) (status : SessionStatus) (checkpoint : FinalizeCheckpoint Nat)
    (attempt : Option (Attempt Nat)) (generations : List Generation) : State :=
  { stage count [claim "claim_a"] (some checkpoint) attempt generations with
    metadata := { metadata with status, messageCount := count, recappedUntil := 2 } }

/-- The recap that stopped is taken up and applied; then the session grows and is finalized. -/
theorem closingRun : ∃ labels, ∃ state : State,
    Trace (CarefulStep lengths) (RecapState.created metadata []) labels state ∧
      state.metadata.status = .closed ∧ state.metadata.recappedUntil = 3 ∧
      state.messages.length = 3 ∧ state.generations = [⟨0, 2, true⟩, ⟨2, 3, true⟩] ∧
      state.checkpoint = some { last with status := .applied } := by
  have begun : CarefulStep lengths (stage 2 [claim "claim_a"] (some first) none [⟨0, 2, true⟩])
      (.beginRecap 2) (stage 2 [claim "claim_a"] (some first)
        (some (.reviewing first (.recap 2))) [⟨0, 2, true⟩]) := by
    refine ⟨.beginRecap 2 rfl rfl rfl rfl (by decide) (by decide), fun _ found _ => ?_⟩
    cases found
    rfl
  have applied : CarefulStep lengths (stage 2 [claim "claim_a"] (some first)
        (some (.writing reviewed (.recap 2))) [⟨0, 2, true⟩]) .apply
      (stage 2 [claim "claim_a"] (some { reviewed with status := .applied })
        (some (.finishing (.recap 2))) [⟨0, 2, true⟩]) := ⟨.apply rfl rfl, trivial⟩
  have advanced : CarefulStep lengths
      (stage 2 [claim "claim_a"] (some { reviewed with status := .applied })
        (some (.finishing (.recap 2))) [⟨0, 2, true⟩]) (.finish ())
      (recapped 2 .opened { reviewed with status := .applied } none [⟨0, 2, true⟩]) :=
    ⟨@RecapStep.finish _ _ _ _ _ lengths _ (stage ..) (.recap 2) () rfl, trivial⟩
  have appended : CarefulStep lengths
      (recapped 2 .opened { reviewed with status := .applied } none [⟨0, 2, true⟩])
      (.append [()] metadata.model)
      (recapped 3 .opened { reviewed with status := .applied } none [⟨0, 2, true⟩]) :=
    ⟨.append [()] _ rfl rfl, trivial⟩
  have marked : CarefulStep lengths
      (recapped 3 .opened { reviewed with status := .applied } none [⟨0, 2, true⟩]) .markFinalizing
      (recapped 3 .finalizing { reviewed with status := .applied } none [⟨0, 2, true⟩]) :=
    ⟨.markFinalizing rfl, trivial⟩
  have entered : CarefulStep lengths
      (recapped 3 .finalizing { reviewed with status := .applied } none [⟨0, 2, true⟩])
      .beginFinalize (recapped 3 .finalizing { reviewed with status := .applied }
        (some .deciding) [⟨0, 2, true⟩]) := ⟨.beginFinalize rfl rfl rfl rfl rfl, trivial⟩
  have decided : CarefulStep lengths (recapped 3 .finalizing { reviewed with status := .applied }
        (some .deciding) [⟨0, 2, true⟩]) .decide
      (recapped 3 .finalizing { reviewed with status := .applied }
        (some (.generating 2 3 1 (.finalize 3 0))) [⟨0, 2, true⟩]) := by
    refine ⟨.decide rfl fun none => absurd none.1 (by decide), fun _ found covers => ?_⟩
    cases found
    cases covers.1
  have prepared : CarefulStep lengths (recapped 3 .finalizing
        { reviewed with status := .applied } (some (.generating 2 3 1 (.finalize 3 0)))
        [⟨0, 2, true⟩]) (.prepare [claim "claim_a"] [])
      (recapped 3 .finalizing last (some (.reviewing last (.finalize 3 0)))
        [⟨0, 2, true⟩, ⟨2, 3, false⟩]) := ⟨.prepare _ _ rfl, trivial⟩
  have closing : CarefulStep lengths (recapped 3 .finalizing last
        (some (.writing last (.finalize 3 0))) [⟨0, 2, true⟩, ⟨2, 3, false⟩]) .apply
      (recapped 3 .finalizing { last with status := .applied }
        (some (.finishing (.finalize 3 0))) [⟨0, 2, true⟩, ⟨2, 3, true⟩]) :=
    ⟨.apply rfl rfl, trivial⟩
  have resumed := ((firstRun.snoc begun).snoc (review_fresh rfl first_reviewed)).snoc applied
  have recapped := ((resumed.snoc advanced).snoc appended).snoc marked
  have finalizing := ((recapped.snoc entered).snoc decided).snoc prepared
  exact ⟨_, _, ((finalizing.snoc (review_fresh rfl last_fresh)).snoc closing).snoc
    ⟨.finish () rfl, trivial⟩, rfl, rfl, rfl, rfl, rfl⟩

end LongerRecap

theorem messages_recapped_once_closed : ∃ labels, ∃ state : LongerRecap.State,
    Trace (CarefulStep LongerRecap.lengths) (RecapState.created LongerRecap.metadata []) labels
        state ∧
      state.metadata.recappedUntil = 3 ∧ state.generations = [⟨0, 2, true⟩, ⟨2, 3, true⟩] ∧
      RecappedOnce state ∧ ∀ label next, CarefulStep LongerRecap.lengths state label next →
        KeepsCheckpoint state next := by
  obtain ⟨labels, state, run, -, recapped, -, generations, -⟩ := LongerRecap.closingRun
  exact ⟨labels, state, run, recapped, generations, messages_recapped_once LongerRecap.lengths run⟩

/-- The second recap has a larger target, so it replaces the prepared checkpoint of the first
and both write claims for the first two messages. -/
theorem longer_recap_recaps_twice : ∃ labels, ∃ state : LongerRecap.State,
      Trace (RecapStep LongerRecap.lengths) (RecapState.created LongerRecap.metadata []) labels
        state ∧ ¬ RecappedOnce state := by
  refine ⟨_, _, (LongerRecap.firstRun.mono And.left).append LongerRecap.secondRun, ?_⟩
  intro once
  have apart := (pairwise_cons.mp once.once).1 ⟨0, 3, true⟩ (by simp) rfl rfl 0 (by simp)
    (by simp)
  exact apart (by simp)

/-- A checkpoint stays within the transcript, and a session that is closed has recapped every
message under a checkpoint that was begun. -/
theorem closed_session_is_recapped [DecidableEq Hash] (hasher : RecapHasher Message Item Hash)
    {metadata : SessionMetadata Stamp History} {claims : List Claim}
    {labels : List (RecapLabel Stamp Message Item)}
    {state : RecapState Stamp History Message Item Hash}
    (run : Trace (CarefulStep hasher) (RecapState.created metadata claims) labels state) :
    (∀ checkpoint, state.checkpoint = some checkpoint →
      checkpoint.recapStartIndex ≤ checkpoint.recapEndIndex ∧
        checkpoint.recapEndIndex ≤ state.messages.length) ∧
    (state.metadata.status = .closed →
      (∀ checkpoint, state.checkpoint = some checkpoint → checkpoint.status = .applied) ∧
        ∀ index < state.messages.length, ∃ generation ∈ state.generations,
          generation.begun = true ∧ generation.recapStartIndex ≤ index ∧
            index < generation.recapEndIndex) := by
  have sound : RecapSound hasher state :=
    run.invariant (fun taken sound => (sound.step taken.1 taken.2).1) created_sound
  rw [← sound.counted]
  refine ⟨fun checkpoint found => ?_, fun closed => ⟨fun checkpoint found => ?_, ?_⟩⟩
  · exact ⟨(sound.checkpoint checkpoint found).ordered, (sound.checkpoint checkpoint found).within⟩
  · exact (sound.checkpoint checkpoint found).unclosed closed
  · rw [← sound.complete closed]
    exact sound.recappedOnce.covered

theorem closed_session_is_recapped_closed : ∃ labels, ∃ state : LongerRecap.State,
    Trace (CarefulStep LongerRecap.lengths) (RecapState.created LongerRecap.metadata []) labels
        state ∧
      state.metadata.status = .closed ∧ state.messages.length = 3 ∧
      (∀ checkpoint, state.checkpoint = some checkpoint → checkpoint.status = .applied) ∧
      ∀ index < state.messages.length, ∃ generation ∈ state.generations,
        generation.begun = true ∧ generation.recapStartIndex ≤ index ∧
          index < generation.recapEndIndex := by
  obtain ⟨labels, state, run, closed, -, messages, -⟩ := LongerRecap.closingRun
  exact ⟨labels, state, run, closed, messages, (closed_session_is_recapped LongerRecap.lengths run).2 closed⟩

end AgentClaimNetwork.Session
