import AgentClaimNetwork.Storage.Jsonl

/-!
Which records a rotating log keeps.  The age of an archive is only in its name, so the names have
to rise.
-/

namespace AgentClaimNetwork.Storage

open Library LineLog List

variable {Record : Type}

structure Call (Record : Type) where
  record : Record
  config : JsonlRotationConfig

structure Log (Record : Type) where
  store : Store
  appended : List Record

def Log.initial : Log Record := ⟨Store.initial, []⟩

def Log.append (codec : RecordCodec Record) (clock : Clock) (log : Log Record)
    (call : Call Record) : Log Record :=
  let (store, wrote, _) := appendJsonlRecord codec clock call.config call.record log.store
  ⟨store, if wrote then log.appended ++ [call.record] else log.appended⟩

def NoGap (clock : Clock) (store : Store) : Prop :=
  ∀ timestamp suffix attempt, Stamped timestamp suffix →
    archiveName timestamp suffix ∈ archivePaths store.dir →
    attempt < suffix → clock.read (store.instant + attempt) = timestamp →
    archiveName timestamp attempt ∈ archivePaths store.dir

def Orderly (clock : Clock) (config : JsonlRotationConfig) (store : Store) : Prop :=
  Rotates config store → NoGap clock store

structure Meets (codec : RecordCodec Record) (clock : Clock) (log : Log Record)
    (call : Call Record) : Prop where
  before : Orderly clock call.config log.store
  behind : Orderly clock call.config
    (writeLine (rotateIfNeeded clock call.config log.store).1 (lineBytes codec call.record))

/-- What is on disk, archive by archive, and what has been removed. -/
structure Kept (codec : RecordCodec Record) (clock : Clock) (store : Store)
    (appended : List Record) (lost : List Record) (archived : List (Archive Record))
    (current : List Record) : Prop where
  aged : Archive.Aged archived
  files : store.dir.files = archived.map (Archive.file codec)
  past : ∀ archive ∈ archived, archive.timestamp ≤ clock.read store.instant
  opened : store.dir.current.getD [] = frame (current.map codec.text)
  split : appended = lost ++ (archived.flatMap Archive.records ++ current)
  fresh : lost ≠ [] → archived.flatMap Archive.records ++ current ≠ []
  newest : store.dir.files <:+ store.made

def Keeps (codec : RecordCodec Record) (clock : Clock) (store : Store) (appended : List Record) :
    Prop :=
  ∃ lost archived current, Kept codec clock store appended lost archived current

section

variable {codec : RecordCodec Record} {clock : Clock} {store : Store} {appended : List Record}

theorem Keeps.initial : Keeps codec clock Store.initial [] :=
  ⟨[], [], [], ⟨by simp, List.Pairwise.nil⟩, rfl, by simp, rfl, rfl, by simp, nil_suffix⟩

section

variable {lost : List Record} {archived : List (Archive Record)} {current : List Record}

theorem Kept.write (kept : Kept codec clock store appended lost archived current)
    (record : Record) :
    Kept codec clock (writeLine store (lineBytes codec record)) (appended ++ [record]) lost
      archived (current ++ [record]) where
  aged := kept.aged
  files := kept.files
  past := kept.past
  opened := by
    simp only [writeLine, Option.getD_some, kept.opened, map_append, frame_append]
    simp [lineBytes]
  split := by
    rw [kept.split]
    simp
  fresh _ := by simp
  newest := kept.newest

theorem cleanupArchives_current (dir : Directory) (backupCount : Nat) :
    (cleanupArchives dir backupCount).current = dir.current := by
  unfold cleanupArchives
  dsimp only
  split_ifs <;> rfl

theorem Kept.chosen (kept : Kept codec clock store appended lost archived current)
    (noGap : NoGap clock store) {attempt : Nat}
    (chosen : uniqueArchivePath clock store = some attempt) :
    Archive.Aged (archived ++
      [⟨clock.read (store.instant + attempt), attempt, current⟩]) := by
  obtain ⟨free, few, _⟩ := List.find?_range_eq_some.mp chosen
  rw [Option.isNone_iff_eq_none] at free
  have absent : ∀ archive ∈ archived,
      archive.name ≠ archiveName (clock.read (store.instant + attempt)) attempt := by
    intro archive member same
    have found := kept.aged.contents kept.files member
    rw [same, free] at found
    cases found
  constructor
  · intro archive member
    rcases mem_concat member with old | rfl
    · exact kept.aged.named archive old
    · exact ⟨clock.low _, clock.high _, mem_range.mp few⟩
  · rw [pairwise_append]
    refine ⟨kept.aged.order, pairwise_singleton _ _, ?_⟩
    intro archive member new isNew
    rw [mem_singleton.mp isNew]
    have past := kept.past archive member
    have later : clock.read store.instant ≤ clock.read (store.instant + attempt) :=
      clock.monotone (Nat.le_add_right _ _)
    rcases lt_or_eq_of_le (past.trans later) with earlier | same
    · exact Or.inl earlier
    · right
      refine ⟨same, ?_⟩
      rcases Nat.lt_trichotomy archive.suffix attempt with below | equal | above
      · exact below
      · refine absurd ?_ (absent archive member)
        unfold Archive.name
        rw [same, equal]
      · have onDisk : archive.name ∈ archivePaths store.dir := by
          rw [Archive.archivePaths_files kept.files]
          exact mem_map_of_mem member
        have smaller := noGap archive.timestamp archive.suffix attempt
          (kept.aged.named archive member) onDisk above same.symm
        rw [Archive.archivePaths_files kept.files] at smaller
        obtain ⟨other, belongs, named⟩ := mem_map.mp smaller
        rw [same] at named
        exact absurd named (absent other belongs)

theorem Kept.rotated (kept : Kept codec clock store appended lost archived current)
    (noGap : NoGap clock store) {attempt backupCount : Nat} (due : store.dir.current = some bytes)
    (written : bytes ≠ []) (positive : 0 < backupCount)
    (chosen : uniqueArchivePath clock store = some attempt) : Keeps codec clock
      { dir := cleanupArchives ⟨store.dir.files ++
          [(archiveName (clock.read (store.instant + attempt)) attempt, bytes)], none⟩ backupCount
        instant := store.instant + attempt + 1
        made := store.made ++
          [(archiveName (clock.read (store.instant + attempt)) attempt, bytes)] } appended := by
  have aged := kept.chosen noGap chosen
  have content : bytes = frame (current.map codec.text) := by
    have whole := kept.opened
    rwa [due, Option.getD_some] at whole
  have some_current : current ≠ [] := by
    rintro rfl
    exact written content
  generalize isNew :
    (⟨clock.read (store.instant + attempt), attempt, current⟩ : Archive Record) = new at aged
  have filed : (archiveName (clock.read (store.instant + attempt)) attempt, bytes) =
      new.file codec := by
    rw [← isNew, content]
    rfl
  have files : store.dir.files ++ [new.file codec] = (archived ++ [new]).map (Archive.file codec) := by
    rw [kept.files, map_append]
    rfl
  rw [filed]
  have cleaned : (cleanupArchives ⟨store.dir.files ++ [new.file codec], none⟩ backupCount).files =
      ((archived ++ [new]).drop ((archived ++ [new]).length - backupCount)).map
        (Archive.file codec) := aged.cleanupArchives files
  -- the newest archive is never among those that are dropped
  have short : (archived ++ [new]).length - backupCount ≤ archived.length := by
    rw [length_append, length_singleton]
    omega
  generalize (archived ++ [new]).length - backupCount = count at cleaned short
  have rest : (archived ++ [new]).drop count = archived.drop count ++ [new] :=
    drop_append_of_le_length short
  have newRecords : new.records = current := by rw [← isNew]
  refine ⟨lost ++ (archived.take count).flatMap Archive.records, archived.drop count ++ [new], [],
    ?_, ?_, ?_, ?_, ?_, ?_, ?_⟩
  · rw [← rest]
    exact aged.drop
  · rw [← rest]
    exact cleaned
  · intro archive member
    rcases mem_concat member with old | latest
    · exact (kept.past archive (mem_of_mem_drop old)).trans
        (clock.monotone (show store.instant ≤ store.instant + attempt + 1 by omega))
    · rw [latest, ← isNew]
      exact clock.monotone (Nat.le_succ _)
  · rw [cleanupArchives_current]
    rfl
  · have parts : archived.flatMap Archive.records =
        (archived.take count).flatMap Archive.records ++
          (archived.drop count).flatMap Archive.records := by
      rw [← flatMap_append, take_append_drop]
    rw [kept.split, parts, flatMap_append, flatMap_singleton, newRecords]
    simp only [append_assoc, append_nil]
  · intro _
    simp [newRecords, some_current]
  · rw [cleaned]
    have whole : (archived ++ [new]).map (Archive.file codec) <:+
        store.made ++ [new.file codec] := by
      rw [← files]
      obtain ⟨earlier, same⟩ := kept.newest
      exact ⟨earlier, by rw [← same, append_assoc]⟩
    rw [map_drop]
    exact (drop_suffix _ _).trans whole

theorem Keeps.rotate (keeps : Keeps codec clock store appended)
    (orderly : Orderly clock config store) :
    Keeps codec clock (rotateIfNeeded clock config store).1 appended := by
  obtain ⟨lost, archived, current, kept⟩ := keeps
  unfold rotateIfNeeded
  split_ifs with zero
  · exact ⟨lost, archived, current, kept⟩
  · cases due : store.dir.current with
    | none => exact ⟨lost, archived, current, kept⟩
    | some bytes =>
      dsimp only
      split_ifs with small
      · exact ⟨lost, archived, current, kept⟩
      · have noGap := orderly ⟨bytes, due, by omega⟩
        have written : bytes ≠ [] := by
          rintro rfl
          rw [length_nil] at small
          omega
        cases chosen : uniqueArchivePath clock store with
        | none =>
          refine ⟨lost, archived, current, { kept with past := ?_ }⟩
          intro archive member
          exact (kept.past archive member).trans (clock.monotone (Nat.le_add_right _ _))
        | some attempt => exact kept.rotated noGap due written (by omega) chosen

theorem Keeps.append (keeps : Keeps codec clock log.store log.appended)
    (meets : Meets codec clock log call) :
    Keeps codec clock (log.append codec clock call).store (log.append codec clock call).appended := by
  have rotated := keeps.rotate meets.before
  unfold Log.append appendJsonlRecord
  by_cases ready : (rotateIfNeeded clock call.config log.store).2 = true
  · obtain ⟨lost, archived, current, kept⟩ := rotated
    have written := kept.write call.record
    have behind := Keeps.rotate ⟨lost, archived, _, written⟩ meets.behind
    simp only [ready, if_true]
    exact behind
  · simp only [ready]
    exact rotated

end

theorem readRecords_files (archived : List (Archive Record)) :
    (archived.map (Archive.bytes codec)).mapM (readRecords codec) =
      some (archived.map Archive.records) := by
  induction archived with
  | nil => rfl
  | cons archive rest ih =>
    rw [map_cons, mapM_cons, Archive.bytes, readRecords_frame, ih]
    rfl

theorem Kept.read {lost : List Record} {archived : List (Archive Record)} {current : List Record}
    (kept : Kept codec clock store appended lost archived current) :
    readJsonlRecords codec store.dir = some (archived.flatMap Archive.records ++ current) := by
  unfold readJsonlRecords
  rw [kept.aged.jsonlFiles kept.files, mapM_append, readRecords_files]
  have opened := kept.opened
  cases due : store.dir.current with
  | none =>
    rw [due, Option.getD_none] at opened
    have nothing : current = [] := map_eq_nil_iff.mp (frame_eq_nil.mp opened.symm)
    simp [nothing, flatMap_def]
  | some bytes =>
    rw [due, Option.getD_some] at opened
    rw [opened, Option.toList_some, mapM_cons, readRecords_frame]
    simp [flatMap_def]

/-- In every run whose rotations find no gap among the names, a read returns the last of the
records that were written, the last one among them, and the archives on disk are the ones
made last. -/
theorem jsonl_keeps_newest_records (codec : RecordCodec Record) (clock : Clock)
    {calls : List (Call Record)} {log : Log Record}
    (run : Trace (fun log call next => Meets codec clock log call ∧
      next = log.append codec clock call) Log.initial calls log) :
    ∃ kept, readJsonlRecords codec log.store.dir = some kept ∧ kept <:+ log.appended ∧
      (∀ last, log.appended.getLast? = some last → kept.getLast? = some last) ∧
      log.store.dir.files <:+ log.store.made := by
  have keeps : Keeps codec clock log.store log.appended := by
    refine @Trace.invariant _ _ _ (fun log : Log Record =>
      Keeps codec clock log.store log.appended) ?_ _ _ _ run Keeps.initial
    rintro log call next ⟨meets, rfl⟩ keeps
    exact keeps.append meets
  obtain ⟨lost, archived, current, kept⟩ := keeps
  refine ⟨_, kept.read, ⟨lost, kept.split.symm⟩, ?_, kept.newest⟩
  intro last isLast
  rw [kept.split] at isLast
  by_cases none_lost : lost = []
  · rwa [none_lost, nil_append] at isLast
  · have some_kept := kept.fresh none_lost
    rwa [List.getLast?_append_of_ne_nil _ some_kept] at isLast

end

namespace Ticking

def clock : Clock where
  read instant := min instant (2 ^ 62)
  monotone left right below := by
    show min (left : Int) (2 ^ 62) ≤ min (right : Int) (2 ^ 62)
    omega
  low instant := by omega
  high instant := by omega

def config : JsonlRotationConfig := ⟨1, 1⟩

def calls : List (Call Text) := [⟨"a".toList, config⟩, ⟨"b".toList, config⟩]

def log (count : Nat) : Log Text :=
  (calls.take count).foldl (Log.append stringCodec clock) Log.initial

theorem meets_first : Meets stringCodec clock (log 0) ⟨"a".toList, config⟩ where
  before := by
    rintro ⟨_, written, _⟩
    cases written
  behind := by
    rintro - timestamp suffix attempt _ onDisk
    cases onDisk

theorem meets_second : Meets stringCodec clock (log 1) ⟨"b".toList, config⟩ where
  before := by
    rintro ⟨_, written, _⟩
    have fresh : (log 1).store.dir.current = none := by decide
    cases written
  behind := by
    rintro - timestamp suffix attempt stamped onDisk below
    have named : archiveName timestamp suffix = archiveName 0 0 := mem_singleton.mp onDisk
    have zero : Stamped 0 0 := ⟨by decide, by decide, by decide⟩
    have same := archiveName_injective stamped zero named
    omega

theorem jsonl_keeps_newest_while_ticking :
    ∃ kept, readJsonlRecords stringCodec (log 2).store.dir = some kept ∧
      kept <:+ (log 2).appended ∧
      (∀ last, (log 2).appended.getLast? = some last → kept.getLast? = some last) ∧
      (log 2).store.dir.files <:+ (log 2).store.made :=
  @jsonl_keeps_newest_records _ stringCodec clock calls (log 2)
    (((Trace.nil _).snoc ⟨meets_first, rfl⟩).snoc ⟨meets_second, rfl⟩)

end Ticking

namespace OneMillisecond

def clock : Clock := ⟨fun _ => 5, monotone_const, fun _ => by decide, fun _ => by decide⟩

def config : JsonlRotationConfig := ⟨1, 1⟩

def calls : List (Call Text) :=
  [⟨"a".toList, config⟩, ⟨"b".toList, config⟩, ⟨"c".toList, config⟩]

def log (count : Nat) : Log Text :=
  (calls.take count).foldl (Log.append stringCodec clock) Log.initial

theorem jsonl_drops_record_just_appended :
    Trace (fun log call next => next = Log.append stringCodec clock log call)
        Log.initial calls (log 3) ∧
      (∀ count < 3, ∀ call ∈ calls[count]?, (appendJsonlRecord stringCodec clock call.config
        call.record (log count).store).2 = (true, true)) ∧
      (log 3).appended = ["a".toList, "b".toList, "c".toList] ∧
      readJsonlRecords stringCodec (log 3).store.dir = some ["b".toList] ∧
      ¬["b".toList] <:+ (log 3).appended := by
  refine ⟨?_, by decide, by decide, by decide, by decide⟩
  exact (((Trace.nil _).snoc rfl).snoc rfl).snoc rfl

end OneMillisecond

end AgentClaimNetwork.Storage
