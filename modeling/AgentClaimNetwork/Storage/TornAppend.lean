import AgentClaimNetwork.Storage.Jsonl

/-!
Appends that may be interrupted at any byte, with a process that goes on with the same file
afterwards.
-/

namespace AgentClaimNetwork.Storage

open Library LineLog TornLog List

variable {Record : Type}

/-- A directory and the records whose append returned `Ok`. -/
structure Acknowledged (Record : Type) where
  store : Store
  records : List Record

def Acknowledged.initial : Acknowledged Record := ⟨Store.initial, []⟩

inductive Attempt (Record : Type)
  | returned (record : Record)
  | interrupted (record : Record) (written : Nat)

/-- Calls that do not rotate; an interrupted one leaves a part of its line. -/
inductive AppendStep (codec : RecordCodec Record) (clock : Clock) (config : JsonlRotationConfig) :
    Acknowledged Record → Attempt Record → Acknowledged Record → Prop
  | returned (state : Acknowledged Record) (record : Record)
      (quiet : ¬Rotates config state.store)
      (still : ¬Rotates config (writeLine state.store (lineBytes codec record)))
      (ok : (appendJsonlRecord codec clock config record state.store).2.2 = true) :
      AppendStep codec clock config state (.returned record)
        ⟨(appendJsonlRecord codec clock config record state.store).1, state.records ++ [record]⟩
  | interrupted (state : Acknowledged Record) (record : Record) (written : Nat)
      (quiet : ¬Rotates config state.store) :
      AppendStep codec clock config state (.interrupted record written)
        ⟨writeLine state.store ((lineBytes codec record).take written), state.records⟩

def Attempt.bytes (codec : RecordCodec Record) : Attempt Record → List UInt8
  | .returned record => lineBytes codec record
  | .interrupted record written => (lineBytes codec record).take written

structure Unharmed (codec : RecordCodec Record) (state : Acknowledged Record)
    (attempt : Attempt Record) : Prop where
  boundary : attempt.bytes codec ≠ [] → boundary (state.store.dir.current.getD []) = []
  whole : (Utf8.strict (attempt.bytes codec)).isSome = true

def UnharmedStep (codec : RecordCodec Record) (clock : Clock) (config : JsonlRotationConfig)
    (state : Acknowledged Record) (attempt : Attempt Record) (next : Acknowledged Record) : Prop :=
  Unharmed codec state attempt ∧ AppendStep codec clock config state attempt next

section

variable {codec : RecordCodec Record} {clock : Clock} {config : JsonlRotationConfig}

theorem rotateIfNeeded_quiet {store : Store} (quiet : ¬Rotates config store) :
    (rotateIfNeeded clock config store).1 = store := by
  unfold rotateIfNeeded
  split_ifs with zero
  · rfl
  · cases due : store.dir.current with
    | none => rfl
    | some bytes =>
      have small : bytes.length < config.maxFileBytes := by
        by_contra large
        exact quiet ⟨bytes, due, by omega⟩
      dsimp only
      rw [if_pos small]

theorem appendJsonlRecord_quiet (quiet : ¬Rotates config store)
    (still : ¬Rotates config (writeLine store (lineBytes codec record)))
    (ok : (appendJsonlRecord codec clock config record store).2.2 = true) :
    (appendJsonlRecord codec clock config record store).1 =
      writeLine store (lineBytes codec record) := by
  have first := @rotateIfNeeded_quiet clock config store quiet
  have second := @rotateIfNeeded_quiet clock config _ still
  unfold appendJsonlRecord at ok ⊢
  generalize rotateIfNeeded clock config store = rotated at first ok
  obtain ⟨stored, ready⟩ := rotated
  obtain rfl : stored = store := first
  cases ready with
  | false => cases ok
  | true => exact second

variable {state next : Acknowledged Record} {attempt : Attempt Record}

theorem AppendStep.store_eq (step : AppendStep codec clock config state attempt next) :
    next.store = writeLine state.store (attempt.bytes codec) := by
  cases step with
  | returned record quiet still ok => exact appendJsonlRecord_quiet quiet still ok
  | interrupted record written quiet => rfl

structure Torn (codec : RecordCodec Record) (state : Acknowledged Record)
    (complete : List Record) (part : Text) : Prop where
  files : state.store.dir.files = []
  file : state.store.dir.current.getD [] =
    frame (complete.map codec.text) ++ Utf8.encode part
  unbroken : '\n' ∉ part
  acknowledged : state.records.Sublist complete

theorem Torn.initial : Torn codec Acknowledged.initial [] [] :=
  ⟨rfl, rfl, by simp, List.Sublist.slnil⟩

theorem Torn.part_nil {state : Acknowledged Record} (torn : Torn codec state complete part)
    (bounded : boundary (state.store.dir.current.getD []) = []) : part = [] := by
  have framed : frame (complete.map codec.text) =
      join ((complete.map codec.text).map Utf8.encode) := by
    simp only [frame, join, flatMap_map]
  have unbroken : newline ∉ Utf8.encode part :=
    fun member => torn.unbroken (Utf8.newline_mem_encode member)
  rw [torn.file, framed, boundary_join unbroken] at bounded
  by_contra some_part
  have some_bytes : Utf8.encode part ≠ [] := by
    intro none
    have back := Utf8.lossy_encode part
    rw [none] at back
    exact some_part back.symm
  rw [if_neg some_bytes] at bounded
  cases bounded

theorem take_lineBytes
    (whole : (Utf8.strict ((lineBytes codec record).take written)).isSome = true) :
    (lineBytes codec record).take written = lineBytes codec record ∨
      ∃ part, part <+: codec.text record ∧
        (lineBytes codec record).take written = Utf8.encode part := by
  unfold lineBytes at whole ⊢
  rcases Nat.lt_trichotomy written (Utf8.encode (codec.text record)).length with
    inside | exactly | beyond
  · right
    obtain ⟨before, rest, cut, isPrefix, _, ends⟩ := Utf8.take_encode _ inside
    rw [take_append_of_le_length (Nat.le_of_lt inside), cut] at whole ⊢
    rcases ends with rfl | waiting
    · exact ⟨before, isPrefix, append_nil _⟩
    · rw [Utf8.strict_cut waiting] at whole
      cases whole
  · right
    refine ⟨codec.text record, prefix_rfl, ?_⟩
    rw [exactly, take_left]
  · left
    apply take_of_length_le
    rw [length_append, length_singleton]
    omega

theorem Unharmed.bytes_cases (step : AppendStep codec clock config state attempt next)
    (unharmed : Unharmed codec state attempt) :
    (∃ record, attempt.bytes codec = lineBytes codec record ∧
      next.records.Sublist (state.records ++ [record])) ∨
    ∃ part, '\n' ∉ part ∧ attempt.bytes codec = Utf8.encode part ∧
      next.records = state.records := by
  cases step with
  | returned record quiet still ok => exact .inl ⟨record, rfl, List.Sublist.refl _⟩
  | interrupted record written quiet =>
    rcases take_lineBytes unharmed.whole with complete | ⟨part, isPrefix, same⟩
    · exact .inl ⟨record, complete, sublist_append_left _ _⟩
    · refine .inr ⟨part, ?_, same, rfl⟩
      exact fun member => (codec.clean record).not_newline (isPrefix.subset member)

theorem Torn.step (torn : Torn codec state complete part)
    (step : AppendStep codec clock config state attempt next)
    (unharmed : Unharmed codec state attempt) :
    ∃ complete part, Torn codec next complete part := by
  have stored := step.store_eq
  have files : next.store.dir.files = [] := by
    rw [stored]
    exact torn.files
  have file : next.store.dir.current.getD [] =
      frame (complete.map codec.text) ++ Utf8.encode part ++ attempt.bytes codec := by
    rw [stored, ← torn.file]
    rfl
  rcases unharmed.bytes_cases step with
    ⟨record, line, records⟩ | ⟨written, unbroken, encoded, records⟩
  · have some_bytes : attempt.bytes codec ≠ [] := by
      rw [line, lineBytes]
      simp
    obtain rfl := torn.part_nil (unharmed.boundary some_bytes)
    refine ⟨complete ++ [record], [], files, ?_, by simp, ?_⟩
    · rw [file, line, map_append, frame_append]
      simp [lineBytes, Utf8.encode]
    · exact records.trans (torn.acknowledged.append (List.Sublist.refl _))
  · by_cases nothing : attempt.bytes codec = []
    · refine ⟨complete, part, files, ?_, torn.unbroken, ?_⟩
      · rw [file, nothing, append_nil]
      · rw [records]
        exact torn.acknowledged
    · obtain rfl := torn.part_nil (unharmed.boundary nothing)
      refine ⟨complete, written, files, ?_, unbroken, ?_⟩
      · rw [file, encoded]
        simp [Utf8.encode]
      · rw [records]
        exact torn.acknowledged

theorem Torn.read {state : Acknowledged Record} (torn : Torn codec state complete part) :
    ∃ last, readJsonlRecords codec state.store.dir = some (complete ++ last) := by
  have clean : ∀ text ∈ complete.map codec.text, Clean text := by
    intro text member
    obtain ⟨record, _, rfl⟩ := mem_map.mp member
    exact codec.clean record
  have decoded : readRecords codec (frame (complete.map codec.text) ++ Utf8.encode part) =
      some (complete ++ (lines part).filterMap (readLine codec)) := by
    have joined : frame (complete.map codec.text) ++ Utf8.encode part =
        Utf8.encode (((complete.map codec.text).flatMap fun text => text ++ ['\n']) ++ part) := by
      rw [frame_eq_encode, Utf8.encode, Utf8.encode, Utf8.encode, flatMap_append]
    rw [readRecords, joined, Utf8.strict_encode, Option.map_some, lines_joined clean,
      filterMap_append, readLines_texts]
  have archives : (sortArchives (archivePaths state.store.dir)).filterMap
      state.store.dir.contents = [] := by
    simp [archivePaths, torn.files, sortArchives]
  unfold readJsonlRecords jsonlFiles
  rw [archives, nil_append]
  have file := torn.file
  cases current : state.store.dir.current with
  | none =>
    rw [current, Option.getD_none] at file
    have empty := append_eq_nil_iff.mp file.symm
    have none_complete : complete = [] :=
      map_eq_nil_iff.mp (frame_eq_nil.mp empty.1)
    exact ⟨[], by rw [none_complete]; rfl⟩
  | some bytes =>
    rw [current, Option.getD_some] at file
    refine ⟨(lines part).filterMap (readLine codec), ?_⟩
    rw [Option.toList_some, mapM_cons, file, decoded]
    simp

end

/-- In every run in which no attempt is cut inside a character and nothing is written behind
a cut line, every read succeeds and returns each record whose append returned `Ok`. -/
theorem jsonl_survives_torn_append (codec : RecordCodec Record) (clock : Clock)
    (config : JsonlRotationConfig) {attempts : List (Attempt Record)} {state : Acknowledged Record}
    (run : Trace (UnharmedStep codec clock config) Acknowledged.initial attempts state) :
    ∃ records, readJsonlRecords codec state.store.dir = some records ∧
      state.records.Sublist records := by
  have torn : ∃ complete part, Torn codec state complete part := by
    refine @Trace.invariant _ _ _ (fun state : Acknowledged Record =>
      ∃ complete part, Torn codec state complete part) ?_ _ _ _ run ⟨[], [], Torn.initial⟩
    rintro state attempt next ⟨unharmed, step⟩ ⟨complete, part, torn⟩
    exact torn.step step unharmed
  obtain ⟨complete, part, torn⟩ := torn
  obtain ⟨last, read⟩ := torn.read
  exact ⟨complete ++ last, read, torn.acknowledged.trans (sublist_append_left _ _)⟩

namespace Interruption

theorem low (_ : Nat) : -2 ^ 63 ≤ (5 : Int) := by decide

theorem high (_ : Nat) : (5 : Int) < 2 ^ 63 := by decide

def clock : Clock := ⟨fun _ => 5, fun _ _ _ => le_rfl, low, high⟩

def config : JsonlRotationConfig := ⟨100, 1⟩

/-- A complete line, and one of which only the opening quote was written. -/
theorem jsonl_survives_cut_at_end : ∃ state : Acknowledged Text,
      Trace (UnharmedStep stringCodec clock config) Acknowledged.initial
        [.returned "a".toList, .interrupted "é".toList 1] state ∧
      ∃ records, readJsonlRecords stringCodec state.store.dir = some records ∧
        state.records.Sublist records := by
  have run := ((@Trace.nil _ _ (UnharmedStep stringCodec clock config)
      Acknowledged.initial).snoc ⟨⟨fun _ => rfl, by decide⟩,
        .returned _ "a".toList (by decide) (by decide) (by decide)⟩).snoc
    ⟨⟨fun _ => by decide, by decide⟩, .interrupted _ "é".toList 1 (by decide)⟩
  exact ⟨_, run, jsonl_survives_torn_append stringCodec clock config run⟩

/-- The record behind a cut line is lost although its append returned `Ok`, and a cut inside
a character makes every read fail. -/
theorem jsonl_torn_append_costs_more :
    (∃ state : Acknowledged Text, Trace (AppendStep stringCodec clock config)
        Acknowledged.initial [.interrupted "a".toList 2, .returned "b".toList] state ∧
      state.records = ["b".toList] ∧
      readJsonlRecords stringCodec state.store.dir = some []) ∧
    ∃ state : Acknowledged Text, Trace (AppendStep stringCodec clock config)
        Acknowledged.initial [.returned "a".toList, .interrupted "é".toList 2] state ∧
      state.records = ["a".toList] ∧
      readJsonlRecords stringCodec state.store.dir = none := by
  constructor
  · refine ⟨_, ((Trace.nil _).snoc (.interrupted _ _ 2 (by decide))).snoc
      (.returned _ _ (by decide) (by decide) (by decide)), by decide, by decide⟩
  · refine ⟨_, ((Trace.nil _).snoc (.returned _ _ (by decide) (by decide) (by decide))).snoc
      (.interrupted _ _ 2 (by decide)), by decide, by decide⟩

end Interruption

end AgentClaimNetwork.Storage
