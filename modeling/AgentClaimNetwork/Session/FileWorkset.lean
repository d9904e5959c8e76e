import AgentClaimNetwork.Library.JsonReader
import AgentClaimNetwork.Session.ReplayGenerations

/-!
The files a compacted conversation has worked on, from
`src/agent/session_engine/compaction_projection.rs`.
-/

namespace AgentClaimNetwork.Session

open Library List
open Api (SessionTurnMessage SessionTurnContentBlock ProviderReplayState)
open KeyedMap (empty get?)

variable {Stamp : Type}

section

def compactedFileWorksetMaxPathsPerKind : Nat := 64

def compactedFileWorksetMaxPathChars : Nat := 512

def compactedFileWorksetMaxJsonCharsPerKind : Nat := 2048

structure CompactedFileWorkset where
  readFiles : List Text
  modifiedFiles : List Text
  omittedReadFiles : Nat
  omittedModifiedFiles : Nat

inductive FileOperationKind
  | read
  | modified

structure PendingFile where
  id : Text
  kind : FileOperationKind
  path : Text

abbrev PathSet := KeyedMap (id : Text → Text)

structure CompactedFileWorksetCollector where
  pending : KeyedMap PendingFile.id := empty
  readFiles : PathSet := empty
  modifiedFiles : PathSet := empty

def fileOperationKind (name : Text) : Option FileOperationKind :=
  if name = "file_read".toList then some .read
  else if name = "file_patch".toList ∨ name = "file_write".toList then some .modified
  else none

def inputPath (input : Json) : Option Text := (input.get? "path".toList).bind Json.asStr

def boundedFilePathsFrom : List Text → Nat → List Text → List Text
  | kept, _, [] => kept
  | kept, encodedChars, path :: paths =>
    if compactedFileWorksetMaxPathsPerKind ≤ kept.length ∨
        compactedFileWorksetMaxPathChars < path.length then
      boundedFilePathsFrom kept encodedChars paths
    else
      let nextEncodedChars := encodedChars + (if kept.isEmpty then 0 else 1) +
        (Json.hide ['<'] (Json.str path).render).length
      if compactedFileWorksetMaxJsonCharsPerKind < nextEncodedChars then
        boundedFilePathsFrom kept encodedChars paths
      else boundedFilePathsFrom (kept ++ [path]) nextEncodedChars paths

def boundedFilePaths (paths : List Text) : List Text × Nat :=
  let kept := boundedFilePathsFrom [] 2 paths
  (kept, paths.length - kept.length)

namespace CompactedFileWorksetCollector

def recordToolUse (collector : CompactedFileWorksetCollector) (id name : Text) (input : Json) :
    CompactedFileWorksetCollector :=
  match fileOperationKind name with
  | none => collector
  | some kind =>
    match inputPath input with
    | none => collector
    | some path => { collector with pending := collector.pending.insert ⟨id, kind, path⟩ }

/-- `status` is the `ok` of a tool result, where its content has the form of one. -/
def recordToolResult (status : Text → Option Bool) (collector : CompactedFileWorksetCollector)
    (toolUseId content : Text) : CompactedFileWorksetCollector :=
  match collector.pending.get? toolUseId with
  | none => collector
  | some file =>
    let collector := { collector with pending := collector.pending.erase toolUseId }
    if status content = some true then
      match file.kind with
      | .read => { collector with readFiles := collector.readFiles.insert file.path }
      | .modified => { collector with modifiedFiles := collector.modifiedFiles.insert file.path }
    else collector

def finish (collector : CompactedFileWorksetCollector) : CompactedFileWorkset :=
  let readFiles := collector.readFiles.values.filter (· ∉ collector.modifiedFiles.values)
  let (readFiles, omittedReadFiles) := boundedFilePaths readFiles
  let (modifiedFiles, omittedModifiedFiles) := boundedFilePaths collector.modifiedFiles.values
  ⟨readFiles, modifiedFiles, omittedReadFiles, omittedModifiedFiles⟩

end CompactedFileWorksetCollector

variable (status : Text → Option Bool)

def recordSessionBlock (collector : CompactedFileWorksetCollector) :
    SessionContentBlock → CompactedFileWorksetCollector
  | .toolUse id name input => collector.recordToolUse id name input
  | .toolResult toolUseId content => collector.recordToolResult status toolUseId content
  | _ => collector

def recordTurnBlock (collector : CompactedFileWorksetCollector) :
    SessionTurnContentBlock → CompactedFileWorksetCollector
  | .toolUse id name input => collector.recordToolUse id name input
  | .toolResult toolUseId content => collector.recordToolResult status toolUseId content
  | _ => collector

def compactedFileWorksetFromSessionMessages (messages : List (StoredMessage Stamp)) :
    CompactedFileWorkset :=
  (messages.foldl (fun collector (message : StoredMessage Stamp) =>
    message.content.foldl (recordSessionBlock status) collector) {}).finish

def compactedFileWorksetFromTurnMessages
    (messages : List (SessionTurnMessage ProviderReplayState)) : CompactedFileWorkset :=
  (messages.foldl (fun collector (message : SessionTurnMessage ProviderReplayState) =>
    message.content.foldl (recordTurnBlock status) collector) {}).finish

def sessionMessageToTurnMessage (message : StoredMessage Stamp) :
    SessionTurnMessage ProviderReplayState :=
  sessionMessageToTurnMessageWithPolicy message .placeholder none

end

variable {collector : CompactedFileWorksetCollector}

section

inductive FileEvent
  | use (id : Text) (kind : FileOperationKind) (path : Text)
  | result (id : Text) (ok : Bool)

def FileEvent.id : FileEvent → Text
  | use id _ _ => id
  | result id _ => id

variable (status : Text → Option Bool)

def fileEvent : SessionTurnContentBlock → Option FileEvent
  | .toolUse id name input =>
    (fileOperationKind name).bind fun kind => (inputPath input).map (.use id kind)
  | .toolResult toolUseId content => some (.result toolUseId (status content = some true))
  | _ => none

def fileEvents (messages : List (SessionTurnMessage ProviderReplayState)) : List FileEvent :=
  messages.flatMap fun message => message.content.filterMap (fileEvent status)

def Waits (events : List FileEvent) (id : Text) (kind : FileOperationKind) (path : Text) : Prop :=
  ∃ before middle, events = before ++ .use id kind path :: middle ∧ ∀ event ∈ middle, event.id ≠ id

def Counted (events : List FileEvent) (kind : FileOperationKind) (path : Text) : Prop :=
  ∃ before id after, events = before ++ .result id true :: after ∧ Waits before id kind path

def recordFileEvent (collector : CompactedFileWorksetCollector) : FileEvent →
    CompactedFileWorksetCollector
  | .use id kind path => { collector with pending := collector.pending.insert ⟨id, kind, path⟩ }
  | .result id ok => collector.recordToolResult (fun _ => some ok) id []

theorem recordTurnBlock_eq (collector : CompactedFileWorksetCollector)
    (block : SessionTurnContentBlock) : recordTurnBlock status collector block =
      ((fileEvent status block).map (recordFileEvent collector)).getD collector := by
  cases block with
  | toolUse id name input =>
    simp only [recordTurnBlock, fileEvent, CompactedFileWorksetCollector.recordToolUse]
    cases fileOperationKind name with
    | none => rfl
    | some kind => cases inputPath input <;> rfl
  | toolResult id content =>
    simp [recordTurnBlock, fileEvent, recordFileEvent, CompactedFileWorksetCollector.recordToolResult]
  | _ => rfl

theorem record_events (messages : List (SessionTurnMessage ProviderReplayState)) :
    messages.foldl (fun collector (message : SessionTurnMessage ProviderReplayState) =>
      message.content.foldl (recordTurnBlock status) collector) {} =
      (fileEvents status messages).foldl recordFileEvent {} := by
  have blocks : ∀ (blocks : List SessionTurnContentBlock) collector,
      blocks.foldl (recordTurnBlock status) collector =
        (blocks.filterMap (fileEvent status)).foldl recordFileEvent collector := by
    intro blocks
    induction blocks with
    | nil => exact fun _ => rfl
    | cons block rest ih =>
      intro collector
      rw [foldl_cons, ih, recordTurnBlock_eq, filterMap_cons]
      cases fileEvent status block <;> rfl
  generalize ({} : CompactedFileWorksetCollector) = collector
  induction messages generalizing collector with
  | nil => rfl
  | cons message rest ih =>
    rw [foldl_cons, ih, blocks]
    unfold fileEvents
    rw [flatMap_cons, foldl_append]

theorem session_workset_eq (messages : List (StoredMessage Stamp)) :
    compactedFileWorksetFromSessionMessages status messages =
      compactedFileWorksetFromTurnMessages status (messages.map sessionMessageToTurnMessage) := by
  have same : recordSessionBlock status = fun collector block => recordTurnBlock status collector
      (sessionBlockToTurnWithPolicy .placeholder block) := by
    funext collector block
    cases block <;> rfl
  simp [compactedFileWorksetFromSessionMessages, compactedFileWorksetFromTurnMessages, foldl_map, sessionMessageToTurnMessage, sessionMessageToTurnMessageWithPolicy, same]

variable {events : List FileEvent} {kind : FileOperationKind}

theorem waits_snoc {id path : Text} : Waits (events ++ [event]) id kind path ↔
      event = .use id kind path ∨ event.id ≠ id ∧ Waits events id kind path := by
  constructor
  · rintro ⟨before, middle, same, quiet⟩
    rcases eq_nil_or_concat middle with rfl | ⟨middle, last, rfl⟩
    · exact .inl (append_inj_right' same rfl |> singleton_injective)
    · rw [concat_eq_append, ← cons_append, ← append_assoc] at same
      obtain ⟨rfl, equal⟩ := append_inj' same rfl
      rw [singleton_injective equal]
      exact .inr ⟨quiet _ (by simp), before, middle, rfl, fun other member =>
        quiet other (by simp [member])⟩
  · rintro (rfl | ⟨other, before, middle, rfl, quiet⟩)
    · exact ⟨events, [], rfl, nofun⟩
    · refine ⟨before, middle ++ [event], by simp, fun next member => ?_⟩
      rcases mem_concat member with inside | last
      · exact quiet next inside
      · rwa [last]

theorem counted_snoc : Counted (events ++ [event]) kind path ↔
      Counted events kind path ∨ ∃ id, event = .result id true ∧ Waits events id kind path := by
  constructor
  · rintro ⟨before, id, after, same, waits⟩
    rcases eq_nil_or_concat after with rfl | ⟨after, last, rfl⟩
    · obtain ⟨rfl, equal⟩ := append_inj' same rfl
      exact .inr ⟨id, singleton_injective equal, waits⟩
    · rw [concat_eq_append, ← cons_append, ← append_assoc] at same
      obtain ⟨rfl, -⟩ := append_inj' same rfl
      exact .inl ⟨before, id, after, rfl, waits⟩
  · rintro (⟨before, id, after, rfl, waits⟩ | ⟨id, rfl, waits⟩)
    · exact ⟨before, id, after ++ [event], by simp, waits⟩
    · exact ⟨events, id, [], rfl, waits⟩

structure Collected (events : List FileEvent) (collector : CompactedFileWorksetCollector) :
    Prop where
  pending : ∀ id kind path, collector.pending.get? id = some ⟨id, kind, path⟩ ↔
    Waits events id kind path
  read : ∀ path, path ∈ collector.readFiles.values ↔ Counted events .read path
  modified : ∀ path, path ∈ collector.modifiedFiles.values ↔ Counted events .modified path

theorem Collected.step (collected : Collected events collector) :
    Collected (events ++ [event]) (recordFileEvent collector event) := by
  obtain ⟨pending, read, modified⟩ := collected
  cases event with
  | use id kind path =>
    refine ⟨fun other kind' path' => ?_, fun file => ?_, fun file => ?_⟩
    · rw [waits_snoc, recordFileEvent, KeyedMap.get?_insert, ← pending]
      by_cases same : id = other
      · subst same
        simp [FileEvent.id]
      · simp [FileEvent.id, same]
    · simp [counted_snoc, ← read, recordFileEvent]
    · simp [counted_snoc, ← modified, recordFileEvent]
  | result id ok =>
    rw [recordFileEvent, CompactedFileWorksetCollector.recordToolResult]
    have erased : ∀ other kind path,
        (collector.pending.erase id).get? other = some ⟨other, kind, path⟩ ↔
          Waits (events ++ [.result id ok]) other kind path := by
      intro other kind path
      rw [waits_snoc, KeyedMap.get?_erase, ← pending]
      by_cases same : other = id
      · simp [same, FileEvent.id]
      · simp [same, Ne.symm same, FileEvent.id]
    cases found : collector.pending.get? id with
    | none =>
      have idle : ∀ kind path, ¬ Waits events id kind path := fun kind path waits => by
        rw [← pending, found] at waits
        cases waits
      refine ⟨fun other kind path => ?_, fun file => ?_, fun file => ?_⟩
      · rw [← erased, KeyedMap.get?_erase]
        by_cases same : other = id
        · simp [same, found]
        · simp [same]
      · simp [counted_snoc, ← read, idle]
      · simp [counted_snoc, ← modified, idle]
    | some file =>
      obtain ⟨own, kind, path⟩ := file
      obtain rfl : own = id := (KeyedMap.get?_eq_some.mp found).2
      have one : ∀ other file, Waits events own other file ↔ other = kind ∧ file = path := by
        intro other file
        rw [← pending, found]
        simp [eq_comm]
      cases ok with
      | false =>
        refine ⟨erased, fun file => ?_, fun file => ?_⟩
        · simp [counted_snoc, ← read]
        · simp [counted_snoc, ← modified]
      | true =>
        cases kind with
        | read =>
          refine ⟨erased, fun file => ?_, fun file => ?_⟩
          · simp [counted_snoc, ← read, one]
            tauto
          · simp [counted_snoc, ← modified, one]
        | modified =>
          refine ⟨erased, fun file => ?_, fun file => ?_⟩
          · simp [counted_snoc, ← read, one]
          · simp [counted_snoc, ← modified, one]
            tauto

theorem collected_events :
    Collected events (events.foldl recordFileEvent {}) := by
  induction events using reverseRecOn with
  | nil =>
    refine ⟨fun id kind path => ?_, fun path => ?_, fun path => ?_⟩
    · simp [Waits, empty, get?]
    all_goals simp [Counted, empty]
  | append_singleton events event ih =>
    rw [foldl_concat]
    exact ih.step

end

variable (paths : List Text)

def renderedPaths : List Char :=
  Json.hide ['<'] (Json.arr (paths.map .str)).render

structure Bounded (paths kept : List Text) (omitted : Nat) : Prop where
  part : kept.Sublist paths
  counted : kept.length + omitted = paths.length
  short : (renderedPaths kept).length ≤ compactedFileWorksetMaxJsonCharsPerKind

def encodedChars : List Text → Nat
  | [] => 1
  | path :: rest => 1 + (Json.hide ['<'] (Json.str path).render).length + encodedChars rest

theorem encodedChars_snoc (path : Text) : encodedChars (paths ++ [path]) =
    encodedChars paths + 1 + (Json.hide ['<'] (Json.str path).render).length := by
  induction paths with
  | nil =>
    simp only [nil_append, encodedChars]
    omega
  | cons first rest ih =>
    simp only [cons_append, encodedChars, ih]
    omega

theorem length_hide_cons (shown : character ∉ ['<']) (text : List Char) :
    (Json.hide ['<'] (character :: text)).length = 1 + (Json.hide ['<'] text).length := by
  simp only [Json.hide, flatMap_cons, if_neg shown, length_append]
  rfl

theorem length_renderItems_paths :
    (Json.hide ['<'] (Json.renderItems (paths.map .str))).length = encodedChars paths := by
  induction paths with
  | nil => rfl
  | cons path rest ih =>
    rw [map_cons, Json.renderItems, length_hide_cons (by decide), Json.hide_append,
      length_append, ih, encodedChars, Nat.add_assoc]

theorem length_renderedPaths : (renderedPaths paths).length =
    if paths.isEmpty then 2 else encodedChars paths := by
  cases paths with
  | nil => rfl
  | cons path rest =>
    rw [renderedPaths, map_cons, Json.render, length_hide_cons (by decide),
      Json.hide_append, length_append, length_renderItems_paths]
    simp [isEmpty_cons, encodedChars, Nat.add_assoc]

theorem boundedFilePathsFrom_spec {kept paths : List Text}
    (short : (renderedPaths kept).length ≤ compactedFileWorksetMaxJsonCharsPerKind) :
    ∃ more, boundedFilePathsFrom kept (renderedPaths kept).length paths = kept ++ more ∧
      more.Sublist paths ∧
      (renderedPaths (kept ++ more)).length ≤ compactedFileWorksetMaxJsonCharsPerKind := by
  induction paths generalizing kept with
  | nil => exact ⟨[], (append_nil _).symm, .slnil, by rwa [append_nil]⟩
  | cons path rest ih =>
    rw [boundedFilePathsFrom]
    have next : (renderedPaths kept).length + (if kept.isEmpty then 0 else 1) +
        (Json.hide ['<'] (Json.str path).render).length =
          (renderedPaths (kept ++ [path])).length := by
      rw [length_renderedPaths, length_renderedPaths, encodedChars_snoc]
      cases kept with
      | nil => simp [encodedChars]
      | cons => simp
    dsimp only
    rw [next]
    split_ifs with full wide
    · obtain ⟨more, same, part, bounded⟩ := ih short
      exact ⟨more, same, part.cons _, bounded⟩
    · obtain ⟨more, same, part, bounded⟩ := ih short
      exact ⟨more, same, part.cons _, bounded⟩
    · obtain ⟨more, same, part, bounded⟩ := ih (Nat.le_of_not_lt wide)
      rw [append_assoc] at same bounded
      exact ⟨path :: more, same, part.cons_cons _, bounded⟩

theorem boundedFilePaths_bounded :
    Bounded paths (boundedFilePaths paths).1 (boundedFilePaths paths).2 := by
  obtain ⟨more, same, part, short⟩ := @boundedFilePathsFrom_spec [] paths (by decide)
  rw [nil_append] at same short
  have kept : (boundedFilePaths paths).1 = more := same
  refine ⟨kept ▸ part, ?_, kept ▸ short⟩
  have counted : (boundedFilePaths paths).2 = paths.length - (boundedFilePaths paths).1.length := rfl
  have fewer := part.length_le
  rw [counted, kept]
  omega

/-- A workset of these events. -/
structure WorksetOf (events : List FileEvent) (workset : CompactedFileWorkset) : Prop where
  readSorted : workset.readFiles.Pairwise (· < ·)
  modifiedSorted : workset.modifiedFiles.Pairwise (· < ·)
  disjoint : ∀ path ∈ workset.readFiles, path ∉ workset.modifiedFiles
  sets : ∃ reads modified : List Text, reads.Pairwise (· < ·) ∧ modified.Pairwise (· < ·) ∧
    (∀ path, path ∈ modified ↔ Counted events .modified path) ∧
    (∀ path, path ∈ reads ↔ Counted events .read path ∧ ¬ Counted events .modified path) ∧
    Bounded reads workset.readFiles workset.omittedReadFiles ∧
    Bounded modified workset.modifiedFiles workset.omittedModifiedFiles

theorem finish_workset {events : List FileEvent}
    (collected : Collected events collector) : WorksetOf events collector.finish := by
  have reads := boundedFilePaths_bounded
    (collector.readFiles.values.filter (· ∉ collector.modifiedFiles.values))
  have modified := boundedFilePaths_bounded collector.modifiedFiles.values
  have readsSorted := collector.readFiles.sorted.filter
    fun path => decide (path ∉ collector.modifiedFiles.values)
  refine ⟨readsSorted.sublist reads.part, collector.modifiedFiles.sorted.sublist modified.part,
    fun path member other => ?_, _, _, readsSorted, collector.modifiedFiles.sorted,
    collected.modified, fun path => ?_, reads, modified⟩
  · exact of_decide_eq_true (mem_filter.mp (reads.part.subset member)).2
      (modified.part.subset other)
  · rw [mem_filter, decide_eq_true_iff, collected.read, collected.modified]

/-- Only the first result of a call counts, whichever form of the messages is read. -/
theorem file_workset_counted (status : Text → Option Bool) :
    (∀ messages : List (StoredMessage Stamp),
      compactedFileWorksetFromSessionMessages status messages =
        compactedFileWorksetFromTurnMessages status (messages.map sessionMessageToTurnMessage)) ∧
    ∀ messages, WorksetOf (fileEvents status messages)
      (compactedFileWorksetFromTurnMessages status messages) := by
  refine ⟨session_workset_eq status, fun messages => ?_⟩
  rw [compactedFileWorksetFromTurnMessages, record_events]
  exact finish_workset collected_events

def retriedRead : List (SessionTurnMessage ProviderReplayState) :=
  [⟨Api.assistantRole, [.toolUse ['1'] "file_read".toList (.obj [("path".toList, .str ['a'])])],
    none⟩, ⟨Api.userRole, [.toolResult ['1'] ['n', 'o'], .toolResult ['1'] ['o', 'k']], none⟩]

/-- A second, good result of an answered call does not count, although it follows the only call of
its id. -/
theorem second_result_ignored :
    (∃ before middle after, fileEvents (fun content => some (content = ['o', 'k'])) retriedRead =
      before ++ .use ['1'] .read ['a'] :: (middle ++ .result ['1'] true :: after) ∧
      ∀ id kind path, FileEvent.use id kind path ∉ middle ++ after) ∧
    compactedFileWorksetFromTurnMessages (fun content => some (content = ['o', 'k'])) retriedRead =
      ⟨[], [], 0, 0⟩ := by
  refine ⟨⟨[], [.result ['1'] false], [], rfl, ?_⟩, rfl⟩
  simp

end AgentClaimNetwork.Session
