import Mathlib.Data.List.Infix
import AgentClaimNetwork.Api.Message
import AgentClaimNetwork.Library.LineLog

/-!
The events of `src/delegation/types.rs` and the bounds of `src/delegation/store.rs` on them.  The
text of an event is the compact JSON of its serialization.
-/

namespace AgentClaimNetwork.Delegation

open Library List
open Json (obj optionalField size sizeFields sizeItems str)
open Api (ToolExecutionOutcome codeJson)

abbrev Text := List Char

inductive DelegationStatus
  | queued
  | running
  | completed
  | failed
  | abandoned
deriving DecidableEq

def DelegationStatus.isTerminal : DelegationStatus → Bool
  | .completed | .failed | .abandoned => true
  | .queued | .running => false

structure DelegationArtifactRef where
  path : Text
  description : Option Text

inductive DelegationEventKind
  | created
  | queued
  | started
  | statusChanged (before after : DelegationStatus)
  | progressUpdated (currentStep : Option Text) (summary : Text)
      (artifacts : List DelegationArtifactRef)
  | steered (instruction : Text)
  | toolStarted (toolName summary : Text)
  | toolCompleted (toolName summary : Text) (outcome : Option ToolExecutionOutcome)
  | compactionFailed (error : Text)
  | completed (summary : Text) (changedFiles : List Text)
  | failed (error : Text)
  | abandoned (reason : Text)

/-- `stamp` is the time of the event as it is written. -/
structure DelegationEvent where
  seq : Nat
  stamp : Text
  kind : DelegationEventKind

def summaryTextLimit : Nat := 1200
def summaryFieldLimit : Nat := 320
def summaryChangedFilesLimit : Nat := 8
def summaryChangedFileLimit : Nat := 160

def truncateText (value : Text) (maxChars : Nat) : Text :=
  if maxChars = 0 then []
  else if (value.take maxChars).length = value.length then value.take maxChars
  else value.take maxChars ++ ['.', '.', '.']

def boundArtifacts (artifacts : List DelegationArtifactRef) : List DelegationArtifactRef :=
  (artifacts.take summaryChangedFilesLimit).map fun artifact =>
    { path := truncateText artifact.path summaryFieldLimit
      description := artifact.description.map (truncateText · summaryFieldLimit) }

def boundChangedFiles (changedFiles : List Text) : List Text :=
  (changedFiles.take summaryChangedFilesLimit).map (truncateText · summaryChangedFileLimit)

def boundEventKind : DelegationEventKind → DelegationEventKind
  | .progressUpdated currentStep summary artifacts =>
    .progressUpdated (currentStep.map (truncateText · summaryFieldLimit))
      (truncateText summary summaryTextLimit) (boundArtifacts artifacts)
  | .steered instruction => .steered (truncateText instruction summaryTextLimit)
  | .toolStarted toolName summary =>
    .toolStarted (truncateText toolName summaryFieldLimit)
      (truncateText summary summaryTextLimit)
  | .toolCompleted toolName summary outcome =>
    .toolCompleted (truncateText toolName summaryFieldLimit)
      (truncateText summary summaryTextLimit) outcome
  | .completed summary changedFiles =>
    .completed (truncateText summary summaryTextLimit) (boundChangedFiles changedFiles)
  | .failed error => .failed (truncateText error summaryFieldLimit)
  | .compactionFailed error => .compactionFailed (truncateText error summaryFieldLimit)
  | .abandoned reason => .abandoned (truncateText reason summaryFieldLimit)
  | .created => .created
  | .queued => .queued
  | .started => .started
  | .statusChanged before after => .statusChanged before after

def DelegationStatus.json : DelegationStatus → Json
  | .queued => .str "queued".toList
  | .running => .str "running".toList
  | .completed => .str "completed".toList
  | .failed => .str "failed".toList
  | .abandoned => .str "abandoned".toList

def DelegationArtifactRef.json (artifact : DelegationArtifactRef) : Json :=
  .obj (("path".toList, .str artifact.path) ::
    optionalField "description".toList (artifact.description.map .str))

def DelegationEventKind.tag : DelegationEventKind → Text
  | .created => "created".toList
  | .queued => "queued".toList
  | .started => "started".toList
  | .statusChanged _ _ => "status_changed".toList
  | .progressUpdated _ _ _ => "progress_updated".toList
  | .steered _ => "steered".toList
  | .toolStarted _ _ => "tool_started".toList
  | .toolCompleted _ _ _ => "tool_completed".toList
  | .compactionFailed _ => "compaction_failed".toList
  | .completed _ _ => "completed".toList
  | .failed _ => "failed".toList
  | .abandoned _ => "abandoned".toList

def DelegationEventKind.fields : DelegationEventKind → List (Text × Json)
  | .created | .queued | .started => []
  | .statusChanged before after =>
    [("from".toList, before.json), ("to".toList, after.json)]
  | .progressUpdated currentStep summary artifacts =>
    optionalField "current_step".toList (currentStep.map .str) ++
      [("summary".toList, .str summary),
        ("artifacts".toList, .arr (artifacts.map DelegationArtifactRef.json))]
  | .steered instruction => [("instruction".toList, .str instruction)]
  | .toolStarted toolName summary =>
    [("tool_name".toList, .str toolName), ("summary".toList, .str summary)]
  | .toolCompleted toolName summary outcome =>
    [("tool_name".toList, .str toolName), ("summary".toList, .str summary)] ++
      optionalField "outcome".toList (outcome.map Api.ToolExecutionOutcome.json)
  | .compactionFailed error | .failed error => [("error".toList, .str error)]
  | .completed summary changedFiles =>
    [("summary".toList, .str summary), ("changed_files".toList, .arr (changedFiles.map .str))]
  | .abandoned reason => [("reason".toList, .str reason)]

def DelegationEvent.json (event : DelegationEvent) : Json :=
  .obj (("seq".toList, .num event.seq) :: ("at".toList, .str event.stamp) ::
    ("type".toList, .str event.kind.tag) :: event.kind.fields)

/-- `serde_json::to_vec` of an event, as text. -/
def DelegationEvent.text (event : DelegationEvent) : Text := event.json.render

section

theorem DelegationStatus.json_injective {left right : DelegationStatus}
    (same : left.json = right.json) : left = right := by
  cases left <;> cases right <;> simp [DelegationStatus.json] at same <;> rfl

theorem codeJson_injective {left right : Option Int32} (same : codeJson left = codeJson right) :
    left = right := by
  cases left with
  | none =>
    cases right with
    | none => rfl
    | some right => simp [codeJson] at same
  | some left =>
    cases right with
    | none => simp [codeJson] at same
    | some right =>
      simp only [codeJson, Json.num.injEq] at same
      rw [Int32.toInt_inj.mp same]

theorem outcome_json_injective {left right : ToolExecutionOutcome}
    (same : left.json = right.json) : left = right := by
  cases left <;> cases right <;> simp [Api.ToolExecutionOutcome.json] at same ⊢
  case processExit.processExit => exact ⟨codeJson_injective same.1, same.2⟩
  case processTerminated.processTerminated => exact codeJson_injective same
  case httpResponse.httpResponse => exact UInt16.toNat_inj.mp (by exact_mod_cast same)

theorem DelegationArtifactRef.json_injective {left right : DelegationArtifactRef}
    (same : left.json = right.json) : left = right := by
  obtain ⟨path, description⟩ := left
  obtain ⟨otherPath, otherDescription⟩ := right
  cases description <;> cases otherDescription <;>
    simp [DelegationArtifactRef.json, optionalField] at same ⊢
  · exact same
  · exact same

def tagTexts : List Text :=
  ["created".toList, "queued".toList, "started".toList, "status_changed".toList,
    "progress_updated".toList, "steered".toList, "tool_started".toList, "tool_completed".toList,
    "compaction_failed".toList, "completed".toList, "failed".toList, "abandoned".toList]

theorem tagTexts_nodup : tagTexts.Nodup := by decide

theorem DelegationEventKind.tag_eq (kind : DelegationEventKind) :
    tagTexts[kind.ctorIdx]? = some kind.tag := by
  cases kind <;> rfl

variable {left right : DelegationEventKind}

theorem DelegationEventKind.ctorIdx_eq
    (tags : left.tag = right.tag) : left.ctorIdx = right.ctorIdx := by
  have leftTag := left.tag_eq
  have rightTag := right.tag_eq
  rw [← tags, ← leftTag] at rightTag
  have inside : left.ctorIdx < tagTexts.length := by
    by_contra outside
    rw [List.getElem?_eq_none (by omega)] at leftTag
    cases leftTag
  exact (List.getElem?_inj inside tagTexts_nodup).mp rightTag.symm

theorem DelegationEventKind.fields_injective
    (tags : left.tag = right.tag) (same : left.fields = right.fields) : left = right := by
  have kinds := DelegationEventKind.ctorIdx_eq tags
  cases left <;> cases right <;> cases kinds
  case created.created | queued.queued | started.started => rfl
  case statusChanged.statusChanged =>
    simp only [DelegationEventKind.fields, List.cons.injEq, Prod.mk.injEq, true_and,
      and_true] at same
    rw [DelegationStatus.json_injective same.1, DelegationStatus.json_injective same.2]
  case progressUpdated.progressUpdated currentStep summary artifacts otherStep _ _ =>
    have lists := map_injective_iff.mpr @DelegationArtifactRef.json_injective
    cases currentStep <;> cases otherStep <;>
      simp [DelegationEventKind.fields, optionalField] at same ⊢
    · exact ⟨same.1, lists same.2⟩
    · exact ⟨same.1, same.2.1, lists same.2.2⟩
  case toolCompleted.toolCompleted toolName summary outcome _ _ otherOutcome =>
    cases outcome <;> cases otherOutcome <;>
      simp [DelegationEventKind.fields, optionalField] at same ⊢
    · exact same
    · exact ⟨same.1, same.2.1, outcome_json_injective same.2.2⟩
  case completed.completed summary changedFiles _ _ =>
    have texts : Function.Injective str := fun _ _ equal => Json.str.inj equal
    simp only [DelegationEventKind.fields, List.cons.injEq, Prod.mk.injEq, true_and, and_true,
      Json.str.injEq, Json.arr.injEq] at same
    rw [same.1, map_injective_iff.mpr texts same.2]
  case steered.steered | toolStarted.toolStarted | compactionFailed.compactionFailed
      | failed.failed | abandoned.abandoned =>
    simpa [DelegationEventKind.fields] using same

theorem DelegationEvent.json_injective {left right : DelegationEvent}
    (same : left.json = right.json) : left = right := by
  obtain ⟨seq, stamp, kind⟩ := left
  obtain ⟨otherSeq, otherStamp, otherKind⟩ := right
  simp only [DelegationEvent.json, Json.obj.injEq, List.cons.injEq, Prod.mk.injEq, true_and,
    Json.num.injEq, Json.str.injEq, Int.natCast_inj] at same
  obtain ⟨seqs, stamps, tags, fields⟩ := same
  rw [seqs, stamps, DelegationEventKind.fields_injective tags fields]

end

theorem length_truncateText (value : Text) (maxChars : Nat) :
    (truncateText value maxChars).length ≤ maxChars + 3 := by
  have short := length_take_le maxChars value
  unfold truncateText
  split_ifs
  · simp
  · omega
  · rw [length_append]
    simp only [length_cons, length_nil]
    omega

theorem truncateText_idem :
    truncateText (truncateText value maxChars) maxChars = truncateText value maxChars := by
  have step : truncateText value maxChars = value ∨ maxChars ≠ 0 ∧ maxChars < value.length ∧
      truncateText value maxChars = value.take maxChars ++ ['.', '.', '.'] ∨
      truncateText value maxChars = [] := by
    unfold truncateText
    split_ifs with zero whole
    · exact Or.inr (Or.inr rfl)
    · left
      rw [length_take] at whole
      exact take_of_length_le (by omega)
    · right; left
      rw [length_take] at whole
      exact ⟨zero, by omega, rfl⟩
  rcases step with same | ⟨positive, long, cut⟩ | empty
  · rw [same, same]
  · have length : (value.take maxChars).length = maxChars := by
      rw [length_take]
      omega
    have front : (value.take maxChars ++ ['.', '.', '.']).take maxChars = value.take maxChars := by
      rw [take_append_of_le_length (by omega), take_take, Nat.min_self]
    rw [cut, truncateText, if_neg positive, front, if_neg]
    simp
  · rw [empty]
    simp [truncateText]

theorem sizeItems_le (small : ∀ item ∈ items, item.size ≤ bound) :
    sizeItems items ≤ items.length * (bound + 1) := by
  induction items with
  | nil => simp [sizeItems]
  | cons item items ih =>
    have first := small item (by simp)
    have others := ih (fun other member => small other (by simp [member]))
    rw [sizeItems, length_cons, Nat.add_mul]
    omega

theorem size_status (status : DelegationStatus) : status.json.size ≤ 60 := by
  cases status <;> decide

theorem size_code (code : Option Int32) : (codeJson code).size ≤ 12 := by
  cases code with
  | none => decide
  | some code =>
    have low := code.minValue_le_toInt
    have high := code.toInt_le
    have limits : Int32.minValue.toInt = -2147483648 ∧ Int32.maxValue.toInt = 2147483647 := by
      decide
    have digits : (Nat.toDigits 10 code.toInt.natAbs).length ≤ 11 :=
      (Nat.length_toDigits_le_iff (by decide) (by decide)).mpr (by omega)
    rw [codeJson, size]
    omega

theorem size_outcome (outcome : ToolExecutionOutcome) : outcome.json.size ≤ 300 := by
  cases outcome with
  | completed | dispatchFailure | businessFailure | processRunning => decide
  | processExit exitCode success =>
    have code := size_code exitCode
    simp [Api.ToolExecutionOutcome.json, size, sizeFields]
    omega
  | processTerminated signal =>
    have code := size_code signal
    simp [Api.ToolExecutionOutcome.json, size, sizeFields]
    omega
  | httpResponse httpStatus =>
    have small := httpStatus.toNat_lt
    have digits : (Nat.toDigits 10 httpStatus.toNat).length ≤ 5 :=
      (Nat.length_toDigits_le_iff (by decide) (by decide)).mpr (by omega)
    simp [Api.ToolExecutionOutcome.json, size, sizeFields]
    omega

theorem size_optionalText (key : Text) (value : Option Text) (maxChars : Nat) :
    sizeFields (optionalField key ((value.map (truncateText · maxChars)).map .str)) ≤
      6 * key.length + 6 * (maxChars + 3) + 6 := by
  cases value with
  | none => simp [optionalField, sizeFields]
  | some value =>
    have short := length_truncateText value maxChars
    simp only [Option.map_some, optionalField, sizeFields, size]
    omega

theorem size_artifacts (artifacts : List DelegationArtifactRef) :
    sizeItems ((boundArtifacts artifacts).map DelegationArtifactRef.json) ≤ 32000 := by
  have each : ∀ item ∈ (boundArtifacts artifacts).map DelegationArtifactRef.json,
      item.size ≤ 3990 := by
    intro item member
    simp only [boundArtifacts, map_map, mem_map, Function.comp_apply] at member
    obtain ⟨artifact, _, rfl⟩ := member
    have path := length_truncateText artifact.path summaryFieldLimit
    have description := size_optionalText "description".toList artifact.description
      summaryFieldLimit
    have names : "path".toList.length = 4 ∧ "description".toList.length = 11 := by decide
    simp only [DelegationArtifactRef.json, size, sizeFields, summaryFieldLimit, names]
      at path description ⊢
    omega
  have count : ((boundArtifacts artifacts).map DelegationArtifactRef.json).length ≤ 8 := by
    simp only [boundArtifacts, length_map]
    exact length_take_le 8 artifacts
  have total := sizeItems_le each
  omega

theorem size_changedFiles (changedFiles : List Text) :
    sizeItems ((boundChangedFiles changedFiles).map .str) ≤ 8000 := by
  have each : ∀ item ∈ (boundChangedFiles changedFiles).map str, item.size ≤ 980 := by
    intro item member
    simp only [boundChangedFiles, map_map, mem_map, Function.comp_apply] at member
    obtain ⟨path, _, rfl⟩ := member
    have short := length_truncateText path summaryChangedFileLimit
    simp only [size, summaryChangedFileLimit] at short ⊢
    omega
  have count : ((boundChangedFiles changedFiles).map str).length ≤ 8 := by
    simp only [boundChangedFiles, length_map]
    exact length_take_le 8 changedFiles
  have total := sizeItems_le each
  omega

theorem sizeFields_append (left right : List (Text × Json)) :
    sizeFields (left ++ right) = sizeFields left + sizeFields right := by
  induction left with
  | nil => simp [sizeFields]
  | cons field left ih =>
    obtain ⟨key, value⟩ := field
    simp only [cons_append, sizeFields, ih]
    omega

theorem size_textField (key value : Text) (maxChars : Nat) (rest : List (Text × Json)) :
    sizeFields ((key, .str (truncateText value maxChars)) :: rest) ≤
      6 * key.length + 6 * (maxChars + 3) + 6 + sizeFields rest := by
  have short := length_truncateText value maxChars
  simp only [sizeFields, size]
  omega

theorem keyLengths : "current_step".toList.length = 12 ∧ "summary".toList.length = 7 ∧
    "artifacts".toList.length = 9 ∧ "instruction".toList.length = 11 ∧
    "tool_name".toList.length = 9 ∧ "outcome".toList.length = 7 ∧ "error".toList.length = 5 ∧
    "changed_files".toList.length = 13 ∧ "reason".toList.length = 6 ∧
    "from".toList.length = 4 ∧ "to".toList.length = 2 := by
  decide

theorem size_boundEventKind (kind : DelegationEventKind) :
    sizeFields (boundEventKind kind).fields ≤ 45000 := by
  obtain ⟨stepKey, summaryKey, artifactsKey, instructionKey, toolKey, outcomeKey, errorKey,
    filesKey, reasonKey, fromKey, toKey⟩ := keyLengths
  cases kind with
  | created | queued | started => decide
  | statusChanged before after =>
    have first := size_status before
    have second := size_status after
    simp only [boundEventKind, DelegationEventKind.fields, sizeFields, fromKey, toKey]
    omega
  | progressUpdated currentStep summary artifacts =>
    have steps := size_optionalText "current_step".toList currentStep summaryFieldLimit
    have listed := size_artifacts artifacts
    have texts := size_textField "summary".toList summary summaryTextLimit
      [("artifacts".toList, .arr ((boundArtifacts artifacts).map DelegationArtifactRef.json))]
    simp only [boundEventKind, DelegationEventKind.fields, sizeFields_append]
    simp only [sizeFields, size, stepKey, summaryKey, artifactsKey, summaryFieldLimit,
      summaryTextLimit] at steps texts ⊢
    omega
  | steered instruction =>
    have texts := size_textField "instruction".toList instruction summaryTextLimit []
    simp only [boundEventKind, DelegationEventKind.fields]
    simp only [instructionKey, summaryTextLimit, sizeFields] at texts ⊢
    omega
  | toolStarted toolName summary =>
    have names := length_truncateText toolName summaryFieldLimit
    have texts := length_truncateText summary summaryTextLimit
    simp only [boundEventKind, DelegationEventKind.fields]
    simp only [toolKey, summaryKey, summaryTextLimit, summaryFieldLimit, sizeFields,
      size] at names texts ⊢
    omega
  | toolCompleted toolName summary outcome =>
    have names := length_truncateText toolName summaryFieldLimit
    have texts := length_truncateText summary summaryTextLimit
    have outcomes : sizeFields
        (optionalField "outcome".toList (outcome.map Api.ToolExecutionOutcome.json)) ≤ 400 := by
      cases outcome with
      | none => decide
      | some outcome =>
        have bound := size_outcome outcome
        simp only [Option.map_some, optionalField, sizeFields, outcomeKey]
        omega
    simp only [boundEventKind, DelegationEventKind.fields, sizeFields_append]
    simp only [toolKey, summaryKey, summaryTextLimit, summaryFieldLimit, sizeFields,
      size] at names texts ⊢
    omega
  | compactionFailed error | failed error =>
    have texts := size_textField "error".toList error summaryFieldLimit []
    simp only [boundEventKind, DelegationEventKind.fields]
    simp only [errorKey, summaryFieldLimit, sizeFields] at texts ⊢
    omega
  | completed summary changedFiles =>
    have texts := length_truncateText summary summaryTextLimit
    have listed := size_changedFiles changedFiles
    simp only [boundEventKind, DelegationEventKind.fields]
    simp only [summaryKey, filesKey, summaryTextLimit, sizeFields, size] at texts ⊢
    omega
  | abandoned reason =>
    have texts := size_textField "reason".toList reason summaryFieldLimit []
    simp only [boundEventKind, DelegationEventKind.fields]
    simp only [reasonKey, summaryFieldLimit, sizeFields] at texts ⊢
    omega

theorem length_tag (kind : DelegationEventKind) : kind.tag.length ≤ 17 := by
  have all : ∀ text ∈ tagTexts, text.length ≤ 17 := by decide
  exact all _ (mem_of_getElem? kind.tag_eq)

/-- `u64::MAX`. -/
def maxSeq : Nat := 2 ^ 64 - 1

theorem byteLen_event (inRange : seq ≤ maxSeq) (short : stamp.length ≤ 40)
    (kind : DelegationEventKind) :
    (Utf8.encode (DelegationEvent.text ⟨seq, stamp, boundEventKind kind⟩)).length ≤ 50000 := by
  have written := Json.byteLen_render (DelegationEvent.json ⟨seq, stamp, boundEventKind kind⟩)
  have fields := size_boundEventKind kind
  have tag := length_tag (boundEventKind kind)
  have digits : (Nat.toDigits 10 seq).length ≤ 20 :=
    (Nat.length_toDigits_le_iff (by decide) (by decide)).mpr (by unfold maxSeq at inRange; omega)
  have keys : "seq".toList.length = 3 ∧ "at".toList.length = 2 ∧ "type".toList.length = 4 := by
    decide
  rw [Json.length_encode, DelegationEvent.text]
  simp only [DelegationEvent.json, size, sizeFields, keys, Int.natAbs_natCast] at written ⊢
  omega

theorem DelegationEvent.text_prefix {left right : DelegationEvent}
    (same : left.text = right.text ++ rest) : left = right ∧ rest = [] := by
  have extended : left.json.render ++ [] = right.json.render ++ rest := by
    rw [append_nil]
    exact same
  obtain ⟨fields, tails⟩ := Json.render_obj_prefix extended
  exact ⟨DelegationEvent.json_injective (congrArg obj fields), tails.symm⟩

variable (event : DelegationEvent)

theorem DelegationEvent.text_clean : LineLog.Clean event.text :=
  Json.render_printable

theorem DelegationEvent.text_head : ∃ rest, event.text = '{' :: rest := ⟨_, rfl⟩

theorem DelegationEvent.text_not_blank : LineLog.isBlank event.text = false := by
  obtain ⟨rest, head⟩ := event.text_head
  rfl

/-- `serde_json` on event lines: the times it writes, and a reader that takes back what
was written and refuses a text that stops short. -/
structure EventReader where
  stamps : Text → Prop
  stamps_short : ∀ stamp, stamps stamp → stamp.length ≤ 40
  read : Text → Option DelegationEvent
  read_text : ∀ event : DelegationEvent, stamps event.stamp → read event.text = some event
  read_part : ∀ (event : DelegationEvent) (part : Text), stamps event.stamp →
    part <+: event.text → part ≠ event.text →
    read part = none

open Classical in
noncomputable def EventReader.exact : EventReader where
  stamps stamp := stamp.length ≤ 40
  stamps_short _ short := short
  read text := if written : ∃ event : DelegationEvent, event.text = text then
    some written.choose else none
  read_text event _ := by
    have written : ∃ other : DelegationEvent, other.text = event.text := ⟨event, rfl⟩
    have same : written.choose.text = event.text ++ [] := by
      rw [append_nil, written.choose_spec]
    rw [dif_pos written, (DelegationEvent.text_prefix same).1]
  read_part event part _ isPrefix different := by
    refine dif_neg ?_
    rintro ⟨other, rfl⟩
    obtain ⟨rest, split⟩ := isPrefix
    obtain ⟨_, nothing⟩ := DelegationEvent.text_prefix split.symm
    rw [nothing, append_nil] at split
    exact different split

end AgentClaimNetwork.Delegation
