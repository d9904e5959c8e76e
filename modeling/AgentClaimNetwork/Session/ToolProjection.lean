import AgentClaimNetwork.Session.AssistantText
import AgentClaimNetwork.Session.RecoveryContext

/-!
The tool calls of a replayed turn: the order list and the timeline name the same calls once, and
the recovery context lists every one of them.
-/

namespace AgentClaimNetwork.Session

open Library Api List
open TurnAccumulator (apply finishItem pushItem say setLastItem)

variable {Stamp : Type}

def TurnJournalEventKind.mentionedTool : TurnJournalEventKind → Option Text
  | toolCallStarted toolUseId .. => some toolUseId
  | toolCallSkipped toolUseId .. => some toolUseId
  | toolCallProgress toolUseId _ => some toolUseId
  | toolCallCompleted toolUseId .. => some toolUseId
  | toolCallInterrupted toolUseId _ => some toolUseId
  | _ => none

def Speech.toolUseId : Speech → Option Text
  | .toolCall toolUseId => some toolUseId
  | _ => none

theorem speech_toolUseId (kind : TurnJournalEventKind) :
    kind.speech.toolUseId = kind.mentionedTool := by
  cases kind <;> rfl

def TimelineAccumulatorItem.toolUseId : TimelineAccumulatorItem → Option Text
  | .assistant _ => none
  | .toolCall toolUseId => some toolUseId

section

structure ToolsOrdered (mentioned : List Text) (turn : TurnAccumulator Stamp) : Prop where
  order : turn.toolOrder = mentioned.eraseDups
  timeline : turn.timelineItems.filterMap TimelineAccumulatorItem.toolUseId = turn.toolOrder

theorem ToolsOrdered.ofTimeline {turn other : TurnAccumulator Stamp}
    (ordered : ToolsOrdered mentioned turn) (same : other.timeline = turn.timeline) :
    ToolsOrdered mentioned other := by
  obtain ⟨items, order⟩ := Prod.ext_iff.mp same
  dsimp only [TurnAccumulator.timeline] at items order
  exact ⟨order.trans ordered.order, by rw [items, order, ordered.timeline]⟩

variable {turn : TurnAccumulator Stamp} {segment : AssistantSegment}

theorem openSegment_toolUseIds (opened : turn.openSegment = some segment) :
    turn.timelineItems.dropLast.filterMap TimelineAccumulatorItem.toolUseId =
      turn.timelineItems.filterMap TimelineAccumulatorItem.toolUseId := by
  obtain ⟨last, isLast⟩ : ∃ last, turn.timelineItems.getLast? = some (.assistant last) := by
    unfold TurnAccumulator.openSegment at opened
    split at opened
    · exact ⟨_, by assumption⟩
    · cases opened
  obtain ⟨front, shape⟩ := List.getLast?_eq_some_iff.mp isLast
  rw [shape, dropLast_concat, filterMap_append]
  exact (append_nil _).symm

theorem ToolsOrdered.setSegment (ordered : ToolsOrdered mentioned turn)
    (opened : turn.openSegment = some segment) {next : AssistantSegment} :
    ToolsOrdered mentioned (turn.setLastItem (.assistant next)) where
  order := ordered.order
  timeline := by
    rw [setLastItem, filterMap_append, openSegment_toolUseIds opened,
      ordered.timeline]
    exact append_nil _

theorem ToolsOrdered.pushSegment (ordered : ToolsOrdered mentioned turn) {next : AssistantSegment} :
    ToolsOrdered mentioned (turn.pushItem (.assistant next)) where
  order := ordered.order
  timeline := by
    rw [pushItem, filterMap_append, ordered.timeline]
    exact append_nil _

theorem ToolsOrdered.noteToolTimeline (ordered : ToolsOrdered mentioned turn) :
    ToolsOrdered (mentioned ++ [toolUseId]) (turn.noteToolTimeline toolUseId) := by
  have known : toolUseId ∈ turn.toolOrder ↔ toolUseId ∈ mentioned := by
    rw [ordered.order, mem_eraseDups]
  unfold TurnAccumulator.noteToolTimeline
  split_ifs with member
  · refine ⟨?_, ordered.timeline⟩
    rw [eraseDups_snoc, if_pos (known.mp member)]
    exact ordered.order
  · refine ⟨?_, ?_⟩
    · rw [eraseDups_snoc, if_neg fun listed => member (known.mpr listed), ordered.order]
    · rw [filterMap_append, ordered.timeline]
      rfl

theorem say_ordered {turn next : TurnAccumulator Stamp} (ordered : ToolsOrdered mentioned turn)
    (said : turn.say speech = some next) :
    ToolsOrdered (mentioned ++ speech.toolUseId.toList) next := by
  have unmentioned : ToolsOrdered mentioned next → ToolsOrdered (mentioned ++ []) next :=
    fun kept => (append_nil mentioned).symm ▸ kept
  cases speech with
  | toolCall toolUseId =>
    cases said
    exact ordered.noteToolTimeline
  | silent =>
    cases said
    exact unmentioned ordered
  | delta text =>
    cases said
    apply unmentioned
    unfold TurnAccumulator.pushAssistantDelta
    cases opened : turn.openSegment with
    | none => exact ordered.pushSegment
    | some segment => exact ordered.setSegment opened
  | accepted =>
    cases said
    apply unmentioned
    unfold TurnAccumulator.acceptIncompleteAssistant
    cases opened : turn.openSegment with
    | none => exact ordered
    | some segment => exact ordered.setSegment opened
  | checkpoint text =>
    cases said
    apply unmentioned
    unfold TurnAccumulator.checkpointAssistant
    cases opened : turn.openSegment with
    | none => exact ordered.pushSegment
    | some segment => exact ordered.setSegment opened
  | completed text =>
    cases said
    apply unmentioned
    unfold TurnAccumulator.pushAssistantCompleted
    cases opened : turn.openSegment with
    | none => exact ordered.pushSegment
    | some segment => exact ordered.setSegment opened
  | discarded =>
    apply unmentioned
    simp only [say, TurnAccumulator.discardIncompleteAssistant] at said
    cases opened : turn.openSegment with
    | none =>
      rw [opened] at said
      cases said
      exact ordered
    | some segment =>
      simp only [opened] at said
      split_ifs at said
      · cases said
        exact ⟨ordered.order, (openSegment_toolUseIds opened).trans ordered.timeline⟩
      · obtain ⟨text, _, rfl⟩ := Option.map_eq_some_iff.mp said
        exact ordered.setSegment opened

theorem perform_ordered {turn next : TurnAccumulator Stamp} (ordered : ToolsOrdered mentioned turn)
    (performed : turn.perform contentHash createdAt kind = some next) :
    ToolsOrdered (mentioned ++ kind.mentionedTool.toList) next := by
  have same := perform_say contentHash turn createdAt kind
  rw [performed] at same
  obtain ⟨said, saying, timeline⟩ := Option.map_eq_some_iff.mp same.symm
  rw [← speech_toolUseId]
  exact (say_ordered ordered saying).ofTimeline timeline.symm

end

def mentionedTools (kinds : List TurnJournalEventKind) : List Text :=
  (live kinds).filterMap TurnJournalEventKind.mentionedTool

theorem late_unmentioned {kind : TurnJournalEventKind} (late : kind.isLate = true) :
    kind.mentionedTool = none := by
  rw [← speech_toolUseId, (late_silent late).1]
  rfl

theorem applyEvent_ordered {turn next : TurnAccumulator Stamp} (kept : Kept past turn)
    (ordered : ToolsOrdered (mentionedTools (past.map TurnJournalEvent.kind)) turn)
    (applied : applyEvent contentHash turn event = some next) :
    ToolsOrdered (mentionedTools ((past ++ [event]).map TurnJournalEvent.kind)) next := by
  rw [map_append, map_singleton, mentionedTools, live_snoc, ← kept.ended]
  unfold applyEvent apply at applied
  split_ifs at applied with ignored
  · cases applied
    rw [if_pos (Bool.and_eq_true_iff.mp ignored).1]
    exact ordered
  · have after := perform_ordered ordered applied
    split_ifs with finished
    · have late : event.kind.isLate = true := by
        rw [finished] at ignored
        simpa using ignored
      rw [late_unmentioned late, Option.toList_none, append_nil] at after
      exact after
    · rw [filterMap_append]
      have single : [event.kind].filterMap TurnJournalEventKind.mentionedTool =
          event.kind.mentionedTool.toList := by
        cases found : event.kind.mentionedTool <;> simp [found]
      rw [single]
      exact after

theorem accumulate_ordered {turnId : Text}
    {events : List (TurnJournalEvent Stamp TurnJournalEventKind)} {turn : TurnAccumulator Stamp}
    (folded : events.foldlM (applyEvent contentHash) (TurnAccumulator.fresh turnId) = some turn) :
    ToolsOrdered (mentionedTools (events.map TurnJournalEvent.kind)) turn := by
  obtain ⟨last, again, kept⟩ := @foldlM_total _ _
    (applyEvent contentHash) (TurnAccumulator.fresh turnId)
    (fun past turn => Kept past turn ∧
      ToolsOrdered (mentionedTools (past.map TurnJournalEvent.kind)) turn)
    ⟨fresh_kept turnId, rfl, rfl⟩ (by
      rintro past turn event ⟨kept, ordered⟩
      obtain ⟨next, applied, after⟩ := applyEvent_kept kept event
      exact ⟨next, applied, after, applyEvent_ordered kept ordered applied⟩) events
  rw [folded] at again
  cases again
  exact kept.2

section

def TurnJournalTimelineItem.toolCall? : TurnJournalTimelineItem → Option TurnJournalToolCall
  | .assistant _ _ => none
  | .toolCall tool => some tool

theorem finishItem_toolCalls (turn : TurnAccumulator Stamp) (items : List TimelineAccumulatorItem) :
    (items.filterMap turn.finishItem).filterMap TurnJournalTimelineItem.toolCall? =
      ((items.filterMap TimelineAccumulatorItem.toolUseId).filterMap turn.toolCalls.get?).map
        ToolAccumulator.finish := by
  induction items with
  | nil => rfl
  | cons item rest ih =>
    cases item with
    | assistant segment =>
      rw [filterMap_cons, filterMap_cons]
      cases empty : segment.text.isEmpty <;>
        simp [finishItem, TimelineAccumulatorItem.toolUseId, empty, ih,
          TurnJournalTimelineItem.toolCall?, filterMap_cons]
    | toolCall toolUseId =>
      rw [filterMap_cons, filterMap_cons]
      cases found : turn.toolCalls.get? toolUseId <;>
        simp [finishItem, TimelineAccumulatorItem.toolUseId, found, ih,
          TurnJournalTimelineItem.toolCall?]

variable {turn : TurnAccumulator Stamp}

theorem finish_toolCalls (ordered : ToolsOrdered mentioned turn) : turn.finish.toolCalls =
      (turn.toolOrder.filterMap turn.toolCalls.get?).map ToolAccumulator.finish := by
  have distinct : turn.toolOrder.Nodup := by
    rw [ordered.order]
    exact nodup_eraseDups mentioned
  rw [← KeyedMap.drain_eq_filterMap distinct]
  rfl

theorem entries_toolUseIds {tools : KeyedMap ToolAccumulator.id} {names : List Text}
    (known : ∀ name ∈ names, (tools.get? name).isSome = true) :
    ((names.filterMap tools.get?).map ToolAccumulator.finish).map
      TurnJournalToolCall.toolUseId = names := by
  induction names with
  | nil => rfl
  | cons name rest ih =>
    obtain ⟨tool, found⟩ := Option.isSome_iff_exists.mp (known name mem_cons_self)
    have named : tool.toolUseId = name := (KeyedMap.get?_eq_some.mp found).2
    rw [filterMap_cons, found, map_cons, map_cons,
      ih fun other member => known other (mem_cons_of_mem _ member)]
    exact congrArg (· :: rest) named

structure ToolsKept (kinds : List TurnJournalEventKind) (turn : TurnJournalTurn Stamp) : Prop where
  timeline : turn.timelineItems.filterMap TurnJournalTimelineItem.toolCall? = turn.toolCalls
  toolUseIds : turn.toolCalls.map TurnJournalToolCall.toolUseId = (mentionedTools kinds).eraseDups

theorem finish_toolsKept {kinds : List TurnJournalEventKind}
    (ordered : ToolsOrdered (mentionedTools kinds) turn) (known : turn.Known) :
    ToolsKept kinds turn.finish where
  timeline := by
    rw [finish_toolCalls ordered, ← ordered.timeline]
    exact finishItem_toolCalls turn turn.timelineItems
  toolUseIds := by
    rw [finish_toolCalls ordered, entries_toolUseIds known, ordered.order]

end

section

theorem keys_present :
    ((present entries).map Prod.fst).Sublist (entries.map fun entry => entry.1.toList) := by
  induction entries with
  | nil => exact List.Sublist.refl _
  | cons entry rest ih =>
    obtain ⟨name, value⟩ := entry
    cases value with
    | none => exact ih.cons _
    | some value => exact ih.cons_cons _

theorem get?_present (distinct : (entries.map Prod.fst).Nodup) (member : (name, value) ∈ entries) :
    (Json.obj (present entries)).get? name.toList = value := by
  have fresh : ∀ {others : List (String × Option Json)}, name ∉ others.map Prod.fst →
      (present others).find? (fun field => field.1 = name.toList) = none := by
    intro others absent
    rw [List.find?_eq_none]
    intro item listed same
    obtain ⟨⟨other, found⟩, isEntry, mapped⟩ := mem_filterMap.mp listed
    obtain ⟨_, _, rfl⟩ := Option.map_eq_some_iff.mp mapped
    have sameName : other = name := String.toList_injective (of_decide_eq_true same)
    exact absent (mem_map.mpr ⟨_, isEntry, sameName⟩)
  induction entries with
  | nil => cases member
  | cons entry rest ih =>
    obtain ⟨first, found⟩ := entry
    rw [map_cons, nodup_cons] at distinct
    rcases mem_cons.mp member with same | later
    · cases same
      cases value with
      | none => exact congrArg (Option.map Prod.snd) (fresh distinct.1)
      | some value => simp [Json.get?, present, field]
    · have different : first ≠ name := by
        rintro rfl
        exact distinct.1 (mem_map.mpr ⟨_, later, rfl⟩)
      have apart : first.toList ≠ name.toList := fun same =>
        different (String.toList_injective same)
      cases found with
      | none => exact ih distinct.2 later
      | some other =>
        rw [← ih distinct.2 later]
        simp [Json.get?, present, field, apart]

def listsTool (value : Json) (name : String) (toolUseId : Text) : Prop :=
  ∃ items, value.get? name.toList = some (.arr items) ∧
    ∃ item ∈ items, item.get? "tool_use_id".toList = some (.str toolUseId)

variable {turn : TurnJournalTurn Stamp}

theorem recoveryTurnEntries_distinct : ((recoveryTurnEntries turn limits).map Prod.fst).Nodup := by
  simp [recoveryTurnEntries]

/-- The list `name` of the recovery context has the tool calls that `shown` renders. -/
def Lists (turn : TurnJournalTurn Stamp) (limits : RecoveryContextLimits)
    (shown : TurnJournalToolCall → Option Json) (name : String) : Prop :=
  ∀ toolUseId, listsTool (recoveryTurnValue turn limits) name toolUseId ↔
    ∃ tool ∈ turn.toolCalls, tool.toolUseId = toolUseId ∧ (shown tool).isSome = true

theorem lists_shown
    (entry : (name, nonEmpty (turn.toolCalls.filterMap shown)) ∈ recoveryTurnEntries turn limits)
    (named : ∀ {tool value}, shown tool = some value →
      value.get? "tool_use_id".toList = some (.str tool.toolUseId)) :
    Lists turn limits shown name := by
  intro toolUseId
  have found := get?_present recoveryTurnEntries_distinct entry
  rw [listsTool, recoveryTurnValue, found, nonEmpty]
  constructor
  · rintro ⟨items, listed, item, member, isNamed⟩
    split_ifs at listed
    cases listed
    obtain ⟨tool, isTool, isShown⟩ := mem_filterMap.mp member
    rw [named isShown] at isNamed
    cases isNamed
    exact ⟨tool, isTool, rfl, by rw [isShown]; rfl⟩
  · rintro ⟨tool, isTool, rfl, isShown⟩
    obtain ⟨value, shows⟩ := Option.isSome_iff_exists.mp isShown
    have member := mem_filterMap.mpr ⟨tool, isTool, shows⟩
    have full : ¬ (turn.toolCalls.filterMap shown).isEmpty = true := by
      rw [List.isEmpty_iff]
      exact ne_nil_of_mem member
    exact ⟨_, if_neg full, value, member, named shows⟩

theorem lists_completed : Lists turn limits (completedTool limits) "tools_completed" :=
  lists_shown (by simp [recoveryTurnEntries]) fun shown => by
    obtain ⟨_, _, rfl⟩ := Option.map_eq_some_iff.mp shown
    rfl

theorem lists_interrupted : Lists turn limits (interruptedTool limits) "tools_interrupted" :=
  lists_shown (by simp [recoveryTurnEntries]) fun shown => by
    obtain ⟨_, _, rfl⟩ := Option.map_eq_some_iff.mp shown
    rfl

theorem lists_skipped : Lists turn limits (skippedTool limits) "tools_skipped" :=
  lists_shown (by simp [recoveryTurnEntries]) fun shown => by
    obtain ⟨_, _, rfl⟩ := Option.map_eq_some_iff.mp shown
    rfl

theorem lists_pending : Lists turn limits (pendingTool limits) "tools_pending_or_skipped" := by
  refine lists_shown (by simp [recoveryTurnEntries]) ?_
  intro tool value shown
  unfold pendingTool at shown
  split_ifs at shown <;>
  · cases shown
    rfl

theorem pendingTool_isSome (tool : TurnJournalToolCall) :
    (pendingTool limits tool).isSome = true ↔ (completedTool limits tool).isSome = false ∧
      (interruptedTool limits tool).isSome = false ∧ (skippedTool limits tool).isSome = false := by
  unfold pendingTool completedTool interruptedTool skippedTool
  cases tool.completedSummary <;> cases tool.interruptedSummary <;> cases tool.skippedSummary <;>
    simp

/-- Where the recovery context of a turn shows its tool calls. -/
structure ToolsSorted (value : Json) (toolCalls : List TurnJournalToolCall) : Prop where
  listed : ∀ tool ∈ toolCalls, listsTool value "tools_completed" tool.toolUseId ∨
    listsTool value "tools_interrupted" tool.toolUseId ∨
    listsTool value "tools_skipped" tool.toolUseId ∨
    listsTool value "tools_pending_or_skipped" tool.toolUseId
  pending : ∀ tool ∈ toolCalls, listsTool value "tools_pending_or_skipped" tool.toolUseId ↔
    ¬ listsTool value "tools_completed" tool.toolUseId ∧
    ¬ listsTool value "tools_interrupted" tool.toolUseId ∧
    ¬ listsTool value "tools_skipped" tool.toolUseId

theorem recovery_toolsSorted
    (distinct : (turn.toolCalls.map TurnJournalToolCall.toolUseId).Nodup) :
    ToolsSorted (recoveryTurnValue turn limits) turn.toolCalls := by
  -- the id decides which call it is
  have only : ∀ tool ∈ turn.toolCalls, ∀ shown : TurnJournalToolCall → Option Json,
      (∃ other ∈ turn.toolCalls, other.toolUseId = tool.toolUseId ∧ (shown other).isSome = true) ↔
        (shown tool).isSome = true := by
    intro tool member shown
    constructor
    · rintro ⟨other, isOther, same, isShown⟩
      rwa [inj_on_of_nodup_map distinct isOther member same] at isShown
    · exact fun isShown => ⟨tool, member, rfl, isShown⟩
  have pending : ∀ tool ∈ turn.toolCalls,
      listsTool (recoveryTurnValue turn limits) "tools_pending_or_skipped" tool.toolUseId ↔
        ¬ listsTool (recoveryTurnValue turn limits) "tools_completed" tool.toolUseId ∧
        ¬ listsTool (recoveryTurnValue turn limits) "tools_interrupted" tool.toolUseId ∧
        ¬ listsTool (recoveryTurnValue turn limits) "tools_skipped" tool.toolUseId := by
    intro tool member
    rw [lists_pending, lists_completed, lists_interrupted, lists_skipped,
      only tool member, only tool member, only tool member, only tool member, pendingTool_isSome]
    simp
  refine ⟨fun tool member => ?_, pending⟩
  by_contra unlisted
  rw [not_or, not_or, not_or] at unlisted
  obtain ⟨notCompleted, notInterrupted, notSkipped, notPending⟩ := unlisted
  exact notPending ((pending tool member).mpr ⟨notCompleted, notInterrupted, notSkipped⟩)

end

/-- No tool call is lost between the journal of a turn and its recovery context. -/
theorem tool_projection_lossless {Stamp : Type}
    (contentHash : List SessionContentBlock → Option Text)
    (read : TurnJournalRead Stamp TurnJournalEventKind) :
    ∃ projection, replayTurnJournal contentHash read = some projection ∧
      projection.turns.map TurnJournalTurn.turnId =
        (read.events.map TurnJournalEvent.turnId).eraseDups ∧
      ∀ turn ∈ projection.turns,
        turn.timelineItems.filterMap TurnJournalTimelineItem.toolCall? = turn.toolCalls ∧
        (turn.toolCalls.map TurnJournalToolCall.toolUseId).Nodup ∧
        (∀ toolUseId, toolUseId ∈ turn.toolCalls.map TurnJournalToolCall.toolUseId ↔
          ∃ kind ∈ live ((read.events.filter fun event => event.turnId == turn.turnId).map
            TurnJournalEvent.kind), kind.mentionedTool = some toolUseId) ∧
        ∀ limits, ToolsSorted (recoveryTurnValue turn limits) turn.toolCalls := by
  obtain ⟨projection, replayed, turns⟩ := replay_turns contentHash read
  refine ⟨projection, replayed, turn_ids turns, fun turn member => ?_⟩
  obtain ⟨last, accumulated, finished, kept⟩ := turn_accumulated replayed member
  have tools := finish_toolsKept (accumulate_ordered accumulated) kept.known
  rw [← finished] at tools
  have distinct : (turn.toolCalls.map TurnJournalToolCall.toolUseId).Nodup := by
    rw [tools.toolUseIds]
    exact nodup_eraseDups _
  refine ⟨tools.timeline, distinct, fun toolUseId => ?_,
    fun limits => recovery_toolsSorted distinct⟩
  rw [tools.toolUseIds, mem_eraseDups, mentionedTools, mem_filterMap]

end AgentClaimNetwork.Session
