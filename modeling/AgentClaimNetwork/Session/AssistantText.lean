import AgentClaimNetwork.Session.TurnProjection

/-!
The assistant text of a replayed turn.  `Reference` says what the text events mean without byte
offsets; the replay ends with its timeline and never cuts a character apart.
-/

namespace AgentClaimNetwork.Session

open Library List
open TurnAccumulator (acceptIncompleteAssistant apply checkpointAssistant discardIncompleteAssistant
  finish finishItem fresh noteToolTimeline onNonStreamingFallback perform perform_standing
  pushAssistantCompleted pushAssistantDelta setLastItem)

variable {Stamp : Type} {turn : TurnAccumulator Stamp}

theorem encodeChar_head :
    ∃ byte, (String.utf8EncodeChar character ++ rest)[0]? = some byte ∧ byte.toNat / 64 ≠ 2 := by
  have valid := Utf8.toNat_valid character
  rcases Utf8.encodeChar_cases character with
    ⟨_, shape⟩ | ⟨_, _, shape⟩ | ⟨_, _, shape⟩ | ⟨_, shape⟩
  all_goals
    rw [shape]
    refine ⟨_, rfl, ?_⟩
    rw [Utf8.toNat_byte (by omega)]
    omega

theorem isCharBoundary_append :
    isCharBoundary (left ++ right) (len left) = true := by
  have place : (Utf8.encode (left ++ right))[len left]? = (Utf8.encode right)[0]? := by
    rw [Utf8.encode_append, len, List.getElem?_append_right (Nat.le_refl _), Nat.sub_self]
  unfold isCharBoundary
  rw [place]
  cases right with
  | nil => simp
  | cons character rest =>
    obtain ⟨byte, found, first⟩ := encodeChar_head
    rw [Utf8.encode_cons, found]
    simp [first]

theorem truncate_append (left right : Text) : truncate (left ++ right) (len left) = some left := by
  have short : len left ≤ len (left ++ right) := by simp [len]
  have taken : (Utf8.encode (left ++ right)).take (len left) = Utf8.encode left := by
    rw [Utf8.encode_append, len, take_left]
  rw [truncate, if_pos short, if_pos isCharBoundary_append, taken,
    Utf8.lossy_encode]

theorem len_eq_zero : len text = 0 ↔ text = [] := by
  cases text with
  | nil => simp [len]
  | cons character rest =>
    obtain ⟨byte, found, _⟩ := encodeChar_head
    have long : 0 < len (character :: rest) := by
      obtain ⟨bound, _⟩ := List.getElem?_eq_some_iff.mp found
      rwa [len, Utf8.encode_cons]
    simp
    omega

inductive Speech
  | delta (text : Text)
  | accepted
  | checkpoint (text : Text)
  | discarded
  | completed (text : Text)
  | toolCall (toolUseId : Text)
  | silent

def TurnJournalEventKind.speech : TurnJournalEventKind → Speech
  | assistantDelta text => .delta text
  | assistantOutputAccepted => .accepted
  | assistantOutputCheckpoint text => .checkpoint text
  | assistantOutputDiscarded => .discarded
  | assistantCompleted text => .completed text
  | nonStreamingFallbackSucceeded _ _ text => .completed text
  | toolCallStarted toolUseId .. => .toolCall toolUseId
  | toolCallSkipped toolUseId .. => .toolCall toolUseId
  | toolCallProgress toolUseId _ => .toolCall toolUseId
  | toolCallCompleted toolUseId .. => .toolCall toolUseId
  | toolCallInterrupted toolUseId _ => .toolCall toolUseId
  | _ => .silent

def TurnJournalEventKind.isFinish : TurnJournalEventKind → Bool
  | turnFinished _ => true
  | _ => false

def live : List TurnJournalEventKind → List TurnJournalEventKind
  | [] => []
  | kind :: rest => if kind.isFinish then [kind] else kind :: live rest

namespace Reference

inductive Entry
  | segment (text : Text) (closed : Bool)
  | toolCall (toolUseId : Text)
deriving DecidableEq

structure Draft where
  text : Text
  accepted : Text

structure Script where
  settled : List Entry
  draft : Option Draft

def Script.empty : Script := ⟨[], none⟩

def Script.entries (script : Script) : List Entry :=
  script.settled ++ script.draft.toList.map fun draft => .segment draft.text false

def Script.after (script : Script) : Speech → Script
  | .delta text => { script with
      draft := some (match script.draft with
        | some draft => ⟨draft.text ++ text, draft.accepted⟩
        | none => ⟨text, []⟩) }
  | .accepted => { script with draft := script.draft.map fun draft => ⟨draft.text, draft.text⟩ }
  | .checkpoint text => { script with draft := some ⟨text, text⟩ }
  | .discarded => { script with
      draft := script.draft.bind fun draft =>
        if draft.accepted = [] then none else some ⟨draft.accepted, draft.accepted⟩ }
  | .completed text => ⟨script.settled ++ [.segment text true], none⟩
  | .toolCall toolUseId =>
    -- only the first mention of a tool call stands in the timeline
    if Entry.toolCall toolUseId ∈ script.settled then script
    else ⟨script.entries ++ [.toolCall toolUseId], none⟩
  | .silent => script

def script (kinds : List TurnJournalEventKind) : Script :=
  kinds.foldl (fun script kind => script.after kind.speech) Script.empty

end Reference

open Reference

section

/-- The part of `apply` that the timeline sees. -/
def TurnAccumulator.say (turn : TurnAccumulator Stamp) : Speech → Option (TurnAccumulator Stamp)
  | .delta text => some (turn.pushAssistantDelta text)
  | .accepted => some turn.acceptIncompleteAssistant
  | .checkpoint text => some (turn.checkpointAssistant text)
  | .discarded => turn.discardIncompleteAssistant
  | .completed text => some (turn.pushAssistantCompleted text)
  | .toolCall toolUseId => some (turn.noteToolTimeline toolUseId)
  | .silent => some turn

def TurnAccumulator.timeline (turn : TurnAccumulator Stamp) :
    List TimelineAccumulatorItem × List Text :=
  (turn.timelineItems, turn.toolOrder)

theorem timeline_onNonStreamingFallback :
    (turn.onNonStreamingFallback attempt maxAttempts change).timeline = turn.timeline := by
  unfold onNonStreamingFallback
  cases turn.nonStreamingFallbacks.getLast? <;> rfl

theorem timeline_pushAssistantCompleted {turn other : TurnAccumulator Stamp}
    (same : turn.timeline = other.timeline) :
    (turn.pushAssistantCompleted text).timeline = (other.pushAssistantCompleted text).timeline := by
  obtain ⟨items, order⟩ := Prod.ext_iff.mp same
  dsimp only [TurnAccumulator.timeline] at items order
  have opened : turn.openSegment = other.openSegment := by
    rw [TurnAccumulator.openSegment, items]
    rfl
  unfold pushAssistantCompleted
  rw [opened]
  cases other.openSegment <;>
    simp [TurnAccumulator.timeline, setLastItem, TurnAccumulator.pushItem, items, order]

theorem perform_say (contentHash : List SessionContentBlock → Option Text)
    (turn : TurnAccumulator Stamp) (createdAt : Stamp) (kind : TurnJournalEventKind) :
    (turn.perform contentHash createdAt kind).map TurnAccumulator.timeline =
      (turn.say kind.speech).map TurnAccumulator.timeline := by
  cases kind with
  | canonicalUserMessage hash content | skillInstructionsResolved skills =>
    simp only [perform]
    split_ifs <;> rfl
  | nonStreamingFallbackAttemptStarted attempt maxAttempts previousError =>
    simp only [perform]
    split_ifs
    · rfl
    · exact congrArg some timeline_onNonStreamingFallback
  | nonStreamingFallbackAttemptFailed attempt maxAttempts error =>
    exact congrArg some timeline_onNonStreamingFallback
  | nonStreamingFallbackSucceeded attempt maxAttempts text =>
    exact congrArg some (timeline_pushAssistantCompleted
      timeline_onNonStreamingFallback)
  | backgroundProcessCompleted toolUseId =>
    simp only [perform]
    split <;> rfl
  | providerRequestRetriedAfterRejection rejectionId =>
    simp only [perform]
    split_ifs <;> rfl
  | _ => rfl

def TimelineAccumulatorItem.entry : TimelineAccumulatorItem → Entry
  | .assistant segment => .segment segment.text segment.completed
  | .toolCall toolUseId => .toolCall toolUseId

def Reference.Draft.item (draft : Draft) : TimelineAccumulatorItem :=
  .assistant ⟨draft.text, false, len draft.accepted⟩

structure Matches (turn : TurnAccumulator Stamp) (script : Script) : Prop where
  items : ∃ front, front.map TimelineAccumulatorItem.entry = script.settled ∧
    turn.timelineItems = front ++ script.draft.toList.map Draft.item
  settled : ∀ text, script.settled.getLast? ≠ some (.segment text false)
  accepted : ∀ draft, script.draft = some draft → draft.accepted <+: draft.text
  tools : ∀ toolUseId, toolUseId ∈ turn.toolOrder ↔ Entry.toolCall toolUseId ∈ script.settled

variable {script : Script}

theorem Matches.ofTimeline {turn other : TurnAccumulator Stamp}
    (matched : Matches turn script) (same : other.timeline = turn.timeline) :
    Matches other script := by
  obtain ⟨items, order⟩ := Prod.ext_iff.mp same
  dsimp only [TurnAccumulator.timeline] at items order
  refine ⟨?_, matched.settled, matched.accepted, ?_⟩
  · rw [items]
    exact matched.items
  · rw [order]
    exact matched.tools

theorem Matches.closed (matched : Matches turn script) (nothing : script.draft = none) :
    turn.openSegment = none ∧
      turn.timelineItems.map TimelineAccumulatorItem.entry = script.settled := by
  obtain ⟨front, entries, items⟩ := matched.items
  rw [nothing] at items
  simp only [Option.toList_none, map_nil, append_nil] at items
  refine ⟨?_, by rw [items, entries]⟩
  unfold TurnAccumulator.openSegment
  rw [items]
  have last := matched.settled
  rw [← entries, List.getLast?_map] at last
  cases found : front.getLast? with
  | none => rfl
  | some item =>
    cases item with
    | toolCall toolUseId => rfl
    | assistant segment =>
      cases isClosed : segment.completed with
      | true => simp [isClosed]
      | false =>
        refine absurd ?_ (last segment.text)
        rw [found]
        simp [TimelineAccumulatorItem.entry, isClosed]

section

variable (matched : Matches turn script)
include matched

theorem Matches.opened (found : script.draft = some draft) :
    turn.openSegment = some ⟨draft.text, false, len draft.accepted⟩ ∧
      turn.timelineItems.dropLast.map TimelineAccumulatorItem.entry = script.settled := by
  obtain ⟨front, entries, items⟩ := matched.items
  rw [found] at items
  simp only [Option.toList_some, map_cons, map_nil, Draft.item] at items
  constructor
  · unfold TurnAccumulator.openSegment
    rw [items, List.getLast?_concat]
    rfl
  · rw [items, dropLast_concat, entries]

theorem Matches.setDraft (found : script.draft = some draft) (next : Draft)
    (accepted : next.accepted <+: next.text) :
    Matches (turn.setLastItem next.item) { script with draft := some next } where
  items := ⟨turn.timelineItems.dropLast, (matched.opened found).2, rfl⟩
  settled := matched.settled
  accepted := by
    rintro _ ⟨⟩
    exact accepted
  tools := matched.tools

theorem Matches.pushDraft (nothing : script.draft = none) (next : Draft)
    (accepted : next.accepted <+: next.text) :
    Matches (turn.pushItem next.item) { script with draft := some next } where
  items := ⟨turn.timelineItems, (matched.closed nothing).2, rfl⟩
  settled := matched.settled
  accepted := by
    rintro _ ⟨⟩
    exact accepted
  tools := matched.tools

theorem delta_matches {text : Text} :
    Matches (turn.pushAssistantDelta text) (script.after (.delta text)) := by
  unfold pushAssistantDelta Script.after
  cases found : script.draft with
  | none =>
    rw [(matched.closed found).1]
    exact matched.pushDraft found ⟨text, []⟩ nil_prefix
  | some draft =>
    rw [(matched.opened found).1]
    exact matched.setDraft found ⟨draft.text ++ text, draft.accepted⟩
      ((matched.accepted draft found).trans (prefix_append _ _))

theorem accepted_matches : Matches turn.acceptIncompleteAssistant (script.after .accepted) := by
  unfold acceptIncompleteAssistant Script.after
  cases found : script.draft with
  | none =>
    rw [(matched.closed found).1]
    obtain ⟨settled, draft⟩ := script
    cases found
    exact matched
  | some draft =>
    rw [(matched.opened found).1]
    exact matched.setDraft found ⟨draft.text, draft.text⟩ (prefix_refl _)

theorem checkpoint_matches (text : Text) :
    Matches (turn.checkpointAssistant text) (script.after (.checkpoint text)) := by
  unfold checkpointAssistant Script.after
  cases found : script.draft with
  | none =>
    rw [(matched.closed found).1]
    exact matched.pushDraft found ⟨text, text⟩ (prefix_refl _)
  | some draft =>
    rw [(matched.opened found).1]
    exact matched.setDraft found ⟨text, text⟩ (prefix_refl _)

theorem discarded_matches : ∃ next, turn.discardIncompleteAssistant = some next ∧
      Matches next (script.after .discarded) := by
  unfold discardIncompleteAssistant Script.after
  cases found : script.draft with
  | none =>
    rw [(matched.closed found).1]
    obtain ⟨settled, draft⟩ := script
    cases found
    exact ⟨turn, rfl, matched⟩
  | some draft =>
    rw [(matched.opened found).1]
    by_cases nothing : draft.accepted = []
    · refine ⟨_, if_pos (len_eq_zero.mpr nothing), ?_⟩
      simp only [Option.bind_some, if_pos nothing]
      refine ⟨⟨turn.timelineItems.dropLast, (matched.opened found).2, ?_⟩, matched.settled, ?_,
        matched.tools⟩
      · simp
      · rintro _ ⟨⟩
    · obtain ⟨rest, whole⟩ := matched.accepted draft found
      have cut : truncate draft.text (len draft.accepted) = some draft.accepted := by
        rw [← whole]
        exact truncate_append draft.accepted rest
      have some : ¬ len draft.accepted = 0 := fun zero => nothing (len_eq_zero.mp zero)
      simp only [if_neg some, cut, Option.map_some, Option.bind_some, if_neg nothing]
      exact ⟨_, rfl, matched.setDraft found ⟨draft.accepted, draft.accepted⟩
        (prefix_refl _)⟩

end

theorem Matches.close {turn : TurnAccumulator Stamp} {script : Script}
    {front : List TimelineAccumulatorItem} (matched : Matches turn script)
    (entries : front.map TimelineAccumulatorItem.entry = script.settled) (text : Text) :
    Matches { turn with timelineItems := front ++ [.assistant ⟨text, true, len text⟩] }
      ⟨script.settled ++ [.segment text true], none⟩ where
  items := by
    refine ⟨_, ?_, (append_nil _).symm⟩
    rw [map_append, entries]
    rfl
  settled := by
    intro other
    simp
  accepted := by
    rintro _ ⟨⟩
  tools := by
    intro toolUseId
    rw [matched.tools]
    simp

section

variable (matched : Matches turn script)
include matched

theorem completed_matches :
    Matches (turn.pushAssistantCompleted text) (script.after (.completed text)) := by
  unfold pushAssistantCompleted
  cases found : script.draft with
  | none =>
    rw [(matched.closed found).1]
    exact matched.close (matched.closed found).2 text
  | some draft =>
    rw [(matched.opened found).1]
    exact matched.close (matched.opened found).2 text

theorem Matches.entries :
    turn.timelineItems.map TimelineAccumulatorItem.entry = script.entries := by
  obtain ⟨front, settled, items⟩ := matched.items
  rw [items, map_append, settled, Script.entries, map_map]
  rfl

theorem toolCall_matches :
    Matches (turn.noteToolTimeline toolUseId) (script.after (.toolCall toolUseId)) := by
  unfold noteToolTimeline Script.after
  by_cases known : toolUseId ∈ turn.toolOrder
  · rw [if_pos known]
    dsimp only
    rw [if_pos ((matched.tools toolUseId).mp known)]
    exact matched
  · rw [if_neg known]
    dsimp only
    rw [if_neg (fun settled => known ((matched.tools toolUseId).mpr settled))]
    refine ⟨⟨_, ?_, (append_nil _).symm⟩, ?_, ?_, ?_⟩
    · rw [map_append, matched.entries]
      rfl
    · intro text
      simp
    · rintro _ ⟨⟩
    · intro other
      -- a draft that is settled by the call is no tool call
      simp only [mem_append, mem_singleton, Script.entries, mem_map,
        matched.tools other, Entry.toolCall.injEq]
      constructor
      · rintro (settled | same)
        · exact .inl (.inl settled)
        · exact .inr same
      · rintro ((settled | ⟨draft, _, impossible⟩) | same)
        · exact .inl settled
        · cases impossible
        · exact .inr same

theorem say_matches (speech : Speech) :
    ∃ next, turn.say speech = some next ∧ Matches next (script.after speech) := by
  cases speech with
  | delta text => exact ⟨_, rfl, delta_matches matched⟩
  | accepted => exact ⟨_, rfl, accepted_matches matched⟩
  | checkpoint text => exact ⟨_, rfl, checkpoint_matches matched text⟩
  | discarded => exact discarded_matches matched
  | completed text => exact ⟨_, rfl, completed_matches matched⟩
  | toolCall toolUseId => exact ⟨_, rfl, toolCall_matches matched⟩
  | silent => exact ⟨turn, rfl, matched⟩

end

theorem perform_matches (contentHash : List SessionContentBlock → Option Text)
    (matched : Matches turn script)
    (createdAt : Stamp) (kind : TurnJournalEventKind) :
    ∃ next, turn.perform contentHash createdAt kind = some next ∧
      Matches next (script.after kind.speech) := by
  obtain ⟨said, saying, after⟩ := say_matches matched kind.speech
  have same := perform_say contentHash turn createdAt kind
  rw [saying] at same
  obtain ⟨next, performed, timeline⟩ := Option.map_eq_some_iff.mp same
  exact ⟨next, performed, after.ofTimeline timeline⟩

end
variable {next : TurnAccumulator Stamp} {kind : TurnJournalEventKind}

variable {toolUseId : Text}

section

def TurnAccumulator.Known (turn : TurnAccumulator Stamp) : Prop :=
  ∀ toolUseId ∈ turn.toolOrder, (turn.toolCalls.get? toolUseId).isSome = true

theorem insert_isSome {tools : KeyedMap ToolAccumulator.id}
    (known : (tools.get? toolUseId).isSome = true) :
    ((tools.insert tool).get? toolUseId).isSome = true := by
  rw [KeyedMap.get?_insert]
  split_ifs
  · rfl
  · exact known

theorem onTool_known (known : turn.Known)
    {change : ToolAccumulator → ToolAccumulator} (kept : ∀ tool, (change tool).id = tool.id) :
    (turn.onTool toolUseId change).Known := by
  have tools : (turn.noteToolTimeline toolUseId).toolCalls = turn.toolCalls := by
    unfold noteToolTimeline
    split_ifs <;> rfl
  have order : ∀ other ∈ (turn.noteToolTimeline toolUseId).toolOrder,
      other = toolUseId ∨ other ∈ turn.toolOrder := by
    intro other member
    unfold noteToolTimeline at member
    split_ifs at member
    · exact .inr member
    · rcases mem_concat member with earlier | latest
      · exact .inr earlier
      · exact .inl latest
  have named : (change ((turn.toolCalls.get? toolUseId).getD
      (ToolAccumulator.unknown toolUseId))).id = toolUseId := by
    rw [kept]
    cases found : turn.toolCalls.get? toolUseId with
    | none => rfl
    | some tool => exact (KeyedMap.get?_eq_some.mp found).2
  intro other member
  unfold TurnAccumulator.onTool
  dsimp only
  rw [tools]
  rcases order other member with rfl | earlier
  · rw [KeyedMap.get?_insert, if_pos named]
    rfl
  · exact insert_isSome (known other earlier)

theorem onNonStreamingFallback_known (known : turn.Known) :
    (turn.onNonStreamingFallback attempt maxAttempts change).Known := by
  unfold onNonStreamingFallback
  cases turn.nonStreamingFallbacks.getLast? <;> exact known

theorem pushAssistantCompleted_known (known : turn.Known) : (turn.pushAssistantCompleted text).Known := by
  unfold pushAssistantCompleted
  cases turn.openSegment <;> exact known

theorem perform_known {contentHash : List SessionContentBlock → Option Text}
    {turn : TurnAccumulator Stamp} (known : turn.Known)
    (performed : turn.perform contentHash createdAt kind = some next) : next.Known := by
  cases kind with
  | canonicalUserMessage hash content | skillInstructionsResolved skills =>
    simp only [perform] at performed
    split_ifs at performed <;> cases performed <;> exact known
  | assistantDelta text =>
    cases performed
    unfold pushAssistantDelta
    cases turn.openSegment <;> exact known
  | assistantOutputAccepted =>
    cases performed
    unfold acceptIncompleteAssistant
    cases turn.openSegment <;> exact known
  | assistantOutputCheckpoint text =>
    cases performed
    unfold checkpointAssistant
    cases turn.openSegment <;> exact known
  | assistantOutputDiscarded =>
    simp only [perform, discardIncompleteAssistant] at performed
    split at performed
    · split_ifs at performed
      · cases performed
        exact known
      · obtain ⟨text, _, rfl⟩ := Option.map_eq_some_iff.mp performed
        exact known
    · cases performed
      exact known
  | assistantCompleted text =>
    cases performed
    exact pushAssistantCompleted_known known
  | nonStreamingFallbackAttemptStarted attempt maxAttempts previousError =>
    simp only [perform] at performed
    split_ifs at performed
    · cases performed
      exact known
    · cases performed
      exact onNonStreamingFallback_known known
  | nonStreamingFallbackAttemptFailed attempt maxAttempts error =>
    cases performed
    exact onNonStreamingFallback_known known
  | nonStreamingFallbackSucceeded attempt maxAttempts text =>
    cases performed
    exact pushAssistantCompleted_known
      (onNonStreamingFallback_known known)
  | toolCallStarted toolUseId | toolCallSkipped toolUseId | toolCallProgress toolUseId
  | toolCallCompleted toolUseId | toolCallInterrupted toolUseId =>
    cases performed
    exact onTool_known known fun _ => rfl
  | backgroundProcessCompleted toolUseId =>
    simp only [perform] at performed
    split at performed
    · cases performed
      intro other member
      exact insert_isSome (known other member)
    · cases performed
      exact known
  | providerRequestRetriedAfterRejection rejectionId =>
    simp only [perform] at performed
    split_ifs at performed <;> cases performed <;> exact known
  | _ =>
    cases performed
    exact known

end

section

theorem live_snoc (kinds : List TurnJournalEventKind) (kind : TurnJournalEventKind) :
    live (kinds ++ [kind]) =
      if kinds.any TurnJournalEventKind.isFinish then live kinds else live kinds ++ [kind] := by
  induction kinds with
  | nil => cases finish : kind.isFinish <;> simp [live, finish]
  | cons first rest ih =>
    rw [cons_append, live, ih]
    cases finish : first.isFinish with
    | true => simp [live, finish]
    | false =>
      simp only [live, finish, any_cons, Bool.false_or, Bool.false_eq_true, if_false]
      split_ifs <;> rfl

theorem Standing.after_ended (standing : TurnAccumulator.Standing) (kind : TurnJournalEventKind) :
    (standing.after kind).status.isSome = (standing.status.isSome || kind.isFinish) := by
  cases kind with
  | turnFinished status => simp [TurnAccumulator.Standing.after, TurnJournalEventKind.isFinish]
  | providerRequestRetriedAfterRejection rejectionId =>
    rw [TurnAccumulator.Standing.after]
    split_ifs <;> exact (Bool.or_false _).symm
  | _ => exact (Bool.or_false _).symm

theorem late_silent (late : kind.isLate = true) :
    kind.speech = .silent ∧ kind.isFinish = false := by
  cases kind with
  | backgroundProcessCompleted | compactionAssetsExternalized => exact ⟨rfl, rfl⟩
  | _ => cases late

structure Kept (past : List (TurnJournalEvent Stamp TurnJournalEventKind))
    (turn : TurnAccumulator Stamp) : Prop where
  matched : Matches turn (Reference.script (live (past.map TurnJournalEvent.kind)))
  ended : turn.status.isSome =
    (past.map TurnJournalEvent.kind).any TurnJournalEventKind.isFinish
  known : turn.Known

theorem fresh_kept (turnId : Text) : Kept [] (fresh turnId : TurnAccumulator Stamp)
    where
  matched :=
    { items := ⟨[], rfl, rfl⟩
      settled := fun _ last => by cases last
      accepted := fun _ open_ => by cases open_
      tools := by simp [fresh, Reference.script, live, Script.empty] }
  ended := rfl
  known := fun _ member => absurd member not_mem_nil

theorem applyEvent_kept {turn : TurnAccumulator Stamp} (kept : Kept past turn)
    (event : TurnJournalEvent Stamp TurnJournalEventKind) :
    ∃ next, applyEvent contentHash turn event = some next ∧ Kept (past ++ [event]) next := by
  unfold applyEvent apply
  by_cases ignored : turn.status.isSome && !event.kind.isLate
  · -- the turn has finished, so the live events stay the same
    rw [if_pos ignored]
    obtain ⟨ended, -⟩ := Bool.and_eq_true_iff.mp ignored
    have finished := kept.ended ▸ ended
    refine ⟨turn, rfl, ?_, ?_, kept.known⟩
    · rw [map_append, map_singleton, live_snoc, if_pos finished]
      exact kept.matched
    · rw [map_append, any_append, finished, ended]
      rfl
  · rw [if_neg ignored]
    obtain ⟨next, performed, matched⟩ := perform_matches contentHash kept.matched
      event.createdAt event.kind
    have standing := perform_standing performed
    refine ⟨next, performed, ?_, ?_, perform_known kept.known performed⟩
    · rw [map_append, map_singleton, live_snoc]
      split_ifs with finished
      · have late : event.kind.isLate = true := by
          rw [kept.ended, finished] at ignored
          simpa using ignored
        rwa [(late_silent late).1] at matched
      · rw [Reference.script, foldl_append]
        exact matched
    · have status : next.status = (turn.standing.after event.kind).status :=
        congrArg TurnAccumulator.Standing.status standing
      rw [status, Standing.after_ended, map_append, any_append, ← kept.ended]
      simp [TurnAccumulator.standing]

theorem Standing.after_turnId (standing : TurnAccumulator.Standing)
    (kind : TurnJournalEventKind) : (standing.after kind).turnId = standing.turnId := by
  cases kind with
  | providerRequestRetriedAfterRejection rejectionId =>
    rw [TurnAccumulator.Standing.after]
    split_ifs <;> rfl
  | _ => rfl

theorem applyEvent_turnId {turn : TurnAccumulator Stamp}
    (applied : applyEvent contentHash turn event = some next) : next.turnId = turn.turnId := by
  unfold applyEvent apply at applied
  split_ifs at applied
  · cases applied
    rfl
  · have same := congrArg TurnAccumulator.Standing.turnId (perform_standing applied)
    rw [Standing.after_turnId] at same
    exact same

theorem fold_kept (contentHash : List SessionContentBlock → Option Text) (turnId : Text)
    (events : List (TurnJournalEvent Stamp TurnJournalEventKind)) :
    ∃ turn, events.foldlM (applyEvent contentHash) (fresh turnId) = some turn ∧
      turn.turnId = turnId ∧ Kept events turn := by
  refine foldlM_total (P := fun past turn => turn.turnId = turnId ∧ Kept past turn)
    ⟨rfl, fresh_kept turnId⟩ ?_ events
  rintro past turn event ⟨named, kept⟩
  obtain ⟨next, applied, after⟩ := applyEvent_kept kept event
  exact ⟨next, applied, (applyEvent_turnId applied).trans named, after⟩

theorem replay_turns (contentHash : List SessionContentBlock → Option Text)
    (read : TurnJournalRead Stamp TurnJournalEventKind) :
    ∃ projection, replayTurnJournal contentHash read = some projection ∧
      projection.turns.map some = (read.events.map TurnJournalEvent.turnId).eraseDups.map
        fun turnId => (accumulate contentHash turnId read.events).map finish := by
  have total : ∀ turnId events, ∃ turn : TurnAccumulator Stamp,
      foldlM (applyEvent contentHash) (fresh turnId) events = some turn := by
    intro turnId events
    obtain ⟨turn, folded, _⟩ := fold_kept contentHash turnId events
    exact ⟨turn, folded⟩
  obtain ⟨group, folded, drained⟩ := @Grouped.drain_replay _ _ _ _ TurnAccumulator.turnId _ _
    TurnJournalEvent.turnId _ (applyEvent contentHash) (fun _ => rfl) applyEvent_turnId total
    read.events
  refine ⟨_, congrArg (Option.map _) folded, ?_⟩
  have finished := congrArg (map (Option.map finish)) drained
  rw [map_map, map_map] at finished
  rw [map_map]
  exact finished

variable {read : TurnJournalRead Stamp TurnJournalEventKind}
  {projection : TurnJournalProjection Stamp}

theorem turn_accumulated {turn : TurnJournalTurn Stamp}
    (replayed : replayTurnJournal contentHash read = some projection)
    (member : turn ∈ projection.turns) :
    ∃ last, accumulate contentHash turn.turnId read.events = some last ∧ turn = last.finish ∧
      Kept (read.events.filter fun event => event.turnId == turn.turnId) last := by
  obtain ⟨same, again, turns⟩ := replay_turns contentHash read
  rw [replayed] at again
  cases again
  have listed : some turn ∈ projection.turns.map some := mem_map.mpr ⟨turn, member, rfl⟩
  rw [turns] at listed
  obtain ⟨turnId, _, found⟩ := mem_map.mp listed
  obtain ⟨last, folded, named, kept⟩ := fold_kept contentHash turnId
    (read.events.filter fun event => event.turnId == turnId)
  rw [accumulate, folded] at found
  cases found
  have sameId : last.finish.turnId = turnId := named
  rw [sameId]
  exact ⟨last, folded, rfl, kept⟩

theorem turn_ids
    (turns : projection.turns.map some = (read.events.map TurnJournalEvent.turnId).eraseDups.map
      fun turnId => (accumulate contentHash turnId read.events).map finish) :
    projection.turns.map TurnJournalTurn.turnId =
      (read.events.map TurnJournalEvent.turnId).eraseDups := by
  have ids := congrArg (map (Option.map TurnJournalTurn.turnId)) turns
  rw [map_map, map_map] at ids
  have named : ((fun turn => turn.map TurnJournalTurn.turnId) ∘ fun turnId =>
      (accumulate contentHash turnId read.events).map finish) = some := by
    funext turnId
    obtain ⟨last, folded, named, _⟩ := fold_kept contentHash turnId
      (read.events.filter fun event => event.turnId == turnId)
    simp only [Function.comp_apply, accumulate, folded, Option.map_some]
    exact congrArg some named
  rw [named] at ids
  apply map_injective_iff.mpr (Option.some_injective Text)
  rw [map_map]
  exact ids

end

section

def TurnJournalTimelineItem.entry : TurnJournalTimelineItem → Entry
  | .assistant text completed => .segment text completed
  | .toolCall tool => .toolCall tool.toolUseId

def Reference.Entry.isShown : Entry → Bool
  | .segment text _ => !text.isEmpty
  | .toolCall _ => true

def Reference.Script.segments (script : Script) : List (Text × Bool) :=
  script.entries.filterMap fun
    | .segment text closed => some (text, closed)
    | .toolCall _ => none

variable {script : Script}

theorem Matches.known (matched : Matches turn script) (known : turn.Known)
    (member : .toolCall toolUseId ∈ turn.timelineItems) :
    (turn.toolCalls.get? toolUseId).isSome = true := by
  have entry : Entry.toolCall toolUseId ∈ script.entries := by
    rw [← matched.entries]
    exact mem_map.mpr ⟨_, member, rfl⟩
  rcases mem_append.mp entry with settled | draft
  · exact known toolUseId ((matched.tools toolUseId).mpr settled)
  · obtain ⟨_, _, impossible⟩ := mem_map.mp draft
    cases impossible

theorem finishItem_entry (turn : TurnAccumulator Stamp) (items : List TimelineAccumulatorItem)
    (known : ∀ toolUseId, .toolCall toolUseId ∈ items →
      (turn.toolCalls.get? toolUseId).isSome = true) :
    (items.filterMap turn.finishItem).map TurnJournalTimelineItem.entry =
      (items.map TimelineAccumulatorItem.entry).filter Entry.isShown := by
  induction items with
  | nil => rfl
  | cons item rest ih =>
    have later := ih fun toolUseId member => known toolUseId (mem_cons_of_mem _ member)
    cases item with
    | assistant segment =>
      cases empty : segment.text.isEmpty <;>
        simp [finishItem, TimelineAccumulatorItem.entry, Entry.isShown, empty,
          later, TurnJournalTimelineItem.entry]
    | toolCall toolUseId =>
      obtain ⟨tool, found⟩ := Option.isSome_iff_exists.mp
        (known toolUseId mem_cons_self)
      have named : tool.toolUseId = toolUseId := (KeyedMap.get?_eq_some.mp found).2
      rw [map_cons, filterMap_cons, filter_cons]
      simp [finishItem, TimelineAccumulatorItem.entry, Entry.isShown, found,
        later, TurnJournalTimelineItem.entry, ToolAccumulator.finish, named]

theorem finish_timeline (matched : Matches turn script) (known : turn.Known) :
    turn.finish.timelineItems.map TurnJournalTimelineItem.entry =
      script.entries.filter Entry.isShown := by
  rw [← matched.entries]
  exact finishItem_entry turn turn.timelineItems fun _ member => matched.known known member

theorem segments_entry (items : List TimelineAccumulatorItem) : (items.filterMap fun
      | .assistant segment => some segment
      | .toolCall _ => none).map (fun segment => (segment.text, segment.completed)) =
      (items.map TimelineAccumulatorItem.entry).filterMap fun
        | .segment text closed => some (text, closed)
        | .toolCall _ => none := by
  induction items with
  | nil => rfl
  | cons item rest ih =>
    cases item with
    | assistant segment | toolCall toolUseId => simp [TimelineAccumulatorItem.entry, ih]

theorem finish_segments (matched : Matches turn script) :
    turn.segments.map (fun segment => (segment.text, segment.completed)) = script.segments := by
  rw [Script.segments, ← matched.entries]
  exact segments_entry turn.timelineItems

theorem finish_text (matched : Matches turn script) :
    turn.finish.assistantText = ['\n'].intercalate (script.segments.map Prod.fst) ∧
      turn.finish.assistantCompleted = (script.segments.getLast?.map Prod.snd).getD false := by
  rw [← finish_segments matched, map_map, List.getLast?_map, Option.map_map]
  exact ⟨rfl, rfl⟩

theorem discard_keeps
    {turn : TurnAccumulator Stamp}
    (discarded : turn.apply contentHash createdAt .assistantOutputDiscarded = some next)
    (found : turn.timelineItems[index]? = some item)
    (settled : ∀ segment, item = .assistant segment →
      segment.completed = true ∨ index + 1 < turn.timelineItems.length) :
    next.timelineItems[index]? = some item := by
  unfold apply at discarded
  split_ifs at discarded
  · cases discarded
    exact found
  · simp only [perform, discardIncompleteAssistant] at discarded
    cases opened : turn.openSegment with
    | none =>
      rw [opened] at discarded
      cases discarded
      exact found
    | some segment =>
      obtain ⟨last, isOpen⟩ : turn.timelineItems.getLast? = some (.assistant segment) ∧
          segment.completed = false := by
        unfold TurnAccumulator.openSegment at opened
        split at opened
        · split_ifs at opened with closed
          cases opened
          exact ⟨by assumption, Bool.eq_false_iff.mpr closed⟩
        · cases opened
      -- the item is not the last one, which is the open segment
      have early : index < turn.timelineItems.dropLast.length := by
        rw [length_dropLast]
        have bound := (List.getElem?_eq_some_iff.mp found).1
        by_contra atEnd
        have isLast : index = turn.timelineItems.length - 1 := by omega
        rw [List.getLast?_eq_getElem?, ← isLast, found] at last
        cases last
        rcases settled segment rfl with closed | later
        · rw [isOpen] at closed
          cases closed
        · omega
      have kept : turn.timelineItems.dropLast[index]? = some item := by
        rw [List.getElem?_dropLast, if_pos (by rwa [length_dropLast] at early), found]
      simp only [opened] at discarded
      split_ifs at discarded
      · cases discarded
        exact kept
      · obtain ⟨text, _, rfl⟩ := Option.map_eq_some_iff.mp discarded
        simp only [setLastItem]
        rw [List.getElem?_append_left early, kept]

end

/-- For every journal, with the events of its turns in any order: the replay returns, so no cut
falls inside a character, every turn is projected once, with the timeline, the text and the last
segment's state that the reference gives its events, and a discard leaves every segment that is
closed or followed by something as it was. -/
theorem assistant_text_follows_reference {Stamp : Type}
    (contentHash : List SessionContentBlock → Option Text)
    (read : TurnJournalRead Stamp TurnJournalEventKind) :
    ∃ projection, replayTurnJournal contentHash read = some projection ∧
      projection.turns.map TurnJournalTurn.turnId =
        (read.events.map TurnJournalEvent.turnId).eraseDups ∧
      (∀ turn ∈ projection.turns,
        let events := read.events.filter fun event => event.turnId == turn.turnId
        let script := Reference.script (live (events.map TurnJournalEvent.kind))
        turn.timelineItems.map TurnJournalTimelineItem.entry = script.entries.filter Entry.isShown ∧
          turn.assistantText = ['\n'].intercalate (script.segments.map Prod.fst) ∧
          turn.assistantCompleted = (script.segments.getLast?.map Prod.snd).getD false) ∧
      ∀ (turn next : TurnAccumulator Stamp) (createdAt : Stamp),
        turn.apply contentHash createdAt .assistantOutputDiscarded = some next →
        ∀ index item, turn.timelineItems[index]? = some item →
          (∀ segment, item = .assistant segment →
            segment.completed = true ∨ index + 1 < turn.timelineItems.length) →
          next.timelineItems[index]? = some item := by
  obtain ⟨projection, replayed, turns⟩ := replay_turns contentHash read
  refine ⟨projection, replayed, turn_ids turns, ?_, ?_⟩
  · intro turn member
    obtain ⟨last, _, finished, kept⟩ := turn_accumulated replayed member
    generalize turn.turnId = turnId at kept
    rw [finished]
    exact ⟨finish_timeline kept.matched kept.known, finish_text kept.matched⟩
  · intro turn next createdAt discarded index item found settled
    exact discard_keeps discarded found settled

end AgentClaimNetwork.Session
