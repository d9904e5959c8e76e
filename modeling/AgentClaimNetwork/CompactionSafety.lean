import AgentClaimNetwork.Session.ActiveSuffix

/-!
What a compaction may do to a conversation: it never separates a tool call from its result and
loses no message but the summarised ones.
-/

namespace AgentClaimNetwork

open Library Api Delegation Session List
open SessionTurnMessage (toolResultIds toolUseIds userText)

variable {Replay : Type}

theorem projectedMessages_paired {messages : List (SessionTurnMessage Replay)}
    (first : FirstRealIsUser messages) (paired : Paired messages)
    (roles : ∀ message ∈ messages, message.role = userRole ∨ message.role = assistantRole)
    (planned : buildPlan tokens budget messages protectedTailSegments = some plan) :
    Paired (plan.projectedMessages summary fileEditAuthorityEnabled) := by
  obtain ⟨ranges, selected, _, _, _, isPrefix, isTail⟩ := buildPlan_ranges planned
  obtain ⟨fixedTailStart, fixed⟩ := select_fixedTail selected
  obtain ⟨_, cuts⟩ := providerSafeSegments_whole first paired roles
  have tail : Paired (messages.drop ranges.tailStartIndex) := by
    rcases fixed.chosen with same | ⟨segment, member, _, same⟩
    · rw [same]
      by_cases guarded : 0 < protectedTailSegments
      · obtain ⟨_, segment, found, start⟩ := fixed.guarded guarded
        rw [start]
        exact (cuts segment (mem_of_getElem? found)).1
      · obtain ⟨_, last, isLast, ends⟩ := fixed.free (by omega)
        rw [ends]
        exact (cuts last (mem_of_getLast? isLast)).2
    · rw [same]
      exact (cuts segment member).1
  unfold CompactionPlan.projectedMessages
  rw [isPrefix, isTail]
  apply Paired.append
  · exact (anchor_paired first paired).1.append paired_userText
  · exact tail.of_shapes projectTailFrom_shapes

theorem projectActiveSuffix_paired (first : FirstRealIsUser activeSuffix)
    (paired : Paired activeSuffix)
    (roles : ∀ message ∈ activeSuffix, message.role = userRole ∨ message.role = assistantRole) :
    Paired (projectActiveSuffix renderWorkset activeSuffix compactedUntilSegment
      toolResultRawMaxChars activeTurnSummary protectedTailSegments
      fileEditAuthorityEnabled).messages := by
  by_cases empty : activeSuffix = []
  · subst empty
    exact Linked.nil
  · obtain ⟨skip, note, protectedStart, parts⟩ := projectActiveSuffix_parts empty
    obtain ⟨_, cuts⟩ := providerSafeSegments_whole first paired roles
    obtain ⟨anchor, rest⟩ := anchor_paired first paired
    have tail : Paired (activeSuffix.drop skip) := by
      rcases parts.skipped with same | ⟨segment, member, same⟩
      · rwa [same]
      · rw [same]
        exact (cuts segment member).2
    have noted : Paired note := by
      rcases parts.noted with same | ⟨text, same⟩
      · rw [same]
        exact Linked.nil
      · rw [same]
        exact paired_userText
    rw [parts.messages]
    exact (anchor.append noted).append
      (tail.of_shapes projectTailFrom_shapes)

/-- For a conversation of paired calls and results: the segments tile everything behind the anchor,
and what a compaction makes of it, for a subagent with any estimate, budget and protected tail or for
a session up to any segment, is paired again. -/
theorem compaction_keeps_tool_pairs (messages : List (SessionTurnMessage Replay))
    (roles : ∀ message ∈ messages, message.role = userRole ∨ message.role = assistantRole)
    (first : FirstRealIsUser messages) (paired : Paired messages) :
    Tiles (providerAnchorEndIndex messages) (providerSafeSegments messages) messages.length ∧
      (∀ tokens budget protectedTailSegments plan,
        buildPlan tokens budget messages protectedTailSegments = some plan →
        ∀ summary fileEditAuthorityEnabled,
          Paired (plan.projectedMessages summary fileEditAuthorityEnabled)) ∧
      ∀ renderWorkset compactedUntilSegment toolResultRawMaxChars activeTurnSummary
        protectedTailSegments fileEditAuthorityEnabled,
        Paired (projectActiveSuffix renderWorkset messages compactedUntilSegment
          toolResultRawMaxChars activeTurnSummary protectedTailSegments
          fileEditAuthorityEnabled).messages := by
  refine ⟨(providerSafeSegments_whole first paired roles).1, ?_, ?_⟩
  · intro tokens budget protectedTailSegments plan planned summary fileEditAuthorityEnabled
    exact projectedMessages_paired first paired roles planned
  · intro renderWorkset compactedUntilSegment toolResultRawMaxChars activeTurnSummary
      protectedTailSegments fileEditAuthorityEnabled
    exact projectActiveSuffix_paired first paired roles

namespace ToolTurn

def call : SessionTurnMessage Unit :=
  ⟨assistantRole, [.toolUse "t1".toList "file_read".toList .null], none⟩

def result : SessionTurnMessage Unit :=
  ⟨userRole, [.toolResult "t1".toList "contents".toList], none⟩

def messages : List (SessionTurnMessage Unit) :=
  [.userText "read it".toList, call, result, ⟨assistantRole, [.text "done".toList], none⟩]

def orphan : List (SessionTurnMessage Unit) := [.userText "read it".toList, result]

def foreign : List (SessionTurnMessage Unit) :=
  [.userText "read it".toList, ⟨"system".toList, [.text "note".toList], none⟩]

theorem messages_paired : Paired messages := by
  refine ⟨?_, ?_, ?_⟩
  · rintro _ ⟨⟩ answers
    exact answers rfl
  · simp [messages, SessionTurnMessage.shape, toolUseIds,
      toolResultIds, userText, call, result, Shape.Fits,
      Shape.Answered, Shape.Asked, userRole_ne_assistantRole]
  · rintro _ ⟨⟩ ⟨_, uses⟩
    exact uses rfl

end ToolTurn

theorem compaction_keeps_tool_pairs_toolTurn :
    providerSafeSegments ToolTurn.messages = [⟨1, 3⟩, ⟨3, 4⟩] ∧
      Tiles (providerAnchorEndIndex ToolTurn.messages) (providerSafeSegments ToolTurn.messages)
        ToolTurn.messages.length := by
  refine ⟨by decide, ?_⟩
  refine (compaction_keeps_tool_pairs ToolTurn.messages ?_ ?_ ToolTurn.messages_paired).1
  · decide
  · rintro message found
    cases found
    rfl

def EveryCallAnswered (messages : List (SessionTurnMessage Replay)) : Prop :=
  (messages.map SessionTurnMessage.shape).IsChain Shape.Answered ∧
    ∀ shape ∈ (messages.map SessionTurnMessage.shape).getLast?, ¬ shape.Asks

/-- Answered calls alone are not enough: the segments stop at a result that answers nothing
and at a message of another role. -/
theorem segments_stop_at_orphan_and_foreign :
    ((FirstRealIsUser ToolTurn.orphan ∧ EveryCallAnswered ToolTurn.orphan) ∧
        ¬ Tiles (providerAnchorEndIndex ToolTurn.orphan) (providerSafeSegments ToolTurn.orphan)
          ToolTurn.orphan.length) ∧
      (FirstRealIsUser ToolTurn.foreign ∧ EveryCallAnswered ToolTurn.foreign) ∧
        ¬ Tiles (providerAnchorEndIndex ToolTurn.foreign) (providerSafeSegments ToolTurn.foreign)
          ToolTurn.foreign.length := by
  have unasked : ∀ next : Shape, Shape.Answered
      (userText "read it".toList : SessionTurnMessage Unit).shape next := by
    intro next isAssistant
    exact absurd isAssistant userRole_ne_assistantRole
  refine ⟨⟨⟨?_, ?_, ?_⟩, ?_⟩, ⟨?_, ?_, ?_⟩, ?_⟩
  · rintro message ⟨⟩
    rfl
  · exact isChain_cons_cons.mpr ⟨unasked _, List.IsChain.singleton _⟩
  · rintro _ ⟨⟩ ⟨_, uses⟩
    exact uses rfl
  · have stopped : providerSafeSegments ToolTurn.orphan = [] := by decide
    exact (by decide : ¬ providerAnchorEndIndex ToolTurn.orphan = ToolTurn.orphan.length)
  · rintro message ⟨⟩
    rfl
  · exact isChain_cons_cons.mpr ⟨unasked _, List.IsChain.singleton _⟩
  · rintro _ ⟨⟩ ⟨_, uses⟩
    exact uses rfl
  · have stopped : providerSafeSegments ToolTurn.foreign = [] := by decide
    exact (by decide : ¬ providerAnchorEndIndex ToolTurn.foreign = ToolTurn.foreign.length)

section

theorem take_middle_drop {Item : Type} (items : List Item) (ordered : start ≤ stop) :
    items.take start ++ (items.take stop).drop start ++ items.drop stop = items := by
  have front : items.take start = (items.take stop).take start := by
    rw [take_take, Nat.min_eq_left ordered]
  rw [front, take_append_drop, take_append_drop]

theorem drop_starts_later {messages : List (SessionTurnMessage Replay)}
    {first segment : MessageRange} (found : (providerSafeSegments messages)[index]? = some first)
    (member : segment ∈ (providerSafeSegments messages).drop index) :
    first.start ≤ segment.start := by
  obtain ⟨stop, _, tiles⟩ := providerSafeSegments_tiles messages
  rw [← take_append_drop index (providerSafeSegments messages)] at tiles
  obtain ⟨middle, _, rest⟩ := tiles.split
  have shape : (providerSafeSegments messages).drop index =
      first :: (providerSafeSegments messages).drop (index + 1) :=
    List.drop_eq_getElem?_toList_append.trans (by rw [found]; rfl)
  have bounds := rest.bounds member
  rw [shape] at rest
  have starts := rest.1
  omega

theorem drop_suffix_drop {Item : Type} (items : List Item) (ordered : start ≤ later) :
    items.drop later <:+ items.drop start := by
  have shift : later = start + (later - start) := by omega
  rw [shift, ← drop_drop]
  exact drop_suffix _ _

variable {messages : List (SessionTurnMessage Replay)}

/-- What a plan keeps of the messages of a subagent. -/
structure Conserves (budget : ProviderProjectionBudget)
    (messages : List (SessionTurnMessage Replay)) (protectedTailSegments : Nat)
    (plan : CompactionPlan Replay) : Prop where
  parts : plan.prefixMessages ++
    (messages.take plan.compactEndIndex).drop plan.compactStartIndex ++
      messages.drop plan.compactEndIndex = messages
  tailLength : plan.tail.length = (messages.drop plan.compactEndIndex).length
  tail : ∀ offset message, messages[plan.compactEndIndex + offset]? = some message →
    plan.tail[offset]? = some message ∨
      (∀ segment ∈ (providerSafeSegments messages).drop
          ((providerSafeSegments messages).length - protectedTailSegments),
        plan.compactEndIndex + offset < segment.start) ∧
      plan.tail[offset]? =
        some (projectTurnMessageToolResults message budget.toolResultRawMaxChars)
  nonempty : plan.compactStartIndex < plan.compactEndIndex
  protects : ∀ segment ∈ (providerSafeSegments messages).drop
      ((providerSafeSegments messages).length - protectedTailSegments),
    plan.compactEndIndex ≤ segment.start ∧ ∀ summary fileEditAuthorityEnabled,
      messages.drop segment.start <:+ plan.projectedMessages summary fileEditAuthorityEnabled

theorem buildPlan_conserves
    (planned : buildPlan tokens budget messages protectedTailSegments = some plan) :
    Conserves budget messages protectedTailSegments plan := by
  obtain ⟨ranges, selected, starts, ends, ahead, isPrefix, isTail⟩ := buildPlan_ranges planned
  obtain ⟨fixedTailStart, fixed⟩ := select_fixedTail selected
  have bounds := fixed.tail_le
  have same : plan.compactEndIndex = ranges.tailStartIndex := ends.trans fixed.compactEnd
  refine ⟨?_, ?_, ?_, ahead, ?_⟩
  · rw [isPrefix, ← starts]
    exact take_middle_drop messages (Nat.le_of_lt ahead)
  · rw [isTail, same]
    exact length_mapIdx
  · intro offset message found
    rw [isTail, projectTailFrom_getElem?, ← same, found, Option.map_some]
    split_ifs with guarded
    · exact Or.inl rfl
    · refine Or.inr ⟨?_, rfl⟩
      intro segment member
      by_cases some : 0 < protectedTailSegments
      · obtain ⟨isStart, first, atFirst, start⟩ := fixed.guarded some
        have later := drop_starts_later atFirst member
        rw [isStart, Option.any_some, decide_eq_true_eq] at guarded
        omega
      · have none : (providerSafeSegments messages).length - protectedTailSegments =
            (providerSafeSegments messages).length := by omega
        rw [none, drop_length] at member
        cases member
  · intro segment member
    by_cases some : 0 < protectedTailSegments
    · obtain ⟨isStart, first, atFirst, start⟩ := fixed.guarded some
      have later := drop_starts_later atFirst member
      refine ⟨by omega, ?_⟩
      intro summary fileEditAuthorityEnabled
      have kept := projectTailFrom_drop messages budget.toolResultRawMaxChars bounds.1
      have inTail : messages.drop segment.start <:+ plan.tail := by
        rw [isTail, isStart]
        refine (drop_suffix_drop messages (by omega : fixedTailStart ≤ segment.start)).trans ?_
        rw [← kept]
        exact drop_suffix _ _
      exact inTail.trans (suffix_append _ _)
    · have none : (providerSafeSegments messages).length - protectedTailSegments =
          (providerSafeSegments messages).length := by omega
      rw [none, drop_length] at member
      cases member

theorem trailing_context_mem
    (covered : trailingModelContextSegments messages segments ≤ protectedTail)
    {segment : MessageRange}
    (member : segment ∈ segments.reverse.takeWhile (isContextSegment messages)) :
    segment ∈ segments.drop (segments.length - protectedTail) := by
  unfold trailingModelContextSegments at covered
  have taken := prefix_iff_eq_take.mp (List.takeWhile_prefix (l := segments.reverse)
    (isContextSegment messages))
  rw [taken, take_reverse, mem_reverse] at member
  exact (drop_suffix_drop segments (by omega)).subset member

theorem marker_segment {count protectedTail : Nat}
    (marked : contextRecoveryProtectedTailFromMarker same messages segments marker = some count)
    (covered : count ≤ protectedTail) :
    ∃ segment ∈ segments.drop (segments.length - protectedTail), ∃ message,
      messages[segment.start]? = some message ∧ same message marker = true := by
  obtain ⟨index, found, rfl⟩ := Option.map_eq_some_iff.mp marked
  obtain ⟨bound, holds, _⟩ := List.findIdx?_eq_some_iff_getElem.mp found
  refine ⟨segments[index], ?_, ?_⟩
  · have shifted : (segments.drop (segments.length - protectedTail))[
        index - (segments.length - protectedTail)]? = some segments[index] := by
      rw [List.getElem?_drop, Nat.add_sub_cancel' (by omega), List.getElem?_eq_getElem bound]
    exact mem_of_getElem? shifted
  · cases inPlace : messages[segments[index].start]? with
    | none =>
      rw [inPlace] at holds
      cases holds
    | some message =>
      rw [inPlace] at holds
      exact ⟨message, rfl, holds⟩

theorem projectActiveSuffix_keeps
    (guarded : (projectActiveSuffix renderWorkset activeSuffix compactedUntilSegment
      toolResultRawMaxChars activeTurnSummary protectedTailSegments
      fileEditAuthorityEnabled).protectedTailStartIndex = some index) :
    ∃ segment, (providerSafeSegments activeSuffix)[(providerSafeSegments activeSuffix).length -
        protectedTailSegments]? = some segment ∧
      (projectActiveSuffix renderWorkset activeSuffix compactedUntilSegment toolResultRawMaxChars
        activeTurnSummary protectedTailSegments fileEditAuthorityEnabled).messages.drop index =
          activeSuffix.drop segment.start := by
  have nonempty : activeSuffix ≠ [] := by
    rintro rfl
    cases guarded
  obtain ⟨skip, note, protectedStart, parts⟩ := projectActiveSuffix_parts nonempty
  rw [parts.index] at guarded
  obtain ⟨start, isStart, found⟩ := Option.bind_eq_some_iff.mp guarded
  rw [Option.ite_none_left_eq_some] at found
  obtain ⟨behind, found⟩ := found
  cases found
  obtain ⟨segment, atSegment, same⟩ := parts.guarded start isStart
  refine ⟨segment, atSegment, ?_⟩
  have front : (activeSuffix.take (providerAnchorEndIndex activeSuffix) ++ note).length =
      providerAnchorEndIndex activeSuffix + note.length := by
    rw [length_append, length_take, Nat.min_eq_left (providerAnchorEndIndex_le _)]
  rw [parts.messages, ← front, drop_length_add_append, isStart, ← same]
  exact projectTailFrom_drop activeSuffix toolResultRawMaxChars (Nat.le_of_not_lt behind)

end

/-- Whatever the messages, the budget and the number of protected segments: a plan splits the
messages into its prefix, a non-empty summarised range that ends before the protected segments, and
its tail, which only lacks large results before them; everything from a protected segment on is sent
as it was, so from trailing model contexts and a recovery marker that are protected.  The projection
of a session keeps the messages from its protected index on. -/
theorem compaction_conserves_and_protects (messages : List (SessionTurnMessage Replay))
    (protectedTailSegments : Nat) :
    (∀ tokens budget plan, buildPlan tokens budget messages protectedTailSegments = some plan →
      Conserves budget messages protectedTailSegments plan ∧
      (trailingModelContextSegments messages (providerSafeSegments messages) ≤
          protectedTailSegments →
        ∀ segment ∈ (providerSafeSegments messages).reverse.takeWhile (isContextSegment messages),
          ∀ summary fileEditAuthorityEnabled, messages.drop segment.start <:+
            plan.projectedMessages summary fileEditAuthorityEnabled) ∧
      ∀ same marker count, contextRecoveryProtectedTailFromMarker same messages
          (providerSafeSegments messages) marker = some count → count ≤ protectedTailSegments →
        ∃ start message, messages[start]? = some message ∧ same message marker = true ∧
          ∀ summary fileEditAuthorityEnabled, messages.drop start <:+
            plan.projectedMessages summary fileEditAuthorityEnabled) ∧
      ∀ renderWorkset compactedUntilSegment toolResultRawMaxChars activeTurnSummary
        fileEditAuthorityEnabled index,
        (projectActiveSuffix renderWorkset messages compactedUntilSegment toolResultRawMaxChars
          activeTurnSummary protectedTailSegments
          fileEditAuthorityEnabled).protectedTailStartIndex = some index →
        ∃ segment, (providerSafeSegments messages)[(providerSafeSegments messages).length -
            protectedTailSegments]? = some segment ∧
          (projectActiveSuffix renderWorkset messages compactedUntilSegment toolResultRawMaxChars
            activeTurnSummary protectedTailSegments
            fileEditAuthorityEnabled).messages.drop index = messages.drop segment.start := by
  constructor
  · intro tokens budget plan planned
    have conserved := buildPlan_conserves planned
    refine ⟨conserved, ?_, ?_⟩
    · intro covered segment member
      exact (conserved.protects segment (trailing_context_mem covered member)).2
    · intro same marker count marked covered
      obtain ⟨segment, member, message, found, isMarker⟩ := marker_segment marked covered
      exact ⟨segment.start, message, found, isMarker, (conserved.protects segment member).2⟩
  · intro renderWorkset compactedUntilSegment toolResultRawMaxChars activeTurnSummary
      fileEditAuthorityEnabled index guarded
    exact projectActiveSuffix_keeps guarded

end AgentClaimNetwork
