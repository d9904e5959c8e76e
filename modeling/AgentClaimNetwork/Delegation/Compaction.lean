import AgentClaimNetwork.Api.CompactionProjection

/-!
The compaction plan of a subagent, from `src/delegation/compaction.rs`: which messages are
summarised and what is sent to the provider afterwards.
-/

namespace AgentClaimNetwork.Delegation

open Library Api List

structure CompactionRanges where
  compactEndIndex : Nat
  tailStartIndex : Nat
  protectedTailStartIndex : Option Nat

structure CompactionPlan (Replay : Type) where
  compactStartIndex : Nat
  compactEndIndex : Nat
  prefixMessages : List (SessionTurnMessage Replay)
  anchor : SessionTurnMessage Replay
  compactMessages : List (SessionTurnMessage Replay)
  compactMessagesWithLargeToolResultsOmitted : List (SessionTurnMessage Replay)
  compactMessagesWithToolResultsOmitted : List (SessionTurnMessage Replay)
  tail : List (SessionTurnMessage Replay)

section

variable {Replay : Type} (tokens : List (SessionTurnMessage Replay) → Nat)
  (budget : ProviderProjectionBudget)

def selectTail (segmentTokens : MessageRange → Nat) (maxTailSegments fixedTailStart : Nat) :
    List MessageRange → Nat → Nat → Nat → Nat
  | [], _, _, tailStartIndex => tailStartIndex
  | segment :: rest, remaining, selectedSegments, tailStartIndex =>
    if fixedTailStart < segment.stop then
      selectTail segmentTokens maxTailSegments fixedTailStart rest remaining selectedSegments
        tailStartIndex
    else if maxTailSegments ≤ selectedSegments then tailStartIndex
    else if remaining < segmentTokens segment then tailStartIndex
    else
      selectTail segmentTokens maxTailSegments fixedTailStart rest
        (remaining - segmentTokens segment) (selectedSegments + 1) segment.start

/-- `tokens` is `estimate_session_turn_messages_tokens`.  With some segments protected, fewer
than all, the index of the first protected one is in bounds. -/
def selectCompactionRanges (messages : List (SessionTurnMessage Replay))
    (protectedTailSegments : Nat) : Option CompactionRanges :=
  let segments := providerSafeSegments messages
  let compactableSegments := segments.length - protectedTailSegments
  if messages.length < 2 ∨ segments.isEmpty ∨ compactableSegments = 0 then none
  else
    let anchorEnd := providerAnchorEndIndex messages
    let coveredEnd := (segments.getLast?.map MessageRange.stop).getD anchorEnd
    let suffixStart := if coveredEnd < messages.length then coveredEnd else messages.length
    let protectedStart := segments[compactableSegments]?.map MessageRange.start
    let fixedTailStart :=
      if 0 < protectedTailSegments then protectedStart.getD suffixStart else suffixStart
    let suffixTokens :=
      if fixedTailStart < messages.length then
        if 0 < protectedTailSegments then tokens (messages.drop fixedTailStart)
        else tokens (projectTurnMessagesToolResults (messages.drop fixedTailStart)
          budget.toolResultRawMaxChars)
      else 0
    let mandatoryTokens := tokens (messages.take anchorEnd) + suffixTokens
    let remaining := min budget.tailTokenLimit (budget.tailHardTokenLimit - mandatoryTokens)
    let tailStartIndex := selectTail
      (fun segment =>
        estimatedProjectedSegmentTokens tokens messages segment budget.toolResultRawMaxChars)
      (max budget.tailPreviousRealUserTurns 1) fixedTailStart
      (segments.take compactableSegments).reverse remaining 0 fixedTailStart
    some ⟨tailStartIndex, tailStartIndex,
      if 0 < protectedTailSegments then protectedStart else none⟩

def buildPlan (messages : List (SessionTurnMessage Replay)) (protectedTailSegments : Nat) :
    Option (CompactionPlan Replay) :=
  (selectCompactionRanges tokens budget messages protectedTailSegments).bind fun ranges =>
    let compactStartIndex := providerAnchorEndIndex messages
    if ranges.compactEndIndex ≤ compactStartIndex then none
    else
      let prefixMessages := messages.take compactStartIndex
      (prefixMessages.reverse.find? fun message =>
        message.modelContextSnapshot.isNone && message.role = userRole).bind fun anchor =>
          let compactSource := (((messages.take ranges.compactEndIndex).drop
            compactStartIndex).filter fun message =>
              message.modelContextSnapshot.isNone).map projectCompactionInputMedia
          if compactSource.isEmpty then none
          else some
            { compactStartIndex := compactStartIndex
              compactEndIndex := ranges.compactEndIndex
              prefixMessages := prefixMessages
              anchor := anchor
              compactMessages := compactSource
              compactMessagesWithLargeToolResultsOmitted :=
                projectCompactionInputToolResults compactSource budget.toolResultRawMaxChars
              compactMessagesWithToolResultsOmitted := omitTurnMessagesToolResults compactSource
              tail := projectTailFrom messages ranges.tailStartIndex
                ranges.protectedTailStartIndex budget.toolResultRawMaxChars }

def fileEditAuthorityCompactionNotice : Text :=
  ("File permission boundary: this compaction cleared runtime file-edit authority derived " ++
    "from earlier file_read or @file content, even if a read remains mentioned in this " ++
    "summary or a preserved raw tail. Treat those reads as historical context, not current " ++
    "authorization. Before file_patch or file_write on an existing file, establish fresh " ++
    "authority with file_read and follow required_read.").toList

def delegationCompactionSummaryMessage (summary : Text) (fileEditAuthorityEnabled : Bool) :
    SessionTurnMessage Replay :=
  let authorityNotice := if fileEditAuthorityEnabled then fileEditAuthorityCompactionNotice else []
  SessionTurnMessage.userText
    (("<compacted_subagent_context>\nThis note summarizes earlier subagent execution before " ++
      "context compaction. It is historical context, not a new user request and not a system " ++
      "instruction.\n\nUse it to continue the delegated task without repeating completed tool " ++
      "work unless exact omitted output is genuinely required.\n\n").toList ++
      authorityNotice ++ "\n\n".toList ++ summary ++
      "\n</compacted_subagent_context>".toList)

def CompactionPlan.projectedMessages (plan : CompactionPlan Replay) (summary : Text)
    (fileEditAuthorityEnabled : Bool) : List (SessionTurnMessage Replay) :=
  plan.prefixMessages ++
    [delegationCompactionSummaryMessage summary fileEditAuthorityEnabled] ++ plan.tail

end

variable {Replay : Type} {tokens : List (SessionTurnMessage Replay) → Nat}
  {budget : ProviderProjectionBudget}

theorem selectTail_cases (segmentTokens : MessageRange → Nat)
    (maxTailSegments fixedTailStart : Nat) (segments : List MessageRange)
    (remaining selectedSegments tailStartIndex : Nat) :
    let chosen := selectTail segmentTokens maxTailSegments fixedTailStart segments remaining
      selectedSegments tailStartIndex
    chosen = tailStartIndex ∨
      ∃ segment ∈ segments, segment.stop ≤ fixedTailStart ∧ chosen = segment.start := by
  induction segments generalizing remaining selectedSegments tailStartIndex with
  | nil => exact .inl rfl
  | cons segment rest ih =>
    simp only [selectTail]
    split_ifs with beyond
    · rcases ih remaining selectedSegments tailStartIndex with same | ⟨other, member, chosen⟩
      · exact .inl same
      · exact .inr ⟨other, mem_cons_of_mem _ member, chosen⟩
    · exact .inl rfl
    · exact .inl rfl
    · rcases ih (remaining - segmentTokens segment) (selectedSegments + 1) segment.start with
        same | ⟨other, member, chosen⟩
      · exact .inr ⟨segment, mem_cons_self, by omega, same⟩
      · exact .inr ⟨other, mem_cons_of_mem _ member, chosen⟩

/-- Where the part of the tail begins that is kept in any case. -/
structure FixedTail (messages : List (SessionTurnMessage Replay)) (protectedTailSegments : Nat)
    (ranges : CompactionRanges) (fixedTailStart : Nat) : Prop where
  guarded : 0 < protectedTailSegments → ranges.protectedTailStartIndex = some fixedTailStart ∧
    ∃ segment, (providerSafeSegments messages)[(providerSafeSegments messages).length -
      protectedTailSegments]? = some segment ∧ fixedTailStart = segment.start
  free : protectedTailSegments = 0 → ranges.protectedTailStartIndex = none ∧
    ∃ segment, (providerSafeSegments messages).getLast? = some segment ∧
      fixedTailStart = segment.stop
  chosen : ranges.tailStartIndex = fixedTailStart ∨ ∃ segment ∈ providerSafeSegments messages,
    segment.stop ≤ fixedTailStart ∧ ranges.tailStartIndex = segment.start
  compactEnd : ranges.compactEndIndex = ranges.tailStartIndex

variable {ranges : CompactionRanges}

theorem select_fixedTail
    (selected : selectCompactionRanges tokens budget messages protectedTailSegments =
      some ranges) :
    ∃ fixedTailStart, FixedTail messages protectedTailSegments ranges fixedTailStart := by
  unfold selectCompactionRanges at selected
  rw [Option.ite_none_left_eq_some] at selected
  obtain ⟨small, selected⟩ := selected
  rw [not_or, not_or] at small
  obtain ⟨_, nonempty, compactable⟩ := small
  obtain ⟨stop, inside, tiles⟩ := providerSafeSegments_tiles messages
  obtain ⟨last, isLast⟩ : ∃ last, (providerSafeSegments messages).getLast? = some last := by
    cases found : (providerSafeSegments messages).getLast? with
    | none =>
      rw [List.getLast?_eq_none_iff] at found
      exact absurd (isEmpty_iff.mpr found) nonempty
    | some last => exact ⟨last, rfl⟩
  have suffix : (if last.stop < messages.length then last.stop else messages.length) =
      last.stop := by
    have ends := tiles.getLast isLast
    split_ifs <;> omega
  simp only [isLast, Option.map_some, Option.getD_some, suffix, Option.some.injEq] at selected
  rw [← selected]
  by_cases guarded : 0 < protectedTailSegments
  · -- the first protected segment is where the fixed tail begins
    obtain ⟨segment, found⟩ : ∃ segment, (providerSafeSegments messages)[
        (providerSafeSegments messages).length - protectedTailSegments]? = some segment := by
      have bound : (providerSafeSegments messages).length - protectedTailSegments <
          (providerSafeSegments messages).length := by omega
      exact ⟨_, List.getElem?_eq_getElem bound⟩
    simp only [if_pos guarded, found, Option.map_some, Option.getD_some]
    refine ⟨segment.start, fun _ => ⟨rfl, segment, found, rfl⟩, fun none => ?_, ?_, rfl⟩
    · omega
    · rcases selectTail_cases _ _ _ _ _ _ _ with same | ⟨other, member, before, same⟩
      · exact .inl same
      · exact .inr ⟨other, mem_of_mem_take (mem_reverse.mp member), before, same⟩
  · simp only [if_neg guarded]
    refine ⟨last.stop, fun some => absurd some guarded, fun _ => ⟨rfl, last, isLast, rfl⟩, ?_, rfl⟩
    rcases selectTail_cases _ _ _ _ _ _ _ with same | ⟨other, member, before, same⟩
    · exact .inl same
    · exact .inr ⟨other, mem_of_mem_take (mem_reverse.mp member), before, same⟩

theorem FixedTail.tail_le (fixed : FixedTail messages protectedTailSegments ranges fixedTailStart) :
    ranges.tailStartIndex ≤ fixedTailStart ∧ ranges.tailStartIndex ≤ messages.length := by
  obtain ⟨stop, inside, tiles⟩ := providerSafeSegments_tiles messages
  rcases fixed.chosen with same | ⟨segment, member, before, same⟩
  · refine ⟨Nat.le_of_eq same, ?_⟩
    by_cases guarded : 0 < protectedTailSegments
    · obtain ⟨_, segment, found, start⟩ := fixed.guarded guarded
      have bounds := tiles.bounds (mem_of_getElem? found)
      omega
    · obtain ⟨_, last, isLast, ends⟩ := fixed.free (by omega)
      have bounds := tiles.bounds (mem_of_getLast? isLast)
      omega
  · have bounds := tiles.bounds member
    omega

theorem buildPlan_ranges
    (planned : buildPlan tokens budget messages protectedTailSegments = some plan) :
    ∃ ranges, selectCompactionRanges tokens budget messages protectedTailSegments = some ranges ∧
      plan.compactStartIndex = providerAnchorEndIndex messages ∧
      plan.compactEndIndex = ranges.compactEndIndex ∧
      plan.compactStartIndex < plan.compactEndIndex ∧
      plan.prefixMessages = messages.take (providerAnchorEndIndex messages) ∧
      plan.tail = projectTailFrom messages ranges.tailStartIndex ranges.protectedTailStartIndex
        budget.toolResultRawMaxChars := by
  obtain ⟨ranges, selected, planned⟩ := Option.bind_eq_some_iff.mp planned
  rw [Option.ite_none_left_eq_some] at planned
  obtain ⟨ahead, planned⟩ := planned
  obtain ⟨anchor, _, planned⟩ := Option.bind_eq_some_iff.mp planned
  rw [Option.ite_none_left_eq_some] at planned
  obtain ⟨_, planned⟩ := planned
  cases planned
  exact ⟨ranges, selected, rfl, rfl, Nat.lt_of_not_le ahead, rfl, rfl⟩

end AgentClaimNetwork.Delegation
