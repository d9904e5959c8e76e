import AgentClaimNetwork.Library.TornLog
import AgentClaimNetwork.Delegation.Compaction

/-!
The projection of the running turn, from `src/agent/session_engine/compaction_projection.rs`.
-/

namespace AgentClaimNetwork.Session

open Library Api

structure ActiveSuffixProjection (Replay : Type) where
  messages : List (SessionTurnMessage Replay)
  protectedTailStartIndex : Option Nat

variable {Replay : Type}

/-- `fileWorkset` is the rendered list of the files that the summarised messages touched. -/
def activeTurnProgressMessage (summary : List Char) (fileEditAuthorityEnabled : Bool)
    (fileWorkset : List Char) : SessionTurnMessage Replay :=
  let authorityNotice :=
    if fileEditAuthorityEnabled then Delegation.fileEditAuthorityCompactionNotice else []
  SessionTurnMessage.userText
    (("<compacted_current_turn_progress>\nThis note summarizes work already completed earlier " ++
      "in the current user turn before context compaction. It is not a new user request.\n\n").toList ++
      authorityNotice ++ "\n\n".toList ++ summary ++ fileWorkset ++
      ("\n\nContinue the latest user request from this progress state. Do not repeat completed " ++
        "steps unless exact omitted output is required.\n</compacted_current_turn_progress>").toList)

def insertedSummary (compactedUntilSegment : Nat) (activeTurnSummary : Option (List Char)) :
    Option (List Char) :=
  if 0 < compactedUntilSegment then
    (activeTurnSummary.map TornLog.trim).filter fun summary => !summary.isEmpty
  else none

/-- `renderWorkset` collects and renders the file workset of the summarised messages. -/
def projectActiveSuffix (renderWorkset : List (SessionTurnMessage Replay) → List Char)
    (activeSuffix : List (SessionTurnMessage Replay)) (compactedUntilSegment : Nat)
    (toolResultRawMaxChars : Nat) (activeTurnSummary : Option (List Char))
    (protectedTailSegments : Nat) (fileEditAuthorityEnabled : Bool) :
    ActiveSuffixProjection Replay :=
  if activeSuffix.isEmpty then ⟨[], none⟩
  else
    let anchorEnd := providerAnchorEndIndex activeSuffix
    let segments := providerSafeSegments activeSuffix
    let compactedUntilSegment := min compactedUntilSegment segments.length
    let compactedMessages :=
      activeSegmentMessages activeSuffix (segments.take compactedUntilSegment)
    let protectedMessageStart :=
      if 0 < protectedTailSegments ∧ protectedTailSegments ≤ segments.length then
        segments[segments.length - protectedTailSegments]?.map MessageRange.start
      else none
    let skipMessagesUntil :=
      if compactedUntilSegment = 0 then anchorEnd
      else (segments[compactedUntilSegment - 1]?.map MessageRange.stop).getD anchorEnd
    let summary := insertedSummary compactedUntilSegment activeTurnSummary
    let note := summary.toList.map fun summary =>
      activeTurnProgressMessage summary fileEditAuthorityEnabled (renderWorkset compactedMessages)
    let rest := projectTailFrom activeSuffix skipMessagesUntil protectedMessageStart
      toolResultRawMaxChars
    { messages := activeSuffix.take anchorEnd ++ note ++ rest
      protectedTailStartIndex := protectedMessageStart.bind fun originalStart =>
        if originalStart < skipMessagesUntil then none
        else some (anchorEnd + (if summary.isSome then 1 else 0) +
          (originalStart - skipMessagesUntil)) }

/-- The parts of a projected suffix. -/
structure SuffixParts (activeSuffix : List (SessionTurnMessage Replay))
    (protectedTailSegments toolResultRawMaxChars : Nat)
    (projection : ActiveSuffixProjection Replay) (skip : Nat)
    (note : List (SessionTurnMessage Replay)) (protectedStart : Option Nat) : Prop where
  messages : projection.messages = activeSuffix.take (providerAnchorEndIndex activeSuffix) ++ note ++
    projectTailFrom activeSuffix skip protectedStart toolResultRawMaxChars
  skipped : skip = providerAnchorEndIndex activeSuffix ∨
    ∃ segment ∈ providerSafeSegments activeSuffix, skip = segment.stop
  noted : note = [] ∨ ∃ text, note = [SessionTurnMessage.userText text]
  guarded : ∀ start, protectedStart = some start → ∃ segment,
    (providerSafeSegments activeSuffix)[(providerSafeSegments activeSuffix).length -
      protectedTailSegments]? = some segment ∧ start = segment.start
  index : projection.protectedTailStartIndex = protectedStart.bind fun start =>
    if start < skip then none
    else some (providerAnchorEndIndex activeSuffix + note.length + (start - skip))

theorem projectActiveSuffix_parts (nonempty : activeSuffix ≠ []) :
    ∃ skip note protectedStart, SuffixParts activeSuffix protectedTailSegments
      toolResultRawMaxChars
      (projectActiveSuffix renderWorkset activeSuffix compactedUntilSegment toolResultRawMaxChars
        activeTurnSummary protectedTailSegments fileEditAuthorityEnabled) skip note
        protectedStart := by
  have present : ¬ activeSuffix.isEmpty = true := fun empty => nonempty (List.isEmpty_iff.mp empty)
  unfold projectActiveSuffix
  rw [if_neg present]
  refine ⟨_, _, _, rfl, ?_, ?_, ?_, ?_⟩
  · split_ifs with none
    · exact .inl rfl
    · right
      have bound : min compactedUntilSegment (providerSafeSegments activeSuffix).length - 1 <
          (providerSafeSegments activeSuffix).length := by omega
      rw [List.getElem?_eq_getElem bound]
      exact ⟨_, List.getElem_mem bound, rfl⟩
  · cases insertedSummary (min compactedUntilSegment (providerSafeSegments activeSuffix).length)
        activeTurnSummary with
    | none => exact .inl rfl
    | some summary => exact .inr ⟨_, rfl⟩
  · intro start found
    split_ifs at found
    exact Option.map_eq_some_iff.mp found |>.imp fun segment held => ⟨held.1, held.2.symm⟩
  · dsimp only
    cases insertedSummary (min compactedUntilSegment (providerSafeSegments activeSuffix).length)
        activeTurnSummary with
    | none => rfl
    | some summary => rfl

end AgentClaimNetwork.Session
