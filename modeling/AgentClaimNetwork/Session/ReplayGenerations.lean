import AgentClaimNetwork.Api.CompactionProjection
import AgentClaimNetwork.Api.TokenEstimate
import AgentClaimNetwork.Session.Transcript

/-!
The provider view of a transcript, from `src/agent/session_engine/transcript.rs`, and its second
token counter, from `src/agent/session_engine/compaction_projection.rs`.
-/

namespace AgentClaimNetwork.Session

open Library List
open Api (ProviderReplayIdentity ProviderReplayState SessionTurnMessage SessionTurnContentBlock
  estimateTextTokens estimateJsonTokens renderSkillInstructions estimateProviderReplayTokens)

variable {Stamp : Type}

abbrev StoredMessage (Stamp : Type) := SessionMessage Stamp ProviderReplayState

def SessionMessageRole.toText : SessionMessageRole → Text
  | .user => Api.userRole
  | .assistant => Api.assistantRole

def assistantStartsNewReplayGeneration (message : StoredMessage Stamp)
    (identity : ProviderReplayIdentity) : Bool :=
  if message.role ≠ .assistant then false
  else match message.providerReplay with
    | some replay => !replay.matchesIdentity identity
    | none => identity.protocol ≠ .openAiChatCompletions || message.model ≠ identity.model

section

variable (messages : List (StoredMessage Stamp))

def providerReplayGenerationStart (identity : Option ProviderReplayIdentity) : Nat :=
  match identity with
  | none => messages.length
  | some identity =>
    (messages.zipIdx.reverse.findSome? fun entry =>
      if assistantStartsNewReplayGeneration entry.1 identity then some (entry.2 + 1)
      else none).getD 0

def providerReplayGenerationStartRefs (identity : Option ProviderReplayIdentity) : Nat :=
  match identity with
  | none => messages.length
  | some identity =>
    (messages.zipIdx.reverse.findSome? fun entry =>
      if assistantStartsNewReplayGeneration entry.1 identity then some (entry.2 + 1)
      else none).getD 0

inductive ProviderHistoryMediaPolicy
  | placeholder
  | preserve

def attachmentPlaceholder (kind : String) (mediaType : Text) (filename : Option Text)
    (data : Text) : Text :=
  ("[" ++ kind ++ " attachment media_type=").toList ++ mediaType ++
    (match filename with
      | some filename => " filename=".toList ++ filename
      | none => []) ++
    (" base64_bytes=" ++ toString (ByteSlice.byteLen data) ++ "]").toList

def sessionBlockToTurnWithPolicy (policy : ProviderHistoryMediaPolicy) :
    SessionContentBlock → SessionTurnContentBlock
  | .text text => .text text
  | .modelContext source fingerprint text => .modelContext source fingerprint text
  | .skillInstructions instruction => .skillInstructions instruction
  | .image mediaType data => match policy with
      | .placeholder => .text (attachmentPlaceholder "image" mediaType none data)
      | .preserve => .image mediaType data
  | .document mediaType data filename => match policy with
      | .placeholder => .text (attachmentPlaceholder "document" mediaType filename data)
      | .preserve => .document mediaType data filename
  | .toolUse id name input => .toolUse id name input
  | .invalidToolUse id name error => .invalidToolUse id name error
  | .toolResult toolUseId content => .toolResult toolUseId content

def replayForIdentity (replay : Option ProviderReplayState)
    (identity : Option ProviderReplayIdentity) : Option ProviderReplayState :=
  replay.filter fun replay => identity.any replay.matchesIdentity

def sessionMessageToTurnMessageWithPolicy (message : StoredMessage Stamp)
    (policy : ProviderHistoryMediaPolicy) (identity : Option ProviderReplayIdentity) :
    SessionTurnMessage ProviderReplayState where
  role := message.role.toText
  content := message.content.map (sessionBlockToTurnWithPolicy policy)
  providerReplay := replayForIdentity message.providerReplay identity

def sessionMessagesToProviderTurnMessages
    (policy : ProviderHistoryMediaPolicy) (identity : Option ProviderReplayIdentity) :
    List (SessionTurnMessage ProviderReplayState) :=
  let replayStart := providerReplayGenerationStart messages identity
  messages.zipIdx.map fun entry =>
    sessionMessageToTurnMessageWithPolicy entry.1 policy
      (if replayStart ≤ entry.2 then identity else none)

def mediaBlockEstimatedTokens : Nat := 2000

/-- `canonical_tokens` after one more block. -/
def addBlockTokens (toolResultRawMaxChars : Option Nat) (canonicalTokens : Nat) :
    SessionContentBlock → Nat
  | .text text | .modelContext _ _ text =>
    Saturating.add canonicalTokens (estimateTextTokens text)
  | .skillInstructions instruction =>
    Saturating.add canonicalTokens (estimateTextTokens (renderSkillInstructions instruction))
  | .image .. | .document .. => Saturating.add canonicalTokens mediaBlockEstimatedTokens
  | .toolUse _ name input =>
    Saturating.add (Saturating.add canonicalTokens (estimateTextTokens name))
      (estimateJsonTokens input)
  | .invalidToolUse _ name error =>
    Saturating.add (Saturating.add canonicalTokens (estimateTextTokens name))
      (estimateTextTokens error)
  | .toolResult _ content =>
    if toolResultRawMaxChars.any (· < content.length) then
      Saturating.add canonicalTokens
        (estimateTextTokens (Api.largeToolResultOmissionText content.length))
    else Saturating.add canonicalTokens (estimateTextTokens content)

def estimatedSessionMessageTokensProjected
    (toolResultRawMaxChars : Option Nat) (replayIdentity : Option ProviderReplayIdentity) : Nat :=
  let replayStart := providerReplayGenerationStartRefs messages replayIdentity
  messages.zipIdx.foldl (fun totalTokens entry =>
    let canonicalTokens := entry.1.content.foldl (addBlockTokens toolResultRawMaxChars) 0
    let replayTokens := ((entry.1.providerReplay.filter fun replay =>
      decide (replayStart ≤ entry.2) && replayIdentity.any replay.matchesIdentity).map
        estimateProviderReplayTokens).getD 0
    Saturating.add (Saturating.add totalTokens (estimateTextTokens entry.1.role.toText))
      (max canonicalTokens replayTokens)) 0

end

section

variable {Item : Type} {starts : Item → Bool}

def lastStart (starts : Item → Bool) (items : List Item) : Nat :=
  (items.zipIdx.reverse.findSome? fun entry =>
    if starts entry.1 then some (entry.2 + 1) else none).getD 0

theorem lastStart_append (items : List Item) (item : Item) : lastStart starts (items ++ [item]) =
      if starts item then items.length + 1 else lastStart starts items := by
  unfold lastStart
  rw [zipIdx_append, reverse_append]
  by_cases anew : starts item
  · simp [anew]
  · simp [anew]

theorem lastStart_le_iff : lastStart starts items ≤ index ↔
      ∀ later item, index ≤ later → items[later]? = some item → starts item = false := by
  induction items using reverseRecOn with
  | nil => simp [lastStart]
  | append_singleton items item ih =>
    rw [lastStart_append]
    by_cases anew : starts item
    · rw [if_pos anew]
      constructor
      · intro beyond later other behind found
        have bound := (List.getElem?_eq_some_iff.mp found).1
        simp only [length_append, length_singleton] at bound
        omega
      · intro none
        by_contra before
        have here : (items ++ [item])[items.length]? = some item := by simp
        have quiet := none items.length item (by omega) here
        rw [anew] at quiet
        nomatch quiet
    · rw [if_neg anew, ih]
      constructor
      · intro quiet later other behind found
        by_cases inside : later < items.length
        · rw [List.getElem?_append_left inside] at found
          exact quiet later other behind found
        · rw [List.getElem?_append_right (Nat.le_of_not_lt inside)] at found
          have same := mem_singleton.mp (mem_of_getElem? found)
          rw [same]
          exact Bool.eq_false_of_not_eq_true anew
      · intro quiet later other behind found
        have inside := (List.getElem?_eq_some_iff.mp found).1
        exact quiet later other behind (by rw [List.getElem?_append_left inside]; exact found)

end

theorem generationStart_eq (identity : ProviderReplayIdentity) :
    providerReplayGenerationStart messages (some identity) =
      lastStart (assistantStartsNewReplayGeneration · identity) messages := rfl

theorem generationStart_refs : providerReplayGenerationStartRefs messages identity =
      providerReplayGenerationStart messages identity := rfl

theorem replayForIdentity_eq_some : replayForIdentity stored identity = some state ↔
      stored = some state ∧ ∃ own, identity = some own ∧ state.matchesIdentity own = true := by
  rw [replayForIdentity, Option.filter_eq_some_iff]
  cases identity with
  | none => simp
  | some own => simp

theorem replay_attached_iff {index : Nat} (isMessage : messages[index]? = some message)
    {replay : ProviderReplayState} :
    ((sessionMessagesToProviderTurnMessages messages policy identity)[index]?.bind
        (·.providerReplay)) = some replay ↔
      message.providerReplay = some replay ∧ ∃ own, identity = some own ∧
        replay.matchesIdentity own = true ∧
        ∀ later other, index ≤ later → messages[later]? = some other →
          assistantStartsNewReplayGeneration other own = false := by
  have entry : messages.zipIdx[index]? = some (message, index) := by
    rw [List.getElem?_zipIdx, isMessage]
    simp
  unfold sessionMessagesToProviderTurnMessages
  rw [List.getElem?_map, entry]
  simp only [Option.map_some, Option.bind_some, sessionMessageToTurnMessageWithPolicy]
  rw [replayForIdentity_eq_some]
  refine and_congr_right fun _ => ?_
  cases identity with
  | none => simp
  | some own =>
    rw [generationStart_eq]
    split_ifs with attached
    · have quiet := lastStart_le_iff.mp attached
      simpa using fun _ => quiet
    · have loud := fun quiet => attached (lastStart_le_iff.mpr quiet)
      simpa using fun _ => loud

theorem addBlockTokens_eq :
    addBlockTokens (some limit) canonicalTokens block =
      Saturating.add canonicalTokens (Api.estimateSessionTurnContentBlockTokens
        (Api.projectBlockToolResultWith limit Api.largeToolResultOmissionText
          (sessionBlockToTurnWithPolicy .preserve block))) := by
  cases block with
  | toolUse id name input | invalidToolUse id name error => exact Saturating.add_assoc _ _ _
  | toolResult toolUseId content =>
    simp only [addBlockTokens, sessionBlockToTurnWithPolicy, Api.projectBlockToolResultWith,
      Option.any_some, decide_eq_true_eq]
    split_ifs with long
    · rfl
    · rfl
  | _ => rfl

theorem canonicalTokens_eq (content : List SessionContentBlock) :
    content.foldl (addBlockTokens (some limit)) 0 =
      Saturating.sum ((content.map (sessionBlockToTurnWithPolicy .preserve)).map
        (Api.projectBlockToolResultWith limit Api.largeToolResultOmissionText) |>.map
          Api.estimateSessionTurnContentBlockTokens) := by
  rw [Saturating.sum, map_map, map_map, foldl_map]
  congr 1
  funext canonicalTokens block
  exact addBlockTokens_eq

theorem estimated_projected_eq :
    estimatedSessionMessageTokensProjected messages (some limit) identity =
      Api.estimateSessionTurnMessagesTokens (Api.projectTurnMessagesToolResults
        (sessionMessagesToProviderTurnMessages messages .preserve identity) limit) := by
  unfold estimatedSessionMessageTokensProjected Api.estimateSessionTurnMessagesTokens
    Api.projectTurnMessagesToolResults sessionMessagesToProviderTurnMessages
  rw [Saturating.sum, map_map, map_map, foldl_map, generationStart_refs]
  dsimp only
  congr 1
  funext totalTokens entry
  rw [Saturating.add_assoc, canonicalTokens_eq]
  have sameReplay : (entry.1.providerReplay.filter fun replay =>
        decide (providerReplayGenerationStart messages identity ≤ entry.2) &&
          identity.any replay.matchesIdentity) =
      replayForIdentity entry.1.providerReplay
        (if providerReplayGenerationStart messages identity ≤ entry.2 then identity else none) := by
    unfold replayForIdentity
    split_ifs with attached
    all_goals simp [attached]
  rw [sameReplay]
  rfl

/-- A replay is attached exactly to the messages of the identity behind which no assistant message
of another generation stands, and the two token counters agree. -/
theorem replay_generation_and_budget_agree (messages : List (StoredMessage Stamp))
    (identity : Option ProviderReplayIdentity) :
    (∀ policy (index : Nat) (replay : ProviderReplayState),
      ((sessionMessagesToProviderTurnMessages messages policy identity)[index]?.bind
          (·.providerReplay)) = some replay ↔
        ∃ message, messages[index]? = some message ∧ message.providerReplay = some replay ∧
          ∃ own, identity = some own ∧ replay.matchesIdentity own = true ∧
            ∀ later other, index ≤ later → messages[later]? = some other →
              assistantStartsNewReplayGeneration other own = false) ∧
    (∀ limit, estimatedSessionMessageTokensProjected messages (some limit) identity =
      Api.estimateSessionTurnMessagesTokens (Api.projectTurnMessagesToolResults
        (sessionMessagesToProviderTurnMessages messages .preserve identity) limit)) := by
  refine ⟨fun policy index replay => ?_, fun limit => estimated_projected_eq⟩
  cases found : messages[index]? with
  | none =>
    have outside : (sessionMessagesToProviderTurnMessages messages policy identity)[index]? =
        none := by
      simpa [sessionMessagesToProviderTurnMessages] using found
    simp [outside]
  | some message =>
    rw [replay_attached_iff found]
    simp

end AgentClaimNetwork.Session
