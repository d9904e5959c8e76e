import AgentClaimNetwork.Api.Message
import AgentClaimNetwork.Library.Saturating

/-!
The rough token counts of `src/api/token_estimate.rs`, and the replays that providers want back
with their own messages, from `src/api/types.rs` and `src/api/provider.rs`.
-/

namespace AgentClaimNetwork.Api

open Library

inductive ProviderReplayProtocol
  | openAiResponses
  | openAiChatCompletions
  | anthropicMessages
deriving DecidableEq

structure ProviderReplayIdentity where
  protocol : ProviderReplayProtocol
  model : Text

inductive ProviderReplayState
  /-- Old records have no model. -/
  | openAiResponses (model : Option Text) (items : List Json)
  | openAiChatCompletions (model : Text) (messages : List Json)
  | anthropicMessages (model : Text) (messages : List Json)

def ProviderReplayState.matchesIdentity (replay : ProviderReplayState)
    (identity : ProviderReplayIdentity) : Bool :=
  match replay with
  | .openAiResponses (some model) _ =>
    identity.protocol = .openAiResponses && model = identity.model
  | .openAiChatCompletions model _ =>
    identity.protocol = .openAiChatCompletions && model = identity.model
  | .anthropicMessages model _ =>
    identity.protocol = .anthropicMessages && model = identity.model
  | .openAiResponses none _ => false

def escapeXmlMetadata (value : Text) : Text :=
  replaceChar '\'' "&apos;".toList (replaceChar '"' "&quot;".toList (replaceChar '>' "&gt;".toList
    (replaceChar '<' "&lt;".toList (replaceChar '&' "&amp;".toList value))))

def renderSkillInstructions (instructions : SkillInstructions) : Text :=
  "<acn_skill scope=\"current_user_turn\" name=\"".toList ++
    escapeXmlMetadata instructions.name ++ "\" spec_path=\"".toList ++
    escapeXmlMetadata instructions.specPath ++ "\" base_dir=\"".toList ++
    escapeXmlMetadata instructions.baseDir ++ "\" arguments=\"".toList ++
    escapeXmlMetadata (instructions.arguments.getD []) ++ "\" content_sha256=\"".toList ++
    instructions.contentHash ++ "\">\n".toList ++ instructions.content ++
    "\n</acn_skill>".toList

def approxCharsPerToken : Nat := 4

def approxMediaBlockTokens : Nat := 2000

def estimateTextTokens (text : Text) : Nat :=
  (text.length + approxCharsPerToken - 1) / approxCharsPerToken

def estimateJsonTokens (value : Json) : Nat := estimateTextTokens value.render

def estimateProviderReplayTokens (replay : ProviderReplayState) : Nat :=
  match replay with
  | .openAiResponses _ items => Saturating.sum (items.map estimateJsonTokens)
  | .openAiChatCompletions _ messages | .anthropicMessages _ messages =>
    Saturating.sum (messages.map estimateJsonTokens)

def estimateSessionTurnContentBlockTokens : SessionTurnContentBlock → Nat
  | .text text | .modelContext _ _ text => estimateTextTokens text
  | .skillInstructions instruction => estimateTextTokens (renderSkillInstructions instruction)
  | .image .. | .document .. => approxMediaBlockTokens
  | .toolUse _ name input =>
    Saturating.add (estimateTextTokens name) (estimateJsonTokens input)
  | .invalidToolUse _ name error =>
    Saturating.add (estimateTextTokens name) (estimateTextTokens error)
  | .toolResult _ content => estimateTextTokens content

def estimateSessionTurnMessageTokens (message : SessionTurnMessage ProviderReplayState) : Nat :=
  let canonicalTokens :=
    Saturating.sum (message.content.map estimateSessionTurnContentBlockTokens)
  let replayTokens := (message.providerReplay.map estimateProviderReplayTokens).getD 0
  Saturating.add (estimateTextTokens message.role) (max canonicalTokens replayTokens)

def estimateSessionTurnMessagesTokens
    (messages : List (SessionTurnMessage ProviderReplayState)) : Nat :=
  Saturating.sum (messages.map estimateSessionTurnMessageTokens)

end AgentClaimNetwork.Api
