import AgentClaimNetwork.Session.Transcript

/-!
The text under which a message is searched, from `src/session_search/render.rs`.
-/

namespace AgentClaimNetwork.SessionSearch

open Library Session

abbrev ToolNames := List (Text × Text)

def toolName (names : ToolNames) (id : Text) : Option Text :=
  (names.find? fun entry => entry.1 = id).map Prod.snd

/-- The text `[label part part …]`. -/
def bracketed (label : String) (parts : List Text) : Text :=
  '[' :: ([' '].intercalate (label.toList :: parts) ++ [']'])

def base64Bytes (data : Text) : Text :=
  "base64_bytes=".toList ++ Nat.toDigits 10 (Utf8.encode data).length

def searchableTextForBlock (names : ToolNames) : SessionContentBlock → ToolNames × Text
  | .text text => (names, text)
  | .modelContext _ _ _ => (names, [])
  | .skillInstructions instruction =>
    (names, bracketed "explicit" ["skill".toList, '/' :: instruction.name])
  | .image mediaType data =>
    (names, bracketed "image" ["attachment".toList, "media_type=".toList ++ mediaType,
      base64Bytes data])
  | .document mediaType data filename =>
    (names, bracketed "document" (["attachment".toList, "media_type=".toList ++ mediaType] ++
      (filename.map fun name => "filename=".toList ++ name).toList ++ [base64Bytes data]))
  | .toolUse id name input => ((id, name) :: names, bracketed "tool_use" [name, input.render])
  | .invalidToolUse id name error =>
    ((id, name) :: names, bracketed "invalid_tool_use" [name, id] ++ ' ' :: error)
  | .toolResult toolUseId content =>
    (names, bracketed "tool_result" ((toolName names toolUseId).toList ++ [toolUseId]) ++
      ' ' :: content)

def searchableTextsForBlocks : ToolNames → List SessionContentBlock → ToolNames × List Text
  | names, [] => (names, [])
  | names, block :: rest =>
    let first := searchableTextForBlock names block
    let later := searchableTextsForBlocks first.1 rest
    (later.1, first.2 :: later.2)

def searchableTextForMessage (names : ToolNames) (content : List SessionContentBlock) :
    ToolNames × Text :=
  let texts := searchableTextsForBlocks names content
  (texts.1, ['\n'].intercalate (texts.2.filter fun text => !(TornLog.trim text).isEmpty))

variable {Stamp Replay : Type}

def searchableTexts : ToolNames → List (SessionMessage Stamp Replay) → List Text
  | _, [] => []
  | names, message :: rest =>
    let first := searchableTextForMessage names message.content
    first.2 :: searchableTexts first.1 rest

def searchableTextsForMessages (messages : List (SessionMessage Stamp Replay)) : List Text :=
  searchableTexts [] messages

variable {names : ToolNames} {messages more : List (SessionMessage Stamp Replay)}

theorem searchableTexts_length : (searchableTexts names messages).length = messages.length := by
  induction messages generalizing names with
  | nil => rfl
  | cons message rest ih => simp [searchableTexts, ih]

theorem searchableTexts_append : ∃ later,
    searchableTexts names (messages ++ more) = searchableTexts names messages ++ later := by
  induction messages generalizing names with
  | nil => exact ⟨searchableTexts names more, rfl⟩
  | cons message rest ih =>
    obtain ⟨later, same⟩ := @ih (searchableTextForMessage names message.content).1
    exact ⟨later, by simp [searchableTexts, same]⟩

end AgentClaimNetwork.SessionSearch
