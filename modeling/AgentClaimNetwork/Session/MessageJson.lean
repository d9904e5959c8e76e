import AgentClaimNetwork.Session.Transcript

/-!
The JSON object of a message, and the reader that accepts exactly these objects.
-/

namespace AgentClaimNetwork.Session

open Library LineLog Api List

def sourceName : ModelContextSource → Text
  | .runtime => "runtime".toList
  | .backgroundProcess => "background_process".toList
  | .delegation => "delegation".toList
  | .requestSizeRecovery => "request_size_recovery".toList

def blockJson : SessionContentBlock → Json
  | .text body => .obj [("type".toList, .str "text".toList), ("text".toList, .str body)]
  | .modelContext source fingerprint body =>
    .obj [("type".toList, .str "model_context".toList), ("source".toList, .str (sourceName source)),
      ("fingerprint".toList, .str fingerprint), ("text".toList, .str body)]
  | .skillInstructions instruction =>
    .obj [("type".toList, .str "skill_instructions".toList),
      ("instruction".toList, .obj
        [("name".toList, .str instruction.name), ("spec_path".toList, .str instruction.specPath),
          ("base_dir".toList, .str instruction.baseDir),
          ("arguments".toList, (instruction.arguments.map Json.str).getD .null),
          ("content".toList, .str instruction.content),
          ("content_hash".toList, .str instruction.contentHash)])]
  | .image mediaType data =>
    .obj [("type".toList, .str "image".toList), ("media_type".toList, .str mediaType),
      ("data".toList, .str data)]
  | .document mediaType data filename =>
    .obj ([("type".toList, .str "document".toList), ("media_type".toList, .str mediaType),
      ("data".toList, .str data)] ++ Json.optionalField "filename".toList (filename.map .str))
  | .toolUse id name input =>
    .obj [("type".toList, .str "tool_use".toList), ("id".toList, .str id),
      ("name".toList, .str name), ("input".toList, input)]
  | .invalidToolUse id name error =>
    .obj [("type".toList, .str "invalid_tool_use".toList), ("id".toList, .str id),
      ("name".toList, .str name), ("error".toList, .str error)]
  | .toolResult toolUseId content =>
    .obj [("type".toList, .str "tool_result".toList), ("tool_use_id".toList, .str toolUseId),
      ("content".toList, .str content)]

theorem sourceName_injective {left right : ModelContextSource}
    (same : sourceName left = sourceName right) : left = right := by
  cases left <;> cases right <;> first | rfl | exact absurd same (by decide)

theorem optionalField_injective {left right : Option Json}
    (same : Json.optionalField key left = Json.optionalField key right) : left = right := by
  cases left <;> cases right <;> simp_all [Json.optionalField]

variable {left right : Option Text}

theorem optionalText_injective
    (same : Json.optionalField key (left.map Json.str) = Json.optionalField key (right.map Json.str)) :
    left = right := by
  have values := optionalField_injective same
  cases left <;> cases right <;> simp_all

theorem nullable_injective
    (same : (left.map Json.str).getD .null = (right.map Json.str).getD .null) : left = right := by
  cases left <;> cases right <;> simp_all

theorem blockJson_injective {left right : SessionContentBlock}
    (same : blockJson left = blockJson right) : left = right := by
  cases left <;> cases right <;> simp [blockJson] at same
  case text.text => simp_all
  case modelContext.modelContext =>
      obtain ⟨source, rest⟩ := same
      rw [sourceName_injective source]
      simp_all
  case skillInstructions.skillInstructions left right =>
      obtain ⟨name, specPath, baseDir, arguments, content, contentHash⟩ := same
      have optional := nullable_injective arguments
      cases left
      cases right
      simp_all
  case image.image => simp_all
  case document.document =>
      obtain ⟨mediaType, data, filename⟩ := same
      rw [optionalText_injective filename]
      simp_all
  case toolUse.toolUse => simp_all
  case invalidToolUse.invalidToolUse => simp_all
  case toolResult.toolResult => simp_all

def roleName : SessionMessageRole → Text
  | .user => "user".toList
  | .assistant => "assistant".toList

theorem roleName_injective {left right : SessionMessageRole}
    (same : roleName left = roleName right) : left = right := by
  cases left <;> cases right <;> first | rfl | exact absurd same (by decide)

variable {Stamp Replay : Type} (stampJson : Stamp → Json) (replayJson : Replay → Json)

def messageFields (message : SessionMessage Stamp Replay) : List (Text × Json) :=
  [("index".toList, .num message.index), ("role".toList, .str (roleName message.role)),
    ("content".toList, .arr (message.content.map blockJson)),
    ("created_at".toList, stampJson message.createdAt), ("model".toList, .str message.model)] ++
    Json.optionalField "provider_replay".toList (message.providerReplay.map replayJson)

variable {stampJson replayJson}
variable {left right : SessionMessage Stamp Replay}

theorem messageFields_injective (stamps : Function.Injective stampJson)
    (replays : Function.Injective replayJson)
    (same : messageFields stampJson replayJson left = messageFields stampJson replayJson right) :
    left = right := by
  obtain ⟨index, role, content, createdAt, model, providerReplay⟩ := left
  obtain ⟨otherIndex, otherRole, otherContent, otherCreatedAt, otherModel, otherReplay⟩ := right
  simp only [messageFields, cons_append, nil_append, cons.injEq, Prod.mk.injEq,
    true_and, Json.num.injEq, Json.str.injEq, Json.arr.injEq, Int.natCast_inj] at same
  obtain ⟨sameIndex, sameRole, sameContent, sameStamp, sameModel, sameReplay⟩ := same
  have blocks : content = otherContent :=
    (map_injective_iff.mpr fun _ _ => blockJson_injective) sameContent
  have replay : providerReplay = otherReplay :=
    Option.map_injective replays (optionalField_injective sameReplay)
  rw [sameIndex, roleName_injective sameRole, blocks, stamps sameStamp, sameModel, replay]

variable (stampJson replayJson) in
def messageText (message : SessionMessage Stamp Replay) : Text :=
  (Json.obj (messageFields stampJson replayJson message)).render

theorem messageText_prefix (stamps : Function.Injective stampJson)
    (replays : Function.Injective replayJson)
    (same : Utf8.encode (messageText stampJson replayJson left) =
      Utf8.encode (messageText stampJson replayJson right) ++ rest) : left = right ∧ rest = [] := by
  have decoded := congrArg Utf8.lossy same
  rw [Utf8.lossy_encode, Utf8.lossy_encode_append] at decoded
  have extended : messageText stampJson replayJson left ++ [] =
      messageText stampJson replayJson right ++ Utf8.lossy rest := by
    rw [append_nil, decoded]
  obtain ⟨fields, _⟩ := Json.render_obj_prefix extended
  obtain rfl := messageFields_injective stamps replays fields
  exact ⟨rfl, (self_eq_append_right.mp same)⟩

variable (stampJson replayJson) in
open Classical in
noncomputable def readMessage (line : List UInt8) : Option (SessionMessage Stamp Replay) :=
  if written : ∃ message, Utf8.encode (messageText stampJson replayJson message) = line then
    some written.choose
  else none

variable (stampJson replayJson) in
noncomputable def MessageCodec.exact (stamps : Function.Injective stampJson)
    (replays : Function.Injective replayJson) : MessageCodec Stamp Replay where
  text := messageText stampJson replayJson
  read := readMessage stampJson replayJson
  clean message := Json.render_printable
  opens message := rfl
  read_text message := by
    have written : ∃ other, Utf8.encode (messageText stampJson replayJson other) =
        Utf8.encode (messageText stampJson replayJson message) := ⟨message, rfl⟩
    have same := messageText_prefix stamps replays (written.choose_spec.trans
      (append_nil _).symm)
    rw [readMessage, dif_pos written, same.1]
  read_part message part isPart different := by
    refine dif_neg ?_
    rintro ⟨other, rfl⟩
    obtain ⟨rest, split⟩ := isPart
    obtain ⟨_, nothing⟩ := messageText_prefix stamps replays split.symm
    rw [nothing, append_nil] at split
    exact different split

noncomputable def textCodec : MessageCodec Text Json :=
  MessageCodec.exact Json.str id (fun _ _ => Json.str.inj) Function.injective_id

end AgentClaimNetwork.Session
