import AgentClaimNetwork.Library.JsonLengths
import AgentClaimNetwork.Library.TextSearch
import AgentClaimNetwork.Session.RecoveryPayload

/-!
The user's own request inside the text for the model, from `src/agent/session_engine.rs`.
-/

namespace AgentClaimNetwork.Session

open Library TextSearch List

def currentUserRequestOpen : Text := "<current_user_request>".toList

def currentUserRequestClose : Text := "</current_user_request>".toList

def tagSafeJsonPayload (value : Json) : Text :=
  Api.replaceChar '&' "\\u0026".toList
    (Api.replaceChar '>' "\\u003e".toList (Api.replaceChar '<' "\\u003c".toList value.render))

def userTextWithRecoveryContext (userText : Text) (recoveryContext : Option Text) : Text :=
  match recoveryContext with
  | none => userText
  | some recoveryContext =>
    recoveryContext ++ "\n\n".toList ++ currentUserRequestOpen ++ ['\n'] ++
      tagSafeJsonPayload (.obj [("text".toList, .str userText)]) ++ ['\n'] ++
      currentUserRequestClose

/-- `str::trim_matches` of newlines. -/
def trimNewlines (text : Text) : Text :=
  ((text.dropWhile (· = '\n')).reverse.dropWhile (· = '\n')).reverse

section

variable (float : List Char → Option Int)

def extractCurrentUserRequest (text : Text) : Option Text := do
  let (_, tail) ← splitFirst currentUserRequestOpen text
  let (inside, _) ← splitFirst currentUserRequestClose tail
  let payload := trimNewlines inside
  match (Json.fromStr float payload).bind fun value =>
      (value.get? "text".toList).bind Json.asStr with
  | some text => some text
  | none => some payload

def canonicalUserRequestText (text : Text) : Text :=
  (extractCurrentUserRequest float text).getD text

end

def HasRequestTags (text : Text) : Prop :=
  ∃ before inside after,
    text = before ++ currentUserRequestOpen ++ inside ++ currentUserRequestClose ++ after

section

variable (float : List Char → Option Int)
variable {text : Text}

theorem extract_eq_none (untagged : ¬ HasRequestTags text) :
    extractCurrentUserRequest float text = none := by
  unfold extractCurrentUserRequest
  cases opened : splitFirst currentUserRequestOpen text with
  | none => rfl
  | some parts =>
    obtain ⟨before, tail⟩ := parts
    cases closed : splitFirst currentUserRequestClose tail with
    | none => simp [closed]
    | some rest =>
      obtain ⟨inside, after⟩ := rest
      refine absurd ⟨before, inside, after, ?_⟩ untagged
      rw [splitFirst_sound opened, splitFirst_sound closed]
      simp only [append_assoc]

theorem dropNewlines_length :
    (text.dropWhile fun character => decide (character = '\n')).length ≤ text.length :=
  (dropWhile_sublist _).length_le

theorem trimNewlines_length (text : Text) : (trimNewlines text).length ≤ text.length := by
  rw [trimNewlines, length_reverse]
  refine Nat.le_trans dropNewlines_length ?_
  rw [length_reverse]
  exact dropNewlines_length

theorem extract_shorter (tagged : HasRequestTags text) :
    ∃ request, extractCurrentUserRequest float text = some request ∧
      request.length < text.length := by
  obtain ⟨before, inside, after, rfl⟩ := tagged
  obtain ⟨front, tail, opened, early⟩ := splitFirst_complete currentUserRequestOpen before
    (inside ++ currentUserRequestClose ++ after)
  simp only [← append_assoc] at opened
  have whole := splitFirst_sound opened
  -- the closing tag stands in what is behind the first opening tag
  obtain ⟨more, isTail⟩ : ∃ more, tail = more ++ currentUserRequestClose ++ after := by
    have lengths := congrArg length whole
    simp only [length_append] at lengths
    have suffix : (currentUserRequestClose ++ after) <:+ tail := by
      refine suffix_of_suffix_length_le
        (⟨before ++ currentUserRequestOpen ++ inside, ?_⟩ : _ <:+ front ++ currentUserRequestOpen ++ tail)
        (suffix_append _ _) ?_
      · rw [← whole]
        simp
      · rw [length_append]
        omega
    obtain ⟨more, isMore⟩ := suffix
    exact ⟨more, by rw [← isMore, append_assoc]⟩
  obtain ⟨content, last, closed, _⟩ := splitFirst_complete currentUserRequestClose more after
  rw [← isTail] at closed
  have shorter : content.length < (before ++ currentUserRequestOpen ++ inside ++
      currentUserRequestClose ++ after).length := by
    have tag : currentUserRequestOpen.length = 22 := rfl
    rw [whole, splitFirst_sound closed]
    simp only [length_append]
    omega
  have trimmed := trimNewlines_length content
  unfold extractCurrentUserRequest
  simp only [opened, closed, Option.bind_eq_bind, Option.bind_some]
  split
  · rename_i request read
    refine ⟨request, rfl, ?_⟩
    obtain ⟨value, parsed, found⟩ := Option.bind_eq_some_iff.mp read
    obtain ⟨item, isField, isString⟩ := Option.bind_eq_some_iff.mp found
    cases item with
    | str characters =>
      cases isString
      have bound := Json.fromStr_field_length parsed isField
      omega
    | null | bool | num | arr | obj => cases isString
  · exact ⟨_, rfl, by omega⟩

theorem canonicalUserRequestText_eq_self :
    canonicalUserRequestText float text = text ↔ ¬ HasRequestTags text := by
  unfold canonicalUserRequestText
  constructor
  · intro same tagged
    obtain ⟨request, extracted, shorter⟩ := extract_shorter float tagged
    rw [extracted, Option.getD_some] at same
    rw [same] at shorter
    exact Nat.lt_irrefl _ shorter
  · intro untagged
    rw [extract_eq_none float untagged, Option.getD_none]

end

section

variable (float : List Char → Option Int)

/-- The characters `tag_safe_json_payload` escapes. -/
def wrapperCharacters : List Char := ['<', '>', '&']

theorem wrapperCharacters_plain : ∀ character ∈ wrapperCharacters, Json.isPlain character = true :=
  all_eq_true.mp rfl

theorem tagSafeJsonPayload_eq (value : Json) :
    tagSafeJsonPayload value = Json.hide wrapperCharacters value.render := by
  have inner := jsonForTagPayload_eq value
  unfold jsonForTagPayload at inner
  rw [tagSafeJsonPayload, inner]
  unfold Api.replaceChar Json.hide
  rw [flatMap_assoc]
  apply flatMap_congr
  intro character _
  by_cases opening : character = '<'
  · rw [opening]
    rfl
  · by_cases closing : character = '>'
    · rw [closing]
      rfl
    · by_cases ampersand : character = '&'
      · rw [ampersand]
        rfl
      · simp [tagCharacters, wrapperCharacters, opening, closing, ampersand]

def requestPayload (userText : Text) : Text :=
  tagSafeJsonPayload (.obj [("text".toList, .str userText)])

theorem requestPayload_read (userText : Text) :
    ((Json.fromStr float (requestPayload userText)).bind fun value =>
      (value.get? "text".toList).bind Json.asStr) = some userText := by
  have readable : Json.Readable 127 (.obj [("text".toList, .str userText)]) :=
    @readable_single 126 "text" _ (Json.Readable.str userText)
  rw [requestPayload, tagSafeJsonPayload_eq,
    Json.fromStr_hide wrapperCharacters_plain float readable]
  simp [Json.get?, Json.asStr]

theorem requestPayload_shape :
    ∃ inside, requestPayload userText = '{' :: (inside ++ ['}']) := by
  have rendered : (Json.obj [("text".toList, .str userText)]).render =
      '{' :: (Json.quote "text".toList ++ ':' :: Json.quote userText ++ ['}']) := by
    simp [Json.render, Json.renderFields]
  refine ⟨Json.hide wrapperCharacters (Json.quote "text".toList ++ ':' :: Json.quote userText), ?_⟩
  rw [requestPayload, tagSafeJsonPayload_eq, rendered,
    Json.hide_cons wrapperCharacters_plain rfl, Json.hide_append,
    Json.hide_cons wrapperCharacters_plain rfl, Json.hide_nil]

theorem requestPayload_free (userText : Text) :
    ∀ character ∈ requestPayload userText, character ≠ '<' := by
  rintro character member rfl
  rw [requestPayload, tagSafeJsonPayload_eq] at member
  exact Json.not_mem_hide wrapperCharacters_plain (by decide) member

theorem trimNewlines_payload (userText : Text) :
    trimNewlines ('\n' :: (requestPayload userText ++ ['\n'])) = requestPayload userText := by
  obtain ⟨inside, shape⟩ := requestPayload_shape
  rw [shape, trimNewlines]
  simp

theorem extract_wrapped {userText : Text}
    (opened : splitFirst currentUserRequestOpen
      (userTextWithRecoveryContext userText (some context)) = some (context ++ "\n\n".toList,
        ['\n'] ++ requestPayload userText ++ ['\n'] ++ currentUserRequestClose)) :
    extractCurrentUserRequest float (userTextWithRecoveryContext userText (some context)) =
      some userText := by
  have free : ∀ character ∈ ['\n'] ++ requestPayload userText ++ ['\n'], character ≠ '<' := by
    intro character member
    rcases mem_concat member with front | rfl
    · rcases mem_append.mp front with first | inside
      · obtain rfl := mem_singleton.mp first
        decide
      · exact requestPayload_free userText character inside
    · decide
  have closed : splitFirst currentUserRequestClose
      (['\n'] ++ requestPayload userText ++ ['\n'] ++ currentUserRequestClose) =
        some (['\n'] ++ requestPayload userText ++ ['\n'], []) := by
    have ending := @splitFirst_front Char _ _ currentUserRequestClose []
    rw [append_nil] at ending
    have skipped := @splitFirst_skip Char _ _ '<' "/current_user_request>".toList _ free
      currentUserRequestClose
    refine skipped.trans ?_
    exact (congrArg (Option.map _) ending).trans (by simp)
  unfold extractCurrentUserRequest
  simp only [opened, closed, Option.bind_eq_bind, Option.bind_some]
  have trimmed := trimNewlines_payload userText
  simp only [cons_append, nil_append] at trimmed ⊢
  rw [trimmed, requestPayload_read]

end

structure Untagged (context : Text) : Prop where
  split : ∀ rest, splitFirst currentUserRequestOpen (context ++ rest) =
    (splitFirst currentUserRequestOpen rest).map fun parts => (context ++ parts.1, parts.2)
  count : ∀ rest, occurrences currentUserRequestOpen (context ++ rest) =
    occurrences currentUserRequestOpen rest

theorem Untagged.append (first : Untagged left) (second : Untagged right) :
    Untagged (left ++ right) where
  split rest := by
    rw [append_assoc, first.split, second.split, Option.map_map]
    cases splitFirst currentUserRequestOpen rest <;> simp
  count rest := by
    rw [append_assoc, first.count, second.count]

theorem untagged_free {text : Text} (free : ∀ character ∈ text, character ≠ '<') :
    Untagged text where
  split := @splitFirst_skip Char _ _ '<' "current_user_request>".toList text free
  count := @occurrences_skip Char _ _ '<' "current_user_request>".toList text free

theorem untagged_other {other : Char} {text : Text} (different : other ≠ 'c')
    (free : ∀ character ∈ other :: text, character ≠ '<') : Untagged ('<' :: other :: text) where
  split rest := by
    have passed := @splitFirst_other Char _ _ '<' "urrent_user_request>".toList 'c' other different
      (text ++ rest)
    have later := (untagged_free free).split rest
    refine passed.trans ?_
    exact (congrArg (Option.map _) later).trans (by
      cases splitFirst currentUserRequestOpen rest <;> rfl)
  count rest := by
    have passed := @occurrences_other Char _ _ '<' "urrent_user_request>".toList 'c' other different
      (text ++ rest)
    exact passed.trans ((untagged_free free).count rest)

variable {Stamp : Type}
theorem recoveryContext_untagged
    (produced : turnJournalRecoveryContextForChain turns limits = some context) :
    Untagged context := by
  unfold turnJournalRecoveryContextForChain at produced
  dsimp only at produced
  split_ifs at produced
  cases produced
  have newline : Untagged ['\n'] := untagged_free (by simp)
  have payload : Untagged
      (jsonForTagPayload (recoveryPayload (turns.filter isUnresolved) limits)) := by
    apply untagged_free
    rintro character member rfl
    exact tagCharacter_not_mem (by decide) member
  have opening : Untagged interruptedTurnContextOpen :=
    @untagged_other 'i' "nterrupted_turn_context>".toList (by decide) (by simp)
  have closing : Untagged interruptedTurnContextClose :=
    @untagged_other '/' "interrupted_turn_context>".toList (by decide) (by simp)
  exact (((opening.append newline).append payload).append newline).append closing

theorem wrapped_eq (userText context : Text) : userTextWithRecoveryContext userText (some context) =
      context ++ "\n\n".toList ++ (currentUserRequestOpen ++
        (['\n'] ++ requestPayload userText ++ ['\n'] ++ currentUserRequestClose)) := by
  simp [userTextWithRecoveryContext, requestPayload, append_assoc]

variable (float : List Char → Option Int)

theorem canonical_wrapped
    (produced : turnJournalRecoveryContextForChain turns limits = some context) (userText : Text) :
    canonicalUserRequestText float (userTextWithRecoveryContext userText (some context)) =
      userText := by
  have front : Untagged (context ++ "\n\n".toList) :=
    (recoveryContext_untagged produced).append (untagged_free (by simp))
  rw [canonicalUserRequestText, extract_wrapped float, Option.getD_some]
  rw [wrapped_eq, front.split, splitFirst_front]
  simp

theorem wrapped_occurrences
    (produced : turnJournalRecoveryContextForChain turns limits = some context) (userText : Text) :
    occurrences currentUserRequestOpen (userTextWithRecoveryContext userText (some context)) = 1 := by
  have front : Untagged (context ++ "\n\n".toList) :=
    (recoveryContext_untagged produced).append (untagged_free (by simp))
  have newline : Untagged ['\n'] := untagged_free (by simp)
  have closing : Untagged currentUserRequestClose :=
    @untagged_other '/' "current_user_request>".toList (by decide) (by simp)
  have behind := ((newline.append (untagged_free (requestPayload_free userText))).append
    newline).append closing
  have tail : Untagged ("current_user_request>".toList ++
      (['\n'] ++ requestPayload userText ++ ['\n'] ++ currentUserRequestClose)) :=
    (untagged_free (by simp)).append behind
  have once : occurrences currentUserRequestOpen ('<' :: ("current_user_request>".toList ++
      (['\n'] ++ requestPayload userText ++ ['\n'] ++ currentUserRequestClose))) = 1 := by
    have rest := tail.count []
    rw [append_nil] at rest
    have starts : currentUserRequestOpen.isPrefixOf ('<' :: ("current_user_request>".toList ++
        (['\n'] ++ requestPayload userText ++ ['\n'] ++ currentUserRequestClose))) = true :=
      isPrefixOf_iff_prefix.mpr ⟨_, rfl⟩
    rw [occurrences, if_pos starts, rest]
    rfl
  rw [wrapped_eq, front.count]
  exact once

/-- The user's text is recovered if and only if it was wrapped, or it holds no tags of its own. -/
theorem user_request_recovered_iff (userText : Text) (turns : List (TurnJournalTurn Stamp))
    (limits : RecoveryContextLimits) :
    (canonicalUserRequestText float (userTextWithRecoveryContext userText
        (turnJournalRecoveryContextForChain turns limits)) = userText ∧
      ((turnJournalRecoveryContextForChain turns limits).isSome = true →
        occurrences currentUserRequestOpen (userTextWithRecoveryContext userText
          (turnJournalRecoveryContextForChain turns limits)) = 1)) ↔
    (turnJournalRecoveryContextForChain turns limits).isSome = true ∨
      ¬ HasRequestTags userText := by
  cases produced : turnJournalRecoveryContextForChain turns limits with
  | none =>
    rw [userTextWithRecoveryContext, canonicalUserRequestText_eq_self]
    simp
  | some context =>
    have recovered := canonical_wrapped float produced userText
    have once := wrapped_occurrences produced userText
    simp [recovered, once]

/-- A user who writes the tags without a recovery context is misread. -/
theorem tagged_request_is_cut :
    canonicalUserRequestText (fun _ => none) (userTextWithRecoveryContext
      "<current_user_request>a</current_user_request>".toList none) ≠
        "<current_user_request>a</current_user_request>".toList := by
  decide

end AgentClaimNetwork.Session
