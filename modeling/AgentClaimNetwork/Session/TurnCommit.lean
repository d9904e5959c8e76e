import AgentClaimNetwork.Session.TranscriptSafety

/-!
A turn goes into the transcript with one write, and the loader takes every complete line behind
the count, so a crash leaves the messages whose lines are complete.
-/

namespace AgentClaimNetwork.Session

open Library LineLog List

section

variable {Stamp Replay History : Type} {codec : MessageCodec Stamp Replay}

variable (message : SessionMessage Stamp Replay)

def SessionMessage.toolUseIds : List Text :=
  message.content.filterMap fun
    | .toolUse id _ _ => some id
    | .invalidToolUse id _ _ => some id
    | _ => none

def SessionMessage.toolResultIds : List Text :=
  message.content.filterMap fun
    | .toolResult toolUseId _ => some toolUseId
    | _ => none

variable (messages : List (SessionMessage Stamp Replay))

def Paired : Prop :=
  ∀ (position : Nat) (message : SessionMessage Stamp Replay),
    messages[position]? = some message → message.role = .assistant → message.toolUseIds ≠ [] →
      ∃ results, messages[position + 1]? = some results ∧ results.role = .user ∧
        ∀ id ∈ message.toolUseIds, id ∈ results.toolResultIds

theorem Paired.append (before : Paired left) (after : Paired right) : Paired (left ++ right) := by
  intro position message found assistant calls
  by_cases early : position < left.length
  · rw [List.getElem?_append_left early] at found
    obtain ⟨results, next, answered⟩ := before position message found assistant calls
    have inside : position + 1 < left.length := (List.getElem?_eq_some_iff.mp next).1
    exact ⟨results, (List.getElem?_append_left inside).trans next, answered⟩
  · rw [List.getElem?_append_right (Nat.not_lt.mp early)] at found
    obtain ⟨results, next, answered⟩ := after _ message found assistant calls
    refine ⟨results, ?_, answered⟩
    rw [List.getElem?_append_right (by omega), ← next]
    congr 1
    omega

def CommittedWhole (codec : MessageCodec Stamp Replay) (agentId : Api.Text)
    (old turn : List (SessionMessage Stamp Replay)) (files : SessionFiles Stamp History) : Prop :=
  ∃ loaded, loadExistingSession codec agentId files = .ok loaded ∧
    (loaded.messages = old ∨ loaded.messages = old ++ turn) ∧
    loaded.files.metadata.messageCount = loaded.messages.length ∧ Paired loaded.messages

def CutsTurn (codec : MessageCodec Stamp Replay) (files : SessionFiles Stamp History)
    (messages : List (NewSessionMessage Stamp Replay)) (written : Nat) : Prop :=
  ∃ first, (storedMessages files.metadata.messageCount messages).head? = some first ∧
    leadLength codec files.messages + (Utf8.encode (codec.text first)).length ≤ written ∧
    written + 1 < (appendedBytes codec files messages).length

theorem wholeMessages_le (written : Nat) :
    wholeMessages codec messages written ≤ messages.length := by
  induction messages generalizing written with
  | nil => exact Nat.le_refl 0
  | cons message messages ih =>
    rw [wholeMessages]
    split_ifs
    · exact Nat.zero_le _
    · exact Nat.succ_le_succ (ih _)

theorem messageLines_length_cons (messages : List (SessionMessage Stamp Replay)) :
    (messageLines codec (message :: messages)).length =
      (Utf8.encode (codec.text message)).length + 1 + (messageLines codec messages).length := by
  rw [messageLines_cons, length_append, length_cons]
  omega

theorem wholeMessages_all (written : Nat) :
    wholeMessages codec messages written = messages.length ↔
      (messageLines codec messages).length ≤ written + 1 := by
  induction messages generalizing written with
  | nil => simp [wholeMessages]
  | cons message messages ih =>
    rw [wholeMessages, messageLines_length_cons]
    by_cases inside : written < (Utf8.encode (codec.text message)).length
    · rw [if_pos inside, length_cons]
      omega
    · have more : (messageLines codec messages).length = 0 ∨
          2 ≤ (messageLines codec messages).length := by
        cases messages with
        | nil => exact .inl rfl
        | cons next rest =>
          have some_bytes := length_pos_iff.mpr (codec.bytes_ne_nil next)
          rw [messageLines_length_cons]
          omega
      have rest := ih (written - ((Utf8.encode (codec.text message)).length + 1))
      rw [if_neg inside, length_cons, Nat.add_right_cancel_iff, rest]
      omega

theorem wholeMessages_none {first : SessionMessage Stamp Replay}
    (rest : List (SessionMessage Stamp Replay)) (written : Nat) :
    wholeMessages codec (first :: rest) written = 0 ↔
      written < (Utf8.encode (codec.text first)).length := by
  rw [wholeMessages]
  split_ifs with inside <;> simp [inside]

theorem appendedBytes_length (files : SessionFiles Stamp History)
    (messages : List (NewSessionMessage Stamp Replay)) :
    (appendedBytes codec files messages).length = leadLength codec files.messages +
      (messageLines codec (storedMessages files.metadata.messageCount messages)).length := by
  rw [appendedBytes, leadLength, length_append]
  split_ifs <;> rfl

theorem load_crashed_turn (settled : Settled codec agentId files old)
    (isOpen : files.metadata.status = .opened) (unclosed : files.metadata.closedAt = none)
    {next : List (NewSessionMessage Stamp Replay)} (valid : turn.mapM (newMessage model) = .ok next)
    (nonempty : next ≠ []) (written : Nat) : ∃ loaded, loadExistingSession codec agentId
        (appendSessionTurnMessages codec (.crashed written) turn model files).1 = .ok loaded ∧
      loaded.messages = old ++ wholeAppended codec files next written ∧
      loaded.files.metadata.messageCount = loaded.messages.length := by
  have writes : appendSessionTurnMessages codec (.crashed written) turn model files =
      writeMessages codec (.crashed written) next files := by
    rw [appendSessionTurnMessages, valid]
    dsimp only
    rw [appendMessages, if_neg nonempty, isOpen, unclosed]
    rfl
  obtain ⟨loaded, success, messages, _, counted, _⟩ := (settled.crashed next written).load
  rw [writes]
  exact ⟨loaded, success, messages, by rw [counted, messages]⟩

/-- The next load finds none or all of a turn exactly when the crash did not cut the write
between its first message and the end of its last one. -/
theorem turn_committed_whole_iff (codec : MessageCodec Stamp Replay) {agentId : Api.Text}
    {files : SessionFiles Stamp History} {old : List (SessionMessage Stamp Replay)}
    (settled : Settled codec agentId files old) (paired : Paired old)
    (isOpen : files.metadata.status = .opened) (unclosed : files.metadata.closedAt = none)
    {turn : List (CompletedSessionTurnMessage Stamp Replay)} {model : Api.Text}
    {next : List (NewSessionMessage Stamp Replay)} (valid : turn.mapM (newMessage model) = .ok next)
    (nonempty : next ≠ []) (complete : Paired (storedMessages old.length next)) (written : Nat) :
    CommittedWhole codec agentId old (storedMessages old.length next)
        (appendSessionTurnMessages codec (.crashed written) turn model files).1 ↔
      ¬ CutsTurn codec files next written := by
  obtain ⟨loaded, success, messages, counted⟩ :=
    load_crashed_turn settled isOpen unclosed valid nonempty written
  obtain ⟨first, rest, shape⟩ : ∃ first rest, storedMessages old.length next = first :: rest := by
    cases next with
    | nil => exact absurd rfl nonempty
    | cons message messages => exact ⟨_, _, rfl⟩
  rw [wholeAppended, settled.complete] at messages
  rw [CutsTurn, appendedBytes_length, settled.complete]
  generalize storedMessages old.length next = stored at shape complete messages ⊢
  have none_iff := @wholeMessages_none _ _ codec first rest
    (written - leadLength codec files.messages)
  have all_iff := @wholeMessages_all _ _ codec stored (written - leadLength codec files.messages)
  have upper := @wholeMessages_le _ _ codec stored (written - leadLength codec files.messages)
  rw [← shape] at none_iff
  generalize wholeMessages codec stored (written - leadLength codec files.messages) = whole
    at messages none_iff all_iff upper
  have someFirst := length_pos_iff.mpr (codec.bytes_ne_nil first)
  constructor
  · rintro ⟨other, again, noneOrAll, _⟩ ⟨_, head, behind, before⟩
    obtain rfl := Except.ok.inj (success.symm.trans again)
    rw [shape, List.head?_cons, Option.some.injEq] at head
    subst head
    rw [messages, append_right_eq_self, append_cancel_left_eq] at noneOrAll
    rcases noneOrAll with nothing | everything
    · have zero : whole = 0 := by
        rw [take_eq_nil_iff, shape] at nothing
        exact nothing.resolve_right (by simp)
      omega
    · have lengths := congrArg length everything
      rw [length_take, Nat.min_eq_left upper] at lengths
      have long := all_iff.mp lengths
      omega
  · intro uncut
    by_cases zero : whole = 0
    · rw [zero, take_zero, append_nil] at messages
      exact ⟨loaded, success, .inl messages, counted, messages ▸ paired⟩
    · have reached : leadLength codec files.messages +
          (Utf8.encode (codec.text first)).length ≤ written := by
        omega
      have ended : ¬ written + 1 < leadLength codec files.messages +
          (messageLines codec stored).length := fun before =>
        uncut ⟨first, by rw [shape]; rfl, reached, before⟩
      have everything : whole = stored.length := all_iff.mpr (by omega)
      rw [everything, take_length] at messages
      exact ⟨loaded, success, .inr messages, counted, messages ▸ paired.append complete⟩

end

namespace CutTurn

def completed (role : Text) (content : List Api.SessionTurnContentBlock) :
    CompletedSessionTurnMessage Text Json :=
  ⟨⟨role, content, none⟩, "2026-01-01T00:00:00Z".toList⟩

def turn : List (CompletedSessionTurnMessage Text Json) :=
  [completed Api.userRole [.text "list".toList],
    completed Api.assistantRole [.toolUse "call".toList "shell".toList .null],
    completed Api.userRole [.toolResult "call".toList "file".toList],
    completed Api.assistantRole [.text "done".toList]]

def stamped (role : SessionMessageRole) (content : List SessionContentBlock) :
    NewSessionMessage Text Json :=
  ⟨role, content, "2026-01-01T00:00:00Z".toList, "model".toList, none⟩

def next : List (NewSessionMessage Text Json) :=
  [stamped .user [.text "list".toList],
    stamped .assistant [.toolUse "call".toList "shell".toList .null],
    stamped .user [.toolResult "call".toList "file".toList],
    stamped .assistant [.text "done".toList]]

theorem valid : turn.mapM (newMessage "model".toList) = .ok next := rfl

theorem complete : Paired (storedMessages 0 next) := by
  intro position message found assistant calls
  match position, found with
  | 0, found | 2, found =>
    cases found
    cases assistant
  | 1, found =>
    cases found
    refine ⟨_, rfl, rfl, ?_⟩
    simp [SessionMessage.toolUseIds, SessionMessage.toolResultIds, storedMessage, stamped]
  | 3, found =>
    cases found
    exact absurd rfl calls
  | position + 4, found => cases found

noncomputable def crashed : SessionFiles Text Unit :=
  (appendSessionTurnMessages textCodec (.crashed 275) turn "model".toList CutAppend.files).1

theorem load_crashed : ∃ loaded, loadExistingSession textCodec "agent".toList crashed = .ok loaded ∧
    loaded.messages = (storedMessages 0 next).take 2 := by
  have two : wholeMessages textCodec (storedMessages 0 next) 275 = 2 := by decide +kernel
  obtain ⟨loaded, success, messages, _⟩ := load_crashed_turn CutAppend.settled rfl rfl valid
    (by simp [next]) 275
  refine ⟨loaded, success, messages.trans ?_⟩
  change [] ++ (storedMessages 0 next).take
    (wholeMessages textCodec (storedMessages 0 next) 275) = _
  rw [two, nil_append]

theorem unpaired : ¬ Paired ((storedMessages 0 next).take 2) := by
  intro paired
  obtain ⟨results, found, _⟩ := paired 1 _ rfl rfl
    (by simp [SessionMessage.toolUseIds, storedMessage, stamped])
  cases found

end CutTurn

theorem turn_committed_whole_iff_cutTurn :
    CommittedWhole textCodec "agent".toList [] (storedMessages 0 CutTurn.next)
        (appendSessionTurnMessages textCodec (.crashed 9) CutTurn.turn "model".toList
          CutAppend.files).1 ↔
      ¬ CutsTurn textCodec CutAppend.files CutTurn.next 9 :=
  turn_committed_whole_iff textCodec CutAppend.settled (by simp [Paired]) rfl rfl CutTurn.valid
    (by simp [CutTurn.next]) CutTurn.complete 9

/-- Cut behind its second line, the turn is in the transcript with a tool call that has no
result. -/
theorem turn_cut_behind_tool_call :
    ¬ CommittedWhole textCodec "agent".toList [] (storedMessages 0 CutTurn.next) CutTurn.crashed ∧
    ∃ loaded, loadExistingSession textCodec "agent".toList CutTurn.crashed = .ok loaded ∧
      loaded.messages = (storedMessages 0 CutTurn.next).take 2 ∧ ¬ Paired loaded.messages := by
  obtain ⟨loaded, success, messages⟩ := CutTurn.load_crashed
  have broken : ¬ Paired loaded.messages := messages ▸ CutTurn.unpaired
  refine ⟨?_, loaded, success, messages, broken⟩
  rintro ⟨other, again, _, _, paired⟩
  obtain rfl := Except.ok.inj (success.symm.trans again)
  exact broken paired

end AgentClaimNetwork.Session
