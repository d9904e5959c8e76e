import AgentClaimNetwork.SessionSearch.Index
import Mathlib.Algebra.Order.Group.Multiset

/-!
An index stamped with the present version holds only rows that a rebuild would write, unless an
incremental run keeps others.
-/

namespace AgentClaimNetwork.SessionSearch

open Library Session List

variable {Stamp Replay : Type}

namespace SessionIndex

variable (index : SessionIndex Stamp)

def Among (messages : List (SessionMessage Stamp Replay)) : Prop :=
  index.messages ≤ ↑(messageRows messages) ∧ index.fts ≤ ↑(ftsRows messages) ∧
    index.trigram ≤ ↑(ftsRows messages)

def Exact (messages : List (SessionMessage Stamp Replay)) : Prop :=
  index.messages = ↑(messageRows messages) ∧ index.fts = ↑(ftsRows messages) ∧
    index.trigram = ↑(ftsRows messages)

/-- The rows that an incremental run from `start` keeps. -/
def below (start : Nat) : SessionIndex Stamp :=
  { index with
    messages := index.messages.filter fun row => row.messageIndex < start
    fts := index.fts.filter fun row => row.messageIndex < start
    trigram := index.trigram.filter fun row => row.messageIndex < start }

def Faithful (messages : List (SessionMessage Stamp Replay)) : Prop :=
  ∀ stamp, index.indexed = some stamp → stamp.indexVersion = some indexVersion →
    index.Among (messages.take stamp.messageCount)

/-- The rows below a stored count that is short of the transcript are those of a rebuild. -/
def KeepsRebuilt (messages : List (SessionMessage Stamp Replay)) : Prop :=
  ∀ stamp, index.indexed = some stamp → stamp.messageCount < messages.length →
    (index.below stamp.messageCount).Exact (messages.take stamp.messageCount)

end SessionIndex

section

variable {messages more : List (SessionMessage Stamp Replay)} {start count : Nat}

theorem searchableTextsForMessages_take : searchableTextsForMessages (messages.take count) =
      (searchableTextsForMessages messages).take count := by
  obtain ⟨later, same⟩ := @searchableTexts_append Stamp Replay [] (messages.take count)
    (messages.drop count)
  rw [take_append_drop] at same
  have length := @searchableTexts_length Stamp Replay [] (messages.take count)
  have whole := @searchableTexts_length Stamp Replay [] messages
  unfold searchableTextsForMessages
  by_cases inside : count ≤ messages.length
  · rw [same, take_left' (by rw [length, length_take]; omega)]
  · rw [take_of_length_le (by omega), take_of_length_le (by omega)]

theorem messageRows_take : messageRows (messages.take count) = (messageRows messages).take count := by
  simp [messageRows, searchableTextsForMessages_take, take_zipWith]

theorem ftsRows_take : ftsRows (messages.take count) = (ftsRows messages).take count := by
  simp [ftsRows, searchableTextsForMessages_take, take_zipWith]

theorem messageRows_length : (messageRows messages).length = messages.length := by
  simp [messageRows, searchableTextsForMessages, searchableTexts_length]

theorem ftsRows_length : (ftsRows messages).length = messages.length := by
  simp [ftsRows, searchableTextsForMessages, searchableTexts_length]

theorem zipWith_numbered {Row : Type} (row : SessionMessage Stamp Replay → Text → Row)
    {number : Row → Nat} (same : ∀ message text, number (row message text) = message.index)
    (numbered : Numbered SessionMessage.index start messages) (texts : List Text) :
    Numbered number start (zipWith row messages texts) := by
  induction messages generalizing start texts with
  | nil => trivial
  | cons message rest ih =>
    cases texts with
    | nil => trivial
    | cons text texts => exact ⟨(same message text).trans numbered.1, ih numbered.2 texts⟩

variable (numbered : Numbered SessionMessage.index 0 messages)

include numbered in
theorem messageRows_numbered : Numbered MessageRow.messageIndex 0 (messageRows messages) :=
  zipWith_numbered messageRow (fun _ _ => rfl) numbered _

include numbered in
theorem ftsRows_numbered : Numbered FtsRow.messageIndex 0 (ftsRows messages) :=
  zipWith_numbered ftsRow (fun _ _ => rfl) numbered _

end

variable {index : SessionIndex Stamp} {messages more : List (SessionMessage Stamp Replay)}
  {start : Nat}

theorem upsertSessionRows_tables (numbered : Numbered SessionMessage.index 0 messages) :
    (index.upsertSessionRows messages start).messages =
        (index.below start).messages + ↑((messageRows messages).drop start) ∧
      (index.upsertSessionRows messages start).fts =
        (index.below start).fts + ↑((ftsRows messages).drop start) ∧
      (index.upsertSessionRows messages start).trigram =
        (index.below start).trigram + ↑((ftsRows messages).drop start) := by
  have rows := messageRows_numbered numbered
  have dropped := rows.drop start
  have searched := @Numbered.filter_ge FtsRow _ 0 start _ (ftsRows_numbered numbered)
  have behind : ∀ row ∈ (index.below start).messages, row.messageIndex < start := fun row member =>
    (Multiset.mem_filter.mp member).2
  rw [Nat.zero_add] at dropped
  have added := foldl_upsertRow behind dropped
  simp only [Nat.sub_zero] at searched
  simp only [SessionIndex.upsertSessionRows, rows.filter_ge, searched, Nat.sub_zero]
  exact ⟨added, rfl, rfl⟩

theorem take_add_drop {Row : Type} (rows : List Row) (start : Nat) :
    (rows : Multiset Row) = ↑(rows.take start) + ↑(rows.drop start) := by
  rw [Multiset.coe_add, take_append_drop]

variable (numbered : Numbered SessionMessage.index 0 messages)

include numbered

theorem upsertSessionRows_exact : (index.upsertSessionRows messages start).Exact messages ↔
      (index.below start).Exact (messages.take start) := by
  obtain ⟨main, fts, trigram⟩ := @upsertSessionRows_tables Stamp Replay index messages start numbered
  unfold SessionIndex.Exact
  rw [main, fts, trigram, take_add_drop (messageRows messages) start,
    take_add_drop (ftsRows messages) start]
  simp only [add_left_inj, messageRows_take, ftsRows_take]

theorem upsertSessionRows_among (kept : (index.below start).Among (messages.take start)) :
    (index.upsertSessionRows messages start).Among messages := by
  obtain ⟨main, fts, trigram⟩ := @upsertSessionRows_tables Stamp Replay index messages start numbered
  unfold SessionIndex.Among at kept ⊢
  rw [main, fts, trigram, take_add_drop (messageRows messages) start,
    take_add_drop (ftsRows messages) start]
  simpa only [add_le_add_iff_right, messageRows_take, ftsRows_take] using kept

omit numbered

theorem SessionIndex.Exact.among (exact : index.Exact messages) : index.Among messages :=
  ⟨le_of_eq exact.1, le_of_eq exact.2.1, le_of_eq exact.2.2⟩

theorem below_zero : (index.below 0).Exact (messages.take 0) := by
  simp [SessionIndex.below, SessionIndex.Exact, messageRows, ftsRows]

include numbered in
theorem rebuild_exact : (IndexWrite.rebuild.apply index messages).Exact messages :=
  (upsertSessionRows_exact numbered).mpr below_zero

theorem complete_exact (faithful : index.Faithful messages) (stamped : index.indexed = some stamp)
    (whole : stamp.messageCount = messages.length)
    (complete : index.sessionIndexComplete stamp.messageCount = true) : index.Exact messages := by
  simp only [SessionIndex.sessionIndexComplete, stamped, Option.bind_some, Bool.and_eq_true,
    decide_eq_true_eq] at complete
  obtain ⟨⟨⟨main, fts⟩, trigram⟩, version⟩ := complete
  obtain ⟨mainAmong, ftsAmong, trigramAmong⟩ := faithful stamp stamped version
  rw [whole, take_length] at mainAmong ftsAmong trigramAmong
  refine ⟨Multiset.eq_of_le_of_card_le mainAmong ?_, Multiset.eq_of_le_of_card_le ftsAmong ?_,
    Multiset.eq_of_le_of_card_le trigramAmong ?_⟩
  · rw [main, whole, Multiset.coe_card, messageRows_length]
  · rw [fts, whole, Multiset.coe_card, ftsRows_length]
  · rw [trigram, whole, Multiset.coe_card, ftsRows_length]

theorem SessionIndex.Among.append (among : index.Among messages) :
    index.Among (messages ++ more) := by
  have mainRows := @messageRows_take Stamp Replay (messages ++ more) messages.length
  have searched := @ftsRows_take Stamp Replay (messages ++ more) messages.length
  rw [take_left'  rfl] at mainRows searched
  unfold SessionIndex.Among at among ⊢
  rw [mainRows, searched] at among
  refine ⟨le_trans among.1 ?_, le_trans among.2.1 ?_, le_trans among.2.2 ?_⟩
  all_goals exact Multiset.coe_le.mpr (take_sublist _ _).subperm

theorem SessionIndex.Faithful.append (faithful : index.Faithful messages) :
    index.Faithful (messages ++ more) := by
  intro stamp stamped version
  rw [take_append]
  exact (faithful stamp stamped version).append

include numbered

theorem apply_faithful {write : IndexWrite}
    (sound : ∀ start, write = .upsert start → (index.below start).Among (messages.take start)) :
    (write.apply index messages).Faithful messages := by
  have among : (write.apply index messages).Among messages := by
    cases write with
    | rebuild => exact (rebuild_exact numbered).among
    | upsert start => exact upsertSessionRows_among numbered (sound start rfl)
  intro stamp stamped _
  have count : stamp.messageCount = messages.length := by
    cases write <;> cases stamped <;> rfl
  rwa [count, take_length]

theorem repairOneSession_exact (faithful : index.Faithful messages) :
    (((repairOneSession index messages).map fun write => write.apply index messages).getD index).Exact
        messages ↔ index.KeepsRebuilt messages := by
  unfold repairOneSession chooseWrite SessionIndex.KeepsRebuilt
  cases stamped : index.indexed with
  | none => exact ⟨nofun, fun _ => (upsertSessionRows_exact numbered).mpr below_zero⟩
  | some stamp =>
    simp only [Option.some.injEq, forall_eq']
    split_ifs with fewer more complete
    · exact ⟨fun _ more => absurd more (by omega), fun _ => @rebuild_exact _ _ index _ numbered⟩
    · rw [forall_prop_of_true more]
      exact upsertSessionRows_exact numbered
    · exact ⟨fun _ other => absurd other more, fun _ =>
        complete_exact faithful stamped (by omega) complete⟩
    · exact ⟨fun _ other => absurd other more, fun _ => @rebuild_exact _ _ index _ numbered⟩

omit numbered

end AgentClaimNetwork.SessionSearch
