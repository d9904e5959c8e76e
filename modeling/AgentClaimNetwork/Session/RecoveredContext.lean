import AgentClaimNetwork.Session.Transcript

/-!
The model contexts of failed turns, from `src/agent/session_engine.rs` and `src/api/turn_loop.rs`:
their merged chain, and how it joins a provider history.
-/

namespace AgentClaimNetwork.Session

open Library List
open Api (SessionTurnMessage ModelContextSource)

variable {Stamp Replay : Type}

def TurnJournalModelContext.key (context : TurnJournalModelContext Stamp) :
    ModelContextSource × Text × Text := (context.source, context.fingerprint, context.text)

def sameModelContextSnapshot (left right : TurnJournalModelContext Stamp) : Bool :=
  left.source = right.source ∧ left.fingerprint = right.fingerprint ∧ left.text = right.text

def commonPrefix (snapshots modelContext : List (TurnJournalModelContext Stamp)) : Nat :=
  ((snapshots.zip modelContext).takeWhile fun pair =>
    sameModelContextSnapshot pair.1 pair.2).length

/-- One round of the loop of `recovered_model_context`. -/
def mergeModelContext (snapshots modelContext : List (TurnJournalModelContext Stamp)) :
    List (TurnJournalModelContext Stamp) :=
  let common := commonPrefix snapshots modelContext
  if common = min snapshots.length modelContext.length then snapshots ++ modelContext.drop common
  else snapshots ++ modelContext

def recoveredSnapshots (turns : List (TurnJournalTurn Stamp)) :
    List (TurnJournalModelContext Stamp) :=
  turns.foldl (fun snapshots turn => mergeModelContext snapshots turn.modelContext) []

def TurnJournalModelContext.completed (context : TurnJournalModelContext Stamp) :
    CompletedSessionTurnMessage Stamp Replay :=
  ⟨⟨Api.userRole, [.modelContext context.source context.fingerprint context.text], none⟩,
    context.appendedAt⟩

def recoveredModelContext (turns : List (TurnJournalTurn Stamp)) :
    List (CompletedSessionTurnMessage Stamp Replay) :=
  (recoveredSnapshots turns).map TurnJournalModelContext.completed

/-- `record` is the durable recorder: whether the message could be written. -/
def materializeRecoveredModelContext (fingerprintOf : ModelContextSource → Text → Text)
    (record : CompletedSessionTurnMessage Stamp Replay → Bool)
    (providerMessages : List (SessionTurnMessage Replay))
    (committed recovered : List (CompletedSessionTurnMessage Stamp Replay)) :
    Option (List (SessionTurnMessage Replay) × List (CompletedSessionTurnMessage Stamp Replay)) :=
  let valid := recovered.all fun completed =>
    match completed.message.modelContextSnapshot with
    | none => false
    | some (source, fingerprint, text) => fingerprint = fingerprintOf source text
  let visible := providerMessages.filterMap SessionTurnMessage.modelContextSnapshot
  let context := recovered.filterMap (·.message.modelContextSnapshot)
  let alreadyVisible := ((range (context.length + 1)).reverse.find? fun count =>
    (context.take count).isSuffixOf visible).getD 0
  if valid && recovered.all record then
    some (providerMessages ++ (recovered.drop alreadyVisible).map (·.message),
      committed ++ recovered)
  else none

section

variable {snapshots modelContext replayed added : List (TurnJournalModelContext Stamp)}

theorem same_iff : sameModelContextSnapshot left right = true ↔ left.key = right.key := by
  simp [sameModelContextSnapshot, TurnJournalModelContext.key]

theorem commonPrefix_cons (left right : TurnJournalModelContext Stamp) :
    commonPrefix (left :: snapshots) (right :: modelContext) =
      if sameModelContextSnapshot left right then commonPrefix snapshots modelContext + 1
      else 0 := by
  rw [commonPrefix, zip_cons_cons, takeWhile_cons]
  split_ifs <;> rfl

theorem commonPrefix_nil : commonPrefix snapshots [] = 0 := by
  rw [commonPrefix, zip_nil_right]
  rfl

theorem commonPrefix_le : commonPrefix snapshots modelContext ≤ snapshots.length ∧
    commonPrefix snapshots modelContext ≤ modelContext.length := by
  have shorter := (List.takeWhile_prefix (l := snapshots.zip modelContext) fun pair =>
    sameModelContextSnapshot pair.1 pair.2).length_le
  rw [length_zip] at shorter
  exact ⟨Nat.le_trans shorter (Nat.min_le_left _ _), Nat.le_trans shorter (Nat.min_le_right _ _)⟩

theorem commonPrefix_keys :
    (modelContext.take (commonPrefix snapshots modelContext)).map TurnJournalModelContext.key <+:
      snapshots.map TurnJournalModelContext.key := by
  induction modelContext generalizing snapshots with
  | nil => simp
  | cons right rest ih =>
    cases snapshots with
    | nil => simp [commonPrefix]
    | cons left others =>
      rw [commonPrefix_cons]
      split_ifs with same
      · rw [take_succ_cons, map_cons, map_cons, same_iff.mp same]
        exact cons_prefix_cons.mpr ⟨rfl, ih⟩
      · simp

theorem le_commonPrefix (isPrefix : replayed.map TurnJournalModelContext.key <+:
    snapshots.map TurnJournalModelContext.key) :
    replayed.length ≤ commonPrefix snapshots (replayed ++ added) := by
  induction replayed generalizing snapshots with
  | nil => exact Nat.zero_le _
  | cons right rest ih =>
    cases snapshots with
    | nil => simp at isPrefix
    | cons left others =>
      obtain ⟨same, later⟩ := cons_prefix_cons.mp isPrefix
      rw [cons_append, commonPrefix_cons, if_pos (same_iff.mpr same.symm)]
      exact Nat.succ_le_succ (ih later)

def Recognised (snapshots replayed added : List (TurnJournalModelContext Stamp)) : Prop :=
  replayed = [] ∨ (replayed.map TurnJournalModelContext.key <+:
    snapshots.map TurnJournalModelContext.key ∧
      (added = [] ∨ replayed.length = snapshots.length))

theorem merge_iff (fresh : replayed = [] → ∀ left ∈ snapshots.head?, ∀ right ∈ added.head?,
    left.key ≠ right.key) :
    mergeModelContext snapshots (replayed ++ added) = snapshots ++ added ↔
      Recognised snapshots replayed added := by
  obtain ⟨inSnapshots, inContext⟩ := @commonPrefix_le _ snapshots (replayed ++ added)
  have keys := @commonPrefix_keys _ snapshots (replayed ++ added)
  rw [length_append] at inContext
  unfold mergeModelContext
  dsimp only
  constructor
  · intro merged
    by_cases none : replayed = []
    · exact .inl none
    · have some : 0 < replayed.length := length_pos_iff.mpr none
      refine .inr ?_
      split_ifs at merged with whole
      · have lengths := congrArg List.length (append_cancel_left merged)
        rw [length_drop, length_append] at lengths
        have place : commonPrefix snapshots (replayed ++ added) = replayed.length := by omega
        rw [place, take_left] at keys
        rw [place, length_append] at whole
        refine ⟨keys, ?_⟩
        rcases Nat.eq_zero_or_pos added.length with empty | more
        · exact .inl (length_eq_zero_iff.mp empty)
        · exact .inr (by omega)
      · have lengths := congrArg List.length (append_cancel_left merged)
        rw [length_append] at lengths
        omega
  · rintro (rfl | ⟨isPrefix, ends⟩)
    · have start : commonPrefix snapshots ([] ++ added) = 0 := by
        cases snapshots with
        | nil => rfl
        | cons left others =>
          cases added with
          | nil => exact commonPrefix_nil
          | cons right rest =>
            rw [nil_append, commonPrefix_cons, if_neg fun same =>
              fresh rfl left rfl right rfl (same_iff.mp same)]
      rw [start, nil_append, drop_zero, ite_self]
    · have atLeast := @le_commonPrefix _ snapshots replayed added isPrefix
      have shorter := isPrefix.length_le
      rw [length_map, length_map] at shorter
      have place : commonPrefix snapshots (replayed ++ added) = replayed.length := by
        rcases ends with rfl | same
        · simp only [length_nil] at inContext
          omega
        · omega
      rw [place, length_append, if_pos, drop_left]
      rcases ends with rfl | same
      · simp only [length_nil]
        omega
      · omega

end

section

variable {fingerprintOf : ModelContextSource → Text → Text}
  {record : CompletedSessionTurnMessage Stamp Replay → Bool}
  {providerMessages messages : List (SessionTurnMessage Replay)}
  {committed recovered after : List (CompletedSessionTurnMessage Stamp Replay)}

def contexts (messages : List (SessionTurnMessage Replay)) :
    List (ModelContextSource × Text × Text) :=
  messages.filterMap SessionTurnMessage.modelContextSnapshot

structure ShortestTail {Item : Type} (visible chain tail : List Item) : Prop where
  ends : chain <:+ visible ++ tail
  least : ∀ other, chain <:+ visible ++ other → tail.length ≤ other.length

theorem shortestTail_drop {Item : Type} [BEq Item] [LawfulBEq Item] (visible chain : List Item) :
    ShortestTail visible chain (chain.drop (((range (chain.length + 1)).reverse.find?
      fun count => (chain.take count).isSuffixOf visible).getD 0)) := by
  cases found : (range (chain.length + 1)).reverse.find?
      fun count => (chain.take count).isSuffixOf visible with
  | none =>
    have impossible := List.find?_eq_none.mp found 0 (by simp)
    simp at impossible
  | some count =>
    obtain ⟨suffix, before, after, split, larger⟩ := List.find?_eq_some_iff_append.mp found
    rw [isSuffixOf_iff_suffix] at suffix
    rw [Option.getD_some]
    constructor
    · obtain ⟨front, rfl⟩ := suffix
      rw [append_assoc, take_append_drop]
      exact suffix_append _ _
    · intro other ends
      rw [length_drop]
      by_contra short
      have part : chain.take (chain.length - other.length) <:+ visible := by
        obtain ⟨front, same⟩ := ends
        have total := congrArg List.length same
        simp only [length_append] at total
        have cut := congrArg (take visible.length) same
        rw [take_left, take_append, take_of_length_le (by omega)] at cut
        rw [show chain.length - other.length = visible.length - front.length by omega]
        exact ⟨front, cut⟩
      have sorted : (range (chain.length + 1)).reverse.Pairwise (· > ·) :=
        pairwise_reverse.mpr pairwise_lt_range
      have member : chain.length - other.length ∈ (range (chain.length + 1)).reverse :=
        mem_reverse.mpr (mem_range.mpr (by omega))
      rw [split] at sorted member
      rcases mem_append.mp member with inside | inside
      · have refused := larger _ inside
        simp only [Bool.not_eq_true', ← Bool.not_eq_true, isSuffixOf_iff_suffix] at refused
        exact refused part
      · rcases mem_cons.mp inside with same | later
        · omega
        · have below := rel_of_pairwise_cons (pairwise_append.mp sorted).2.1 later
          omega

def Recordable (fingerprintOf : ModelContextSource → Text → Text)
    (record : CompletedSessionTurnMessage Stamp Replay → Bool)
    (completed : CompletedSessionTurnMessage Stamp Replay) : Prop :=
  record completed = true ∧ ∃ source text,
    completed.message.modelContextSnapshot = some (source, fingerprintOf source text, text)

theorem genuine_iff {snapshot : Option (ModelContextSource × Text × Text)} :
    (match snapshot with
      | none => false
      | some (source, fingerprint, text) => decide (fingerprint = fingerprintOf source text)) = true ↔
      ∃ source text, snapshot = some (source, fingerprintOf source text, text) := by
  rcases snapshot with _ | ⟨source, fingerprint, text⟩
  · simp
  · rw [decide_eq_true_iff]
    constructor
    · rintro rfl
      exact ⟨source, text, rfl⟩
    · rintro ⟨_, _, ⟨⟩⟩
      rfl

theorem materialize_isSome : (∃ messages after, materializeRecoveredModelContext fingerprintOf record
      providerMessages committed recovered = some (messages, after)) ↔
    ∀ completed ∈ recovered, Recordable fingerprintOf record completed := by
  unfold materializeRecoveredModelContext
  constructor
  · rintro ⟨messages, after, ready⟩ completed member
    dsimp only at ready
    split_ifs at ready with valid
    rw [Bool.and_eq_true, all_eq_true, all_eq_true] at valid
    exact ⟨valid.2 _ member, genuine_iff.mp (valid.1 _ member)⟩
  · intro each
    refine ⟨_, _, if_pos ?_⟩
    rw [Bool.and_eq_true, all_eq_true, all_eq_true]
    exact ⟨fun _ member => genuine_iff.mpr (each _ member).2, fun _ member => (each _ member).1⟩

theorem materialize_ok (ready : materializeRecoveredModelContext fingerprintOf record providerMessages
    committed recovered = some (messages, after)) :
    after = committed ++ recovered ∧ providerMessages <+: messages ∧
      ∃ tail, contexts messages = contexts providerMessages ++ tail ∧
        ShortestTail (contexts providerMessages) (contexts (recovered.map (·.message))) tail := by
  unfold materializeRecoveredModelContext at ready
  dsimp only at ready
  split_ifs at ready with valid
  obtain ⟨rfl, rfl⟩ := Prod.mk.inj (Option.some.inj ready)
  rw [Bool.and_eq_true, all_eq_true] at valid
  have all : ∀ items : List (CompletedSessionTurnMessage Stamp Replay), items ⊆ recovered →
      ∀ count, contexts ((items.drop count).map (·.message)) =
        (contexts (items.map (·.message))).drop count := by
    intro items inside
    induction items with
    | nil => simp [contexts]
    | cons item rest ih =>
      intro count
      cases count with
      | zero => rfl
      | succ count =>
        have later := ih (subset_of_cons_subset inside) count
        have own := valid.1 item (inside mem_cons_self)
        cases shown : item.message.modelContextSnapshot with
        | none => simp [shown] at own
        | some snapshot => simpa [contexts, shown] using later
  refine ⟨rfl, prefix_append _ _, _, filterMap_append, ?_⟩
  have same : recovered.filterMap (·.message.modelContextSnapshot) =
      contexts (recovered.map (·.message)) := by rw [contexts, filterMap_map]; rfl
  have tail := all recovered (List.Subset.refl _)
  change ShortestTail _ _ (contexts (map _ (drop _ recovered)))
  rw [tail, same]
  exact shortestTail_drop (contexts providerMessages) (contexts (recovered.map (·.message)))

end

/-- A turn that first records the chain again and then contexts of its own, as far as it comes;
`turn` is the rest of its journal. -/
structure ContextAttempt (Stamp : Type) where
  turn : TurnAccumulator Stamp
  own : List (TurnJournalModelContext Stamp)
  replayedAt : Nat → Stamp
  recorded : Nat

namespace ContextAttempt

variable (attempt : ContextAttempt Stamp) (chain : List (TurnJournalModelContext Stamp))

def replay : List (TurnJournalModelContext Stamp) :=
  chain.zipIdx.map fun entry => { entry.1 with appendedAt := attempt.replayedAt entry.2 }

def journal : TurnJournalTurn Stamp :=
  { attempt.turn with
    modelContext := (attempt.replay chain ++ attempt.own).take attempt.recorded }.finish

def exposes (contexts : List (TurnJournalModelContext Stamp)) :
    List (TurnJournalModelContext Stamp) :=
  { attempt.turn with modelContext := contexts }.finish.modelContext

def replayed : List (TurnJournalModelContext Stamp) :=
  attempt.exposes ((attempt.replay chain).take attempt.recorded)

def added : List (TurnJournalModelContext Stamp) :=
  attempt.exposes (attempt.own.take (attempt.recorded - chain.length))

theorem exposes_eq : (∀ contexts, attempt.exposes contexts = contexts) ∨
    ∀ contexts, attempt.exposes contexts = contexts.filter fun context =>
      attempt.turn.historicalMediaCleaned && context.source = .requestSizeRecovery := by
  by_cases rejected : attempt.turn.providerRejectionStatus.or attempt.turn.status =
      some .rejectedByProvider
  · exact .inr fun _ => if_pos rejected
  · exact .inl fun _ => if_neg rejected

theorem length_replay : (attempt.replay chain).length = chain.length := by simp [replay]

theorem replayed_nil (none : attempt.replayed chain = []) : ∀ left ∈ chain.head?,
    ∀ right ∈ (attempt.added chain).head?, left.key ≠ right.key := by
  intro left first right next same
  cases chain with
  | nil => cases first
  | cons head rest =>
    obtain rfl : head = left := Option.some.inj first
    have member := mem_of_head? next
    unfold replayed at none
    unfold added at member
    rcases attempt.exposes_eq with all | notices
    · rw [all] at none member
      have length := congrArg List.length none
      rw [length_take, length_replay] at length
      simp only [length_cons, length_nil] at length
      rw [show attempt.recorded = 0 by omega, Nat.zero_sub, take_zero] at member
      cases member
    · rw [notices] at none member
      obtain ⟨inOwn, isNotice⟩ := mem_filter.mp member
      have enough : (head :: rest).length < attempt.recorded := by
        by_contra short
        rw [Nat.sub_eq_zero_of_le (by omega), take_zero] at inOwn
        cases inOwn
      rw [take_of_length_le (by rw [length_replay]; omega), filter_eq_nil_iff] at none
      refine none { head with appendedAt := attempt.replayedAt 0 } (by simp [replay]) ?_
      have source : head.source = right.source := congrArg Prod.fst same
      simpa [source] using isNotice

theorem journal_modelContext :
    (attempt.journal chain).modelContext = attempt.replayed chain ++ attempt.added chain := by
  rw [replayed, added, ← attempt.length_replay chain]
  unfold journal exposes TurnAccumulator.finish
  dsimp only
  rw [take_append]
  split_ifs
  · rw [filter_append]
  · rfl

end ContextAttempt

def attempted (attempts : List (ContextAttempt Stamp)) :
    List (TurnJournalTurn Stamp) × List (TurnJournalModelContext Stamp) :=
  attempts.foldl (fun run attempt =>
    (run.1 ++ [attempt.journal (recoveredSnapshots run.1)],
      run.2 ++ attempt.added (recoveredSnapshots run.1))) ([], [])

theorem attempted_snoc (before : List (ContextAttempt Stamp)) (attempt : ContextAttempt Stamp) :
    attempted (before ++ [attempt]) =
      ((attempted before).1 ++ [attempt.journal (recoveredSnapshots (attempted before).1)],
        (attempted before).2 ++ attempt.added (recoveredSnapshots (attempted before).1)) :=
  foldl_concat ..

theorem attempt_iff (attempt : ContextAttempt Stamp) (turns : List (TurnJournalTurn Stamp)) :
    recoveredSnapshots (turns ++ [attempt.journal (recoveredSnapshots turns)]) =
        recoveredSnapshots turns ++ attempt.added (recoveredSnapshots turns) ↔
      Recognised (recoveredSnapshots turns) (attempt.replayed (recoveredSnapshots turns))
        (attempt.added (recoveredSnapshots turns)) := by
  have step : recoveredSnapshots (turns ++ [attempt.journal (recoveredSnapshots turns)]) =
      mergeModelContext (recoveredSnapshots turns)
        (attempt.journal (recoveredSnapshots turns)).modelContext := foldl_concat ..
  rw [step, attempt.journal_modelContext]
  exact merge_iff (attempt.replayed_nil _)

theorem completed_injective : Function.Injective
    (TurnJournalModelContext.completed : TurnJournalModelContext Stamp →
      CompletedSessionTurnMessage Stamp Replay) := by
  intro left right same
  cases left
  cases right
  simp only [TurnJournalModelContext.completed, CompletedSessionTurnMessage.mk.injEq,
    SessionTurnMessage.mk.injEq, List.cons.injEq, Api.SessionTurnContentBlock.modelContext.injEq]
    at same
  simp [same]

/-- Every prefix of a sequence of turns is recovered right exactly when each turn's replay is
recognised; recording the chain needs genuine contexts and a recorder that works. -/
theorem recovered_context_once : (∀ attempts : List (ContextAttempt Stamp),
      (∀ before, before <+: attempts → recoveredModelContext (attempted before).1 =
        (attempted before).2.map (@TurnJournalModelContext.completed Stamp Replay)) ↔
      ∀ before attempt, before ++ [attempt] <+: attempts →
        Recognised (recoveredSnapshots (attempted before).1)
          (attempt.replayed (recoveredSnapshots (attempted before).1))
          (attempt.added (recoveredSnapshots (attempted before).1))) ∧
    ∀ fingerprintOf record (providerMessages : List (SessionTurnMessage Replay)) committed
      (recovered : List (CompletedSessionTurnMessage Stamp Replay)),
      ((∃ messages after, materializeRecoveredModelContext fingerprintOf record providerMessages
          committed recovered = some (messages, after)) ↔
        ∀ completed ∈ recovered, Recordable fingerprintOf record completed) ∧
      ∀ messages after, materializeRecoveredModelContext fingerprintOf record providerMessages
          committed recovered = some (messages, after) →
        after = committed ++ recovered ∧ providerMessages <+: messages ∧
          ∃ tail, contexts messages = contexts providerMessages ++ tail ∧
            ShortestTail (contexts providerMessages) (contexts (recovered.map (·.message))) tail := by
  refine ⟨fun attempts => ?_,
    fun _ _ _ _ _ => ⟨materialize_isSome, fun _ _ ready => materialize_ok ready⟩⟩
  have same : ∀ before, recoveredModelContext (attempted before).1 =
      (attempted before).2.map (@TurnJournalModelContext.completed Stamp Replay) ↔
        recoveredSnapshots (attempted before).1 = (attempted before).2 := fun before =>
    (map_injective_iff.mpr completed_injective).eq_iff
  simp only [same]
  constructor
  · intro each before attempt part
    have whole := each _ part
    rw [attempted_snoc, ← each before ((prefix_append _ _).trans part)] at whole
    exact (attempt_iff attempt _).mp whole
  · intro each before part
    induction before using reverseRecOn with
    | nil => rfl
    | append_singleton before attempt ih =>
      have earlier := ih ((prefix_append _ _).trans part)
      rw [attempted_snoc]
      rw [← earlier]
      exact (attempt_iff attempt _).mpr (each before attempt part)

def sampleContext (source : ModelContextSource) : TurnJournalModelContext Unit :=
  ⟨source, ['f'], ['t'], ()⟩

def firstFails : ContextAttempt Unit :=
  ⟨{ TurnAccumulator.fresh ['1'] with status := some .failed },
    [sampleContext .runtime, sampleContext .requestSizeRecovery], fun _ => (), 2⟩

def rejectedAfterNotice : List (ContextAttempt Unit) :=
  [firstFails,
    ⟨{ TurnAccumulator.fresh ['2'] with
        providerRejectionStatus := some .rejectedByProvider, historicalMediaCleaned := true },
      [], fun _ => (), 2⟩]

theorem notice_is_repeated : recoveredSnapshots (attempted rejectedAfterNotice).1 =
      [sampleContext .runtime, sampleContext .requestSizeRecovery,
        sampleContext .requestSizeRecovery] ∧
    (attempted rejectedAfterNotice).2 =
      [sampleContext .runtime, sampleContext .requestSizeRecovery] ∧
    recoveredModelContext (attempted rejectedAfterNotice).1 ≠
      (attempted rejectedAfterNotice).2.map (@TurnJournalModelContext.completed Unit Unit) :=
  ⟨rfl, rfl, fun same => by cases congrArg List.length same⟩

/-- The second turn records the chain of the first again and then a context of its own. -/
def secondReplays : List (ContextAttempt Unit) :=
  [firstFails,
    ⟨{ TurnAccumulator.fresh ['2'] with status := some .failed }, [sampleContext .runtime],
      fun _ => (), 3⟩]

theorem second_turn_recovered :
    let chain := [sampleContext .runtime, sampleContext .requestSizeRecovery, sampleContext .runtime].map
      (@TurnJournalModelContext.completed Unit Unit)
    recoveredModelContext (attempted secondReplays).1 = chain ∧
      ∃ messages, materializeRecoveredModelContext (fun _ _ => ['f']) (fun _ => true)
          ((chain.take 1).map (·.message)) [] chain = some (messages, chain) ∧
        ∃ tail, contexts messages = contexts ((chain.take 1).map (·.message)) ++ tail ∧
          ShortestTail (contexts ((chain.take 1).map (·.message)))
            (contexts (chain.map (·.message))) tail := by
  intro chain
  obtain ⟨exact, materializes⟩ := @recovered_context_once Unit Unit
  refine ⟨(exact secondReplays).mpr ?_ _ (prefix_refl _), ?_⟩
  · intro before attempt part
    rcases before with _ | ⟨first, _ | ⟨second, rest⟩⟩
    · obtain ⟨rfl, -⟩ := cons_prefix_cons.mp part
      exact .inl rfl
    · obtain ⟨rfl, second⟩ := cons_prefix_cons.mp part
      obtain ⟨rfl, -⟩ := cons_prefix_cons.mp second
      exact .inr ⟨prefix_refl _, .inr rfl⟩
    · have short := part.length_le
      simp [secondReplays] at short
  · obtain ⟨ready, shape⟩ := materializes (fun _ _ => ['f']) (fun _ => true)
      ((chain.take 1).map (·.message)) [] chain
    obtain ⟨messages, after, recorded⟩ := ready.mpr fun completed member => by
      obtain ⟨_, inside, rfl⟩ := mem_map.mp member
      rcases inside with _ | ⟨_, _ | ⟨_, _ | ⟨_, ⟨⟩⟩⟩⟩ <;> exact ⟨rfl, _, _, rfl⟩
    obtain ⟨rfl, -, shown⟩ := shape messages after recorded
    exact ⟨messages, recorded, shown⟩

end AgentClaimNetwork.Session
