import AgentClaimNetwork.Api.TokenEstimate
import Mathlib.Data.List.Induction

/-!
The frozen prefix of the requests of a turn, from `src/api/turn_loop.rs`: what has been sent is not
written again, and what is sent means the history.
-/

namespace AgentClaimNetwork.Api

open Library List
open Option (bind_eq_some_iff)

variable {Replay : Type}

section

def separator : Text := ['\n', '\n']

def textBlock : SessionTurnContentBlock → Option Text
  | .text text => some text
  | _ => none

def pureUserText (message : SessionTurnMessage Replay) : Option Text :=
  if message.role ≠ userRole then none
  else (message.content.mapM textBlock).map ['\n'].intercalate

def pushNormalized (out : List (SessionTurnMessage Replay)) (message : SessionTurnMessage Replay) :
    List (SessionTurnMessage Replay) :=
  match pureUserText message with
  | none => out ++ [message]
  | some text =>
    match out.getLast?.bind pureUserText with
    | none => out ++ [message]
    | some lastText => out.dropLast ++ [.userText (lastText ++ separator ++ text)]

def normalizeProviderMessages (messages : List (SessionTurnMessage Replay)) :
    List (SessionTurnMessage Replay) := messages.foldl pushNormalized []

structure FrozenProviderRequestPrefix (Replay : Type) where
  rawMessages : List (SessionTurnMessage Replay)
  wireMessages : List (SessionTurnMessage Replay)

namespace FrozenProviderRequestPrefix

def new (messages : List (SessionTurnMessage Replay)) (frozenPrefixLen : Nat) :
    Option (FrozenProviderRequestPrefix Replay) :=
  if frozenPrefixLen ≤ messages.length then
    some ⟨messages.take frozenPrefixLen, messages.take frozenPrefixLen⟩
  else none

def clear (_ : FrozenProviderRequestPrefix Replay) : FrozenProviderRequestPrefix Replay := ⟨[], []⟩

def project [DecidableEq (SessionTurnMessage Replay)] (frozen : FrozenProviderRequestPrefix Replay)
    (messages : List (SessionTurnMessage Replay)) : Option (List (SessionTurnMessage Replay)) :=
  if frozen.rawMessages <+: messages then
    some (frozen.wireMessages ++
      normalizeProviderMessages (messages.drop frozen.rawMessages.length))
  else none

def advance (_ : FrozenProviderRequestPrefix Replay) (rawMessages wireMessages :
    List (SessionTurnMessage Replay)) : FrozenProviderRequestPrefix Replay :=
  ⟨rawMessages, wireMessages⟩

end FrozenProviderRequestPrefix

def stripFront {Item : Type} [DecidableEq Item] (front items : List Item) : Option (List Item) :=
  if front <+: items then some (items.drop front.length) else none

def appendAdapterContinuationSuffixToRawHistory [DecidableEq (SessionTurnMessage Replay)]
    (rawMessages outerRequest latestRequest : List (SessionTurnMessage Replay)) :
    Option (List (SessionTurnMessage Replay)) :=
  (stripFront outerRequest latestRequest).map (rawMessages ++ ·)

theorem stripFront_some {Item : Type} [DecidableEq Item] {front items rest : List Item} :
    stripFront front items = some rest ↔ items = front ++ rest := by
  unfold stripFront
  constructor
  · intro stripped
    split_ifs at stripped with starts
    obtain ⟨behind, rfl⟩ := starts
    rw [drop_left] at stripped
    rw [Option.some.inj stripped]
  · rintro rfl
    rw [if_pos (prefix_append _ _), drop_left]

end

namespace ProviderReplayState

def items : ProviderReplayState → List Json
  | openAiResponses _ items | openAiChatCompletions _ items | anthropicMessages _ items => items

/-- Other items of the same protocol and model. -/
def withItems (items : List Json) : ProviderReplayState → ProviderReplayState
  | openAiResponses model _ => openAiResponses model items
  | openAiChatCompletions model _ => openAiChatCompletions model items
  | anthropicMessages model _ => anthropicMessages model items

variable (replay : ProviderReplayState)

@[simp] theorem withItems_self : replay.withItems replay.items = replay := by cases replay <;> rfl

@[simp] theorem items_withItems : (replay.withItems front).items = front := by cases replay <;> rfl

@[simp] theorem withItems_withItems : (replay.withItems front).withItems rest =
    replay.withItems rest := by cases replay <;> rfl

end ProviderReplayState

def replayItems (message : SessionTurnMessage ProviderReplayState) : List Json :=
  (message.providerReplay.map ProviderReplayState.items).getD []

section

variable {assistant next returned message : SessionTurnMessage ProviderReplayState}

/-- `returned` is `assistant` without the items that the messages in between have sent. -/
def Continued (assistant : SessionTurnMessage ProviderReplayState)
    (continuation : List (SessionTurnMessage ProviderReplayState))
    (returned : SessionTurnMessage ProviderReplayState) : Prop :=
  continuation = [] ∧ returned = assistant ∨ ∃ replay rest, assistant.providerReplay = some replay ∧
    returned = { assistant with providerReplay := some (replay.withItems rest) } ∧
    replay.items = continuation.flatMap replayItems ++ rest ∧
    ∀ message ∈ continuation, message.role = assistantRole ∧
      ∃ items, message.providerReplay = some (replay.withItems items)

theorem Continued.items (continued : Continued assistant continuation returned) :
    continuation.flatMap replayItems ++ replayItems returned = replayItems assistant := by
  rcases continued with ⟨rfl, rfl⟩ | ⟨replay, rest, hasReplay, rfl, split, -⟩
  · rfl
  · simp [replayItems, hasReplay, split]

variable [DecidableEq Json]

def stripProviderReplayPrefix : ProviderReplayState → ProviderReplayState →
    Option ProviderReplayState
  | .openAiResponses model items, .openAiResponses frontModel front =>
    if model = frontModel then (stripFront front items).map (.openAiResponses model) else none
  | .openAiChatCompletions model messages, .openAiChatCompletions frontModel front =>
    if model = frontModel then (stripFront front messages).map (.openAiChatCompletions model)
    else none
  | .anthropicMessages model messages, .anthropicMessages frontModel front =>
    if model = frontModel then (stripFront front messages).map (.anthropicMessages model)
    else none
  | _, _ => none

def stripContinuation (assistant message : SessionTurnMessage ProviderReplayState) :
    Option (SessionTurnMessage ProviderReplayState) :=
  if message.role ≠ assistantRole then none
  else do
    let front ← message.providerReplay
    let replay ← assistant.providerReplay
    let replay ← stripProviderReplayPrefix replay front
    return { assistant with providerReplay := some replay }

def providerAssistantSuffixForLatestRequest [DecidableEq (SessionTurnMessage ProviderReplayState)]
    (assistant : SessionTurnMessage ProviderReplayState)
    (attemptBase latestRequest : List (SessionTurnMessage ProviderReplayState)) :
    Option (SessionTurnMessage ProviderReplayState) :=
  (stripFront attemptBase latestRequest).bind fun continuationSuffix =>
    continuationSuffix.foldlM stripContinuation assistant

theorem stripProviderReplayPrefix_some {replay front next : ProviderReplayState} :
    stripProviderReplayPrefix replay front = some next ↔ front = replay.withItems front.items ∧
      ∃ rest, next = replay.withItems rest ∧ replay.items = front.items ++ rest := by
  constructor
  · intro stripped
    unfold stripProviderReplayPrefix at stripped
    split at stripped
    iterate 3
      split_ifs at stripped with same
      obtain ⟨rest, found, rfl⟩ := Option.map_eq_some_iff.mp stripped
      exact ⟨by rw [same]; rfl, rest, rfl, stripFront_some.mp found⟩
    cases stripped
  · rintro ⟨same, rest, rfl, split⟩
    rw [same]
    cases replay
    all_goals
      simp only [stripProviderReplayPrefix, ProviderReplayState.withItems, if_true,
        Option.map_eq_some_iff]
      exact ⟨rest, stripFront_some.mpr split, rfl⟩

theorem stripContinuation_some : stripContinuation assistant message = some next ↔
    message.role = assistantRole ∧ ∃ replay front rest, assistant.providerReplay = some replay ∧
      message.providerReplay = some (replay.withItems front) ∧ replay.items = front ++ rest ∧
      next = { assistant with providerReplay := some (replay.withItems rest) } := by
  unfold stripContinuation
  split_ifs with role
  · exact ⟨nofun, fun holds => absurd holds.1 role⟩
  constructor
  · intro stripped
    obtain ⟨front, hasFront, stripped⟩ := bind_eq_some_iff.mp stripped
    obtain ⟨replay, hasReplay, stripped⟩ := bind_eq_some_iff.mp stripped
    obtain ⟨last, found, same⟩ := bind_eq_some_iff.mp stripped
    obtain ⟨alike, rest, rfl, split⟩ := stripProviderReplayPrefix_some.mp found
    exact ⟨not_not.mp role, replay, front.items, rest, hasReplay, alike ▸ hasFront, split,
      (Option.some.inj same).symm⟩
  · rintro ⟨-, replay, front, rest, hasReplay, hasFront, split, rfl⟩
    have found : stripProviderReplayPrefix replay (replay.withItems front) =
        some (replay.withItems rest) := by
      rw [stripProviderReplayPrefix_some, ProviderReplayState.items_withItems]
      exact ⟨rfl, rest, rfl, split⟩
    simp [hasFront, hasReplay, found]

theorem continued_iff : continuation.foldlM stripContinuation assistant = some returned ↔
    Continued assistant continuation returned := by
  induction continuation generalizing assistant with
  | nil =>
    refine ⟨fun same => .inl ⟨rfl, (Option.some.inj same).symm⟩, ?_⟩
    rintro (⟨-, rfl⟩ | ⟨replay, rest, hasReplay, rfl, split, -⟩)
    · rfl
    · obtain rfl : replay.items = rest := split
      rw [replay.withItems_self, ← hasReplay]
      rfl
  | cons message later ih =>
    rw [foldlM_cons, Option.bind_eq_bind, bind_eq_some_iff]
    constructor
    · rintro ⟨next, one, folded⟩
      obtain ⟨role, replay, front, rest, hasReplay, hasFront, split, rfl⟩ :=
        stripContinuation_some.mp one
      have own : replayItems message = front := by simp [replayItems, hasFront]
      rcases ih.mp folded with ⟨rfl, rfl⟩ | ⟨_, last, ⟨⟩, rfl, behind, others⟩
      · exact .inr ⟨replay, rest, hasReplay, rfl, by simpa [own] using split,
          by simpa [role] using ⟨front, hasFront⟩⟩
      · rw [replay.items_withItems] at behind
        refine .inr ⟨replay, last, hasReplay, by simp, by simp [own, split, behind], ?_⟩
        simp only [replay.withItems_withItems] at others
        exact forall_mem_cons.mpr ⟨⟨role, front, hasFront⟩, others⟩
    · rintro (⟨⟨⟩, -⟩ | ⟨replay, rest, hasReplay, rfl, split, each⟩)
      obtain ⟨⟨role, front, hasFront⟩, others⟩ := forall_mem_cons.mp each
      have own : replayItems message = front := by simp [replayItems, hasFront]
      rw [flatMap_cons, own, append_assoc] at split
      refine ⟨_, stripContinuation_some.mpr ⟨role, replay, front, _, hasReplay, hasFront, split, rfl⟩,
        ih.mpr (.inr ⟨_, rest, rfl, by simp, by simp, ?_⟩)⟩
      simpa using others

theorem suffix_continued [DecidableEq (SessionTurnMessage ProviderReplayState)]
    {attemptBase latestRequest : List (SessionTurnMessage ProviderReplayState)} :
    providerAssistantSuffixForLatestRequest assistant attemptBase latestRequest = some returned ↔
      ∃ continuation, latestRequest = attemptBase ++ continuation ∧
        Continued assistant continuation returned := by
  simp only [providerAssistantSuffixForLatestRequest, bind_eq_some_iff, stripFront_some,
    continued_iff]

end

theorem pureUserText_userText (text : Text) :
    pureUserText (SessionTurnMessage.userText text : SessionTurnMessage Replay) = some text := by
  simp [pureUserText, SessionTurnMessage.userText, textBlock]

theorem normalize_snoc (messages : List (SessionTurnMessage Replay))
    (message : SessionTurnMessage Replay) : normalizeProviderMessages (messages ++ [message]) =
      pushNormalized (normalizeProviderMessages messages) message := foldl_concat ..

theorem pushNormalized_alone
    (alone : pureUserText message = none ∨ out.getLast?.bind pureUserText = none) :
    pushNormalized out message = out ++ [message] := by
  unfold pushNormalized
  rcases alone with other | other
  · rw [other]
  · rw [other]
    cases pureUserText message <;> rfl

theorem pushNormalized_merge (pureLast : pureUserText last = some lastText)
    (pure : pureUserText message = some text) : pushNormalized (front ++ [last]) message =
      front ++ [.userText (lastText ++ separator ++ text)] := by
  simp [pushNormalized, pureLast, pure]

theorem pushNormalized_cases (out : List (SessionTurnMessage Replay))
    (message : SessionTurnMessage Replay) :
    pushNormalized out message = out ++ [message] ∧
      (pureUserText message = none ∨ out.getLast?.bind pureUserText = none) ∨
    ∃ front last lastText text, out = front ++ [last] ∧ pureUserText last = some lastText ∧
      pureUserText message = some text ∧
      pushNormalized out message = front ++ [.userText (lastText ++ separator ++ text)] := by
  cases own : pureUserText message with
  | none => exact .inl ⟨pushNormalized_alone (.inl own), .inl rfl⟩
  | some text =>
    cases behind : out.getLast?.bind pureUserText with
    | none => exact .inl ⟨pushNormalized_alone (.inr behind), .inr rfl⟩
    | some lastText =>
      obtain ⟨last, isLast, pureLast⟩ := bind_eq_some_iff.mp behind
      obtain ⟨front, rfl⟩ := List.getLast?_eq_some_iff.mp isLast
      exact .inr ⟨front, last, lastText, text, rfl, pureLast, rfl,
        pushNormalized_merge pureLast own⟩

theorem foldl_normalize (out messages : List (SessionTurnMessage Replay)) :
    (normalizeProviderMessages messages).foldl pushNormalized out =
      messages.foldl pushNormalized out := by
  induction messages using reverseRecOn with
  | nil => rfl
  | append_singleton messages message ih =>
    rw [normalize_snoc, foldl_concat, ← ih]
    rcases pushNormalized_cases (normalizeProviderMessages messages) message with
      ⟨kept, -⟩ | ⟨front, last, lastText, text, same, pureLast, pure, merged⟩
    · rw [kept, foldl_concat]
    · rw [merged, same, foldl_concat, foldl_concat]
      rcases pushNormalized_cases (front.foldl pushNormalized out) last with
        ⟨kept, alone⟩ | ⟨before, other, otherText, ownText, split, pureOther, pureOwn, joined⟩
      · have behind : (front.foldl pushNormalized out).getLast?.bind pureUserText = none :=
          alone.resolve_left (by simp [pureLast])
        rw [kept, pushNormalized_alone (.inr behind), pushNormalized_merge pureLast pure]
      · obtain rfl : lastText = ownText := Option.some.inj (pureLast.symm.trans pureOwn)
        rw [joined, split, pushNormalized_merge pureOther (pureUserText_userText _),
          pushNormalized_merge (pureUserText_userText _) pure]
        simp only [append_assoc]

theorem normalize_append (left right : List (SessionTurnMessage Replay)) :
    normalizeProviderMessages (left ++ right) =
      right.foldl pushNormalized (normalizeProviderMessages left) := foldl_append

theorem normalize_idem (messages : List (SessionTurnMessage Replay)) :
    normalizeProviderMessages (normalizeProviderMessages messages) =
      normalizeProviderMessages messages := foldl_normalize [] messages

theorem normalize_aligned (aligned : normalizeProviderMessages wire = normalizeProviderMessages raw) :
    normalizeProviderMessages (wire ++ normalizeProviderMessages suffix) =
      normalizeProviderMessages (raw ++ suffix) := by
  rw [normalize_append, normalize_append, aligned, foldl_normalize]

variable [DecidableEq (SessionTurnMessage Replay)]

structure RequestHistory (Replay : Type) where
  raw : List (SessionTurnMessage Replay)
  frozen : FrozenProviderRequestPrefix Replay

/-- `clear` stands for every place that writes the history anew. -/
inductive RequestAction (Replay : Type)
  | append (messages : List (SessionTurnMessage Replay))
  | advance (continuation : List (SessionTurnMessage Replay))
  | clear (rewritten : List (SessionTurnMessage Replay))

def RequestHistory.step (history : RequestHistory Replay) :
    RequestAction Replay → Option (RequestHistory Replay)
  | .append messages => some { history with raw := history.raw ++ messages }
  | .advance continuation => do
      let request ← history.frozen.project history.raw
      let latest := request ++ continuation
      let raw ← appendAdapterContinuationSuffixToRawHistory history.raw request latest
      return ⟨raw, history.frozen.advance raw latest⟩
  | .clear rewritten => some ⟨rewritten, history.frozen.clear⟩

def RequestAction.keeps : RequestAction Replay → Bool
  | clear _ => false
  | _ => true

structure Aligned (history : RequestHistory Replay) : Prop where
  front : history.frozen.rawMessages <+: history.raw
  meaning : normalizeProviderMessages history.frozen.wireMessages =
    normalizeProviderMessages history.frozen.rawMessages

structure Sends (history : RequestHistory Replay) (request : List (SessionTurnMessage Replay)) :
    Prop where
  projected : history.frozen.project history.raw = some request
  starts : history.frozen.wireMessages <+: request
  meaning : normalizeProviderMessages request = normalizeProviderMessages history.raw

variable {history : RequestHistory Replay}

theorem Aligned.sends (aligned : Aligned history) : ∃ request, Sends history request := by
  refine ⟨_, if_pos aligned.front, prefix_append _ _, ?_⟩
  obtain ⟨suffix, same⟩ := aligned.front
  rw [← same, drop_left]
  exact normalize_aligned aligned.meaning

theorem Aligned.step (aligned : Aligned history)
    (action : RequestAction Replay) : ∃ next, history.step action = some next ∧ Aligned next ∧
      (action.keeps = true → history.frozen.wireMessages <+: next.frozen.wireMessages) := by
  cases action with
  | append messages =>
    exact ⟨_, rfl, ⟨aligned.front.trans (prefix_append _ _), aligned.meaning⟩,
      fun _ => prefix_refl _⟩
  | clear rewritten => exact ⟨_, rfl, ⟨List.nil_prefix, rfl⟩, nofun⟩
  | advance continuation =>
    obtain ⟨request, projected, starts, meaning⟩ := aligned.sends
    have appended : appendAdapterContinuationSuffixToRawHistory history.raw request
        (request ++ continuation) = some (history.raw ++ continuation) := by
      rw [appendAdapterContinuationSuffixToRawHistory, stripFront,
        if_pos (prefix_append _ _), drop_left]
      rfl
    refine ⟨⟨history.raw ++ continuation, ⟨history.raw ++ continuation, request ++ continuation⟩⟩,
      ?_, ⟨prefix_refl _, ?_⟩, fun _ => starts.trans (prefix_append _ _)⟩
    · simp [RequestHistory.step, projected, appended, FrozenProviderRequestPrefix.advance]
    · rw [normalize_append, normalize_append, meaning]

theorem Aligned.run (aligned : Aligned history) (actions : List (RequestAction Replay)) :
    ∃ last, actions.foldlM RequestHistory.step history = some last ∧ Aligned last ∧
      (actions.all RequestAction.keeps = true →
        history.frozen.wireMessages <+: last.frozen.wireMessages) := by
  induction actions generalizing history with
  | nil => exact ⟨history, rfl, aligned, fun _ => prefix_refl _⟩
  | cons action rest ih =>
    obtain ⟨next, stepped, nextAligned, kept⟩ := aligned.step action
    obtain ⟨last, ran, lastAligned, later⟩ := ih nextAligned
    refine ⟨last, by rw [foldlM_cons, stepped]; exact ran, lastAligned, fun all => ?_⟩
    rw [all_cons, Bool.and_eq_true] at all
    exact (kept all.1).trans (later all.2)

variable {frozen : FrozenProviderRequestPrefix Replay}

theorem project_none : frozen.project messages = none ↔ ¬ frozen.rawMessages <+: messages := by
  simp [FrozenProviderRequestPrefix.project]

omit [DecidableEq (SessionTurnMessage Replay)] in
theorem aligned_new
    (made : FrozenProviderRequestPrefix.new messages frozenPrefixLen = some frozen) :
    Aligned ⟨messages, frozen⟩ := by
  unfold FrozenProviderRequestPrefix.new at made
  split_ifs at made
  obtain rfl := Option.some.inj made
  exact ⟨List.take_prefix _ _, rfl⟩

/-- A run of the turn loop: every request starts with what has been sent since the last clearing,
and means the history. -/
theorem request_prefix_kept [DecidableEq Json]
    [DecidableEq (SessionTurnMessage ProviderReplayState)] :
    (∀ (messages : List (SessionTurnMessage Replay)) frozenPrefixLen frozen
      (actions : List (RequestAction Replay)),
      FrozenProviderRequestPrefix.new messages frozenPrefixLen = some frozen →
      ∃ history request, actions.foldlM RequestHistory.step ⟨messages, frozen⟩ = some history ∧
        Sends history request ∧
        ∀ continuation (later : List (RequestAction Replay)), later.all RequestAction.keeps = true →
          ∃ last next, (.advance continuation :: later).foldlM RequestHistory.step history =
            some last ∧ Sends last next ∧ request ++ continuation <+: next) ∧
    (∀ messages : List (SessionTurnMessage Replay),
      normalizeProviderMessages (normalizeProviderMessages messages) =
        normalizeProviderMessages messages) ∧
    (∀ (frozen : FrozenProviderRequestPrefix Replay) messages,
      frozen.project messages = none ↔ ¬ frozen.rawMessages <+: messages) ∧
    ∀ assistant returned attemptBase latestRequest,
      (providerAssistantSuffixForLatestRequest assistant attemptBase latestRequest = some returned ↔
        ∃ continuation, latestRequest = attemptBase ++ continuation ∧
          Continued assistant continuation returned) ∧
      (providerAssistantSuffixForLatestRequest assistant attemptBase latestRequest = some returned →
        ∃ continuation, latestRequest = attemptBase ++ continuation ∧
          continuation.flatMap replayItems ++ replayItems returned = replayItems assistant) := by
  refine ⟨fun messages frozenPrefixLen frozen actions made => ?_, normalize_idem,
    fun _ _ => project_none, fun _ _ _ _ => ⟨suffix_continued, fun stripped => ?_⟩⟩
  rotate_left
  · obtain ⟨continuation, split, continued⟩ := suffix_continued.mp stripped
    exact ⟨continuation, split, continued.items⟩
  obtain ⟨history, ran, aligned, -⟩ := (aligned_new made).run actions
  obtain ⟨request, sends⟩ := aligned.sends
  refine ⟨history, request, ran, sends, fun continuation later kept => ?_⟩
  obtain ⟨next, stepped, nextAligned, -⟩ := aligned.step (.advance continuation)
  have wire : next.frozen.wireMessages = request ++ continuation := by
    simp only [RequestHistory.step, sends.projected, Option.bind_eq_bind, Option.bind_some] at stepped
    obtain ⟨raw, -, same⟩ := bind_eq_some_iff.mp stepped
    obtain rfl := Option.some.inj same
    rfl
  obtain ⟨last, ranLater, lastAligned, still⟩ := nextAligned.run later
  obtain ⟨final, lastSends⟩ := lastAligned.sends
  refine ⟨last, final, by rw [foldlM_cons, stepped]; exact ranLater, lastSends, ?_⟩
  rw [← wire]
  exact (still kept).trans lastSends.starts

def answer (items : List Json) : SessionTurnMessage ProviderReplayState :=
  ⟨assistantRole, [], some (.openAiResponses none items)⟩

open Classical in
theorem sent_part_is_cut : providerAssistantSuffixForLatestRequest (answer [.num 1, .num 2])
    [.userText []] [.userText [], answer [.num 1]] = some (answer [.num 2]) := by
  refine ((@request_prefix_kept ProviderReplayState _ _ _).2.2.2 _ _ _ _).1.mpr
    ⟨[answer [.num 1]], rfl, .inr ⟨.openAiResponses none [.num 1, .num 2], [.num 2], rfl, rfl, rfl, ?_⟩⟩
  rintro message (_ | ⟨_, ⟨⟩⟩)
  exact ⟨rfl, _, rfl⟩

end AgentClaimNetwork.Api
