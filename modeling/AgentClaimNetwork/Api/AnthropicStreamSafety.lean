import AgentClaimNetwork.Api.AnthropicStream

/-!
What an accepted stream of events assembles: each content block from its own deltas, and the
merged text from all text deltas in the order in which they came.
-/

namespace AgentClaimNetwork.Api.AnthropicStream

open Library List

variable {parse : Text → Option Json}

inductive Step
  | messageStart
  | start (index : Nat) (block : Json)
  | delta (index : Nat) (kind : DeltaKind) (text : Text)
  | stop (index : Nat)
  | silent
  | messageStop

namespace Step

/-- What makes an event of the stream such a step. -/
def Of (event : Json) : Step → Prop
  | messageStart => getStr typeName event = some "message_start".toList
  | start index block => getStr typeName event = some "content_block_start".toList ∧
      (event.get? "index".toList).bind Json.asU64 = some index ∧
      event.get? "content_block".toList = some block
  | delta index kind text => getStr typeName event = some "content_block_delta".toList ∧
      (event.get? "index".toList).bind Json.asU64 = some index ∧
      ∃ delta, event.get? "delta".toList = some delta ∧
        (getStr typeName delta).bind DeltaKind.ofName = some kind ∧
        getStr kind.field delta = some text
  | stop index => getStr typeName event = some "content_block_stop".toList ∧
      (event.get? "index".toList).bind Json.asU64 = some index
  | silent => getStr typeName event = some "message_delta".toList ∨
      getStr typeName event = some "ping".toList
  | messageStop => getStr typeName event = some "message_stop".toList

def isMessageStart : Step → Bool
  | messageStart => true
  | _ => false

def started : Step → Option Nat
  | start index _ => some index
  | _ => none

def index : Step → Option Nat
  | start index _ | delta index _ _ | stop index => some index
  | _ => none

def textDelta : Step → Option (Nat × Text)
  | delta index .text text => some (index, text)
  | _ => none

end Step

def stepsAt (steps : List Step) (index : Nat) : List Step :=
  steps.filter (·.index = some index)

def shownText {Usage : Type} : SessionTurnEvent Usage → Text
  | .assistantTextDelta text => text
  | _ => []

def textOf (steps : List Step) : Text := (steps.filterMap Step.textDelta).flatMap Prod.snd
variable {block : StreamingBlock}

variable {index : Nat}

section

variable {Usage : Type} {readers : Readers Usage} {turn next : StreamingAssistantTurn}
  {event : Json} {shown : List (SessionTurnEvent Usage)}

/-- What is stored of a block that ends. -/
def Closes (parse : Text → Option Json) (block : StreamingBlock) (value : Json) : Prop :=
  if getStr typeName block.value = some "tool_use".toList ∧ !LineLog.isBlank block.inputJson then
    ∃ input, parse block.inputJson = some input ∧ value = insert inputName input block.value
  else value = block.value

inductive Moves (parse : Text → Option Json) (turn : StreamingAssistantTurn) :
    Step → StreamingAssistantTurn → Prop
  | messageStart (usage : Option Json) : turn.sawMessageStart = false →
      Moves parse turn .messageStart { turn with sawMessageStart := true, usage := usage }
  | start (block : Json) : Moves parse turn (.start turn.blocks.length block)
      { turn with blocks := turn.blocks ++ [⟨block, [], false⟩] }
  | delta (index : Nat) (block : StreamingBlock) (kind : DeltaKind) (text : Text) :
      turn.blocks[index]? = some block → block.finished = false →
      getStr typeName block.value = some kind.blockType →
      Moves parse turn (.delta index kind text)
        { turn with
          blocks := turn.blocks.set index (block.add kind text)
          mergedText := turn.mergedText ++ if kind = .text then text else [] }
  | stop (index : Nat) (block : StreamingBlock) (value : Json) :
      turn.blocks[index]? = some block → block.finished = false → Closes parse block value →
      Moves parse turn (.stop index)
        { turn with blocks := turn.blocks.set index ⟨value, block.inputJson, true⟩ }
  | silent (stopReason : Option Text) (usage : Option Json) :
      Moves parse turn .silent { turn with stopReason := stopReason, usage := usage }
  | messageStop : turn.sawMessageStart = true →
      Moves parse turn .messageStop { turn with sawMessageStop := true }

open StreamingAssistantTurn

theorem sseIndex_ok (ok : sseIndex event = .ok index) :
    (event.get? "index".toList).bind Json.asU64 = some index := by
  unfold sseIndex at ok
  split at ok
  · cases ok
  · cases ok
    assumption

theorem blockMut_ok (ok : turn.blockMut index = .ok block) :
    turn.blocks[index]? = some block ∧ block.finished = false := by
  unfold blockMut at ok
  split at ok
  · cases ok
  · split_ifs at ok with open_
    cases ok
    exact ⟨by assumption, by simpa using open_⟩

theorem applyContentDelta_moves {index : Nat} {delta : Json}
    (applied : turn.applyContentDelta index delta = .ok (next, shown)) :
    ∃ kind text, (getStr typeName delta).bind DeltaKind.ofName = some kind ∧
      getStr kind.field delta = some text ∧
      Moves readers.parse turn (.delta index kind text) next ∧
      shown.flatMap shownText = if kind = .text then text else [] := by
  obtain ⟨block, found, applied⟩ := bind_ok applied
  obtain ⟨held, isOpen⟩ := blockMut_ok found
  cases known : (getStr typeName delta).bind DeltaKind.ofName with
  | none =>
    rw [known] at applied
    cases applied
  | some kind =>
    rw [known] at applied
    dsimp only at applied
    by_cases same : getStr typeName block.value = some kind.blockType
    · rw [if_neg (not_not.mpr same)] at applied
      cases given : getStr kind.field delta with
      | none =>
        rw [given] at applied
        cases applied
      | some text =>
        rw [given] at applied
        cases applied
        refine ⟨kind, text, rfl, given, .delta index block kind text held isOpen same, ?_⟩
        by_cases isText : kind = .text <;> by_cases empty : text = [] <;>
          simp [isText, empty, shownText]
    · rw [if_pos same] at applied
      cases applied

theorem finishBlock_moves (finished : turn.finishBlock readers index = .ok next) :
    Moves readers.parse turn (.stop index) next := by
  obtain ⟨block, found, finished⟩ := bind_ok finished
  obtain ⟨held, isOpen⟩ := blockMut_ok found
  split_ifs at finished with wanted
  · split at finished
    · cases finished
    · rename_i input parsed
      cases finished
      refine .stop index block _ held isOpen ?_
      rw [Closes, if_pos wanted]
      exact ⟨input, parsed, rfl⟩
  · cases finished
    refine .stop index block _ held isOpen ?_
    rw [Closes, if_neg wanted]

theorem shownText_usage (usages : List Usage) :
    (usages.map SessionTurnEvent.contextUsageUpdated).flatMap shownText = [] := by
  induction usages with
  | nil => rfl
  | cons usage rest ih => exact ih

/-- Everything an accepted event can do. -/
theorem applyEvent_moves (applied : applyEvent readers turn event = .ok (next, shown)) :
    turn.sawMessageStop = false ∧ ∃ step, Step.Of event step ∧ Moves readers.parse turn step next ∧
      shown.flatMap shownText = textOf [step] := by
  unfold applyEvent at applied
  by_cases stopped : turn.sawMessageStop = true
  · rw [if_pos stopped] at applied
    cases applied
  rw [if_neg stopped] at applied
  refine ⟨by simpa using stopped, ?_⟩
  by_cases isStart : getStr typeName event = some "message_start".toList
  · rw [if_pos isStart] at applied
    by_cases again : turn.sawMessageStart = true
    · rw [if_pos again] at applied
      cases applied
    rw [if_neg again] at applied
    refine ⟨.messageStart, isStart, ?_⟩
    split at applied
    · cases applied
      exact ⟨.messageStart turn.usage (by simpa using again), rfl⟩
    · cases applied
      exact ⟨.messageStart _ (by simpa using again), shownText_usage _⟩
  rw [if_neg isStart] at applied
  by_cases isBlock : getStr typeName event = some "content_block_start".toList
  · rw [if_pos isBlock] at applied
    obtain ⟨index, given, applied⟩ := bind_ok applied
    split at applied
    · cases applied
    · rename_i block found
      obtain ⟨last, begun, applied⟩ := bind_ok applied
      cases applied
      unfold startBlock at begun
      split_ifs at begun with fits
      cases begun
      obtain rfl := not_not.mp fits
      exact ⟨.start _ block, ⟨isBlock, sseIndex_ok given, found⟩, .start block, rfl⟩
  rw [if_neg isBlock] at applied
  by_cases isDelta : getStr typeName event = some "content_block_delta".toList
  · rw [if_pos isDelta] at applied
    obtain ⟨index, given, applied⟩ := bind_ok applied
    split at applied
    · cases applied
    · rename_i delta found
      obtain ⟨kind, text, isKind, isText, moves, shows⟩ :=
        @applyContentDelta_moves _ readers _ _ _ _ _ applied
      refine ⟨.delta index kind text, ⟨isDelta, sseIndex_ok given, delta, found, isKind, isText⟩,
        moves, ?_⟩
      rw [shows]
      cases kind <;> simp [textOf, Step.textDelta]
  rw [if_neg isDelta] at applied
  by_cases isStop : getStr typeName event = some "content_block_stop".toList
  · rw [if_pos isStop] at applied
    obtain ⟨index, given, applied⟩ := bind_ok applied
    obtain ⟨last, finished, applied⟩ := bind_ok applied
    cases applied
    exact ⟨.stop index, ⟨isStop, sseIndex_ok given⟩, finishBlock_moves finished, rfl⟩
  rw [if_neg isStop] at applied
  by_cases isUpdate : getStr typeName event = some "message_delta".toList
  · rw [if_pos isUpdate] at applied
    cases applied
    exact ⟨.silent, .inl isUpdate, .silent _ _, rfl⟩
  rw [if_neg isUpdate] at applied
  by_cases isEnd : getStr typeName event = some "message_stop".toList
  · split_ifs at applied with begun
    cases applied
    exact ⟨.messageStop, isEnd, .messageStop begun, shownText_usage _⟩
  rw [if_neg isEnd] at applied
  by_cases isPing : getStr typeName event = some "ping".toList
  · rw [if_pos isPing] at applied
    cases applied
    exact ⟨.silent, .inr isPing, .silent _ _, rfl⟩
  split_ifs at applied

end

section

variable {origin value : Json} {deltas : List (DeltaKind × Text)}

def piecesOf (kind : DeltaKind) (deltas : List (DeltaKind × Text)) : Text :=
  (deltas.filter (·.1 = kind)).flatMap Prod.snd

/-- Every field but the input: its start value followed by the deltas that are for it. -/
structure Fills (origin : Json) (deltas : List (DeltaKind × Text)) (value : Json) : Prop where
  kinds : ∀ delta ∈ deltas, getStr typeName origin = some delta.1.blockType
  text : ∀ kind, kind ≠ .inputJson → (getStr kind.field value).getD [] =
    (getStr kind.field origin).getD [] ++ piecesOf kind deltas
  rest : ∀ name, name ≠ inputName →
    (∀ delta ∈ deltas, delta.1 = .inputJson ∨ delta.1.field ≠ name) →
    value.get? name = origin.get? name

/-- The input is what the pieces read as, unless they are blank. -/
def InputOf (parse : Text → Option Json) (origin : Json) (pieces : Text) (value : Json) : Prop :=
  if getStr typeName origin = some "tool_use".toList ∧ !LineLog.isBlank pieces then
    ∃ input, parse pieces = some input ∧ value.get? inputName = some input
  else value.get? inputName = origin.get? inputName

theorem get?_insert (typed : getStr typeName value = some kind) (name other : Text) (item : Json) :
    (insert name item value).get? other =
      if other = name then some item else value.get? other := by
  cases value with
  | obj fields => exact Json.get?_insertField
  | _ => cases typed

theorem field_ne_type (kind : DeltaKind) : kind.field ≠ typeName := by
  cases kind <;> decide

theorem field_ne_input (kind : DeltaKind) : kind.field ≠ inputName := by
  cases kind <;> decide

theorem field_injective {kind other : DeltaKind} (same : kind.field = other.field) :
    kind = other := by
  cases kind <;> cases other <;> first | rfl | exact absurd same (by decide)

theorem Fills.fresh : Fills origin [] origin :=
  ⟨nofun, fun _ _ => (append_nil _).symm, fun _ _ _ => rfl⟩

theorem Fills.type (fills : Fills origin deltas value) :
    getStr typeName value = getStr typeName origin := by
  unfold getStr
  rw [fills.rest typeName (by decide) fun delta _ => .inr (field_ne_type delta.1)]

theorem piecesOf_snoc (kind : DeltaKind) (delta : DeltaKind × Text) :
    piecesOf kind (deltas ++ [delta]) =
      piecesOf kind deltas ++ if delta.1 = kind then delta.2 else [] := by
  by_cases same : delta.1 = kind <;> simp [piecesOf, same]

theorem Fills.add {kind : DeltaKind} (fills : Fills origin deltas block.value)
    (typed : getStr typeName block.value = some kind.blockType) (text : Text) :
    Fills origin (deltas ++ [(kind, text)]) (block.add kind text).value ∧
      (block.add kind text).value.get? inputName = block.value.get? inputName ∧
      (block.add kind text).inputJson =
        block.inputJson ++ if kind = .inputJson then text else [] := by
  have kinds : ∀ delta ∈ deltas ++ [(kind, text)],
      getStr typeName origin = some delta.1.blockType := by
    refine forall_mem_append.mpr ⟨fills.kinds, forall_mem_singleton.mpr ?_⟩
    rw [← fills.type, typed]
  by_cases isInput : kind = .inputJson
  · subst isInput
    refine ⟨⟨kinds, fun other apart => ?_, fun name notInput untouched => ?_⟩, rfl, rfl⟩
    · rw [piecesOf_snoc, if_neg (Ne.symm apart), append_nil]
      exact fills.text other apart
    · exact fills.rest name notInput fun delta member =>
        untouched delta (mem_append_left _ member)
  · have added : block.add kind text =
        { block with value := appendJsonStringField block.value kind.field text } := by
      cases kind <;> first | rfl | exact absurd rfl isInput
    have read := get?_insert typed kind.field
    rw [added, appendJsonStringField]
    refine ⟨⟨kinds, fun other apart => ?_, fun name notInput untouched => ?_⟩, ?_, ?_⟩
    · have before := fills.text other apart
      rw [piecesOf_snoc]
      by_cases same : kind = other
      · subst same
        rw [if_pos rfl, getStr, read, if_pos rfl, ← append_assoc, ← before]
        rfl
      · rw [if_neg same, append_nil, ← before, getStr, read,
          if_neg fun equal => same (field_injective equal).symm]
        rfl
    · have apart := (untouched (kind, text) (by simp)).resolve_left isInput
      rw [read, if_neg (Ne.symm apart)]
      exact fills.rest name notInput fun delta member =>
        untouched delta (mem_append_left _ member)
    · rw [read, if_neg (field_ne_input kind).symm]
    · rw [if_neg isInput, append_nil]

theorem Fills.close {block : StreamingBlock} (fills : Fills origin deltas block.value)
    (same : block.value.get? inputName = origin.get? inputName)
    (closes : Closes parse block value) :
    Fills origin deltas value ∧ InputOf parse origin block.inputJson value := by
  unfold Closes at closes
  rw [fills.type] at closes
  unfold InputOf
  split_ifs at closes ⊢ with wanted
  · obtain ⟨input, parsed, rfl⟩ := closes
    have read := get?_insert (fills.type.trans wanted.1) inputName
    refine ⟨⟨fills.kinds, fun kind apart => ?_, fun name notInput untouched => ?_⟩,
      input, parsed, ?_⟩
    · rw [getStr, read, if_neg (field_ne_input kind)]
      exact fills.text kind apart
    · rw [read, if_neg notInput]
      exact fills.rest name notInput untouched
    · rw [read, if_pos rfl]
  · subst closes
    exact ⟨fills, same⟩

end

section

variable {steps : List Step} {taken : Step} {turn next : StreamingAssistantTurn}
  {blocks : List StreamingBlock} {merged : Text}

/-- The steps of one block, in the order in which they came. -/
def history (index : Nat) (origin : Json) (deltas : List (DeltaKind × Text)) (finished : Bool) :
    List Step :=
  .start index origin :: (deltas.map fun delta => .delta index delta.1 delta.2) ++
    if finished then [.stop index] else []

structure Held (parse : Text → Option Json) (steps : List Step) (index : Nat) (origin : Json)
    (deltas : List (DeltaKind × Text)) (block : StreamingBlock) : Prop where
  steps : stepsAt steps index = history index origin deltas block.finished
  fills : Fills origin deltas block.value
  pieces : block.inputJson = piecesOf .inputJson deltas
  input : if block.finished then InputOf parse origin block.inputJson block.value
    else block.value.get? inputName = origin.get? inputName

structure Tracks (parse : Text → Option Json) (steps : List Step) (blocks : List StreamingBlock)
    (merged : Text) : Prop where
  numbered : steps.filterMap Step.started = range blocks.length
  held : ∀ index block, blocks[index]? = some block →
    ∃ origin deltas, Held parse steps index origin deltas block
  others : ∀ index, blocks.length ≤ index → stepsAt steps index = []
  merged : merged = textOf steps

structure Framed (steps : List Step) (turn : StreamingAssistantTurn) : Prop where
  begun : (steps.filter Step.isMessageStart).length = if turn.sawMessageStart then 1 else 0
  running : turn.sawMessageStop = false → .messageStop ∉ steps
  ended : turn.sawMessageStop = true →
    ∃ before, steps = before ++ [.messageStop] ∧ .messageStop ∉ before

theorem stepsAt_snoc (taken : Step) (index : Nat) : stepsAt (steps ++ [taken]) index =
    stepsAt steps index ++ if taken.index = some index then [taken] else [] := by
  by_cases same : taken.index = some index <;> simp [stepsAt, same]

theorem textOf_snoc (taken : Step) : textOf (steps ++ [taken]) = textOf steps ++ textOf [taken] := by
  simp [textOf]

theorem Framed.step (framed : Framed steps turn) (running : turn.sawMessageStop = false)
    (moves : Moves parse turn taken next) : Framed (steps ++ [taken]) next := by
  have none := framed.running running
  have begun := framed.begun
  cases moves with
  | messageStart usage fresh =>
    rw [fresh] at begun
    refine ⟨?_, fun _ => by simp [none], fun ended => by
      rw [running] at ended
      cases ended⟩
    rw [filter_append, length_append, begun]
    rfl
  | messageStop =>
    exact ⟨by simpa [Step.isMessageStart] using begun, nofun, fun _ => ⟨steps, rfl, none⟩⟩
  | start | delta | stop | silent =>
    exact ⟨by simpa [Step.isMessageStart] using begun, fun _ => by simp [none], fun ended => by
      rw [running] at ended
      cases ended⟩

theorem Tracks.quiet (tracks : Tracks parse steps blocks merged) (noIndex : taken.index = none) :
    Tracks parse (steps ++ [taken]) blocks merged := by
  have same : ∀ index, stepsAt (steps ++ [taken]) index = stepsAt steps index := by
    intro index
    rw [stepsAt_snoc, noIndex, if_neg nofun, append_nil]
  constructor
  · rw [filterMap_append, tracks.numbered]
    cases taken with
    | start | delta | stop => cases noIndex
    | messageStart | silent | messageStop => simp [Step.started]
  · intro index block found
    obtain ⟨origin, deltas, held⟩ := tracks.held index block found
    exact ⟨origin, deltas, (same index).trans held.steps, held.fills, held.pieces, held.input⟩
  · exact fun index beyond => (same index).trans (tracks.others index beyond)
  · rw [textOf_snoc, ← tracks.merged]
    cases taken with
    | start | delta | stop => cases noIndex
    | messageStart | silent | messageStop => exact (append_nil _).symm

theorem Tracks.start (tracks : Tracks parse steps blocks merged) :
    Tracks parse (steps ++ [.start blocks.length origin]) (blocks ++ [⟨origin, [], false⟩])
      merged := by
  constructor
  · rw [filterMap_append, tracks.numbered, length_append, length_singleton,
      range_succ]
    rfl
  · intro index block found
    rcases Nat.lt_trichotomy index blocks.length with below | rfl | above
    · rw [List.getElem?_append_left below] at found
      obtain ⟨first, deltas, held⟩ := tracks.held index block found
      refine ⟨first, deltas, ?_, held.fills, held.pieces, held.input⟩
      rw [stepsAt_snoc, held.steps, if_neg (by simp [Step.index]; omega), append_nil]
    · rw [List.getElem?_append_right (Nat.le_refl _), Nat.sub_self] at found
      cases found
      refine ⟨origin, [], ?_, Fills.fresh, rfl, rfl⟩
      rw [stepsAt_snoc, tracks.others _ (Nat.le_refl _), Step.index, if_pos rfl]
      rfl
    · rw [List.getElem?_eq_none (by simp; omega)] at found
      cases found
  · intro index beyond
    rw [length_append, length_singleton] at beyond
    rw [stepsAt_snoc, tracks.others index (by omega), if_neg (by simp [Step.index]; omega)]
    rfl
  · rw [textOf_snoc, ← tracks.merged]
    exact (append_nil _).symm

/-- A step of one block that was started leaves the others alone. -/
theorem Tracks.set {index : Nat} {before after : StreamingBlock} {text : Text}
    (tracks : Tracks parse steps blocks merged) (isBlock : blocks[index]? = some before)
    (own : taken.index = some index) (noStart : taken.started = none) (shows : textOf [taken] = text)
    (held : ∃ origin deltas, Held parse (steps ++ [taken]) index origin deltas after) :
    Tracks parse (steps ++ [taken]) (blocks.set index after) (merged ++ text) := by
  have inside : index < blocks.length := (List.getElem?_eq_some_iff.mp isBlock).1
  constructor
  · rw [filterMap_append, tracks.numbered, length_set]
    simp [noStart]
  · intro other block found
    by_cases same : index = other
    · subst same
      rw [List.getElem?_set_self inside] at found
      cases found
      exact held
    · rw [List.getElem?_set_ne same] at found
      obtain ⟨origin, deltas, kept⟩ := tracks.held other block found
      refine ⟨origin, deltas, ?_, kept.fills, kept.pieces, kept.input⟩
      rw [stepsAt_snoc, kept.steps, own, if_neg (by simpa using same), append_nil]
  · intro other beyond
    rw [length_set] at beyond
    rw [stepsAt_snoc, tracks.others other beyond, own, if_neg (by simp; omega)]
    rfl
  · rw [textOf_snoc, shows, tracks.merged]

theorem Tracks.step (tracks : Tracks parse steps turn.blocks turn.mergedText)
    (moves : Moves parse turn taken next) :
    Tracks parse (steps ++ [taken]) next.blocks next.mergedText := by
  cases moves with
  | messageStart | silent | messageStop => exact tracks.quiet rfl
  | start origin => exact tracks.start
  | delta index block kind text isBlock isOpen typed =>
    refine tracks.set isBlock rfl rfl (by cases kind <;> simp [textOf, Step.textDelta]) ?_
    obtain ⟨origin, deltas, held⟩ := tracks.held index block isBlock
    obtain ⟨fills, same, pieces⟩ := held.fills.add typed text
    have input := held.input
    have still : (block.add kind text).finished = false := by cases kind <;> exact isOpen
    refine ⟨origin, deltas ++ [(kind, text)], ?_, fills, ?_, ?_⟩
    · rw [stepsAt_snoc, held.steps, isOpen, still, Step.index, if_pos rfl]
      simp [history]
    · rw [pieces, held.pieces, piecesOf_snoc]
    · rw [still, if_neg Bool.false_ne_true, same]
      simpa [isOpen] using input
  | stop index block value isBlock isOpen closes =>
    have ended := @Tracks.set _ _ (.stop index) _ _ _ _ ⟨value, block.inputJson, true⟩ [] tracks
      isBlock rfl rfl rfl ?_
    · rwa [append_nil] at ended
    obtain ⟨origin, deltas, held⟩ := tracks.held index block isBlock
    have input := held.input
    rw [isOpen, if_neg Bool.false_ne_true] at input
    obtain ⟨fills, closed⟩ := held.fills.close input closes
    refine ⟨origin, deltas, ?_, fills, held.pieces, closed⟩
    rw [stepsAt_snoc, held.steps, isOpen, Step.index, if_pos rfl]
    simp [history]

open StreamingAssistantTurn

variable {Usage : Type} {readers : Readers Usage} {events : List Json}
  {shown : List (SessionTurnEvent Usage)} {result : ContinuedAssistantTurn}

theorem applyEvents_tracks
    (applied : applyEvents readers turn events = .ok (next, shown)) (framed : Framed steps turn)
    (tracks : Tracks readers.parse steps turn.blocks turn.mergedText) :
    ∃ more, List.Forall₂ Step.Of events more ∧ Framed (steps ++ more) next ∧
      Tracks readers.parse (steps ++ more) next.blocks next.mergedText ∧
      shown.flatMap shownText = textOf more := by
  induction events generalizing turn steps shown with
  | nil =>
    cases applied
    refine ⟨[], .nil, ?_, ?_, rfl⟩ <;> rwa [append_nil]
  | cons event rest ih =>
    obtain ⟨⟨middle, first⟩, taken, applied⟩ := bind_ok applied
    obtain ⟨⟨last, later⟩, remaining, applied⟩ := bind_ok applied
    cases applied
    obtain ⟨running, step, isStep, moves, shows⟩ := applyEvent_moves taken
    obtain ⟨more, are, ends, tracked, showLater⟩ :=
      ih remaining (framed.step running moves) (tracks.step moves)
    rw [append_assoc, singleton_append] at ends tracked
    refine ⟨step :: more, .cons isStep are, ends, tracked, ?_⟩
    rw [flatMap_append, shows, showLater]
    simp [textOf, ← flatMap_append, ← filterMap_append]

theorem finish_ok (finished : turn.finish = .ok result) :
    turn.sawMessageStop = true ∧ turn.sawMessageStart = true ∧
      (∀ block ∈ turn.blocks, block.finished = true) ∧
      result.finalBlocks = turn.blocks.map StreamingBlock.value ∧
      result.mergedText = turn.mergedText := by
  unfold StreamingAssistantTurn.finish at finished
  split_ifs at finished with stopped started whole
  split at finished
  · cases finished
  · cases finished
    exact ⟨by simpa using stopped, by simpa using started, by simpa using whole, rfl, rfl⟩

def blockText (value : Json) : Text :=
  if getStr typeName value = some "text".toList then (getStr DeltaKind.text.field value).getD []
  else []

structure Assembled (parse : Text → Option Json) (steps : List Step)
    (result : ContinuedAssistantTurn) : Prop where
  begun : (steps.filter Step.isMessageStart).length = 1
  ended : ∃ before, steps = before ++ [.messageStop] ∧ .messageStop ∉ before
  numbered : steps.filterMap Step.started = range result.finalBlocks.length
  blocks : ∀ index value, result.finalBlocks[index]? = some value → ∃ origin deltas,
    stepsAt steps index = history index origin deltas true ∧ Fills origin deltas value ∧
      InputOf parse origin (piecesOf .inputJson deltas) value
  others : ∀ index, result.finalBlocks.length ≤ index → stepsAt steps index = []
  merged : result.mergedText = textOf steps

/-- No text block starts with text, and text comes to the blocks in their order. -/
structure TextInOrder (steps : List Step) : Prop where
  empty : ∀ index origin, .start index origin ∈ steps → blockText origin = []
  sorted : (steps.filterMap Step.textDelta).Pairwise fun first later => first.1 ≤ later.1

theorem flatMap_filter_key {Item : Type} {items : List (Nat × Item)} {count : Nat}
    (sorted : items.Pairwise fun first later => first.1 ≤ later.1)
    (bounded : ∀ item ∈ items, item.1 < count) :
    (range count).flatMap (fun key => items.filter (·.1 = key)) = items := by
  induction count generalizing items with
  | zero =>
    rw [eq_nil_iff_forall_not_mem.mpr fun item member =>
      absurd (bounded item member) (Nat.not_lt_zero _)]
    rfl
  | succ count ih =>
    have cut : items.filter (·.1 < count) ++ items.filter (·.1 = count) = items := by
      induction items with
      | nil => rfl
      | cons item rest ih =>
        have inner := ih (pairwise_cons.mp sorted).2 fun other member =>
          bounded other (mem_cons_of_mem _ member)
        rcases Nat.lt_or_eq_of_le (Nat.le_of_lt_succ (bounded item mem_cons_self))
          with below | here
        · simpa [below, Nat.ne_of_lt below] using inner
        · have none : rest.filter (·.1 < count) = [] := by
            rw [filter_eq_nil_iff]
            intro other member less
            have := (pairwise_cons.mp sorted).1 other member
            simp only [decide_eq_true_eq] at less
            omega
          simpa [here, none] using inner
    have below := ih (sorted.filter (·.1 < count)) fun item member => by
      simpa using (mem_filter.mp member).2
    rw [range_succ, flatMap_append, flatMap_singleton]
    conv_rhs => rw [← cut, ← below]
    congr 1
    refine flatMap_congr fun key inRange => ?_
    rw [filter_filter]
    refine filter_congr fun item _ => ?_
    have := mem_range.mp inRange
    by_cases same : item.1 = key <;> simp [same, this]

theorem textDelta_at (index : Nat) : (steps.filterMap Step.textDelta).filter (·.1 = index) =
    (stepsAt steps index).filterMap Step.textDelta := by
  rw [stepsAt, filter_filterMap, filterMap_filter]
  refine filterMap_congr fun step _ => ?_
  cases step with
  | delta own kind text =>
    by_cases same : own = index <;> cases kind <;> simp [Step.textDelta, Step.index, same]
  | _ => simp [Step.textDelta]

theorem text_history (index : Nat) (origin : Json) (deltas : List (DeltaKind × Text)) :
    ((history index origin deltas true).filterMap Step.textDelta).flatMap Prod.snd =
      piecesOf .text deltas := by
  have steps : ((deltas.map fun delta => Step.delta index delta.1 delta.2).filterMap
      Step.textDelta).flatMap Prod.snd = piecesOf .text deltas := by
    induction deltas with
    | nil => rfl
    | cons delta rest ih =>
      obtain ⟨kind, text⟩ := delta
      cases kind with
      | text => simpa [Step.textDelta, piecesOf] using ih
      | _ => exact ih
  have ended : [Step.stop index].filterMap Step.textDelta = [] := rfl
  rw [history, filterMap_append, if_pos rfl, ended, append_nil]
  exact steps

theorem Assembled.text_at (assembled : Assembled parse steps result) (inOrder : TextInOrder steps)
    {value : Json} (isFinal : result.finalBlocks[index]? = some value) : blockText value =
      ((steps.filterMap Step.textDelta).filter (·.1 = index)).flatMap Prod.snd := by
  obtain ⟨origin, deltas, own, fills, _⟩ := assembled.blocks index value isFinal
  have started : .start index origin ∈ steps := by
    have member : .start index origin ∈ stepsAt steps index := by simp [own, history]
    exact (mem_filter.mp member).1
  rw [textDelta_at, own, text_history]
  unfold blockText
  have empty := inOrder.empty index origin started
  unfold blockText at empty
  rw [fills.type]
  split_ifs at empty ⊢ with isText
  · rw [fills.text .text nofun, empty, nil_append]
  · symm
    unfold piecesOf
    rw [flatMap_eq_nil_iff]
    intro delta member
    obtain ⟨given, kind⟩ := mem_filter.mp member
    have typed := fills.kinds delta given
    rw [show delta.1 = .text from of_decide_eq_true kind] at typed
    exact absurd typed isText

theorem Assembled.in_order (assembled : Assembled parse steps result)
    (inOrder : TextInOrder steps) : result.mergedText = result.finalBlocks.flatMap blockText := by
  have bounded : ∀ item ∈ steps.filterMap Step.textDelta, item.1 < result.finalBlocks.length := by
    intro item member
    by_contra beyond
    have none := @textDelta_at steps item.1
    rw [assembled.others item.1 (Nat.le_of_not_lt beyond)] at none
    exact filter_eq_nil_iff.mp none item member (by simp)
  have texts : result.finalBlocks.map blockText = (range result.finalBlocks.length).map
      fun index => ((steps.filterMap Step.textDelta).filter (·.1 = index)).flatMap Prod.snd := by
    refine ext_getElem (by simp) fun index inside _ => ?_
    rw [length_map] at inside
    rw [getElem_map, getElem_map, getElem_range]
    exact assembled.text_at inOrder (List.getElem?_eq_getElem inside)
  rw [assembled.merged, textOf, flatMap_def (f := blockText), texts]
  conv_lhs => rw [← flatMap_filter_key inOrder.sorted bounded]
  rw [flatMap_assoc]
  rfl

/-- What an accepted stream leaves, and when the shown text is that of the text blocks. -/
theorem anthropic_stream_assembled
    (applied : applyEvents readers StreamingAssistantTurn.fresh events = .ok (turn, shown))
    (finished : turn.finish = .ok result) :
    ∃ steps, List.Forall₂ Step.Of events steps ∧ Assembled readers.parse steps result ∧
      shown.flatMap shownText = result.mergedText ∧
      (TextInOrder steps → result.mergedText = result.finalBlocks.flatMap blockText) := by
  have framed : Framed [] StreamingAssistantTurn.fresh := ⟨rfl, nofun, nofun⟩
  have tracks : Tracks readers.parse [] StreamingAssistantTurn.fresh.blocks
      StreamingAssistantTurn.fresh.mergedText := ⟨rfl, nofun, fun _ _ => rfl, rfl⟩
  obtain ⟨steps, are, framed, tracks, shows⟩ := applyEvents_tracks applied framed tracks
  rw [nil_append] at framed tracks
  obtain ⟨stopped, started, whole, final, merged⟩ := finish_ok finished
  have assembled : Assembled readers.parse steps result := by
    have length : result.finalBlocks.length = turn.blocks.length := by
      rw [final, length_map]
    refine ⟨by rw [framed.begun, started, if_pos rfl], framed.ended stopped, ?_, ?_, ?_, ?_⟩
    · rw [length, tracks.numbered]
    · intro index value isFinal
      rw [final, List.getElem?_map, Option.map_eq_some_iff] at isFinal
      obtain ⟨block, isBlock, rfl⟩ := isFinal
      obtain ⟨origin, deltas, held⟩ := tracks.held index block isBlock
      have ended := whole block (mem_of_getElem? isBlock)
      have own := held.steps
      have input := held.input
      rw [ended] at own
      rw [ended, if_pos rfl, held.pieces] at input
      exact ⟨origin, deltas, own, held.fills, input⟩
    · rw [length]
      exact tracks.others
    · rw [merged, tracks.merged]
  exact ⟨steps, are, assembled, by rw [shows, assembled.merged], assembled.in_order⟩

end

namespace Interleaved

open StreamingAssistantTurn

def event (kind : String) (fields : List (Text × Json)) : Json :=
  .obj ((typeName, .str kind.toList) :: fields)

def at_ (index : Int) (name : String) (value : Json) : List (Text × Json) :=
  [("index".toList, .num index), (name.toList, value)]

def textBlock : Json := .obj [(typeName, .str "text".toList), ("text".toList, .str [])]

def textDelta (text : String) : Json :=
  .obj [(typeName, .str "text_delta".toList), ("text".toList, .str text.toList)]

def events : List Json :=
  [event "message_start" [],
    event "content_block_start" (at_ 0 "content_block" textBlock),
    event "content_block_start" (at_ 1 "content_block" textBlock),
    event "content_block_delta" (at_ 1 "delta" (textDelta "b")),
    event "content_block_delta" (at_ 0 "delta" (textDelta "a")),
    event "content_block_stop" (at_ 0 "delta" .null),
    event "content_block_stop" (at_ 1 "delta" .null),
    event "message_delta" [("delta".toList, .obj [("stop_reason".toList, .str "end_turn".toList)])],
    event "message_stop" []]

def readers : Readers Unit := ⟨fun _ => none, fun _ => none, fun _ => none⟩

/-- The second of two open text blocks gets its text first. -/
theorem shown_text_is_not_stored_text : ∃ turn shown result,
    applyEvents readers StreamingAssistantTurn.fresh events = .ok (turn, shown) ∧
    turn.finish = .ok result ∧ shown.flatMap shownText = "ba".toList ∧
    result.mergedText = "ba".toList ∧ result.finalBlocks.flatMap blockText = "ab".toList :=
  ⟨_, _, _, rfl, rfl, rfl, rfl, rfl⟩

theorem interleaved_assembled : ∃ turn shown result,
    applyEvents readers StreamingAssistantTurn.fresh events = .ok (turn, shown) ∧
    turn.finish = .ok result ∧ ∃ steps, List.Forall₂ Step.Of events steps ∧
      Assembled readers.parse steps result :=
  ⟨_, _, _, rfl, rfl, (anthropic_stream_assembled rfl rfl).imp fun _ known => ⟨known.1, known.2.1⟩⟩

end Interleaved

end AgentClaimNetwork.Api.AnthropicStream
