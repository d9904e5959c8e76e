import Mathlib.Data.List.TakeWhile
import AgentClaimNetwork.Library.Linked
import AgentClaimNetwork.Api.Message

/-!
Cutting a conversation into segments that a provider accepts on their own, from
`src/api/compaction_projection.rs`, and the law between tool calls and their results.
-/

namespace AgentClaimNetwork.Api

open Library List
open Library.ByteSlice (byteLen)

variable {Replay : Type} {message : SessionTurnMessage Replay}

structure MessageRange where
  start : Nat
  stop : Nat
deriving DecidableEq

structure ProviderProjectionBudget where
  tailTokenLimit : Nat
  tailHardTokenLimit : Nat
  tailPreviousRealUserTurns : Nat
  toolResultRawMaxChars : Nat

section

def largeToolResultOmissionText (originalChars : Nat) : Text :=
  ("[large tool_result omitted from raw compact tail; original_chars=" ++
    toString originalChars ++ ". The compaction summary keeps the key facts. " ++
    "Re-call the tool if exact output is needed.]").toList

def compactionInputToolResultOmissionText (originalChars : Nat) : Text :=
  ("[tool_result omitted from compaction summary input; original_chars=" ++
    toString originalChars ++ ". Exact output is unavailable in this request.]").toList

def projectBlockToolResultWith (toolResultRawMaxChars : Nat) (omissionText : Nat → Text) :
    SessionTurnContentBlock → SessionTurnContentBlock
  | .toolResult toolUseId content =>
    if toolResultRawMaxChars < content.length then
      .toolResult toolUseId (omissionText content.length)
    else .toolResult toolUseId content
  | block => block

def projectTurnMessageToolResultsWith (message : SessionTurnMessage Replay)
    (toolResultRawMaxChars : Nat) (omissionText : Nat → Text) : SessionTurnMessage Replay :=
  { message with
    content := message.content.map
      (projectBlockToolResultWith toolResultRawMaxChars omissionText) }

def projectTurnMessageToolResults (message : SessionTurnMessage Replay)
    (toolResultRawMaxChars : Nat) : SessionTurnMessage Replay :=
  projectTurnMessageToolResultsWith message toolResultRawMaxChars largeToolResultOmissionText

section

variable (messages : List (SessionTurnMessage Replay))

def projectTurnMessagesToolResults
    (toolResultRawMaxChars : Nat) : List (SessionTurnMessage Replay) :=
  messages.map fun message => projectTurnMessageToolResults message toolResultRawMaxChars

def projectCompactionInputToolResults
    (toolResultRawMaxChars : Nat) : List (SessionTurnMessage Replay) :=
  messages.map fun message =>
    projectTurnMessageToolResultsWith message toolResultRawMaxChars
      compactionInputToolResultOmissionText

def omitBlockToolResult : SessionTurnContentBlock → SessionTurnContentBlock
  | .toolResult toolUseId content =>
    .toolResult toolUseId (compactionInputToolResultOmissionText content.length)
  | block => block

def omitTurnMessagesToolResults : List (SessionTurnMessage Replay) :=
  messages.map fun message => { message with content := message.content.map omitBlockToolResult }

end

def compactionMediaMetadataMaxChars : Nat := 128

/-- `char::is_control`. -/
def isControl (character : Char) : Bool :=
  character.toNat < 0x20 || (0x7F ≤ character.toNat && character.toNat < 0xA0)

def boundedMediaMetadata (value : Text) : Text :=
  (value.take compactionMediaMetadataMaxChars).map fun character =>
    if isControl character then '\uFFFD' else character

/-- `base64Chars` is the length of the data in bytes. -/
def compactionInputMediaOmissionText (kind : String) (mediaType : Text) (filename : Option Text)
    (base64Chars : Nat) : Text :=
  ("[" ++ kind ++ " omitted from compaction summary input; media_type=").toList ++
    boundedMediaMetadata mediaType ++
    (match filename with
      | some filename => "; filename=".toList ++ boundedMediaMetadata filename
      | none => []) ++
    ("; base64_chars=" ++ toString base64Chars ++
      ". Exact media is unavailable in this request.]").toList

def projectBlockMedia : SessionTurnContentBlock → SessionTurnContentBlock
  | .image mediaType data =>
    .text (compactionInputMediaOmissionText "image" mediaType none (byteLen data))
  | .document mediaType data filename =>
    .text (compactionInputMediaOmissionText "document" mediaType filename (byteLen data))
  | block => block

def projectCompactionInputMedia (message : SessionTurnMessage Replay) : SessionTurnMessage Replay :=
  { message with
    content := message.content.map projectBlockMedia
    providerReplay := none }

end

section

def toolResultContainsAll (message : SessionTurnMessage Replay) (toolUseIds : List Text) : Bool :=
  toolUseIds.all fun id => message.content.any fun
    | .toolResult toolUseId _ => toolUseId = id
    | _ => false

def messageContainsToolResult (message : SessionTurnMessage Replay) : Bool :=
  message.content.any fun
    | .toolResult _ _ => true
    | _ => false

section

variable (messages : List (SessionTurnMessage Replay))

def providerAnchorEndIndex : Nat :=
  let contextEnd :=
    (messages.takeWhile fun message => message.modelContextSnapshot.isSome).length
  match messages[contextEnd]? with
  | some message =>
    if message.role = userRole ∧ message.modelContextSnapshot.isNone ∧
        messageContainsToolResult message = false then contextEnd + 1
    else max contextEnd (if messages.isEmpty then 0 else 1)
  | none => max contextEnd (if messages.isEmpty then 0 else 1)

/-- The loop of `provider_safe_segments` on what is left of the messages. -/
def safeSegmentsFrom : Nat → List (SessionTurnMessage Replay) → List MessageRange
  | _, [] => []
  | index, message :: rest =>
    if message.role = assistantRole then
      if message.toolUseIds.isEmpty then ⟨index, index + 1⟩ :: safeSegmentsFrom (index + 1) rest
      else match rest with
        | [] => []
        | toolResult :: later =>
          if toolResult.role ≠ userRole ∨
              toolResultContainsAll toolResult message.toolUseIds = false then []
          else ⟨index, index + 2⟩ :: safeSegmentsFrom (index + 2) later
    else if message.role = userRole ∧ messageContainsToolResult message = false then
      ⟨index, index + 1⟩ :: safeSegmentsFrom (index + 1) rest
    else []

def providerSafeSegments (activeSuffix : List (SessionTurnMessage Replay)) : List MessageRange :=
  safeSegmentsFrom (providerAnchorEndIndex activeSuffix)
    (activeSuffix.drop (providerAnchorEndIndex activeSuffix))

def isContextSegment (segment : MessageRange) : Bool :=
  segment.stop = segment.start + 1 &&
    (match messages[segment.start]? with
      | some message => message.modelContextSnapshot.isSome
      | none => false)

def trailingModelContextSegments (segments : List MessageRange) : Nat :=
  (segments.reverse.takeWhile (isContextSegment messages)).length

end

/-- `same` is the equality of messages. -/
def contextRecoveryProtectedTailFromMarker
    (same : SessionTurnMessage Replay → SessionTurnMessage Replay → Bool)
    (messages : List (SessionTurnMessage Replay)) (segments : List MessageRange)
    (marker : SessionTurnMessage Replay) : Option Nat :=
  (segments.findIdx? fun segment =>
    match messages[segment.start]? with
    | some message => same message marker
    | none => false).map fun markerSegment => segments.length - markerSegment

def activeSegmentMessages (activeSuffix : List (SessionTurnMessage Replay))
    (segments : List MessageRange) : List (SessionTurnMessage Replay) :=
  segments.flatMap fun range => (activeSuffix.take range.stop).drop range.start

def projectTailFrom (messages : List (SessionTurnMessage Replay)) (place : Nat)
    (protectedStart : Option Nat) (toolResultRawMaxChars : Nat) :
    List (SessionTurnMessage Replay) :=
  (messages.drop place).mapIdx fun offset message =>
    if protectedStart.any fun start => start ≤ place + offset then message
    else projectTurnMessageToolResults message toolResultRawMaxChars

/-- `tokens` is `estimate_session_turn_messages_tokens`. -/
def estimatedProjectedSegmentTokens (tokens : List (SessionTurnMessage Replay) → Nat)
    (activeSuffix : List (SessionTurnMessage Replay)) (segment : MessageRange)
    (toolResultRawMaxChars : Nat) : Nat :=
  tokens (projectTurnMessagesToolResults ((activeSuffix.take segment.stop).drop segment.start)
    toolResultRawMaxChars)

end

section

structure Shape where
  role : Text
  uses : List Text
  results : List Text

def Shape.Asks (shape : Shape) : Prop := shape.role = assistantRole ∧ shape.uses ≠ []

def Shape.Answers (shape : Shape) : Prop := shape.results ≠ []

section

variable (previous next : Shape)

def Shape.Answered : Prop :=
  previous.role = assistantRole → ∀ id ∈ previous.uses, next.role = userRole ∧ id ∈ next.results

def Shape.Asked : Prop :=
  ∀ id ∈ next.results, previous.role = assistantRole ∧ id ∈ previous.uses

def Shape.Fits : Prop :=
  previous.Answered next ∧ previous.Asked next

theorem Shape.fits_loose (quiet : ¬ previous.Asks)
    (silent : ¬ next.Answers) : previous.Fits next := by
  constructor
  · intro role id member
    exact absurd ⟨role, ne_nil_of_mem member⟩ quiet
  · intro id member
    exact absurd (ne_nil_of_mem member) silent

theorem Shape.fits_tight (fits : previous.Fits next) (answers : next.Answers) : previous.Asks := by
  obtain ⟨id, member⟩ := exists_mem_of_ne_nil _ answers
  obtain ⟨role, uses⟩ := fits.2 id member
  exact ⟨role, ne_nil_of_mem uses⟩

end

def SessionTurnMessage.shape (message : SessionTurnMessage Replay) : Shape :=
  ⟨message.role, message.toolUseIds, message.toolResultIds⟩

def Paired (messages : List (SessionTurnMessage Replay)) : Prop :=
  Linked Shape.Asks Shape.Answers Shape.Fits (messages.map SessionTurnMessage.shape)

theorem Paired.append (before : Paired left) (after : Paired right) : Paired (left ++ right) := by
  unfold Paired
  rw [map_append]
  exact Linked.append Shape.fits_loose before after

theorem Paired.split (paired : Paired (left ++ right))
    (quiet : ∀ message ∈ left.getLast?, ¬ message.shape.Asks) : Paired left ∧ Paired right := by
  unfold Paired at paired ⊢
  rw [map_append] at paired
  apply paired.split Shape.fits_tight
  intro shape isLast
  rw [List.getLast?_map, Option.mem_def, Option.map_eq_some_iff] at isLast
  obtain ⟨message, found, rfl⟩ := isLast
  exact quiet message found

theorem Paired.of_shapes (paired : Paired left)
    (same : right.map SessionTurnMessage.shape = left.map SessionTurnMessage.shape) :
    Paired right := by
  unfold Paired
  rwa [same]

theorem userRole_ne_assistantRole : userRole ≠ assistantRole := by decide

theorem paired_userText :
    Paired [(SessionTurnMessage.userText text : SessionTurnMessage Replay)] := by
  apply Linked.single
  · rintro ⟨role, _⟩
    exact absurd role userRole_ne_assistantRole
  · intro answers
    exact answers rfl

theorem messageContainsToolResult_eq_false :
    messageContainsToolResult message = false ↔ message.toolResultIds = [] := by
  unfold messageContainsToolResult SessionTurnMessage.toolResultIds
  rw [any_eq_false, filterMap_eq_nil_iff]
  constructor
  all_goals
    intro none block member
    have absent := none block member
    cases block <;> simp_all

theorem toolResultContainsAll_iff : toolResultContainsAll message toolUseIds = true ↔
      ∀ id ∈ toolUseIds, id ∈ message.toolResultIds := by
  unfold toolResultContainsAll SessionTurnMessage.toolResultIds
  rw [all_eq_true]
  refine forall₂_congr fun id _ => ?_
  rw [any_eq_true, mem_filterMap]
  constructor
  · rintro ⟨block, member, found⟩
    cases block with
    | toolResult toolUseId content => exact ⟨_, member, congrArg some (of_decide_eq_true found)⟩
    | _ => cases found
  · rintro ⟨block, member, found⟩
    cases block with
    | toolResult toolUseId content =>
      exact ⟨_, member, decide_eq_true (Option.some.inj found)⟩
    | _ => cases found

section

variable (message : SessionTurnMessage Replay) (limit : Nat)

theorem toolUseIds_projectWith (omissionText : Nat → Text) :
    (projectTurnMessageToolResultsWith message limit omissionText).toolUseIds =
      message.toolUseIds := by
  unfold SessionTurnMessage.toolUseIds projectTurnMessageToolResultsWith
  rw [filterMap_map]
  apply filterMap_congr
  intro block _
  cases block with
  | toolResult toolUseId content =>
    simp only [Function.comp_apply, projectBlockToolResultWith]
    split_ifs <;> rfl
  | _ => rfl

theorem toolResultIds_projectWith (omissionText : Nat → Text) :
    (projectTurnMessageToolResultsWith message limit omissionText).toolResultIds =
      message.toolResultIds := by
  unfold SessionTurnMessage.toolResultIds projectTurnMessageToolResultsWith
  rw [filterMap_map]
  apply filterMap_congr
  intro block _
  cases block with
  | toolResult toolUseId content =>
    simp only [Function.comp_apply, projectBlockToolResultWith]
    split_ifs <;> rfl
  | _ => rfl

@[simp] theorem shape_project :
    (projectTurnMessageToolResults message limit).shape = message.shape := by
  unfold SessionTurnMessage.shape projectTurnMessageToolResults
  rw [toolUseIds_projectWith, toolResultIds_projectWith]
  rfl

end

theorem projectTailFrom_getElem? (messages : List (SessionTurnMessage Replay)) (place limit : Nat)
    (protectedStart : Option Nat) (offset : Nat) :
    (projectTailFrom messages place protectedStart limit)[offset]? =
      messages[place + offset]?.map fun message =>
        if protectedStart.any fun start => start ≤ place + offset then message
        else projectTurnMessageToolResults message limit := by
  rw [projectTailFrom, List.getElem?_mapIdx, List.getElem?_drop]

theorem projectTailFrom_shapes :
    (projectTailFrom messages place protectedStart limit).map SessionTurnMessage.shape =
      (messages.drop place).map SessionTurnMessage.shape := by
  apply ext_getElem?
  intro index
  rw [List.getElem?_map, List.getElem?_map, projectTailFrom_getElem?, List.getElem?_drop,
    Option.map_map]
  cases messages[place + index]? with
  | none => rfl
  | some message =>
    simp only [Option.map_some, Function.comp_apply]
    split_ifs
    · rfl
    · rw [shape_project]

theorem projectTailFrom_drop (messages : List (SessionTurnMessage Replay)) (limit : Nat)
    (behind : place ≤ start) :
    (projectTailFrom messages place (some start) limit).drop (start - place) =
      messages.drop start := by
  apply ext_getElem?
  intro index
  rw [List.getElem?_drop, projectTailFrom_getElem?, List.getElem?_drop]
  have same : place + (start - place + index) = start + index := by omega
  rw [same]
  cases messages[start + index]? with
  | none => rfl
  | some message => simp

end

section

/-- The ranges are not empty and stand one behind the other from `start` to `stop`. -/
def Tiles : Nat → List MessageRange → Nat → Prop
  | start, [], stop => start = stop
  | start, range :: rest, stop =>
    range.start = start ∧ range.start < range.stop ∧ Tiles range.stop rest stop

variable {ranges : List MessageRange}

theorem Tiles.le (tiles : Tiles start ranges stop) : start ≤ stop := by
  induction ranges generalizing start with
  | nil => exact Nat.le_of_eq tiles
  | cons range rest ih =>
    obtain ⟨same, nonempty, later⟩ := tiles
    have bound := ih later
    omega

variable {range : MessageRange}

theorem Tiles.bounds (tiles : Tiles start ranges stop) (member : range ∈ ranges) :
    start ≤ range.start ∧ range.start < range.stop ∧ range.stop ≤ stop := by
  induction ranges generalizing start with
  | nil => cases member
  | cons head rest ih =>
    obtain ⟨same, nonempty, later⟩ := tiles
    rcases mem_cons.mp member with rfl | inRest
    · have bound := later.le
      omega
    · have bound := ih later inRest
      omega

theorem Tiles.split (tiles : Tiles start (left ++ right) stop) :
    ∃ middle, Tiles start left middle ∧ Tiles middle right stop := by
  induction left generalizing start with
  | nil => exact ⟨start, rfl, tiles⟩
  | cons head rest ih =>
    obtain ⟨same, nonempty, later⟩ := tiles
    obtain ⟨middle, before, after⟩ := ih later
    exact ⟨middle, ⟨same, nonempty, before⟩, after⟩

theorem Tiles.getLast (tiles : Tiles start ranges stop) (last : ranges.getLast? = some range) :
    range.stop = stop := by
  obtain ⟨front, rfl⟩ := List.getLast?_eq_some_iff.mp last
  obtain ⟨middle, _, _, _, ends⟩ := tiles.split
  exact ends

theorem safeSegmentsFrom_tiles {Replay : Type} (index : Nat)
    (messages : List (SessionTurnMessage Replay)) :
    ∃ stop, stop ≤ index + messages.length ∧ Tiles index (safeSegmentsFrom index messages) stop := by
  fun_induction safeSegmentsFrom index messages with
  | case1 index => exact ⟨index, Nat.le_refl _, rfl⟩
  | case2 index message rest _ _ ih =>
    obtain ⟨stop, bound, tiles⟩ := ih
    exact ⟨stop, by simp only [length_cons]; omega, rfl, Nat.lt_succ_self index, tiles⟩
  | case3 index message => exact ⟨index, Nat.le_add_right _ _, rfl⟩
  | case4 index message toolResult later => exact ⟨index, Nat.le_add_right _ _, rfl⟩
  | case5 index message toolResult later _ _ _ ih =>
    obtain ⟨stop, bound, tiles⟩ := ih
    refine ⟨stop, by simp only [length_cons]; omega, rfl, ?_, tiles⟩
    exact Nat.lt_add_of_pos_right (by decide)
  | case6 index message rest _ _ ih =>
    obtain ⟨stop, bound, tiles⟩ := ih
    exact ⟨stop, by simp only [length_cons]; omega, rfl, Nat.lt_succ_self index, tiles⟩
  | case7 index message rest => exact ⟨index, Nat.le_add_right _ _, rfl⟩

end

def CutAt (messages : List (SessionTurnMessage Replay)) (index place : Nat) : Prop :=
  Paired (messages.drop (place - index))

theorem CutAt.cons {message : SessionTurnMessage Replay} {rest : List (SessionTurnMessage Replay)}
    {index place : Nat} (behind : index + 1 ≤ place) (cut : CutAt rest (index + 1) place) :
    CutAt (message :: rest) index place := by
  unfold CutAt at cut ⊢
  have shift : place - index = (place - (index + 1)) + 1 := by omega
  rwa [shift, drop_succ_cons]

theorem Paired.tail (paired : Paired (message :: rest))
    (quiet : ¬ message.shape.Asks) : Paired rest :=
  Linked.tail Shape.fits_tight paired quiet

theorem Paired.head_results (paired : Paired (message :: rest)) : message.toolResultIds = [] := by
  have silent := paired.first message.shape rfl
  exact not_not.mp silent

theorem segments_cons {index next : Nat}
    {ranges : List MessageRange} (length : index + messages.length = next + rest.length)
    (whole : Paired messages) (ahead : index < next) (start : CutAt messages index next)
    (shifted : ∀ place, next ≤ place → CutAt rest next place → CutAt messages index place)
    (later : Tiles next ranges (next + rest.length) ∧
      ∀ range ∈ ranges, CutAt rest next range.start ∧ CutAt rest next range.stop) :
    Tiles index (⟨index, next⟩ :: ranges) (index + messages.length) ∧
      ∀ range ∈ (⟨index, next⟩ :: ranges : List MessageRange),
        CutAt messages index range.start ∧ CutAt messages index range.stop := by
  obtain ⟨tiles, cuts⟩ := later
  rw [length]
  refine ⟨⟨rfl, ahead, tiles⟩, ?_⟩
  intro range member
  rcases mem_cons.mp member with rfl | inRest
  · refine ⟨?_, start⟩
    unfold CutAt
    rwa [Nat.sub_self, drop_zero]
  · have bounds := tiles.bounds inRest
    obtain ⟨atStart, atStop⟩ := cuts range inRest
    exact ⟨shifted _ (by omega) atStart, shifted _ (by omega) atStop⟩

theorem segments_single
    (paired : Paired (message :: rest)) (quiet : ¬ message.shape.Asks)
    (later : Tiles (index + 1) (safeSegmentsFrom (index + 1) rest) (index + 1 + rest.length) ∧
      ∀ range ∈ safeSegmentsFrom (index + 1) rest,
        CutAt rest (index + 1) range.start ∧ CutAt rest (index + 1) range.stop) :
    Tiles index (⟨index, index + 1⟩ :: safeSegmentsFrom (index + 1) rest)
        (index + (message :: rest).length) ∧
      ∀ range ∈ (⟨index, index + 1⟩ :: safeSegmentsFrom (index + 1) rest : List MessageRange),
        CutAt (message :: rest) index range.start ∧ CutAt (message :: rest) index range.stop := by
  refine segments_cons ?_ paired (Nat.lt_succ_self index) ?_ (fun _ behind cut => cut.cons behind)
    later
  · simp only [length_cons]
    omega
  · refine CutAt.cons (Nat.le_refl _) ?_
    unfold CutAt
    rw [Nat.sub_self, drop_zero]
    exact paired.tail quiet

theorem safeSegmentsFrom_whole (index : Nat) (messages : List (SessionTurnMessage Replay))
    (paired : Paired messages)
    (roles : ∀ message ∈ messages, message.role = userRole ∨ message.role = assistantRole) :
    Tiles index (safeSegmentsFrom index messages) (index + messages.length) ∧
      ∀ range ∈ safeSegmentsFrom index messages,
        CutAt messages index range.start ∧ CutAt messages index range.stop := by
  fun_induction safeSegmentsFrom index messages with
  | case1 index => exact ⟨rfl, fun _ member => absurd member not_mem_nil⟩
  | case2 index message rest _ noUses ih =>
    have quiet : ¬ message.shape.Asks := by
      rintro ⟨_, uses⟩
      exact uses (isEmpty_iff.mp noUses)
    exact segments_single paired quiet
      (ih (paired.tail quiet) fun other member => roles other (mem_cons_of_mem _ member))
  | case3 index message isAssistant uses =>
    have asks : message.shape.Asks := ⟨isAssistant, fun none => uses (isEmpty_iff.mpr none)⟩
    exact absurd asks (paired.last message.shape rfl)
  | case4 index message isAssistant uses toolResult later broken =>
    -- the law gives the user message with all the results
    have fits : message.shape.Fits toolResult.shape := (isChain_cons_cons.mp paired.chain).1
    obtain ⟨id, member⟩ := exists_mem_of_ne_nil message.toolUseIds
      fun none => uses (isEmpty_iff.mpr none)
    have isUser : toolResult.role = userRole := (fits.1 isAssistant id member).1
    have all : toolResultContainsAll toolResult message.toolUseIds = true :=
      toolResultContainsAll_iff.mpr fun id member => (fits.1 isAssistant id member).2
    rcases broken with otherRole | missing
    · exact absurd isUser otherRole
    · rw [all] at missing
      cases missing
  | case5 index message isAssistant uses toolResult later complete ih =>
    have isUser : toolResult.role = userRole := by
      by_contra other
      exact complete (.inl other)
    have quiet : ¬ toolResult.shape.Asks := by
      rintro ⟨role, _⟩
      exact userRole_ne_assistantRole (isUser.symm.trans role)
    have joined : Paired ([message, toolResult] ++ later) := paired
    have rest : Paired later := by
      refine (joined.split ?_).2
      rintro last ⟨⟩
      exact quiet
    have shift : ∀ place, index + 2 ≤ place → CutAt later (index + 2) place →
        CutAt (message :: toolResult :: later) index place := by
      intro place behind cut
      exact CutAt.cons (by omega) (CutAt.cons behind cut)
    refine segments_cons ?_ paired (by omega) ?_ shift
      (ih rest fun other member => roles other (by simp [member]))
    · simp only [length_cons]
      omega
    · apply shift _ (Nat.le_refl _)
      unfold CutAt
      rwa [Nat.sub_self, drop_zero]
  | case6 index message rest notAssistant _ ih =>
    have quiet : ¬ message.shape.Asks := fun asks => notAssistant asks.1
    exact segments_single paired quiet
      (ih (paired.tail quiet) fun other member => roles other (mem_cons_of_mem _ member))
  | case7 index message rest notAssistant broken =>
    rcases roles message mem_cons_self with isUser | isAssistant
    · exact absurd ⟨isUser, messageContainsToolResult_eq_false.mpr paired.head_results⟩ broken
    · exact absurd isAssistant notAssistant

def FirstRealIsUser (messages : List (SessionTurnMessage Replay)) : Prop :=
  ∀ message, messages.find? (fun message => message.modelContextSnapshot.isNone) = some message →
    message.role = userRole

theorem leading_contexts (messages : List (SessionTurnMessage Replay)) :
    ∃ contexts rest, messages = contexts ++ rest ∧
      contexts = messages.takeWhile (fun message => message.modelContextSnapshot.isSome) ∧
      (∀ message ∈ contexts, message.modelContextSnapshot.isSome = true) ∧
      ∀ message ∈ rest.head?, message.modelContextSnapshot.isNone = true := by
  refine ⟨_, messages.dropWhile fun message => message.modelContextSnapshot.isSome,
    takeWhile_append_dropWhile.symm, rfl, ?_, ?_⟩
  · intro message member
    have taken := mem_takeWhile_imp
      (p := fun message : SessionTurnMessage Replay => message.modelContextSnapshot.isSome) member
    exact taken
  · intro message head
    have stopped := List.head?_dropWhile_not
      (fun message : SessionTurnMessage Replay => message.modelContextSnapshot.isSome) messages
    rw [Option.mem_def.mp head] at stopped
    simpa using stopped

theorem providerAnchorEndIndex_cases {messages contexts rest : List (SessionTurnMessage Replay)}
    (split : messages = contexts ++ rest)
    (leading : contexts = messages.takeWhile fun message => message.modelContextSnapshot.isSome) :
    (providerAnchorEndIndex messages = contexts.length ∧ (messages = [] ∨ contexts ≠ [])) ∨
      ∃ real later, rest = real :: later ∧
        providerAnchorEndIndex messages = contexts.length + 1 := by
  have place : messages[contexts.length]? = rest.head? := by
    rw [split, List.getElem?_append_right (Nat.le_refl _), Nat.sub_self, List.head?_eq_getElem?]
  have empty : messages.isEmpty = true ↔ messages = [] := isEmpty_iff
  unfold providerAnchorEndIndex
  simp only
  rw [← leading, place]
  cases rest with
  | nil =>
    left
    cases contexts with
    | nil =>
      subst split
      exact ⟨rfl, .inl rfl⟩
    | cons first later =>
      refine ⟨?_, .inr (cons_ne_nil _ _)⟩
      subst split
      simp
  | cons real later =>
    simp only [List.head?_cons]
    split_ifs with isUser isEmpty
    · exact .inr ⟨real, later, rfl, rfl⟩
    · rw [empty, split] at isEmpty
      exact absurd isEmpty (by simp)
    · cases contexts with
      | nil => exact .inr ⟨real, later, rfl, rfl⟩
      | cons first others =>
        refine .inl ⟨?_, .inr (cons_ne_nil _ _)⟩
        simp only [length_cons]
        omega

theorem providerAnchorEndIndex_le (messages : List (SessionTurnMessage Replay)) :
    providerAnchorEndIndex messages ≤ messages.length := by
  obtain ⟨contexts, rest, split, leading, _⟩ := leading_contexts messages
  have length := congrArg List.length split
  rw [length_append] at length
  rcases providerAnchorEndIndex_cases split leading with ⟨same, _⟩ | ⟨real, later, rfl, same⟩
  · omega
  · rw [length_cons] at length
    omega

theorem anchor_last_user (first : FirstRealIsUser messages) :
    ∀ message ∈ (messages.take (providerAnchorEndIndex messages)).getLast?,
      message.role = userRole := by
  obtain ⟨contexts, rest, split, leading, all, real⟩ := leading_contexts messages
  intro message isLast
  rcases providerAnchorEndIndex_cases split leading with ⟨same, _⟩ | ⟨head, later, rfl, same⟩
  · rw [same, split, take_left] at isLast
    exact SessionTurnMessage.modelContextSnapshot_role (all message (mem_of_getLast? isLast))
  · have taken : messages.take (contexts.length + 1) = contexts ++ [head] := by
      rw [split, take_length_add_append]
      rfl
    rw [same, taken, List.getLast?_concat, Option.mem_some_iff] at isLast
    rw [← isLast]
    apply first
    have none : contexts.find? (fun message => message.modelContextSnapshot.isNone) = none := by
      rw [List.find?_eq_none]
      intro context member
      have isContext := all context member
      cases found : context.modelContextSnapshot with
      | none =>
        rw [found] at isContext
        cases isContext
      | some snapshot => exact Bool.false_ne_true
    rw [split, List.find?_append, none, Option.none_or, List.find?_cons, real head rfl]

theorem anchor_paired (first : FirstRealIsUser messages) (paired : Paired messages) :
    Paired (messages.take (providerAnchorEndIndex messages)) ∧
      Paired (messages.drop (providerAnchorEndIndex messages)) := by
  have joined : Paired (messages.take (providerAnchorEndIndex messages) ++
      messages.drop (providerAnchorEndIndex messages)) := by
    rwa [take_append_drop]
  apply joined.split
  rintro message isLast ⟨isAssistant, _⟩
  exact userRole_ne_assistantRole ((anchor_last_user first message isLast).symm.trans isAssistant)

theorem providerSafeSegments_whole (first : FirstRealIsUser messages) (paired : Paired messages)
    (roles : ∀ message ∈ messages, message.role = userRole ∨ message.role = assistantRole) :
    Tiles (providerAnchorEndIndex messages) (providerSafeSegments messages) messages.length ∧
      ∀ range ∈ providerSafeSegments messages,
        Paired (messages.drop range.start) ∧ Paired (messages.drop range.stop) := by
  have bound := providerAnchorEndIndex_le messages
  obtain ⟨tiles, cuts⟩ := safeSegmentsFrom_whole (providerAnchorEndIndex messages)
    (messages.drop (providerAnchorEndIndex messages)) (anchor_paired first paired).2
    fun message member => roles message (mem_of_mem_drop member)
  have length : providerAnchorEndIndex messages +
      (messages.drop (providerAnchorEndIndex messages)).length = messages.length := by
    rw [length_drop]
    omega
  rw [length] at tiles
  refine ⟨tiles, ?_⟩
  intro range member
  have bounds := tiles.bounds member
  obtain ⟨atStart, atStop⟩ := cuts range member
  unfold CutAt at atStart atStop
  rw [drop_drop] at atStart atStop
  rw [Nat.add_sub_cancel' (by omega)] at atStart atStop
  exact ⟨atStart, atStop⟩

theorem providerSafeSegments_tiles (messages : List (SessionTurnMessage Replay)) :
    ∃ stop, stop ≤ messages.length ∧
      Tiles (providerAnchorEndIndex messages) (providerSafeSegments messages) stop := by
  have bound := providerAnchorEndIndex_le messages
  obtain ⟨stop, inside, tiles⟩ := safeSegmentsFrom_tiles (providerAnchorEndIndex messages)
    (messages.drop (providerAnchorEndIndex messages))
  rw [length_drop] at inside
  exact ⟨stop, by omega, tiles⟩

end AgentClaimNetwork.Api
