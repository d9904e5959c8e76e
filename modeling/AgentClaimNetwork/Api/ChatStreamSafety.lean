import AgentClaimNetwork.Api.ChatStream

/-!
What an accepted chat stream gives: the text that was shown, and the calls of every index put
together from their own fragments, however they were mixed.
-/

namespace AgentClaimNetwork.Api.ChatStream

open Library List
open ChatStreamAccumulator (applyChoice applyFrame applyFrames emitted finish fresh isDone)
open KeyedMap (empty get?)

def lastNonBlank (texts : List (Option Text)) : Option Text := (texts.filterMap nonBlank).getLast?

theorem lastNonBlank_snoc (texts : List (Option Text)) (text : Option Text) :
    lastNonBlank (texts ++ [text]) = (nonBlank text).or (lastNonBlank texts) := by
  unfold lastNonBlank
  rw [filterMap_append]
  cases found : nonBlank text with
  | none | some value => simp [found]

def drafted (fragments : List ChatStreamToolCallDelta) : ToolCallDraft :=
  fragments.foldl ToolCallDraft.add {}

theorem drafted_eq (fragments : List ChatStreamToolCallDelta) : drafted fragments =
    { id := lastNonBlank (fragments.map (·.id))
      kind := lastNonBlank (fragments.map (·.kind))
      name := lastNonBlank (fragments.map fun delta => delta.function.bind (·.name))
      arguments := fragments.flatMap fun delta =>
        (delta.function.bind (·.arguments)).getD [] } := by
  induction fragments using reverseRecOn with
  | nil => rfl
  | append_singleton fragments delta ih =>
    have step : drafted (fragments ++ [delta]) = (drafted fragments).add delta :=
      foldl_concat ..
    simp [step, ih, ToolCallDraft.add, lastNonBlank_snoc]

def fragmentsAt (fragments : List ChatStreamToolCallDelta) (index : Nat) :
    List ChatStreamToolCallDelta :=
  fragments.filter fun delta => delta.index = some index

def Explicit (fragments : List ChatStreamToolCallDelta) : Prop :=
  ∀ delta ∈ fragments, delta.index.isSome = true

theorem drafts_get? {fragments : List ChatStreamToolCallDelta} (explicit : Explicit fragments)
    (index : Nat) : get? (fragments.foldl Drafts.apply empty) index =
      if fragmentsAt fragments index = [] then none
      else some (index, drafted (fragmentsAt fragments index)) := by
  induction fragments using reverseRecOn with
  | nil => rfl
  | append_singleton fragments delta ih =>
    have before := ih fun other member => explicit other (mem_append_left _ member)
    obtain ⟨own, isOwn⟩ := Option.isSome_iff_exists.mp (explicit delta (by simp))
    rw [foldl_concat, Drafts.apply, KeyedMap.get?_insert, isOwn, Option.getD_some]
    unfold fragmentsAt at before ⊢
    rw [filter_append, filter_singleton, isOwn]
    by_cases same : own = index
    · subst same
      rw [if_pos rfl, before]
      by_cases first : (fragments.filter fun delta => delta.index = some own) = []
      all_goals simp [first, drafted]
    · simp [same, before]

section

variable {Value : Type} {parse : Text → Option (ChatStreamFrame Value)}

def choicesOf (parse : Text → Option (ChatStreamFrame Value)) (data : Text) :
    List ChatStreamChoice :=
  if isDone data then []
  else ((parse data).map (·.choices)).getD []

def fragments (parse : Text → Option (ChatStreamFrame Value)) (received : List Text) :
    List ChatStreamToolCallDelta :=
  (received.flatMap (choicesOf parse)).flatMap (·.delta.toolCalls)

def Finished (parse : Text → Option (ChatStreamFrame Value)) (received : List Text) : Prop :=
  ∃ choice ∈ received.flatMap (choicesOf parse), choice.finishReason.isSome = true

open ChatStreamAccumulator in
structure Added (state last : ChatStreamAccumulator Value) (choices : List ChatStreamChoice)
    (texts : List Text) : Prop where
  content : last.content = state.content ++ texts.flatten
  toolCalls : last.toolCalls =
    (choices.flatMap (·.delta.toolCalls)).foldl Drafts.apply state.toolCalls
  finish : last.finishReason.isSome = true ↔
    state.finishReason.isSome = true ∨ ∃ choice ∈ choices, choice.finishReason.isSome = true

theorem Added.trans (one : Added first second left texts) (two : Added second third right more) :
    Added first third (left ++ right) (texts ++ more) where
  content := by simp [two.content, one.content]
  toolCalls := by rw [two.toolCalls, one.toolCalls, flatMap_append, foldl_append]
  finish := by
    rw [two.finish, one.finish]
    simp only [mem_append, or_and_right, exists_or, or_assoc]

theorem applyChoice_added :
    Added state (state.applyChoice choice) [choice] (emitted choice) where
  content := by
    cases shown : choice.delta.content with
    | none => simp [applyChoice, emitted, shown]
    | some text =>
      cases text with
      | nil | cons => simp [applyChoice, emitted, shown]
  toolCalls := by simp [applyChoice]
  finish := by simp [applyChoice, or_comm]

theorem applyChoices_added (state : ChatStreamAccumulator Value) :
    Added state (choices.foldl applyChoice state) choices
      (choices.flatMap emitted) := by
  induction choices generalizing state with
  | nil => exact ⟨by simp, rfl, by simp⟩
  | cons choice rest ih => exact (applyChoice_added).trans (ih _)

variable {data : Text}

theorem applyFrame_added {state next : ChatStreamAccumulator Value}
    (accepted : state.applyFrame parse data = .ok (next, texts)) :
    Added state next (choicesOf parse data) texts ∧
      (state.finishReason.isSome = true → choicesOf parse data = []) := by
  unfold applyFrame at accepted
  unfold choicesOf
  split_ifs at accepted ⊢
  · cases accepted
    exact ⟨⟨by simp, rfl, by simp⟩, fun _ => rfl⟩
  · cases parsed : parse data with
    | none => simp [parsed] at accepted
    | some frame =>
      simp only [parsed, Option.map_some, Option.getD_some] at accepted ⊢
      cases failed : frame.error with
      | some error => simp [failed] at accepted
      | none =>
        simp only [failed] at accepted
        split_ifs at accepted with late
        cases accepted
        obtain ⟨content, toolCalls, finish⟩ := applyChoices_added
          { state with usage := frame.usage.or state.usage }
        exact ⟨⟨content, toolCalls, finish⟩, fun ended => by simpa [ended] using late⟩

variable {state last : ChatStreamAccumulator Value}

theorem applyFrames_cons (accepted : state.applyFrames parse (data :: rest) = .ok (last, texts)) :
    ∃ next first later, state.applyFrame parse data = .ok (next, first) ∧
      next.applyFrames parse rest = .ok (last, later) ∧ texts = first ++ later := by
  unfold applyFrames at accepted
  cases one : state.applyFrame parse data with
  | error => simp [one] at accepted
  | ok step =>
    obtain ⟨next, first⟩ := step
    simp only [one] at accepted
    cases more : next.applyFrames parse rest with
    | error => simp [more] at accepted
    | ok run =>
      obtain ⟨final, later⟩ := run
      simp only [more] at accepted
      cases accepted
      exact ⟨next, first, later, rfl, more, rfl⟩

theorem applyFrames_added (accepted : state.applyFrames parse received = .ok (last, texts)) :
    Added state last (received.flatMap (choicesOf parse)) texts := by
  induction received generalizing state texts with
  | nil =>
    cases accepted
    exact ⟨by simp, rfl, by simp⟩
  | cons data rest ih =>
    obtain ⟨next, first, later, one, more, rfl⟩ := applyFrames_cons accepted
    exact (applyFrame_added one).1.trans (ih more)

theorem applyFrames_ended {before after texts : List Text}
    (accepted : state.applyFrames parse (before ++ data :: after) = .ok (last, texts))
    (ended : state.finishReason.isSome = true ∨ Finished parse before) :
    choicesOf parse data = [] := by
  induction before generalizing state texts with
  | nil =>
    obtain ⟨_, _, _, one, _⟩ := applyFrames_cons accepted
    exact (applyFrame_added one).2 (ended.resolve_right fun ⟨_, member, _⟩ => by simp at member)
  | cons first rest ih =>
    obtain ⟨next, _, _, one, more, _⟩ := applyFrames_cons accepted
    refine ih more ?_
    rw [(applyFrame_added one).1.finish]
    rcases ended with already | ⟨choice, member, reason⟩
    · exact .inl (.inl already)
    · rw [flatMap_cons, mem_append] at member
      rcases member with now | later
      · exact .inl (.inr ⟨choice, now, reason⟩)
      · exact .inr ⟨choice, later, reason⟩

end

section

variable {Value : Type} {parse : Text → Option (ChatStreamFrame Value)}

structure Assembled (own : List ChatStreamToolCallDelta) (call : ChatToolCall) : Prop where
  used : own ≠ []
  id : lastNonBlank (own.map (·.id)) = some call.id
  kind : (lastNonBlank (own.map (·.kind))).getD "function".toList = call.kind
  name : lastNonBlank (own.map fun delta => delta.function.bind (·.name)) =
    some call.function.name
  arguments : (own.flatMap fun delta => (delta.function.bind (·.arguments)).getD []) =
    call.function.arguments

theorem toToolCall_ok (made : @ToolCallDraft.toToolCall Value draft index = .ok call) :
    draft.id = some call.id ∧
      draft.kind.getD "function".toList = call.kind ∧ draft.name = some call.function.name ∧
      draft.arguments = call.function.arguments := by
  unfold ToolCallDraft.toToolCall at made
  cases id : draft.id with
  | none => simp [id] at made
  | some value =>
    cases name : draft.name with
    | none => simp [id, name] at made
    | some other =>
      simp only [id, name] at made
      cases made
      exact ⟨rfl, rfl, rfl, rfl⟩

theorem mapM_ok {Item Result Failure : Type} {apply : Item → Except Failure Result}
    {items : List Item} {results : List Result} (all : items.mapM apply = .ok results) :
    List.Forall₂ (fun item result => apply item = .ok result) items results := by
  induction items generalizing results with
  | nil =>
    cases all
    exact .nil
  | cons item rest ih =>
    rw [mapM_cons] at all
    cases one : apply item with
    | error => simp [one, bind, Except.bind] at all
    | ok result =>
      cases more : rest.mapM apply with
      | error => simp [one, more, bind, Except.bind] at all
      | ok others =>
        simp only [one, more, bind, Except.bind, pure, Except.pure] at all
        cases all
        exact .cons one (ih more)

theorem forall_calls {fragments : List ChatStreamToolCallDelta} (explicit : Explicit fragments)
    (stored : ∀ entry ∈ entries, entry ∈ (fragments.foldl Drafts.apply empty).values)
    (made : List.Forall₂ (fun entry call =>
      @ToolCallDraft.toToolCall Value entry.2 entry.1 = .ok call) entries calls) :
    List.Forall₂ (fun index call => Assembled (fragmentsAt fragments index) call)
      (entries.map Prod.fst) calls := by
  induction made with
  | nil => exact .nil
  | @cons entry call _ _ one _ ih =>
    refine .cons ?_ (ih fun other member => stored other (mem_cons_of_mem _ member))
    have found := KeyedMap.get?_eq_some.mpr ⟨stored entry mem_cons_self, rfl⟩
    rw [drafts_get? explicit] at found
    split_ifs at found with unused
    have draft : drafted (fragmentsAt fragments entry.1) = entry.2 :=
      congrArg Prod.snd (Option.some.inj found)
    rw [drafted_eq] at draft
    obtain ⟨id, kind, name, arguments⟩ := toToolCall_ok one
    rw [← draft] at id kind name arguments
    exact ⟨unused, id, kind, name, arguments⟩

theorem mem_indices {fragments : List ChatStreamToolCallDelta} (explicit : Explicit fragments)
    (index : Nat) :
    index ∈ (fragments.foldl Drafts.apply empty).values.map Prod.fst ↔
      ∃ delta ∈ fragments, delta.index = some index := by
  have found := drafts_get? explicit index
  unfold fragmentsAt at found
  constructor
  · intro member
    by_contra unused
    rw [if_pos (filter_eq_nil_iff.mpr fun delta inside same =>
      unused ⟨delta, inside, of_decide_eq_true same⟩)] at found
    obtain ⟨entry, stored, named⟩ := mem_map.mp member
    exact KeyedMap.get?_eq_none.mp found entry stored named
  · rintro ⟨delta, member, named⟩
    rw [if_neg (ne_nil_of_mem (mem_filter.mpr ⟨member, decide_eq_true named⟩))] at found
    exact mem_map.mpr ⟨_, (KeyedMap.get?_eq_some.mp found).1, rfl⟩

variable {response : ChatCompletionResponse Value}

theorem finish_ok {state : ChatStreamAccumulator Value} (finished : state.finish = .ok response) :
    response.content.getD [] = state.content ∧
      state.toolCalls.values.mapM (fun entry => @ToolCallDraft.toToolCall Value entry.2 entry.1) =
        .ok response.toolCalls := by
  unfold finish at finished
  split at finished
  · cases finished
  · split at finished
    · cases finished
    · rename_i calls all
      cases finished
      refine ⟨?_, all⟩
      cases state.content <;> rfl

theorem finish_again {state other : ChatStreamAccumulator Value}
    (finished : state.finish = .ok response)
    (ended : other.finishReason.isSome = true) (same : other.toolCalls = state.toolCalls) :
    ∃ again, other.finish = .ok again ∧ again.toolCalls = response.toolCalls := by
  obtain ⟨reason, isReason⟩ := Option.isSome_iff_exists.mp ended
  have calls := (finish_ok finished).2
  unfold finish
  rw [isReason, same]
  simp only [calls]
  exact ⟨_, rfl, rfl⟩

theorem fragments_perm (perm : other.Perm received) (member : delta ∈ fragments parse other) :
    delta ∈ fragments parse received := by
  simp only [fragments, mem_flatMap] at member ⊢
  obtain ⟨choice, ⟨data, inside, ofData⟩, ofChoice⟩ := member
  exact ⟨choice, ⟨data, perm.subset inside, ofData⟩, ofChoice⟩

/-- The shown texts make the content, and the pieces of each index its call, in any order of the
frames that keeps the pieces of an index in theirs. -/
theorem chat_stream_assembled {received texts : List Text} {state : ChatStreamAccumulator Value}
    {response : ChatCompletionResponse Value}
    (accepted : ChatStreamAccumulator.fresh.applyFrames parse received = .ok (state, texts))
    (finished : state.finish = .ok response) :
    (∀ before data after, received = before ++ data :: after → Finished parse before →
      choicesOf parse data = []) ∧
    response.content.getD [] = texts.flatten ∧
    (Explicit (fragments parse received) →
      (∃ indices : List Nat, indices.Pairwise (· < ·) ∧
        (∀ index, index ∈ indices ↔ ∃ delta ∈ fragments parse received, delta.index = some index) ∧
        List.Forall₂ (fun index call => Assembled (fragmentsAt (fragments parse received) index) call)
          indices response.toolCalls) ∧
      ∀ (other shown : List Text) (last : ChatStreamAccumulator Value), other.Perm received →
        (∀ index, fragmentsAt (fragments parse other) index =
          fragmentsAt (fragments parse received) index) →
        ChatStreamAccumulator.fresh.applyFrames parse other = .ok (last, shown) →
        ∃ again, last.finish = .ok again ∧ again.toolCalls = response.toolCalls) := by
  have added := applyFrames_added accepted
  obtain ⟨content, calls⟩ := finish_ok finished
  refine ⟨?_, ?_, fun explicit => ⟨?_, ?_⟩⟩
  · rintro before data after rfl ended
    exact applyFrames_ended accepted (.inr ended)
  · rw [content, added.content]
    rfl
  · have drafts : state.toolCalls = (fragments parse received).foldl Drafts.apply empty :=
      added.toolCalls
    refine ⟨state.toolCalls.values.map Prod.fst, ?_, ?_, ?_⟩
    · exact pairwise_map.mpr state.toolCalls.sorted
    · rw [drafts]
      exact mem_indices explicit
    · exact forall_calls explicit (fun entry member => drafts ▸ member) (mapM_ok calls)
  · intro other shown last perm same again
    have also := applyFrames_added again
    have explicitOther : Explicit (fragments parse other) := fun delta member =>
      explicit delta (fragments_perm perm member)
    refine finish_again finished ?_ ?_
    · have ended : state.finishReason.isSome = true := by
        unfold finish at finished
        cases reason : state.finishReason with
        | none => simp [reason] at finished
        | some => rfl
      rw [added.finish] at ended
      obtain ⟨choice, member, reason⟩ := ended.resolve_left (by simp [fresh])
      exact also.finish.mpr (.inr ⟨choice, (perm.flatMap_right _).mem_iff.mpr member, reason⟩)
    · rw [also.toolCalls, added.toolCalls]
      apply KeyedMap.ext_get?
      intro index
      exact (drafts_get? explicitOther index).trans
        ((same index).symm ▸ (drafts_get? explicit index).symm)

end

namespace Sample

def part (index : Nat) (id name : Option Text) (arguments : Text) : ChatStreamToolCallDelta :=
  ⟨some index, id, none, some ⟨name, some arguments⟩⟩

def frame (content : Option Text) (parts : List ChatStreamToolCallDelta)
    (reason : Option ChatFinishReason) : ChatStreamFrame Unit :=
  ⟨[⟨⟨none, content, none, parts⟩, reason⟩], none, none⟩

/-- Two calls, each in two pieces that alternate. -/
def parse : Text → Option (ChatStreamFrame Unit)
  | ['a'] => some (frame (some ['h', 'i']) [part 1 (some ['d']) (some ['g']) ['{']] none)
  | ['b'] => some (frame none [part 0 (some ['c']) (some ['f']) ['[']] none)
  | ['c'] => some (frame none [part 1 none none ['}']] none)
  | ['d'] => some (frame none [part 0 none none [']']] none)
  | ['e'] => some (frame none [] (some .toolCalls))
  | _ => none

def received : List Text := [['a'], ['b'], ['c'], ['d'], ['e']]

def reordered : List Text := [['b'], ['d'], ['a'], ['c'], ['e']]

theorem reordered_fragments (index : Nat) :
    fragmentsAt (fragments parse reordered) index = fragmentsAt (fragments parse received) index := by
  show fragmentsAt [_, _, _, _] index = fragmentsAt [_, _, _, _] index
  rcases index with _ | _ | index <;> simp [fragmentsAt, part]

theorem call_assembled : ∃ (state : ChatStreamAccumulator Unit)
    (response : ChatCompletionResponse Unit),
    ChatStreamAccumulator.fresh.applyFrames parse received = .ok (state, [['h', 'i']]) ∧
    state.finish = .ok response ∧ response.content.getD [] = ['h', 'i'] ∧
    (∃ indices : List Nat, indices.Pairwise (· < ·) ∧
      (∀ index, index ∈ indices ↔ ∃ delta ∈ fragments parse received, delta.index = some index) ∧
      List.Forall₂ (fun index call => Assembled (fragmentsAt (fragments parse received) index) call)
        indices response.toolCalls) ∧
    ∃ (last : ChatStreamAccumulator Unit) (again : ChatCompletionResponse Unit),
      ChatStreamAccumulator.fresh.applyFrames parse reordered = .ok (last, [['h', 'i']]) ∧
      last.finish = .ok again ∧ again.toolCalls = response.toolCalls := by
  refine ⟨_, _, rfl, rfl, ?_⟩
  obtain ⟨-, content, calls⟩ := @chat_stream_assembled Unit parse received _ _ _ rfl rfl
  obtain ⟨assembled, reorders⟩ := calls (show ∀ delta ∈ [_, _, _, _], _ by simp [part])
  obtain ⟨again, finished, same⟩ := reorders reordered _ _ (by decide) reordered_fragments rfl
  exact ⟨content, assembled, _, again, rfl, finished, same⟩

end Sample

end AgentClaimNetwork.Api.ChatStream
