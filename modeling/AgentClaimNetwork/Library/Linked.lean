import Mathlib.Data.List.Chain

/-!
Sequences in which some items ask for an answer in the next item: they can be put together
freely, and cut wherever nothing is asked.
-/

namespace AgentClaimNetwork.Library

variable {Item : Type*} {asks answers : Item → Prop} {fits : Item → Item → Prop}

structure Linked (asks answers : Item → Prop) (fits : Item → Item → Prop) (items : List Item) :
    Prop where
  first : ∀ item ∈ items.head?, ¬ answers item
  chain : items.IsChain fits
  last : ∀ item ∈ items.getLast?, ¬ asks item

theorem Linked.nil : Linked asks answers fits [] where
  first := by simp
  chain := List.IsChain.nil
  last := by simp

theorem Linked.single {item : Item} (asksNot : ¬ asks item) (answersNot : ¬ answers item) :
    Linked asks answers fits [item] where
  first := by simpa using answersNot
  chain := List.IsChain.singleton item
  last := by simpa using asksNot

theorem Linked.append (loose : ∀ left right, ¬ asks left → ¬ answers right → fits left right)
    (before : Linked asks answers fits left)
    (after : Linked asks answers fits right) : Linked asks answers fits (left ++ right) where
  first := by
    intro item head
    cases left with
    | nil => exact after.first item head
    | cons first rest => exact before.first item head
  chain := by
    rw [List.isChain_append]
    refine ⟨before.chain, after.chain, ?_⟩
    intro item isLast next isFirst
    exact loose item next (before.last item isLast) (after.first next isFirst)
  last := by
    intro item isLast
    rw [List.getLast?_append] at isLast
    cases found : right.getLast? with
    | none =>
      rw [found, Option.none_or] at isLast
      exact before.last item isLast
    | some final =>
      rw [found, Option.some_or, ← found] at isLast
      exact after.last item isLast

theorem Linked.split (tight : ∀ left right, fits left right → answers right → asks left)
    (linked : Linked asks answers fits (left ++ right))
    (quiet : ∀ item ∈ left.getLast?, ¬ asks item) :
    Linked asks answers fits left ∧ Linked asks answers fits right := by
  obtain ⟨before, after, joint⟩ := List.isChain_append.mp linked.chain
  constructor
  · refine ⟨?_, before, quiet⟩
    intro item head
    apply linked.first item
    cases left with
    | nil => cases head
    | cons first rest => exact head
  · refine ⟨?_, after, ?_⟩
    · intro item head answersIt
      cases found : left.getLast? with
      | none =>
        rw [List.getLast?_eq_none_iff] at found
        subst found
        exact linked.first item head answersIt
      | some final => exact quiet final found (tight final item (joint final found item head) answersIt)
    · intro item isLast
      apply linked.last item
      rw [List.getLast?_append, Option.mem_def.mp isLast, Option.some_or]
      rfl

theorem Linked.tail (tight : ∀ left right, fits left right → answers right → asks left)
    (linked : Linked asks answers fits (item :: rest)) (quiet : ¬ asks item) :
    Linked asks answers fits rest := by
  have joined : Linked asks answers fits ([item] ++ rest) := linked
  exact (joined.split tight (by simpa using quiet)).2

end AgentClaimNetwork.Library
