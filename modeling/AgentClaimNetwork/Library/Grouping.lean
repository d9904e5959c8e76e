import Mathlib.Data.List.Induction
import AgentClaimNetwork.Library.KeyedMap

/-!
Replaying events into one accumulator per key, in a map with the order of first events beside it.
The result is that of folding the events of each key alone.
-/

namespace AgentClaimNetwork.Library

open List

theorem foldlM_total {Event Value : Type*} {apply : Value → Event → Option Value} {first : Value}
    {P : List Event → Value → Prop} (initial : P [] first)
    (step : ∀ past value event, P past value →
      ∃ next, apply value event = some next ∧ P (past ++ [event]) next)
    (events : List Event) : ∃ last, events.foldlM apply first = some last ∧ P events last := by
  induction events using reverseRecOn with
  | nil => exact ⟨first, rfl, initial⟩
  | append_singleton past event ih =>
    obtain ⟨value, folded, holds⟩ := ih
    obtain ⟨next, applied, kept⟩ := step past value event holds
    refine ⟨next, ?_, kept⟩
    rw [foldlM_append, folded]
    simp [applied]

namespace KeyedMap

variable {Key Value : Type*} [LinearOrder Key] {key : Value → Key}

theorem get?_erase (map : KeyedMap key) (name other : Key) :
    (map.erase name).get? other = if other = name then none else map.get? other := by
  by_cases same : other = name
  · rw [if_pos same, get?_eq_none]
    intro value member
    rw [same]
    exact (mem_erase.mp member).2
  · rw [if_neg same]
    apply Option.ext
    intro value
    rw [get?_eq_some, get?_eq_some, mem_erase]
    constructor
    · rintro ⟨⟨member, _⟩, named⟩
      exact ⟨member, named⟩
    · rintro ⟨member, named⟩
      exact ⟨⟨member, fun equal => same (named.symm.trans equal)⟩, named⟩

def drain : KeyedMap key → List Key → List Value
  | _, [] => []
  | map, name :: rest => (map.get? name).toList ++ drain (map.erase name) rest

theorem drain_eq_filterMap (distinct : names.Nodup) (map : KeyedMap key) :
    map.drain names = names.filterMap map.get? := by
  induction names generalizing map with
  | nil => rfl
  | cons name rest ih =>
    obtain ⟨fresh, later⟩ := nodup_cons.mp distinct
    have others : rest.filterMap (map.erase name).get? = rest.filterMap map.get? := by
      apply filterMap_congr
      intro other member
      have different : other ≠ name := by
        intro same
        exact fresh (same ▸ member)
      rw [get?_erase, if_neg different]
    rw [drain, ih later, others, filterMap_cons]
    cases map.get? name <;> rfl

end KeyedMap

section

variable {Key : Type*} [BEq Key] [LawfulBEq Key]

theorem eraseDups_snoc (names : List Key) (name : Key) : (names ++ [name]).eraseDups =
    if name ∈ names then names.eraseDups else names.eraseDups ++ [name] := by
  rw [eraseDups_append]
  by_cases member : name ∈ names
  · rw [if_pos member]
    simp [removeAll, member]
  · rw [if_neg member]
    simp [removeAll, member, eraseDups_cons]

theorem eraseDups_again (known : name ∈ names) {rest : List Key} :
    (names ++ name :: rest).eraseDups = (names ++ rest).eraseDups := by
  have skipped : (name :: rest).removeAll names = rest.removeAll names := by
    simp [removeAll, known]
  rw [eraseDups_append, eraseDups_append, skipped]

theorem nodup_eraseDups (names : List Key) : names.eraseDups.Nodup := by
  induction names using reverseRecOn with
  | nil => exact nodup_nil
  | append_singleton names name ih =>
    rw [eraseDups_snoc]
    by_cases member : name ∈ names
    · rwa [if_pos member]
    · rw [if_neg member]
      apply nodup_append.mpr
      refine ⟨ih, nodup_singleton name, ?_⟩
      intro other inNames last isLast same
      rw [mem_singleton.mp isLast] at same
      exact member (mem_eraseDups.mp (same ▸ inNames))

theorem eraseDups_of_nodup {names : List Key} (distinct : names.Nodup) : names.eraseDups = names := by
  induction names using reverseRecOn with
  | nil => rfl
  | append_singleton names name ih =>
    have fresh : name ∉ names := fun member =>
      (nodup_append.mp distinct).2.2 name member name (mem_singleton_self name) rfl
    rw [eraseDups_snoc, if_neg fresh, ih distinct.of_append_left]

theorem eraseDups_filterMap (change : Key → Option Key) (names : List Key) :
    (names.eraseDups.filterMap change).eraseDups = (names.filterMap change).eraseDups := by
  induction names using reverseRecOn with
  | nil => rfl
  | append_singleton names name ih =>
    rw [eraseDups_snoc, filterMap_append]
    by_cases member : name ∈ names
    · rw [if_pos member, ih]
      cases changed : change name with
      | none => simp [changed]
      | some next =>
        have known : next ∈ names.filterMap change := mem_filterMap.mpr ⟨name, member, changed⟩
        simp [changed, eraseDups_snoc, known]
    · rw [if_neg member, filterMap_append]
      cases changed : change name with
      | none => simpa [changed] using ih
      | some next =>
        have alike : next ∈ names.eraseDups.filterMap change ↔ next ∈ names.filterMap change := by
          simp only [mem_filterMap, mem_eraseDups]
        rw [filterMap_cons_some changed, filterMap_nil, eraseDups_snoc, eraseDups_snoc, ih]
        exact if_congr alike rfl rfl

end

structure Grouped {Key Value : Type*} [LinearOrder Key] (key : Value → Key) where
  values : KeyedMap key
  order : List Key

namespace Grouped

variable {Key Value Event : Type*} [LinearOrder Key] {key : Value → Key}

def empty : Grouped key := ⟨KeyedMap.empty, []⟩

def add (eventKey : Event → Key) (fresh : Key → Value) (apply : Value → Event → Option Value)
    (group : Grouped key) (event : Event) : Option (Grouped key) :=
  let name := eventKey event
  let order := if (group.values.get? name).isSome then group.order else group.order ++ [name]
  let value := (group.values.get? name).getD (fresh name)
  (apply value event).map fun next => ⟨group.values.insert next, order⟩

variable [BEq Key] [LawfulBEq Key] {eventKey : Event → Key} {fresh : Key → Value}
  {apply : Value → Event → Option Value}

structure Follows (eventKey : Event → Key) (fresh : Key → Value)
    (apply : Value → Event → Option Value) (past : List Event) (group : Grouped key) : Prop where
  order : group.order = (past.map eventKey).eraseDups
  absent : ∀ name, name ∉ past.map eventKey → group.values.get? name = none
  present : ∀ name, name ∈ past.map eventKey → group.values.get? name =
    (past.filter fun event => eventKey event == name).foldlM apply (fresh name)

theorem add_follows (freshKey : ∀ name, key (fresh name) = name)
    (applyKey : ∀ {value event next}, apply value event = some next → key next = key value)
    (total : ∀ name events, ∃ value, foldlM apply (fresh name) events = some value)
    {group : Grouped key} (follows : Follows eventKey fresh apply past group) :
    ∃ next, group.add eventKey fresh apply event = some next ∧
      Follows eventKey fresh apply (past ++ [event]) next := by
  have known : (group.values.get? (eventKey event)).isSome = true ↔
      eventKey event ∈ past.map eventKey := by
    constructor
    · intro found
      by_contra missing
      rw [follows.absent _ missing] at found
      cases found
    · intro member
      obtain ⟨value, folded⟩ := total (eventKey event)
        (past.filter fun other => eventKey other == eventKey event)
      rw [follows.present _ member, folded]
      rfl
  -- either way the accumulator is the fold over the events of this key
  have current : some ((group.values.get? (eventKey event)).getD (fresh (eventKey event))) =
      (past.filter fun other => eventKey other == eventKey event).foldlM apply
        (fresh (eventKey event)) := by
    by_cases member : eventKey event ∈ past.map eventKey
    · obtain ⟨value, found⟩ := Option.isSome_iff_exists.mp (known.mpr member)
      rw [← follows.present _ member, found]
      rfl
    · have none : past.filter (fun other => eventKey other == eventKey event) = [] := by
        rw [filter_eq_nil_iff]
        intro other inPast same
        exact member (mem_map.mpr ⟨other, inPast, eq_of_beq same⟩)
      rw [follows.absent _ member, none]
      rfl
  have extended : ∀ name, (past ++ [event]).filter (fun other => eventKey other == name) =
      past.filter (fun other => eventKey other == name) ++
        if eventKey event = name then [event] else [] := by
    intro name
    rw [filter_append]
    by_cases same : eventKey event = name <;> simp [same]
  obtain ⟨next, folded⟩ := total (eventKey event)
    ((past ++ [event]).filter fun other => eventKey other == eventKey event)
  rw [extended, if_pos rfl, foldlM_append, ← current] at folded
  have applied : apply ((group.values.get? (eventKey event)).getD (fresh (eventKey event)))
      event = some next := by simpa using folded
  have nextKey : key next = eventKey event := by
    rw [applyKey applied]
    cases found : group.values.get? (eventKey event) with
    | none => exact freshKey _
    | some value => exact (KeyedMap.get?_eq_some.mp found).2
  unfold add
  dsimp only
  rw [applied]
  refine ⟨_, rfl, ?_, ?_, ?_⟩
  · rw [map_append, map_singleton, eraseDups_snoc, ← follows.order]
    by_cases member : eventKey event ∈ past.map eventKey
    · simp [known.mpr member, member]
    · have unknown : (group.values.get? (eventKey event)).isSome = false :=
        Bool.eq_false_iff.mpr fun found => member (known.mp found)
      simp [unknown, member]
  · intro name missing
    rw [map_append, mem_append, not_or] at missing
    have different : ¬ eventKey event = name := fun same => missing.2 (by simp [same])
    rw [KeyedMap.get?_insert, nextKey, if_neg different]
    exact follows.absent name missing.1
  · intro name member
    rw [KeyedMap.get?_insert, nextKey, extended]
    by_cases same : eventKey event = name
    · subst same
      rw [if_pos rfl, if_pos rfl, foldlM_append, ← current]
      simpa using applied.symm
    · rw [if_neg same, if_neg same, append_nil]
      rw [map_append, mem_append] at member
      rcases member with before | now
      · exact follows.present name before
      · exact absurd (mem_singleton.mp now).symm same

theorem drain_replay (freshKey : ∀ name, key (fresh name) = name)
    (applyKey : ∀ {value event next}, apply value event = some next → key next = key value)
    (total : ∀ name events, ∃ value, foldlM apply (fresh name) events = some value)
    (events : List Event) : ∃ group : Grouped key,
      events.foldlM (add eventKey fresh apply) Grouped.empty = some group ∧
        (group.values.drain group.order).map some =
          (events.map eventKey).eraseDups.map fun name =>
            (events.filter fun event => eventKey event == name).foldlM apply (fresh name) := by
  have initial : Follows eventKey fresh apply [] (Grouped.empty : Grouped key) :=
    ⟨rfl, fun _ _ => rfl, fun _ member => absurd member not_mem_nil⟩
  obtain ⟨group, folded, follows⟩ := foldlM_total (P := Follows eventKey fresh apply) initial
    (fun past group event follows => add_follows freshKey applyKey total follows) events
  refine ⟨group, folded, ?_⟩
  have distinct : group.order.Nodup := by
    rw [follows.order]
    exact nodup_eraseDups _
  rw [KeyedMap.drain_eq_filterMap distinct, ← follows.order]
  have listed : ∀ name ∈ group.order, ∃ value, group.values.get? name = some value ∧
      (events.filter fun event => eventKey event == name).foldlM apply (fresh name) =
        some value := by
    intro name member
    rw [follows.order, mem_eraseDups] at member
    obtain ⟨value, reached⟩ := total name (events.filter fun event => eventKey event == name)
    exact ⟨value, (follows.present name member).trans reached, reached⟩
  generalize group.order = names at listed
  induction names with
  | nil => rfl
  | cons name rest ih =>
    obtain ⟨value, found, reached⟩ := listed name mem_cons_self
    rw [filterMap_cons, found, map_cons, map_cons, reached,
      ih fun other member => listed other (mem_cons_of_mem _ member)]

end Grouped

end AgentClaimNetwork.Library
