import Mathlib.Data.List.Sort
import AgentClaimNetwork.Library.Lookup

/-!
Ordered maps whose values carry their own key, kept as a list with strictly increasing keys.
-/

namespace AgentClaimNetwork.Library

open List

/-- A map from keys to values, each value stored under `key value`. -/
structure KeyedMap {Key Value : Type*} [LinearOrder Key] (key : Value → Key) where
  values : List Value
  sorted : values.Pairwise (fun left right => key left < key right)

namespace KeyedMap

variable {Key Value : Type*} [LinearOrder Key] {key : Value → Key}

def insertSorted (key : Value → Key) (value : Value) : List Value → List Value
  | [] => [value]
  | head :: rest =>
    if key value < key head then value :: head :: rest
    else if key value = key head then value :: rest
    else head :: insertSorted key value rest

variable {values : List Value}

theorem mem_insertSorted {value other : Value}
    (sorted : values.Pairwise (fun left right => key left < key right)) :
    other ∈ insertSorted key value values ↔
      other = value ∨ (other ∈ values ∧ key other ≠ key value) := by
  induction values with
  | nil => simp [insertSorted]
  | cons head rest ih =>
    obtain ⟨below, restSorted⟩ := pairwise_cons.mp sorted
    simp only [insertSorted]
    split_ifs with less same
    · have headNe : key head ≠ key value := ne_of_gt less
      have restNe : ∀ item ∈ rest, key item ≠ key value :=
        fun item member => ne_of_gt (lt_trans less (below item member))
      simp only [mem_cons]
      constructor
      · rintro (equal | equal | member)
        · exact .inl equal
        · exact .inr ⟨.inl equal, equal ▸ headNe⟩
        · exact .inr ⟨.inr member, restNe _ member⟩
      · rintro (equal | ⟨member, _⟩)
        · exact .inl equal
        · exact .inr member
    · have restNe : ∀ item ∈ rest, key item ≠ key value :=
        fun item member => by rw [same]; exact ne_of_gt (below item member)
      simp only [mem_cons]
      constructor
      · rintro (equal | member)
        · exact .inl equal
        · exact .inr ⟨.inr member, restNe _ member⟩
      · rintro (equal | ⟨equal | member, different⟩)
        · exact .inl equal
        · exact absurd (equal ▸ same.symm) different
        · exact .inr member
    · have headNe : key head ≠ key value := fun equal => same equal.symm
      simp only [mem_cons, ih restSorted]
      constructor
      · rintro (equal | equal | ⟨member, different⟩)
        · exact .inr ⟨.inl equal, equal ▸ headNe⟩
        · exact .inl equal
        · exact .inr ⟨.inr member, different⟩
      · rintro (equal | ⟨equal | member, different⟩)
        · exact .inr (.inl equal)
        · exact .inl equal
        · exact .inr (.inr ⟨member, different⟩)

variable {value : Value}

theorem insertSorted_sorted (sorted : values.Pairwise (fun left right => key left < key right)) :
    (insertSorted key value values).Pairwise (fun left right => key left < key right) := by
  induction values with
  | nil => simp [insertSorted]
  | cons head rest ih =>
    obtain ⟨below, restSorted⟩ := pairwise_cons.mp sorted
    simp only [insertSorted]
    split_ifs with less same
    · refine pairwise_cons.mpr ⟨?_, sorted⟩
      intro item member
      rcases mem_cons.mp member with equal | later
      · exact equal ▸ less
      · exact lt_trans less (below item later)
    · refine pairwise_cons.mpr ⟨?_, restSorted⟩
      intro item member
      rw [same]
      exact below item member
    · refine pairwise_cons.mpr ⟨?_, ih restSorted⟩
      intro item member
      rcases (mem_insertSorted restSorted).mp member with equal | ⟨later, _⟩
      · rw [equal]
        exact lt_of_le_of_ne (not_lt.mp less) (fun equalKeys => same equalKeys.symm)
      · exact below item later

def empty : KeyedMap key := ⟨[], List.Pairwise.nil⟩

def insert (map : KeyedMap key) (value : Value) : KeyedMap key :=
  ⟨insertSorted key value map.values, insertSorted_sorted map.sorted⟩

def erase (map : KeyedMap key) (name : Key) : KeyedMap key :=
  ⟨map.values.filter (fun value => key value ≠ name), map.sorted.filter _⟩

def get? (map : KeyedMap key) (name : Key) : Option Value :=
  map.values.find? (fun value => key value = name)

def ofList (key : Value → Key) (values : List Value) : KeyedMap key :=
  values.foldl insert empty

variable {map : KeyedMap key}

@[simp] theorem mem_insert {value other : Value} : other ∈ (map.insert value).values ↔
      other = value ∨ (other ∈ map.values ∧ key other ≠ key value) :=
  mem_insertSorted map.sorted

variable {other : Value} {name : Key}

@[simp] theorem mem_erase :
    other ∈ (map.erase name).values ↔ other ∈ map.values ∧ key other ≠ name := by
  simp [erase]

theorem eq_of_sorted_key {left right : Value}
    (sorted : values.Pairwise (fun first second => key first < key second))
    (leftMem : left ∈ values) (rightMem : right ∈ values)
    (same : key left = key right) : left = right := by
  induction values with
  | nil => cases leftMem
  | cons head rest ih =>
    obtain ⟨below, restSorted⟩ := pairwise_cons.mp sorted
    rcases mem_cons.mp leftMem with leftHead | leftRest <;>
      rcases mem_cons.mp rightMem with rightHead | rightRest
    · rw [leftHead, rightHead]
    · have less := below right rightRest
      rw [← leftHead, same] at less
      exact absurd less (lt_irrefl _)
    · have less := below left leftRest
      rw [← rightHead, same] at less
      exact absurd less (lt_irrefl _)
    · exact ih restSorted leftRest rightRest

theorem eq_of_key_eq {left right : Value}
    (leftMem : left ∈ map.values) (rightMem : right ∈ map.values)
    (same : key left = key right) : left = right :=
  eq_of_sorted_key map.sorted leftMem rightMem same

theorem get?_eq_some : map.get? name = some value ↔ value ∈ map.values ∧ key value = name := by
  constructor
  · intro found
    have member := List.mem_of_find?_eq_some found
    have named := List.find?_some found
    exact ⟨member, by simpa using named⟩
  · rintro ⟨member, named⟩
    cases found : map.get? name with
    | none =>
      have absent := List.find?_eq_none.mp found value member
      simp [named] at absent
    | some other =>
      have otherMem := List.mem_of_find?_eq_some found
      have otherNamed : key other = name := by simpa using List.find?_some found
      rw [eq_of_key_eq otherMem member (otherNamed.trans named.symm)]

theorem get?_eq_none : map.get? name = none ↔ ∀ value ∈ map.values, key value ≠ name := by
  simp [get?]

theorem nodup_keys (map : KeyedMap key) : (map.values.map key).Nodup := by
  rw [nodup_iff_pairwise_ne, pairwise_map]
  exact map.sorted.imp ne_of_lt

theorem foldl_insert_mem (member : other ∈ (values.foldl insert map).values) :
    other ∈ values ∨ other ∈ map.values := by
  induction values generalizing map with
  | nil => exact .inr member
  | cons head rest ih =>
    rcases ih member with later | old
    · exact .inl (mem_cons_of_mem _ later)
    · rcases mem_insert.mp old with equal | ⟨before, _⟩
      · exact .inl (by simp [equal])
      · exact .inr before

theorem foldl_insert_key (member : value ∈ values ∨ value ∈ map.values) :
    ∃ other ∈ (values.foldl insert map).values, key other = key value := by
  induction values generalizing map value with
  | nil => exact ⟨value, by simpa using member, rfl⟩
  | cons head rest ih =>
    by_cases same : key value = key head
    · have headStored : head ∈ rest ∨ head ∈ (map.insert head).values := .inr (by simp)
      obtain ⟨other, otherMem, otherKey⟩ := ih headStored
      exact ⟨other, otherMem, otherKey.trans same.symm⟩
    · apply ih
      rcases member with listed | old
      · rcases mem_cons.mp listed with equal | later
        · exact absurd (by rw [equal]) same
        · exact .inl later
      · exact .inr (mem_insert.mpr (.inr ⟨old, same⟩))

theorem mem_of_mem_ofList (member : other ∈ (ofList key values).values) : other ∈ values :=
  (foldl_insert_mem member).resolve_right (by simp [empty])

theorem exists_mem_ofList (member : value ∈ values) :
    ∃ other ∈ (ofList key values).values, key other = key value :=
  foldl_insert_key (.inl member)

theorem mem_ofList (unique : (values.map key).Nodup) :
    other ∈ (ofList key values).values ↔ other ∈ values := by
  refine ⟨mem_of_mem_ofList, fun member => ?_⟩
  obtain ⟨stored, storedMem, storedKey⟩ :
      ∃ stored ∈ (ofList key values).values, key stored = key other := exists_mem_ofList member
  have same := inj_on_of_nodup_map unique (mem_of_mem_ofList storedMem) member storedKey
  exact same ▸ storedMem

variable {right : KeyedMap key}

theorem ext_values (same : left.values = right.values) : left = right := by
  cases left
  cases right
  cases same
  rfl

theorem ext_get? (same : ∀ name, left.get? name = right.get? name) : left = right := by
  have members : ∀ value, value ∈ left.values ↔ value ∈ right.values := by
    intro value
    constructor
    · intro member
      have found : left.get? (key value) = some value := get?_eq_some.mpr ⟨member, rfl⟩
      rw [same] at found
      exact (get?_eq_some.mp found).1
    · intro member
      have found : right.get? (key value) = some value := get?_eq_some.mpr ⟨member, rfl⟩
      rw [← same] at found
      exact (get?_eq_some.mp found).1
  apply ext_values
  have leftNodup : left.values.Nodup := List.Nodup.of_map key left.nodup_keys
  have rightNodup : right.values.Nodup := List.Nodup.of_map key right.nodup_keys
  have perm := (perm_ext_iff_of_nodup leftNodup rightNodup).mpr members
  refine perm.eq_of_pairwise ?_ left.sorted right.sorted
  intro first second _ _ less greater
  exact absurd (lt_trans less greater) (lt_irrefl _)

theorem get?_insert (map : KeyedMap key) (value : Value) (name : Key) :
    (map.insert value).get? name = if key value = name then some value else map.get? name := by
  by_cases same : key value = name
  · rw [if_pos same]
    exact get?_eq_some.mpr ⟨mem_insert.mpr (.inl rfl), same⟩
  · rw [if_neg same]
    apply Option.ext
    intro other
    rw [get?_eq_some, get?_eq_some, mem_insert]
    constructor
    · rintro ⟨rfl | ⟨member, _⟩, named⟩
      · exact absurd named same
      · exact ⟨member, named⟩
    · rintro ⟨member, named⟩
      exact ⟨.inr ⟨member, fun equal => same (equal.symm.trans named)⟩, named⟩

theorem get?_inserts_other {values : List Value} {map : KeyedMap key} {name : Key}
    (other : ∀ value ∈ values, key value ≠ name) :
    (values.foldl insert map).get? name = map.get? name := by
  induction values generalizing map with
  | nil => rfl
  | cons head rest ih =>
    rw [foldl_cons, ih fun value member => other value (mem_cons_of_mem _ member),
      get?_insert, if_neg (other head mem_cons_self)]

theorem get?_inserts_mem (unique : (values.map key).Nodup) (member : value ∈ values) :
    (values.foldl insert map).get? (key value) = some value := by
  induction values generalizing map with
  | nil => cases member
  | cons head rest ih =>
    rw [map_cons, nodup_cons] at unique
    rcases mem_cons.mp member with isHead | later
    · subst isHead
      have apart : ∀ other ∈ rest, key other ≠ key value := by
        intro other among same
        exact unique.1 (mem_map.mpr ⟨other, among, same⟩)
      rw [foldl_cons, get?_inserts_other apart, get?_insert, if_pos rfl]
    · exact ih unique.2 later

theorem ofList_values (map : KeyedMap key) : ofList key map.values = map := by
  apply ext_get?
  intro name
  cases found : map.get? name with
  | none =>
    rw [get?_eq_none] at found ⊢
    exact fun value member => found value (mem_of_mem_ofList member)
  | some value =>
    obtain ⟨member, isName⟩ := get?_eq_some.mp found
    exact get?_eq_some.mpr ⟨(mem_ofList map.nodup_keys).mpr member, isName⟩

end KeyedMap

end AgentClaimNetwork.Library
