import Mathlib.Data.List.Induction
import AgentClaimNetwork.Library.KeyedMap

/-!
A pending queue that holds the newest version of each key.  A delivery works on a snapshot and
settles it against what the queue holds then.
-/

namespace AgentClaimNetwork.Library.KeyedMap

open List

variable {Key Value Stamp : Type*} [LinearOrder Stamp] {key : Value → Key} {stamp : Value → Stamp}
  {value : Value} {values : List Value}

def offerAt (stamp : Value → Stamp) (stored : Option Value) (value : Value) : Option Value :=
  if stored.all fun existing => stamp existing ≤ stamp value then some value else stored

theorem offersAt_newest {values : List Value} {stored : Option Value} {value : Value}
    (offered : value ∈ values) : ∃ last, values.foldl (offerAt stamp) stored = some last ∧
      stamp value ≤ stamp last := by
  induction values using reverseRecOn with
  | nil => cases offered
  | append_singleton rest latest ih =>
    rw [foldl_append, foldl_cons, foldl_nil]
    rcases mem_concat offered with before | isLatest
    · obtain ⟨last, isLast, newer⟩ := ih before
      rw [isLast, offerAt]
      split_ifs with accepted
      · refine ⟨latest, rfl, le_trans newer (by simpa using accepted)⟩
      · exact ⟨last, rfl, newer⟩
    · rw [isLatest, offerAt]
      split_ifs with accepted
      · exact ⟨latest, rfl, le_rfl⟩
      · cases isStored : rest.foldl (offerAt stamp) stored with
        | none => simp [isStored] at accepted
        | some last =>
          rw [isStored] at accepted
          simp only [Option.all_some, decide_eq_true_eq, not_le] at accepted
          exact ⟨last, rfl, le_of_lt accepted⟩

theorem offersAt_bounded {values : List Value} {first : Value}
    (older : ∀ value ∈ values, stamp value ≤ stamp first) :
    ∃ last, values.foldl (offerAt stamp) (some first) = some last ∧ stamp last ≤ stamp first := by
  induction values using reverseRecOn with
  | nil => exact ⟨first, rfl, le_rfl⟩
  | append_singleton rest latest ih =>
    obtain ⟨last, isLast, bound⟩ := ih fun value member =>
      older value (mem_append_left _ member)
    rw [foldl_append, foldl_cons, foldl_nil, isLast, offerAt]
    split_ifs
    · exact ⟨latest, rfl, older latest (by simp)⟩
    · exact ⟨last, rfl, bound⟩

theorem offersAt_again : values.foldl (offerAt stamp) (values.foldl (offerAt stamp) stored) =
      values.foldl (offerAt stamp) stored := by
  induction values using reverseRecOn with
  | nil => rfl
  | append_singleton rest latest ih =>
    simp only [foldl_append, foldl_cons, foldl_nil]
    by_cases accepted : (rest.foldl (offerAt stamp) stored).all fun existing =>
        stamp existing ≤ stamp latest
    · have isLatest : offerAt stamp (rest.foldl (offerAt stamp) stored) latest = some latest :=
        if_pos accepted
      rw [isLatest]
      obtain ⟨last, isLast, bound⟩ := @offersAt_bounded _ _ _ stamp rest latest (by
        intro value member
        obtain ⟨newest, isNewest, newer⟩ := @offersAt_newest _ _ _ stamp rest stored value member
        rw [isNewest] at accepted
        exact le_trans newer (by simpa using accepted))
      rw [isLast]
      exact if_pos (by simpa using bound)
    · have refused : offerAt stamp (rest.foldl (offerAt stamp) stored) latest =
          rest.foldl (offerAt stamp) stored := if_neg accepted
      rw [refused, ih]
      exact refused

structure OfferedFrom (key : Value → Key) (stamp : Value → Stamp)
    (initial offered current : List Value) : Prop where
  present : ∀ value, value ∈ initial ∨ value ∈ offered →
    ∃ stored ∈ current, key stored = key value
  origin : ∀ stored ∈ current, stored ∈ offered ∨
    (stored ∈ initial ∧ ∀ value ∈ offered, key value = key stored → stamp value < stamp stored)
  newest : ∀ stored ∈ current, ∀ value, value ∈ initial ∨ value ∈ offered →
    key value = key stored → stamp value ≤ stamp stored

theorem OfferedFrom.start {initial : List Value} (unique : (initial.map key).Nodup) :
    OfferedFrom key stamp initial [] initial where
  present value member := ⟨value, by simpa using member, rfl⟩
  origin stored member := .inr ⟨member, by simp⟩
  newest stored member value other same := by
    have listed : value ∈ initial := by simpa using other
    rw [inj_on_of_nodup_map unique listed member same]

theorem OfferedFrom.stored_or_replaced {initial offered current : List Value}
    (history : OfferedFrom key stamp initial offered current)
    (member : value ∈ offered) :
    value ∈ current ∨
      (∃ first ∈ initial, key first = key value ∧ stamp value < stamp first) ∨
      ∃ other ∈ offered, other ≠ value ∧ key other = key value ∧ stamp value ≤ stamp other := by
  obtain ⟨stored, storedMem, storedKey⟩ := history.present value (.inr member)
  by_cases same : stored = value
  · exact .inl (same ▸ storedMem)
  · have newer := history.newest stored storedMem value (.inr member) storedKey.symm
    rcases history.origin stored storedMem with listed | ⟨first, older⟩
    · exact .inr (.inr ⟨stored, listed, same, storedKey, newer⟩)
    · exact .inr (.inl ⟨stored, first, storedKey, older value member storedKey.symm⟩)

/-- A delivery attempt on the snapshot `read`, seen from the queue it leaves: nothing
staged meanwhile is lost, what must be retried is there, what arrived is gone. -/
structure Settled (key : Value → Key) (stamp : Value → Stamp)
    (read staged final : List Value) (retained delivered : Value → Prop) : Prop where
  keepsStaged : ∀ value ∈ staged, value ∈ final ∨ value ∈ read ∨
    (∃ first ∈ read, key first = key value ∧ stamp value < stamp first) ∨
    ∃ other ∈ staged, other ≠ value ∧ key other = key value ∧ stamp value ≤ stamp other
  keepsRetained : ∀ value, retained value → ∃ stored ∈ final, key stored = key value ∧
    (stored = value ∨ (stored ∈ staged ∧ stamp value ≤ stamp stored))
  dropsDelivered : ∀ value, delivered value → (∀ other ∈ staged, key other ≠ key value) →
    ∀ stored ∈ final, key stored ≠ key value
  unique : (final.map key).Nodup

theorem OfferedFrom.settled {read staged current final : List Value} {failed : Key → Prop}
    {retained delivered : Value → Prop}
    (history : OfferedFrom key stamp read staged current)
    (uniqueRead : (read.map key).Nodup) (uniqueFinal : (final.map key).Nodup)
    (kept : ∀ value, value ∈ final ↔ value ∈ current ∧ (value ∉ read ∨ failed (key value)))
    (retainedFailed : ∀ value, retained value → value ∈ read ∧ failed (key value))
    (deliveredPassed : ∀ value, delivered value → value ∈ read ∧ ¬failed (key value)) :
    Settled key stamp read staged final retained delivered where
  keepsStaged value member := by
    by_cases attempted : value ∈ read
    · exact .inr (.inl attempted)
    · rcases history.stored_or_replaced member with stored | replaced
      · exact .inl ((kept value).mpr ⟨stored, .inl attempted⟩)
      · exact .inr (.inr replaced)
  keepsRetained value isRetained := by
    obtain ⟨attempted, failure⟩ := retainedFailed value isRetained
    obtain ⟨stored, storedMem, storedKey⟩ := history.present value (.inl attempted)
    refine ⟨stored, (kept stored).mpr ⟨storedMem, .inr (storedKey ▸ failure)⟩, storedKey, ?_⟩
    rcases history.origin stored storedMem with offered | ⟨first, _⟩
    · exact .inr ⟨offered,
        history.newest stored storedMem value (.inl attempted) storedKey.symm⟩
    · exact .inl (inj_on_of_nodup_map uniqueRead first attempted storedKey)
  dropsDelivered value isDelivered unstaged stored storedMem storedKey := by
    obtain ⟨attempted, passed⟩ := deliveredPassed value isDelivered
    obtain ⟨current, unsettled⟩ := (kept stored).mp storedMem
    rcases history.origin stored current with offered | ⟨first, _⟩
    · exact unstaged stored offered storedKey
    · rcases unsettled with outside | failure
      · exact outside first
      · exact passed (storedKey ▸ failure)
  unique := uniqueFinal

variable [LinearOrder Key] {map : KeyedMap key}

def accepts (stamp : Value → Stamp) (map : KeyedMap key) (value : Value) : Bool :=
  (map.get? (key value)).all fun existing => stamp existing ≤ stamp value

def offer (stamp : Value → Stamp) (map : KeyedMap key) (value : Value) : KeyedMap key :=
  if map.accepts stamp value then map.insert value else map

theorem accepts_iff : map.accepts stamp value = true ↔
      ∀ existing ∈ map.values, key existing = key value → stamp existing ≤ stamp value := by
  unfold accepts
  cases found : map.get? (key value) with
  | none =>
    simp only [Option.all_none, true_iff]
    intro existing member same
    exact absurd same (get?_eq_none.mp found existing member)
  | some stored =>
    obtain ⟨storedMem, storedKey⟩ := get?_eq_some.mp found
    simp only [Option.all_some, decide_eq_true_eq]
    constructor
    · intro older existing member same
      rw [eq_of_key_eq member storedMem (same.trans storedKey.symm)]
      exact older
    · intro older
      exact older stored storedMem storedKey

theorem get?_offer : (map.offer stamp value).get? name =
      if key value = name then offerAt stamp (map.get? name) value else map.get? name := by
  unfold offer accepts offerAt
  by_cases same : key value = name
  · subst same
    rw [if_pos rfl]
    split_ifs
    · rw [get?_insert, if_pos rfl]
    · rfl
  · rw [if_neg same]
    split_ifs
    · rw [get?_insert, if_neg same]
    · rfl
theorem get?_offers : (values.foldl (offer stamp) map).get? name =
      (values.filter fun value => key value = name).foldl (offerAt stamp) (map.get? name) := by
  induction values generalizing map with
  | nil => rfl
  | cons value rest ih =>
    rw [foldl_cons, ih, get?_offer]
    by_cases same : key value = name
    · rw [if_pos same, filter_cons_of_pos (by simpa using same), foldl_cons]
    · rw [if_neg same, filter_cons_of_neg (by simpa using same)]

theorem offers_again : more.foldl (offer stamp) ((values ++ more).foldl (offer stamp) map) =
      (values ++ more).foldl (offer stamp) map := by
  apply ext_get?
  intro name
  rw [foldl_append]
  simp only [get?_offers]
  exact offersAt_again

variable {initial offered : List Value}

theorem mem_snoc_or {value other : Value} (source : other ∈ initial ∨ other ∈ offered ++ [value]) :
    (other ∈ initial ∨ other ∈ offered) ∨ other = value := by
  simpa [or_assoc] using source

section

variable (history : OfferedFrom key stamp initial offered map.values)
include history

theorem OfferedFrom.accept (accepted : map.accepts stamp value = true) :
    OfferedFrom key stamp initial (offered ++ [value]) (map.insert value).values := by
  have bound : ∀ other, other ∈ initial ∨ other ∈ offered → key other = key value →
      stamp other ≤ stamp value := by
    intro other source same
    obtain ⟨old, oldMem, oldKey⟩ := history.present other source
    exact le_trans (history.newest old oldMem other source oldKey.symm)
      (accepts_iff.mp accepted old oldMem (oldKey.trans same))
  refine ⟨?_, ?_, ?_⟩
  · intro other source
    by_cases same : key other = key value
    · exact ⟨value, by simp, same.symm⟩
    · rcases mem_snoc_or source with earlier | new
      · obtain ⟨old, oldMem, oldKey⟩ := history.present other earlier
        exact ⟨old, mem_insert.mpr (.inr ⟨oldMem, by rw [oldKey]; exact same⟩), oldKey⟩
      · exact absurd (by rw [new]) same
  · intro held member
    rcases mem_insert.mp member with equal | ⟨old, different⟩
    · exact .inl (by simp [equal])
    · rcases history.origin held old with listed | ⟨first, older⟩
      · exact .inl (by simp [listed])
      · refine .inr ⟨first, ?_⟩
        intro other source same
        rcases mem_concat source with earlier | rfl
        · exact older other earlier same
        · exact absurd same.symm different
  · intro held member other source same
    rcases mem_insert.mp member with equal | ⟨old, different⟩
    · rw [equal] at same ⊢
      rcases mem_snoc_or source with earlier | new
      · exact bound other earlier same
      · rw [new]
    · rcases mem_snoc_or source with earlier | new
      · exact history.newest held old other earlier same
      · rw [new] at same
        exact absurd same.symm different

theorem OfferedFrom.refuse {value holder : Value}
    (holderMem : holder ∈ map.values) (holderKey : key holder = key value)
    (older : stamp value < stamp holder) :
    OfferedFrom key stamp initial (offered ++ [value]) map.values := by
  have onlyHolder : ∀ held ∈ map.values, key value = key held → held = holder :=
    fun held member same => eq_of_key_eq member holderMem (same.symm.trans holderKey.symm)
  refine ⟨?_, ?_, ?_⟩
  · intro other source
    rcases mem_snoc_or source with earlier | new
    · exact history.present other earlier
    · exact ⟨holder, holderMem, by rw [new]; exact holderKey⟩
  · intro held member
    rcases history.origin held member with listed | ⟨first, before⟩
    · exact .inl (by simp [listed])
    · refine .inr ⟨first, ?_⟩
      intro other source same
      rcases mem_concat source with earlier | rfl
      · exact before other earlier same
      · rw [onlyHolder held member same]
        exact older
  · intro held member other source same
    rcases mem_snoc_or source with earlier | new
    · exact history.newest held member other earlier same
    · rw [new] at same ⊢
      rw [onlyHolder held member same]
      exact le_of_lt older

theorem OfferedFrom.offer (value : Value) :
    OfferedFrom key stamp initial (offered ++ [value]) (map.offer stamp value).values := by
  unfold KeyedMap.offer
  split_ifs with accepted
  · exact history.accept accepted
  · obtain ⟨holder, holderMem, holderKey, newer⟩ : ∃ holder ∈ map.values,
        key holder = key value ∧ ¬stamp holder ≤ stamp value := by
      by_contra none
      apply accepted
      apply accepts_iff.mpr
      intro existing member same
      by_contra newer
      exact none ⟨existing, member, same, newer⟩
    exact history.refuse holderMem holderKey (not_le.mp newer)

end

theorem OfferedFrom.ofList {initial offered current : List Value}
    (history : OfferedFrom key stamp initial offered current)
    (unique : (current.map key).Nodup) :
    OfferedFrom key stamp initial offered (KeyedMap.ofList key current).values where
  present value source := by
    obtain ⟨stored, storedMem, storedKey⟩ := history.present value source
    exact ⟨stored, (mem_ofList unique).mpr storedMem, storedKey⟩
  origin stored member := history.origin stored ((mem_ofList unique).mp member)
  newest stored member := history.newest stored ((mem_ofList unique).mp member)

theorem OfferedFrom.offers
    (history : OfferedFrom key stamp initial offered map.values) (values : List Value) :
    OfferedFrom key stamp initial (offered ++ values)
      (values.foldl (KeyedMap.offer stamp) map).values := by
  induction values generalizing map offered with
  | nil => simpa using history
  | cons value rest ih =>
    have next := ih (history.offer value)
    simpa using next

variable [DecidableEq Value]

def settle (failed : Key → Bool) (map : KeyedMap key) (value : Value) : KeyedMap key :=
  if failed (key value) then
    if (map.get? (key value)).all (· = value) then map.insert value else map
  else if (map.get? (key value)).any (· = value) then map.erase (key value)
  else map

theorem settle_failed {value : Value} (failure : failed (key value) = true)
    (presentMem : present ∈ map.values) (presentKey : key present = key value) (other : Value) :
    other ∈ (map.settle failed value).values ↔ other ∈ map.values := by
  simp only [settle, failure, if_true]
  rw [get?_eq_some.mpr ⟨presentMem, presentKey⟩]
  simp only [Option.all_some, decide_eq_true_eq]
  split_ifs with equal
  · subst equal
    rw [mem_insert]
    constructor
    · rintro (equal | ⟨member, _⟩)
      · exact equal ▸ presentMem
      · exact member
    · intro member
      by_cases same : key other = key present
      · exact .inl (eq_of_key_eq member presentMem same)
      · exact .inr ⟨member, same⟩
  · rfl

theorem settle_delivered {value : Value} (delivered : failed (key value) = false) (other : Value) :
    other ∈ (map.settle failed value).values ↔ other ∈ map.values ∧ other ≠ value := by
  simp only [settle, delivered, Bool.false_eq_true, if_false]
  cases found : map.get? (key value) with
  | none =>
    simp only [Option.any_none, Bool.false_eq_true, if_false]
    have absent := get?_eq_none.mp found
    constructor
    · intro member
      exact ⟨member, fun equal => absent other member (by rw [equal])⟩
    · exact And.left
  | some stored =>
    obtain ⟨storedMem, storedKey⟩ := get?_eq_some.mp found
    simp only [Option.any_some, decide_eq_true_eq]
    split_ifs with equal
    · subst equal
      rw [mem_erase]
      refine and_congr_right fun member => ?_
      constructor
      · intro different same
        exact different (by rw [same])
      · intro different same
        exact different (eq_of_key_eq member storedMem same)
    · constructor
      · intro member
        refine ⟨member, fun same => equal ?_⟩
        exact eq_of_key_eq storedMem (same ▸ member) storedKey
      · exact And.left

theorem mem_settle_foldl {attempted : List Value}
    (queued : ∀ value ∈ attempted, failed (key value) = true →
      ∃ stored ∈ map.values, key stored = key value) (other : Value) :
    other ∈ (attempted.foldl (settle failed) map).values ↔
      other ∈ map.values ∧ (other ∉ attempted ∨ failed (key other) = true) := by
  induction attempted generalizing map with
  | nil => simp
  | cons value rest ih =>
    simp only [foldl_cons]
    cases failure : failed (key value) with
    | true =>
      obtain ⟨present, presentMem, presentKey⟩ := queued value (by simp) failure
      have same := settle_failed failure presentMem presentKey
      rw [ih, same]
      · refine and_congr_right fun _ => ?_
        simp only [mem_cons, not_or]
        constructor
        · rintro (absent | failedOther)
          · by_cases equal : other = value
            · exact .inr (equal ▸ failure)
            · exact .inl ⟨equal, absent⟩
          · exact .inr failedOther
        · rintro (⟨_, absent⟩ | failedOther)
          · exact .inl absent
          · exact .inr failedOther
      · intro later laterMem laterFailed
        obtain ⟨stored, storedMem, storedKey⟩ :=
          queued later (mem_cons_of_mem _ laterMem) laterFailed
        exact ⟨stored, (same stored).mpr storedMem, storedKey⟩
    | false =>
      have same : ∀ other, other ∈ (map.settle failed value).values ↔
          other ∈ map.values ∧ other ≠ value := settle_delivered failure
      rw [ih, same]
      · simp only [mem_cons, not_or]
        constructor
        · rintro ⟨⟨member, different⟩, outcome⟩
          refine ⟨member, ?_⟩
          rcases outcome with absent | failedOther
          · exact .inl ⟨different, absent⟩
          · exact .inr failedOther
        · rintro ⟨member, outcome⟩
          have different : other ≠ value := by
            rintro rfl
            rcases outcome with ⟨different, _⟩ | failedOther
            · exact different rfl
            · rw [failure] at failedOther
              cases failedOther
          refine ⟨⟨member, different⟩, ?_⟩
          rcases outcome with ⟨_, absent⟩ | failedOther
          · exact .inl absent
          · exact .inr failedOther
      · intro later laterMem laterFailed
        obtain ⟨stored, storedMem, storedKey⟩ :=
          queued later (mem_cons_of_mem _ laterMem) laterFailed
        refine ⟨stored, (same stored).mpr ⟨storedMem, ?_⟩, storedKey⟩
        rintro rfl
        rw [storedKey, laterFailed] at failure
        cases failure

end AgentClaimNetwork.Library.KeyedMap
