import AgentClaimNetwork.Library.Decimal
import AgentClaimNetwork.Library.Hex
import Mathlib.Data.List.Nodup
import Mathlib.Data.List.Perm.Subperm

/-!
The visible names of MCP tools, from `src/mcp/name.rs`.
-/

namespace AgentClaimNetwork.Mcp

open Library List

abbrev Text := List Char

/-- The standard library's hasher after a server, a NUL and a tool. -/
abbrev Hasher := Text × Text → UInt64

def mcpToolPrefix : Text := "mcp__".toList

def maxVisibleToolNameChars : Nat := 64

structure McpVisibleToolName where
  visibleName : Text
  serverName : Text
  rawToolName : Text

def isVisible (ch : Char) : Bool := ch.isAlphanum || ch == '-' || ch == '_'

def normalizeVisibleComponent (raw : Text) : Text :=
  let normalized := raw.map fun ch => if isVisible ch then ch else '_'
  if normalized = [] then ['_'] else normalized

/-- `{:016x}`. -/
def hex16 (value : UInt64) : Text :=
  (range 16).map fun place => Hex.digit (value.toNat / 16 ^ (15 - place) % 16)

def boundedHashedName (server tool hash : Text) : Text :=
  let reserved := mcpToolPrefix.length + 2 + 2 + hash.length
  let budget := max (maxVisibleToolNameChars - reserved) 2
  let serverBudget := min server.length (max (budget / 2) 1)
  let toolBudget := max (budget - serverBudget) 1
  mcpToolPrefix ++ server.take serverBudget ++ "__".toList ++ tool.take toolBudget ++ "__".toList ++
    hash

def appendSuffixBounded (base suffix : Text) : Text :=
  let baseBudget := max (maxVisibleToolNameChars - (2 + suffix.length)) 1
  base.take baseBudget ++ "__".toList ++ suffix

def shortHash (finish : Hasher) (pair : Text × Text) : Text :=
  (hex16 (finish pair)).take 8

variable {finish : Hasher}

def visibleNameBase (finish : Hasher) (pair : Text × Text) : Text :=
  let server := normalizeVisibleComponent pair.1
  let tool := normalizeVisibleComponent pair.2
  let base := mcpToolPrefix ++ server ++ "__".toList ++ tool
  if base.length ≤ maxVisibleToolNameChars then base
  else boundedHashedName server tool (shortHash finish pair)

def suffixed (base hash : Text) (suffix : Nat) : Text :=
  appendSuffixBounded base (hash ++ '_' :: Nat.toDigits 10 suffix)

/-- The loop of `unique_hashed_name`. -/
def searchSuffix (base hash : Text) (used : List Text) : (fuel suffix : Nat) → Option Text
  | 0, _ => none
  | fuel + 1, suffix =>
    if suffixed base hash suffix ∈ used then searchSuffix base hash used fuel (suffix + 1)
    else some (suffixed base hash suffix)

def uniqueHashedName (base hash : Text) (used : List Text) : Option Text :=
  if appendSuffixBounded base hash ∈ used then searchSuffix base hash used (used.length + 1) 2
  else some (appendSuffixBounded base hash)

def chooseName (finish : Hasher) (baseCounts : Text → Nat) (used : List Text)
    (pair : Text × Text) : Option Text :=
  let base := visibleNameBase finish pair
  if baseCounts base ≤ 1 ∧ base ∉ used then some base
  else uniqueHashedName base (shortHash finish pair) used

def nameFrom (finish : Hasher) (baseCounts : Text → Nat) :
    List Text → List (Text × Text) → Option (List McpVisibleToolName)
  | _, [] => some []
  | used, pair :: rest => do
    let visibleName ← chooseName finish baseCounts used pair
    let later ← nameFrom finish baseCounts (visibleName :: used) rest
    some (⟨visibleName, pair.1, pair.2⟩ :: later)

def baseCounts (finish : Hasher) (pairs : List (Text × Text)) (base : Text) : Nat :=
  (pairs.map (visibleNameBase finish)).count base

def buildVisibleToolNames (finish : Hasher) (pairs : List (Text × Text)) :
    Option (List McpVisibleToolName) :=
  nameFrom finish (baseCounts finish pairs) [] pairs

variable {base hash suffix text : Text}

structure Visible (name : Text) : Prop where
  starts : mcpToolPrefix <+: name
  short : name.length ≤ maxVisibleToolNameChars
  chars : name.all isVisible = true

theorem digit_visible (small : nibble < 16) : isVisible (Hex.digit nibble) = true := by
  interval_cases nibble <;> rfl

theorem length_shortHash : (shortHash finish pair).length = 8 := by simp [shortHash, hex16]

theorem shortHash_visible : (shortHash finish pair).all isVisible = true := by
  rw [List.all_eq_true]
  intro character member
  obtain ⟨place, -, rfl⟩ := mem_map.mp (mem_of_mem_take member)
  exact digit_visible (Nat.mod_lt _ (by decide))

theorem normalize_visible : (normalizeVisibleComponent raw).all isVisible = true := by
  unfold normalizeVisibleComponent
  dsimp only
  split_ifs
  · rfl
  · rw [all_map, List.all_eq_true]
    intro character _
    dsimp only [Function.comp]
    split_ifs with visible
    · exact visible
    · rfl

theorem all_take (all : text.all isVisible = true) : (text.take budget).all isVisible = true := by
  rw [List.all_eq_true] at all ⊢
  exact fun character member => all character (mem_of_mem_take member)

theorem visibleNameBase_visible : Visible (visibleNameBase finish pair) := by
  have separator : "__".toList.all isVisible = true := rfl
  have starts : mcpToolPrefix.all isVisible = true := rfl
  unfold visibleNameBase
  dsimp only
  split_ifs with short
  · refine ⟨?_, short, ?_⟩
    · simp only [append_assoc]
      exact prefix_append _ _
    · simp only [all_append, starts, separator, normalize_visible, Bool.and_self]
  · refine ⟨?_, ?_, ?_⟩
    · simp only [boundedHashedName, append_assoc]
      exact prefix_append _ _
    · simp only [boundedHashedName, length_append, length_take, length_shortHash, mcpToolPrefix,
        maxVisibleToolNameChars, String.length_toList]
      have sizes : "mcp__".length = 5 ∧ "__".length = 2 := ⟨rfl, rfl⟩
      omega
    · simp only [boundedHashedName, all_append, starts, separator, shortHash_visible,
        all_take normalize_visible, Bool.and_self]

theorem appendSuffixBounded_visible (visible : Visible base) (chars : suffix.all isVisible = true)
    (short : suffix.length ≤ 57) : Visible (appendSuffixBounded base suffix) where
  starts := by
    simp only [appendSuffixBounded, append_assoc]
    refine IsPrefix.trans ?_ (prefix_append _ _)
    refine prefix_take_iff.mpr ⟨visible.starts, ?_⟩
    show 5 ≤ max (64 - (2 + suffix.length)) 1
    omega
  short := by
    simp only [appendSuffixBounded, length_append, length_take, maxVisibleToolNameChars]
    show min (max (64 - (2 + suffix.length)) 1) base.length + 2 + suffix.length ≤ 64
    omega
  chars := by
    simp only [appendSuffixBounded, all_append, all_take visible.chars, chars, Bool.and_true]
    rfl

theorem digits_visible : (Nat.toDigits 10 number).all isVisible = true := by
  rw [List.all_eq_true]
  intro character member
  have isDigit := Nat.isDigit_of_mem_toDigits (by decide) (by decide) member
  simp [isVisible, Char.isAlphanum, isDigit]

theorem suffixed_injective (same : suffixed base hash first = suffixed base hash second) :
    first = second := by
  have digits : ∀ front number, (front ++ '_' :: Nat.toDigits 10 number).reverse.takeWhile (· ≠ '_') =
      (Nat.toDigits 10 number).reverse := by
    intro front number
    rw [reverse_append, reverse_cons, append_assoc, takeWhile_append_of_pos]
    · simp
    · intro character member
      have absent : '_' ∉ Nat.toDigits 10 number := Decimal.not_mem_toDigits rfl
      exact decide_eq_true fun isUnderscore => absent (isUnderscore ▸ mem_reverse.mp member)
  simp only [suffixed, appendSuffixBounded, ← append_assoc] at same
  have same := congrArg (fun name => name.reverse.takeWhile (· ≠ '_')) same
  simp only [digits, reverse_inj] at same
  have parsed := Decimal.parseDigits_toDigits first
  rw [same, Decimal.parseDigits_toDigits] at parsed
  exact (Option.some.inj parsed).symm

theorem searchSuffix_none (failed : searchSuffix base hash used fuel number = none) :
    ∀ step < fuel, suffixed base hash (number + step) ∈ used := by
  induction fuel generalizing number with
  | zero => exact fun _ below => absurd below (Nat.not_lt_zero _)
  | succ fuel ih =>
    rw [searchSuffix] at failed
    split_ifs at failed with taken
    intro step below
    cases step with
    | zero => exact taken
    | succ step =>
      rw [show number + (step + 1) = number + 1 + step by omega]
      exact ih failed step (by omega)

theorem searchSuffix_some (found : searchSuffix base hash used fuel number = some name) :
    name ∉ used ∧ ∃ step < fuel, name = suffixed base hash (number + step) := by
  induction fuel generalizing number with
  | zero => cases found
  | succ fuel ih =>
    rw [searchSuffix] at found
    split_ifs at found with taken
    · obtain ⟨fresh, step, below, rfl⟩ := ih found
      exact ⟨fresh, step + 1, by omega, by rw [show number + (step + 1) = number + 1 + step by omega]⟩
    · cases found
      exact ⟨taken, 0, by omega, rfl⟩

theorem uniqueHashedName_fresh (visible : Visible base) (few : used.length < 2 ^ 63) :
    ∃ name, uniqueHashedName base (shortHash finish pair) used = some name ∧ name ∉ used ∧
      Visible name := by
  unfold uniqueHashedName
  split_ifs with taken
  · cases found : searchSuffix base (shortHash finish pair) used (used.length + 1) 2 with
    | none =>
      -- one more candidate than names in use
      have among := searchSuffix_none found
      have distinct : ((range (used.length + 1)).map fun step =>
          suffixed base (shortHash finish pair) (2 + step)).Nodup :=
        Nodup.map_on (fun _ _ _ _ same => Nat.add_left_cancel (suffixed_injective same)) nodup_range
      have covered : ((range (used.length + 1)).map fun step =>
          suffixed base (shortHash finish pair) (2 + step)) ⊆ used := by
        intro name member
        obtain ⟨step, below, rfl⟩ := mem_map.mp member
        exact among step (mem_range.mp below)
      have bound := (subperm_of_subset distinct covered).length_le
      rw [length_map, length_range] at bound
      omega
    | some name =>
      obtain ⟨fresh, step, below, rfl⟩ := searchSuffix_some found
      refine ⟨_, rfl, fresh, appendSuffixBounded_visible visible ?_ ?_⟩
      · simp only [all_append, all_cons, shortHash_visible, digits_visible, Bool.and_true]
        rfl
      · have digits : (Nat.toDigits 10 (2 + step)).length ≤ 20 :=
          (Nat.length_toDigits_le_iff (by decide) (by decide)).mpr (by omega)
        simp only [length_append, length_cons, length_shortHash]
        omega
  · exact ⟨_, rfl, taken, appendSuffixBounded_visible visible shortHash_visible
      (by rw [length_shortHash]; omega)⟩

theorem chooseName_fresh (few : used.length < 2 ^ 63) :
    ∃ name, chooseName finish counts used pair = some name ∧ name ∉ used ∧ Visible name := by
  unfold chooseName
  dsimp only
  split_ifs with free
  · exact ⟨_, rfl, free.2, visibleNameBase_visible⟩
  · exact uniqueHashedName_fresh visibleNameBase_visible few

/-- A slice holds at most `isize::MAX` bytes. -/
structure PairSlice where
  pairs : List (Text × Text)
  fits : pairs.length < 2 ^ 63

theorem nameFrom_distinct (few : used.length + pairs.length < 2 ^ 63) :
    ∃ names, nameFrom finish counts used pairs = some names ∧
      names.map (fun name => (name.serverName, name.rawToolName)) = pairs ∧
      (names.map McpVisibleToolName.visibleName).Nodup ∧
      ∀ name ∈ names, name.visibleName ∉ used ∧ Visible name.visibleName := by
  induction pairs generalizing used with
  | nil => exact ⟨[], rfl, rfl, nodup_nil, by simp⟩
  | cons pair rest ih =>
    rw [length_cons] at few
    obtain ⟨name, chosen, fresh, visible⟩ := @chooseName_fresh finish counts used pair (by omega)
    obtain ⟨later, named, same, distinct, each⟩ := @ih (name :: used) (by rw [length_cons]; omega)
    refine ⟨⟨name, pair.1, pair.2⟩ :: later, ?_, by simp [same], ?_, ?_⟩
    · rw [nameFrom, chosen, Option.bind_eq_bind, Option.bind_some, named]
      rfl
    · refine nodup_cons.mpr ⟨fun again => ?_, distinct⟩
      obtain ⟨other, among, isName⟩ := mem_map.mp again
      exact (each other among).1 (by simp [isName])
    · rintro other (_ | ⟨_, among⟩)
      · exact ⟨fresh, visible⟩
      · exact ⟨fun old => (each other among).1 (mem_cons_of_mem _ old), (each other among).2⟩

/-- The name that a pair gets when nothing before it has taken that. -/
def firstChoice (finish : Hasher) (counts : Text → Nat) (pair : Text × Text) : Text :=
  let base := visibleNameBase finish pair
  if counts base ≤ 1 then base else appendSuffixBounded base (shortHash finish pair)

theorem chooseName_first (free : firstChoice finish counts pair ∉ used) :
    chooseName finish counts used pair = some (firstChoice finish counts pair) := by
  unfold chooseName
  unfold firstChoice at free ⊢
  dsimp only at free ⊢
  by_cases single : counts (visibleNameBase finish pair) ≤ 1
  · rw [if_pos single] at free ⊢
    rw [if_pos ⟨single, free⟩]
  · rw [if_neg single] at free ⊢
    rw [if_neg fun both => single both.1, uniqueHashedName, if_neg free]

def named (finish : Hasher) (counts : Text → Nat) (pair : Text × Text) :
    McpVisibleToolName :=
  ⟨firstChoice finish counts pair, pair.1, pair.2⟩

theorem nameFrom_first (distinct : (pairs.map (firstChoice finish counts)).Nodup)
    (free : ∀ pair ∈ pairs, firstChoice finish counts pair ∉ used) :
    nameFrom finish counts used pairs = some (pairs.map (named finish counts)) := by
  induction pairs generalizing used with
  | nil => rfl
  | cons pair rest ih =>
    obtain ⟨alone, distinct⟩ := nodup_cons.mp distinct
    rw [nameFrom, chooseName_first (free pair mem_cons_self), Option.bind_eq_bind, Option.bind_some,
      ih distinct]
    · rfl
    · intro other among taken
      rcases mem_cons.mp taken with same | before
      · exact alone (same ▸ mem_map_of_mem among)
      · exact free other (mem_cons_of_mem _ among) before

theorem baseCounts_perm (same : others.Perm pairs) : baseCounts finish others = baseCounts finish pairs :=
  funext fun base => (same.map _).count_eq base

theorem first_named (built : buildVisibleToolNames finish (pair :: rest) = some names) :
    named finish (baseCounts finish (pair :: rest)) pair ∈ names := by
  rw [buildVisibleToolNames, nameFrom, chooseName_first not_mem_nil, Option.bind_eq_bind,
    Option.bind_some] at built
  obtain ⟨later, -, isNames⟩ := Option.bind_eq_some_iff.mp built
  cases isNames
  exact mem_cons_self

/-- Reordering the pairs changes no pair's name. -/
def OrderFree (finish : Hasher) (pairs : PairSlice) : Prop :=
  ∀ first second : PairSlice, first.pairs.Perm pairs.pairs → second.pairs.Perm pairs.pairs →
    ∀ names others, buildVisibleToolNames finish first.pairs = some names →
      buildVisibleToolNames finish second.pairs = some others → names.Perm others

theorem orderFree_iff (pairs : PairSlice) (distinct : pairs.pairs.Nodup) : OrderFree finish pairs ↔
    (pairs.pairs.map (firstChoice finish (baseCounts finish pairs.pairs))).Nodup := by
  constructor
  · intro unordered
    refine Nodup.map_on (fun pair among other amongOther same => ?_) distinct
    by_contra different
    have toFront : ∀ pair ∈ pairs.pairs, ∃ slice : PairSlice, slice.pairs.Perm pairs.pairs ∧
        ∃ names, buildVisibleToolNames finish slice.pairs = some names ∧
          named finish (baseCounts finish pairs.pairs) pair ∈ names ∧
          (names.map McpVisibleToolName.visibleName).Nodup := by
      intro pair among
      have perm := (perm_cons_erase among).symm
      have fits := perm.length_eq ▸ pairs.fits
      obtain ⟨names, built, -, distinct, -⟩ := @nameFrom_distinct finish
        (baseCounts finish (pair :: pairs.pairs.erase pair)) [] (pair :: pairs.pairs.erase pair) (by simpa using fits)
      exact ⟨⟨_, fits⟩, perm, names, built, baseCounts_perm perm ▸ first_named built, distinct⟩
    obtain ⟨first, isFirst, names, built, isNamed, -⟩ := toFront pair among
    obtain ⟨second, isSecond, others, builtOthers, isNamedOther, noRepeat⟩ := toFront other amongOther
    have both := (unordered first second isFirst isSecond names others built builtOthers).subset isNamed
    have isSame := inj_on_of_nodup_map noRepeat both isNamedOther same
    simp only [named, McpVisibleToolName.mk.injEq] at isSame
    exact different (Prod.ext isSame.2.1 isSame.2.2)
  · intro choices first second isFirst isSecond names others built builtOthers
    have each : ∀ slice : PairSlice, slice.pairs.Perm pairs.pairs →
        buildVisibleToolNames finish slice.pairs =
          some (slice.pairs.map (named finish (baseCounts finish pairs.pairs))) := by
      intro slice perm
      rw [buildVisibleToolNames, baseCounts_perm perm]
      exact nameFrom_first ((perm.map _).nodup_iff.mpr choices) fun _ _ => not_mem_nil
    rw [each first isFirst] at built
    rw [each second isSecond] at builtOthers
    cases built
    cases builtOthers
    exact (isFirst.trans isSecond.symm).map _

/-- Every pair gets a name of its own, and which one depends on the order exactly when two pairs
have the same first choice. -/
theorem visible_names_identify (pairs : PairSlice) :
    (∃ names, buildVisibleToolNames finish pairs.pairs = some names ∧
      names.map (fun name => (name.serverName, name.rawToolName)) = pairs.pairs ∧
      (names.map McpVisibleToolName.visibleName).Nodup ∧
      ∀ name ∈ names, Visible name.visibleName) ∧
    (pairs.pairs.Nodup → (OrderFree finish pairs ↔
      (pairs.pairs.map (firstChoice finish (baseCounts finish pairs.pairs))).Nodup)) := by
  refine ⟨?_, orderFree_iff pairs⟩
  obtain ⟨names, built, same, distinct, each⟩ := @nameFrom_distinct finish
    (baseCounts finish pairs.pairs) [] pairs.pairs (by simpa using pairs.fits)
  exact ⟨names, built, same, distinct, fun name among => (each name among).2⟩

theorem normalize_of_visible (visible : text.all isVisible = true) (nonempty : text ≠ []) :
    normalizeVisibleComponent text = text := by
  have same : text.map (fun ch => if isVisible ch then ch else '_') = text := by
    conv_rhs => rw [← map_id text]
    refine map_congr_left fun character member => ?_
    rw [if_pos (List.all_eq_true.mp visible character member), id]
  unfold normalizeVisibleComponent
  simp only [same, if_neg nonempty]

/-- With any hasher a tool may be called what two others would be renamed to. -/
theorem reordering_renames : ¬ ∃ finish : Hasher, ∀ pairs : PairSlice,
    pairs.pairs.Nodup → OrderFree finish pairs := by
  rintro ⟨finish, unordered⟩
  let left : Text × Text := ("s".toList, "a.b".toList)
  let right : Text × Text := ("s".toList, "a/b".toList)
  let taken : Text × Text := ("s".toList, "a_b__".toList ++ shortHash finish left)
  have base : visibleNameBase finish left = "mcp__s__a_b".toList ∧
      visibleNameBase finish right = "mcp__s__a_b".toList := ⟨rfl, rfl⟩
  have whole : visibleNameBase finish taken = "mcp__s__a_b__".toList ++ shortHash finish left := by
    have same : normalizeVisibleComponent taken.2 = taken.2 := by
      refine normalize_of_visible ?_ (by simp [taken])
      rw [all_append, shortHash_visible]
      rfl
    unfold visibleNameBase
    dsimp only
    rw [same, if_pos]
    · rfl
    · simp [taken, length_shortHash, mcpToolPrefix, maxVisibleToolNameChars,
        normalizeVisibleComponent, isVisible]
  have apart : visibleNameBase finish taken ≠ "mcp__s__a_b".toList := by
    intro same
    have lengths := congrArg length (whole.symm.trans same)
    simp [length_shortHash] at lengths
  have different : left ≠ right ∧ left ≠ taken ∧ right ≠ taken :=
    ⟨by decide, fun same => apart (same ▸ base.1), fun same => apart (same ▸ base.2)⟩
  have distinct : [left, right, taken].Nodup := by
    simp only [nodup_cons, mem_cons, not_mem_nil, or_false, not_or, not_false_eq_true, nodup_nil,
      and_true]
    exact ⟨⟨different.1, different.2.1⟩, different.2.2⟩
  have choices := (orderFree_iff ⟨[left, right, taken], by show 3 < 2 ^ 63; decide⟩ distinct).mp
    (unordered _ distinct)
  have same : firstChoice finish (baseCounts finish [left, right, taken]) left =
      firstChoice finish (baseCounts finish [left, right, taken]) taken := by
    rw [whole] at apart
    unfold firstChoice baseCounts
    simp only [map_cons, map_nil, base.1, base.2, whole]
    rw [if_neg (by simp), if_pos (by simp)]
    simp only [appendSuffixBounded, length_shortHash]
    rfl
  simp [same] at choices

end AgentClaimNetwork.Mcp
