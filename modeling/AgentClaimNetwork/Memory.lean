import Mathlib.Data.List.Infix
import AgentClaimNetwork.Library.Grouping
import AgentClaimNetwork.Library.TornLog

/-!
The two memory texts: entries parted by a reserved delimiter, and the operations on them.
-/

namespace AgentClaimNetwork.Memory

open Library TornLog List

abbrev Text := List Char

inductive MemoryTarget where
  | memory
  | user
  deriving DecidableEq

inductive MemoryOp where
  | add (target : MemoryTarget) (entry : Text)
  | replace (target : MemoryTarget) (oldText newText : Text)
  | remove (target : MemoryTarget) (oldText : Text)

def MemoryOp.target : MemoryOp → MemoryTarget
  | .add target _ | .replace target _ _ | .remove target _ => target

def MemoryOp.newText : MemoryOp → Option Text
  | .add _ entry => some entry
  | .replace _ _ newText => some newText
  | .remove _ _ => none

structure MemoryUsage where
  chars : Nat
  capChars : Nat
  percent : Nat
  entryCount : Nat

/-- What the source keeps in two variables, one for each target. -/
structure PerTarget (Value : Type) where
  memory : Value
  user : Value
  deriving DecidableEq

structure MemoryApplyReport where
  usage : PerTarget MemoryUsage
  target : Option MemoryTarget
  targetEntries : List Text
  noOp : Bool
  message : Option String

inductive MemoryError where
  | capacityExceeded (target : String) (current cap needFree : Nat) (currentEntries : List Text)
  | ambiguousSubstring (target : String) (occurrences : Nat) (needle : Text)
  | reservedDelimiter (target : String)
  | emptyEntry (target : String)

namespace PerTarget

variable {Value Result : Type}

variable (values : PerTarget Value)

def get : MemoryTarget → Value
  | .memory => values.memory
  | .user => values.user

def set (target : MemoryTarget) (value : Value) : PerTarget Value :=
  match target with
  | .memory => { values with memory := value }
  | .user => { values with user := value }

def map (change : Value → Result) (values : PerTarget Value) : PerTarget Result :=
  ⟨change values.memory, change values.user⟩

@[simp] theorem get_map (change : Value → Result) (values : PerTarget Value)
    (target : MemoryTarget) : (values.map change).get target = change (values.get target) := by
  cases target <;> rfl

theorem get_set (target other : MemoryTarget) (value : Value) :
    (values.set target value).get other = if other = target then value else values.get other := by
  cases target <;> cases other <;> rfl

theorem ext_get {values others : PerTarget Value}
    (same : ∀ target, values.get target = others.get target) : values = others :=
  congr (congrArg mk (same .memory)) (same .user)

theorem set_get (target : MemoryTarget) : values.set target (values.get target) = values := by
  cases target <;> rfl

end PerTarget

def targetName : MemoryTarget → String
  | .memory => "MEMORY"
  | .user => "USER"

def parseEntries (text : Text) : List Text :=
  (text.splitOn '§').foldl (fun entries raw =>
    let trimmed := trim raw
    if trimmed ≠ [] ∧ trimmed ∉ entries then entries ++ [trimmed] else entries) []

section

variable (entries : List Text)

def renderEntries : Text := ['\n', '§', '\n'].intercalate entries

def dedupeEntries : List Text :=
  entries.foldl (fun deduped entry => if entry ∈ deduped then deduped else deduped ++ [entry]) []

def usageForEntries (capChars : Nat) : MemoryUsage :=
  let chars := (renderEntries entries).length
  ⟨chars, capChars, if 0 < capChars then min (chars * 100 / capChars) 100 else 0, entries.length⟩

variable (target : MemoryTarget)

def ensureNoReservedDelimiter (text : Option Text) : Except MemoryError Unit :=
  if text.any ('§' ∈ ·) then .error (.reservedDelimiter (targetName target)) else .ok ()

def trimEntry (entry : Text) : Except MemoryError Text :=
  let trimmed := trim entry
  if trimmed = [] then .error (.emptyEntry (targetName target)) else .ok trimmed

def uniqueMatchIndex (needle : Text) : Except MemoryError Nat :=
  let needle := trim needle
  if needle = [] then .error (.ambiguousSubstring (targetName target) 0 needle)
  else match entries.zipIdx.filter fun entry => needle <:+: entry.1 with
    | [] => .error (.ambiguousSubstring (targetName target) 0 needle)
    | [(_, idx)] => .ok idx
    | many@((first, idx) :: _) =>
      if many.all (·.1 = first) then .ok idx
      else .error (.ambiguousSubstring (targetName target) many.length needle)

def replaceUnique (oldText newText : Text) : Except MemoryError (List Text) := do
  let idx ← uniqueMatchIndex entries target oldText
  return entries.set idx newText

def removeUnique (oldText : Text) : Except MemoryError (List Text) := do
  let idx ← uniqueMatchIndex entries target oldText
  return entries.eraseIdx idx

end

def ensureCapacity (target : MemoryTarget) (entries : List Text) (cap : Nat) :
    Except MemoryError Unit :=
  let current := (renderEntries entries).length
  if current > cap then
    .error (.capacityExceeded (targetName target) current cap (current - cap) entries)
  else .ok ()

/-- One round of the loop over the operations. -/
def applyOp (entries : PerTarget (List Text)) (op : MemoryOp) :
    Except MemoryError (PerTarget (List Text) × String) := do
  ensureNoReservedDelimiter op.target op.newText
  match op with
  | .add target entry =>
    let trimmed ← trimEntry target entry
    if trimmed ∈ entries.get target then
      return (entries, "Entry already exists (no duplicate added).")
    else return (entries.set target (entries.get target ++ [trimmed]), "Entry added.")
  | .replace target oldText newText =>
    let trimmed ← trimEntry target newText
    let replaced ← replaceUnique (entries.get target) target oldText trimmed
    return (entries.set target replaced, "Entry replaced.")
  | .remove target oldText =>
    let left ← removeUnique (entries.get target) target oldText
    return (entries.set target left, "Entry removed.")

/-- The loop, with the target and the message of the last round. -/
def applyOps (entries : PerTarget (List Text)) (last : Option (MemoryTarget × String)) :
    List MemoryOp → Except MemoryError (PerTarget (List Text) × Option (MemoryTarget × String))
  | [] => .ok (entries, last)
  | op :: rest => do
    let (next, message) ← applyOp entries op
    applyOps next (some (op.target, message)) rest

def applyOpsToTexts (texts : PerTarget Text) (caps : PerTarget Nat) (ops : List MemoryOp) :
    Except MemoryError (PerTarget Text × MemoryApplyReport) := do
  let parsed := texts.map parseEntries
  let (changed, last) ← applyOps parsed none ops
  let entries := changed.map dedupeEntries
  ensureCapacity .memory entries.memory caps.memory
  ensureCapacity .user entries.user caps.user
  let next := entries.map renderEntries
  return (next, {
    usage := ⟨usageForEntries entries.memory caps.memory, usageForEntries entries.user caps.user⟩
    target := last.map (·.1)
    targetEntries := (last.map fun round => entries.get round.1).getD []
    noOp := next = parsed.map renderEntries
    message := last.map (·.2) })

/-- What an entry of a memory text is: not blank, trimmed, and free of the delimiter. -/
def Solid (entry : Text) : Prop := entry ≠ [] ∧ trim entry = entry ∧ '§' ∉ entry

variable {entries : List Text}

structure WellFormed (entries : List Text) : Prop where
  solid : ∀ entry ∈ entries, Solid entry
  distinct : entries.Nodup

theorem dedupeEntries_eq (entries : List Text) : dedupeEntries entries = entries.eraseDups := by
  induction entries using reverseRecOn with
  | nil => rfl
  | append_singleton entries entry ih =>
    unfold dedupeEntries at ih ⊢
    rw [foldl_concat, ih, eraseDups_snoc]
    simp only [mem_eraseDups]

theorem parseEntries_eq (text : Text) :
    parseEntries text = (((text.splitOn '§').map trim).filter (· ≠ [])).eraseDups := by
  unfold parseEntries
  induction text.splitOn '§' using reverseRecOn with
  | nil => rfl
  | append_singleton pieces raw ih =>
    rw [foldl_concat, ih, map_append, filter_append]
    by_cases blank : trim raw = []
    · simp [blank]
    · rw [map_singleton, filter_cons_of_pos (by simpa using blank), filter_nil, eraseDups_snoc]
      by_cases known : trim raw ∈ (pieces.map trim).filter (· ≠ [])
      · rw [if_pos known, if_neg fun fresh => fresh.2 (mem_eraseDups.mpr known)]
      · rw [if_neg known, if_pos ⟨blank, fun member => known (mem_eraseDups.mp member)⟩]

theorem not_mem_of_mem_splitOn {text piece : Text} (member : piece ∈ text.splitOn mark) :
    mark ∉ piece := by
  induction text generalizing piece with
  | nil =>
    rw [splitOn_nil, mem_singleton] at member
    simp [member]
  | cons first rest ih =>
    obtain ⟨head, tail, split⟩ := List.exists_cons_of_ne_nil (splitOn_ne_nil mark rest)
    rw [splitOn_cons_eq_if_modifyHead] at member
    by_cases here : (first == mark) = true
    · rw [if_pos here, mem_cons] at member
      rcases member with rfl | later
      · exact not_mem_nil
      · exact ih later
    · rw [if_neg here, split, modifyHead_cons, mem_cons] at member
      rw [split] at ih
      rcases member with rfl | later
      · have different : mark ≠ first := fun same => here (by simp [same])
        exact not_mem_cons_of_ne_of_not_mem different (ih mem_cons_self)
      · exact ih (mem_cons_of_mem _ later)

theorem solid_trim (nonempty : trim text ≠ []) (plain : '§' ∉ text) : Solid (trim text) :=
  ⟨nonempty, trim_trim, fun member =>
    plain ((dropWhile_suffix _).subset (( rdropWhile_prefix _ _).subset member))⟩

theorem wellFormed_dedupe (solid : ∀ entry ∈ entries, Solid entry) :
    WellFormed (dedupeEntries entries) := by
  rw [dedupeEntries_eq]
  exact ⟨fun entry member => solid entry (mem_eraseDups.mp member), nodup_eraseDups entries⟩

theorem wellFormed_parse : WellFormed (parseEntries text) := by
  rw [parseEntries_eq, ← dedupeEntries_eq]
  refine wellFormed_dedupe fun entry member => ?_
  obtain ⟨isPiece, nonempty⟩ := mem_filter.mp member
  obtain ⟨raw, isRaw, rfl⟩ := mem_map.mp isPiece
  exact solid_trim (by simpa using nonempty) (not_mem_of_mem_splitOn isRaw)

theorem map_trim_splitOn {padding : Text} (blank : padding.all LineLog.isWhitespace = true)
    (solid : ∀ entry ∈ entries, Solid entry) (nonempty : entries ≠ []) :
    ((padding ++ renderEntries entries).splitOn '§').map trim = entries := by
  have plain : '§' ∉ padding := by
    intro member
    cases List.all_eq_true.mp blank _ member
  induction entries generalizing padding with
  | nil => exact absurd rfl nonempty
  | cons entry rest ih =>
    obtain ⟨⟨filled, trimmed, free⟩, others⟩ := forall_mem_cons.mp solid
    cases rest with
    | nil =>
      have shown : renderEntries [entry] = entry := by simp [renderEntries, intercalate]
      rw [shown, splitOn_eq_singleton (by simp [plain, free]), map_singleton]
      have padded := @trim_padded entry padding [] blank rfl filled trimmed
      rw [append_nil] at padded
      rw [padded]
    | cons other rest =>
      have shown : padding ++ renderEntries (entry :: other :: rest) =
          (padding ++ entry ++ ['\n']) ++ '§' :: (['\n'] ++ renderEntries (other :: rest)) := by
        simp [renderEntries, intercalate]
      rw [shown, splitOn_append_cons_self_of_not_mem (by simp [plain, free]), map_cons,
        ih rfl others (by simp) (by decide), trim_padded blank rfl filled trimmed]

theorem parse_render (well : WellFormed entries) : parseEntries (renderEntries entries) = entries := by
  by_cases nonempty : entries = []
  · subst nonempty
    rfl
  · have pieces := @map_trim_splitOn entries [] rfl well.solid nonempty
    rw [nil_append] at pieces
    rw [parseEntries_eq, pieces, filter_eq_self.mpr, eraseDups_of_nodup well.distinct]
    intro entry member
    simpa using (well.solid entry member).1

/-- The one text among the entries that the trimmed needle occurs in. -/
structure Unique (entries : List Text) (needle entry : Text) : Prop where
  filled : trim needle ≠ []
  listed : entry ∈ entries
  occurs : trim needle <:+: entry
  only : ∀ other ∈ entries, trim needle <:+: other → other = entry

theorem uniqueMatchIndex_spec :
    (∃ index entry, uniqueMatchIndex entries target needle = .ok index ∧
      Unique entries needle entry ∧ entries[index]? = some entry) ∨
    (∃ error, uniqueMatchIndex entries target needle = .error error) ∧
      ∀ entry, ¬ Unique entries needle entry := by
  unfold uniqueMatchIndex
  by_cases blank : trim needle = []
  · exact .inr ⟨⟨_, if_pos blank⟩, fun _ unique => unique.filled blank⟩
  rw [if_neg blank]
  have inside : ∀ found ∈ entries.zipIdx.filter fun other => trim needle <:+: other.1,
      entries[found.2]? = some found.1 ∧ trim needle <:+: found.1 := by
    intro found member
    obtain ⟨listed, occurs⟩ := mem_filter.mp member
    exact ⟨mem_zipIdx_iff_getElem?.mp listed, by simpa using occurs⟩
  have all : ∀ other ∈ entries, trim needle <:+: other →
      ∃ index, (other, index) ∈ entries.zipIdx.filter fun other => trim needle <:+: other.1 := by
    intro other listed occurs
    obtain ⟨index, place⟩ := mem_iff_getElem?.mp listed
    exact ⟨index, mem_filter.mpr ⟨mem_zipIdx_iff_getElem?.mpr place, by simpa using occurs⟩⟩
  have settled : ∀ first index rest, (entries.zipIdx.filter fun other =>
      trim needle <:+: other.1) = (first, index) :: rest → (∀ other ∈ rest, other.1 = first) →
      Unique entries needle first ∧ entries[index]? = some first := by
    intro first index rest found alike
    rw [found] at inside all
    obtain ⟨place, occurs⟩ := inside _ mem_cons_self
    refine ⟨⟨blank, mem_of_getElem? place, occurs, fun other listed hit => ?_⟩, place⟩
    obtain ⟨_, member⟩ := all other listed hit
    rcases mem_cons.mp member with same | later
    · exact congrArg Prod.fst same
    · exact alike _ later
  split
  · rename_i none
    refine .inr ⟨⟨_, rfl⟩, fun entry unique => ?_⟩
    obtain ⟨_, member⟩ := all entry unique.listed unique.occurs
    cases none ▸ member
  · rename_i found
    exact .inl ⟨_, _, rfl, settled _ _ _ found nofun⟩
  · rename_i first index rest _ found
    split_ifs with alike
    · refine .inl ⟨index, first, rfl, settled _ _ _ found fun other member => ?_⟩
      simpa using List.all_eq_true.mp alike _ (mem_cons_of_mem _ member)
    · refine .inr ⟨⟨_, rfl⟩, fun entry unique => alike (List.all_eq_true.mpr ?_)⟩
      have only : ∀ other ∈ (first, index) :: rest, other.1 = entry := by
        intro other member
        obtain ⟨place, occurs⟩ := inside other (found ▸ member)
        exact unique.only _ (mem_of_getElem? place) occurs
      intro other member
      exact decide_eq_true ((only other member).trans (only _ mem_cons_self).symm)

theorem uniqueMatchIndex_ok (ok : uniqueMatchIndex entries target needle = .ok index) :
    ∃ entry, Unique entries needle entry ∧ entries[index]? = some entry := by
  rcases uniqueMatchIndex_spec with
    ⟨other, entry, found, unique, place⟩ | ⟨⟨_, refused⟩, -⟩
  · cases ok.symm.trans found
    exact ⟨entry, unique, place⟩
  · cases ok.symm.trans refused

theorem Unique.found (unique : Unique entries needle entry) (target : MemoryTarget) :
    ∃ index, uniqueMatchIndex entries target needle = .ok index := by
  rcases uniqueMatchIndex_spec with ⟨index, _, found, _⟩ | ⟨-, none⟩
  · exact ⟨index, found⟩
  · exact absurd unique (none entry)

/-- What an accepted operation makes of the entries of its target. -/
def MemoryOp.Changes (before after : List Text) : MemoryOp → Prop
  | .add _ entry => '§' ∉ entry ∧ trim entry ≠ [] ∧
      after = if trim entry ∈ before then before else before ++ [trim entry]
  | .replace _ oldText newText => '§' ∉ newText ∧ trim newText ≠ [] ∧
      ∃ entry index, Unique before oldText entry ∧ before[index]? = some entry ∧
        after = before.set index (trim newText)
  | .remove _ oldText => ∃ entry index, Unique before oldText entry ∧
      before[index]? = some entry ∧ after = before.eraseIdx index

theorem ensureNoReservedDelimiter_ok :
    ensureNoReservedDelimiter target (some text) = .ok () ↔ '§' ∉ text := by
  unfold ensureNoReservedDelimiter
  by_cases reserved : '§' ∈ text <;> simp [reserved]

theorem trimEntry_ok :
    trimEntry target text = .ok trimmed ↔ trim text ≠ [] ∧ trimmed = trim text := by
  unfold trimEntry
  by_cases blank : trim text = [] <;> simp [blank, eq_comm]

variable {held next : PerTarget (List Text)} {op : MemoryOp}

theorem applyOp_changes (ok : applyOp held op = .ok (next, message)) :
    ∃ list, op.Changes (held.get op.target) list ∧ next = held.set op.target list := by
  obtain ⟨⟨⟩, plain, ok⟩ := bind_ok ok
  cases op with
  | add target entry =>
    obtain ⟨trimmed, isTrimmed, ok⟩ := bind_ok ok
    obtain ⟨filled, rfl⟩ := trimEntry_ok.mp isTrimmed
    refine ⟨_, ⟨ensureNoReservedDelimiter_ok.mp plain, filled, rfl⟩, ?_⟩
    split at ok <;> rename_i known <;> cases ok <;>
      simp [MemoryOp.target, known, PerTarget.set_get]
  | replace target oldText newText =>
    obtain ⟨trimmed, isTrimmed, ok⟩ := bind_ok ok
    obtain ⟨filled, rfl⟩ := trimEntry_ok.mp isTrimmed
    obtain ⟨replaced, isReplaced, ok⟩ := bind_ok ok
    obtain ⟨index, isIndex, same⟩ := bind_ok isReplaced
    obtain ⟨entry, unique, place⟩ := uniqueMatchIndex_ok isIndex
    cases same
    cases ok
    exact ⟨_, ⟨ensureNoReservedDelimiter_ok.mp plain, filled, entry, index, unique, place, rfl⟩, rfl⟩
  | remove target oldText =>
    obtain ⟨left, isLeft, ok⟩ := bind_ok ok
    obtain ⟨index, isIndex, same⟩ := bind_ok isLeft
    obtain ⟨entry, unique, place⟩ := uniqueMatchIndex_ok isIndex
    cases same
    cases ok
    exact ⟨_, ⟨entry, index, unique, place, rfl⟩, rfl⟩

theorem applyOp_of_changes (changes : op.Changes (held.get op.target) list) :
    ∃ next message, applyOp held op = .ok (next, message) := by
  unfold applyOp
  cases op with
  | add target entry =>
    obtain ⟨plain, filled, -⟩ := changes
    have free := (@ensureNoReservedDelimiter_ok target entry).mpr plain
    have trimmed := (@trimEntry_ok target entry _).mpr ⟨filled, rfl⟩
    simp only [MemoryOp.target, MemoryOp.newText, free, trimmed, bind, Except.bind]
    split_ifs <;> exact ⟨_, _, rfl⟩
  | replace target oldText newText =>
    obtain ⟨plain, filled, _, _, unique, -⟩ := changes
    have free := (@ensureNoReservedDelimiter_ok target newText).mpr plain
    have trimmed := (@trimEntry_ok target newText _).mpr ⟨filled, rfl⟩
    obtain ⟨index, found⟩ := unique.found target
    simp only [MemoryOp.target] at found
    simp only [MemoryOp.target, MemoryOp.newText, free, trimmed, replaceUnique, found, bind,
      Except.bind]
    exact ⟨_, _, rfl⟩
  | remove target oldText =>
    obtain ⟨_, _, unique, -⟩ := changes
    have free : ensureNoReservedDelimiter target none = .ok () := rfl
    obtain ⟨index, found⟩ := unique.found target
    simp only [MemoryOp.target] at found
    simp only [MemoryOp.target, MemoryOp.newText, free, removeUnique, found, bind, Except.bind]
    exact ⟨_, _, rfl⟩

theorem MemoryOp.Changes.solid (changes : op.Changes entries changed)
    (solid : ∀ entry ∈ entries, Solid entry) : ∀ entry ∈ changed, Solid entry := by
  intro entry member
  cases op with
  | add _ added =>
    obtain ⟨plain, filled, rfl⟩ := changes
    split_ifs at member
    · exact solid entry member
    · rcases mem_concat member with earlier | rfl
      · exact solid entry earlier
      · exact solid_trim filled plain
  | replace _ _ newText =>
    obtain ⟨plain, filled, _, _, _, _, rfl⟩ := changes
    rcases mem_or_eq_of_mem_set member with earlier | rfl
    · exact solid entry earlier
    · exact solid_trim filled plain
  | remove =>
    obtain ⟨_, _, _, _, rfl⟩ := changes
    exact solid entry (mem_of_mem_eraseIdx member)

theorem applyOps_solid {entries final : PerTarget (List Text)} {ops : List MemoryOp}
    (solid : ∀ target, ∀ entry ∈ entries.get target, Solid entry)
    (applied : applyOps entries last ops = .ok (final, reached)) :
    ∀ target, ∀ entry ∈ final.get target, Solid entry := by
  induction ops generalizing entries last with
  | nil =>
    cases applied
    exact solid
  | cons op rest ih =>
    obtain ⟨⟨next, message⟩, first, later⟩ := bind_ok applied
    obtain ⟨list, changes, rfl⟩ := applyOp_changes first
    refine ih (fun target => ?_) later
    rw [PerTarget.get_set]
    split_ifs
    · exact changes.solid (solid op.target)
    · exact solid target

theorem ensureCapacity_ok :
    ensureCapacity target entries cap = .ok () ↔ (renderEntries entries).length ≤ cap := by
  unfold ensureCapacity
  dsimp only
  split_ifs with more
  · simp [Nat.not_le.mpr more]
  · simp [Nat.not_lt.mp more]

theorem applyOpsToTexts_ok {texts next : PerTarget Text} :
    (∃ report, applyOpsToTexts texts caps ops = .ok (next, report) ∧ report.noOp = noOp) ↔
      ∃ changed last, applyOps (texts.map parseEntries) none ops = .ok (changed, last) ∧
        (∀ target, (next.get target).length ≤ caps.get target) ∧
        next = (changed.map dedupeEntries).map renderEntries ∧
        noOp = decide (next = (texts.map parseEntries).map renderEntries) := by
  constructor
  · rintro ⟨report, ok, rfl⟩
    obtain ⟨⟨changed, last⟩, applied, ok⟩ := bind_ok ok
    obtain ⟨⟨⟩, memory, ok⟩ := bind_ok ok
    obtain ⟨⟨⟩, user, ok⟩ := bind_ok ok
    cases ok
    refine ⟨changed, last, applied, fun target => ?_, rfl, rfl⟩
    cases target with
    | memory => exact ensureCapacity_ok.mp memory
    | user => exact ensureCapacity_ok.mp user
  · rintro ⟨changed, last, applied, fits, rfl, rfl⟩
    have memory : ensureCapacity .memory (changed.map dedupeEntries).memory caps.memory = .ok () :=
      ensureCapacity_ok.mpr (fits .memory)
    have user : ensureCapacity .user (changed.map dedupeEntries).user caps.user = .ok () :=
      ensureCapacity_ok.mpr (fits .user)
    simp only [applyOpsToTexts, applied, bind, Except.bind, memory, user]
    exact ⟨_, rfl, rfl⟩

theorem wellFormed_texts (texts : PerTarget Text) (target : MemoryTarget) :
    WellFormed ((texts.map parseEntries).get target) := by
  rw [PerTarget.get_map]
  exact wellFormed_parse

theorem applied_entries {texts : PerTarget Text}
    (applied : applyOps (texts.map parseEntries) none ops = .ok (changed, last)) :
    ((changed.map dedupeEntries).map renderEntries).map parseEntries = changed.map dedupeEntries := by
  refine PerTarget.ext_get fun target => ?_
  have solid := applyOps_solid (fun target => (wellFormed_texts texts target).solid) applied
  simp only [PerTarget.get_map, parse_render (wellFormed_dedupe (solid target))]

theorem dedupe_parsed (texts : PerTarget Text) :
    (texts.map parseEntries).map dedupeEntries = texts.map parseEntries := by
  refine PerTarget.ext_get fun target => ?_
  rw [PerTarget.get_map, dedupeEntries_eq, eraseDups_of_nodup (wellFormed_texts texts target).distinct]

theorem applied_report {texts next : PerTarget Text} {report : MemoryApplyReport}
    (applied : applyOpsToTexts texts caps ops = .ok (next, report)) (target : MemoryTarget) :
    (report.usage.get target).entryCount = (parseEntries (next.get target)).length ∧
      (report.target = some target → report.targetEntries = parseEntries (next.get target)) := by
  obtain ⟨⟨changed, last⟩, arrived, ok⟩ := bind_ok applied
  have read := congrArg (·.get target) (applied_entries arrived)
  obtain ⟨⟨⟩, -, ok⟩ := bind_ok ok
  obtain ⟨⟨⟩, -, ok⟩ := bind_ok ok
  cases ok
  rw [PerTarget.get_map] at read
  rw [read]
  refine ⟨by cases target <;> rfl, fun isTarget => ?_⟩
  obtain ⟨round, rfl, rfl⟩ := Option.map_eq_some_iff.mp isTarget
  rfl

/-- What a call returns is well formed and as its report says; a call without operations on it
changes nothing. -/
theorem applied_texts_well_formed {texts next : PerTarget Text} {caps : PerTarget Nat}
    {ops : List MemoryOp} {report : MemoryApplyReport}
    (applied : applyOpsToTexts texts caps ops = .ok (next, report)) :
    (∀ target, ∃ entries, WellFormed entries ∧ next.get target = renderEntries entries ∧
      parseEntries (next.get target) = entries ∧ (next.get target).length ≤ caps.get target ∧
      (report.usage.get target).entryCount = entries.length ∧
      (report.target = some target → report.targetEntries = entries)) ∧
    (∃ again, applyOpsToTexts next caps [] = .ok (next, again) ∧ again.noOp = true) ∧
    (report.noOp = true ↔
      ∀ target, next.get target = renderEntries (parseEntries (texts.get target))) := by
  obtain ⟨changed, last, arrived, fits, isNext, noOp⟩ := applyOpsToTexts_ok.mp ⟨report, applied, rfl⟩
  have read : next.map parseEntries = changed.map dedupeEntries := by
    rw [isNext]
    exact applied_entries arrived
  have rendered : next = (next.map parseEntries).map renderEntries := by rw [read, ← isNext]
  refine ⟨fun target => ⟨_, wellFormed_parse, ?_, rfl, fits target,
    applied_report applied target⟩, ?_, ?_⟩
  · conv_lhs => rw [rendered]
    rw [PerTarget.get_map, PerTarget.get_map]
  · refine applyOpsToTexts_ok.mpr ⟨_, _, rfl, fits, ?_, ?_⟩
    · rw [dedupe_parsed, ← rendered]
    · exact (decide_eq_true rendered).symm
  · rw [noOp, decide_eq_true_iff]
    constructor
    · intro same target
      rw [same, PerTarget.get_map, PerTarget.get_map]
    · intro same
      refine PerTarget.ext_get fun target => ?_
      rw [same, PerTarget.get_map, PerTarget.get_map]

def oneEntry : PerTarget Text := ⟨"a".toList, []⟩

def twoEntries : PerTarget Text := ⟨"a\n§\nb".toList, []⟩

theorem added_text_well_formed :
    (∃ entries, WellFormed entries ∧ twoEntries.memory = renderEntries entries ∧
      parseEntries twoEntries.memory = entries ∧ twoEntries.memory.length ≤ 5 ∧
      2 = entries.length ∧ ["a".toList, "b".toList] = entries) ∧
    ∃ again, applyOpsToTexts twoEntries ⟨5, 0⟩ [] = .ok (twoEntries, again) ∧ again.noOp = true := by
  have added : applyOpsToTexts oneEntry ⟨5, 0⟩ [.add .memory " b".toList] = .ok (twoEntries, _) := rfl
  obtain ⟨kept, again, -⟩ := applied_texts_well_formed added
  obtain ⟨entries, formed, rendered, parsed, fits, counted, listed⟩ := kept .memory
  exact ⟨⟨entries, formed, rendered, parsed, fits, counted, listed rfl⟩, again⟩

end AgentClaimNetwork.Memory
