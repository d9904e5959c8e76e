import AgentClaimNetwork.Memory

/-!
A batch of operations beside the same operations one at a time.  A batch drops equal entries at
its end only, so it differs where an operation touches an entry that stands twice by then.
-/

namespace AgentClaimNetwork.Memory

open Library TornLog List

/-- Each operation in a call of its own, on the texts of the call before. -/
def applyOneByOne (caps : PerTarget Nat) : PerTarget Text → List MemoryOp →
    Except MemoryError (PerTarget Text)
  | texts, [] => .ok texts
  | texts, op :: rest => do
    let (next, _) ← applyOpsToTexts texts caps [op]
    applyOneByOne caps next rest

/-- The operation takes away one of two equal entries of its target. -/
def MemoryOp.TouchesTwin (entries : List Text) : MemoryOp → Prop
  | .add _ _ => False
  | .replace _ oldText newText => ∃ entry, Unique entries oldText entry ∧
      1 < entries.count entry ∧ trim newText ≠ entry
  | .remove _ oldText => ∃ entry, Unique entries oldText entry ∧ 1 < entries.count entry

/-- No operation touches a twin in the entries that the batch has when it comes to it. -/
def Careful : PerTarget (List Text) → List MemoryOp → Prop
  | _, [] => True
  | entries, op :: rest => ¬ op.TouchesTwin (entries.get op.target) ∧
      ∀ next message, applyOp entries op = .ok (next, message) → Careful next rest

theorem Unique.dedupe : Unique (dedupeEntries entries) needle entry ↔ Unique entries needle entry := by
  rw [dedupeEntries_eq]
  exact ⟨fun ⟨filled, listed, occurs, only⟩ => ⟨filled, mem_eraseDups.mp listed, occurs,
      fun other member => only other (mem_eraseDups.mpr member)⟩,
    fun ⟨filled, listed, occurs, only⟩ => ⟨filled, mem_eraseDups.mpr listed, occurs,
      fun other member => only other (mem_eraseDups.mp member)⟩⟩

/-- Every copy of an entry replaced, or dropped. -/
def swap (entry : Text) (change : Option Text) (entries : List Text) : List Text :=
  entries.filterMap fun other => if other = entry then change else some other

variable {held : PerTarget (List Text)} {op : MemoryOp}

theorem swap_absent (change : Option Text) (absent : entry ∉ part) :
    swap entry change part = part := by
  refine (filterMap_congr fun other member => ?_).trans filterMap_some
  have different : other ≠ entry := by
    rintro rfl
    exact absent member
  exact if_neg different

theorem swap_single (place : entries[index]? = some entry) (single : ¬ 1 < entries.count entry) :
    (∀ next, entries.set index next = swap entry (some next) entries) ∧
      entries.eraseIdx index = swap entry none entries := by
  obtain ⟨bound, here⟩ := List.getElem?_eq_some_iff.mp place
  have split : entries = entries.take index ++ entry :: entries.drop (index + 1) := by
    rw [← here, getElem_cons_drop, take_append_drop]
  have counted := congrArg (count entry) split
  rw [count_append, count_cons_self] at counted
  have absent : entry ∉ entries.take index ∧ entry ∉ entries.drop (index + 1) := by
    constructor <;> intro member <;> have copies := count_pos_iff.mpr member <;> omega
  have parts : ∀ change, swap entry change entries =
      entries.take index ++ (change.toList ++ entries.drop (index + 1)) := by
    intro change
    have left := swap_absent change absent.1
    have right := swap_absent change absent.2
    unfold swap at left right ⊢
    conv_lhs => rw [split, filterMap_append, filterMap_cons, if_pos rfl, left]
    cases change <;> simp [right]
  refine ⟨fun next => ?_, ?_⟩
  · rw [parts, set_eq_take_append_cons_drop, if_pos bound]
    rfl
  · rw [parts, eraseIdx_eq_take_drop_succ]
    rfl

theorem dedupe_swap (change : Option Text) (entries : List Text) :
    dedupeEntries (swap entry change (dedupeEntries entries)) =
      dedupeEntries (swap entry change entries) := by
  simp only [dedupeEntries_eq]
  exact eraseDups_filterMap _ _

theorem dedupe_dedupe (entries : List Text) :
    dedupeEntries (dedupeEntries entries) = dedupeEntries entries := by
  simp only [dedupeEntries_eq, eraseDups_of_nodup (nodup_eraseDups entries)]

theorem single_dedupe :
    ¬ 1 < (dedupeEntries entries).count entry := by
  rw [dedupeEntries_eq]
  exact Nat.not_lt.mpr (nodup_iff_count_le_one.mp (nodup_eraseDups entries) entry)

/-- An operation that touches no twin does to the entries what it does to them without twins. -/
theorem changes_dedupe (careful : ¬ op.TouchesTwin entries)
    (changes : op.Changes (dedupeEntries entries) alone) :
    (∃ changed, op.Changes entries changed) ∧ ∀ together, op.Changes entries together →
      dedupeEntries together = dedupeEntries alone := by
  cases op with
  | add _ entry =>
    obtain ⟨plain, filled, rfl⟩ := changes
    refine ⟨⟨_, plain, filled, rfl⟩, ?_⟩
    rintro _ ⟨-, -, rfl⟩
    have alike : trim entry ∈ dedupeEntries entries ↔ trim entry ∈ entries := by
      rw [dedupeEntries_eq, mem_eraseDups]
    by_cases known : trim entry ∈ entries
    · rw [if_pos known, if_pos (alike.mpr known), dedupe_dedupe]
    · rw [if_neg known, if_neg (mt alike.mp known)]
      simp only [dedupeEntries_eq, eraseDups_snoc, mem_eraseDups, if_neg known,
        eraseDups_of_nodup (nodup_eraseDups _)]
  | replace _ oldText newText =>
    obtain ⟨plain, filled, entry, index, unique, place, rfl⟩ := changes
    have among := Unique.dedupe.mp unique
    obtain ⟨first, isFirst⟩ := mem_iff_getElem?.mp among.listed
    refine ⟨⟨_, plain, filled, entry, first, among, isFirst, rfl⟩, ?_⟩
    rintro _ ⟨-, -, other, start, others, isPlace, rfl⟩
    obtain rfl := among.only other others.listed others.occurs
    rw [(swap_single place single_dedupe).1, dedupe_swap]
    by_cases twin : 1 < entries.count other
    · have same : trim newText = other :=
        by_contra fun differs => careful ⟨other, among, twin, differs⟩
      have whole : swap other (some other) entries = entries := by
        refine (filterMap_congr fun entry _ => ?_).trans filterMap_some
        split_ifs with here
        · rw [here]
        · rfl
      obtain ⟨bound, here⟩ := List.getElem?_eq_some_iff.mp isPlace
      rw [same, whole, ← here, set_getElem_self]
    · rw [(swap_single isPlace twin).1]
  | remove _ oldText =>
    obtain ⟨entry, index, unique, place, rfl⟩ := changes
    have among := Unique.dedupe.mp unique
    obtain ⟨first, isFirst⟩ := mem_iff_getElem?.mp among.listed
    refine ⟨⟨_, entry, first, among, isFirst, rfl⟩, ?_⟩
    rintro _ ⟨other, start, others, isPlace, rfl⟩
    obtain rfl := among.only other others.listed others.occurs
    have single : ¬ 1 < entries.count other := fun twin => careful ⟨other, among, twin⟩
    rw [(swap_single place single_dedupe).2, dedupe_swap, (swap_single isPlace single).2]

theorem applyOp_dedupe (careful : ¬ op.TouchesTwin (held.get op.target))
    (ok : applyOp (held.map dedupeEntries) op = .ok (alone, message)) :
    ∃ together message, applyOp held op = .ok (together, message) ∧
      together.map dedupeEntries = alone.map dedupeEntries := by
  obtain ⟨list, changes, rfl⟩ := applyOp_changes ok
  rw [PerTarget.get_map] at changes
  obtain ⟨⟨_, accepted⟩, agree⟩ := changes_dedupe careful changes
  obtain ⟨together, message, done⟩ := applyOp_of_changes accepted
  obtain ⟨changed, made, rfl⟩ := applyOp_changes done
  refine ⟨_, message, done, PerTarget.ext_get fun target => ?_⟩
  simp only [PerTarget.get_map, PerTarget.get_set]
  split_ifs
  · exact agree changed made
  · exact (dedupe_dedupe _).symm

/-- Each call of its own reads back the entries of the batch, without their twins. -/
theorem applyOps_of_oneByOne (last : Option (MemoryTarget × String))
    (read : texts.map parseEntries = entries.map dedupeEntries) (careful : Careful entries ops)
    (single : applyOneByOne caps texts ops = .ok final) :
    ∃ changed after, applyOps entries last ops = .ok (changed, after) ∧
      final.map parseEntries = changed.map dedupeEntries ∧
      (ops ≠ [] → final = (changed.map dedupeEntries).map renderEntries ∧
        ∀ target, (final.get target).length ≤ caps.get target) := by
  induction ops generalizing texts entries last with
  | nil =>
    cases single
    exact ⟨entries, last, rfl, read, fun nonempty => absurd rfl nonempty⟩
  | cons op rest ih =>
    obtain ⟨⟨next, report⟩, first, later⟩ := bind_ok single
    obtain ⟨alone, _, ran, fits, isNext, -⟩ := applyOpsToTexts_ok.mp ⟨report, first, rfl⟩
    obtain ⟨⟨alone, message⟩, ok, same⟩ := bind_ok ran
    cases same
    have readNext := applied_entries ran
    rw [← isNext] at readNext
    rw [read] at ok
    obtain ⟨together, message, done, alike⟩ := applyOp_dedupe careful.1 ok
    obtain ⟨changed, after, ended, reads, settled⟩ := ih (some (op.target, message))
      (readNext.trans alike.symm) (careful.2 together message done) later
    refine ⟨changed, after, ?_, reads, fun _ => ?_⟩
    · simp only [applyOps, done, bind, Except.bind]
      exact ended
    · cases rest with
      | nil =>
        cases later
        cases ended
        exact ⟨by rw [isNext, alike], fits⟩
      | cons => exact settled nofun

/-- A batch that touches no twin ends like its operations one at a time. -/
theorem batch_eq_one_by_one {texts final : PerTarget Text} {caps : PerTarget Nat}
    {ops : List MemoryOp} (nonempty : ops ≠ [])
    (careful : Careful (texts.map parseEntries) ops)
    (single : applyOneByOne caps texts ops = .ok final) :
    ∃ report, applyOpsToTexts texts caps ops = .ok (final, report) := by
  obtain ⟨changed, after, applied, -, settled⟩ :=
    applyOps_of_oneByOne none (dedupe_parsed texts).symm careful single
  obtain ⟨rendered, fits⟩ := settled nonempty
  obtain ⟨report, ok, -⟩ := applyOpsToTexts_ok.mpr ⟨changed, after, applied, fits, rendered, rfl⟩
  exact ⟨report, ok⟩

theorem batch_eq_one_by_one_replaced : ∃ report,
    applyOpsToTexts twoEntries ⟨5, 0⟩
        [.replace .memory "a".toList "b".toList, .add .memory "c".toList, .remove .memory "c".toList] =
      .ok (⟨"b".toList, []⟩, report) := by
  refine batch_eq_one_by_one nofun ⟨?_, ?_⟩ rfl
  · rintro ⟨entry, -, twin, -⟩
    have distinct : ["a".toList, "b".toList].Nodup := by decide
    exact absurd (nodup_iff_count_le_one.mp distinct entry) (Nat.not_le.mpr twin)
  · rintro _ _ ⟨⟩
    refine ⟨id, ?_⟩
    rintro _ _ ⟨⟩
    refine ⟨?_, fun _ _ _ => trivial⟩
    rintro ⟨entry, isC, twin⟩
    obtain rfl := isC.only "c".toList (by decide) (List.infix_refl _)
    exact absurd twin (by decide)

/-- Replacing one entry by another and then removing that one leaves a copy in a batch. -/
theorem batch_keeps_second_copy : ∃ texts caps ops final,
    applyOneByOne caps texts ops = .ok final ∧
      ¬ ∃ report, applyOpsToTexts texts caps ops = .ok (final, report) := by
  refine ⟨twoEntries, ⟨5, 0⟩, [.replace .memory "a".toList "b".toList, .remove .memory "b".toList],
    ⟨[], []⟩, rfl, ?_⟩
  rintro ⟨report, same⟩
  cases same

end AgentClaimNetwork.Memory
