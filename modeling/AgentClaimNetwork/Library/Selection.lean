import Mathlib.Data.List.Sort

/-!
A list ordered by a key, an incomplete copy of it, and a limited selection that takes the
copy first and what the copy lacks after it.
-/

namespace AgentClaimNetwork.Library.Selection

open List

variable {Item : Type} {key : Item → Nat} {all part : List Item}

def Ordered (key : Item → Nat) (items : List Item) : Prop :=
  items.Pairwise fun left right => key left < key right

def missing (key : Item → Nat) (all part : List Item) : List Item :=
  all.filter fun item => !part.any (key · == key item)

theorem Ordered.eq_of_key (ordered : Ordered key all) (inLeft : left ∈ all) (inRight : right ∈ all)
    (same : key left = key right) : left = right := by
  induction all with
  | nil => cases inLeft
  | cons first rest ih =>
    obtain ⟨below, later⟩ := pairwise_cons.mp ordered
    rcases mem_cons.mp inLeft with rfl | leftRest
    · rcases mem_cons.mp inRight with rfl | rightRest
      · rfl
      · have less := below right rightRest
        omega
    · rcases mem_cons.mp inRight with rfl | rightRest
      · have less := below left leftRest
        omega
      · exact ih later leftRest rightRest

theorem filter_part (ordered : Ordered key all) (isPart : part.Sublist all) :
    (all.filter fun item => part.any (key · == key item)) = part := by
  induction isPart with
  | slnil => rfl
  | @cons part all first _ ih =>
    obtain ⟨below, later⟩ := pairwise_cons.mp ordered
    have skipped : part.any (key · == key first) = false := by
      rw [any_eq_false]
      intro item member
      have less := below item (List.Sublist.subset ‹part.Sublist all› member)
      simp only [beq_iff_eq]
      omega
    rw [filter_cons_of_neg (by rw [skipped]; simp), ih later]
  | @cons_cons part all first _ ih =>
    obtain ⟨below, later⟩ := pairwise_cons.mp ordered
    rw [filter_cons_of_pos (by simp)]
    congr 1
    rw [← ih later]
    apply filter_congr
    intro item member
    have less := below item member
    have other : (key first == key item) = false := by
      rw [beq_eq_false_iff_ne]
      omega
    rw [ih later, any_cons, other, Bool.false_or]

theorem part_perm (ordered : Ordered key all) (isPart : part.Sublist all) :
    (part ++ missing key all part).Perm all := by
  have split := filter_append_perm (fun item => part.any (key · == key item)) all
  rwa [filter_part ordered isPart] at split

def sortByKey (key : Item → Nat) (items : List Item) : List Item :=
  items.mergeSort fun left right => decide (key left ≤ key right)

theorem sortByKey_perm (items : List Item) : (sortByKey key items).Perm items :=
  mergeSort_perm items _

theorem sortByKey_inOrder (items : List Item) :
    (sortByKey key items).Pairwise fun left right => key left ≤ key right := by
  have sorted : (sortByKey key items).Pairwise fun left right =>
      decide (key left ≤ key right) = true := by
    apply pairwise_mergeSort
    · intro first second third below above
      simp only [decide_eq_true_eq] at below above ⊢
      omega
    · intro left right
      simp only [Bool.or_eq_true, decide_eq_true_eq]
      omega
  exact sorted.imp fun below => of_decide_eq_true below

theorem prefix_of_selection (ordered : Ordered key all) (rest : List Item)
    (inOrder : chosen.Pairwise fun left right => key left ≤ key right)
    (behind : ∀ item ∈ chosen, ∀ other ∈ rest, key item ≤ key other)
    (perm : (chosen ++ rest).Perm all) : chosen <+: all := by
  have together : (chosen ++ sortByKey key rest).Pairwise
      fun left right => key left ≤ key right := by
    rw [pairwise_append]
    refine ⟨inOrder, sortByKey_inOrder rest, ?_⟩
    intro item member other later
    exact behind item member other ((sortByKey_perm rest).subset later)
  have permuted : (chosen ++ sortByKey key rest).Perm all :=
    ((sortByKey_perm rest).append_left chosen).trans perm
  have allOrdered : all.Pairwise fun left right => key left ≤ key right :=
    List.Pairwise.imp (fun below => Nat.le_of_lt below) ordered
  have same : chosen ++ sortByKey key rest = all := by
    refine permuted.eq_of_pairwise ?_ together allOrdered
    intro left right inLeft inRight below above
    exact ordered.eq_of_key (permuted.subset inLeft) inRight (by omega)
  exact ⟨_, same⟩

theorem selection_starts (ordered : Ordered key all) (isPart : part.Sublist all)
    (room : ∀ gap ∈ (missing key all part).drop (limit - part.length),
      ∀ item ∈ part.take limit, key item < key gap)
    (inOrder : chosen.Pairwise fun left right => key left ≤ key right)
    (perm : chosen.Perm (part.take limit ++
      (missing key all part).take (limit - part.length))) : chosen <+: all := by
  let gaps := missing key all part
  have partOrdered : Ordered key part := List.Pairwise.sublist isPart ordered
  have gapsOrdered : Ordered key gaps := List.Pairwise.sublist filter_sublist ordered
  have cut : ∀ {items : List Item} (count : Nat), Ordered key items →
      ∀ item ∈ items.take count, ∀ other ∈ items.drop count, key item < key other := by
    intro items count sorted
    rw [Ordered, ← take_append_drop count items, pairwise_append] at sorted
    exact sorted.2.2
  refine prefix_of_selection ordered (part.drop limit ++ gaps.drop (limit - part.length))
    inOrder ?_ ?_
  · intro item member other later
    rcases mem_append.mp (perm.subset member) with fromPart | fromGaps
    · rcases mem_append.mp later with laterPart | laterGap
      · exact (cut limit partOrdered item fromPart other laterPart).le
      · exact (room other laterGap item fromPart).le
    · rcases mem_append.mp later with laterPart | laterGap
      · -- something of the copy is left out only when the gaps get no place
        have full : limit < part.length := by
          by_contra small
          rw [drop_eq_nil_of_le (by omega)] at laterPart
          cases laterPart
        rw [show limit - part.length = 0 by omega, take_zero] at fromGaps
        cases fromGaps
      · exact (cut (limit - part.length) gapsOrdered item fromGaps other laterGap).le
  · have whole := part_perm ordered isPart
    refine (perm.append_right _).trans (List.Perm.trans ?_ whole)
    have splitPart := take_append_drop limit part
    have splitGaps := take_append_drop (limit - part.length) gaps
    calc (part.take limit ++ gaps.take (limit - part.length)) ++
          (part.drop limit ++ gaps.drop (limit - part.length))
        |>.Perm ((part.take limit ++ part.drop limit) ++
          (gaps.take (limit - part.length) ++ gaps.drop (limit - part.length))) := by
          simp only [append_assoc]
          refine List.Perm.append_left _ ?_
          rw [← append_assoc, ← append_assoc]
          exact List.Perm.append_right _ perm_append_comm
      _ |>.Perm (part ++ gaps) := by rw [splitPart, splitGaps]

end AgentClaimNetwork.Library.Selection
