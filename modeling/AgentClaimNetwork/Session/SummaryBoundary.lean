import Mathlib.Data.List.Infix
import AgentClaimNetwork.Session.ReplayGenerations

/-!
Where a compaction summary ends, from `src/agent/session_engine/compaction_projection.rs`.
-/

namespace AgentClaimNetwork.Session

open List
open Api (ProviderReplayIdentity)

variable {Stamp : Type}

def sessionTextFromBlocks (blocks : List SessionContentBlock) : Text :=
  intercalate ['\n'] (blocks.filterMap fun
    | .text text => some text
    | _ => none)

variable (message : StoredMessage Stamp)

def isUserShellCommandTurn : Bool :=
  if message.role ≠ .user then false
  else
    let trimmed := (sessionTextFromBlocks message.content).dropWhile Library.LineLog.isWhitespace
    "<user_shell_command>".toList.isPrefixOf trimmed &&
      decide ("</user_shell_command>".toList <:+: trimmed)

def isModelContextMessage : Bool :=
  message.content.any fun
    | .modelContext .. => true
    | _ => false

def isRealUserTurn : Bool :=
  decide (message.role = .user) && !isUserShellCommandTurn message &&
    !isModelContextMessage message && !message.content.any fun
      | .toolResult .. => true
      | _ => false

section

variable (messages : List (StoredMessage Stamp))

/-- The tail before `stop`, counted with the tool results that fit, or with all of them. -/
def tailTokens (tailStart stop : Nat)
    (toolResultRawMaxChars : Option Nat) (replayIdentity : Option ProviderReplayIdentity) : Nat :=
  estimatedSessionMessageTokensProjected ((messages.take stop).drop tailStart)
    toolResultRawMaxChars replayIdentity

def realUserIndices (summaryStart stop : Nat) : List Nat :=
  ((messages.zipIdx.take stop).drop summaryStart).filterMap fun entry =>
    if isRealUserTurn entry.1 then some entry.2 else none

/-- The loop over `(1..=tail_turns).rev()`. -/
def scanTailTurns (accepts : Nat → Bool) (indices : List Nat) (stop : Nat) : Nat → Nat
  | 0 => stop
  | tailTurns + 1 =>
    let tailStart := indices.getD (indices.length - (tailTurns + 1)) stop
    if accepts tailStart then tailStart else scanTailTurns accepts indices stop tailTurns

def acceptsTail (summaryStart stop tailTokenLimit toolResultRawMaxChars : Nat)
    (replayIdentity : Option ProviderReplayIdentity) (tailStart : Nat) : Bool :=
  decide (tailTokens messages tailStart stop (some toolResultRawMaxChars) replayIdentity ≤
      tailTokenLimit) &&
    !(decide (tailStart = summaryStart) &&
      decide (tailTokenLimit < tailTokens messages tailStart stop none replayIdentity))

def selectCompactionSummaryEndIndex
    (summaryStart stop tailTokenLimit tailPreviousRealUserTurns toolResultRawMaxChars : Nat)
    (replayIdentity : Option ProviderReplayIdentity) : Nat :=
  if stop ≤ summaryStart then summaryStart
  else
    let realUserIndices := realUserIndices messages summaryStart stop
    if realUserIndices.isEmpty then stop
    else
      scanTailTurns
        (acceptsTail messages summaryStart stop tailTokenLimit toolResultRawMaxChars replayIdentity)
        realUserIndices stop (min realUserIndices.length tailPreviousRealUserTurns)

end

section

variable {stop : Nat}

theorem scanTailTurns_eq (inside : tailTurns ≤ indices.length) :
    scanTailTurns accepts indices stop tailTurns =
      ((indices.drop (indices.length - tailTurns)).find? accepts).getD stop := by
  induction tailTurns with
  | zero => simp [scanTailTurns]
  | succ tailTurns ih =>
    have place : indices.length - (tailTurns + 1) < indices.length := by omega
    have next : indices.length - (tailTurns + 1) + 1 = indices.length - tailTurns := by omega
    have first : indices.getD (indices.length - (tailTurns + 1)) stop =
        indices[indices.length - (tailTurns + 1)] := by
      rw [List.getD_eq_getElem?_getD, List.getElem?_eq_getElem place, Option.getD_some]
    rw [scanTailTurns, ih (by omega), drop_eq_getElem_cons place, next, List.find?_cons,
      first]
    cases accepted : accepts indices[indices.length - (tailTurns + 1)] with
    | true => simp
    | false => simp

theorem find?_least {values : List Nat} (increasing : values.Pairwise (· < ·))
    (isFound : values.find? accepts = some found) :
    ∀ earlier ∈ values, earlier < found → accepts earlier = false := by
  intro earlier member before
  obtain ⟨_, left, right, split, quiet⟩ := List.find?_eq_some_iff_append.mp isFound
  rw [split] at member increasing
  rcases mem_append.mp member with inLeft | inRight
  · simpa using quiet earlier inLeft
  · rcases mem_cons.mp inRight with same | later
    · omega
    · have above := (pairwise_cons.mp (pairwise_append.mp increasing).2.1).1 earlier later
      omega

end

variable {messages : List (StoredMessage Stamp)} {summaryStart stop turns : Nat}

theorem mem_realUserIndices : index ∈ realUserIndices messages summaryStart stop ↔
      summaryStart ≤ index ∧ index < stop ∧
        ∃ message, messages[index]? = some message ∧ isRealUserTurn message = true := by
  simp only [realUserIndices, mem_filterMap, Option.ite_none_right_eq_some,
    Option.some.injEq]
  constructor
  · rintro ⟨⟨message, place⟩, member, real, rfl⟩
    obtain ⟨offset, found⟩ := mem_iff_getElem?.mp member
    rw [List.getElem?_drop, List.getElem?_take, List.getElem?_zipIdx] at found
    split_ifs at found with below
    obtain ⟨_, isMessage, same⟩ := Option.map_eq_some_iff.mp found
    cases same
    exact ⟨by omega, by simpa using below, message, by simpa using isMessage, real⟩
  · rintro ⟨behind, before, message, isMessage, real⟩
    refine ⟨(message, index), mem_iff_getElem?.mpr ⟨index - summaryStart, ?_⟩, real, rfl⟩
    have place : summaryStart + (index - summaryStart) = index := by omega
    rw [List.getElem?_drop, List.getElem?_take, place, if_pos before, List.getElem?_zipIdx,
      isMessage]
    simp

theorem realUserIndices_increasing :
    (realUserIndices messages summaryStart stop).Pairwise (· < ·) := by
  have ordered : messages.zipIdx.Pairwise (fun left right => left.2 < right.2) := by
    have indices : (messages.zipIdx.map Prod.snd).Pairwise (· < ·) := by
      rw [zipIdx_map_snd]
      exact pairwise_lt_range'
    exact pairwise_map.mp indices
  refine List.Pairwise.filterMap _ ?_ ((ordered.sublist (take_sublist _ _)).sublist
    (drop_sublist _ _))
  rintro ⟨left, before⟩ ⟨right, behind⟩ less first isFirst second isSecond
  simp only [Option.ite_none_right_eq_some, Option.some.injEq] at isFirst isSecond
  rw [← isFirst.2, ← isSecond.2]
  exact less

def candidateTurns (messages : List (StoredMessage Stamp)) (summaryStart stop turns : Nat) :
    List Nat :=
  (realUserIndices messages summaryStart stop).drop
    ((realUserIndices messages summaryStart stop).length - turns)

theorem acceptsTail_iff :
    acceptsTail messages summaryStart stop tailTokenLimit rawMaxChars identity tailStart = true ↔
      tailTokens messages tailStart stop (some rawMaxChars) identity ≤ tailTokenLimit ∧
        (tailStart = summaryStart →
          tailTokens messages tailStart stop none identity ≤ tailTokenLimit) := by
  simp only [acceptsTail, Bool.and_eq_true, decide_eq_true_eq, Bool.not_eq_true',
    Bool.and_eq_false_iff, decide_eq_false_iff_not, not_lt]
  exact and_congr_right' imp_iff_not_or.symm

theorem refused_fitting
    (refused : ¬acceptsTail messages summaryStart stop tailTokenLimit rawMaxChars identity
      tailStart = true)
    (fits : tailTokens messages tailStart stop (some rawMaxChars) identity ≤ tailTokenLimit) :
    tailStart = summaryStart ∧
      tailTokenLimit < tailTokens messages tailStart stop none identity := by
  by_contra otherwise
  refine refused (acceptsTail_iff.mpr ⟨fits, fun same => ?_⟩)
  exact Nat.le_of_not_lt fun exceeds => otherwise ⟨same, exceeds⟩

theorem select_eq (before : summaryStart < stop) :
    selectCompactionSummaryEndIndex messages summaryStart stop tailTokenLimit turns rawMaxChars
        identity =
      ((candidateTurns messages summaryStart stop turns).find?
        (acceptsTail messages summaryStart stop tailTokenLimit rawMaxChars identity)).getD
          stop := by
  unfold selectCompactionSummaryEndIndex
  rw [if_neg (by omega)]
  dsimp only
  split
  · rename_i empty
    rw [candidateTurns, isEmpty_iff.mp empty, drop_nil]
    rfl
  · have same : (realUserIndices messages summaryStart stop).length -
        min (realUserIndices messages summaryStart stop).length turns =
          (realUserIndices messages summaryStart stop).length - turns := by omega
    rw [scanTailTurns_eq (Nat.min_le_left _ _), candidateTurns, same]

theorem mem_candidateTurns (member : index ∈ candidateTurns messages summaryStart stop turns) :
    index ∈ realUserIndices messages summaryStart stop := mem_of_mem_drop member

/-- The summary ends at its end, or at the first of the last real user turns whose projected tail
fits; where that is the start of the summary, the tail also fits as it is. -/
theorem summary_ends_at_a_fitting_turn {chosen : Nat} (ordered : summaryStart ≤ stop)
    (selected : selectCompactionSummaryEndIndex messages summaryStart stop tailTokenLimit turns
      rawMaxChars identity = chosen) :
    (∀ index, index ∈ realUserIndices messages summaryStart stop ↔
      summaryStart ≤ index ∧ index < stop ∧
        ∃ message, messages[index]? = some message ∧ isRealUserTurn message = true) ∧
    (realUserIndices messages summaryStart stop).Pairwise (· < ·) ∧
    summaryStart ≤ chosen ∧ chosen ≤ stop ∧
    (chosen = stop ∨ chosen ∈ candidateTurns messages summaryStart stop turns ∧
      tailTokens messages chosen stop (some rawMaxChars) identity ≤ tailTokenLimit) ∧
    (∀ earlier ∈ candidateTurns messages summaryStart stop turns, earlier < chosen →
      tailTokens messages earlier stop (some rawMaxChars) identity ≤ tailTokenLimit →
      earlier = summaryStart ∧ tailTokenLimit < tailTokens messages earlier stop none identity) ∧
    (chosen = summaryStart → summaryStart < stop →
      tailTokens messages summaryStart stop none identity ≤ tailTokenLimit) := by
  refine ⟨fun _ => mem_realUserIndices, realUserIndices_increasing, ?_⟩
  rcases Nat.eq_or_lt_of_le ordered with same | before
  · have isStop : chosen = stop := by
      simp only [← selected, selectCompactionSummaryEndIndex, same, le_refl, if_true]
    refine ⟨by omega, by omega, .inl isStop, ?_, by omega⟩
    intro earlier member below _
    obtain ⟨behind, _, _⟩ := mem_realUserIndices.mp (mem_candidateTurns member)
    omega
  · have isChosen : chosen = _ := selected.symm.trans (select_eq before)
    have increasing := (@realUserIndices_increasing _ messages summaryStart stop).sublist
      (drop_sublist ((realUserIndices messages summaryStart stop).length - turns) _)
    cases found : (candidateTurns messages summaryStart stop turns).find?
        (acceptsTail messages summaryStart stop tailTokenLimit rawMaxChars identity) with
    | none =>
      rw [found, Option.getD_none] at isChosen
      refine ⟨by omega, by omega, .inl isChosen, ?_, by omega⟩
      intro earlier member _ fits
      exact refused_fitting (List.find?_eq_none.mp found earlier member) fits
    | some tailStart =>
      rw [found, Option.getD_some] at isChosen
      have member := List.mem_of_find?_eq_some found
      obtain ⟨behind, below, _⟩ := mem_realUserIndices.mp (mem_candidateTurns member)
      obtain ⟨fits, atStart⟩ := acceptsTail_iff.mp (List.find?_some found)
      rw [isChosen]
      refine ⟨behind, below.le, .inr ⟨member, fits⟩, ?_, ?_⟩
      · intro earlier isEarlier less earlierFits
        have refused := find?_least increasing found earlier isEarlier less
        exact refused_fitting (by rw [refused]; nofun) earlierFits
      · intro same _
        rw [← same]
        exact atStart same

/-- Two user turns of one token each and a role token, of which the last one fits. -/
theorem last_turn_fits :
    let turn : StoredMessage Unit := ⟨0, .user, [.text ['h', 'i']], (), [], none⟩
    selectCompactionSummaryEndIndex [turn, turn] 0 2 2 5 100 none = 1 ∧
      tailTokens [turn, turn] 1 2 (some 100) none ≤ 2 := by
  intro turn
  have chosen : selectCompactionSummaryEndIndex [turn, turn] 0 2 2 5 100 none = 1 := by decide
  have boundary := summary_ends_at_a_fitting_turn (by decide) chosen
  refine ⟨chosen, ?_⟩
  rcases boundary.2.2.2.2.1 with same | ⟨_, fits⟩
  · omega
  · exact fits

end AgentClaimNetwork.Session
