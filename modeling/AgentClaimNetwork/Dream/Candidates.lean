import AgentClaimNetwork.Dream.Plan
import AgentClaimNetwork.Library.LineLog

/-!
The candidates of `src/agent/session_engine/dream_candidates.rs`: what a run has identified, in the
order it is to be handled, and what became of it.
-/

namespace AgentClaimNetwork.Dream

open Library List

structure Candidate where
  groupId : String
  claimIds : List ClaimId
  kind : Kind
  reason : String

inductive KeepReason
  | insufficientEvidence
  | usefulKnowledge
  | uncertainPreservation
  | noConsolidationBenefit
  | externalChange
deriving DecidableEq

inductive CandidateOutcome
  | pending
  | executed (validationId : String)
  | kept (reasonKind : KeepReason) (reason : String)
deriving DecidableEq

structure Entry where
  candidate : Candidate
  outcome : CandidateOutcome

abbrev Candidates := List Entry

structure Keep where
  groupId : String
  reasonKind : KeepReason
  reason : String

inductive CandidateError
  | noPending (id : String)
  | notCurrent (current id : String)
  | noCandidates
  | emptyField (id : String)
  | duplicateGroup (id : String)
  | indistinctClaims (id : String)
  | unread (id : ClaimId)
  | foreignOrDeprecated (id : ClaimId)
  | highConfidence (id : ClaimId)
  | dropsClaims (id : String)
  | claimTaken (owner : String)
  | differentTargets (id : String)
  | noReason
  | notConsolidation

def isBlank (text : String) : Bool := LineLog.isBlank text.toList

def Entry.isPending (entry : Entry) : Bool := entry.outcome = .pending

def Entry.isPendingGroup (id : String) (entry : Entry) : Bool :=
  entry.isPending && entry.candidate.groupId = id

def Candidates.current (entries : Candidates) : Option Entry := entries.find? Entry.isPending

def Candidates.pending (entries : Candidates) : Bool := entries.current.isSome

def Candidates.currentId (entries : Candidates) : Option String :=
  entries.current.map fun entry => entry.candidate.groupId

def Candidates.requireCurrent (entries : Candidates) (id : String) : Except CandidateError Unit :=
  match entries.current with
  | none => .error (.noPending id)
  | some entry =>
    if entry.candidate.groupId = id then .ok () else .error (.notCurrent entry.candidate.groupId id)

def Candidates.updateGroup (entries : Candidates) (id : String) (change : Entry → Entry) : Candidates :=
  match entries with
  | [] => []
  | entry :: rest =>
    if entry.isPendingGroup id then change entry :: rest
    else entry :: Candidates.updateGroup rest id change

def checkClaim (readable : KeyedMap Claim.id) (owner : AgentId) (kind : Kind) (id : ClaimId) :
    Except CandidateError Unit :=
  match readable.get? id with
  | none => .error (.unread id)
  | some claim =>
    if claim.holder ≠ owner ∨ claim.status = .deprecated then .error (.foreignOrDeprecated id)
    else if kind = .evidence ∧ claim.confidence = .high then .error (.highConfidence id)
    else .ok ()

def checkEntry (candidate : Candidate) (entry : Entry) : Except CandidateError Unit :=
  if entry.candidate.groupId = candidate.groupId then
    if entry.candidate.claimIds.all fun id => id ∈ candidate.claimIds then .ok ()
    else .error (.dropsClaims candidate.groupId)
  else if entry.candidate.claimIds.any fun id => id ∈ candidate.claimIds then
    .error (.claimTaken entry.candidate.groupId)
  else .ok ()

def Candidates.put (entries : Candidates) (candidate : Candidate) : Candidates :=
  if entries.any fun entry => entry.isPendingGroup candidate.groupId then
    entries.updateGroup candidate.groupId fun entry => { entry with candidate := candidate }
  else entries ++ [⟨candidate, .pending⟩]

/-- One round of `register`; `seen` are the group ids of the request so far. -/
def registerOne (readable : KeyedMap Claim.id) (owner : AgentId)
    (state : List String × Candidates) (candidate : Candidate) :
    Except CandidateError (List String × Candidates) :=
  if isBlank candidate.groupId || isBlank candidate.reason then .error (.emptyField candidate.groupId)
  else if candidate.groupId ∈ state.1 then .error (.duplicateGroup candidate.groupId)
  else if candidate.claimIds = [] ∨ ¬candidate.claimIds.Nodup then
    .error (.indistinctClaims candidate.groupId)
  else do
    (candidate.claimIds.insertionSort (· ≤ ·)).forM (checkClaim readable owner candidate.kind)
    (state.2.filter Entry.isPending).forM (checkEntry candidate)
    .ok (candidate.groupId :: state.1, state.2.put candidate)

def Candidates.register (entries : Candidates) (readable : KeyedMap Claim.id) (owner : AgentId)
    (candidates : List Candidate) : Except CandidateError Candidates :=
  if candidates.isEmpty then .error .noCandidates
  else (candidates.foldlM (registerOne readable owner) ([], entries)).map Prod.snd

def candidateOf (id : String) (group : OperationGroup) : Candidate :=
  ⟨id, group.updates.map Update.id, group.kind, group.reason⟩

def Candidates.rememberGroup (entries : Candidates) (id : String) (group : OperationGroup) :
    Candidates :=
  if entries.any fun entry => entry.isPendingGroup id then entries
  else entries ++ [⟨candidateOf id group, .pending⟩]

def sameClaims (left right : List ClaimId) : Bool :=
  (left.all fun id => id ∈ right) && right.all fun id => id ∈ left

def Candidates.stage (entries : Candidates) (id : String) (group : OperationGroup) :
    Except CandidateError Candidates :=
  match entries.current with
  | none => .ok (entries.rememberGroup id group)
  | some entry =>
    if entry.candidate.groupId ≠ id then .error (.notCurrent entry.candidate.groupId id)
    else if sameClaims entry.candidate.claimIds (group.updates.map Update.id) &&
        entry.candidate.kind = group.kind then .ok entries
    else .error (.differentTargets id)

def Candidates.applied (entries : Candidates) (id validationId : String) : Candidates :=
  entries.updateGroup id fun entry => { entry with outcome := .executed validationId }

def Candidates.keep (entries : Candidates) (keep : Keep) : Except CandidateError Candidates :=
  match entries.current with
  | none => .error (.noPending keep.groupId)
  | some entry =>
    if entry.candidate.groupId ≠ keep.groupId then
      .error (.notCurrent entry.candidate.groupId keep.groupId)
    else if isBlank keep.reason then .error .noReason
    else if keep.reasonKind = .noConsolidationBenefit ∧ entry.candidate.kind ≠ .consolidation then
      .error .notConsolidation
    else .ok (entries.updateGroup keep.groupId fun entry =>
      { entry with outcome := .kept keep.reasonKind keep.reason })

section

def Apart (left right : Entry) : Prop :=
  left.isPending = true → right.isPending = true →
    left.candidate.groupId ≠ right.candidate.groupId ∧
      ∀ id ∈ left.candidate.claimIds, id ∉ right.candidate.claimIds

def Candidates.Sound (entries : Candidates) : Prop := entries.Pairwise Apart

theorem Apart.symm (apart : Apart left right) : Apart right left := by
  intro rightPending leftPending
  obtain ⟨groups, claims⟩ := apart leftPending rightPending
  exact ⟨groups.symm, fun id inRight inLeft => claims id inLeft inRight⟩

/-- What may become of an entry: it keeps its group and, while it is pending, its claims; `leaves` says
how it may stop being pending. -/
structure Evolves (leaves : String → CandidateOutcome → Prop) (entry next : Entry) : Prop where
  group : next.candidate.groupId = entry.candidate.groupId
  claims : ∀ id ∈ entry.candidate.claimIds, id ∈ next.candidate.claimIds
  settled : entry.isPending = false → next = entry
  leaving : entry.isPending = true → next.isPending = false →
    leaves entry.candidate.groupId next.outcome

def Candidates.Grows (leaves : String → CandidateOutcome → Prop) (before after : Candidates) : Prop :=
  ∃ kept added, after = kept ++ added ∧ List.Forall₂ (Evolves leaves) before kept

variable {entries after : Candidates} {leaves : String → CandidateOutcome → Prop}
  {entry next : Entry} {candidate : Candidate} {id : String}

theorem Evolves.refl : Evolves leaves entry entry where
  group := rfl
  claims := fun _ member => member
  settled := fun _ => rfl
  leaving := fun pending settled => by
    rw [pending] at settled
    cases settled

theorem Evolves.trans (first : Evolves leaves entry next) (second : Evolves leaves next last) :
    Evolves leaves entry last where
  group := second.group.trans first.group
  claims := fun id member => second.claims id (first.claims id member)
  settled := fun settled => by
    have same := first.settled settled
    rw [← same] at settled
    exact (second.settled settled).trans same
  leaving := fun pending settled => by
    cases between : next.isPending with
    | true => exact first.group ▸ second.leaving between settled
    | false => exact second.settled between ▸ first.leaving pending between

theorem Evolves.imp {weaker : String → CandidateOutcome → Prop} (evolves : Evolves leaves entry next)
    (implies : ∀ id outcome, leaves id outcome → weaker id outcome) : Evolves weaker entry next :=
  ⟨evolves.group, evolves.claims, evolves.settled,
    fun pending settled => implies _ _ (evolves.leaving pending settled)⟩

theorem Grows.refl : Candidates.Grows leaves entries entries :=
  ⟨entries, [], (append_nil entries).symm, forall₂_same.mpr fun _ _ => Evolves.refl⟩

theorem Grows.append : Candidates.Grows leaves entries (entries ++ added) :=
  ⟨entries, added, rfl, forall₂_same.mpr fun _ _ => Evolves.refl⟩

theorem evolved_trans (first : List.Forall₂ (Evolves leaves) before middle)
    (second : List.Forall₂ (Evolves leaves) middle after) :
    List.Forall₂ (Evolves leaves) before after := by
  induction first generalizing after with
  | nil =>
    cases second
    exact .nil
  | cons evolves _ ih =>
    cases second with
    | cons later rest => exact .cons (evolves.trans later) (ih rest)

theorem Grows.trans (first : Candidates.Grows leaves before middle)
    (second : Candidates.Grows leaves middle after) : Candidates.Grows leaves before after := by
  obtain ⟨kept, added, rfl, evolved⟩ := first
  obtain ⟨later, more, rfl, evolvedLater⟩ := second
  have toKept := (forall₂_take_append _ _ _ evolvedLater.flip).flip
  refine ⟨later.take kept.length, later.drop kept.length ++ more, ?_, ?_⟩
  · rw [← append_assoc, take_append_drop]
  · exact evolved_trans evolved toKept

theorem Grows.imp {weaker : String → CandidateOutcome → Prop}
    (grows : Candidates.Grows leaves before after)
    (implies : ∀ id outcome, leaves id outcome → weaker id outcome) :
    Candidates.Grows weaker before after := by
  obtain ⟨kept, added, same, evolved⟩ := grows
  exact ⟨kept, added, same, evolved.imp fun _ _ evolves => evolves.imp implies⟩

theorem updateGroup_split (present : entries.any (fun entry => entry.isPendingGroup id) = true) :
    ∃ early entry late, entries = early ++ entry :: late ∧ entry.isPendingGroup id = true ∧
      ∀ change, entries.updateGroup id change = early ++ change entry :: late := by
  induction entries with
  | nil => cases present
  | cons first rest ih =>
    by_cases here : first.isPendingGroup id = true
    · refine ⟨[], first, rest, rfl, here, fun change => ?_⟩
      unfold Candidates.updateGroup
      rw [if_pos here]
      rfl
    · rw [any_cons, Bool.eq_false_of_not_eq_true here, Bool.false_or] at present
      obtain ⟨early, entry, late, split, isGroup, changed⟩ := ih present
      refine ⟨first :: early, entry, late, by rw [split]; rfl, isGroup, fun change => ?_⟩
      unfold Candidates.updateGroup
      rw [if_neg here, changed]
      rfl

theorem updateGroup_absent (absent : entries.any (fun entry => entry.isPendingGroup id) = false) :
    entries.updateGroup id change = entries := by
  induction entries with
  | nil => rfl
  | cons first rest ih =>
    rw [any_cons, Bool.or_eq_false_iff] at absent
    unfold Candidates.updateGroup
    rw [if_neg (by rw [absent.1]; exact Bool.false_ne_true), ih absent.2]

theorem isPendingGroup_iff :
    entry.isPendingGroup id = true ↔ entry.isPending = true ∧ entry.candidate.groupId = id := by
  unfold Entry.isPendingGroup
  rw [Bool.and_eq_true, decide_eq_true_eq]

theorem Grows.updateGroup
    (evolves : ∀ entry, entry.isPendingGroup id = true → Evolves leaves entry (change entry)) :
    Candidates.Grows leaves entries (entries.updateGroup id change) := by
  cases present : entries.any fun entry => entry.isPendingGroup id with
  | false =>
    rw [updateGroup_absent present]
    exact Grows.refl
  | true =>
    obtain ⟨early, entry, late, rfl, isGroup, changed⟩ := updateGroup_split present
    rw [changed]
    refine ⟨_, [], (append_nil _).symm, rel_append ?_ (.cons (evolves entry isGroup) ?_)⟩
    all_goals exact forall₂_same.mpr fun _ _ => Evolves.refl

theorem Candidates.Sound.replace (sound : Candidates.Sound (early ++ entry :: late))
    (apart : ∀ other ∈ early ++ late, Apart entry other → Apart next other) :
    Candidates.Sound (early ++ next :: late) := by
  unfold Candidates.Sound at sound ⊢
  rw [pairwise_append, pairwise_cons] at sound ⊢
  obtain ⟨first, ⟨toLate, rest⟩, across⟩ := sound
  refine ⟨first, ⟨fun other member => ?_, rest⟩, fun other member following inRest => ?_⟩
  · exact apart other (mem_append_right _ member) (toLate other member)
  · rcases mem_cons.mp inRest with isNext | later
    · rw [isNext]
      exact (apart other (mem_append_left _ member)
        (across other member entry mem_cons_self).symm).symm
    · exact across other member following (mem_cons_of_mem _ later)

theorem Candidates.Sound.leave (sound : entries.Sound) (isLeft : outcome ≠ .pending) :
    (entries.updateGroup id fun entry => { entry with outcome := outcome }).Sound := by
  cases present : entries.any fun entry => entry.isPendingGroup id with
  | false =>
    rw [updateGroup_absent present]
    exact sound
  | true =>
    obtain ⟨early, entry, late, rfl, -, changed⟩ := updateGroup_split present
    rw [changed]
    refine sound.replace fun other _ _ pending => ?_
    exact absurd (of_decide_eq_true pending) isLeft

theorem Candidates.Sound.snoc (sound : entries.Sound)
    (apart : ∀ other ∈ entries, Apart other ⟨candidate, .pending⟩) :
    Candidates.Sound (entries ++ [⟨candidate, .pending⟩]) := by
  refine pairwise_append.mpr ⟨sound, pairwise_singleton _ _, fun other member last isLast => ?_⟩
  rw [mem_singleton.mp isLast]
  exact apart other member

theorem checkEntry_ok (checked : checkEntry candidate entry = .ok ()) :
    (entry.candidate.groupId = candidate.groupId →
      ∀ id ∈ entry.candidate.claimIds, id ∈ candidate.claimIds) ∧
    (entry.candidate.groupId ≠ candidate.groupId →
      ∀ id ∈ entry.candidate.claimIds, id ∉ candidate.claimIds) := by
  unfold checkEntry at checked
  split_ifs at checked with same keeps takes
  · exact ⟨fun _ => by simpa using keeps, fun different => absurd same different⟩
  · exact ⟨fun equal => absurd equal same, fun _ => by simpa using takes⟩

theorem forM_ok {Item Failure : Type} {check : Item → Except Failure Unit} {items : List Item}
    (checked : items.forM check = .ok ()) : ∀ item ∈ items, check item = .ok () := by
  induction items with
  | nil => exact fun _ member => nomatch member
  | cons first rest ih =>
    change (check first >>= fun _ => rest.forM check) = .ok () at checked
    cases here : check first with
    | error failure =>
      rw [here] at checked
      cases checked
    | ok _ =>
      rw [here] at checked
      intro item member
      rcases mem_cons.mp member with isFirst | later
      · rw [isFirst]
        exact here
      · exact ih checked item later

theorem put_sound (sound : entries.Sound)
    (checked : ∀ entry ∈ entries.filter Entry.isPending, checkEntry candidate entry = .ok ()) :
    (entries.put candidate).Sound := by
  have apartFrom : ∀ other ∈ entries, other.candidate.groupId ≠ candidate.groupId →
      ∀ outcome, Apart ⟨candidate, outcome⟩ other := by
    intro other member different outcome _ otherPending
    have passed := (checkEntry_ok (checked other (mem_filter.mpr ⟨member, otherPending⟩))).2
    exact ⟨different.symm, fun id inCandidate inOther => passed different id inOther inCandidate⟩
  unfold Candidates.put
  split_ifs with present
  · obtain ⟨early, entry, late, rfl, isGroup, changed⟩ := updateGroup_split present
    rw [changed]
    obtain ⟨isPending, sameGroup⟩ := isPendingGroup_iff.mp isGroup
    refine sound.replace fun other member apart pending otherPending => ?_
    have inEntries : other ∈ early ++ entry :: late := by
      rcases mem_append.mp member with before | behind
      · exact mem_append_left _ before
      · exact mem_append_right _ (mem_cons_of_mem _ behind)
    have different : other.candidate.groupId ≠ candidate.groupId := fun same =>
      (apart isPending otherPending).1 (sameGroup.trans same.symm)
    exact apartFrom other inEntries different _ pending otherPending
  · refine sound.snoc fun other member otherPending pending => ?_
    have different : other.candidate.groupId ≠ candidate.groupId := by
      intro same
      refine present (any_eq_true.mpr ⟨other, member, ?_⟩)
      exact isPendingGroup_iff.mpr ⟨otherPending, same⟩
    exact (apartFrom other member different .pending).symm otherPending pending

theorem put_grows
    (checked : ∀ entry ∈ entries.filter Entry.isPending, checkEntry candidate entry = .ok ()) :
    Candidates.Grows leaves entries (entries.put candidate) := by
  unfold Candidates.put
  split_ifs with present
  · obtain ⟨early, entry, late, rfl, isGroup, changed⟩ := updateGroup_split present
    rw [changed]
    obtain ⟨isPending, sameGroup⟩ := isPendingGroup_iff.mp isGroup
    have passed := checkEntry_ok (checked entry (mem_filter.mpr ⟨by simp, isPending⟩))
    refine ⟨_, [], (append_nil _).symm, rel_append ?_ (.cons ?_ ?_)⟩
    · exact forall₂_same.mpr fun _ _ => Evolves.refl
    · refine ⟨sameGroup.symm, passed.1 sameGroup, fun settled => ?_, fun _ settled => ?_⟩
      · rw [isPending] at settled
        cases settled
      · have stays : entry.isPending = false := settled
        rw [isPending] at stays
        cases stays
    · exact forall₂_same.mpr fun _ _ => Evolves.refl
  · exact Grows.append

end

variable {entries after : Candidates} {leaves : String → CandidateOutcome → Prop} {entry : Entry}
  {candidate : Candidate} {id : String} {group : OperationGroup}

variable {next : List String × Candidates}

theorem registerOne_ok (done : registerOne readable owner state candidate = .ok next) :
    next.2 = state.2.put candidate ∧
      ∀ entry ∈ state.2.filter Entry.isPending, checkEntry candidate entry = .ok () := by
  unfold registerOne at done
  split_ifs at done
  cases claims : (candidate.claimIds.insertionSort (· ≤ ·)).forM
      (checkClaim readable owner candidate.kind) with
  | error failure =>
    rw [claims] at done
    cases done
  | ok _ =>
    rw [claims] at done
    cases others : (state.2.filter Entry.isPending).forM (checkEntry candidate) with
    | error failure =>
      rw [others] at done
      cases done
    | ok _ =>
      rw [others] at done
      cases done
      exact ⟨rfl, forM_ok others⟩

variable {candidates : List Candidate}

theorem rounds_keep
    (sound : state.2.Sound) (done : candidates.foldlM (registerOne readable owner) state = .ok next) :
    next.2.Sound ∧ Candidates.Grows leaves state.2 next.2 := by
  induction candidates generalizing state with
  | nil =>
    cases done
    exact ⟨sound, Grows.refl⟩
  | cons candidate rest ih =>
    rw [foldlM_cons] at done
    cases first : registerOne readable owner state candidate with
    | error failure =>
      rw [first] at done
      cases done
    | ok middle =>
      rw [first] at done
      obtain ⟨put, checked⟩ := registerOne_ok first
      have between : middle.2.Sound ∧ Candidates.Grows leaves state.2 middle.2 :=
        put ▸ ⟨put_sound sound checked, put_grows checked⟩
      obtain ⟨lastSound, grown⟩ := ih between.1 done
      exact ⟨lastSound, Grows.trans between.2 grown⟩

theorem register_keeps (sound : entries.Sound)
    (done : entries.register readable owner candidates = .ok after) :
    after.Sound ∧ Candidates.Grows leaves entries after := by
  unfold Candidates.register at done
  split_ifs at done
  cases folded : candidates.foldlM (registerOne readable owner) ([], entries) with
  | error failure =>
    rw [folded] at done
    cases done
  | ok next =>
    rw [folded] at done
    cases done
    exact rounds_keep sound folded

theorem current_none (none : entries.current = none) :
    entries.any (fun entry => entry.isPendingGroup id) = false := by
  rw [any_eq_false]
  intro entry member isGroup
  exact List.find?_eq_none.mp none entry member (isPendingGroup_iff.mp isGroup).1

theorem stage_keeps (sound : entries.Sound) (done : entries.stage id group = .ok after) :
    after.Sound ∧ Candidates.Grows leaves entries after ∧ after.currentId = some id ∧
      (entries.pending = true → after = entries) := by
  unfold Candidates.stage at done
  cases current : entries.current with
  | none =>
    rw [current] at done
    have absent := @current_none entries id current
    unfold Candidates.rememberGroup at done
    rw [absent] at done
    cases done
    refine ⟨sound.snoc fun other member pending => ?_, Grows.append, ?_, fun pending => ?_⟩
    · exact absurd pending (List.find?_eq_none.mp current other member)
    · unfold Candidates.currentId Candidates.current
      rw [if_neg Bool.false_ne_true, List.find?_append,
        show entries.find? Entry.isPending = none from current]
      rfl
    · unfold Candidates.pending at pending
      rw [current] at pending
      cases pending
  | some entry =>
    rw [current] at done
    simp only at done
    split_ifs at done with other matching
    cases done
    refine ⟨sound, Grows.refl, ?_, fun _ => rfl⟩
    unfold Candidates.currentId
    rw [current]
    exact congrArg some (not_not.mp other)

theorem leave_keeps (sound : entries.Sound)
    (isLeft : outcome ≠ .pending) (allowed : leaves id outcome) :
    (entries.updateGroup id fun entry => { entry with outcome := outcome }).Sound ∧
      Candidates.Grows leaves entries
        (entries.updateGroup id fun entry => { entry with outcome := outcome }) := by
  refine ⟨sound.leave isLeft, Grows.updateGroup fun entry isGroup => ?_⟩
  obtain ⟨isPending, sameGroup⟩ := isPendingGroup_iff.mp isGroup
  refine ⟨rfl, fun _ member => member, fun settled => ?_, fun _ _ => sameGroup ▸ allowed⟩
  rw [isPending] at settled
  cases settled

theorem keep_keeps (sound : entries.Sound) (done : entries.keep keep = .ok after)
    (allowed : entries.currentId = some keep.groupId →
      leaves keep.groupId (.kept keep.reasonKind keep.reason)) :
    after = entries.updateGroup keep.groupId (fun entry =>
        { entry with outcome := .kept keep.reasonKind keep.reason }) ∧
      after.Sound ∧ Candidates.Grows leaves entries after := by
  unfold Candidates.keep at done
  cases current : entries.current with
  | none =>
    rw [current] at done
    cases done
  | some entry =>
    rw [current] at done
    simp only at done
    split_ifs at done with other blank mismatch
    cases done
    have isCurrent : entries.currentId = some keep.groupId := by
      unfold Candidates.currentId
      rw [current]
      exact congrArg some (not_not.mp other)
    exact ⟨rfl, leave_keeps sound (fun same => nomatch same) (allowed isCurrent)⟩

theorem pending_after_leave (different : other ≠ id)
    (isPending : entries.any (fun entry => entry.isPendingGroup other) = true) :
    (entries.updateGroup id fun entry => { entry with outcome := outcome }).any
      (fun entry => entry.isPendingGroup other) = true := by
  cases present : entries.any fun entry => entry.isPendingGroup id with
  | false =>
    rw [updateGroup_absent present]
    exact isPending
  | true =>
    obtain ⟨early, entry, late, rfl, isGroup, changed⟩ := updateGroup_split present
    rw [changed]
    rw [any_append, any_cons] at isPending ⊢
    have notHere : entry.isPendingGroup other = false := by
      rw [Bool.eq_false_iff]
      intro isOther
      exact different ((isPendingGroup_iff.mp isOther).2.symm.trans (isPendingGroup_iff.mp isGroup).2)
    rw [notHere, Bool.false_or] at isPending
    rcases Bool.or_eq_true_iff.mp isPending with before | behind
    · rw [before, Bool.true_or]
    · rw [behind, Bool.or_true, Bool.or_true]

theorem Grows.pending (grows : Candidates.Grows (fun _ _ => False) entries after)
    (isPending : entries.any (fun entry => entry.isPendingGroup id) = true) :
    after.any (fun entry => entry.isPendingGroup id) = true := by
  obtain ⟨kept, added, rfl, evolved⟩ := grows
  rw [any_append, Bool.or_eq_true_iff]
  left
  induction evolved with
  | nil => cases isPending
  | @cons first next rest later evolves _ ih =>
    rw [any_cons, Bool.or_eq_true_iff] at isPending ⊢
    rcases isPending with here | inRest
    · left
      obtain ⟨pending, sameGroup⟩ := isPendingGroup_iff.mp here
      refine isPendingGroup_iff.mpr ⟨?_, evolves.group.trans sameGroup⟩
      by_contra settled
      exact evolves.leaving pending (Bool.eq_false_of_not_eq_true settled)
    · exact Or.inr (ih inRest)

end AgentClaimNetwork.Dream
