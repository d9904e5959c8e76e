import AgentClaimNetwork.Dream.Draft

/-!
No call on the draft, and no restoration of it, drops a candidate.
-/

namespace AgentClaimNetwork.Dream

open Library List
open KeyedMap (empty get? mem_erase)

section

structure Draft.Sound (draft : Draft) : Prop where
  apart : draft.candidates.Sound
  staged : ∀ entry ∈ draft.groups.values,
    draft.candidates.any (fun candidate => candidate.isPendingGroup entry.1) = true

def Executed (records : List ExecutionRecord) (draft : Draft) (id : String)
    (outcome : CandidateOutcome) : Prop :=
  ∃ validationId, outcome = .executed validationId ∧ draft.isValidated id validationId = true ∧
    (⟨id, validationId, true, false⟩ : ExecutionRecord) ∈ records

def Call.kept : Call → Option Keep
  | .keepCandidate keep => some keep
  | _ => none

/-- How a candidate may leave `Pending`. -/
def MayLeave (records : List ExecutionRecord) (draft : Draft) (kept : Option Keep) (id : String)
    (outcome : CandidateOutcome) : Prop :=
  Executed records draft id outcome ∨
    ∃ keep, kept = some keep ∧ draft.candidates.currentId = some id ∧ keep.groupId = id ∧
      outcome = .kept keep.reasonKind keep.reason

structure Handled.Keeps (session : Session) (kept : Option Keep) (handled : Handled) : Prop where
  sound : handled.2.draft.Sound
  grows : Candidates.Grows (MayLeave handled.2.records session.draft kept) session.draft.candidates
    handled.2.draft.candidates
  refused : ∀ error, handled.1 = .error error →
    handled.2.draft.candidates = session.draft.candidates ∧
      handled.2.draft.groups = session.draft.groups
  saved : handled.2.saved = session.saved

end
variable {accepted : Bool}

section

variable {draft : Draft} {leaves : String → CandidateOutcome → Prop} {id validationId : String}
  {group : OperationGroup}

theorem Draft.Sound.empty : Draft.empty.Sound := ⟨List.Pairwise.nil, fun _ member => nomatch member⟩

theorem Draft.Sound.leave (sound : draft.Sound) (isLeft : outcome ≠ .pending) {next : Draft}
    (candidates : next.candidates = draft.candidates.updateGroup id fun entry =>
      { entry with outcome := outcome })
    (groups : next.groups = draft.groups.erase id) : next.Sound := by
  constructor
  · rw [candidates]
    exact sound.apart.leave isLeft
  · intro entry member
    rw [groups, mem_erase] at member
    rw [candidates]
    exact pending_after_leave member.2 (sound.staged entry member.1)

theorem finishExecution_keeps {accepted : Bool} (sound : draft.Sound)
    (allowed : accepted = true → leaves id (.executed validationId)) :
    (draft.finishExecution id validationId accepted).Sound ∧
      Candidates.Grows leaves draft.candidates
        (draft.finishExecution id validationId accepted).candidates := by
  cases accepted with
  | false => exact ⟨⟨sound.apart, sound.staged⟩, Grows.refl⟩
  | true =>
    have isLeft : CandidateOutcome.executed validationId ≠ .pending := fun same => nomatch same
    refine ⟨?_, (leave_keeps sound.apart isLeft (allowed rfl)).2⟩
    exact sound.leave isLeft rfl rfl

theorem isValidated_iff : draft.isValidated id validationId = true ↔
    ∃ entry, draft.validations.get? id = some entry ∧ entry.2.validationId = validationId := by
  unfold Draft.isValidated
  cases draft.validations.get? id <;> simp

theorem finishExecution_validated
    (validated : (draft.finishExecution id validationId accepted).isValidated other otherValidation
      = true) : draft.isValidated other otherValidation = true := by
  obtain ⟨entry, found, same⟩ := isValidated_iff.mp validated
  have inErased : (draft.validations.erase id).get? other = some entry := by
    cases accepted <;> exact found
  obtain ⟨member, named⟩ := KeyedMap.get?_eq_some.mp inErased
  have held := (mem_erase.mp member).1
  exact isValidated_iff.mpr ⟨entry, KeyedMap.get?_eq_some.mpr ⟨held, named⟩, same⟩

theorem withExecution_same (sound : draft.Sound) : draft.withExecution = draft := by
  have remembered : ∀ entries : List (String × OperationGroup),
      (∀ entry ∈ entries, entry ∈ draft.groups.values) →
      entries.foldl (fun candidates entry => Candidates.rememberGroup candidates entry.1 entry.2)
        draft.candidates = draft.candidates := by
    intro entries staged
    induction entries with
    | nil => rfl
    | cons entry rest ih =>
      rw [foldl_cons]
      have kept : draft.candidates.rememberGroup entry.1 entry.2 = draft.candidates :=
        if_pos (sound.staged entry (staged entry mem_cons_self))
      rw [kept]
      exact ih fun other member => staged other (mem_cons_of_mem _ member)
  unfold Draft.withExecution
  rw [remembered _ fun _ member => member]

theorem reconcile_keeps {records : List ExecutionRecord} (sound : draft.Sound) :
    ∀ pending : List ExecutionRecord, (∀ record ∈ pending, record ∈ records) →
      (draft.reconcileExecutions pending).Sound ∧
        Candidates.Grows (Executed records draft) draft.candidates
          (draft.reconcileExecutions pending).candidates := by
  intro pending
  induction pending generalizing draft with
  | nil => exact fun _ => ⟨sound, Grows.refl⟩
  | cons record rest ih =>
    intro inRecords
    have restIn : ∀ other ∈ rest, other ∈ records := fun other member =>
      inRecords other (mem_cons_of_mem _ member)
    change (Draft.reconcileExecutions (reconcileOne draft record) rest).Sound ∧
      Candidates.Grows _ draft.candidates
        (Draft.reconcileExecutions (reconcileOne draft record) rest).candidates
    unfold reconcileOne
    split_ifs with matching
    · obtain ⟨applied, validated⟩ := Bool.and_eq_true_iff.mp matching
      have allowed : (!record.skipped) = true →
          Executed records draft record.groupId (.executed record.validationId) := by
        intro notSkipped
        refine ⟨record.validationId, rfl, validated, ?_⟩
        have same : record = ⟨record.groupId, record.validationId, true, false⟩ := by
          cases record
          simp_all
        exact same ▸ inRecords record mem_cons_self
      have first := finishExecution_keeps sound allowed
      have later := ih first.1 restIn
      refine ⟨later.1, Grows.trans first.2 (Grows.imp later.2 ?_)⟩
      rintro other outcome ⟨validationId, isExecuted, stillValidated, member⟩
      exact ⟨validationId, isExecuted, finishExecution_validated stillValidated, member⟩
    · exact ih sound restIn

end

variable {draft next : Draft}
variable {handled : Handled}

section

variable {reviewer : Reviewer} {around : Around} {session : Session}
  {kept : Option Keep} {id validationId : String}

variable (sound : session.draft.Sound)

include sound in
theorem Keeps.refuse : (session.refuse error).Keeps session kept :=
  ⟨sound, Grows.refl, fun _ _ => ⟨rfl, rfl⟩, rfl⟩

variable {draft : Draft}

theorem Keeps.answer (sound : draft.Sound)
    (grows : Candidates.Grows (MayLeave session.records session.draft kept) session.draft.candidates
      draft.candidates) : (session.answer accepted draft).Keeps session kept :=
  ⟨sound, grows, fun _ refused => (nomatch refused), rfl⟩

include sound in
theorem Keeps.same (candidates : handled.2.draft.candidates = session.draft.candidates)
    (groups : handled.2.draft.groups = session.draft.groups)
    (saved : handled.2.saved = session.saved) : handled.Keeps session kept := by
  refine ⟨⟨?_, ?_⟩, ?_, fun _ _ => ⟨candidates, groups⟩, saved⟩
  · rw [candidates]
    exact sound.apart
  · rw [candidates, groups]
    exact sound.staged
  · rw [candidates]
    exact Grows.refl

theorem Draft.Sound.grow (sound : draft.Sound) (apart : next.candidates.Sound)
    (grows : Candidates.Grows (fun _ _ => False) draft.candidates next.candidates)
    (groups : next.groups = draft.groups) : next.Sound :=
  ⟨apart, fun entry member => Grows.pending grows (sound.staged entry (groups ▸ member))⟩

include sound

theorem recordCandidates_keeps {candidates : List Candidate} :
    (recordCandidates reviewer around session candidates).Keeps session kept := by
  unfold recordCandidates
  simp only
  split_ifs
  · exact Keeps.refuse sound
  · cases registered : session.draft.candidates.register (reviewer.readableNow around) reviewer.owner
        candidates with
    | error error => exact Keeps.refuse sound
    | ok next =>
      obtain ⟨apart, grows⟩ := register_keeps sound.apart registered
      exact Keeps.answer (sound.grow apart grows rfl) (register_keeps sound.apart registered).2

theorem keepCandidate_keeps : (keepCandidate session keep).Keeps session (some keep) := by
  unfold keepCandidate
  cases done : session.draft.candidates.keep keep with
  | error error => exact Keeps.refuse sound
  | ok next =>
    have allowed : session.draft.candidates.currentId = some keep.groupId →
        MayLeave session.records session.draft (some keep) keep.groupId
          (.kept keep.reasonKind keep.reason) :=
      fun isCurrent => .inr ⟨keep, rfl, isCurrent, rfl, rfl⟩
    obtain ⟨same, -, grows⟩ := keep_keeps sound.apart done allowed
    have isLeft : CandidateOutcome.kept keep.reasonKind keep.reason ≠ .pending :=
      fun equal => nomatch equal
    exact Keeps.answer (sound.leave isLeft same rfl) grows

theorem replay_keeps
    (found : session.records.find? (fun record => record.validationId = validationId) = some record)
    (settled : session.needsRecovery = false) :
    (replay session id validationId record).Keeps session kept := by
  unfold replay
  split_ifs with otherGroup validated
  · exact Keeps.refuse sound
  · have allowed : (!record.skipped) = true →
        MayLeave session.records session.draft kept id (.executed validationId) := by
      intro notSkipped
      refine .inl ⟨validationId, rfl, validated, ?_⟩
      have member := List.mem_of_find?_eq_some found
      have sameValidation : record.validationId = validationId := by
        simpa using List.find?_some found
      have applied : record.applied = true := by
        unfold Session.needsRecovery at settled
        have everyApplied := (Bool.or_eq_false_iff.mp settled).2
        simp only [Bool.not_eq_false', all_eq_true] at everyApplied
        exact everyApplied record member
      have same : record = ⟨id, validationId, true, false⟩ := by
        cases record
        simp_all
      exact same ▸ member
    exact Keeps.answer (finishExecution_keeps sound allowed).1 (finishExecution_keeps sound allowed).2
  · exact Keeps.answer sound Grows.refl

theorem execute_keeps (validated : session.draft.isValidated id validationId = true) :
    (execute session id validationId outcome).Keeps session kept := by
  cases outcome with
  | refused =>
    have kept := @finishExecution_keeps session.draft (MayLeave session.records session.draft kept)
      id validationId false sound (fun refused => nomatch refused)
    exact Keeps.answer kept.1 kept.2
  | committed skipped =>
    have allowed : (!skipped) = true →
        MayLeave (session.records ++ [⟨id, validationId, true, skipped⟩]) session.draft kept id
          (.executed validationId) := by
      intro notSkipped
      have isCommitted : skipped = false := by simpa using notSkipped
      exact .inl ⟨validationId, rfl, validated, by simp [isCommitted]⟩
    have finished := finishExecution_keeps sound allowed
    exact ⟨finished.1, finished.2, fun _ refused => (nomatch refused), rfl⟩
  | broken state marker => exact Keeps.same sound rfl rfl rfl

omit sound

theorem requireCurrent_pending {entries : Candidates} (checked : entries.requireCurrent id = .ok ()) :
    entries.pending = true := by
  unfold Candidates.requireCurrent at checked
  unfold Candidates.pending
  cases current : entries.current with
  | none =>
    rw [current] at checked
    cases checked
  | some _ => rfl

variable {candidates : Candidates} {group : OperationGroup}

theorem stage_current (sound : draft.Sound)
    (current : ∀ error, draft.candidates.requireCurrent id = .error error → False)
    (staged : draft.candidates.stage id group = .ok candidates) : candidates = draft.candidates := by
  have checked : draft.candidates.requireCurrent id = .ok () := by
    cases required : draft.candidates.requireCurrent id with
    | error error => exact absurd required (current error)
    | ok _ => rfl
  obtain ⟨-, -, -, unchanged⟩ := @stage_keeps _ _ (fun _ _ => False) _ _ sound.apart staged
  exact unchanged (requireCurrent_pending checked)

include sound in
theorem applyGroup_keeps (settled : session.needsRecovery = false) :
    (applyGroup session id validationId outcome).Keeps session kept := by
  unfold applyGroup
  split
  · next record found => exact replay_keeps sound found settled
  · split
    · exact Keeps.refuse sound
    · exact Keeps.refuse sound
    · next validation held notError =>
      split_ifs with otherVersion
      · exact Keeps.refuse sound
      · have validated : session.draft.isValidated id validationId = true :=
          isValidated_iff.mpr ⟨validation, held, not_not.mp otherVersion⟩
        split
        · exact Keeps.refuse sound
        · next group _ =>
          cases staged : session.draft.candidates.stage id group.2 with
          | error error => exact Keeps.refuse sound
          | ok candidates =>
            rw [stage_current sound notError staged]
            exact execute_keeps sound validated

theorem stageGroup_sound
    (sound : draft.Sound) (staged : draft.candidates.stage id group = .ok candidates) :
    (draft.stageGroup id group candidates).Sound := by
  obtain ⟨apart, grows, isCurrent, -⟩ := @stage_keeps _ _ (fun _ _ => False) _ _ sound.apart staged
  refine ⟨apart, fun entry member => ?_⟩
  rcases KeyedMap.mem_insert.mp member with isNew | ⟨before, -⟩
  · obtain ⟨current, found, named⟩ := Option.map_eq_some_iff.mp isCurrent
    refine any_eq_true.mpr ⟨current, List.mem_of_find?_eq_some found, ?_⟩
    refine isPendingGroup_iff.mpr ⟨List.find?_some found, ?_⟩
    rw [isNew]
    exact named
  · exact Grows.pending grows (sound.staged entry before)

theorem withdraw_sound (sound : draft.Sound) : (draft.withdraw id).Sound :=
  ⟨sound.apart, fun entry member => sound.staged entry (mem_erase.mp member).1⟩

include sound in
theorem stageGroup_keeps : (stageGroup reviewer around session id proposal).Keeps session kept := by
  unfold stageGroup
  split_ifs
  · exact Keeps.refuse sound
  · cases proposal with
    | none => exact Keeps.answer (withdraw_sound sound) Grows.refl
    | some proposal =>
      simp only
      split
      · exact Keeps.refuse sound
      · next group _ =>
        split_ifs
        · exact Keeps.refuse sound
        · exact Keeps.refuse sound
        · split
          · exact Keeps.refuse sound
          · next candidates staged =>
            exact Keeps.answer (stageGroup_sound sound staged) (stage_keeps sound.apart staged).2.1

theorem validateOne_ok (sound : draft.Sound)
    (done : validateOne reviewer around draft id = .ok next) :
    next.candidates = draft.candidates ∧ next.groups = draft.groups := by
  unfold validateOne at done
  split at done
  · cases done
  · cases done
  · next group _ notError =>
    cases staged : draft.candidates.stage id group.2 with
    | error error =>
      rw [staged] at done
      cases done
    | ok candidates =>
      rw [staged] at done
      simp only at done
      split_ifs at done
      cases done
      exact ⟨stage_current sound notError staged, rfl⟩

theorem Draft.Sound.same (sound : draft.Sound)
    (candidates : next.candidates = draft.candidates) (groups : next.groups = draft.groups) :
    next.Sound :=
  ⟨candidates ▸ sound.apart, candidates ▸ groups ▸ sound.staged⟩

include sound

theorem validateEach_same :
    (validateEach reviewer around session ids).2.draft.candidates = session.draft.candidates ∧
      (validateEach reviewer around session ids).2.draft.groups = session.draft.groups ∧
      (validateEach reviewer around session ids).2.saved = session.saved := by
  induction ids generalizing session with
  | nil => exact ⟨rfl, rfl, rfl⟩
  | cons id rest ih =>
    unfold validateEach
    cases first : validateOne reviewer around session.draft id with
    | error error => exact ⟨rfl, rfl, rfl⟩
    | ok draft =>
      obtain ⟨candidates, groups⟩ := validateOne_ok sound first
      have later := @ih { session with draft := draft } (sound.same candidates groups)
      exact ⟨later.1.trans candidates, later.2.1.trans groups, later.2.2⟩

theorem validate_keeps : (validate reviewer around session groupIds).Keeps session kept := by
  unfold validate
  split_ifs
  · exact Keeps.refuse sound
  all_goals
    obtain ⟨candidates, groups, saved⟩ := validateEach_same sound
    exact Keeps.same sound candidates groups saved

theorem readDraft_keeps : (readDraft session groupIds).Keeps session kept := by
  unfold readDraft
  split
  · exact Keeps.refuse sound
  · exact Keeps.answer sound Grows.refl

theorem finish_keeps :
    (finish reviewer around session review groupIds hasReviews).Keeps session kept := by
  unfold finish
  split_ifs
  · exact Keeps.refuse sound
  · exact Keeps.refuse sound
  · exact Keeps.refuse sound
  · exact Keeps.refuse sound
  all_goals exact Keeps.same sound rfl rfl rfl

omit sound

def Draft.Settled (draft : Draft) : Prop :=
  draft.candidates.pending = false ∧ draft.groups.values = [] ∧ draft.rejected.values = []

theorem finish_settled
    (accepted : (finish reviewer around session review groupIds hasReviews).1 = .ok true) :
    session.draft.Settled := by
  unfold finish at accepted
  split_ifs at accepted with unexecuted recorded remain
  · cases accepted
  · cases accepted
  · cases accepted
  · cases accepted
  · cases accepted
  · rw [Bool.or_eq_true_iff, not_or] at unexecuted
    refine ⟨Bool.eq_false_of_not_eq_true remain, ?_, ?_⟩
    · simpa using unexecuted.1
    · simpa using unexecuted.2

theorem attempted_same {made : Call} : ∃ attempt, session.attempted made =
      { session with draft := { session.draft with proposalAttempted := attempt } } := by
  unfold Session.attempted
  split_ifs
  · exact ⟨true, rfl⟩
  · exact ⟨session.draft.proposalAttempted, rfl⟩

theorem dispatch_keeps {made : Call} (sound : session.draft.Sound)
    (settled : session.needsRecovery = false) :
    (dispatch reviewer around session made).Keeps session made.kept := by
  cases made with
  | recordCandidates candidates => exact recordCandidates_keeps sound
  | keepCandidate keep => exact keepCandidate_keeps sound
  | applyGroup id validationId outcome => exact applyGroup_keeps sound settled
  | readDraft ids => exact readDraft_keeps sound
  | stageGroup id proposal => exact stageGroup_keeps sound
  | validate ids => exact validate_keeps sound
  | finish review ids hasReviews => exact finish_keeps sound
  | malformed staged proposes => exact Keeps.refuse sound

include sound in
theorem handle_keeps : (handle reviewer around session made).Keeps session made.kept := by
  unfold handle
  split_ifs with broken finished
  · exact Keeps.refuse sound
  · exact Keeps.refuse sound
  · obtain ⟨attempt, same⟩ := @attempted_same session made
    rw [same]
    have attempted : Draft.Sound { session.draft with proposalAttempted := attempt } :=
      sound.same rfl rfl
    have settled : session.needsRecovery = false := Bool.eq_false_of_not_eq_true broken
    have kept := @dispatch_keeps reviewer around
      { session with draft := { session.draft with proposalAttempted := attempt } } made attempted
      settled
    exact ⟨kept.sound, kept.grows, kept.refused, kept.saved⟩

end

variable {reviewer : Reviewer} {session : Session}

def Action.origin (session : Session) : Action → Draft
  | .restore => session.saved
  | _ => session.draft

def Action.kept : Action → Option Keep
  | .call _ made => made.kept
  | _ => none

theorem noted_same {id : Option String} :
    (handled.noted id).2.draft.candidates = handled.2.draft.candidates ∧
      (handled.noted id).2.draft.groups = handled.2.draft.groups ∧
      (handled.noted id).2.records = handled.2.records ∧
      (handled.noted id).2.saved = handled.2.saved := by
  unfold Handled.noted Session.noted
  split
  · exact ⟨rfl, rfl, rfl, rfl⟩
  · split <;> exact ⟨rfl, rfl, rfl, rfl⟩

theorem call_same {around : Around} {made : Call} :
    (call reviewer around session made).2.draft.candidates =
        (handle reviewer around session made).2.draft.candidates ∧
      (call reviewer around session made).2.draft.groups =
        (handle reviewer around session made).2.draft.groups ∧
      (call reviewer around session made).2.records =
        (handle reviewer around session made).2.records ∧
      (call reviewer around session made).2.saved = (handle reviewer around session made).2.saved := by
  unfold call
  simp only
  split_ifs
  all_goals exact noted_same

variable {around : Around}
variable {audited : Bool}

theorem validateEach_audited :
    validateEach reviewer { around with audited := audited } session ids =
      validateEach reviewer around session ids := by
  induction ids generalizing session with
  | nil => rfl
  | cons id rest ih =>
    unfold validateEach
    have same : validateOne reviewer { around with audited := audited } session.draft id =
        validateOne reviewer around session.draft id := rfl
    rw [same]
    cases validateOne reviewer around session.draft id with
    | error error => rfl
    | ok draft => exact ih

theorem validate_audited : validate reviewer { around with audited := audited } session ids =
      validate reviewer around session ids := by
  unfold validate
  rw [validateEach_audited, validateEach_audited]
  rfl

theorem handle_audited {around : Around} {audited : Bool} {made : Call} :
    handle reviewer { around with audited := audited } session made =
      handle reviewer around session made := by
  cases made with
  | validate ids =>
    exact congrArg₂ _ rfl (congrArg₂ _ rfl validate_audited)
  | _ => rfl

def Session.Sound (session : Session) : Prop := session.draft.Sound ∧ session.saved.Sound

theorem act_keeps (sound : session.Sound) : (session.act reviewer action).Sound ∧
      Candidates.Grows
        (MayLeave (session.act reviewer action).records (action.origin session) action.kept)
        (action.origin session).candidates (session.act reviewer action).draft.candidates := by
  cases action with
  | call around made =>
    obtain ⟨candidates, groups, records, saved⟩ := @call_same reviewer session around made
    have kept : (handle reviewer around session made).Keeps session made.kept :=
      handle_keeps sound.1
    have grows := kept.grows
    rw [← candidates, ← records] at grows
    exact ⟨⟨kept.sound.same candidates groups, (saved.trans kept.saved) ▸ sound.2⟩, grows⟩
  | save => exact ⟨⟨sound.1, sound.1⟩, Grows.refl⟩
  | recover skips => exact ⟨sound, Grows.refl⟩
  | restore =>
    change (Session.restore session).Sound ∧
      Candidates.Grows (MayLeave session.records session.saved none) session.saved.candidates
        (Session.restore session).draft.candidates
    unfold Session.restore
    rw [withExecution_same sound.2]
    have kept := @reconcile_keeps session.saved session.records sound.2 session.records
      fun _ member => member
    exact ⟨⟨kept.1, sound.2⟩, Grows.imp kept.2 fun _ _ executed => .inl executed⟩

theorem start_sound : (Session.start records marker).Sound :=
  ⟨Draft.Sound.empty, Draft.Sound.empty⟩

theorem run_sound (sound : session.Sound) : (session.run reviewer actions).Sound := by
  induction actions generalizing session with
  | nil => exact sound
  | cons action rest ih => exact ih (act_keeps sound).1

theorem call_finish_settled
    (accepted : (call reviewer around session (.finish review groupIds hasReviews)).1
      = .answered true) : session.draft.Settled := by
  unfold call at accepted
  simp only at accepted
  split_ifs at accepted
  unfold Handled.noted at accepted
  cases handled : (handle reviewer around session (.finish review groupIds hasReviews)).1 with
  | error error =>
    rw [handled] at accepted
    cases accepted
  | ok answer =>
    rw [handled] at accepted
    cases accepted
    unfold handle at handled
    split_ifs at handled
    · cases handled
    · cases handled
    · exact finish_settled handled

/-- After any run from an empty draft, and over its next action: no two pending candidates share a
claim, every candidate keeps its claims, and one leaves `Pending` only by a matching record or by being
kept while it was first.  A call that its handler refuses leaves candidates and staged groups alone; a
lost audit record undoes no change.  The run is finished only when nothing is left. -/
theorem dream_candidates_kept (records : List ExecutionRecord) (marker : Bool)
    (actions : List (Action)) (action : Action) :
    let session := (Session.start records marker).run reviewer actions
    let next := session.act reviewer action
    next.draft.candidates.Sound ∧
      Candidates.Grows (MayLeave next.records (action.origin session) action.kept)
        (action.origin session).candidates next.draft.candidates ∧
      (∀ around made, action = .call around made →
        (∀ error, (handle reviewer around session made).1 = .error error →
          next.draft.candidates = session.draft.candidates ∧
            next.draft.groups = session.draft.groups) ∧
        (around.audited = false →
          (call reviewer around session made).1 = .auditFailed ∧
            next.draft = { (session.act reviewer (.call { around with audited := true } made)).draft
              with finished := none })) ∧
      (∀ around review groupIds hasReviews,
        action = .call around (.finish review groupIds hasReviews) →
        (call reviewer around session (.finish review groupIds hasReviews)).1 = .answered true →
          session.draft.Settled) := by
  intro session next
  have sound : session.Sound := run_sound start_sound
  refine ⟨(act_keeps sound).1.1.apart, (act_keeps sound).2, ?_, ?_⟩
  · rintro around made rfl
    refine ⟨fun error refused => ?_, fun unaudited => ?_⟩
    · obtain ⟨candidates, groups, -, -⟩ := @call_same reviewer session around made
      have kept : (handle reviewer around session made).Keeps session made.kept :=
        handle_keeps sound.1
      obtain ⟨sameCandidates, sameGroups⟩ := kept.refused error refused
      exact ⟨candidates.trans sameCandidates, groups.trans sameGroups⟩
    · constructor
      · unfold call
        rw [unaudited]
        rfl
      · change (call reviewer around session made).2.draft =
          { (call reviewer { around with audited := true } session made).2.draft with
            finished := none }
        unfold call
        rw [unaudited, @handle_audited reviewer session around true made]
        rfl
  · rintro around review groupIds hasReviews rfl accepted
    exact call_finish_settled accepted

def record : Claim where
  id := "claim_00000001"
  name := "batch_note"
  statement := "The batch of Monday was slow."
  scope := "payments"
  holder := "agent-a"
  confidence := .medium
  status := .active
  createdAt := 0
  updatedAt := none
  sourceClaimIds := []
  evidenceSummary := "seen once"

def reading : Reviewer where
  owner := "agent-a"
  readable := empty.insert record
  originalHigh := fun _ => false
  contentHash := fun _ => ""

/-- The record is to be retired for a reason of its own. -/
def retirement : Call :=
  .stageGroup "cleanup" (some ⟨.quality, "an episode", [], [], [],
    [⟨"claim_00000001", .deprecate, some "no reusable knowledge", []⟩]⟩)

/-- A call is reported as failed when its audit record is lost, though the group passed every check, is
staged and has become a candidate. -/
theorem dream_failed_call_stages : ¬ ∀ (around : Around) (made : Call),
      (∀ accepted, (call reading around (Session.start [] false) made).1 ≠ .answered accepted) →
        (call reading around (Session.start [] false) made).2.draft.candidates.length = 0 := by
  intro unchanged
  have staged := unchanged ⟨empty, [], empty, fun _ => none, 0, false⟩ retirement
    (fun _ same => nomatch same)
  revert staged
  decide +kernel

def Draft.Backed (draft : Draft) : Prop :=
  ∀ entry ∈ draft.groups.values, ∃ candidate ∈ draft.candidates,
    candidate.isPendingGroup entry.1 = true

/-- A group stays staged, in the draft and in the saved one, only as long as a pending candidate
asks for it. -/
theorem staged_groups_are_pending (records : List ExecutionRecord) (marker : Bool)
    (actions : List (Action)) :
    ((Session.start records marker).run reviewer actions).draft.Backed ∧
      ((Session.start records marker).run reviewer actions).saved.Backed := by
  have sound := @run_sound reviewer _ actions (@start_sound records marker)
  exact ⟨fun entry staged => any_eq_true.mp (sound.1.staged entry staged),
    fun entry staged => any_eq_true.mp (sound.2.staged entry staged)⟩

end AgentClaimNetwork.Dream
