import AgentClaimNetwork.Dream.Validation

/-!
The draft of `src/agent/session_engine/dream_draft.rs` with an executor: the tool calls on it, and its
restoration from what was saved.
-/

namespace AgentClaimNetwork.Dream

open Library

/-- What `review_input` shows of a group, its claims and its versioned evidence. -/
structure ReviewInput where
  groupId : String
  group : OperationGroup
  before : List Claim
  unversioned : List String
  evidence : List (String × Receipt)

structure Validation where
  validationId : String
  input : ReviewInput

inductive DraftError
  | recoveryNeeded
  | alreadyFinished
  | malformed
  | ineligible (ids : List ClaimId)
  | candidate (error : CandidateError)
  | otherGroup
  | notValidated
  | otherVersion
  | notStaged (id : String)
  | executionFailed
  | emptyGroupId
  | badGroup
  | badPlan
  | badBasis
  | evidenceChanged
  | unexecutedGroups
  | alreadyRecorded
  | candidatesRemain
  | emptySummary

inductive Rejection
  | error (error : DraftError)
  | changedAtCommit

structure Draft where
  groups : KeyedMap (Prod.fst : String × OperationGroup → String)
  finished : Option Plan
  rejected : KeyedMap (Prod.fst : String × Rejection → String)
  validations : KeyedMap (Prod.fst : String × Validation → String)
  withdrawn : KeyedMap (Prod.fst : String × OperationGroup → String)
  proposalAttempted : Bool
  finishReminderSent : Bool
  candidates : Candidates

def Draft.empty : Draft :=
  ⟨KeyedMap.empty, none, KeyedMap.empty, KeyedMap.empty, KeyedMap.empty, false, false, []⟩

structure ExecutionRecord where
  groupId : String
  validationId : String
  applied : Bool
  skipped : Bool

structure Reviewer where
  owner : AgentId
  readable : KeyedMap Claim.id
  originalHigh : ClaimId → Bool
  contentHash : ReviewInput → String

/-- How the executor's `apply` went: it found the input changed, committed the group or skipped it, or
broke off and perhaps left a record and the pending marker behind. -/
inductive ApplyOutcome
  | refused
  | committed (skipped : Bool)
  | broken (state : Option (Bool × Bool)) (marker : Bool)

inductive Call
  | recordCandidates (candidates : List Candidate)
  | keepCandidate (keep : Keep)
  | applyGroup (groupId validationId : String) (outcome : ApplyOutcome)
  | readDraft (groupIds : List String)
  | stageGroup (groupId : String) (group : Option Group)
  | validate (groupIds : List String)
  | finish (review : Review) (groupIds : List String) (hasReviews : Bool)
  /-- Arguments that do not parse, of `dream_stage_group` with the group id they have. -/
  | malformed (staged : Option String) (proposes : Bool)

structure Around where
  receipts : Receipts
  observed : List Claim
  current : KeyedMap Claim.id
  files : String → Option String
  now : Instant
  audited : Bool

structure Session where
  draft : Draft
  saved : Draft
  records : List ExecutionRecord
  marker : Bool

def Session.start (records : List ExecutionRecord) (marker : Bool) : Session :=
  ⟨Draft.empty, Draft.empty, records, marker⟩

section

variable (reviewer : Reviewer) (around : Around)

def Reviewer.readableNow : KeyedMap Claim.id :=
  let loaded := around.observed.foldl KeyedMap.insert reviewer.readable
  (around.current.values.filter fun claim => (loaded.get? claim.id).isSome).foldl KeyedMap.insert
    loaded

def Reviewer.accepts (plan : Plan) : Bool :=
  (validatePlan plan (reviewer.readableNow around) reviewer.owner around.receipts around.now).isSome

def reviewInput (id : String) (group : OperationGroup) (readable : KeyedMap Claim.id)
    (receipts : Receipts) : ReviewInput where
  groupId := id
  group := group
  before := group.updates.filterMap fun update => readable.get? update.id
  unversioned := group.evidenceIds.filter fun id =>
    (receipts.get? id).any fun entry => entry.2.fileVersion.isNone
  evidence := group.evidenceIds.filterMap fun id =>
    (receipts.get? id).filter fun entry => entry.2.fileVersion.isSome

variable (draft : Draft)

def Draft.finishExecution (groupId validationId : String) (accepted : Bool) : Draft :=
  let draft := { draft with validations := draft.validations.erase groupId }
  if accepted then
    { draft with
      groups := draft.groups.erase groupId
      rejected := draft.rejected.erase groupId
      candidates := draft.candidates.applied groupId validationId }
  else { draft with rejected := draft.rejected.insert (groupId, .changedAtCommit) }

def Draft.isValidated (groupId validationId : String) : Bool :=
  (draft.validations.get? groupId).any fun entry => entry.2.validationId = validationId

/-- `with_execution`: every staged group has its candidate. -/
def Draft.withExecution : Draft :=
  { draft with
    candidates := draft.groups.values.foldl (fun candidates entry =>
      candidates.rememberGroup entry.1 entry.2) draft.candidates }

def reconcileOne (record : ExecutionRecord) : Draft :=
  if record.applied && draft.isValidated record.groupId record.validationId then
    draft.finishExecution record.groupId record.validationId !record.skipped
  else draft

def Draft.reconcileExecutions (records : List ExecutionRecord) : Draft :=
  records.foldl reconcileOne draft

def Draft.withdraw (id : String) : Draft :=
  { draft with
    groups := draft.groups.erase id
    withdrawn :=
      match draft.groups.get? id with
      | some entry => draft.withdrawn.insert entry
      | none => draft.withdrawn
    validations := draft.validations.erase id
    rejected := draft.rejected.erase id }

def Draft.stageGroup (id : String) (group : OperationGroup) (candidates : Candidates) : Draft :=
  { draft with
    candidates := candidates
    validations :=
      if draft.groups.get? id = some (id, group) then draft.validations
      else draft.validations.erase id
    groups := draft.groups.insert (id, group)
    withdrawn := draft.withdrawn.erase id
    rejected := draft.rejected.erase id }

end

section

abbrev Handled := Except DraftError Bool × Session

def Session.refuse (session : Session) (error : DraftError) : Handled := (.error error, session)

def Session.answer (session : Session) (accepted : Bool) (draft : Draft) : Handled :=
  (.ok accepted, { session with draft := draft })

/-- `ensure_no_pending` would fail. -/
def Session.needsRecovery (session : Session) : Bool :=
  session.marker || !session.records.all ExecutionRecord.applied

def recordCandidates (reviewer : Reviewer) (around : Around) (session : Session)
    (candidates : List Candidate) : Handled :=
  let ineligible := (candidates.filter fun candidate => candidate.kind = .evidence).flatMap
    fun candidate => candidate.claimIds.filter reviewer.originalHigh
  if ineligible ≠ [] then session.refuse (.ineligible ineligible)
  else
    match session.draft.candidates.register (reviewer.readableNow around) reviewer.owner candidates with
    | .error error => session.refuse (.candidate error)
    | .ok next => session.answer true { session.draft with candidates := next }

section

variable (session : Session)

def keepCandidate (keep : Keep) : Handled :=
  match session.draft.candidates.keep keep with
  | .error error => session.refuse (.candidate error)
  | .ok next => session.answer true
      ({ session.draft with candidates := next }.withdraw keep.groupId)

variable (groupId validationId : String)

def replay (record : ExecutionRecord) : Handled :=
  if record.groupId ≠ groupId then session.refuse .otherGroup
  else session.answer (!record.skipped)
    (if session.draft.isValidated groupId validationId then
      session.draft.finishExecution groupId validationId !record.skipped
    else session.draft)

def Session.record (added : List ExecutionRecord) : Session :=
  { session with records := session.records ++ added }

def execute : ApplyOutcome → Handled
  | .refused => session.answer false (session.draft.finishExecution groupId validationId false)
  | .committed skipped =>
    (session.record [⟨groupId, validationId, true, skipped⟩]).answer (!skipped)
      (session.draft.finishExecution groupId validationId !skipped)
  | .broken state marker =>
    let added := state.map fun flags => ⟨groupId, validationId, flags.1, flags.2⟩
    Session.refuse { session.record added.toList with marker := marker } .executionFailed

def applyGroup (outcome : ApplyOutcome) : Handled :=
  match session.records.find? fun record => record.validationId = validationId with
  | some record => replay session groupId validationId record
  | none =>
    match session.draft.candidates.requireCurrent groupId, session.draft.validations.get? groupId,
      session.draft.groups.get? groupId with
    | .error error, _, _ => session.refuse (.candidate error)
    | _, none, _ => session.refuse .notValidated
    | _, some validation, group =>
      if validation.2.validationId ≠ validationId then session.refuse .otherVersion
      else
        match group with
        | none => session.refuse (.notStaged groupId)
        | some group =>
          match session.draft.candidates.stage groupId group.2 with
          | .error error => session.refuse (.candidate error)
          | .ok candidates =>
            execute { session with draft := { session.draft with candidates := candidates } }
              groupId validationId outcome

def readDraft (groupIds : List String) : Handled :=
  match groupIds.find? fun id => (session.draft.groups.get? id).isNone with
  | some id => session.refuse (.notStaged id)
  | none => session.answer true session.draft

end

def draftPlan (text : String) (groups : KeyedMap (Prod.fst : String × OperationGroup → String)) :
    Plan :=
  ⟨⟨text, text, text⟩, groups.values.map Prod.snd⟩

variable (reviewer : Reviewer) (around : Around) (session : Session)

def stageGroup (groupId : String) (proposal : Option Group) : Handled :=
  if isBlank groupId then session.refuse .emptyGroupId
  else
    match proposal with
    | none => session.answer true (session.draft.withdraw groupId)
    | some proposal =>
      let readable := reviewer.readableNow around
      match expand proposal readable with
      | none => session.refuse .badGroup
      | some group =>
        if !reviewer.accepts around (draftPlan "draft" (session.draft.groups.insert (groupId, group)))
          then session.refuse .badPlan
        else if basisError group readable then session.refuse .badBasis
        else
          match session.draft.candidates.stage groupId group with
          | .error error => session.refuse (.candidate error)
          | .ok candidates =>
            session.answer true (session.draft.stageGroup groupId group candidates)

def validateOne (draft : Draft) (id : String) : Except DraftError Draft :=
  match draft.candidates.requireCurrent id, draft.groups.get? id with
  | .error error, _ => .error (.candidate error)
  | _, none => .error (.notStaged id)
  | _, some group =>
    match draft.candidates.stage id group.2 with
    | .error error => .error (.candidate error)
    | .ok candidates =>
      let readable := reviewer.readableNow around
      let input := reviewInput id group.2 readable around.receipts
      if basisError group.2 readable then .error .badBasis
      else if !input.evidence.all fun entry => dreamEvidenceIsCurrent around.files entry.2 then
        .error .evidenceChanged
      else .ok
        { draft with
          candidates := candidates
          validations := draft.validations.insert (id, ⟨reviewer.contentHash input, input⟩) }

def validateEach (reviewer : Reviewer) (around : Around) (session : Session) :
    List String → Handled
  | [] => session.answer true session.draft
  | id :: rest =>
    match validateOne reviewer around session.draft id with
    | .error error => session.refuse error
    | .ok draft => validateEach reviewer around { session with draft := draft } rest

def validate (groupIds : List String) : Handled :=
  if !reviewer.accepts around (draftPlan "validation" session.draft.groups) then
    session.refuse .badPlan
  else validateEach reviewer around session <|
    if groupIds.isEmpty then
      (session.draft.candidates.currentId.filter fun id =>
        (session.draft.groups.get? id).isSome).toList
    else groupIds

/-- The first `dream_finish` of a run without any activity is only a reminder. -/
def needsReminder : Bool :=
  !(reviewer.readableNow around).values.isEmpty && !session.draft.finishReminderSent &&
    !session.draft.proposalAttempted && session.draft.candidates.isEmpty &&
    around.receipts.values.isEmpty && session.records.isEmpty

def finish (review : Review) (groupIds : List String) (hasReviews : Bool) : Handled :=
  if !session.draft.groups.values.isEmpty || !session.draft.rejected.values.isEmpty then
    session.refuse .unexecutedGroups
  else if !groupIds.isEmpty || hasReviews then session.refuse .alreadyRecorded
  else if session.draft.candidates.pending then session.refuse .candidatesRemain
  else if isBlank review.quality || isBlank review.evidence || isBlank review.consolidation then
    session.refuse .emptySummary
  else if needsReminder reviewer around session then
    session.answer false { session.draft with finishReminderSent := true }
  else session.answer true { session.draft with finished := some ⟨review, []⟩ }

def Call.proposes : Call → Bool
  | .stageGroup _ group => group.isSome
  | .malformed _ proposes => proposes
  | _ => false

def Session.attempted (call : Call) : Session :=
  if call.proposes then
    { session with draft := { session.draft with proposalAttempted := true } }
  else session

def dispatch : Call → Handled
  | .recordCandidates candidates => recordCandidates reviewer around session candidates
  | .keepCandidate keep => keepCandidate session keep
  | .applyGroup groupId validationId outcome => applyGroup session groupId validationId outcome
  | .readDraft groupIds => readDraft session groupIds
  | .stageGroup groupId group => stageGroup reviewer around session groupId group
  | .validate groupIds => validate reviewer around session groupIds
  | .finish review groupIds hasReviews => finish reviewer around session review groupIds hasReviews
  | .malformed _ _ => session.refuse .malformed

def handle (call : Call) : Handled :=
  if session.needsRecovery then session.refuse .recoveryNeeded
  else if session.draft.finished.isSome then session.refuse .alreadyFinished
  else dispatch reviewer around (session.attempted call) call

end

inductive Reply
  | answered (accepted : Bool)
  | refused (error : DraftError)
  | auditFailed

/-- The group id of a `dream_stage_group`, where it has one. -/
def Call.stagedId : Call → Option String
  | .stageGroup groupId _ => some groupId
  | .malformed staged _ => staged
  | _ => none

/-- The note of a failed `dream_stage_group`. -/
def Session.noted (session : Session) (id : Option String) (error : DraftError) : Session :=
  match id.filter fun id => !isBlank id with
  | some id =>
    { session with
      draft := { session.draft with rejected := session.draft.rejected.insert (id, .error error) } }
  | none => session

def Handled.noted (handled : Handled) (id : Option String) : Reply × Session :=
  match handled.1 with
  | .ok accepted => (.answered accepted, handled.2)
  | .error error => (.refused error, handled.2.noted id error)

def call (reviewer : Reviewer) (around : Around) (session : Session)
    (call : Call) : Reply × Session :=
  let reply := (handle reviewer around session call).noted call.stagedId
  if around.audited then reply
  else (.auditFailed, { reply.2 with draft := { reply.2.draft with finished := none } })

inductive Action
  | call (around : Around) (call : Call)
  | save
  /-- The executor finishes what it had prepared; `skips` says which groups it could not commit. -/
  | recover (skips : String → Bool)
  | restore

def ExecutionRecord.recovered (skips : String → Bool) (record : ExecutionRecord) : ExecutionRecord :=
  if record.applied then record
  else { record with applied := true, skipped := skips record.validationId }

def Session.restore (session : Session) : Session :=
  { session with draft := session.saved.withExecution.reconcileExecutions session.records }

def Session.act (reviewer : Reviewer) (session : Session) : Action → Session
  | .call around made => (Dream.call reviewer around session made).2
  | .save => { session with saved := session.draft }
  | .recover skips =>
    { session with records := session.records.map (ExecutionRecord.recovered skips), marker := false }
  | .restore => session.restore

def Session.run (reviewer : Reviewer) (session : Session) (actions : List (Action)) :
    Session :=
  actions.foldl (Session.act reviewer) session

end AgentClaimNetwork.Dream
