import AgentClaimNetwork.Library.Trace
import AgentClaimNetwork.Maintainer.CommitOperations

/-!
Runs of the operations on one dispute: what is committed stays recoverable, and a human decision
comes before an automatic one.
-/

namespace AgentClaimNetwork.Maintainer

open Library Durable

section

/-- The operations on a dispute, each under the lock of the dispute. -/
inductive Operation
  | resolveHuman (around : Surroundings) (input : HumanResolutionInput)
      (snapshots : Option (List Claim))
  | rejectAndReplace (around : Surroundings) (input : RejectResolutionInput)
      (snapshots : Option (List Claim))
  | beginAnalysisAdoption (around : Surroundings) (analysisId : AnalysisId)
      (resolvedBy : ResolvedBy)
  | recoverAnalysisAdoption (analysisId : AnalysisId) (now : Instant)
  | resumeMatchingAnalysisAdoption (analysisId : AnalysisId) (expectedResolvedBy : ResolvedBy)
      (now : Instant)
  | recoverPendingDelivery (resolutionId : ResolutionId)
  | completeAnalysisAdoptionAfterDelivery (resolutionId : ResolutionId) (now : Instant)

def runOperation (disputeId : DisputeId) : Operation → Program TeamStore Unit
  | .resolveHuman around input snapshots => do
      let _ ← resolveHuman around disputeId input snapshots
      pure ()
  | .rejectAndReplace around input snapshots => do
      let _ ← rejectAndReplace around disputeId input snapshots
      pure ()
  | .beginAnalysisAdoption around analysisId resolvedBy => do
      let _ ← beginAnalysisAdoption around ⟨disputeId, analysisId⟩ resolvedBy
      pure ()
  | .recoverAnalysisAdoption analysisId now => do
      let _ ← recoverAnalysisAdoption ⟨disputeId, analysisId⟩ now
      pure ()
  | .resumeMatchingAnalysisAdoption analysisId expectedResolvedBy now => do
      let _ ← resumeMatchingAnalysisAdoption ⟨disputeId, analysisId⟩ expectedResolvedBy now
      pure ()
  | .recoverPendingDelivery resolutionId => recoverPendingDelivery ⟨disputeId, resolutionId⟩
  | .completeAnalysisAdoptionAfterDelivery resolutionId now =>
    completeAnalysisAdoptionAfterDelivery ⟨disputeId, resolutionId⟩ now

inductive DisputeEvent
  | operation (operation : Operation) (fates : List Fate)
  | analysis (analysis : ArbitrationAnalysis)

/-- Others write analyses at will, but fix none of them to a new record. -/
inductive ResolutionStep (disputeId : DisputeId) :
    TeamStore → DisputeEvent → TeamStore → Prop
  | operation {store} (operation : Operation) (fates : List Fate) :
      ResolutionStep disputeId store (.operation operation fates)
        (runOperation disputeId operation store fates).store
  | analysis {store} (analysis : ArbitrationAnalysis) (ofDispute : analysis.disputeId = disputeId)
      (fixed : ∀ record, analysis.pendingResolution = some record →
        ∃ current, store.analyses disputeId = some current ∧
          current.pendingResolution = some record) :
      ResolutionStep disputeId store (.analysis analysis)
        { store with
          analyses := Function.update store.analyses analysis.disputeId (some analysis) }

/-- An open dispute that nothing was done about yet. -/
structure Untouched (disputeId : DisputeId) (store : TeamStore) : Prop where
  dispute : ∃ dispute, store.disputes disputeId = some dispute ∧ dispute.dispute.id = disputeId ∧
    dispute.dispute.status = .opened ∧ dispute.resolution = none
  record : store.resolutionRecords disputeId = none
  intents : ∀ pending ∈ store.pendingDeliveries.values, pending.target.disputeId ≠ disputeId ∧
    ∀ record, pending.resolutionRecord = some record → record.disputeId ≠ disputeId
  analysis : ∀ analysis, store.analyses disputeId = some analysis →
    analysis.pendingResolution = none
  milestones : store.milestones = []

/-- The record that a recovery goes on to commit, where the dispute is still open. -/
def Operation.recovered (disputeId : DisputeId) (store : TeamStore) :
    Operation → Option ArbitrationResolutionRecord
  | .recoverAnalysisAdoption analysisId _ => store.adopting ⟨disputeId, analysisId⟩
  | .resumeMatchingAnalysisAdoption analysisId expectedResolvedBy _ =>
    (store.adopting ⟨disputeId, analysisId⟩).filter fun record =>
      record.resolution.resolvedBy = expectedResolvedBy
  | .recoverPendingDelivery resolutionId => store.pendingRecord ⟨disputeId, resolutionId⟩
  | .resolveHuman _ _ _ | .rejectAndReplace _ _ _ | .beginAnalysisAdoption _ _ _
  | .completeAnalysisAdoptionAfterDelivery _ _ => none

def EventGivesWay (disputeId : DisputeId) (store : TeamStore) : DisputeEvent → Prop
  | .operation operation _ => ∀ record, operation.recovered disputeId store = some record →
      record.resolution.resolvedBy = .automatic →
      (store.disputes disputeId).any (fun dispute => dispute.resolution.isNone) = true →
      pendingHuman store disputeId = []
  | .analysis _ => True

variable {guarded : Prop} {disputeId : DisputeId} {store next first last : TeamStore}
  {event : DisputeEvent} {labels : List DisputeEvent}

theorem Untouched.sound (untouched : Untouched disputeId store) : Sound guarded disputeId store := by
  obtain ⟨dispute, stored, isDispute, opened, unresolved⟩ := untouched.dispute
  have none : store.commits disputeId = [] := by
    rw [TeamStore.commits, untouched.milestones]
    rfl
  refine ⟨dispute, stored, isDispute, ?_, ?_, ?_, ?_, ?_, ?_, ?_, ?_, ?_, ?_, ?_⟩
  · simp [opened, unresolved]
  · intro pending member concerns
    obtain ⟨otherTarget, otherRecord⟩ := untouched.intents pending member
    rcases concerns with ofTarget | ⟨record, stored, ofRecord⟩
    · exact absurd ofTarget otherTarget
    · exact absurd ofRecord (otherRecord record stored)
  · intro analysis record isCurrent isFixed
    rw [untouched.analysis analysis isCurrent] at isFixed
    cases isFixed
  · intro record onDisk
    rw [untouched.record] at onDisk
    cases onDisk
  · rw [unresolved]
    intro isSome
    cases isSome
  · intro record onDisk
    rw [untouched.record] at onDisk
    cases onDisk
  · rw [none, unresolved]
    rfl
  · intro commit isLast
    rw [none] at isLast
    cases isLast
  · rw [none]
    exact List.nil_sublist _
  · intro _ record member
    rw [untouched.milestones] at member
    cases member
  · intro _ before after record split
    rw [untouched.milestones] at split
    simp at split

theorem Sound.recoverable (sound : Sound guarded disputeId store)
    (givesWay : guarded → ∀ record, found store = some record →
      record.resolution.resolvedBy = .automatic →
      (store.disputes disputeId).any (fun dispute => dispute.resolution.isNone) = true →
      pendingHuman store disputeId = []) :
    ∃ dispute, Recoverable guarded disputeId dispute found store := by
  obtain ⟨dispute, inv⟩ := sound
  refine ⟨dispute, inv, ?_⟩
  intro record isFound holds automatic unresolved
  refine givesWay holds record isFound automatic ?_
  rw [inv.stored]
  simp [unresolved]

theorem operation_sound (sound : Sound guarded disputeId store)
    (givesWay : guarded → EventGivesWay disputeId store (.operation operation fates)) :
    Sound guarded disputeId (runOperation disputeId operation store fates).store := by
  have ignored : ∀ {Result : Type} {pre : TeamStore → Prop} {program : Program TeamStore Result},
      Triple pre program (fun _ => Sound guarded disputeId) (Sound guarded disputeId) →
      Triple pre (do let _ ← program; pure ()) (fun _ => Sound guarded disputeId)
        (Sound guarded disputeId) :=
    fun triple => Triple.bind triple fun _ => Triple.ok fun _ before => before
  cases operation with
  | resolveHuman around input snapshots =>
    exact (ignored resolveHuman_sound).ends fates sound
  | rejectAndReplace around input snapshots =>
    exact (ignored rejectAndReplace_sound).ends fates sound
  | beginAnalysisAdoption around analysisId resolvedBy =>
    exact (ignored beginAnalysisAdoption_sound).ends fates sound
  | recoverAnalysisAdoption analysisId now =>
    exact (ignored recoverAnalysisAdoption_sound).ends fates
      (sound.recoverable givesWay)
  | resumeMatchingAnalysisAdoption analysisId expectedResolvedBy now =>
    exact (ignored resumeMatchingAnalysisAdoption_sound).ends
      fates (sound.recoverable givesWay)
  | recoverPendingDelivery resolutionId =>
    exact (recoverPendingDelivery_sound ⟨disputeId, resolutionId⟩).ends fates
      (sound.recoverable givesWay)
  | completeAnalysisAdoptionAfterDelivery resolutionId now =>
    exact (completeAnalysisAdoption_sound resolutionId now).ends fates sound

theorem resolutionStep_sound (taken : ResolutionStep disputeId store event next)
    (givesWay : guarded → EventGivesWay disputeId store event) (sound : Sound guarded disputeId store) :
    Sound guarded disputeId next := by
  cases taken with
  | operation operation fates => exact operation_sound sound givesWay
  | analysis analysis ofDispute fixed =>
    obtain ⟨dispute, inv⟩ := sound
    refine ⟨dispute, inv.putAnalysis ?_⟩
    intro record isFixed
    obtain ⟨current, isCurrent, wasFixed⟩ := fixed record isFixed
    exact inv.fixed current record isCurrent wasFixed

/-- The resolution of a dispute has its intent with the whole record on disk, or everything that
its delivery consists of; with no intent left, the record on disk is that of the resolution. -/
theorem committed_resolution_recoverable (untouched : Untouched disputeId first)
    (run : Trace (ResolutionStep disputeId) first labels last) :
    ∃ dispute, last.disputes disputeId = some dispute ∧
      (∀ resolution, dispute.resolution = some resolution →
        ∃ record, last.committedRecord disputeId = some record ∧
          record.resolution = resolution ∧ record.disputeId = disputeId ∧
          record.resolutionId = resolution.resolutionId ∧
          (HasIntent record last ∨ Delivered record last)) ∧
      ((∀ pending ∈ last.pendingDeliveries.values, pending.target.disputeId ≠ disputeId) →
        (last.resolutionRecords disputeId).map ArbitrationResolutionRecord.resolutionId =
          dispute.resolution.map DisputeResolution.resolutionId) := by
  have sound : Sound False disputeId last :=
    run.invariant (fun taken => resolutionStep_sound taken False.elim) untouched.sound
  obtain ⟨dispute, inv⟩ := sound
  refine ⟨dispute, inv.stored, fun resolution => inv.committed_of_resolution, ?_⟩
  intro noIntents
  cases onDisk : last.resolutionRecords disputeId with
  | none =>
    have hasRecord := inv.hasRecord
    rw [onDisk] at hasRecord
    cases current : dispute.resolution with
    | none => rfl
    | some resolution =>
      rw [current] at hasRecord
      cases hasRecord rfl
  | some record =>
    by_contra different
    have unnamed : ¬Names dispute record := fun names => different names.symm
    obtain ⟨⟨pending, member, target, _⟩, _⟩ := inv.uncommitted record onDisk unnamed
    refine noIntents pending member ?_
    rw [target]
    exact (inv.onDisk record onDisk).1

def GuardedStep (disputeId : DisputeId) (store : TeamStore) (event : DisputeEvent)
    (next : TeamStore) : Prop :=
  ResolutionStep disputeId store event next ∧ EventGivesWay disputeId store event

theorem guardedStep_sound (taken : GuardedStep disputeId store event next)
    (sound : Sound True disputeId store) : Sound True disputeId next :=
  resolutionStep_sound taken.1 (fun _ => taken.2) sound

/-- Of the resolutions of a dispute the automatic one comes first and a human one is the last, and
none is automatic behind a human intent for the open dispute, when the recoveries give way. -/
theorem human_decision_wins (untouched : Untouched disputeId first)
    (run : Trace (GuardedStep disputeId) first labels last) :
    Ordered (last.commits disputeId) ∧
      (last.commits disputeId).getLast?.map Prod.fst =
        (last.disputes disputeId).bind MaintainerDisputeRecord.resolution ∧
      HumanFirst disputeId last.milestones := by
  have sound : Sound True disputeId last :=
    run.invariant (fun taken => guardedStep_sound taken) untouched.sound
  obtain ⟨dispute, inv⟩ := sound
  refine ⟨inv.ordered, ?_, inv.humanFirst trivial⟩
  rw [inv.log, inv.stored]
  rfl

end

namespace OpenDispute

def dispute : Dispute :=
  ⟨"dispute_1", "timeout", "agent-a", ["claim_1"], "30s or 60s", .opened, 0, none⟩

def claim : Claim :=
  ⟨"claim_1", "timeout", "30s", "client", "agent-a", .medium, .active, 0, none, [], ""⟩

def analysis : ArbitrationAnalysis where
  analysisId := "analysis_1"
  disputeId := "dispute_1"
  reportSnapshot := none
  updatedAt := 0
  semanticFingerprint := some "fingerprint"
  contextSnapshotHash := some "hash"
  context := some ⟨dispute, [claim]⟩
  state := .approved
  analysisRound := 1
  nextRetryAt := none
  proposal := some ⟨.conflictResolved, .evidence, "60s", []⟩
  resolutionId := none
  pendingResolution := none
  error := none
  deliveryError := none
  adoptionBlockedReason := none

def start : TeamStore where
  disputes := fun id => if id = "dispute_1" then some ⟨dispute, none⟩ else none
  analyses := fun id => if id = "dispute_1" then some analysis else none
  resolutionRecords := fun _ => none
  pendingDeliveries := .empty
  pendingObservations := .empty
  policies := fun _ => .absent
  outbox := fun _ => .absent
  policyIndex := fun _ => none
  inboxIndex := fun _ => none
  claimIndex := fun _ _ => none
  policyEvents := []
  resolutionEvents := []
  milestones := []

def around (resolutionId : ResolutionId) : Surroundings :=
  ⟨1, [resolutionId], ["policy_1"], "action_1", fun _ => ["inbox_1"], fun _ _ _ => "60s"⟩

def decision : HumanResolutionInput := ⟨"30s", false, none, none, []⟩

def adopts : DisputeEvent :=
  .operation (.beginAnalysisAdoption (around "resolution_1") "analysis_1" .automatic)
    [.done, .done, .done]

def decides : DisputeEvent :=
  .operation (.resolveHuman (around "resolution_2") decision none) [.done]

def recovers : DisputeEvent :=
  .operation (.recoverAnalysisAdoption "analysis_1" 2) [.done, .done, .done]

def runEvent (store : TeamStore) : DisputeEvent → TeamStore
  | .operation operation fates => (runOperation "dispute_1" operation store fates).store
  | .analysis _ => store

def fixed : TeamStore := runEvent start adopts

def intended : TeamStore := runEvent fixed decides

def overtaken : TeamStore := runEvent intended recovers

theorem untouched : Untouched "dispute_1" start where
  dispute := ⟨⟨dispute, none⟩, rfl, rfl, rfl, rfl⟩
  record := rfl
  intents := by
    intro pending member
    cases member
  analysis := by
    intro current isCurrent
    obtain rfl : analysis = current := Option.some.inj isCurrent
    rfl
  milestones := rfl

theorem runEvent_step :
    ResolutionStep "dispute_1" store (.operation operation fates)
      (runEvent store (.operation operation fates)) :=
  ResolutionStep.operation operation fates

def recorded : TeamStore :=
  runEvent start (.operation (.resolveHuman (around "resolution_2") decision none) [.done, .done])

theorem records : ResolutionStep "dispute_1" start
    (.operation (.resolveHuman (around "resolution_2") decision none) [.done, .done]) recorded :=
  runEvent_step

theorem overtakes : Trace (ResolutionStep "dispute_1") start [adopts, decides, recovers] overtaken := by
  have first : Trace (ResolutionStep "dispute_1") start [adopts] fixed :=
    Trace.single runEvent_step
  have second : Trace (ResolutionStep "dispute_1") start ([adopts] ++ [decides]) intended :=
    first.snoc runEvent_step
  exact second.snoc runEvent_step

def humanRecord : ArbitrationResolutionRecord :=
  ⟨"resolution_2", "dispute_1", 1, ⟨"resolution_2", .human, 1, none, none, "30s", [], none⟩,
    dispute, [], none, none, none, none, none⟩

theorem automatic_overtakes_human : ¬∀ first labels last, Untouched "dispute_1" first →
      Trace (ResolutionStep "dispute_1") first labels last →
      HumanFirst "dispute_1" last.milestones := by
  intro always
  have humanFirst := always start _ overtaken untouched overtakes
  have split : overtaken.milestones =
      [] ++ .intent humanRecord :: overtaken.milestones.tail := by decide
  have committed := humanFirst [] _ humanRecord split rfl rfl rfl
  revert committed
  decide

def settles : DisputeEvent :=
  .operation (.recoverPendingDelivery "resolution_2") [.done, .done, .done]

def rejects : DisputeEvent :=
  .operation (.rejectAndReplace
    ⟨3, ["resolution_2"], ["policy_2"], "action_2", fun _ => ["inbox_2"], fun _ _ _ => "30s"⟩
    ⟨"resolution_1", "too slow", "30s", none, none, []⟩ (some [claim])) [.done, .done, .done]

def settled : TeamStore := runEvent (runEvent intended settles) recovers

def replaced : TeamStore := runEvent (runEvent (runEvent fixed recovers) rejects) settles

theorem guarded_step {operation : Operation} {fates : List Fate}
    (givesWay : (operation.recovered "dispute_1" store).any
        (fun record => record.resolution.resolvedBy = .automatic) = true →
      (store.disputes "dispute_1").any (fun dispute => dispute.resolution.isNone) = true →
      pendingHuman store "dispute_1" = []) :
    GuardedStep "dispute_1" store (.operation operation fates)
      (runEvent store (.operation operation fates)) := by
  refine ⟨runEvent_step, fun record found automatic => givesWay ?_⟩
  simp [found, automatic]

/-- A human decision that stopped at its intent is committed by the delivery event, before the
automatic adoption begun earlier; and an automatic one is replaced by a rejection. -/
theorem decision_stands :
    (settled.commits "dispute_1").map (fun commit => commit.1.resolvedBy) = [.human] ∧
      settled.milestones.head? = some (.intent humanRecord) ∧
      HumanFirst "dispute_1" settled.milestones ∧
      (replaced.commits "dispute_1").map (fun commit => commit.1.resolvedBy) =
        [.automatic, .human] ∧ Ordered (replaced.commits "dispute_1") := by
  have begun : Trace (GuardedStep "dispute_1") start [adopts] fixed :=
    Trace.single (guarded_step (by decide))
  have settling := ((begun.snoc (guarded_step (by decide) : GuardedStep _ _ decides _)).snoc
    (guarded_step (by decide) : GuardedStep _ _ settles _)).snoc
    (guarded_step (by decide) : GuardedStep _ _ recovers _)
  have replacing := ((begun.snoc (guarded_step (by decide) : GuardedStep _ _ recovers _)).snoc
    (guarded_step (by decide) : GuardedStep _ _ rejects _)).snoc
    (guarded_step (by decide) : GuardedStep _ _ settles _)
  exact ⟨by decide, by decide, (human_decision_wins untouched settling).2.2, by decide,
    (human_decision_wins untouched replacing).1⟩

def commits : DisputeEvent :=
  .operation (.resolveHuman (around "resolution_2") decision none) [.done, .done, .done]

def committed : TeamStore := runEvent start commits

theorem stopped_commit_recoverable : ∃ record, committed.committedRecord "dispute_1" = some record ∧
      (HasIntent record committed ∨ Delivered record committed) := by
  have run : Trace (ResolutionStep "dispute_1") start [commits] committed :=
    Trace.single runEvent_step
  obtain ⟨found, stored, recoverable, _⟩ := committed_resolution_recoverable untouched run
  have isFound : committed.disputes "dispute_1" =
      some ((⟨dispute, none⟩ : MaintainerDisputeRecord).resolve humanRecord.resolution) := rfl
  obtain rfl := Option.some.inj (isFound.symm.trans stored)
  obtain ⟨record, isCommitted, _, _, _, reached⟩ := recoverable humanRecord.resolution rfl
  exact ⟨record, isCommitted, reached⟩

end OpenDispute

/-- A resolution record that the dispute does not name has its intent on disk, and it replaces
the resolution of the dispute only by rejecting it. -/
theorem record_on_disk_has_intent (untouched : Untouched disputeId first)
    (run : Trace (ResolutionStep disputeId) first labels last) :
    ∃ dispute, last.disputes disputeId = some dispute ∧
      (dispute.dispute.status = .opened ↔ dispute.resolution = none) ∧
      (∀ record, last.resolutionRecords disputeId = some record →
        record.disputeId = disputeId ∧ record.resolutionId = record.resolution.resolutionId ∧
        (¬ Names dispute record → HasIntent record last ∧ Replaces dispute record ∧
          (dispute.resolution.isSome → record.resolution.rejectionReason.isSome))) ∧
      ∀ pending ∈ last.pendingDeliveries.values, pending.target.disputeId = disputeId →
        ∃ record, pending.resolutionRecord = some record ∧ pending.target = record.target := by
  have sound : Sound False disputeId last :=
    run.invariant (fun taken => resolutionStep_sound taken fun absurd => absurd.elim) untouched.sound
  obtain ⟨dispute, inv⟩ := sound
  refine ⟨dispute, inv.stored, inv.status, fun record onDisk => ?_, fun pending member concerns =>
    inv.intents pending member (.inl concerns)⟩
  exact ⟨(inv.onDisk record onDisk).1, (inv.onDisk record onDisk).2, inv.uncommitted record onDisk⟩

/-- The decision stops when its intent and its record are on disk. -/
theorem record_on_disk_has_intent_overtaken : ∃ dispute,
    OpenDispute.recorded.resolutionRecords "dispute_1" = some OpenDispute.humanRecord ∧
      OpenDispute.recorded.disputes "dispute_1" = some dispute ∧
      dispute.dispute.status = .opened ∧ HasIntent OpenDispute.humanRecord OpenDispute.recorded ∧
      ∀ pending ∈ OpenDispute.recorded.pendingDeliveries.values,
        pending.target.disputeId = "dispute_1" →
          ∃ record, pending.resolutionRecord = some record ∧ pending.target = record.target := by
  obtain ⟨dispute, stored, status, onDisk, intents⟩ :=
    record_on_disk_has_intent OpenDispute.untouched (Trace.single OpenDispute.records)
  obtain rfl := Option.some.inj stored
  have intent := ((onDisk OpenDispute.humanRecord rfl).2.2 (by simp [Names])).1
  exact ⟨_, rfl, stored, rfl, intent, intents⟩

end AgentClaimNetwork.Maintainer
