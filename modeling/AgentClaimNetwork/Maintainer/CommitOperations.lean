import AgentClaimNetwork.Maintainer.CommitDelivery

/-!
Every operation on a dispute keeps the invariant of its commits, wherever it ends or stops.
-/

namespace AgentClaimNetwork.Maintainer

open Library Durable
open Triple (attempt bail bind choose guard look ok write)

variable {guarded : Prop} {disputeId : DisputeId} {dispute : MaintainerDisputeRecord}
  {record : ArbitrationResolutionRecord} {holds : TeamStore → Prop}

/-- No pending delivery of the resolution says otherwise, so the intent of `record` can be stored. -/
def TeamStore.accepts (store : TeamStore) (record : ArbitrationResolutionRecord) : Bool :=
  (store.pendingDeliveries.get? record.resolutionId).all fun pending =>
    pending.target = record.target && pending.resolutionRecord.all fun stored => stored = record

/-- The record that an adoption of the analysis goes on to commit. -/
def TeamStore.adopting (store : TeamStore) (job : AnalysisJob) :
    Option ArbitrationResolutionRecord :=
  ((store.analyses job.disputeId).filter fun analysis =>
      analysis.analysisId = job.analysisId && analysis.state = .adopting).bind fun analysis =>
    (analysis.pendingResolution.or (store.resolutionRecords job.disputeId)).filter fun record =>
      analysis.resolutionId = some record.resolutionId && store.accepts record

section

variable {Next : Type} {after : Next → TeamStore → Prop} {crash : TeamStore → Prop}

structure Intended (guarded : Prop) (disputeId : DisputeId) (dispute : MaintainerDisputeRecord)
    (record : ArbitrationResolutionRecord) (store : TeamStore) : Prop where
  inv : CommitInvariant guarded disputeId dispute store
  givesWay : GivesWay guarded disputeId dispute record store
  intent : HasIntent record store

structure Recorded (guarded : Prop) (disputeId : DisputeId) (dispute : MaintainerDisputeRecord)
    (record : ArbitrationResolutionRecord) (store : TeamStore) : Prop
    extends Intended guarded disputeId dispute record store where
  onDisk : store.resolutionRecords disputeId = some record

def Admissible (dispute : MaintainerDisputeRecord) (record : ArbitrationResolutionRecord) : Prop :=
  ¬Names dispute record → Replaces dispute record ∧
    (dispute.resolution.isSome → record.resolution.rejectionReason.isSome)

theorem replaces_of_unresolved (unresolved : dispute.resolution = none) :
    Replaces dispute record := by
  intro current isCurrent
  rw [unresolved] at isCurrent
  cases isCurrent

theorem rejects_of_unresolved (unresolved : dispute.resolution = none) :
    dispute.resolution.isSome → record.resolution.rejectionReason.isSome := by
  intro isSome
  rw [unresolved] at isSome
  cases isSome

theorem readDispute_known (known : ∀ store, holds store → store.disputes disputeId = some dispute)
    (rest : Triple holds (next dispute) after crash) :
    Triple holds (readDispute disputeId >>= next) after crash := by
  intro store fates before
  have read : readDispute disputeId store fates = .value dispute store fates := by
    simp only [readDispute, Bind.bind, Program.andThen, Program.look, known store before]
    rfl
  show (Program.andThen (readDispute disputeId) next store fates).Ends after crash
  rw [Program.andThen, read]
  exact rest store fates before

section

variable (ofDispute : record.disputeId = disputeId)
include ofDispute

theorem persistPendingDelivery_intends :
    Triple (fun store => CommitInvariant guarded disputeId dispute store ∧
        (store.accepts record = true → GivesWay guarded disputeId dispute record store))
      (persistPendingDelivery record now)
      (fun _ => Intended guarded disputeId dispute record) (Sound guarded disputeId) := by
  refine Triple.read fun seen => ?_
  cases seen with
  | none =>
    refine write (fun _ before => before.2.1.sound) ?_
    rintro store ⟨free, inv, givesWay⟩
    have accepts : store.accepts record = true := by simp [TeamStore.accepts, free]
    exact ⟨inv.addIntent free rfl rfl, (givesWay accepts).addIntent free rfl rfl inv,
      addIntent_hasIntent rfl rfl⟩
  | some pending =>
    dsimp only
    split_ifs with different
    · exact bail fun _ before => before.2.1.sound
    · have sameTarget : pending.target = record.target := not_not.mp different
      have concerns : pending.target.disputeId = disputeId := by
        rw [sameTarget]
        exact ofDispute
      split
      · rename_i stored isStored
        refine Triple.require (fun _ before => before.2.1.sound) ?_
        rintro same store ⟨found, inv, givesWay⟩
        rw [of_decide_eq_true same] at isStored
        have accepts : store.accepts record = true := by
          simp [TeamStore.accepts, found, sameTarget, isStored]
        exact ⟨inv, givesWay accepts, pending, (KeyedMap.get?_eq_some.mp found).1, sameTarget,
          isStored⟩
      · rename_i missing
        -- an intent of this dispute has its record, so there is nothing to upgrade
        intro store fates before
        obtain ⟨found, inv, _⟩ := before
        obtain ⟨stored, isStored, _⟩ :=
          inv.intents pending (KeyedMap.get?_eq_some.mp found).1 (.inl concerns)
        rw [missing] at isStored
        cases isStored

theorem writeResolutionRecord_records (admissible : Admissible dispute record) :
    Triple (Intended guarded disputeId dispute record) (writeResolutionRecord record)
      (fun _ => Recorded guarded disputeId dispute record) (Sound guarded disputeId) := by
  refine guard (fun _ before => before.inv.sound) fun valid => ?_
  refine write (fun _ before => before.inv.sound) ?_
  intro store before
  refine ⟨⟨before.inv.putRecord ofDispute (of_decide_eq_true valid) ?_, before.givesWay,
    before.intent⟩, ?_⟩
  · exact fun unnamed => ⟨before.intent, admissible unnamed⟩
  · rw [← ofDispute]
    exact Function.update_self _ _ _

theorem writeDispute_commits (replaces : Replaces dispute record) :
    Triple (Recorded guarded disputeId dispute record)
      (writeDispute (dispute.resolve record.resolution))
      (fun _ => Deliverable guarded disputeId (dispute.resolve record.resolution) record)
      (Sound guarded disputeId) := by
  refine guard (fun _ before => before.inv.sound) fun _ => ?_
  refine write (fun _ before => before.inv.sound) ?_
  intro store before
  have committed := before.inv.commit before.onDisk before.intent replaces before.givesWay
  have isCommitted := commit_committedRecord before.inv before.onDisk
  refine ⟨committed, ?_, ofDispute, .inl isCommitted⟩
  simp [Names, MaintainerDisputeRecord.resolve, (before.inv.onDisk record before.onDisk).2]

theorem commitResolution_commits (replaces : Replaces dispute record)
    (rejects : dispute.resolution.isSome → record.resolution.rejectionReason.isSome) :
    Triple (Intended guarded disputeId dispute record) (commitResolution dispute record)
      (fun _ => Deliverable guarded disputeId (dispute.resolve record.resolution) record)
      (Sound guarded disputeId) :=
  bind (writeResolutionRecord_records ofDispute fun _ => ⟨replaces, rejects⟩)
    fun _ => writeDispute_commits ofDispute replaces

end

theorem preemptCurrentAnalysis_keeps (now : Instant)
    (fixed : ∀ store, holds store → ∀ analysis record, store.analyses disputeId = some analysis →
      analysis.pendingResolution = some record → record.disputeId = disputeId)
    (kept : ∀ store analysis, holds store → (∀ record, analysis.pendingResolution = some record →
      record.disputeId = disputeId) → holds
        { store with
          analyses := Function.update store.analyses analysis.disputeId (some analysis) }) :
    Keeps holds (preemptCurrentAnalysis disputeId now) := by
  refine bind ?_ fun _ => ok fun _ before => before
  refine attempt ?_ (fun _ _ before => before) fun _ before => before
  refine Triple.read fun current => ?_
  split
  · rename_i stopped isStopped
    obtain ⟨analysis, rfl, isPreempted⟩ := Option.bind_eq_some_iff.mp isStopped
    refine guard (fun _ before => before.2) fun _ => ?_
    refine write (fun _ before => before.2) ?_
    rintro store ⟨isCurrent, before⟩
    refine kept store stopped before ?_
    intro record isFixed
    refine fixed store before analysis record isCurrent ?_
    unfold preemptAnalysis at isPreempted
    split_ifs at isPreempted
    cases isPreempted
    exact isFixed
  · exact ok fun _ before => before.2

theorem preempt_keeps_deliverable :
    Triple (Deliverable guarded disputeId dispute record) (preemptCurrentAnalysis disputeId now)
      (fun _ => Deliverable guarded disputeId dispute record) (Sound guarded disputeId) := by
  refine (preemptCurrentAnalysis_keeps now ?_ ?_).relax fun _ before => before.inv.sound
  · exact fun store before => before.inv.fixed
  · exact fun store analysis before fixed => before.putAnalysis fixed

theorem attemptDelivery_sound :
    Triple (Deliverable guarded disputeId dispute record) (Program.attempt (ensureDelivery record))
      (fun _ => Sound guarded disputeId) (Sound guarded disputeId) :=
  attempt ensureDelivery_sound (fun _ _ before => before) fun _ before => before

theorem GivesWay.of_human (human : record.resolution.resolvedBy = .human) :
    GivesWay guarded disputeId dispute record store := by
  intro _ automatic
  rw [human] at automatic
  cases automatic

theorem GivesWay.of_names (names : Names dispute record) :
    GivesWay guarded disputeId dispute record store := by
  intro _ _ unresolved
  rw [Names, unresolved] at names
  cases names

theorem commitHuman_sound (ofDispute : record.disputeId = disputeId)
    (human : record.resolution.resolvedBy = .human) (replaces : Replaces dispute record)
    (rejects : dispute.resolution.isSome → record.resolution.rejectionReason.isSome)
    (now : Instant) :
    Triple (CommitInvariant guarded disputeId dispute) (commitHuman disputeId dispute record now)
      (fun _ => Sound guarded disputeId) (Sound guarded disputeId) := by
  have intends : Triple (CommitInvariant guarded disputeId dispute)
      (persistPendingDelivery record now) (fun _ => Intended guarded disputeId dispute record)
      (Sound guarded disputeId) :=
    (persistPendingDelivery_intends ofDispute).weaken
      (fun store inv => ⟨inv, fun _ => GivesWay.of_human human⟩) fun _ _ before => before
  refine bind intends fun _ => ?_
  refine bind (commitResolution_commits ofDispute replaces rejects) fun _ => ?_
  refine bind preempt_keeps_deliverable fun _ => ?_
  exact bind attemptDelivery_sound fun _ => ok fun _ before => before

theorem deliverRecovered_sound (now : Instant) (sameInput : Bool) :
    Triple (Deliverable guarded disputeId dispute record)
      (deliverRecovered disputeId record now sameInput)
      (fun _ => Sound guarded disputeId) (Sound guarded disputeId) := by
  intro store fates deliverable
  have intends : Triple (Deliverable guarded disputeId dispute record)
      (persistPendingDelivery record record.createdAt)
      (fun _ => Deliverable guarded disputeId dispute record) (Sound guarded disputeId) :=
    (persistPendingDelivery_intends deliverable.ofDispute).weaken
      (fun store before => ⟨before.inv, fun _ => GivesWay.of_names before.names⟩)
      fun _ _ before =>
        before.inv.deliverable deliverable.names deliverable.ofDispute before.intent
  refine bind preempt_keeps_deliverable (fun _ => ?_) store fates deliverable
  refine bind intends fun _ => ?_
  refine bind attemptDelivery_sound fun _ => ?_
  exact guard (fun _ before => before) fun _ => ok fun _ before => before

def AfterRecovery (guarded : Prop) (disputeId : DisputeId) (dispute : MaintainerDisputeRecord)
    (recovered : Option ArbitrationResolutionRecord) (store : TeamStore) : Prop :=
  match recovered with
  | none => CommitInvariant guarded disputeId dispute store ∧
      (dispute.resolution = none → pendingHuman store disputeId = [])
  | some record => Deliverable guarded disputeId dispute record store ∨
      ¬Names dispute record ∧ ∃ resolved, Deliverable guarded disputeId resolved record store

theorem CommitInvariant.pending_of_onDisk (inv : CommitInvariant guarded disputeId dispute store)
    (onDisk : store.resolutionRecords disputeId = some record)
    (human : record.resolution.resolvedBy = .human) (unnamed : ¬Names dispute record) :
    record ∈ pendingHuman store disputeId := by
  have intent := (inv.uncommitted record onDisk unnamed).1
  exact inv.mem_pendingHuman.mpr ⟨intent, (inv.onDisk record onDisk).1, human⟩

theorem recoversCommit_iff : recoversCommit dispute record = true ↔
    record.resolution.resolvedBy = .human ∧ ¬Names dispute record ∧ Replaces dispute record ∧
      (dispute.resolution.isSome → record.resolution.rejectionReason.isSome) := by
  cases current : dispute.resolution with
  | none => simp [recoversCommit, Names, Replaces, current]
  | some resolution =>
    simp only [recoversCommit, Names, Replaces, current, Bool.and_eq_true, decide_eq_true_eq,
      Option.map_some, Option.some.injEq, forall_eq', Option.isSome_some, forall_const]
    constructor
    · rintro ⟨human, ⟨rejects, automatic⟩, different⟩
      exact ⟨human, different, ⟨human, automatic⟩, rejects⟩
    · rintro ⟨human, different, ⟨_, automatic⟩, rejects⟩
      exact ⟨human, ⟨rejects, automatic⟩, different⟩

theorem head_or_cases (found : pending.head?.or onDisk = some record) :
    record ∈ pending ∨ pending = [] ∧ onDisk = some record := by
  cases pending with
  | nil => exact .inr ⟨rfl, found⟩
  | cons first rest =>
    cases found
    exact .inl List.mem_cons_self

theorem CommitInvariant.human_deliverable
    (inv : CommitInvariant guarded disputeId dispute store)
    (isCurrent : dispute.resolution = some current) (human : current.resolvedBy = .human)
    (named : record.resolutionId = current.resolutionId)
    (found : record ∈ pendingHuman store disputeId ∨
      pendingHuman store disputeId = [] ∧ store.resolutionRecords disputeId = some record) :
    Deliverable guarded disputeId dispute record store := by
  have names : Names dispute record := by rw [Names, isCurrent, named]; rfl
  rcases found with pending | ⟨nonePending, onDisk⟩
  · obtain ⟨intent, ofDispute, _⟩ := inv.mem_pendingHuman.mp pending
    exact inv.deliverable names ofDispute intent
  · refine ⟨inv, names, (inv.onDisk record onDisk).1, .inr ?_⟩
    obtain ⟨committed, isCommitted, resolution, ofDispute, _, reached⟩ :=
      inv.committed_of_resolution isCurrent
    rcases reached with intent | delivered
    · have isHuman : committed.resolution.resolvedBy = .human := by rw [resolution, human]
      have pending := inv.mem_pendingHuman.mpr ⟨intent, ofDispute, isHuman⟩
      rw [nonePending] at pending
      cases pending
    · exact ⟨committed, isCommitted, delivered⟩

theorem recoverHumanResolution_sound :
    Triple (CommitInvariant guarded disputeId dispute) (recoverHumanResolution disputeId dispute)
      (AfterRecovery guarded disputeId dispute) (Sound guarded disputeId) := by
  refine look fun seen => ?_
  dsimp only
  split_ifs with several
  · exact bail fun _ before => before.2.sound
  cases found : (pendingHuman seen disputeId).head?.or (seen.resolutionRecords disputeId) with
  | none =>
    have nonePending : pendingHuman seen disputeId = [] := by
      rw [Option.or_eq_none_iff] at found
      exact List.head?_eq_none_iff.mp found.1
    have settled : Triple (fun store => store = seen ∧ CommitInvariant guarded disputeId dispute store)
        (pure none) (AfterRecovery guarded disputeId dispute) (Sound guarded disputeId) := by
      refine ok ?_
      rintro store ⟨rfl, inv⟩
      exact ⟨inv, fun _ => nonePending⟩
    dsimp only
    split
    · split_ifs
      · exact bail fun _ before => before.2.sound
      · exact settled
    · exact settled
  | some record =>
    have sources := head_or_cases found
    dsimp only
    by_cases recovers : recoversCommit dispute record = true
    · rw [if_pos recovers]
      obtain ⟨human, unnamed, replaces, rejects⟩ := recoversCommit_iff.mp recovers
      have intended : ∀ store, store = seen ∧ CommitInvariant guarded disputeId dispute store →
          Intended guarded disputeId dispute record store ∧ record.disputeId = disputeId := by
        rintro store ⟨rfl, inv⟩
        have pending : record ∈ pendingHuman store disputeId :=
          sources.elim id fun onDisk => inv.pending_of_onDisk onDisk.2 human unnamed
        obtain ⟨intent, ofDispute, _⟩ := inv.mem_pendingHuman.mp pending
        exact ⟨⟨inv, GivesWay.of_human human, intent⟩, ofDispute⟩
      intro store fates before
      obtain ⟨isIntended, ofDispute⟩ := intended store before
      refine bind (commitResolution_commits ofDispute replaces rejects) (fun _ => ?_)
        store fates isIntended
      split_ifs
      · exact ok fun _ deliverable => .inr ⟨unnamed, _, deliverable⟩
      · exact bail fun _ deliverable => deliverable.inv.sound
    · rw [if_neg recovers]
      split
      · rename_i unresolved
        refine ok ?_
        rintro store ⟨rfl, inv⟩
        refine ⟨inv, fun _ => ?_⟩
        rcases sources with pending | ⟨nonePending, _⟩
        · obtain ⟨_, _, human⟩ := inv.mem_pendingHuman.mp pending
          exact absurd (by simp [recoversCommit, human, unresolved]) recovers
        · exact nonePending
      · rename_i current isCurrent
        split_ifs with automatic named
        · refine ok ?_
          rintro store ⟨rfl, inv⟩
          refine ⟨inv, fun unresolved => ?_⟩
          rw [isCurrent] at unresolved
          cases unresolved
        · refine ok ?_
          rintro store ⟨rfl, inv⟩
          exact .inl (inv.human_deliverable isCurrent (not_not.mp automatic) named sources)
        · exact bail fun _ before => before.2.sound

end

section

variable (sound : ∀ store, holds store → Sound guarded disputeId store)
  (minted : ∀ store later, holds store → SameCommit disputeId store later → (∀ target, Grows target store later) → holds later)

include sound in
theorem mintResolutionId_keeps (draws : List ResolutionId) :
    Triple holds (mintResolutionId disputeId draws) (fun _ => holds)
      (Sound guarded disputeId) := by
  induction draws with
  | nil => exact bail sound
  | cons draw rest ih =>
    refine look fun seen => ?_
    split_ifs
    · exact ih.weaken (fun _ before => before.2) fun _ _ before => before
    · exact ok fun _ before => before.2

include sound minted in
theorem mintPolicyId_keeps (draws : List PolicyId) :
    Triple holds (mintPolicyId draws) (fun _ => holds) (Sound guarded disputeId) := by
  induction draws with
  | nil => exact bail sound
  | cons draw rest ih =>
    refine look fun seen => ?_
    split_ifs with free
    · refine bind (write (fun store before => sound store before.2) ?_) fun _ =>
        ok fun _ before => before
      rintro store ⟨rfl, before⟩
      refine minted store _ before ⟨rfl, rfl, rfl, rfl, rfl⟩ fun _ => Grows.policy ?_
      intro policy stored
      rw [free] at stored
      cases stored
    · exact ih.weaken (fun _ before => before.2) fun _ _ before => before

include sound minted in
theorem mintInboxId_keeps :
    Triple holds (mintInboxId draws) (fun _ => holds) (Sound guarded disputeId) := by
  induction draws with
  | nil => exact bail sound
  | cons draw rest ih =>
    refine look fun seen => ?_
    split_ifs with free
    · refine bind (write (fun store before => sound store before.2) ?_) fun _ =>
        ok fun _ before => before
      rintro store ⟨rfl, before⟩
      refine minted store _ before ⟨rfl, rfl, rfl, rfl, rfl⟩ fun _ => Grows.entry ?_
      intro entry stored
      rw [free] at stored
      cases stored
    · exact ih.weaken (fun _ before => before.2) fun _ _ before => before

include sound minted in
theorem mintTargets_keeps :
    Triple holds (mintTargets draws message agents) (fun _ => holds)
      (Sound guarded disputeId) := by
  induction agents with
  | nil => exact ok fun _ before => before
  | cons agent rest ih =>
    refine bind (mintInboxId_keeps sound minted) fun _ => ?_
    exact bind ih fun _ => ok fun _ before => before

include sound minted in
theorem buildDeliveryIntent_keeps (around : Surroundings) (dispute : Dispute)
    (snapshots : List Claim) (resolution : DisputeResolution) (context : DeliveryContext) :
    Triple holds (buildDeliveryIntent around dispute snapshots resolution context)
      (fun _ => holds) (Sound guarded disputeId) := by
  refine guard sound fun _ => ?_
  refine bind (mintPolicyId_keeps sound minted around.policyDraws) fun _ => ?_
  refine bind (mintTargets_keeps sound minted) fun _ => ?_
  exact ok fun _ before => before

include sound minted in
theorem humanIntent_keeps (around : Surroundings) (dispute : Dispute) (snapshots : List Claim)
    (resolution : DisputeResolution) (notifyAffectedAgents : Bool) :
    Triple holds (humanIntent around dispute snapshots resolution notifyAffectedAgents)
      (fun _ => holds) (Sound guarded disputeId) := by
  unfold humanIntent
  split_ifs
  · refine bind (buildDeliveryIntent_keeps sound minted around _ _ _ _) fun _ => ?_
    exact ok fun _ before => before
  · exact ok fun _ before => before

end

section

theorem CommitInvariant.minted (store later : TeamStore)
    (inv : CommitInvariant guarded disputeId dispute store)
    (same : SameCommit disputeId store later) (grows : ∀ target, Grows target store later) :
    CommitInvariant guarded disputeId dispute later :=
  inv.beside same fun _ _ delivered => delivered.grow (grows _)

theorem resolveHuman_sound {around : Surroundings} {input : HumanResolutionInput}
    {snapshots : Option (List Claim)} :
    Keeps (Sound guarded disputeId) (resolveHuman around disputeId input snapshots) := by
  refine choose fun dispute => ?_
  have sound : ∀ store, CommitInvariant guarded disputeId dispute store →
    Sound guarded disputeId store := fun _ inv => inv.sound
  refine guard sound fun _ => ?_
  refine readDispute_known (fun _ inv => inv.stored) ?_
  refine guard sound fun _ => ?_
  refine guard sound fun opened => ?_
  refine bind recoverHumanResolution_sound fun recovered => ?_
  cases recovered with
  | some record =>
    intro store fates after
    rcases after with deliverable | ⟨_, resolved, deliverable⟩
    all_goals exact deliverRecovered_sound _ _ store fates deliverable
  | none =>
    refine (?_ : Triple (CommitInvariant guarded disputeId dispute) _ _ _).weaken
      (fun _ after => after.1) fun _ _ after => after
    refine guard sound fun _ => ?_
    refine bind (mintResolutionId_keeps sound _) fun resolutionId => ?_
    refine bind (humanIntent_keeps sound CommitInvariant.minted _ _ _ _ _) fun intent => ?_
    intro store fates inv
    have unresolved : dispute.resolution = none := inv.status.mp (of_decide_eq_true opened)
    exact commitHuman_sound rfl rfl (replaces_of_unresolved unresolved)
      (rejects_of_unresolved unresolved) around.now store fates inv

theorem readResolutionRecord_keeps {holds : TeamStore → Prop} (resolutionId : ResolutionId)
    (sound : ∀ store, holds store → Sound guarded disputeId store) :
    Triple holds (readResolutionRecord disputeId resolutionId)
      (fun record store => holds store ∧ store.resolutionRecords disputeId = some record)
      (Sound guarded disputeId) := by
  refine look fun seen => ?_
  split
  · rename_i record onDisk
    split_ifs
    · refine ok ?_
      rintro store ⟨rfl, before⟩
      exact ⟨before, onDisk⟩
    · exact bail fun store before => sound store before.2
  · exact bail fun store before => sound store before.2

theorem replaceAutomatic_sound {around : Surroundings} {input : RejectResolutionInput}
    {snapshots : Option (List Claim)} :
    Triple (CommitInvariant guarded disputeId dispute)
      (replaceAutomatic around disputeId dispute input snapshots)
      (fun _ => Sound guarded disputeId) (Sound guarded disputeId) := by
  have sound : ∀ store, CommitInvariant guarded disputeId dispute store →
    Sound guarded disputeId store := fun _ inv => inv.sound
  unfold replaceAutomatic
  split
  · exact bail sound
  · rename_i current isCurrent
    refine guard sound fun _ => ?_
    refine guard sound fun automatic => ?_
    refine guard sound fun _ => ?_
    refine bind ((readResolutionRecord_keeps _ sound).weaken (fun _ before => before)
      fun _ _ before => before.1) fun superseded => ?_
    refine bind (mintResolutionId_keeps sound _) fun resolutionId => ?_
    refine bind (buildDeliveryIntent_keeps sound CommitInvariant.minted _ _ _ _ _)
      fun intent => ?_
    refine commitHuman_sound ?_ ?_ ?_ ?_ around.now
    · rfl
    · rfl
    · intro other isOther
      rw [isCurrent] at isOther
      cases isOther
      exact ⟨rfl, of_decide_eq_true automatic⟩
    · intro _
      rfl

theorem rejectAndReplace_sound :
    Keeps (Sound guarded disputeId) (rejectAndReplace around disputeId input snapshots) := by
  refine choose fun dispute => ?_
  refine guard (fun _ inv => inv.sound) fun _ => ?_
  refine readDispute_known (fun _ inv => inv.stored) ?_
  refine bind recoverHumanResolution_sound fun recovered => ?_
  split
  · rename_i record isRecord
    obtain ⟨rfl, _⟩ := Option.filter_eq_some_iff.mp isRecord
    intro store fates after
    rcases after with deliverable | ⟨_, resolved, deliverable⟩
    all_goals exact deliverRecovered_sound _ _ store fates deliverable
  · rename_i nothing
    refine (replaceAutomatic_sound).weaken ?_ fun _ _ after => after
    intro store after
    cases recovered with
    | none => exact after.1
    | some record =>
      rcases after with deliverable | ⟨unnamed, _⟩
      · exact deliverable.inv
      · -- a record that was just committed is not that of the resolution read before
        have kept := Option.filter_eq_none_iff.mp nothing record rfl
        refine absurd ?_ unnamed
        rw [Names]
        exact not_not.mp (mt decide_eq_true kept)

end

section

variable {analysis : ArbitrationAnalysis}

theorem writeAnalysis_sound
    (fixed : ∀ record, analysis.pendingResolution = some record → record.disputeId = disputeId) :
    Keeps (Sound guarded disputeId) (writeAnalysis analysis) := by
  refine guard (fun _ before => before) fun _ => ?_
  refine write (fun _ before => before) ?_
  rintro store ⟨dispute, inv⟩
  exact ⟨dispute, inv.putAnalysis fixed⟩

theorem afterDelivery_fixed
    (isFixed : (analysis.afterDelivery delivered now).pendingResolution = some record) :
    analysis.pendingResolution = some record := by
  cases delivered with
  | true => cases isFixed
  | false => exact isFixed

theorem unresolved_or_names (fits : otherResolution dispute record = none) :
    dispute.resolution = none ∨ Names dispute record := by
  cases current : dispute.resolution with
  | none => exact .inl rfl
  | some resolution =>
    rw [otherResolution, current] at fits
    have same := Option.filter_eq_none_iff.mp fits resolution rfl
    right
    rw [Names, current]
    simpa using same

theorem commitIfOpen_delivers (ofDispute : record.disputeId = disputeId)
    (fits : otherResolution dispute record = none) :
    Triple (Recorded guarded disputeId dispute record) (commitIfOpen dispute record.resolution)
      (fun _ store => ∃ resolved, Deliverable guarded disputeId resolved record store)
      (Sound guarded disputeId) := by
  unfold commitIfOpen
  intro store fates before
  split_ifs with opened
  · have unresolved := before.inv.status.mp opened
    exact (writeDispute_commits ofDispute (replaces_of_unresolved unresolved)).weaken
      (fun _ holds => holds) (fun _ _ deliverable => ⟨_, deliverable⟩) store fates before
  · have names : Names dispute record := by
      rcases unresolved_or_names fits with unresolved | names
      · exact absurd (before.inv.status.mpr unresolved) opened
      · exact names
    exact ⟨dispute, before.inv.deliverable names ofDispute before.intent⟩

theorem admissible_of_fits (fits : otherResolution dispute record = none) :
    Admissible dispute record := by
  intro unnamed
  have unresolved := (unresolved_or_names fits).resolve_right unnamed
  exact ⟨replaces_of_unresolved unresolved, rejects_of_unresolved unresolved⟩

theorem finishAnalysisAdoption_sound (ofDispute : record.disputeId = disputeId)
    (fits : otherResolution dispute record = none)
    (fixed : ∀ record, analysis.pendingResolution = some record → record.disputeId = disputeId)
    (now : Instant) :
    Triple (fun store => CommitInvariant guarded disputeId dispute store ∧
        (store.accepts record = true → GivesWay guarded disputeId dispute record store))
      (finishAnalysisAdoption analysis dispute record now)
      (fun _ => Sound guarded disputeId) (Sound guarded disputeId) := by
  refine bind (persistPendingDelivery_intends ofDispute) fun _ => ?_
  refine bind (writeResolutionRecord_records ofDispute (admissible_of_fits fits)) fun _ => ?_
  refine bind (commitIfOpen_delivers ofDispute fits) fun _ => ?_
  refine bind (choose fun _ => attemptDelivery_sound) fun delivered => ?_
  refine bind (writeAnalysis_sound ?_) fun _ => ok fun _ before => before
  exact fun record isFixed => fixed record (afterDelivery_fixed isFixed)

structure Free (guarded : Prop) (disputeId : DisputeId) (dispute : MaintainerDisputeRecord)
    (store : TeamStore) : Prop where
  inv : CommitInvariant guarded disputeId dispute store
  nonePending : pendingHuman store disputeId = []

theorem Free.minted (store later : TeamStore) (free : Free guarded disputeId dispute store)
    (same : SameCommit disputeId store later) (grows : ∀ target, Grows target store later) :
    Free guarded disputeId dispute later where
  inv := free.inv.minted store later same grows
  nonePending := by
    rw [pendingHuman, same.pendings]
    exact free.nonePending

theorem writeAnalysis_keeps_free
    (fixed : ∀ record, analysis.pendingResolution = some record → record.disputeId = disputeId) :
    Triple (Free guarded disputeId dispute) (writeAnalysis analysis)
      (fun _ => Free guarded disputeId dispute) (Sound guarded disputeId) := by
  refine guard (fun _ free => free.inv.sound) fun _ => ?_
  refine write (fun _ free => free.inv.sound) ?_
  exact fun store free => ⟨free.inv.putAnalysis fixed, free.nonePending⟩

theorem fixAdoption_sound {around : Surroundings} {job : AnalysisJob} {resolvedBy : ResolvedBy}
    (ofJob : job.disputeId = disputeId) (unresolved : dispute.resolution = none) :
    Triple (Free guarded disputeId dispute) (fixAdoption around job resolvedBy analysis dispute)
      (fun _ => Sound guarded disputeId) (Sound guarded disputeId) := by
  subst ofJob
  have sound : ∀ store, Free guarded job.disputeId dispute store →
    Sound guarded job.disputeId store := fun _ free => free.inv.sound
  unfold fixAdoption
  split
  · refine guard sound fun _ => ?_
    refine bind (mintResolutionId_keeps sound _) fun resolutionId => ?_
    refine bind (buildDeliveryIntent_keeps sound Free.minted _ _ _ _ _) fun intent => ?_
    refine bind (writeAnalysis_keeps_free ?_) fun _ => ?_
    · intro record isFixed
      cases isFixed
      rfl
    · refine bind ((finishAnalysisAdoption_sound ?_ ?_ ?_ around.now).weaken ?_
        fun _ _ before => before) fun _ => ok fun _ before => before
      · rfl
      · rw [otherResolution, unresolved]
        rfl
      · intro record isFixed
        cases isFixed
        rfl
      · exact fun store free => ⟨free.inv, fun _ _ _ _ => free.nonePending⟩
  · exact bail sound

theorem readAnalysis_keeps {holds : TeamStore → Prop}
    (sound : ∀ store, holds store → Sound guarded disputeId store) :
    Triple holds (readAnalysis job)
      (fun analysis store => holds store ∧ store.analyses job.disputeId = some analysis ∧
        analysis.analysisId = job.analysisId)
      (Sound guarded disputeId) := by
  refine look fun seen => ?_
  split
  · rename_i analysis isCurrent
    split_ifs with same
    · refine ok ?_
      rintro store ⟨rfl, before⟩
      exact ⟨before, isCurrent, same⟩
    · exact bail fun store before => sound store before.2
  · exact bail fun store before => sound store before.2

theorem beginAnalysisAdoption_sound :
    Keeps (Sound guarded disputeId)
      (beginAnalysisAdoption around ⟨disputeId, analysisId⟩ resolvedBy) := by
  refine choose fun dispute => ?_
  have sound : ∀ store, CommitInvariant guarded disputeId dispute store →
    Sound guarded disputeId store := fun _ inv => inv.sound
  refine bind ((readAnalysis_keeps sound).weaken
    (fun _ before => before) fun _ _ before => before.1) fun analysis => ?_
  refine guard sound fun _ => ?_
  refine readDispute_known (fun _ inv => inv.stored) ?_
  refine bind recoverHumanResolution_sound fun recovered => ?_
  cases recovered with
  | some human =>
    have deliver : ∀ resolved, Triple (Deliverable guarded disputeId resolved human) (do
          let _ ← Program.attempt (ensureDelivery human)
          Program.bail : Program TeamStore ArbitrationResolutionRecord)
        (fun _ => Sound guarded disputeId) (Sound guarded disputeId) := fun resolved =>
      bind attemptDelivery_sound fun _ => bail fun _ before => before
    intro store fates after
    rcases after with deliverable | ⟨_, resolved, deliverable⟩
    · exact deliver dispute store fates deliverable
    · exact deliver resolved store fates deliverable
  | none =>
    refine guard (fun _ after => after.1.sound) fun opened => ?_
    have unresolved : dispute.resolution = none := by
      simp only [Bool.and_eq_true, Option.isNone_iff_eq_none] at opened
      exact opened.2
    refine (fixAdoption_sound rfl unresolved).weaken
      ?_ fun _ _ before => before
    exact fun store after => ⟨after.1, after.2 unresolved⟩

theorem fixedAnalysisResolution_keeps {holds : TeamStore → Prop}
    (sound : ∀ store, holds store → Sound guarded disputeId store) :
    Triple holds (fixedAnalysisResolution ⟨disputeId, analysisId⟩ analysis)
      (fun record store => (holds store ∧
        analysis.pendingResolution.or (store.resolutionRecords disputeId) = some record) ∧
        analysis.resolutionId = some record.resolutionId)
      (Sound guarded disputeId) := by
  unfold fixedAnalysisResolution
  split
  · exact bail sound
  · rename_i resolutionId isFixed
    have found : Triple holds (fixedRecord ⟨disputeId, analysisId⟩ analysis resolutionId)
        (fun record store => holds store ∧
          analysis.pendingResolution.or (store.resolutionRecords disputeId) = some record)
        (Sound guarded disputeId) := by
      unfold fixedRecord
      split
      · rename_i record isPending
        refine ok fun store before => ⟨before, ?_⟩
        rw [isPending]
        rfl
      · rename_i nonePending
        refine (readResolutionRecord_keeps resolutionId sound).weaken (fun _ before => before) ?_
        intro record store before
        rw [nonePending]
        exact before
    refine bind found fun record => ?_
    refine guard (fun store before => sound store before.1) fun same => ?_
    exact ok fun _ before => ⟨before, by rw [isFixed, of_decide_eq_true same]⟩

theorem CommitInvariant.ofDispute_of_fixed (inv : CommitInvariant guarded disputeId dispute store)
    (isCurrent : store.analyses disputeId = some analysis)
    (found : analysis.pendingResolution.or (store.resolutionRecords disputeId) = some record) :
    record.disputeId = disputeId := by
  cases pending : analysis.pendingResolution with
  | some fixed =>
    rw [pending] at found
    cases found
    exact inv.fixed analysis record isCurrent pending
  | none =>
    rw [pending] at found
    exact (inv.onDisk record found).1

theorem findOwner_keeps {holds : TeamStore → Prop}
    (sound : ∀ store, holds store → Sound guarded disputeId store) :
    Triple holds (findHumanAnalysisAdoptionOwner disputeId) (fun _ => holds)
      (Sound guarded disputeId) := by
  refine Triple.read fun current => ?_
  split
  · exact ok fun _ before => before.2
  · split_ifs
    · exact ok fun _ before => before.2
    · refine bind ((fixedAnalysisResolution_keeps sound).weaken
        (fun _ before => before.2) fun _ _ before => before.1.1) fun _ => ?_
      exact ok fun _ before => before

theorem adoptionOwner_keeps {holds : TeamStore → Prop}
    (sound : ∀ store, holds store → Sound guarded disputeId store) :
    Triple holds (adoptionOwner ⟨disputeId, analysisId⟩ record) (fun _ => holds)
      (Sound guarded disputeId) := by
  unfold adoptionOwner
  split_ifs
  · exact bind (findOwner_keeps sound) fun _ => ok fun _ before => before
  · exact ok fun _ before => before

structure Recoverable (guarded : Prop) (disputeId : DisputeId) (dispute : MaintainerDisputeRecord)
    (found : TeamStore → Option ArbitrationResolutionRecord) (store : TeamStore) : Prop where
  inv : CommitInvariant guarded disputeId dispute store
  givesWay : ∀ record, found store = some record → GivesWay guarded disputeId dispute record store

/-- `goesOn` is what the operation still checks before it goes on with the record. -/
structure Fixed (guarded : Prop) (disputeId : DisputeId) (dispute : MaintainerDisputeRecord)
    (analysis : ArbitrationAnalysis) (record : ArbitrationResolutionRecord) (goesOn : Prop)
    (store : TeamStore) : Prop where
  inv : CommitInvariant guarded disputeId dispute store
  givesWay : goesOn → store.accepts record = true →
    GivesWay guarded disputeId dispute record store
  isCurrent : store.analyses disputeId = some analysis
  ofDispute : record.disputeId = disputeId

theorem fixedAnalysisResolution_fixes (goesOn : ArbitrationResolutionRecord → Prop)
    (isFound : ∀ store record, analysis.state = .adopting → goesOn record →
      store.adopting ⟨disputeId, analysisId⟩ = some record → found store = some record) :
    Triple (fun store => Recoverable guarded disputeId dispute found store ∧
        store.analyses disputeId = some analysis ∧ analysis.analysisId = analysisId)
      (fixedAnalysisResolution ⟨disputeId, analysisId⟩ analysis)
      (fun record => Fixed guarded disputeId dispute analysis record
        (analysis.state = .adopting ∧ goesOn record)) (Sound guarded disputeId) := by
  refine (fixedAnalysisResolution_keeps fun _ before => before.1.inv.sound).weaken
    (fun _ before => before) ?_
  rintro record store ⟨⟨⟨recoverable, isCurrent, isJob⟩, isFixed⟩, named⟩
  refine ⟨recoverable.inv, fun ⟨adopting, holds⟩ accepts => recoverable.givesWay record ?_,
    isCurrent, recoverable.inv.ofDispute_of_fixed isCurrent isFixed⟩
  refine isFound store record adopting holds ?_
  simp [TeamStore.adopting, Option.filter, isCurrent, isJob, adopting, isFixed, named, accepts]

theorem finishFixed_sound {goesOn : Prop} (fits : otherResolution dispute record = none)
    (holds : goesOn) :
    Triple (Fixed guarded disputeId dispute analysis record goesOn)
      (finishAnalysisAdoption analysis dispute record now)
      (fun _ => Sound guarded disputeId) (Sound guarded disputeId) := by
  intro store fates fixed
  exact finishAnalysisAdoption_sound fixed.ofDispute fits
    (fun other isFixed => fixed.inv.fixed analysis other fixed.isCurrent isFixed) now store fates
    ⟨fixed.inv, fixed.givesWay holds⟩

theorem writeFixed_sound {goesOn : Prop}
    (kept : ∀ other, changed.pendingResolution = some other →
      analysis.pendingResolution = some other) :
    Triple (Fixed guarded disputeId dispute analysis record goesOn) (writeAnalysis changed)
      (fun _ => Sound guarded disputeId) (Sound guarded disputeId) := by
  intro store fates fixed
  refine writeAnalysis_sound ?_ store fates fixed.inv.sound
  exact fun other isFixed => fixed.inv.fixed analysis other fixed.isCurrent (kept other isFixed)

theorem overtake_sound {goesOn : Prop} :
    Triple (Fixed guarded disputeId dispute analysis record goesOn)
      (writeAnalysis (analysis.overtaken current now))
      (fun _ => Sound guarded disputeId) (Sound guarded disputeId) := by
  refine writeFixed_sound ?_
  intro other isFixed
  cases isFixed

theorem recoverAnalysisAdoption_sound :
    Triple (fun store => ∃ dispute, Recoverable guarded disputeId dispute
        (·.adopting ⟨disputeId, analysisId⟩) store)
      (recoverAnalysisAdoption ⟨disputeId, analysisId⟩ now)
      (fun _ => Sound guarded disputeId) (Sound guarded disputeId) := by
  refine choose fun dispute => ?_
  refine bind (readAnalysis_keeps fun _ before =>
    before.inv.sound) fun analysis => ?_
  split_ifs with state
  · exact ok fun _ before => before.1.inv.sound
  refine bind (fixedAnalysisResolution_fixes (fun _ => True)
    fun _ _ _ _ adopting => adopting) fun record => ?_
  refine bind (adoptionOwner_keeps fun _ fixed => fixed.inv.sound) fun owner => ?_
  cases owner with
  | some other =>
    exact bind (writeFixed_sound fun _ isFixed => isFixed) fun _ =>
      ok fun _ before => before
  | none =>
    refine readDispute_known (fun _ fixed => fixed.inv.stored) ?_
    cases fits : otherResolution dispute record with
    | some current =>
      exact bind overtake_sound fun _ => ok fun _ before => before
    | none =>
      exact bind (finishFixed_sound fits ⟨not_not.mp state, trivial⟩) fun _ =>
        ok fun _ before => before

theorem resumeMatchingAnalysisAdoption_sound :
    Triple (fun store => ∃ dispute, Recoverable guarded disputeId dispute
        (fun store => (store.adopting ⟨disputeId, analysisId⟩).filter fun record =>
          record.resolution.resolvedBy = expectedResolvedBy) store)
      (resumeMatchingAnalysisAdoption ⟨disputeId, analysisId⟩ expectedResolvedBy now)
      (fun _ => Sound guarded disputeId) (Sound guarded disputeId) := by
  refine choose fun dispute => ?_
  refine bind (findOwner_keeps fun _ before => before.inv.sound) fun owner => ?_
  refine guard (fun _ before => before.inv.sound) fun _ => ?_
  refine bind (readAnalysis_keeps fun _ before =>
    before.inv.sound) fun analysis => ?_
  split_ifs with state
  · exact ok fun _ before => before.1.inv.sound
  refine bind (fixedAnalysisResolution_fixes
    (fun record => record.resolution.resolvedBy = expectedResolvedBy)
    fun store record _ isExpected adopting => by simp [adopting, isExpected]) fun record => ?_
  refine guard (fun _ fixed => fixed.inv.sound) fun isExpected => ?_
  refine readDispute_known (fun _ fixed => fixed.inv.stored) ?_
  split_ifs with adopted
  · refine guard (fun _ fixed => fixed.inv.sound) fun _ => ?_
    exact ok fun _ fixed => fixed.inv.sound
  · have adopting : analysis.state = .adopting := by
      by_contra other
      exact state ⟨other, adopted⟩
    cases fits : otherResolution dispute record with
    | some current =>
      exact bind overtake_sound fun _ => bail fun _ before => before
    | none =>
      exact bind (finishFixed_sound fits ⟨adopting, of_decide_eq_true isExpected⟩) fun _ =>
        ok fun _ before => before

end

def TeamStore.eventRecord (store : TeamStore) (target : ResolutionEventTarget) :
    Option ArbitrationResolutionRecord :=
  Maintainer.eventRecord target (store.pendingDeliveries.get? target.resolutionId)
    (store.resolutionRecords target.disputeId)

/-- The record that `recover_pending_delivery` goes on with. -/
def TeamStore.pendingRecord (store : TeamStore) (target : ResolutionEventTarget) :
    Option ArbitrationResolutionRecord :=
  (store.eventRecord target).filter fun record => record.target = target

variable {target : ResolutionEventTarget}

theorem HasIntent.eventRecord
    (intent : HasIntent record store) (named : record.resolutionId = target.resolutionId) :
    store.eventRecord target = some record := by
  obtain ⟨pending, found, _, stored⟩ := intent.get
  rw [TeamStore.eventRecord, Maintainer.eventRecord, ← named, found]
  show pending.resolutionRecord.or _ = _
  rw [stored]
  rfl

section

variable (inv : CommitInvariant guarded target.disputeId dispute store)
  (found : store.eventRecord target = some record) (same : record.target = target)
include inv found same

theorem CommitInvariant.eventRecord_cases :
    HasIntent record store ∨ store.resolutionRecords target.disputeId = some record := by
  have ofDispute : record.disputeId = target.disputeId := by rw [← same]; rfl
  rcases Option.or_eq_some_iff.mp found with isPending | ⟨_, onDisk⟩
  · obtain ⟨pending, isFound, stored⟩ := Option.bind_eq_some_iff.mp isPending
    have member := (KeyedMap.get?_eq_some.mp isFound).1
    obtain ⟨known, isKnown, isTarget⟩ :=
      inv.intents pending member (.inr ⟨record, stored, ofDispute⟩)
    rw [stored] at isKnown
    cases isKnown
    exact .inl ⟨pending, member, isTarget, stored⟩
  · exact .inr (Option.filter_eq_some_iff.mp onDisk).1

theorem CommitInvariant.event_deliverable (names : Names dispute record) :
    Deliverable guarded target.disputeId dispute record store := by
  have ofDispute : record.disputeId = target.disputeId := by rw [← same]; rfl
  obtain ⟨current, isCurrent, named⟩ := Option.map_eq_some_iff.mp names
  obtain ⟨committed, isCommitted, _, _, isNamed, reached⟩ := inv.committed_of_resolution isCurrent
  refine ⟨inv, names, ofDispute, ?_⟩
  rcases reached with intent | delivered
  · have isTarget : committed.resolutionId = target.resolutionId := by
      rw [isNamed, named, ← same]
      rfl
    rw [intent.eventRecord isTarget] at found
    cases found
    exact .inl isCommitted
  · exact .inr ⟨committed, isCommitted, delivered⟩

end

theorem Deliverable.putRecord (deliverable : Deliverable guarded disputeId dispute record store)
    (valid : record.resolutionId = record.resolution.resolutionId) :
    Deliverable guarded disputeId dispute record (store.putRecord record) where
  inv := deliverable.inv.putRecord deliverable.ofDispute valid fun unnamed =>
    absurd deliverable.names unnamed
  names := deliverable.names
  ofDispute := deliverable.ofDispute
  current := deliverable.current.imp id fun ⟨other, isCommitted, delivered⟩ =>
    ⟨other, isCommitted, delivered.congr rfl rfl rfl rfl rfl rfl rfl⟩

theorem restoreRecord_keeps :
    Triple (Deliverable guarded disputeId dispute record) (restoreRecord record onDisk)
      (fun _ => Deliverable guarded disputeId dispute record) (Sound guarded disputeId) := by
  unfold restoreRecord
  split_ifs
  · refine guard (fun _ before => before.inv.sound) fun valid => ?_
    refine write (fun _ before => before.inv.sound) ?_
    exact fun store before => before.putRecord (of_decide_eq_true valid)
  · exact ok fun _ before => before

theorem deliverCurrent_sound :
    Triple (Deliverable guarded disputeId dispute record) (deliverCurrent record onDisk)
      (fun _ => Sound guarded disputeId) (Sound guarded disputeId) :=
  bind restoreRecord_keeps fun _ => ensureDelivery_sound

theorem canRecoverCommit_iff : canRecoverCommit dispute record = true ↔ Replaces dispute record ∧
      (dispute.resolution.isSome → record.resolution.rejectionReason.isSome) := by
  cases current : dispute.resolution with
  | none => simp [canRecoverCommit, Replaces, current]
  | some resolution =>
    simp only [canRecoverCommit, Replaces, current, Bool.and_eq_true, decide_eq_true_eq,
      Option.some.injEq, forall_eq', Option.isSome_some, forall_const]
    constructor
    · rintro ⟨⟨human, rejects⟩, automatic⟩
      exact ⟨⟨human, automatic⟩, rejects⟩
    · rintro ⟨⟨human, automatic⟩, rejects⟩
      exact ⟨⟨human, rejects⟩, automatic⟩

theorem CommitInvariant.dropIntent (inv : CommitInvariant guarded target.disputeId dispute store)
    (found : store.eventRecord target = some record) (same : record.target = target)
    (unnamed : ¬Names dispute record) (lost : canRecoverCommit dispute record = false) :
    CommitInvariant guarded target.disputeId dispute
      { store with
        pendingDeliveries := store.pendingDeliveries.erase target.resolutionId } := by
  have isTarget : record.resolutionId = target.resolutionId := by rw [← same]; rfl
  refine inv.removeIntent ?_ ?_ ?_
  · intro other onDisk isOther named
    obtain ⟨intent, replaces, rejects⟩ := inv.uncommitted other onDisk isOther
    rw [intent.eventRecord named] at found
    cases found
    rw [canRecoverCommit_iff.mpr ⟨replaces, rejects⟩] at lost
    cases lost
  · intro committed isCommitted _ named
    have current := inv.log
    cases isCurrent : dispute.resolution with
    | none =>
      rw [isCurrent, Option.map_eq_none_iff] at current
      rw [TeamStore.committedRecord, current] at isCommitted
      cases isCommitted
    | some resolution =>
      obtain ⟨other, isOther, _, _, isNamed, _⟩ := inv.committed_of_resolution isCurrent
      rw [isCommitted] at isOther
      cases isOther
      refine absurd ?_ unnamed
      rw [Names, isCurrent, isTarget, ← named, isNamed]
      rfl
  · intro unresolved
    have recovers : canRecoverCommit dispute record = true := by
      simp [canRecoverCommit, unresolved]
    rw [recovers] at lost
    cases lost

theorem recoverPendingRecord_sound :
    Triple (fun store => Recoverable guarded target.disputeId dispute (·.pendingRecord target) store ∧
        store.eventRecord target = some record)
      (recoverPendingRecord target record onDisk)
      (fun _ => Sound guarded target.disputeId) (Sound guarded target.disputeId) := by
  have sound : ∀ store, Recoverable guarded target.disputeId dispute (·.pendingRecord target) store ∧
        store.eventRecord target = some record → Sound guarded target.disputeId store :=
    fun _ before => before.1.inv.sound
  refine guard sound fun isTarget => ?_
  have same : record.target = target := of_decide_eq_true isTarget
  have ofDispute : record.disputeId = target.disputeId := by rw [← same]; rfl
  have named : record.resolutionId = target.resolutionId := by rw [← same]; rfl
  refine readDispute_known (fun _ before => before.1.inv.stored) ?_
  split_ifs with isCurrent recovers
  · have names : Names dispute record := by
      simpa [Names, named, Option.any_eq_true] using isCurrent
    intro store fates before
    have deliverable := before.1.inv.event_deliverable before.2 same names
    exact deliverCurrent_sound store fates deliverable
  · have unnamed : ¬Names dispute record := by
      simpa [Names, named, Option.any_eq_true] using isCurrent
    obtain ⟨replaces, rejects⟩ := canRecoverCommit_iff.mp recovers
    refine bind ((commitResolution_commits ofDispute replaces rejects).weaken ?_
      fun _ _ before => before) fun _ => deliverCurrent_sound
    rintro store ⟨recoverable, found⟩
    refine ⟨recoverable.inv, recoverable.givesWay record
      (by simp [TeamStore.pendingRecord, found, same]), ?_⟩
    rcases recoverable.inv.eventRecord_cases found same with intent | isOnDisk
    · exact intent
    · exact (recoverable.inv.uncommitted record isOnDisk unnamed).1
  · have unnamed : ¬Names dispute record := by
      simpa [Names, named, Option.any_eq_true] using isCurrent
    refine write sound ?_
    rintro store ⟨recoverable, found⟩
    exact ⟨dispute, recoverable.inv.dropIntent found same unnamed (by simpa using recovers)⟩

theorem recoverPendingDelivery_sound (target : ResolutionEventTarget) :
    Triple (fun store => ∃ dispute,
        Recoverable guarded target.disputeId dispute (·.pendingRecord target) store)
      (recoverPendingDelivery target)
      (fun _ => Sound guarded target.disputeId) (Sound guarded target.disputeId) := by
  refine choose fun dispute => ?_
  refine Triple.read fun pending => ?_
  refine Triple.read fun onDisk => ?_
  have event : ∀ store : TeamStore, store.resolutionRecords target.disputeId = onDisk ∧
        store.pendingDeliveries.get? target.resolutionId = pending ∧
        Recoverable guarded target.disputeId dispute (·.pendingRecord target) store →
      store.eventRecord target = eventRecord target pending onDisk := by
    rintro store ⟨isOnDisk, isPending, _⟩
    rw [TeamStore.eventRecord, isOnDisk, isPending]
  cases found : eventRecord target pending onDisk with
  | none =>
    refine write (fun _ before => before.2.2.inv.sound) ?_
    intro store before
    have nothing := (event store before).trans found
    have noIntent : ∀ record, HasIntent record store →
        record.resolutionId ≠ target.resolutionId := by
      intro record intent named
      rw [intent.eventRecord named] at nothing
      cases nothing
    have inv := before.2.2.inv
    refine ⟨dispute, inv.removeIntent ?_ ?_ ?_⟩
    · exact fun record isOnDisk unnamed =>
        noIntent record (inv.uncommitted record isOnDisk unnamed).1
    · exact fun record _ intent named => absurd named (noIntent record intent)
    · exact fun _ record intent _ => noIntent record intent
  | some record =>
    intro store fates before
    have isEvent := (event store before).trans found
    exact recoverPendingRecord_sound store fates ⟨before.2.2, isEvent⟩

theorem completeAnalysisAdoption_sound (resolutionId : ResolutionId) (now : Instant) :
    Keeps (Sound guarded disputeId)
      (completeAnalysisAdoptionAfterDelivery ⟨disputeId, resolutionId⟩ now) := by
  refine Triple.read fun onDisk => ?_
  refine Triple.read fun current => ?_
  split
  · exact ok fun _ before => before.2.2
  · rename_i analysis isSource
    obtain ⟨record, _, found⟩ := Option.bind_eq_some_iff.mp isSource
    refine guard (fun _ before => before.2.2) fun _ => ?_
    refine (writeAnalysis_sound ?_).weaken (fun _ before => before.2.2) fun _ _ before => before
    intro other isFixed
    cases isFixed

end AgentClaimNetwork.Maintainer
