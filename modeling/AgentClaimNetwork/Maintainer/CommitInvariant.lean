import AgentClaimNetwork.Maintainer.ResolutionService

/-!
What holds of the files of one dispute between any two writes: its committed resolution has its
intent or is delivered, and a record that is not committed yet has its intent.
-/

namespace AgentClaimNetwork.Maintainer

open Library Durable List
open Function (update update_self)
open KeyedMap (get? mem_erase mem_insert)

variable {dispute : MaintainerDisputeRecord} {record : ArbitrationResolutionRecord}
  {store later : TeamStore}

def HasIntent (record : ArbitrationResolutionRecord) (store : TeamStore) : Prop :=
  ∃ pending ∈ store.pendingDeliveries.values,
    pending.target = record.target ∧ pending.resolutionRecord = some record

structure Stored (record : ArbitrationResolutionRecord) (store : TeamStore) : Prop where
  policy : ∀ intent, record.deliveryIntent = some intent →
    store.policies intent.policy.id = .written intent.policy
  entries : ∀ intent, record.deliveryIntent = some intent → ∀ target ∈ intent.targets,
    ∃ entry, store.outbox target.inboxId = .written entry ∧
      samePayload entry (targetEntry record intent target) = true

structure Indexed (record : ArbitrationResolutionRecord) (store : TeamStore) : Prop where
  policy : ∀ intent, record.deliveryIntent = some intent →
    store.policyIndex intent.policy.id = some record.target
  entries : ∀ intent, record.deliveryIntent = some intent → ∀ target ∈ intent.targets,
    store.inboxIndex target.inboxId = some record.target
  claims : ∀ claim ∈ record.directClaimSnapshots,
    store.claimIndex claim.id record.disputeId = some record.target

structure InHistory (record : ArbitrationResolutionRecord) (store : TeamStore) : Prop where
  policy : ∀ intent, record.deliveryIntent = some intent → ∃ event ∈ store.policyEvents,
    event.eventId = (resolutionPolicyEvent record intent.policy).eventId
  resolution : ∃ event ∈ store.resolutionEvents, event.eventId = (resolutionEvent record).eventId

structure Delivered (record : ArbitrationResolutionRecord) (store : TeamStore) : Prop where
  stored : Stored record store
  indexed : Indexed record store
  inHistory : InHistory record store

def Milestone.commitOf (disputeId : DisputeId) :
    Milestone → Option (DisputeResolution × Option ArbitrationResolutionRecord)
  | .intent _ => none
  | .commit id resolution record => if id = disputeId then some (resolution, record) else none

def TeamStore.commits (store : TeamStore) (disputeId : DisputeId) :
    List (DisputeResolution × Option ArbitrationResolutionRecord) :=
  store.milestones.filterMap (Milestone.commitOf disputeId)

def TeamStore.committedRecord (store : TeamStore) (disputeId : DisputeId) :
    Option ArbitrationResolutionRecord :=
  (store.commits disputeId).getLast?.bind Prod.snd

def HumanFirst (disputeId : DisputeId) (milestones : List Milestone) : Prop :=
  ∀ before after record, milestones = before ++ .intent record :: after →
    record.disputeId = disputeId → record.resolution.resolvedBy = .human →
    before.filterMap (Milestone.commitOf disputeId) = [] →
    ∀ commit ∈ after.filterMap (Milestone.commitOf disputeId), commit.1.resolvedBy = .human

def Ordered (commits : List (DisputeResolution × Option ArbitrationResolutionRecord)) : Prop :=
  (commits.map fun commit => commit.1.resolvedBy).Sublist [.automatic, .human]

def Replaces (dispute : MaintainerDisputeRecord) (record : ArbitrationResolutionRecord) : Prop :=
  ∀ current, dispute.resolution = some current →
    record.resolution.resolvedBy = .human ∧ current.resolvedBy = .automatic

def Names (dispute : MaintainerDisputeRecord) (record : ArbitrationResolutionRecord) : Prop :=
  dispute.resolution.map DisputeResolution.resolutionId = some record.resolutionId

section

/-- `guarded` says whether recoveries of automatic records have given way to human intents. -/
structure CommitInvariant (guarded : Prop) (disputeId : DisputeId) (dispute : MaintainerDisputeRecord)
    (store : TeamStore) : Prop where
  stored : store.disputes disputeId = some dispute
  isDispute : dispute.dispute.id = disputeId
  status : dispute.dispute.status = .opened ↔ dispute.resolution = none
  intents : ∀ pending ∈ store.pendingDeliveries.values, pending.target.disputeId = disputeId ∨
    (∃ record, pending.resolutionRecord = some record ∧ record.disputeId = disputeId) →
    ∃ record, pending.resolutionRecord = some record ∧ pending.target = record.target
  fixed : ∀ analysis record, store.analyses disputeId = some analysis →
    analysis.pendingResolution = some record → record.disputeId = disputeId
  onDisk : ∀ record, store.resolutionRecords disputeId = some record →
    record.disputeId = disputeId ∧ record.resolutionId = record.resolution.resolutionId
  hasRecord : dispute.resolution.isSome → (store.resolutionRecords disputeId).isSome
  uncommitted : ∀ record, store.resolutionRecords disputeId = some record →
    ¬Names dispute record → HasIntent record store ∧ Replaces dispute record ∧
      (dispute.resolution.isSome → record.resolution.rejectionReason.isSome)
  log : (store.commits disputeId).getLast?.map Prod.fst = dispute.resolution
  committed : ∀ commit, (store.commits disputeId).getLast? = some commit →
    ∃ record, commit.2 = some record ∧ record.resolution = commit.1 ∧
      record.disputeId = disputeId ∧ record.resolutionId = commit.1.resolutionId ∧
      (HasIntent record store ∨ Delivered record store)
  ordered : Ordered (store.commits disputeId)
  humanIntents : dispute.resolution = none → ∀ record, .intent record ∈ store.milestones →
    record.disputeId = disputeId → record.resolution.resolvedBy = .human → HasIntent record store
  humanFirst : guarded → HumanFirst disputeId store.milestones

variable {guarded : Prop} {disputeId : DisputeId}

theorem CommitInvariant.committed_of_resolution
    (inv : CommitInvariant guarded disputeId dispute store)
    (isCurrent : dispute.resolution = some current) :
    ∃ record, store.committedRecord disputeId = some record ∧ record.resolution = current ∧
      record.disputeId = disputeId ∧ record.resolutionId = current.resolutionId ∧
      (HasIntent record store ∨ Delivered record store) := by
  have logged := inv.log
  rw [isCurrent] at logged
  obtain ⟨commit, isLast, same⟩ := Option.map_eq_some_iff.mp logged
  obtain ⟨record, isRecord, resolution, ofDispute, named, kept⟩ := inv.committed commit isLast
  subst same
  refine ⟨record, ?_, resolution, ofDispute, named, kept⟩
  rw [TeamStore.committedRecord, isLast]
  exact isRecord

theorem HasIntent.get (holds : HasIntent record store) :
    ∃ pending, store.pendingDeliveries.get? record.resolutionId = some pending ∧
      pending.target = record.target ∧ pending.resolutionRecord = some record := by
  obtain ⟨pending, member, target, stored⟩ := holds
  refine ⟨pending, KeyedMap.get?_eq_some.mpr ⟨member, ?_⟩, target, stored⟩
  rw [PendingResolutionDelivery.file, target]
  rfl

theorem HasIntent.unique (left : HasIntent record store) (right : HasIntent other store)
    (same : record.resolutionId = other.resolutionId) : record = other := by
  obtain ⟨first, isFirst, _, leftStored⟩ := left.get
  obtain ⟨second, isSecond, _, rightStored⟩ := right.get
  rw [same, isSecond] at isFirst
  cases isFirst
  rw [leftStored] at rightStored
  exact Option.some.inj rightStored

theorem CommitInvariant.mem_pendingHuman (inv : CommitInvariant guarded disputeId dispute store) :
    record ∈ pendingHuman store disputeId ↔
      HasIntent record store ∧ record.disputeId = disputeId ∧
        record.resolution.resolvedBy = .human := by
  simp only [pendingHuman, mem_filter, mem_filterMap, Bool.and_eq_true, decide_eq_true_eq]
  constructor
  · rintro ⟨⟨pending, member, stored⟩, ofDispute, human⟩
    obtain ⟨known, isKnown, target⟩ := inv.intents pending member (.inr ⟨record, stored, ofDispute⟩)
    rw [stored] at isKnown
    cases isKnown
    exact ⟨⟨pending, member, target, stored⟩, ofDispute, human⟩
  · rintro ⟨⟨pending, member, _, stored⟩, ofDispute, human⟩
    exact ⟨⟨pending, member, stored⟩, ofDispute, human⟩

structure SameCommit (disputeId : DisputeId) (store later : TeamStore) : Prop where
  disputes : later.disputes disputeId = store.disputes disputeId
  records : later.resolutionRecords disputeId = store.resolutionRecords disputeId
  pendings : later.pendingDeliveries = store.pendingDeliveries
  milestones : later.milestones = store.milestones
  analyses : later.analyses = store.analyses

section

variable (same : SameCommit disputeId store later)
include same

theorem SameCommit.commits : later.commits disputeId = store.commits disputeId := by
  rw [TeamStore.commits, TeamStore.commits, same.milestones]

theorem SameCommit.committedRecord :
    later.committedRecord disputeId = store.committedRecord disputeId := by
  rw [TeamStore.committedRecord, TeamStore.committedRecord, same.commits]

theorem SameCommit.hasIntent : HasIntent record later ↔ HasIntent record store := by
  rw [HasIntent, HasIntent, same.pendings]

end

theorem CommitInvariant.beside (inv : CommitInvariant guarded disputeId dispute store)
    (same : SameCommit disputeId store later)
    (kept : ∀ record, store.committedRecord disputeId = some record → Delivered record store →
      Delivered record later) : CommitInvariant guarded disputeId dispute later where
  stored := by rw [same.disputes]; exact inv.stored
  isDispute := inv.isDispute
  status := inv.status
  intents := by rw [same.pendings]; exact inv.intents
  fixed := by rw [same.analyses]; exact inv.fixed
  onDisk := by rw [same.records]; exact inv.onDisk
  hasRecord := by rw [same.records]; exact inv.hasRecord
  uncommitted := by
    intro record isRecord unnamed
    rw [same.records] at isRecord
    obtain ⟨intent, rest⟩ := inv.uncommitted record isRecord unnamed
    exact ⟨same.hasIntent.mpr intent, rest⟩
  log := by rw [same.commits]; exact inv.log
  committed := by
    intro commit isLast
    rw [same.commits] at isLast
    obtain ⟨record, isRecord, resolution, ofDispute, named, reached⟩ := inv.committed commit isLast
    refine ⟨record, isRecord, resolution, ofDispute, named, ?_⟩
    rcases reached with intent | delivered
    · exact .inl (same.hasIntent.mpr intent)
    · refine .inr (kept record ?_ delivered)
      rw [TeamStore.committedRecord, isLast]
      exact isRecord
  ordered := by rw [same.commits]; exact inv.ordered
  humanIntents := by
    intro unresolved record member ofDispute human
    rw [same.milestones] at member
    exact same.hasIntent.mpr (inv.humanIntents unresolved record member ofDispute human)
  humanFirst := by rw [same.milestones]; exact inv.humanFirst

end

variable {guarded : Prop} {disputeId : DisputeId}

def GivesWay (guarded : Prop) (disputeId : DisputeId) (dispute : MaintainerDisputeRecord)
    (record : ArbitrationResolutionRecord) (store : TeamStore) : Prop :=
  guarded → record.resolution.resolvedBy = .automatic → dispute.resolution = none →
    pendingHuman store disputeId = []

theorem commits_intent (milestones : List Milestone) (record : ArbitrationResolutionRecord) :
    (milestones ++ [Milestone.intent record]).filterMap (Milestone.commitOf disputeId) =
      milestones.filterMap (Milestone.commitOf disputeId) := by
  simp [filterMap_append, Milestone.commitOf]

theorem commits_commit (milestones : List Milestone) (resolution : DisputeResolution)
    (record : Option ArbitrationResolutionRecord) :
    (milestones ++ [Milestone.commit disputeId resolution record]).filterMap
        (Milestone.commitOf disputeId) =
      milestones.filterMap (Milestone.commitOf disputeId) ++ [(resolution, record)] := by
  simp [filterMap_append, Milestone.commitOf]

theorem HumanFirst.add
    (humanFirst : HumanFirst disputeId milestones)
    (fits : ∀ commit, milestone.commitOf disputeId = some commit →
      commit.1.resolvedBy = .automatic →
      ∀ record, .intent record ∈ milestones → record.disputeId = disputeId →
        record.resolution.resolvedBy ≠ .human) :
    HumanFirst disputeId (milestones ++ [milestone]) := by
  intro before after record split ofDispute human none commit member
  rcases eq_nil_or_concat after with rfl | ⟨front, last, rfl⟩
  · simp at member
  · rw [concat_eq_append, ← cons_append, ← append_assoc] at split
    obtain ⟨rfl, same⟩ := append_inj' split rfl
    cases same
    rw [concat_eq_append, filterMap_append, mem_append] at member
    rcases member with earlier | latest
    · exact humanFirst before front record rfl ofDispute human none commit earlier
    · by_contra automatic
      have isCommit : milestone.commitOf disputeId = some commit := by simpa using latest
      have isAutomatic : commit.1.resolvedBy = .automatic := by
        cases by' : commit.1.resolvedBy with
        | automatic => rfl
        | human => exact absurd by' automatic
      exact fits commit isCommit isAutomatic record (by simp) ofDispute human

def TeamStore.addIntent (store : TeamStore) (pending : PendingResolutionDelivery) : TeamStore :=
  { store with
    pendingDeliveries := store.pendingDeliveries.insert pending
    milestones := store.milestones ++ (pending.resolutionRecord.map Milestone.intent).toList }

theorem Delivered.congr (delivered : Delivered record store)
    (policies : later.policies = store.policies) (outbox : later.outbox = store.outbox)
    (policyIndex : later.policyIndex = store.policyIndex)
    (inboxIndex : later.inboxIndex = store.inboxIndex)
    (claimIndex : later.claimIndex = store.claimIndex)
    (policyEvents : later.policyEvents = store.policyEvents)
    (resolutionEvents : later.resolutionEvents = store.resolutionEvents) :
    Delivered record later := by
  obtain ⟨⟨policy, entries⟩, ⟨indexedPolicy, indexedEntries, claims⟩, ⟨published, resolved⟩⟩ :=
    delivered
  refine ⟨⟨?_, ?_⟩, ⟨?_, ?_, ?_⟩, ⟨?_, ?_⟩⟩
  · rw [policies]; exact policy
  · rw [outbox]; exact entries
  · rw [policyIndex]; exact indexedPolicy
  · rw [inboxIndex]; exact indexedEntries
  · rw [claimIndex]; exact claims
  · rw [policyEvents]; exact published
  · rw [resolutionEvents]; exact resolved

section

variable {pending : PendingResolutionDelivery}
  (free : store.pendingDeliveries.get? record.resolutionId = none)
  (target : pending.target = record.target)
  (stored : pending.resolutionRecord = some record)

include target stored in
theorem addIntent_hasIntent : HasIntent record (store.addIntent pending) :=
  ⟨pending, by simp [TeamStore.addIntent], target, stored⟩

include free target in
theorem HasIntent.addIntent (intent : HasIntent other store) :
    HasIntent other (store.addIntent pending) := by
  obtain ⟨known, member, knownTarget, knownRecord⟩ := intent
  refine ⟨known, ?_, knownTarget, knownRecord⟩
  rw [TeamStore.addIntent, mem_insert]
  refine .inr ⟨member, ?_⟩
  rw [PendingResolutionDelivery.file, PendingResolutionDelivery.file, target]
  exact KeyedMap.get?_eq_none.mp free known member

include stored in
theorem HasIntent.of_addIntent (intent : HasIntent other (store.addIntent pending)) :
    other = record ∨ HasIntent other store := by
  obtain ⟨known, member, knownTarget, knownRecord⟩ := intent
  rw [TeamStore.addIntent, mem_insert] at member
  rcases member with rfl | ⟨older, _⟩
  · rw [stored] at knownRecord
    exact .inl (Option.some.inj knownRecord).symm
  · exact .inr ⟨known, older, knownTarget, knownRecord⟩

include stored in
theorem addIntent_milestones :
    (store.addIntent pending).milestones = store.milestones ++ [.intent record] := by
  simp [TeamStore.addIntent, stored]

include free target stored in
theorem CommitInvariant.addIntent (inv : CommitInvariant guarded disputeId dispute store) :
    CommitInvariant guarded disputeId dispute (store.addIntent pending) := by
  have commits : (store.addIntent pending).commits disputeId = store.commits disputeId := by
    rw [TeamStore.commits, addIntent_milestones stored, commits_intent]
    rfl
  refine ⟨inv.stored, inv.isDispute, inv.status, ?_, inv.fixed, inv.onDisk, inv.hasRecord, ?_, ?_,
    ?_, ?_, ?_, ?_⟩
  · intro known member concerns
    rw [TeamStore.addIntent, mem_insert] at member
    rcases member with rfl | ⟨older, _⟩
    · exact ⟨record, stored, target⟩
    · exact inv.intents known older concerns
  · intro current isCurrent unnamed
    obtain ⟨intent, rest⟩ := inv.uncommitted current isCurrent unnamed
    exact ⟨intent.addIntent free target, rest⟩
  · rw [commits]
    exact inv.log
  · intro commit isLast
    rw [commits] at isLast
    obtain ⟨current, isRecord, resolution, ofDispute, named, reached⟩ :=
      inv.committed commit isLast
    refine ⟨current, isRecord, resolution, ofDispute, named, ?_⟩
    rcases reached with intent | delivered
    · exact .inl (intent.addIntent free target)
    · exact .inr (delivered.congr rfl rfl rfl rfl rfl rfl rfl)
  · rw [commits]
    exact inv.ordered
  · intro unresolved known member ofDispute human
    rw [addIntent_milestones stored, mem_append, mem_singleton] at member
    rcases member with older | newest
    · exact (inv.humanIntents unresolved known older ofDispute human).addIntent free target
    · cases newest
      exact addIntent_hasIntent target stored
  · intro holds
    rw [addIntent_milestones stored]
    refine (inv.humanFirst holds).add ?_
    intro commit isCommit
    cases isCommit

include free target stored in
theorem GivesWay.addIntent (inv : CommitInvariant guarded disputeId dispute store)
    (givesWay : GivesWay guarded disputeId dispute record store) :
    GivesWay guarded disputeId dispute record (store.addIntent pending) := by
  intro holds automatic unresolved
  rw [eq_nil_iff_forall_not_mem]
  intro human member
  obtain ⟨intent, ofDispute, isHuman⟩ :=
    (inv.addIntent free target stored).mem_pendingHuman.mp member
  rcases intent.of_addIntent stored with rfl | older
  · rw [automatic] at isHuman
    cases isHuman
  · have pending := inv.mem_pendingHuman.mpr ⟨older, ofDispute, isHuman⟩
    rw [givesWay holds automatic unresolved] at pending
    cases pending

end

def TeamStore.putRecord (store : TeamStore) (record : ArbitrationResolutionRecord) : TeamStore :=
  { store with
    resolutionRecords := update store.resolutionRecords record.disputeId (some record) }

theorem CommitInvariant.putRecord (inv : CommitInvariant guarded disputeId dispute store)
    (ofDispute : record.disputeId = disputeId)
    (valid : record.resolutionId = record.resolution.resolutionId)
    (backed : ¬Names dispute record → HasIntent record store ∧ Replaces dispute record ∧
      (dispute.resolution.isSome → record.resolution.rejectionReason.isSome)) :
    CommitInvariant guarded disputeId dispute (store.putRecord record) := by
  have onDisk : (store.putRecord record).resolutionRecords disputeId = some record := by
    rw [TeamStore.putRecord, ← ofDispute]
    exact update_self _ _ _
  refine ⟨inv.stored, inv.isDispute, inv.status, inv.intents, inv.fixed, ?_, ?_, ?_, inv.log, ?_,
    inv.ordered, inv.humanIntents, inv.humanFirst⟩
  · intro current isCurrent
    rw [onDisk] at isCurrent
    cases isCurrent
    exact ⟨ofDispute, valid⟩
  · intro _
    rw [onDisk]
    rfl
  · intro current isCurrent unnamed
    rw [onDisk] at isCurrent
    cases isCurrent
    exact backed unnamed
  · intro commit isLast
    obtain ⟨current, isRecord, resolution, ofCommit, named, reached⟩ := inv.committed commit isLast
    exact ⟨current, isRecord, resolution, ofCommit, named,
      reached.imp id fun delivered => delivered.congr rfl rfl rfl rfl rfl rfl rfl⟩

def TeamStore.commit (store : TeamStore) (dispute : MaintainerDisputeRecord)
    (resolution : DisputeResolution) : TeamStore :=
  { store with
    disputes := update store.disputes dispute.dispute.id
      (some (dispute.resolve resolution))
    milestones := store.milestones ++ [.commit dispute.dispute.id resolution
      (store.resolutionRecords dispute.dispute.id)] }

theorem ordered_add
    (ordered : Ordered commits)
    (replaces : ∀ last, commits.getLast? = some last →
      resolution.resolvedBy = .human ∧ last.1.resolvedBy = .automatic) :
    Ordered (commits ++ [(resolution, onDisk)]) := by
  rcases eq_nil_or_concat commits with rfl | ⟨front, last, rfl⟩
  · cases by' : resolution.resolvedBy with
    | automatic | human => simp [Ordered, by']
  · obtain ⟨human, automatic⟩ := replaces last (by simp)
    have first : front = [] := by
      rw [Ordered, concat_eq_append, map_append, map_singleton, automatic] at ordered
      have shorter := ordered.length_le
      cases front with
      | nil => rfl
      | cons earlier rest =>
        -- an automatic commit would stand second, behind the one before it
        have whole := ordered.eq_of_length_le (by simp)
        cases rest with
        | nil => simp at whole
        | cons next more => simp at shorter
    subst first
    simp [Ordered, human, automatic]

theorem CommitInvariant.commit (inv : CommitInvariant guarded disputeId dispute store)
    (isRecord : store.resolutionRecords disputeId = some record)
    (intent : HasIntent record store) (replaces : Replaces dispute record)
    (givesWay : GivesWay guarded disputeId dispute record store) :
    CommitInvariant guarded disputeId (dispute.resolve record.resolution)
      (store.commit dispute record.resolution) := by
  obtain ⟨ofDispute, valid⟩ := inv.onDisk record isRecord
  have milestones : (store.commit dispute record.resolution).milestones =
      store.milestones ++ [.commit disputeId record.resolution (some record)] := by
    rw [TeamStore.commit, inv.isDispute, isRecord]
  have commits : (store.commit dispute record.resolution).commits disputeId =
      store.commits disputeId ++ [(record.resolution, some record)] := by
    rw [TeamStore.commits, milestones, commits_commit]
    rfl
  have named : Names (dispute.resolve record.resolution) record := by
    simp [Names, MaintainerDisputeRecord.resolve, valid]
  refine ⟨?_, inv.isDispute, ?_, inv.intents, inv.fixed, inv.onDisk, ?_, ?_, ?_, ?_, ?_, ?_, ?_⟩
  · rw [TeamStore.commit, inv.isDispute]
    exact update_self _ _ _
  · simp [MaintainerDisputeRecord.resolve]
  · intro _
    show (store.resolutionRecords disputeId).isSome = true
    rw [isRecord]
    rfl
  · intro current isCurrent unnamed
    obtain rfl : record = current := Option.some.inj (isRecord.symm.trans isCurrent)
    exact absurd named unnamed
  · simp [commits, MaintainerDisputeRecord.resolve]
  · intro commit isLast
    rw [commits, List.getLast?_concat] at isLast
    cases isLast
    exact ⟨record, rfl, rfl, ofDispute, valid, .inl intent⟩
  · rw [commits]
    refine ordered_add inv.ordered ?_
    intro last isLast
    refine replaces last.1 ?_
    rw [← inv.log, isLast]
    rfl
  · intro unresolved
    cases unresolved
  · intro holds
    rw [milestones]
    refine (inv.humanFirst holds).add ?_
    intro commit isCommit automatic human member ofHuman isHuman
    rw [Milestone.commitOf, if_pos rfl] at isCommit
    cases isCommit
    -- an automatic record replaces nothing, so the dispute is still open
    have unresolved : dispute.resolution = none := by
      cases current : dispute.resolution with
      | none => rfl
      | some resolution =>
        have taken := (replaces resolution current).1
        rw [show record.resolution.resolvedBy = .automatic from automatic] at taken
        cases taken
    have pending := inv.mem_pendingHuman.mpr
      ⟨inv.humanIntents unresolved human member ofHuman isHuman, ofHuman, isHuman⟩
    rw [givesWay holds automatic unresolved] at pending
    cases pending

variable (inv : CommitInvariant guarded disputeId dispute store)
include inv

theorem commit_committedRecord (isRecord : store.resolutionRecords disputeId = some record) :
    (store.commit dispute record.resolution).committedRecord disputeId = some record := by
  rw [TeamStore.committedRecord, TeamStore.commits, TeamStore.commit, inv.isDispute, isRecord,
    commits_commit, List.getLast?_concat]
  rfl

theorem CommitInvariant.putAnalysis
    (fixed : ∀ record, analysis.pendingResolution = some record → record.disputeId = disputeId) :
    CommitInvariant guarded disputeId dispute
      { store with
        analyses := update store.analyses analysis.disputeId (some analysis) } := by
  refine ⟨inv.stored, inv.isDispute, inv.status, inv.intents, ?_, inv.onDisk, inv.hasRecord,
    inv.uncommitted, inv.log, ?_, inv.ordered, inv.humanIntents, inv.humanFirst⟩
  · intro current record isCurrent pending
    by_cases same : disputeId = analysis.disputeId
    · simp only [same, update_self, Option.some.injEq] at isCurrent
      rw [← isCurrent] at pending
      exact fixed record pending
    · simp only [Function.update_of_ne same] at isCurrent
      exact inv.fixed current record isCurrent pending
  · intro commit isLast
    obtain ⟨current, isRecord, resolution, ofCommit, named, reached⟩ := inv.committed commit isLast
    exact ⟨current, isRecord, resolution, ofCommit, named,
      reached.imp id fun delivered => delivered.congr rfl rfl rfl rfl rfl rfl rfl⟩

theorem CommitInvariant.removeIntent
    (uncommitted : ∀ record, store.resolutionRecords disputeId = some record →
      ¬Names dispute record → record.resolutionId ≠ resolutionId)
    (committed : ∀ record, store.committedRecord disputeId = some record →
      HasIntent record store → record.resolutionId = resolutionId → Delivered record store)
    (human : dispute.resolution = none → ∀ record, HasIntent record store →
      record.disputeId = disputeId → record.resolutionId ≠ resolutionId) :
    CommitInvariant guarded disputeId dispute
      { store with pendingDeliveries := store.pendingDeliveries.erase resolutionId } := by
  have keeps : ∀ record, HasIntent record store → record.resolutionId ≠ resolutionId →
      HasIntent record
        { store with pendingDeliveries := store.pendingDeliveries.erase resolutionId } := by
    rintro record ⟨pending, member, target, stored⟩ different
    refine ⟨pending, mem_erase.mpr ⟨member, ?_⟩, target, stored⟩
    rw [PendingResolutionDelivery.file, target]
    exact different
  refine ⟨inv.stored, inv.isDispute, inv.status, ?_, inv.fixed, inv.onDisk, inv.hasRecord, ?_,
    inv.log, ?_, inv.ordered, ?_, inv.humanFirst⟩
  · intro pending member
    exact inv.intents pending (mem_erase.mp member).1
  · intro record isRecord unnamed
    obtain ⟨intent, rest⟩ := inv.uncommitted record isRecord unnamed
    exact ⟨keeps record intent (uncommitted record isRecord unnamed), rest⟩
  · intro commit (isLast : (store.commits disputeId).getLast? = some commit)
    obtain ⟨record, isRecord, resolution, ofCommit, named, reached⟩ := inv.committed commit isLast
    have isCommitted : store.committedRecord disputeId = some record := by
      rw [TeamStore.committedRecord, isLast]
      exact isRecord
    refine ⟨record, isRecord, resolution, ofCommit, named, ?_⟩
    rcases reached with intent | delivered
    · by_cases same : record.resolutionId = resolutionId
      · have delivered := committed record isCommitted intent same
        exact .inr (delivered.congr rfl rfl rfl rfl rfl rfl rfl)
      · exact .inl (keeps record intent same)
    · exact .inr (delivered.congr rfl rfl rfl rfl rfl rfl rfl)
  · intro unresolved record member ofDispute isHuman
    have intent := inv.humanIntents unresolved record member ofDispute isHuman
    exact keeps record intent (human unresolved record intent ofDispute)

end AgentClaimNetwork.Maintainer
