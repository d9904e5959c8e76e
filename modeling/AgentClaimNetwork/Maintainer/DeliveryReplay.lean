import AgentClaimNetwork.Library.Trace
import AgentClaimNetwork.Maintainer.ResolutionDelivery

/-!
A delivery that stopped and is run again: it adds exactly the entries that were missing, unless
its own policy was deprecated in between.
-/

namespace AgentClaimNetwork.Maintainer

open Library Durable List
open Function (update update_of_ne update_self)
open Triple (bail bind forAll_keeps look ok require write)
variable {inboxId : InboxId}

section

variable {record : ArbitrationResolutionRecord} {intent : DeliveryIntent} {store : TeamStore}

structure DeliveryIntent.Built (intent : DeliveryIntent) : Prop where
  active : intent.policy.status = .active
  agents : (intent.targets.map DeliveryTargetIntent.targetAgent).Nodup
  inboxes : (intent.targets.map DeliveryTargetIntent.inboxId).Nodup

structure Reserved (intent : DeliveryIntent) (store : TeamStore) : Prop where
  policy : store.policies intent.policy.id = .reserved
  entries : ∀ target ∈ intent.targets, store.outbox target.inboxId = .reserved

structure Consistent (record : ArbitrationResolutionRecord) (intent : DeliveryIntent)
    (store : TeamStore) : Prop where
  policy : ∀ policy, store.policies intent.policy.id = .written policy →
    policy = intent.policy ∨ policy.status = .deprecated
  present : ∀ target ∈ intent.targets, store.outbox target.inboxId ≠ .absent
  entries : ∀ target ∈ intent.targets, ∀ entry, store.outbox target.inboxId = .written entry →
    samePayload entry (targetEntry record intent target) = true

theorem Reserved.consistent (reserved : Reserved intent store) : Consistent record intent store where
  policy := by
    intro policy stored
    rw [reserved.policy] at stored
    cases stored
  present := by
    intro target member absent
    rw [reserved.entries target member] at absent
    cases absent
  entries := by
    intro target member entry stored
    rw [reserved.entries target member] at stored
    cases stored

theorem Consistent.congr (consistent : Consistent record intent store)
    (policies : later.policies = store.policies) (outbox : later.outbox = store.outbox) :
    Consistent record intent later where
  policy := by
    rw [policies]
    exact consistent.policy
  present := by
    rw [outbox]
    exact consistent.present
  entries := by
    rw [outbox]
    exact consistent.entries

theorem Consistent.write {inboxId : InboxId} {entry : OutboxEntry}
    (consistent : Consistent record intent store)
    (fits : ∀ target ∈ intent.targets, target.inboxId = inboxId →
      samePayload entry (targetEntry record intent target) = true) :
    Consistent record intent
      { store with outbox := update store.outbox inboxId (.written entry) } where
  policy := consistent.policy
  present := by
    intro target member
    by_cases same : target.inboxId = inboxId
    · simp [same]
    · simp only [update_of_ne same]
      exact consistent.present target member
  entries := by
    intro target member other stored
    by_cases same : target.inboxId = inboxId
    · simp only [same, update_self, FileState.written.injEq] at stored
      rw [← stored]
      exact fits target member same
    · simp only [update_of_ne same] at stored
      exact consistent.entries target member other stored

theorem triple_elsewhere (policies : ∀ store, (change store).policies = store.policies)
    (outbox : ∀ store, (change store).outbox = store.outbox) :
    Keeps (Consistent record intent) (Program.write change) :=
  write (fun _ holds => holds) fun store holds => holds.congr (policies store) (outbox store)

theorem ensurePolicy_consistent : Keeps (Consistent record intent)
    (ensurePolicy intent.policy) := by
  refine look fun seen => ?_
  split
  · exact require (fun _ holds => holds.2) fun _ _ holds => holds.2
  all_goals
    refine write (fun _ holds => holds.2) fun store holds => ⟨?_, ?_, ?_⟩
    · intro policy stored
      simp only [update_self, FileState.written.injEq] at stored
      exact Or.inl stored.symm
    · exact holds.2.present
    · exact holds.2.entries

theorem ensureOutboxEntry_consistent (distinct : intent.Built) (member : target ∈ intent.targets) :
    Keeps (Consistent record intent) (ensureOutboxEntry (targetEntry record intent target)) := by
  have fits : ∀ other ∈ intent.targets, other.inboxId = target.inboxId →
      samePayload (targetEntry record intent target) (targetEntry record intent other) = true := by
    intro other belongs same
    rw [inj_on_of_nodup_map distinct.inboxes belongs member same]
    exact samePayload_refl
  refine look fun seen => ?_
  split
  · exact require (fun _ holds => holds.2) fun _ _ holds => holds.2
  all_goals
    exact write (fun _ holds => holds.2) fun store holds => holds.2.write fits

theorem registerTargets_consistent :
    Keeps (Consistent record intent) (registerResolutionEventTargets record) := by
  refine bind ?_ fun _ =>
    forAll_keeps fun _ _ => triple_elsewhere (fun _ => rfl) fun _ => rfl
  unfold registerIntentTargets
  split
  · refine bind (triple_elsewhere (fun _ => rfl) fun _ => rfl) fun _ => ?_
    exact forAll_keeps fun _ _ => triple_elsewhere (fun _ => rfl) fun _ => rfl
  · exact ok fun _ holds => holds

theorem ensureHistory_consistent :
    Keeps (Consistent record intent) (ensureResolutionHistory record) := by
  refine Triple.seq ?_ fun _ => ?_
  · unfold ensureIntentHistory
    split
    · refine look fun seen => ?_
      split
      · exact ok fun _ holds => holds.2
      · exact write (fun _ holds => holds.2) fun _ holds => holds.2.congr rfl rfl
    · exact ok fun _ holds => holds
  · refine look fun seen => ?_
    split
    · exact ok fun _ holds => holds.2
    · exact write (fun _ holds => holds.2) fun _ holds => holds.2.congr rfl rfl

theorem ensureDelivery_consistent (built : intent.Built)
    (isIntent : record.deliveryIntent = some intent) :
    Keeps (Consistent record intent) (ensureDelivery record) := by
  have entries : Keeps (Consistent record intent) (ensureIntent record) := by
    rw [ensureIntent, isIntent]
    refine bind ensurePolicy_consistent fun _ => ?_
    exact forAll_keeps fun _ member => ensureOutboxEntry_consistent built member
  refine bind entries fun _ => ?_
  refine bind registerTargets_consistent fun _ => ?_
  refine bind (triple_elsewhere (fun _ => rfl) fun _ => rfl) fun _ => ?_
  refine bind ensureHistory_consistent fun _ => ?_
  exact triple_elsewhere (fun _ => rfl) fun _ => rfl

theorem markEntry_consistent (consistent : Consistent record intent store)
    (stored : store.outbox inboxId = .written entry)
    (same : ∀ wanted, samePayload marked wanted = samePayload entry wanted) :
    Consistent record intent
      { store with outbox := update store.outbox inboxId (.written marked) } := by
  refine consistent.write ?_
  intro target member isId
  rw [same]
  exact consistent.entries target member entry (by rw [isId]; exact stored)

theorem recordOffered_consistent :
    Keeps (Consistent record intent) (recordOffered inboxId agent now) := by
  refine look fun seen => ?_
  split
  · rename_i entry stored
    refine write (fun _ holds => holds.2) ?_
    rintro store ⟨rfl, holds⟩
    exact markEntry_consistent holds stored fun _ => rfl
  all_goals exact bail fun _ holds => holds.2

theorem appendDelivered_consistent :
    Keeps (Consistent record intent) (appendDelivered inboxId agent now) := by
  refine look fun seen => ?_
  split
  · rename_i entry stored
    split_ifs with already
    · exact ok fun _ holds => holds.2
    · refine write (fun _ holds => holds.2) ?_
      rintro store ⟨rfl, holds⟩
      exact markEntry_consistent holds stored fun _ => rfl
  all_goals exact bail fun _ holds => holds.2

theorem mintInboxId_consistent :
    Triple (Consistent record intent) (mintInboxId draws)
      (fun inboxId store => Consistent record intent store ∧
        ∀ target ∈ intent.targets, target.inboxId ≠ inboxId) (Consistent record intent) := by
  induction draws with
  | nil => exact bail fun _ holds => holds
  | cons draw rest ih =>
    refine look fun seen => ?_
    split_ifs with free
    · refine bind (write (fun _ holds => holds.2) ?_) fun _ =>
        ok fun _ holds => holds
      rintro store ⟨rfl, holds⟩
      have other : ∀ target ∈ intent.targets, target.inboxId ≠ draw := by
        rintro target member rfl
        exact holds.present target member free
      refine ⟨⟨holds.policy, ?_, ?_⟩, other⟩
      · intro target member
        simp only [update_of_ne (other target member)]
        exact holds.present target member
      · intro target member entry stored
        simp only [update_of_ne (other target member)] at stored
        exact holds.entries target member entry stored
    · exact ih.weaken (fun _ holds => holds.2) fun _ _ holds => holds

theorem deprecatePolicy_consistent :
    Keeps (Consistent record intent) (deprecatePolicy policyId now actionId draws) := by
  have entries : ∀ policy, Keeps (Consistent record intent)
      (createOutboxEntries policy actionId now draws) := by
    intro policy
    refine forAll_keeps fun target _ => ?_
    refine bind mintInboxId_consistent fun inboxId => ?_
    refine write (fun _ holds => holds.1) fun store holds => ?_
    exact holds.1.write fun target member same => absurd same (holds.2 target member)
  refine look fun seen => ?_
  split
  · rename_i policy stored
    refine bind (write (fun _ holds => holds.2) ?_) fun _ => entries _
    rintro store ⟨rfl, holds⟩
    refine ⟨?_, holds.present, holds.entries⟩
    intro found isFound
    rcases update_cases isFound with ⟨rfl, written⟩ | ⟨same, isFound⟩
    · cases written
      exact Or.inr rfl
    · exact holds.policy found isFound
  all_goals exact bail fun _ holds => holds.2

end

section

variable {record : ArbitrationResolutionRecord} {intent : DeliveryIntent} {store : TeamStore}

abbrev Outbox := InboxId → FileState OutboxEntry

def fillEntry (record : ArbitrationResolutionRecord) (intent : DeliveryIntent) (outbox : Outbox)
    (target : DeliveryTargetIntent) : Outbox :=
  match outbox target.inboxId with
  | .written _ => outbox
  | .absent | .reserved =>
    update outbox target.inboxId (.written (targetEntry record intent target))

def fillOutbox (record : ArbitrationResolutionRecord) (intent : DeliveryIntent) (outbox : Outbox)
    (targets : List DeliveryTargetIntent) : Outbox :=
  targets.foldl (fillEntry record intent) outbox

variable {outbox : Outbox}

theorem fillEntry_written (stored : outbox target.inboxId = .written entry) :
    fillEntry record intent outbox target = outbox := by
  simp only [fillEntry, stored]

theorem fillEntry_missing (missing : ∀ entry, outbox target.inboxId ≠ .written entry) :
    fillEntry record intent outbox target =
      update outbox target.inboxId (.written (targetEntry record intent target)) := by
  cases stored : outbox target.inboxId with
  | written entry => exact absurd stored (missing entry)
  | absent | reserved => simp only [fillEntry, stored]

theorem fillEntry_other (other : target.inboxId ≠ inboxId) :
    fillEntry record intent outbox target inboxId = outbox inboxId := by
  by_cases stored : ∃ entry, outbox target.inboxId = .written entry
  · obtain ⟨entry, stored⟩ := stored
    rw [fillEntry_written stored]
  · rw [fillEntry_missing (not_exists.mp stored)]
    exact update_of_ne (fun same => other same.symm) _ _

variable {targets : List DeliveryTargetIntent}

theorem fillOutbox_other (other : ∀ target ∈ targets, target.inboxId ≠ inboxId) :
    fillOutbox record intent outbox targets inboxId = outbox inboxId := by
  induction targets generalizing outbox with
  | nil => rfl
  | cons first rest ih =>
    have later := @ih (fillEntry record intent outbox first) fun target member =>
      other target (mem_cons_of_mem _ member)
    exact later.trans (fillEntry_other (other first mem_cons_self))

theorem fillOutbox_written {targets : List DeliveryTargetIntent} {outbox : Outbox}
    {inboxId : InboxId} {entry : OutboxEntry} (stored : outbox inboxId = .written entry) :
    fillOutbox record intent outbox targets inboxId = .written entry := by
  induction targets generalizing outbox with
  | nil => exact stored
  | cons first rest ih =>
    apply ih
    by_cases same : first.inboxId = inboxId
    · subst same
      rw [fillEntry_written stored]
      exact stored
    · rw [fillEntry_other same]
      exact stored

theorem fillOutbox_missing (distinct : (targets.map DeliveryTargetIntent.inboxId).Nodup)
    (member : target ∈ targets) (missing : ∀ entry, outbox target.inboxId ≠ .written entry) :
    fillOutbox record intent outbox targets target.inboxId =
      .written (targetEntry record intent target) := by
  induction targets generalizing outbox with
  | nil => cases member
  | cons first rest ih =>
    obtain ⟨others, restDistinct⟩ := nodup_cons.mp distinct
    rcases mem_cons.mp member with rfl | inRest
    · have filled : fillEntry record intent outbox target target.inboxId =
          .written (targetEntry record intent target) := by
        rw [fillEntry_missing missing]
        exact update_self _ _ _
      exact @fillOutbox_written _ _ rest _ _ _ filled
    · refine ih restDistinct inRest ?_
      intro entry
      have differs : first.inboxId ≠ target.inboxId := by
        intro same
        apply others
        rw [same]
        exact mem_map_of_mem inRest
      rw [fillEntry_other differs]
      exact missing entry

theorem ensureOutboxEntry_completes
    (consistent : Consistent record intent store) (member : target ∈ intent.targets) :
    Completes (ensureOutboxEntry (targetEntry record intent target)) store fun _ last =>
      last.outbox = fillEntry record intent store.outbox target := by
  refine Completes.look ?_
  have isId : (targetEntry record intent target).inboxId = target.inboxId := rfl
  rw [isId]
  split
  · rename_i entry stored
    have fits := consistent.entries target member entry stored
    rw [Program.require, if_pos fits]
    exact Completes.ok (fillEntry_written stored).symm
  all_goals
    rename_i stored
    exact Completes.write (fillEntry_missing (by simp [stored])).symm

theorem ensureIntent_completes (built : intent.Built)
    (isIntent : record.deliveryIntent = some intent) (consistent : Consistent record intent store)
    (intact : ∀ policy, store.policies intent.policy.id = .written policy →
      policy = intent.policy) :
    Completes (ensureIntent record) store fun _ last =>
      last.outbox = fillOutbox record intent store.outbox intent.targets := by
  have policy : Completes (ensurePolicy intent.policy) store fun _ last =>
      last.outbox = store.outbox := by
    refine Completes.look ?_
    split
    · rename_i existing stored
      rw [Program.require, if_pos (by simp [intact existing stored])]
      exact Completes.ok rfl
    all_goals exact Completes.write rfl
  rw [ensureIntent, isIntent]
  refine Completes.bind (policy.and_triple ensurePolicy_consistent consistent) ?_
  rintro _ first ⟨held, unchanged⟩
  have entries := @Completes.forAll TeamStore first DeliveryTargetIntent
    (fun target => ensureOutboxEntry (targetEntry record intent target))
    (fun done last => Consistent record intent last ∧
      last.outbox = fillOutbox record intent store.outbox done) [] intent.targets ?_
    ⟨held, unchanged⟩
  · exact entries.weaken fun _ _ reached => reached.2
  · rintro passed target last member ⟨keeps, filled⟩
    refine ((ensureOutboxEntry_completes keeps member).and_triple
      (ensureOutboxEntry_consistent built member) keeps).weaken ?_
    rintro _ final ⟨stays, reached⟩
    refine ⟨stays, ?_⟩
    rw [reached, filled, fillOutbox, fillOutbox, foldl_append]
    rfl

theorem write_leaves (same : (change store).outbox = outbox) :
    Completes (Program.write change) store fun _ last => last.outbox = outbox :=
  Completes.write same

theorem writes_leave {Item : Type} {items : List Item} {change : Item → TeamStore → TeamStore}
    (each : ∀ item last, last.outbox = outbox → (change item last).outbox = outbox)
    (same : store.outbox = outbox) :
    Completes (Program.forAll items fun item => Program.write (change item)) store fun _ last =>
      last.outbox = outbox :=
  @Completes.forAll TeamStore store Item _ (fun _ last => last.outbox = outbox) [] items
    (fun _ item last _ holds => Completes.write (each item last holds)) same

theorem registerTargets_completes :
    Completes (registerResolutionEventTargets record) store fun _ last =>
      last.outbox = store.outbox := by
  have first : Completes (registerIntentTargets record) store fun _ last =>
      last.outbox = store.outbox := by
    unfold registerIntentTargets
    split
    · refine Completes.bind (write_leaves rfl) fun _ last same => ?_
      exact writes_leave (fun _ _ holds => holds) same
    · exact Completes.ok rfl
  refine Completes.bind first fun _ last same => ?_
  exact writes_leave (fun _ _ holds => holds) same

theorem ensureHistory_completes : Completes (ensureResolutionHistory record) store fun _ last =>
      last.outbox = store.outbox := by
  have first : Completes (ensureIntentHistory record) store fun _ last =>
      last.outbox = store.outbox := by
    unfold ensureIntentHistory
    split
    · refine Completes.look ?_
      split
      · exact Completes.ok rfl
      · exact Completes.write rfl
    · exact Completes.ok rfl
  refine Completes.bind first fun _ last same => ?_
  refine Completes.look ?_
  split
  · exact Completes.ok same
  · exact Completes.write same

theorem ensureDelivery_completes (built : intent.Built)
    (isIntent : record.deliveryIntent = some intent) (consistent : Consistent record intent store)
    (intact : ∀ policy, store.policies intent.policy.id = .written policy →
      policy = intent.policy) :
    Completes (ensureDelivery record) store fun _ last =>
      last.outbox = fillOutbox record intent store.outbox intent.targets := by
  refine Completes.bind (ensureIntent_completes built isIntent consistent intact) ?_
  intro _ first filled
  refine Completes.bind registerTargets_completes fun _ second same => ?_
  have marked : Completes (writePendingObservation record.target) second fun _ last =>
      last.outbox = second.outbox := Completes.write rfl
  refine Completes.bind marked fun _ third unchanged => ?_
  refine Completes.bind ensureHistory_completes fun _ fourth kept => ?_
  refine Completes.write ?_
  exact kept.trans (unchanged.trans (same.trans filled))

end

section

variable {record : ArbitrationResolutionRecord} {intent : DeliveryIntent}
  {start store : TeamStore}

inductive DeliveryLabel
  | deliver
  | offered (inboxId : InboxId) (agent : AgentId) (now : Instant)
  | acknowledged (inboxId : InboxId) (agent : AgentId) (now : Instant)
  | deprecated (policyId : PolicyId) (now : Instant) (actionId : MaintainerActionId)
      (draws : OutboxTarget → List InboxId)

def DeliveryLabel.program (record : ArbitrationResolutionRecord) :
    DeliveryLabel → Program TeamStore Unit
  | .deliver => ensureDelivery record
  | .offered inboxId agent now => recordOffered inboxId agent now
  | .acknowledged inboxId agent now => appendDelivered inboxId agent now
  | .deprecated policyId now actionId draws => deprecatePolicy policyId now actionId draws

def DeliveryStep (record : ArbitrationResolutionRecord) (store : TeamStore)
    (label : DeliveryLabel × List Fate) (next : TeamStore) : Prop :=
  next = (label.1.program record store label.2).store

theorem deliveryStep_consistent (built : intent.Built)
    (isIntent : record.deliveryIntent = some intent) {next : TeamStore}
    (taken : DeliveryStep record store label next) (consistent : Consistent record intent store) :
    Consistent record intent next := by
  obtain ⟨label, fates⟩ := label
  obtain rfl := taken
  cases label with
  | deliver => exact (ensureDelivery_consistent built isIntent).ends fates consistent
  | offered inboxId agent now =>
    exact (recordOffered_consistent).ends fates consistent
  | acknowledged inboxId agent now =>
    exact (appendDelivered_consistent).ends fates consistent
  | deprecated policyId now actionId draws =>
    exact (deprecatePolicy_consistent).ends fates consistent

/-- What a replay leaves: the entries that were there as they were, those that were missing,
nothing else, and one for each agent. -/
structure Replayed (record : ArbitrationResolutionRecord) (intent : DeliveryIntent)
    (before last : TeamStore) : Prop where
  kept : ∀ inboxId entry, before.outbox inboxId = .written entry →
    last.outbox inboxId = .written entry
  missing : ∀ target ∈ intent.targets, (∀ entry, before.outbox target.inboxId ≠ .written entry) →
    last.outbox target.inboxId = .written (targetEntry record intent target)
  untouched : ∀ inboxId, (∀ target ∈ intent.targets, target.inboxId ≠ inboxId) →
    last.outbox inboxId = before.outbox inboxId
  one : ∀ agent ∈ intent.targets.map DeliveryTargetIntent.targetAgent, ∃! inboxId,
    inboxId ∈ intent.targets.map DeliveryTargetIntent.inboxId ∧
      ∃ entry, last.outbox inboxId = .written entry ∧ entry.target = .targeted agent

def Replays (record : ArbitrationResolutionRecord) (intent : DeliveryIntent) (store : TeamStore) :
    Prop :=
  Completes (ensureDelivery record) store fun _ last => Replayed record intent store last

theorem replayed_of_filled (built : intent.Built) (consistent : Consistent record intent store)
    (filled : last.outbox = fillOutbox record intent store.outbox intent.targets) :
    Replayed record intent store last := by
  have stored : ∀ target ∈ intent.targets, ∃ entry, last.outbox target.inboxId = .written entry ∧
        entry.target = .targeted target.targetAgent := by
    intro target member
    rw [filled]
    by_cases there : ∃ entry, store.outbox target.inboxId = .written entry
    · obtain ⟨entry, isEntry⟩ := there
      have fits := consistent.entries target member entry isEntry
      simp only [samePayload, Bool.and_eq_true, decide_eq_true_eq] at fits
      exact ⟨entry, fillOutbox_written isEntry, fits.1.1.2⟩
    · exact ⟨targetEntry record intent target,
        fillOutbox_missing built.inboxes member (not_exists.mp there), rfl⟩
  constructor
  · intro inboxId entry isEntry
    rw [filled]
    exact fillOutbox_written isEntry
  · intro target member isMissing
    rw [filled]
    exact fillOutbox_missing built.inboxes member isMissing
  · intro inboxId other
    rw [filled]
    exact fillOutbox_other other
  · intro agent isAgent
    obtain ⟨target, member, rfl⟩ := mem_map.mp isAgent
    refine ⟨target.inboxId, ⟨mem_map_of_mem member, stored target member⟩, ?_⟩
    rintro inboxId ⟨belongs, entry, isEntry, forAgent⟩
    obtain ⟨other, otherMember, rfl⟩ := mem_map.mp belongs
    obtain ⟨same, isSame, forOther⟩ := stored other otherMember
    rw [isEntry, FileState.written.injEq] at isSame
    rw [isSame, forOther, OutboxTarget.targeted.injEq] at forAgent
    rw [inj_on_of_nodup_map built.agents otherMember member forAgent]

theorem ensureDelivery_refuses {policy : Policy} (isIntent : record.deliveryIntent = some intent)
    (stored : store.policies intent.policy.id = .written policy) (changed : policy ≠ intent.policy)
    (fates : List Fate) : ensureDelivery record store fates = .error store fates := by
  have refused : ensurePolicy intent.policy store fates = .error store fates := by
    simp [ensurePolicy, Bind.bind, Program.andThen, Program.look, stored, Program.require,
      changed, Program.bail]
  show Program.andThen (ensureIntent record) _ store fates = _
  have stops : ensureIntent record store fates = .error store fates := by
    rw [ensureIntent, isIntent]
    show Program.andThen (ensurePolicy intent.policy) _ store fates = _
    rw [Program.andThen, refused]
  rw [Program.andThen, stops]

/-- A delivery can be replayed exactly while its policy is not deprecated. -/
theorem delivery_replays_while_policy_active {labels : List (DeliveryLabel × List Fate)}
    (isIntent : record.deliveryIntent = some intent) (built : intent.Built)
    (reserved : Reserved intent start)
    (run : Trace (DeliveryStep record) start labels store) :
    Replays record intent store ↔
      ∀ policy, store.policies intent.policy.id = .written policy → policy.status = .active := by
  have consistent : Consistent record intent store :=
    run.invariant (fun taken => deliveryStep_consistent built isIntent taken) reserved.consistent
  constructor
  · rintro ⟨count, result, last, _, runs⟩ policy stored
    by_contra inactive
    have changed : policy ≠ intent.policy := by
      rintro rfl
      exact inactive built.active
    have refused := ensureDelivery_refuses isIntent stored changed
      (replicate count Fate.done ++ [])
    rw [runs] at refused
    cases refused
  · intro active
    have intact : ∀ policy, store.policies intent.policy.id = .written policy →
        policy = intent.policy := by
      intro policy stored
      rcases consistent.policy policy stored with same | deprecated
      · exact same
      · rw [active policy stored] at deprecated
        cases deprecated
    exact (ensureDelivery_completes built isIntent consistent intact).weaken
      fun _ _ filled => replayed_of_filled built consistent filled

end

namespace OneHolder

def dispute : Dispute :=
  ⟨"dispute_1", "timeout", "agent-a", ["claim_1"], "30s or 60s", .opened, 0, none⟩

def resolution : DisputeResolution :=
  ⟨"resolution_1", .human, 1, none, none, "60s", [], none⟩

def policy : Policy :=
  ⟨"policy_1", .claimAttributeUpdate, "dispute_arbitration", "60s",
    "maintainer / dispute-arbitration", .active, 1, none, some ["agent-a"]⟩

def intent : DeliveryIntent :=
  ⟨policy, "action_1", [⟨"inbox_1", "agent-a", ⟨"inbox_1", .claimAttributeUpdate policy none, none⟩⟩]⟩

def record : ArbitrationResolutionRecord :=
  ⟨"resolution_1", "dispute_1", 1, resolution, dispute, [], none, none, none, some intent, none⟩

def start : TeamStore where
  disputes := fun _ => none
  analyses := fun _ => none
  resolutionRecords := fun _ => none
  pendingDeliveries := .empty
  pendingObservations := .empty
  policies := fun _ => .reserved
  outbox := fun _ => .reserved
  policyIndex := fun _ => none
  inboxIndex := fun _ => none
  claimIndex := fun _ _ => none
  policyEvents := []
  resolutionEvents := []
  milestones := []

theorem built : intent.Built := ⟨rfl, by decide, by decide⟩

theorem reserved : Reserved intent start := ⟨rfl, fun _ _ => rfl⟩

def stopped : TeamStore := (ensureDelivery record start [.done]).store

def deprecated : TeamStore :=
  (deprecatePolicy "policy_1" 2 "action_2" (fun _ => []) stopped [.done]).store

theorem replay_adds_missing_entry : Replays record intent stopped := by
  have run : Trace (DeliveryStep record) start [(.deliver, [.done])] stopped := Trace.single rfl
  refine (delivery_replays_while_policy_active rfl built reserved run).mpr ?_
  intro found stored
  obtain rfl : policy = found := FileState.written.inj stored
  rfl

theorem replay_fails_once_deprecated : Trace (DeliveryStep record) start
      [(.deliver, [.done]), (.deprecated "policy_1" 2 "action_2" (fun _ => []), [.done])]
      deprecated ∧ ¬Replays record intent deprecated := by
  constructor
  · have first : Trace (DeliveryStep record) start [(.deliver, [.done])] stopped :=
      Trace.single rfl
    exact first.append (Trace.single rfl)
  · rintro ⟨count, result, last, _, runs⟩
    have stored : deprecated.policies intent.policy.id = .written
        { policy with status := .deprecated, updatedAt := some 2 } := rfl
    have refused := @ensureDelivery_refuses record intent deprecated _ rfl stored (by decide)
      (replicate count Fate.done ++ [])
    rw [runs] at refused
    cases refused

end OneHolder

end AgentClaimNetwork.Maintainer
