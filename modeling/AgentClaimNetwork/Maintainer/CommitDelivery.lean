import AgentClaimNetwork.Maintainer.CommitInvariant

/-!
A delivery of the current resolution writes everything that it consists of before it takes the
intent away, so that the invariant holds wherever it stops.
-/

namespace AgentClaimNetwork.Maintainer

open Library Durable
open Function (update update_of_ne update_self)
open Triple (bind forAll look ok require write)

variable {record : ArbitrationResolutionRecord} {disputeId : DisputeId}
  {dispute : MaintainerDisputeRecord}

section

/-- Nothing that a delivery to `target` has written goes away. -/
structure Grows (target : ResolutionEventTarget) (store later : TeamStore) : Prop where
  policies : ∀ policyId policy, store.policies policyId = .written policy →
    later.policies policyId = .written policy
  outbox : ∀ inboxId entry, store.outbox inboxId = .written entry →
    later.outbox inboxId = .written entry
  policyIndex : ∀ policyId, store.policyIndex policyId = some target →
    later.policyIndex policyId = some target
  inboxIndex : ∀ inboxId, store.inboxIndex inboxId = some target →
    later.inboxIndex inboxId = some target
  claimIndex : ∀ claimId, store.claimIndex claimId target.disputeId = some target →
    later.claimIndex claimId target.disputeId = some target
  policyEvents : store.policyEvents ⊆ later.policyEvents
  resolutionEvents : store.resolutionEvents ⊆ later.resolutionEvents

variable {target : ResolutionEventTarget} {store later : TeamStore}

theorem Grows.refl :
    Grows target store store := by
  constructor
  · exact fun _ _ stored => stored
  · exact fun _ _ stored => stored
  · exact fun _ indexed => indexed
  · exact fun _ indexed => indexed
  · exact fun _ indexed => indexed
  all_goals exact fun _ member => member

theorem Stored.grow (stored : Stored record store) (grows : Grows target store later) :
    Stored record later where
  policy := fun intent isIntent => grows.policies _ _ (stored.policy intent isIntent)
  entries := by
    intro intent isIntent target member
    obtain ⟨entry, written, same⟩ := stored.entries intent isIntent target member
    exact ⟨entry, grows.outbox _ _ written, same⟩

theorem Indexed.grow (indexed : Indexed record store) (grows : Grows record.target store later) :
    Indexed record later where
  policy := fun intent isIntent => grows.policyIndex _ (indexed.policy intent isIntent)
  entries := fun intent isIntent target member =>
    grows.inboxIndex _ (indexed.entries intent isIntent target member)
  claims := fun claim member => grows.claimIndex _ (indexed.claims claim member)

theorem InHistory.grow (inHistory : InHistory record store) (grows : Grows target store later) :
    InHistory record later where
  policy := by
    intro intent isIntent
    obtain ⟨event, member, same⟩ := inHistory.policy intent isIntent
    exact ⟨event, grows.policyEvents member, same⟩
  resolution := by
    obtain ⟨event, member, same⟩ := inHistory.resolution
    exact ⟨event, grows.resolutionEvents member, same⟩

theorem Delivered.grow (delivered : Delivered record store)
    (grows : Grows record.target store later) : Delivered record later :=
  ⟨delivered.stored.grow grows, delivered.indexed.grow grows, delivered.inHistory.grow grows⟩

theorem Grows.policy (missing : ∀ policy, store.policies policyId ≠ .written policy) :
    Grows target store
      { store with policies := update store.policies policyId file } :=
  { Grows.refl with
    policies := by
      intro other policy stored
      have different : other ≠ policyId := by
        rintro rfl
        exact missing policy stored
      simp only [update_of_ne different]
      exact stored }

theorem Grows.entry {inboxId : InboxId} {file : FileState OutboxEntry}
    (missing : ∀ entry, store.outbox inboxId ≠ .written entry) :
    Grows target store { store with outbox := update store.outbox inboxId file } :=
  { Grows.refl with
    outbox := by
      intro other entry stored
      have different : other ≠ inboxId := by
        rintro rfl
        exact missing entry stored
      simp only [update_of_ne different]
      exact stored }

theorem Grows.indexPolicy (policyId : PolicyId) : Grows target store
      { store with policyIndex := update store.policyIndex policyId (some target) } :=
  { Grows.refl with
    policyIndex := by
      intro other indexed
      by_cases same : other = policyId
      · simp [same]
      · simpa only [update_of_ne same] using indexed }

theorem Grows.indexEntry (inboxId : InboxId) : Grows target store
      { store with inboxIndex := update store.inboxIndex inboxId (some target) } :=
  { Grows.refl with
    inboxIndex := by
      intro other indexed
      by_cases same : other = inboxId
      · simp [same]
      · simpa only [update_of_ne same] using indexed }

theorem Grows.indexClaim (claimId : ClaimId) : Grows target store
      { store with
        claimIndex := update store.claimIndex claimId
          (update (store.claimIndex claimId) target.disputeId (some target)) } :=
  { Grows.refl with
    claimIndex := by
      intro other indexed
      by_cases same : other = claimId
      · simp [same]
      · simpa only [update_of_ne same] using indexed }

end

section

structure Deliverable (guarded : Prop) (disputeId : DisputeId) (dispute : MaintainerDisputeRecord)
    (record : ArbitrationResolutionRecord) (store : TeamStore) : Prop where
  inv : CommitInvariant guarded disputeId dispute store
  names : Names dispute record
  ofDispute : record.disputeId = disputeId
  current : store.committedRecord disputeId = some record ∨
    ∃ other, store.committedRecord disputeId = some other ∧ Delivered other store

def Sound (guarded : Prop) (disputeId : DisputeId) (store : TeamStore) : Prop :=
  ∃ dispute, CommitInvariant guarded disputeId dispute store

variable {guarded : Prop} {record : ArbitrationResolutionRecord} {store later : TeamStore}

theorem CommitInvariant.sound (inv : CommitInvariant guarded disputeId dispute store) :
    Sound guarded disputeId store :=
  ⟨dispute, inv⟩

theorem Deliverable.target (deliverable : Deliverable guarded disputeId dispute record store)
    (isCommitted : store.committedRecord disputeId = some other) :
    other.target = record.target := by
  obtain ⟨current, isCurrent, named⟩ := Option.map_eq_some_iff.mp deliverable.names
  obtain ⟨committed, same, _, ofDispute, isNamed, _⟩ :=
    deliverable.inv.committed_of_resolution isCurrent
  rw [isCommitted] at same
  cases same
  rw [ArbitrationResolutionRecord.target, ArbitrationResolutionRecord.target, ofDispute,
    deliverable.ofDispute, isNamed, named]

theorem Deliverable.grow (deliverable : Deliverable guarded disputeId dispute record store)
    (same : SameCommit disputeId store later) (grows : Grows record.target store later) :
    Deliverable guarded disputeId dispute record later where
  inv := by
    refine deliverable.inv.beside same ?_
    intro other isCommitted delivered
    rw [← deliverable.target isCommitted] at grows
    exact delivered.grow grows
  names := deliverable.names
  ofDispute := deliverable.ofDispute
  current := by
    rw [same.committedRecord]
    rcases deliverable.current with isRecord | ⟨other, isCommitted, delivered⟩
    · exact .inl isRecord
    · rw [← deliverable.target isCommitted] at grows
      exact .inr ⟨other, isCommitted, delivered.grow grows⟩

theorem CommitInvariant.deliverable (inv : CommitInvariant guarded disputeId dispute store)
    (names : Names dispute record) (ofDispute : record.disputeId = disputeId)
    (intent : HasIntent record store) : Deliverable guarded disputeId dispute record store := by
  refine ⟨inv, names, ofDispute, ?_⟩
  obtain ⟨current, isCurrent, named⟩ := Option.map_eq_some_iff.mp names
  obtain ⟨committed, isCommitted, _, _, isNamed, reached⟩ := inv.committed_of_resolution isCurrent
  rcases reached with pending | delivered
  · rw [pending.unique intent (isNamed.trans named)] at isCommitted
    exact .inl isCommitted
  · exact .inr ⟨committed, isCommitted, delivered⟩

theorem Deliverable.putAnalysis (deliverable : Deliverable guarded disputeId dispute record store)
    (fixed : ∀ record, analysis.pendingResolution = some record → record.disputeId = disputeId) :
    Deliverable guarded disputeId dispute record
      { store with
        analyses := update store.analyses analysis.disputeId (some analysis) } where
  inv := deliverable.inv.putAnalysis fixed
  names := deliverable.names
  ofDispute := deliverable.ofDispute
  current := deliverable.current.imp id fun ⟨other, isCommitted, delivered⟩ =>
    ⟨other, isCommitted, delivered.congr rfl rfl rfl rfl rfl rfl rfl⟩

end

variable {guarded : Prop} {intent : DeliveryIntent}

abbrev Delivers (guarded : Prop) (disputeId : DisputeId) (dispute : MaintainerDisputeRecord)
    (record : ArbitrationResolutionRecord) (before : TeamStore → Prop)
        (program : Program TeamStore α)
    (after : TeamStore → Prop) : Prop :=
  Triple (fun store => Deliverable guarded disputeId dispute record store ∧ before store) program
    (fun _ store => Deliverable guarded disputeId dispute record store ∧ after store)
    (Sound guarded disputeId)

theorem ensurePolicy_delivers :
    Triple (Deliverable guarded disputeId dispute record) (ensurePolicy policy)
      (fun _ store => Deliverable guarded disputeId dispute record store ∧
        store.policies policy.id = .written policy)
      (Sound guarded disputeId) := by
  refine look fun seen => ?_
  split
  · rename_i existing stored
    refine require (fun _ holds => holds.2.inv.sound) ?_
    rintro same store ⟨rfl, deliverable⟩
    rw [of_decide_eq_true same] at stored
    exact ⟨deliverable, stored⟩
  all_goals
    rename_i missing
    refine write (fun _ holds => holds.2.inv.sound) ?_
    rintro store ⟨rfl, deliverable⟩
    refine ⟨deliverable.grow ⟨rfl, rfl, rfl, rfl, rfl⟩ (Grows.policy ?_),
      update_self _ _ _⟩
    intro other stored
    rw [missing] at stored
    cases stored

def StoredUpTo (record : ArbitrationResolutionRecord) (intent : DeliveryIntent)
    (targets : List DeliveryTargetIntent) (store : TeamStore) : Prop :=
  store.policies intent.policy.id = .written intent.policy ∧ ∀ target ∈ targets,
    ∃ entry, store.outbox target.inboxId = .written entry ∧
      samePayload entry (targetEntry record intent target) = true

theorem ensureOutboxEntry_delivers (passed : List DeliveryTargetIntent)
    (target : DeliveryTargetIntent) :
    Delivers guarded disputeId dispute record (StoredUpTo record intent passed)
        (ensureOutboxEntry (targetEntry record intent target))
        (StoredUpTo record intent (passed ++ [target])) := by
  refine look fun seen => ?_
  split
  · rename_i existing stored
    refine require (fun _ holds => holds.2.1.inv.sound) ?_
    rintro same store ⟨rfl, deliverable, policy, entries⟩
    refine ⟨deliverable, policy, ?_⟩
    intro other member
    rcases mem_concat member with earlier | rfl
    · exact entries other earlier
    · exact ⟨existing, stored, same⟩
  all_goals
    rename_i missing
    refine write (fun _ holds => holds.2.1.inv.sound) ?_
    rintro store ⟨rfl, deliverable, policy, entries⟩
    have free : ∀ entry, store.outbox (targetEntry record intent target).inboxId ≠
        .written entry := by
      intro entry stored
      rw [missing] at stored
      cases stored
    have grows := @Grows.entry record.target store _
      (.written (targetEntry record intent target)) free
    refine ⟨deliverable.grow ⟨rfl, rfl, rfl, rfl, rfl⟩ grows, policy, ?_⟩
    intro other member
    rcases mem_concat member with earlier | rfl
    · obtain ⟨entry, stored, same⟩ := entries other earlier
      exact ⟨entry, grows.outbox _ _ stored, same⟩
    · exact ⟨_, update_self _ _ _, samePayload_refl⟩

theorem ensureIntent_delivers :
    Triple (Deliverable guarded disputeId dispute record) (ensureIntent record)
      (fun _ store => Deliverable guarded disputeId dispute record store ∧ Stored record store)
      (Sound guarded disputeId) := by
  unfold ensureIntent
  split
  · rename_i intent isIntent
    refine bind ensurePolicy_delivers fun _ => ?_
    have loop : Delivers guarded disputeId dispute record (StoredUpTo record intent [])
        (Program.forAll intent.targets fun target =>
          ensureOutboxEntry (targetEntry record intent target))
        (StoredUpTo record intent ([] ++ intent.targets)) :=
      forAll fun passed target _ => ensureOutboxEntry_delivers passed target
    refine loop.weaken ?_ ?_
    · rintro store ⟨deliverable, policy⟩
      exact ⟨deliverable, policy, by simp⟩
    · rintro _ store ⟨deliverable, policy, entries⟩
      refine ⟨deliverable, ⟨?_, ?_⟩⟩
      · intro other isOther
        obtain rfl : intent = other := Option.some.inj (isIntent.symm.trans isOther)
        exact policy
      · intro other isOther
        obtain rfl : intent = other := Option.some.inj (isIntent.symm.trans isOther)
        exact entries
  · rename_i noIntent
    refine ok fun store deliverable => ⟨deliverable, ⟨?_, ?_⟩⟩
    all_goals
      intro intent isIntent
      rw [noIntent] at isIntent
      cases isIntent

def IndexedUpTo (record : ArbitrationResolutionRecord) (intent : DeliveryIntent)
    (targets : List DeliveryTargetIntent) (store : TeamStore) : Prop :=
  store.policyIndex intent.policy.id = some record.target ∧
    ∀ target ∈ targets, store.inboxIndex target.inboxId = some record.target

def IntentIndexed (record : ArbitrationResolutionRecord) (store : TeamStore) : Prop :=
  ∀ intent, record.deliveryIntent = some intent → IndexedUpTo record intent intent.targets store

def ClaimsIndexed (record : ArbitrationResolutionRecord) (claims : List Claim)
    (store : TeamStore) : Prop :=
  ∀ claim ∈ claims, store.claimIndex claim.id record.disputeId = some record.target

theorem indexEntry_delivers (passed : List DeliveryTargetIntent) (target : DeliveryTargetIntent) :
    Delivers guarded disputeId dispute record
        (fun store => Stored record store ∧ IndexedUpTo record intent passed store)
        (Program.write fun store => { store with
          inboxIndex := update store.inboxIndex target.inboxId (some record.target) })
        (fun store => Stored record store ∧ IndexedUpTo record intent (passed ++ [target])
          store) := by
  refine write (fun _ holds => holds.1.inv.sound) ?_
  rintro store ⟨deliverable, stored, policy, entries⟩
  have grows := @Grows.indexEntry record.target store target.inboxId
  refine ⟨deliverable.grow ⟨rfl, rfl, rfl, rfl, rfl⟩ grows, stored.grow grows, policy, ?_⟩
  intro other member
  rcases mem_concat member with earlier | rfl
  · exact grows.inboxIndex _ (entries other earlier)
  · exact update_self _ _ _

theorem registerIntentTargets_delivers :
    Delivers guarded disputeId dispute record (Stored record) (registerIntentTargets record)
        (fun store => Stored record store ∧ IntentIndexed record store) := by
  unfold registerIntentTargets
  split
  · rename_i intent isIntent
    have loop : Delivers guarded disputeId dispute record
        (fun store => Stored record store ∧ IndexedUpTo record intent [] store)
        (Program.forAll intent.targets fun delivery => Program.write fun store =>
          { store with
            inboxIndex := update store.inboxIndex delivery.inboxId (some record.target) })
        (fun store => Stored record store ∧ IndexedUpTo record intent ([] ++ intent.targets)
          store) :=
      forAll fun passed target _ => indexEntry_delivers passed target
    refine bind ?_ fun _ => loop.weaken (fun _ holds => holds) ?_
    · refine write (fun _ holds => holds.1.inv.sound) ?_
      rintro store ⟨deliverable, stored⟩
      have grows := @Grows.indexPolicy record.target store intent.policy.id
      refine ⟨deliverable.grow ⟨rfl, rfl, rfl, rfl, rfl⟩ grows, stored.grow grows,
        update_self _ _ _, ?_⟩
      intro target member
      cases member
    · rintro _ store ⟨deliverable, stored, indexed⟩
      refine ⟨deliverable, stored, ?_⟩
      intro other isOther
      obtain rfl : intent = other := Option.some.inj (isIntent.symm.trans isOther)
      exact indexed
  · rename_i noIntent
    refine ok fun store holds => ⟨holds.1, holds.2, ?_⟩
    intro intent isIntent
    rw [noIntent] at isIntent
    cases isIntent

theorem indexClaim_delivers (passed : List Claim) (claim : Claim) :
    Delivers guarded disputeId dispute record
        (fun store => Stored record store ∧ IntentIndexed record store ∧ ClaimsIndexed record
        passed store)
        (Program.write fun store => { store with
          claimIndex := update store.claimIndex claim.id
            (update (store.claimIndex claim.id) record.disputeId (some record.target)) })
        (fun store => Stored record store ∧ IntentIndexed record store ∧ ClaimsIndexed record
            (passed ++ [claim]) store) := by
  refine write (fun _ holds => holds.1.inv.sound) ?_
  rintro store ⟨deliverable, stored, indexed, claims⟩
  have grows := @Grows.indexClaim record.target store claim.id
  refine ⟨deliverable.grow ⟨rfl, rfl, rfl, rfl, rfl⟩ grows, stored.grow grows, indexed, ?_⟩
  intro other member
  rcases mem_concat member with earlier | rfl
  · exact grows.claimIndex _ (claims other earlier)
  · simp

theorem registerTargets_delivers :
    Delivers guarded disputeId dispute record (Stored record)
        (registerResolutionEventTargets record)
        (fun store => Stored record store ∧ Indexed record store) := by
  refine bind registerIntentTargets_delivers fun _ => ?_
  have loop : Delivers guarded disputeId dispute record
      (fun store => Stored record store ∧ IntentIndexed record store ∧ ClaimsIndexed record []
      store)
      (Program.forAll record.directClaimSnapshots fun claim => Program.write fun store =>
        { store with
          claimIndex := update store.claimIndex claim.id
            (update (store.claimIndex claim.id) record.disputeId (some record.target)) })
      (fun store => Stored record store ∧ IntentIndexed record store ∧ ClaimsIndexed record
          ([] ++ record.directClaimSnapshots) store) :=
    forAll fun passed claim _ => indexClaim_delivers passed claim
  refine loop.weaken ?_ ?_
  · rintro store ⟨deliverable, stored, indexed⟩
    refine ⟨deliverable, stored, indexed, ?_⟩
    intro claim member
    cases member
  · rintro _ store ⟨deliverable, stored, indexed, claims⟩
    refine ⟨deliverable, stored, ?_, ?_, claims⟩
    · exact fun intent isIntent => (indexed intent isIntent).1
    · exact fun intent isIntent => (indexed intent isIntent).2

theorem ensurePolicyEvent_delivers :
    Delivers guarded disputeId dispute record
        (fun store => Stored record store ∧ Indexed record store)
        (ensurePolicyEvent event)
        (fun store => Stored record store ∧ Indexed record store ∧ ∃ existing ∈ store.policyEvents,
            existing.eventId = event.eventId) := by
  refine look fun seen => ?_
  split_ifs with present
  · refine ok ?_
    rintro store ⟨rfl, deliverable, stored, indexed⟩
    simp only [List.any_eq_true, decide_eq_true_eq] at present
    exact ⟨deliverable, stored, indexed, present⟩
  · refine write (fun _ holds => holds.2.1.inv.sound) ?_
    rintro store ⟨rfl, deliverable, stored, indexed⟩
    have grows : Grows record.target store
        { store with policyEvents := store.policyEvents ++ [event] } :=
      { Grows.refl with policyEvents := by simp }
    exact ⟨deliverable.grow ⟨rfl, rfl, rfl, rfl, rfl⟩ grows, stored.grow grows, indexed.grow grows,
      event, by simp, rfl⟩

theorem ensureHistory_delivers :
    Delivers guarded disputeId dispute record
        (fun store => Stored record store ∧ Indexed record store)
        (ensureResolutionHistory record) (Delivered record) := by
  have published : Delivers guarded disputeId dispute record
      (fun store => Stored record store ∧ Indexed record store)
      (ensureIntentHistory record)
      (fun store => Stored record store ∧ Indexed record store ∧ ∀ intent, record.deliveryIntent =
          some intent → ∃ existing ∈ store.policyEvents, existing.eventId =
          (resolutionPolicyEvent record intent.policy).eventId) := by
    unfold ensureIntentHistory
    split
    · rename_i intent isIntent
      refine (ensurePolicyEvent_delivers).weaken (fun _ holds => holds) ?_
      rintro _ store ⟨deliverable, stored, indexed, present⟩
      refine ⟨deliverable, stored, indexed, ?_⟩
      intro other isOther
      obtain rfl : intent = other := Option.some.inj (isIntent.symm.trans isOther)
      exact present
    · rename_i noIntent
      refine ok fun store holds => ⟨holds.1, holds.2.1, holds.2.2, ?_⟩
      intro intent isIntent
      rw [noIntent] at isIntent
      cases isIntent
  refine bind published fun _ => ?_
  refine look fun seen => ?_
  split_ifs with present
  · refine ok ?_
    rintro store ⟨rfl, deliverable, stored, indexed, policy⟩
    simp only [List.any_eq_true, decide_eq_true_eq] at present
    exact ⟨deliverable, stored, indexed, policy, present⟩
  · refine write (fun _ holds => holds.2.1.inv.sound) ?_
    rintro store ⟨rfl, deliverable, stored, indexed, policy⟩
    have grows : Grows record.target store
        { store with resolutionEvents := store.resolutionEvents ++ [resolutionEvent record] } :=
      { Grows.refl with resolutionEvents := by simp }
    exact ⟨deliverable.grow ⟨rfl, rfl, rfl, rfl, rfl⟩ grows, stored.grow grows, indexed.grow grows,
      policy, resolutionEvent record, by simp, rfl⟩

theorem ensureDelivery_sound :
    Triple (Deliverable guarded disputeId dispute record) (ensureDelivery record)
      (fun _ => Sound guarded disputeId) (Sound guarded disputeId) := by
  refine bind ensureIntent_delivers fun _ => ?_
  refine bind registerTargets_delivers fun _ => ?_
  refine Triple.seq ?_ fun _ => ?_
  · refine write (fun _ holds => holds.1.inv.sound) ?_
    rintro store ⟨deliverable, stored, indexed⟩
    have grows : Grows record.target store
        { store with pendingObservations := store.pendingObservations.insert record.target } :=
      { Grows.refl with }
    exact ⟨deliverable.grow ⟨rfl, rfl, rfl, rfl, rfl⟩ grows, stored.grow grows, indexed.grow grows⟩
  refine bind ensureHistory_delivers fun _ => ?_
  refine write (fun _ holds => holds.1.inv.sound) ?_
  rintro store ⟨deliverable, delivered⟩
  refine ⟨dispute, deliverable.inv.removeIntent ?_ ?_ ?_⟩
  · rintro other isOther unnamed same
    refine unnamed ?_
    rw [Names, same]
    exact deliverable.names
  · intro other isCommitted _ _
    rcases deliverable.current with isRecord | ⟨current, isCurrent, reached⟩
    · rw [isCommitted] at isRecord
      cases isRecord
      exact delivered
    · rw [isCommitted] at isCurrent
      cases isCurrent
      exact reached
  · intro unresolved
    have names := deliverable.names
    rw [Names, unresolved] at names
    cases names

end AgentClaimNetwork.Maintainer
