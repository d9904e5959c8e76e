import AgentClaimNetwork.Library.Trace
import AgentClaimNetwork.Maintainer.Inbox

/-!
What publications, withdrawals, pulls and acknowledgements keep of the outbox: an invariant of
the entries, that nothing written is lost, and what each call may add.
-/

namespace AgentClaimNetwork.Maintainer.InboxDelivery

open Library Durable List
open Function (update update_of_ne update_self)
open Triple (bail bind forAll given look weaken write)

/-- A call that got hold of the outbox lock; `draws` are the ids that are tried. -/
inductive InboxCall
  | publishNewPolicy (name statement scope : String) (now : Instant) (targetAgents : Option (List AgentId))
      (actionId : MaintainerActionId) (policyDraws : List PolicyId)
      (draws : OutboxTarget → List InboxId)
  | deprecatePolicy (policyId : PolicyId) (now : Instant) (actionId : MaintainerActionId)
      (draws : OutboxTarget → List InboxId)
  | pullInbox (agent : AgentId) (now : Instant)
  | ackInbox (agent : AgentId) (inboxIds : List InboxId) (now : Instant)

inductive InboxReply
  | published (policyId : PolicyId)
  | withdrawn
  | inbox (messages : List InboxMessage)
  | acknowledged
  | refused (refusal : InboxAckError)
  | failed

structure InboxEvent where
  call : InboxCall
  reply : InboxReply

def ackReply : Except InboxAckError Unit → InboxReply
  | .ok () => .acknowledged
  | .error refusal => .refused refusal

def perform (files : List InboxId) : InboxCall → Program TeamStore InboxReply
  | .publishNewPolicy name statement scope now targetAgents actionId policyDraws draws => do
      let id ← publishNewPolicy name statement scope now targetAgents actionId policyDraws draws
      pure (.published id)
  | .deprecatePolicy policyId now actionId draws => do
      deprecatePolicy policyId now actionId draws
      pure .withdrawn
  | .pullInbox agent now => do
      let messages ← pullInbox agent files now
      pure (.inbox messages)
  | .ackInbox agent inboxIds now => do
      let result ← ackInbox agent inboxIds files now
      pure (ackReply result)

def answer : Outcome TeamStore InboxReply → InboxReply × TeamStore
  | .value reply store _ => (reply, store)
  | .error store _ => (.failed, store)
  | .stopped store => (.failed, store)

structure Lists (files : List InboxId) (store : TeamStore) : Prop where
  nodup : files.Nodup
  complete : ∀ inboxId, inboxId ∈ files ↔ store.outbox inboxId ≠ .absent

def InboxStep (store : TeamStore) (event : InboxEvent) (next : TeamStore) : Prop :=
  ∃ files fates, Lists files store ∧
    answer (perform files event.call store fates) = (event.reply, next)

theorem answer_ends {post : InboxReply → TeamStore → Prop} {crash : TeamStore → Prop}
    {next : TeamStore}
    (ends : outcome.Ends post crash) (answered : answer outcome = (reply, next)) :
    post reply next ∨ reply = .failed ∧ crash next := by
  cases outcome with
  | value result last rest =>
    cases answered
    exact .inl ends
  | error last rest | stopped last =>
    cases answered
    exact .inr ⟨rfl, ends⟩

section

variable {store start next : TeamStore} {agent : AgentId} {inboxId : InboxId} {entry : OutboxEntry}

def ActiveOffered (store : TeamStore) (policyId : PolicyId) (agent : AgentId) : Prop :=
  ∃ inboxId entry, store.outbox inboxId = .written entry ∧ entry.target = .broadcast ∧
    entry.inboxMessage.policy.status = .active ∧ entry.inboxMessage.policyId = policyId ∧
    entry.offered agent = true

structure Announces (policy : Policy) (entry : OutboxEntry) : Prop where
  target : entry.target ∈ outboxTargets entry.inboxMessage.policy
  audience : entry.inboxMessage.policy.targetAgents = policy.targetAgents
  active : entry.inboxMessage.policy.status = .active →
    entry.inboxMessage.eventAt = policy.createdAt ∧ entry.createdAt = policy.createdAt

/-- Whom the marks of an entry may name. -/
structure MarksSound (store : TeamStore) (entry : OutboxEntry) : Prop where
  offeredOnce : (entry.offeredTo.map OfferedMark.agentId).Nodup
  deliveredOnce : (entry.deliveredTo.map DeliveredMark.agentId).Nodup
  deliveredOffered : ∀ agent, entry.delivered agent = true → entry.offered agent = true
  owner : ∀ agent, entry.offered agent = true → ∀ owner, entry.target = .targeted owner →
    owner = agent
  withdrawal : ∀ agent, entry.offered agent = true → entry.target = .broadcast →
    entry.inboxMessage.policy.status = .deprecated →
    ActiveOffered store entry.inboxMessage.policyId agent

structure EntrySound (store : TeamStore) (inboxId : InboxId) (entry : OutboxEntry) : Prop where
  named : entry.inboxId = inboxId
  message : entry.inboxMessage.id = inboxId
  announced : ∃ policy, store.policies entry.inboxMessage.policyId = .written policy ∧
    Announces policy entry
  marks : MarksSound store entry

structure OutboxSound (store : TeamStore) : Prop where
  policies : ∀ policyId policy, store.policies policyId = .written policy →
    policy.id = policyId ∧ normalizeTargetAgents policy.targetAgents = policy.targetAgents
  entries : ∀ inboxId entry, store.outbox inboxId = .written entry → EntrySound store inboxId entry

structure SameEntry (left right : OutboxEntry) : Prop where
  inboxId : right.inboxId = left.inboxId
  target : right.target = left.target
  createdAt : right.createdAt = left.createdAt
  inboxMessage : right.inboxMessage = left.inboxMessage

theorem SameEntry.refl : SameEntry entry entry := ⟨rfl, rfl, rfl, rfl⟩

theorem SameEntry.trans (before : SameEntry first second) (after : SameEntry second third) :
    SameEntry first third :=
  ⟨after.inboxId.trans before.inboxId, after.target.trans before.target,
    after.createdAt.trans before.createdAt, after.inboxMessage.trans before.inboxMessage⟩

structure Grows (earlier later : TeamStore) : Prop where
  entries : ∀ inboxId entry, earlier.outbox inboxId = .written entry →
    ∃ kept, later.outbox inboxId = .written kept ∧ SameEntry entry kept ∧
      (∀ agent, entry.offered agent = true → kept.offered agent = true) ∧
      ∀ agent, entry.delivered agent = true → kept.delivered agent = true
  policies : ∀ policyId policy, earlier.policies policyId = .written policy →
    ∃ kept, later.policies policyId = .written kept ∧ kept.createdAt = policy.createdAt ∧
      kept.targetAgents = policy.targetAgents

theorem Grows.refl : Grows store store where
  entries := fun _ entry stored =>
    ⟨entry, stored, SameEntry.refl, fun _ holds => holds, fun _ holds => holds⟩
  policies := fun _ policy stored => ⟨policy, stored, rfl, rfl⟩

theorem Grows.trans (before : Grows start store) (after : Grows store next) : Grows start next where
  entries := by
    intro inboxId entry stored
    obtain ⟨middle, found, same, offers, deliveries⟩ := before.entries inboxId entry stored
    obtain ⟨last, reached, alike, moreOffers, moreDeliveries⟩ := after.entries inboxId middle found
    exact ⟨last, reached, same.trans alike, fun agent holds => moreOffers agent (offers agent holds),
      fun agent holds => moreDeliveries agent (deliveries agent holds)⟩
  policies := by
    intro policyId policy stored
    obtain ⟨middle, found, created, audience⟩ := before.policies policyId policy stored
    obtain ⟨last, reached, createdToo, audienceToo⟩ := after.policies policyId middle found
    exact ⟨last, reached, createdToo.trans created, audienceToo.trans audience⟩

theorem ActiveOffered.grow {policyId : PolicyId} (offered : ActiveOffered store policyId agent)
    (grows : Grows store next) : ActiveOffered next policyId agent := by
  obtain ⟨inboxId, entry, stored, target, status, policy, marked⟩ := offered
  obtain ⟨kept, found, same, offers, -⟩ := grows.entries inboxId entry stored
  refine ⟨inboxId, kept, found, ?_, ?_, ?_, offers agent marked⟩
  · rw [same.target, target]
  · rw [same.inboxMessage, status]
  · rw [same.inboxMessage, policy]

theorem MarksSound.grow (sound : MarksSound store entry) (grows : Grows store next) :
    MarksSound next entry :=
  { sound with
    withdrawal := fun agent offered broadcast status =>
      (sound.withdrawal agent offered broadcast status).grow grows }

theorem EntrySound.grow (sound : EntrySound store inboxId entry) (grows : Grows store next) :
    EntrySound next inboxId entry where
  named := sound.named
  message := sound.message
  announced := by
    obtain ⟨policy, stored, announces⟩ := sound.announced
    obtain ⟨kept, found, created, audience⟩ := grows.policies _ policy stored
    refine ⟨kept, found, announces.target, ?_, ?_⟩
    · rw [audience]
      exact announces.audience
    · rw [created]
      exact announces.active
  marks := sound.marks.grow grows

theorem EntrySound.mark (sound : EntrySound store inboxId entry)
    (same : SameEntry entry marked) (marks : MarksSound store marked) :
    EntrySound store inboxId marked where
  named := same.inboxId.trans sound.named
  message := by
    rw [same.inboxMessage]
    exact sound.message
  announced := by
    obtain ⟨policy, stored, announces⟩ := sound.announced
    refine ⟨policy, by rw [same.inboxMessage]; exact stored, ?_, ?_, ?_⟩
    · rw [same.target, same.inboxMessage]
      exact announces.target
    · rw [same.inboxMessage]
      exact announces.audience
    · rw [same.inboxMessage, same.createdAt]
      exact announces.active
  marks := marks

structure Frame (mayAck : AgentId → InboxId → Prop) (mayAdd : OutboxEntry → Prop)
    (start store : TeamStore) : Prop where
  acked : ∀ inboxId entry agent, store.outbox inboxId = .written entry →
    entry.delivered agent = true → mayAck agent inboxId ∨
      ∃ before, start.outbox inboxId = .written before ∧ before.delivered agent = true
  added : ∀ inboxId entry, store.outbox inboxId = .written entry →
    (∃ created, mayAdd created ∧ SameEntry created entry) ∨
      ∃ before, start.outbox inboxId = .written before ∧ SameEntry before entry

/-- How far a call got from `start`. -/
structure Progress (mayAck : AgentId → InboxId → Prop) (mayAdd : OutboxEntry → Prop)
    (start store : TeamStore) : Prop where
  sound : OutboxSound store
  grows : Grows start store
  frame : Frame mayAck mayAdd start store

variable {mayAck : AgentId → InboxId → Prop} {mayAdd : OutboxEntry → Prop}

theorem Progress.refl (sound : OutboxSound start) : Progress mayAck mayAdd start start where
  sound := sound
  grows := Grows.refl
  frame :=
    { acked := fun _ entry _ stored delivered => .inr ⟨entry, stored, delivered⟩
      added := fun _ entry stored => .inr ⟨entry, stored, SameEntry.refl⟩ }

variable (progress : Progress mayAck mayAdd start store)

include progress in
theorem Progress.writePolicies (outbox : next.outbox = store.outbox) (grows : Grows store next)
    (policies : ∀ policyId policy, next.policies policyId = .written policy →
      policy.id = policyId ∧ normalizeTargetAgents policy.targetAgents = policy.targetAgents) :
    Progress mayAck mayAdd start next where
  sound :=
    { policies := policies
      entries := by
        intro inboxId entry stored
        rw [outbox] at stored
        exact (progress.sound.entries inboxId entry stored).grow grows }
  grows := progress.grows.trans grows
  frame :=
    { acked := by
        rw [outbox]
        exact progress.frame.acked
      added := by
        rw [outbox]
        exact progress.frame.added }

theorem Grows.updateOutbox {file : FileState OutboxEntry}
    (missing : ∀ entry, store.outbox inboxId ≠ .written entry) :
    Grows store { store with outbox := update store.outbox inboxId file } where
  entries := by
    intro other kept stored
    have differs : other ≠ inboxId := by
      rintro rfl
      exact missing kept stored
    exact ⟨kept, by simpa only [update_of_ne differs] using stored, SameEntry.refl,
      fun _ holds => holds, fun _ holds => holds⟩
  policies := fun _ policy stored => ⟨policy, stored, rfl, rfl⟩

include progress

theorem Progress.reserveInbox (free : store.outbox inboxId = .absent) :
    Progress mayAck mayAdd start
      { store with outbox := update store.outbox inboxId .reserved } := by
  have written : ∀ other entry,
      update store.outbox inboxId FileState.reserved other = .written entry ↔
        store.outbox other = .written entry := by
    intro other entry
    by_cases same : other = inboxId
    · simp [same, free]
    · simp [update_of_ne same]
  have grows := @Grows.updateOutbox store inboxId .reserved (by simp [free])
  refine ⟨⟨progress.sound.policies, ?_⟩, progress.grows.trans grows, ?_, ?_⟩
  · intro other entry stored
    exact (progress.sound.entries other entry ((written other entry).mp stored)).grow grows
  · intro other entry agent stored delivered
    exact progress.frame.acked other entry agent ((written other entry).mp stored) delivered
  · intro other entry stored
    exact progress.frame.added other entry ((written other entry).mp stored)

theorem Progress.addEntry
    (reserved : store.outbox inboxId = .reserved) (named : entry.inboxId = inboxId)
    (message : entry.inboxMessage.id = inboxId)
    (announced : ∃ policy, store.policies entry.inboxMessage.policyId = .written policy ∧
      Announces policy entry)
    (offered : entry.offeredTo = []) (delivered : entry.deliveredTo = []) (adds : mayAdd entry) :
    Progress mayAck mayAdd start
      { store with outbox := update store.outbox inboxId (.written entry) } := by
  have neverOffered : ∀ agent, entry.offered agent = false := by simp [OutboxEntry.offered, offered]
  have neverDelivered : ∀ agent, entry.delivered agent = false := by
    simp [OutboxEntry.delivered, delivered]
  have grows := @Grows.updateOutbox store inboxId (.written entry) (by simp [reserved])
  refine ⟨⟨progress.sound.policies, ?_⟩, progress.grows.trans grows, ?_, ?_⟩
  · intro other found stored
    rcases update_cases stored with ⟨rfl, written⟩ | ⟨same, stored⟩
    · cases written
      refine ⟨named, message, announced, ?_⟩
      constructor
      · simp [offered]
      · simp [delivered]
      all_goals simp [neverOffered, neverDelivered]
    · exact (progress.sound.entries other found stored).grow grows
  · intro other found agent stored isDelivered
    rcases update_cases stored with ⟨rfl, written⟩ | ⟨same, stored⟩
    · cases written
      rw [neverDelivered] at isDelivered
      cases isDelivered
    · exact progress.frame.acked other found agent stored isDelivered
  · intro other found stored
    rcases update_cases stored with ⟨rfl, written⟩ | ⟨same, stored⟩
    · cases written
      exact .inl ⟨entry, adds, SameEntry.refl⟩
    · exact progress.frame.added other found stored

theorem Progress.markEntry
    (stored : store.outbox inboxId = .written entry) (same : SameEntry entry marked)
    (offers : ∀ agent, entry.offered agent = true → marked.offered agent = true)
    (deliveries : ∀ agent, entry.delivered agent = true → marked.delivered agent = true)
    (acks : ∀ agent, marked.delivered agent = true → mayAck agent inboxId ∨
      entry.delivered agent = true)
    (marks : MarksSound store entry → MarksSound store marked) :
    Progress mayAck mayAdd start
      { store with outbox := update store.outbox inboxId (.written marked) } := by
  have grows : Grows store
      { store with outbox := update store.outbox inboxId (.written marked) } :=
    { entries := by
        intro other kept found
        by_cases isId : other = inboxId
        · subst isId
          rw [stored] at found
          cases found
          exact ⟨marked, by simp, same, offers, deliveries⟩
        · exact ⟨kept, by simpa only [update_of_ne isId] using found,
            SameEntry.refl, fun _ holds => holds, fun _ holds => holds⟩
      policies := fun _ policy found => ⟨policy, found, rfl, rfl⟩ }
  have before := progress.sound.entries inboxId entry stored
  refine ⟨⟨progress.sound.policies, ?_⟩, progress.grows.trans grows, ?_, ?_⟩
  · intro other found isFound
    rcases update_cases isFound with ⟨rfl, written⟩ | ⟨isId, isFound⟩
    · cases written
      exact (before.mark same (marks before.marks)).grow grows
    · exact (progress.sound.entries other found isFound).grow grows
  · intro other found agent isFound delivered
    rcases update_cases isFound with ⟨rfl, written⟩ | ⟨isId, isFound⟩
    · cases written
      rcases acks agent delivered with allowed | already
      · exact .inl allowed
      · exact progress.frame.acked other entry agent stored already
    · exact progress.frame.acked other found agent isFound delivered
  · intro other found isFound
    rcases update_cases isFound with ⟨rfl, written⟩ | ⟨isId, isFound⟩
    · cases written
      rcases progress.frame.added other entry stored with
        ⟨created, allowed, alike⟩ | ⟨first, wasThere, alike⟩
      · exact .inl ⟨created, allowed, alike.trans same⟩
      · exact .inr ⟨first, wasThere, alike.trans same⟩
    · exact progress.frame.added other found isFound

omit progress

end

section

variable {start : TeamStore} {mayAck : AgentId → InboxId → Prop} {mayAdd : OutboxEntry → Prop}

theorem offer_agents (agent : AgentId) (now : Instant) (marks : List OfferedMark) :
    (offer agent now marks).map OfferedMark.agentId =
      if agent ∈ marks.map OfferedMark.agentId then marks.map OfferedMark.agentId
      else marks.map OfferedMark.agentId ++ [agent] := by
  induction marks with
  | nil => simp [offer]
  | cons mark rest ih =>
    by_cases same : mark.agentId = agent
    · simp [offer, same]
    · have other : agent ≠ mark.agentId := fun equal => same equal.symm
      simp only [offer, if_neg same, map_cons, ih, mem_cons, other, false_or]
      split_ifs <;> simp

variable {agent : AgentId} {entry : OutboxEntry}

theorem offered_iff :
    entry.offered agent = true ↔ agent ∈ entry.offeredTo.map OfferedMark.agentId := by
  simp [OutboxEntry.offered]

theorem delivered_iff :
    entry.delivered agent = true ↔ agent ∈ entry.deliveredTo.map DeliveredMark.agentId := by
  simp [OutboxEntry.delivered]

variable {now : Instant}

theorem offered_offer {agent other : AgentId} :
    ({ entry with offeredTo := offer agent now entry.offeredTo } : OutboxEntry).offered other =
      true ↔ entry.offered other = true ∨ other = agent := by
  rw [offered_iff, offered_iff]
  rw [offer_agents]
  split_ifs with already
  · constructor
    · exact .inl
    · rintro (before | rfl)
      · exact before
      · exact already
  · simp

def MayOffer (agent : AgentId) (store : TeamStore) (inboxId : InboxId) : Prop :=
  ∃ entry, store.outbox inboxId = .written entry ∧
    (∀ owner, entry.target = .targeted owner → owner = agent) ∧
    (entry.target = .broadcast → entry.inboxMessage.policy.status = .deprecated →
      ActiveOffered store entry.inboxMessage.policyId agent)

variable {inboxId : InboxId} {store next : TeamStore}

theorem MayOffer.grow (may : MayOffer agent store inboxId) (grows : Grows store next) :
    MayOffer agent next inboxId := by
  obtain ⟨entry, stored, owner, withdrawal⟩ := may
  obtain ⟨kept, found, same, -, -⟩ := grows.entries inboxId entry stored
  refine ⟨kept, found, ?_, ?_⟩
  · rw [same.target]
    exact owner
  · rw [same.target, same.inboxMessage]
    exact fun broadcast status => (withdrawal broadcast status).grow grows

def OfferedIn (store : TeamStore) (agent : AgentId) (inboxId : InboxId) : Prop :=
  ∃ entry, store.outbox inboxId = .written entry ∧ entry.offered agent = true

variable {passed : List InboxId}

theorem marked_update {mark : OutboxEntry → Bool} {entry : OutboxEntry} (marked : mark entry = true)
    (earlier : ∀ other ∈ passed, ∃ kept, store.outbox other = .written kept ∧ mark kept = true) :
    ∀ other ∈ passed ++ [inboxId], ∃ kept,
      update store.outbox inboxId (.written entry) other = .written kept ∧ mark kept = true := by
  intro other member
  by_cases same : other = inboxId
  · subst same
    exact ⟨_, update_self _ _ _, marked⟩
  · obtain ⟨kept, isStored, isMarked⟩ :=
      earlier other ((mem_concat member).resolve_right same)
    exact ⟨kept, (update_of_ne same _ _).trans isStored, isMarked⟩

theorem recordOffered_progress (may : MayOffer agent start inboxId) :
    Triple (fun store => Progress mayAck mayAdd start store ∧
        ∀ other ∈ passed, OfferedIn store agent other)
      (recordOffered inboxId agent now)
      (fun _ store => Progress mayAck mayAdd start store ∧
        ∀ other ∈ passed ++ [inboxId], OfferedIn store agent other)
      (Progress mayAck mayAdd start) := by
  refine look fun seen => ?_
  split
  · rename_i entry stored
    refine write (fun _ holds => holds.2.1) ?_
    rintro store ⟨rfl, progress, earlier⟩
    refine ⟨progress.markEntry stored ⟨rfl, rfl, rfl, rfl⟩ ?_ (fun _ holds => holds)
      (fun _ holds => .inr holds) ?_, marked_update (offered_offer.mpr (.inr rfl)) earlier⟩
    · exact fun other holds => offered_offer.mpr (.inl holds)
    · intro sound
      obtain ⟨first, found, owner, withdrawal⟩ := may.grow progress.grows
      rw [stored] at found
      cases found
      refine { sound with offeredOnce := ?_, deliveredOffered := ?_, owner := ?_, withdrawal := ?_ }
      · rw [offer_agents]
        split_ifs with already
        · exact sound.offeredOnce
        · exact nodup_append_comm.mpr (nodup_cons.mpr ⟨already, sound.offeredOnce⟩)
      · exact fun other delivered => offered_offer.mpr (.inl (sound.deliveredOffered other delivered))
      · intro other offered
        rcases offered_offer.mp offered with before | rfl
        · exact sound.owner other before
        · exact owner
      · intro other offered broadcast status
        rcases offered_offer.mp offered with before | rfl
        · exact sound.withdrawal other before broadcast status
        · exact withdrawal broadcast status
  all_goals exact bail fun _ holds => holds.2.1

def DeliveredIn (store : TeamStore) (agent : AgentId) (inboxId : InboxId) : Prop :=
  ∃ entry, store.outbox inboxId = .written entry ∧ entry.delivered agent = true

theorem DeliveredIn.grow (delivered : DeliveredIn store agent inboxId) (grows : Grows store next) :
    DeliveredIn next agent inboxId := by
  obtain ⟨entry, stored, marked⟩ := delivered
  obtain ⟨kept, found, -, -, deliveries⟩ := grows.entries inboxId entry stored
  exact ⟨kept, found, deliveries agent marked⟩

theorem delivered_append {agent other : AgentId} :
    ({ entry with deliveredTo := entry.deliveredTo ++ [⟨agent, now⟩] } : OutboxEntry).delivered
      other = true ↔ entry.delivered other = true ∨ other = agent := by
  rw [delivered_iff, delivered_iff]
  simp

theorem appendDelivered_progress
    (allowed : mayAck agent inboxId) (may : OfferedIn start agent inboxId) :
    Triple (fun store => Progress mayAck mayAdd start store ∧
        ∀ other ∈ passed, DeliveredIn store agent other)
      (appendDelivered inboxId agent now)
      (fun _ store => Progress mayAck mayAdd start store ∧
        ∀ other ∈ passed ++ [inboxId], DeliveredIn store agent other)
      (Progress mayAck mayAdd start) := by
  refine look fun seen => ?_
  split
  · rename_i entry stored
    split_ifs with already
    · refine Triple.ok ?_
      rintro store ⟨rfl, progress, earlier⟩
      refine ⟨progress, ?_⟩
      intro other member
      rcases mem_concat member with before | rfl
      · exact earlier other before
      · exact ⟨entry, stored, already⟩
    · refine write (fun _ holds => holds.2.1) ?_
      rintro store ⟨rfl, progress, earlier⟩
      obtain ⟨first, found, wasOffered⟩ := may
      obtain ⟨kept, isKept, -, offers, -⟩ := progress.grows.entries inboxId first found
      rw [stored] at isKept
      cases isKept
      have fresh : agent ∉ entry.deliveredTo.map DeliveredMark.agentId := by
        rw [← delivered_iff]
        exact already
      refine ⟨progress.markEntry stored ⟨rfl, rfl, rfl, rfl⟩ (fun _ holds => holds)
        (fun other holds => delivered_append.mpr (.inl holds)) ?_ ?_,
        marked_update (delivered_append.mpr (.inr rfl)) earlier⟩
      · intro other delivered
        rcases delivered_append.mp delivered with before | rfl
        · exact .inr before
        · exact .inl allowed
      · intro sound
        refine { sound with deliveredOnce := ?_, deliveredOffered := ?_ }
        · rw [map_append]
          exact nodup_append_comm.mpr (nodup_cons.mpr ⟨fresh, sound.deliveredOnce⟩)
        · intro other delivered
          rcases delivered_append.mp delivered with before | rfl
          · exact sound.deliveredOffered other before
          · exact offers other wasOffered
  all_goals exact bail fun _ holds => holds.2.1

def Announced (start store : TeamStore) (policy : Policy) (target : OutboxTarget) : Prop :=
  ∃ inboxId entry, store.outbox inboxId = .written entry ∧ entry.target = target ∧
    entry.inboxMessage.policy = policy ∧ ∀ before, start.outbox inboxId ≠ .written before

variable {policy : Policy}

theorem Announced.grow
    (announced : Announced start store policy target) (grows : Grows store next) :
    Announced start next policy target := by
  obtain ⟨inboxId, entry, stored, isTarget, isPolicy, fresh⟩ := announced
  obtain ⟨kept, found, same, -, -⟩ := grows.entries inboxId entry stored
  refine ⟨inboxId, kept, found, ?_, ?_, fresh⟩
  · rw [same.target, isTarget]
  · rw [same.inboxMessage, isPolicy]

structure Backed (policy : Policy) (now : Instant) (store : TeamStore) : Prop where
  stored : ∃ backing, store.policies policy.id = .written backing ∧
    policy.targetAgents = backing.targetAgents ∧
    (policy.status = .active →
      policy.updatedAt = none ∧ policy.createdAt = backing.createdAt ∧ now = backing.createdAt)

structure Announcing (mayAck : AgentId → InboxId → Prop) (mayAdd : OutboxEntry → Prop)
    (start : TeamStore) (policy : Policy) (now : Instant) (passed : List OutboxTarget)
    (store : TeamStore) : Prop where
  progress : Progress mayAck mayAdd start store
  backed : Backed policy now store
  announced : ∀ target ∈ passed, Announced start store policy target

theorem mintInboxId_announcing {passed : List OutboxTarget} (draws : List InboxId) :
    Triple (Announcing mayAck mayAdd start policy now passed) (mintInboxId draws)
      (fun inboxId store => Announcing mayAck mayAdd start policy now passed store ∧
        store.outbox inboxId = .reserved ∧ inboxId ∈ draws ∧
        ∀ before, start.outbox inboxId ≠ .written before)
      (Progress mayAck mayAdd start) := by
  induction draws with
  | nil => exact bail fun _ holds => holds.progress
  | cons draw rest ih =>
    refine look fun seen => ?_
    split_ifs with free
    · refine bind (write (fun _ holds => holds.2.progress) ?_) fun _ =>
        Triple.ok fun _ holds => holds
      rintro store ⟨rfl, holds⟩
      have grows := @Grows.updateOutbox store draw .reserved (by simp [free])
      refine ⟨⟨holds.progress.reserveInbox free, ⟨holds.backed.stored⟩, ?_⟩, by simp, by simp, ?_⟩
      · exact fun target member => (holds.announced target member).grow grows
      · intro before stored
        obtain ⟨kept, found, -⟩ := holds.progress.grows.entries draw before stored
        rw [free] at found
        cases found
    · refine ih.weaken (fun _ holds => holds.2) ?_
      rintro inboxId store ⟨holds, reserved, drawn, fresh⟩
      exact ⟨holds, reserved, mem_cons_of_mem _ drawn, fresh⟩

theorem createOutboxEntries_progress
    (adds : ∀ entry, entry.inboxMessage.policy = policy → entry.createdAt = now →
      (∃ target, entry.inboxId ∈ draws target) → mayAdd entry) :
    Triple (fun store => Progress mayAck mayAdd start store ∧ Backed policy now store)
      (createOutboxEntries policy actionId now draws)
      (fun _ store => Progress mayAck mayAdd start store ∧
        ∀ target ∈ outboxTargets policy, Announced start store policy target)
      (Progress mayAck mayAdd start) := by
  have loop : Triple (Announcing mayAck mayAdd start policy now [])
      (createOutboxEntries policy actionId now draws)
      (fun _ => Announcing mayAck mayAdd start policy now ([] ++ outboxTargets policy))
      (Progress mayAck mayAdd start) := by
    refine forAll fun passed target member => ?_
    refine bind (mintInboxId_announcing (draws target)) fun inboxId => ?_
    refine write (fun _ holds => holds.1.progress) ?_
    rintro store ⟨announcing, reserved, drawn, fresh⟩
    obtain ⟨backing, stored, audience, active⟩ := announcing.backed.stored
    have isPolicy := policyInboxKind_policy policy inboxId none
    have grows := @Grows.updateOutbox store inboxId
      (.written ⟨inboxId, actionId, target, now, [], [], ⟨inboxId, policyInboxKind policy, none⟩⟩)
      (by simp [reserved])
    refine ⟨announcing.progress.addEntry reserved rfl rfl ⟨backing, ?_, ?_, ?_, ?_⟩ rfl rfl
      (adds _ isPolicy rfl ⟨target, drawn⟩), ⟨announcing.backed.stored⟩, ?_⟩
    · rw [InboxMessage.policyId, isPolicy]
      exact stored
    · rw [isPolicy]
      exact member
    · rw [isPolicy]
      exact audience
    · rw [isPolicy, InboxMessage.eventAt, isPolicy]
      intro isActive
      obtain ⟨updated, created, atOnce⟩ := active isActive
      exact ⟨by rw [updated]; exact created, atOnce⟩
    · intro other isPassed
      rcases mem_concat isPassed with before | rfl
      · exact (announcing.announced other before).grow grows
      · exact ⟨inboxId, _, update_self _ _ _, rfl, isPolicy, fresh⟩
  refine weaken loop ?_ fun _ _ holds => ⟨holds.progress, holds.announced⟩
  exact fun store holds => ⟨holds.1, holds.2, by simp⟩

end

variable {start : TeamStore} {mayAck : AgentId → InboxId → Prop} {mayAdd : OutboxEntry → Prop}
variable {store : TeamStore} {policyId : PolicyId}

theorem Grows.updatePolicies (kept : ∀ policy, store.policies policyId = .written policy → ∃ later,
      file = .written later ∧ later.createdAt = policy.createdAt ∧
        later.targetAgents = policy.targetAgents) :
    Grows store { store with policies := update store.policies policyId file } where
  entries := fun _ entry stored =>
    ⟨entry, stored, SameEntry.refl, fun _ holds => holds, fun _ holds => holds⟩
  policies := by
    intro other policy stored
    by_cases same : other = policyId
    · subst same
      obtain ⟨later, isFile, created, audience⟩ := kept policy stored
      exact ⟨later, by simpa using isFile, created, audience⟩
    · exact ⟨policy, by simpa only [update_of_ne same] using stored, rfl, rfl⟩

theorem Progress.updatePolicy {policy : Policy} (progress : Progress mayAck mayAdd start store)
    (kept : ∀ before, store.policies policyId = .written before →
      policy.createdAt = before.createdAt ∧ policy.targetAgents = before.targetAgents)
    (named : policy.id = policyId)
    (normalized : normalizeTargetAgents policy.targetAgents = policy.targetAgents) :
    Progress mayAck mayAdd start
      { store with policies := update store.policies policyId (.written policy) } := by
  refine progress.writePolicies rfl ?_ ?_
  · exact Grows.updatePolicies fun before stored => ⟨policy, rfl, kept before stored⟩
  · intro other found stored
    rcases update_cases stored with ⟨rfl, written⟩ | ⟨same, stored⟩
    · cases written
      exact ⟨named, normalized⟩
    · exact progress.sound.policies other found stored

theorem mintPolicyId_progress : Triple (Progress mayAck mayAdd start) (mintPolicyId draws)
      (fun policyId store => (Progress mayAck mayAdd start store ∧
        store.policies policyId = .reserved) ∧
        ∀ policy, start.policies policyId ≠ .written policy)
      (Progress mayAck mayAdd start) := by
  induction draws with
  | nil => exact bail fun _ holds => holds
  | cons draw rest ih =>
    refine look fun seen => ?_
    split_ifs with free
    · refine bind (write (fun _ holds => holds.2) ?_) fun _ =>
        Triple.ok fun _ holds => holds
      rintro store ⟨rfl, progress⟩
      refine ⟨⟨progress.writePolicies rfl ?_ ?_, by simp⟩, ?_⟩
      · exact Grows.updatePolicies (by simp [free])
      · intro other policy stored
        rcases update_cases stored with ⟨rfl, written⟩ | ⟨same, stored⟩
        · cases written
        · exact progress.sound.policies other policy stored
      · intro policy stored
        obtain ⟨kept, found, -⟩ := progress.grows.policies draw policy stored
        rw [free] at found
        cases found
    · exact ih.weaken (fun _ holds => holds.2) fun _ _ holds => holds

def PublishAdds (start : TeamStore) (entry : OutboxEntry) : Prop :=
  entry.inboxMessage.policy.status = .active ∧
    ∀ policy, start.policies entry.inboxMessage.policyId ≠ .written policy

theorem publishNewPolicy_progress (name statement scope : String) (now : Instant)
    (targetAgents : Option (List AgentId)) (actionId : MaintainerActionId)
    (policyDraws : List PolicyId) (draws : OutboxTarget → List InboxId) :
    Keeps (Progress mayAck (PublishAdds start) start)
      (publishNewPolicy name statement scope now targetAgents actionId policyDraws draws) := by
  refine bind mintPolicyId_progress fun policyId => ?_
  refine given fun fresh => ?_
  have written : Triple (fun store => Progress mayAck (PublishAdds start) start store ∧
        store.policies policyId = .reserved)
      (Program.write fun store => { store with
        policies := update store.policies policyId (.written ⟨policyId, .policyUpdate, name, statement, scope, .active, now, none,
          normalizeTargetAgents targetAgents⟩) })
      (fun _ store => Progress mayAck (PublishAdds start) start store ∧
        Backed ⟨policyId, .policyUpdate, name, statement, scope, .active, now, none,
          normalizeTargetAgents targetAgents⟩ now store)
      (Progress mayAck (PublishAdds start) start) := by
    refine write (fun _ holds => holds.1) fun store holds => ⟨?_, ?_⟩
    · exact holds.1.updatePolicy (by simp [holds.2]) rfl normalizeTargetAgents_idem
    · exact ⟨⟨_, update_self _ _ _, rfl, fun _ => ⟨rfl, rfl, rfl⟩⟩⟩
  refine bind written fun _ => ?_
  refine bind (createOutboxEntries_progress ?_) fun _ => Triple.ok fun _ holds => holds.1
  intro entry isPolicy _ _
  refine ⟨by rw [isPolicy], ?_⟩
  rw [InboxMessage.policyId, isPolicy]
  exact fresh

def DeprecateAdds (policyId : PolicyId) (now : Instant) (draws : OutboxTarget → List InboxId)
    (entry : OutboxEntry) : Prop :=
  entry.inboxMessage.policy.status = .deprecated ∧ entry.inboxMessage.policyId = policyId ∧
    entry.inboxMessage.eventAt = now ∧ entry.createdAt = now ∧
    ∃ target, entry.inboxId ∈ draws target

def withdrawnPolicy (policy : Policy) (now : Instant) : Policy :=
  { policy with
    status := .deprecated
    updatedAt := some now
    targetAgents := normalizeTargetAgents policy.targetAgents }

theorem deprecatePolicy_progress (policyId : PolicyId) (now : Instant)
    (actionId : MaintainerActionId) (draws : OutboxTarget → List InboxId) :
    Triple (fun store => store = start ∧ OutboxSound start)
      (deprecatePolicy policyId now actionId draws)
      (fun _ store => Progress mayAck (DeprecateAdds policyId now draws) start store ∧
        ∃ policy, start.policies policyId = .written policy ∧
          ∀ target ∈ outboxTargets (withdrawnPolicy policy now),
            Announced start store (withdrawnPolicy policy now) target)
      (Progress mayAck (DeprecateAdds policyId now draws) start) := by
  refine look fun seen => ?_
  split
  · rename_i policy stored
    have written : Triple (fun store => store = seen ∧ store = start ∧ OutboxSound start)
        (Program.write fun store => { store with
          policies := update store.policies policyId
            (.written (withdrawnPolicy policy now)) })
        (fun _ store => (Progress mayAck (DeprecateAdds policyId now draws) start store ∧
          Backed (withdrawnPolicy policy now) now store) ∧
          policy.id = policyId ∧ start.policies policyId = .written policy)
        (Progress mayAck (DeprecateAdds policyId now draws) start) := by
      refine write ?_ ?_
      · rintro store ⟨rfl, rfl, sound⟩
        exact Progress.refl sound
      · rintro store ⟨rfl, rfl, sound⟩
        obtain ⟨named, normalized⟩ := sound.policies policyId policy stored
        refine ⟨⟨(Progress.refl sound).updatePolicy ?_ named
          normalizeTargetAgents_idem, ⟨⟨_, ?_, rfl, ?_⟩⟩⟩, named, stored⟩
        · intro before found
          rw [stored] at found
          cases found
          exact ⟨rfl, normalized⟩
        · simp [withdrawnPolicy, named]
        · exact fun active => by cases active
    refine bind written fun _ => given fun known => ?_
    refine weaken (createOutboxEntries_progress ?_) (fun _ holds => holds) ?_
    · intro entry isPolicy created drawn
      refine ⟨by rw [isPolicy], ?_, ?_, created, drawn⟩
      · rw [InboxMessage.policyId, isPolicy]
        exact known.1
      · rw [InboxMessage.eventAt, isPolicy]
        rfl
    · exact fun _ store holds => ⟨holds.1, policy, known.2, holds.2⟩
  all_goals
    refine bail ?_
    rintro store ⟨rfl, rfl, sound⟩
    exact Progress.refl sound

variable {files : List InboxId} {entry : OutboxEntry}

theorem mem_listOutbox (lists : Lists files store) :
    entry ∈ listOutbox files store ↔ ∃ inboxId, store.outbox inboxId = .written entry := by
  simp only [listOutbox, mem_filterMap]
  constructor
  · rintro ⟨inboxId, -, read⟩
    split at read
    · rename_i found stored
      cases read
      exact ⟨inboxId, stored⟩
    all_goals cases read
  · rintro ⟨inboxId, stored⟩
    exact ⟨inboxId, (lists.complete inboxId).mpr (by simp [stored]), by simp [stored]⟩

variable {agent : AgentId}

theorem mem_chosenEntries (lists : Lists files store) : entry ∈ chosenEntries agent files store ↔
      (∃ inboxId, store.outbox inboxId = .written entry) ∧
        pullChooses agent store (seenPolicyIds agent (listOutbox files store)) entry = true := by
  rw [chosenEntries, mem_insertionSort, mem_filter, mem_listOutbox lists]

theorem mem_seenPolicyIds (lists : Lists files store) (sound : OutboxSound store) :
    policyId ∈ seenPolicyIds agent (listOutbox files store) ↔
      ∃ inboxId entry, store.outbox inboxId = .written entry ∧
        entry.inboxMessage.policyId = policyId ∧ entry.offered agent = true := by
  simp only [seenPolicyIds, mem_map, mem_filter, mem_listOutbox lists, Bool.or_eq_true]
  constructor
  · rintro ⟨entry, ⟨⟨inboxId, stored⟩, marked⟩, isPolicy⟩
    refine ⟨inboxId, entry, stored, isPolicy, ?_⟩
    rcases marked with offered | delivered
    · exact offered
    · exact (sound.entries inboxId entry stored).marks.deliveredOffered agent delivered
  · rintro ⟨inboxId, entry, stored, isPolicy, offered⟩
    exact ⟨entry, ⟨⟨inboxId, stored⟩, .inl offered⟩, isPolicy⟩

theorem broadcast_audience {policy : Policy}
    (broadcast : OutboxTarget.broadcast ∈ outboxTargets policy) :
    outboxTargets policy = [.broadcast] := by
  unfold outboxTargets at broadcast ⊢
  split at broadcast
  · simp at broadcast
  · rfl

theorem OutboxSound.same_audience (sound : OutboxSound store)
    (isFirst : store.outbox left = .written first) (isSecond : store.outbox right = .written second)
    (samePolicy : first.inboxMessage.policyId = second.inboxMessage.policyId)
    (broadcast : first.target = .broadcast) : second.target = .broadcast := by
  obtain ⟨policy, stored, announces⟩ := (sound.entries left first isFirst).announced
  obtain ⟨other, alsoStored, alsoAnnounces⟩ := (sound.entries right second isSecond).announced
  rw [samePolicy, alsoStored] at stored
  cases stored
  have audience := announces.audience.trans alsoAnnounces.audience.symm
  have sameTargets : outboxTargets first.inboxMessage.policy =
      outboxTargets second.inboxMessage.policy := by
    rw [outboxTargets, outboxTargets, audience]
  have isTarget := announces.target
  rw [broadcast] at isTarget
  have only := broadcast_audience isTarget
  have among := alsoAnnounces.target
  rw [← sameTargets, only] at among
  exact mem_singleton.mp among

theorem chosen_mayOffer (lists : Lists files store) (sound : OutboxSound store)
    (chosen : entry ∈ chosenEntries agent files store) : MayOffer agent store entry.inboxId := by
  obtain ⟨⟨inboxId, stored⟩, chooses⟩ := (mem_chosenEntries lists).mp chosen
  have named := (sound.entries inboxId entry stored).named
  refine ⟨entry, by rw [named]; exact stored, ?_, ?_⟩
  · intro owner isOwner
    simp only [pullChooses, isOwner, Bool.and_eq_true, decide_eq_true_eq] at chooses
    exact chooses.2
  · intro broadcast status
    simp only [pullChooses, broadcast, status, if_true, Bool.and_eq_true,
      decide_eq_true_eq] at chooses
    obtain ⟨other, seen, isSeen, samePolicy, offered⟩ := (mem_seenPolicyIds lists sound).mp chooses.2
    have seenBroadcast := sound.same_audience stored isSeen samePolicy.symm broadcast
    cases seenStatus : seen.inboxMessage.policy.status with
    | active => exact ⟨other, seen, isSeen, seenBroadcast, seenStatus, samePolicy, offered⟩
    | deprecated =>
      have earlier := (sound.entries other seen isSeen).marks.withdrawal agent offered
        seenBroadcast seenStatus
      rwa [samePolicy] at earlier

theorem pullInbox_progress {agent : AgentId} {files : List InboxId} (now : Instant)
    (lists : Lists files start) :
    Triple (fun store => store = start ∧ OutboxSound start) (pullInbox agent files now)
      (fun messages store => Progress mayAck mayAdd start store ∧
        messages = (chosenEntries agent files start).map OutboxEntry.inboxMessage ∧
        ∀ entry ∈ chosenEntries agent files start, OfferedIn store agent entry.inboxId)
      (Progress mayAck mayAdd start) := by
  refine look fun seen => ?_
  intro store fates holds
  obtain ⟨rfl, rfl, sound⟩ := holds
  have loop : Triple (fun last => Progress mayAck mayAdd store last ∧
        ∀ inboxId ∈ [].map OutboxEntry.inboxId, OfferedIn last agent inboxId)
      (Program.forAll (chosenEntries agent files store) fun entry =>
        recordOffered entry.inboxId agent now)
      (fun _ last => Progress mayAck mayAdd store last ∧
        ∀ inboxId ∈ ([] ++ chosenEntries agent files store).map OutboxEntry.inboxId,
          OfferedIn last agent inboxId)
      (Progress mayAck mayAdd store) := by
    refine @forAll TeamStore _ OutboxEntry _ (fun passed last =>
      Progress mayAck mayAdd store last ∧
        ∀ inboxId ∈ passed.map OutboxEntry.inboxId, OfferedIn last agent inboxId)
      [] _ fun passed entry chosen => ?_
    rw [map_append]
    exact recordOffered_progress (chosen_mayOffer lists sound chosen)
  refine bind loop (fun _ => Triple.ok ?_) store fates ⟨Progress.refl sound, by simp⟩
  rintro last ⟨progress, offered⟩
  exact ⟨progress, rfl, fun entry chosen => offered _ (mem_map_of_mem (by simpa using chosen))⟩

theorem find_listOutbox (lists : Lists files store)
    (sound : OutboxSound store) {inboxId : InboxId} :
    (listOutbox files store).find? (fun entry => entry.inboxId = inboxId) = some entry ↔
      store.outbox inboxId = .written entry := by
  constructor
  · intro found
    obtain ⟨other, stored⟩ := (mem_listOutbox lists).mp (List.mem_of_find?_eq_some found)
    have named := (sound.entries other entry stored).named
    have isId : entry.inboxId = inboxId := by simpa using List.find?_some found
    rwa [← isId, named]
  · intro stored
    cases found : (listOutbox files store).find? fun entry => entry.inboxId = inboxId with
    | none =>
      have absent := List.find?_eq_none.mp found entry ((mem_listOutbox lists).mpr ⟨_, stored⟩)
      simp [(sound.entries inboxId entry stored).named] at absent
    | some other =>
      obtain ⟨key, alsoStored⟩ := (mem_listOutbox lists).mp (List.mem_of_find?_eq_some found)
      have named := (sound.entries key other alsoStored).named
      have isId : other.inboxId = inboxId := by simpa using List.find?_some found
      rw [← isId, named, alsoStored] at stored
      cases stored
      rfl

theorem checkAck_ok (lists : Lists files store) (sound : OutboxSound store) {inboxId : InboxId} :
    checkAck agent (listOutbox files store) inboxId = .ok () ↔ OfferedIn store agent inboxId := by
  have unmarked : ∀ entry, store.outbox inboxId = .written entry →
      ((!entry.offered agent && !entry.delivered agent) = true ↔ ¬ entry.offered agent = true) := by
    intro entry stored
    have implies := (sound.entries inboxId entry stored).marks.deliveredOffered agent
    cases offered : entry.offered agent <;> cases delivered : entry.delivered agent <;>
      simp_all
  unfold checkAck
  split
  · rename_i absent
    constructor
    · intro passed
      cases passed
    · rintro ⟨entry, stored, -⟩
      rw [(find_listOutbox lists sound).mpr stored] at absent
      cases absent
  · rename_i entry found
    have stored := (find_listOutbox lists sound).mp found
    have may : OfferedIn store agent inboxId ↔ entry.offered agent = true := by
      constructor
      · rintro ⟨other, alsoStored, offered⟩
        rw [stored] at alsoStored
        cases alsoStored
        exact offered
      · exact fun offered => ⟨entry, stored, offered⟩
    rw [may]
    split
    · rename_i owner isOwner
      split_ifs with foreign missing
      · constructor
        · intro passed
          cases passed
        · intro offered
          exact absurd ((sound.entries inboxId entry stored).marks.owner agent offered owner isOwner)
            foreign
      · simpa using (unmarked entry stored).mp missing
      · simpa using not_not.mp (missing ∘ (unmarked entry stored).mpr)
    · split_ifs with missing
      · simpa using (unmarked entry stored).mp missing
      · simpa using not_not.mp (missing ∘ (unmarked entry stored).mpr)

theorem checkAcks_ok : checkAcks agent entries inboxIds = .ok () ↔
      ∀ inboxId ∈ inboxIds, checkAck agent entries inboxId = .ok () := by
  induction inboxIds with
  | nil => simp [checkAcks]
  | cons first rest ih =>
    unfold checkAcks
    split
    · rename_i refusal refused
      simp [refused]
    · rename_i passed
      simp [passed, ih]

theorem ackInbox_progress {agent : AgentId} {inboxIds files : List InboxId} (now : Instant)
    (lists : Lists files start) (allowed : ∀ inboxId ∈ inboxIds, mayAck agent inboxId) :
    Triple (fun store => store = start ∧ OutboxSound start) (ackInbox agent inboxIds files now)
      (fun result store => Progress mayAck mayAdd start store ∧
        ((result = .ok () ∧ ∀ inboxId ∈ inboxIds, OfferedIn start agent inboxId ∧
            DeliveredIn store agent inboxId) ∨
          (∃ refusal, result = .error refusal) ∧ store = start))
      (fun store => Progress mayAck mayAdd start store ∧
        ∀ inboxId ∈ inboxIds, OfferedIn start agent inboxId) := by
  refine look fun seen => ?_
  intro store fates holds
  obtain ⟨rfl, rfl, sound⟩ := holds
  cases checked : checkAcks agent (listOutbox files store) (uniqueIds inboxIds) with
  | error refusal =>
    exact ⟨Progress.refl sound, .inr ⟨⟨refusal, rfl⟩, rfl⟩⟩
  | ok passed =>
    have offered : ∀ inboxId ∈ uniqueIds inboxIds, OfferedIn store agent inboxId :=
      fun inboxId member => (checkAck_ok lists sound).mp (checkAcks_ok.mp checked inboxId member)
    have loop : Triple (fun last => Progress mayAck mayAdd store last ∧
          ∀ inboxId ∈ [], DeliveredIn last agent inboxId)
        (Program.forAll (uniqueIds inboxIds) fun inboxId => appendDelivered inboxId agent now)
        (fun _ last => Progress mayAck mayAdd store last ∧
          ∀ inboxId ∈ [] ++ uniqueIds inboxIds, DeliveredIn last agent inboxId)
        (Progress mayAck mayAdd store) := by
      refine @forAll TeamStore _ InboxId _ (fun done last =>
        Progress mayAck mayAdd store last ∧ ∀ inboxId ∈ done, DeliveredIn last agent inboxId)
        [] _ fun done inboxId member => ?_
      exact appendDelivered_progress (allowed inboxId (mem_uniqueIds.mp member))
        (offered inboxId member)
    have cut := loop.relax fun last holds =>
      And.intro holds fun inboxId member => offered inboxId (mem_uniqueIds.mpr member)
    refine bind cut (fun _ => Triple.ok ?_) store fates ⟨Progress.refl sound, by simp⟩
    rintro last ⟨progress, delivered⟩
    refine ⟨progress, .inl ⟨rfl, fun inboxId member => ?_⟩⟩
    have known := mem_uniqueIds.mpr member
    exact ⟨offered inboxId known, delivered inboxId (by simpa using known)⟩

end AgentClaimNetwork.Maintainer.InboxDelivery
