import AgentClaimNetwork.Maintainer.InboxInvariant

/-!
The delivery contract of the outbox over whole runs.  A withdrawal has to be later than its
publication: at equal times the ids decide which of the two a pull returns first.
-/

namespace AgentClaimNetwork.Maintainer.InboxDelivery

open Library Durable List
open Triple (bind ok)
variable {inboxId : InboxId}
variable {policyId : PolicyId} {draws : OutboxTarget → List InboxId}

section

variable {store next : TeamStore} {event : InboxEvent}

def InboxEvent.acks (event : InboxEvent) (agent : AgentId) (inboxId : InboxId) : Prop :=
  ∃ inboxIds now, event.call = .ackInbox agent inboxIds now ∧ inboxId ∈ inboxIds ∧
    ∀ refusal, event.reply ≠ .refused refusal

def InboxCall.mayAdd (start : TeamStore) : InboxCall → OutboxEntry → Prop
  | .publishNewPolicy .. => PublishAdds start
  | .deprecatePolicy policyId now _ draws => DeprecateAdds policyId now draws
  | .pullInbox .. | .ackInbox .. => fun _ => False

variable {now : Instant} {agent : AgentId}

theorem ack_step (sound : OutboxSound store)
    (step : InboxStep store ⟨.ackInbox agent inboxIds now, reply⟩ next) :
    Progress (fun other inboxId => other = agent ∧ inboxId ∈ inboxIds) (fun _ => False) store next ∧
      ((reply = .acknowledged ∧ ∀ inboxId ∈ inboxIds, OfferedIn store agent inboxId ∧
          DeliveredIn next agent inboxId) ∨
        ((∃ refusal, reply = .refused refusal) ∧ next = store) ∨
        reply = .failed ∧ ∀ inboxId ∈ inboxIds, OfferedIn store agent inboxId) := by
  obtain ⟨files, fates, lists, answered⟩ := step
  have triple := @ackInbox_progress store (fun other inboxId => other = agent ∧ inboxId ∈ inboxIds)
    (fun _ => False) agent inboxIds files now lists fun inboxId member => ⟨rfl, member⟩
  have replied := bind triple fun result => @ok TeamStore InboxReply _
    (fun reply last => Progress (fun other inboxId => other = agent ∧ inboxId ∈ inboxIds)
      (fun _ => False) store last ∧
      ((reply = .acknowledged ∧ ∀ inboxId ∈ inboxIds, OfferedIn store agent inboxId ∧
          DeliveredIn last agent inboxId) ∨
        (∃ refusal, reply = .refused refusal) ∧ last = store)) _ (ackReply result) ?_
  · rcases answer_ends (replied store fates ⟨rfl, sound⟩) answered with ⟨progress, accepted | refused⟩
      | ⟨failed, progress, offered⟩
    · exact ⟨progress, .inl accepted⟩
    · exact ⟨progress, .inr (.inl refused)⟩
    · exact ⟨progress, .inr (.inr ⟨failed, offered⟩)⟩
  · rintro last ⟨progress, ⟨rfl, delivered⟩ | ⟨⟨refusal, rfl⟩, same⟩⟩
    · exact ⟨progress, .inl ⟨rfl, delivered⟩⟩
    · exact ⟨progress, .inr ⟨⟨refusal, rfl⟩, same⟩⟩

theorem pull_step
    (sound : OutboxSound store) (step : InboxStep store ⟨.pullInbox agent now, reply⟩ next) :
    Progress (fun _ _ => False) (fun _ => False) store next ∧
      ∀ messages, reply = .inbox messages → ∃ files, Lists files store ∧
        messages = (chosenEntries agent files store).map OutboxEntry.inboxMessage ∧
        ∀ entry ∈ chosenEntries agent files store, OfferedIn next agent entry.inboxId := by
  obtain ⟨files, fates, lists, answered⟩ := step
  have triple := @pullInbox_progress store (fun _ _ => False) (fun _ => False) agent files now lists
  have replied := bind triple fun messages => @ok TeamStore InboxReply _
    (fun reply last => Progress (fun _ _ => False) (fun _ => False) store last ∧
      reply = .inbox ((chosenEntries agent files store).map OutboxEntry.inboxMessage) ∧
      ∀ entry ∈ chosenEntries agent files store, OfferedIn last agent entry.inboxId) _
    (.inbox messages) ?_
  · rcases answer_ends (replied store fates ⟨rfl, sound⟩) answered with
      ⟨progress, isReply, offered⟩ | ⟨failed, progress⟩
    · refine ⟨progress, fun messages isInbox => ⟨files, lists, ?_, offered⟩⟩
      have both := isInbox.symm.trans isReply
      simpa using both
    · refine ⟨progress, fun messages isInbox => ?_⟩
      have both : InboxReply.failed = .inbox messages := failed.symm.trans isInbox
      cases both
  · rintro last ⟨progress, rfl, offered⟩
    exact ⟨progress, rfl, offered⟩

theorem deprecate_step (sound : OutboxSound store)
    (step : InboxStep store ⟨.deprecatePolicy policyId now actionId draws, reply⟩ next) :
    Progress (fun _ _ => False) (DeprecateAdds policyId now draws) store next ∧
      (reply = .withdrawn → ∃ policy, store.policies policyId = .written policy ∧
        ∀ target ∈ outboxTargets (withdrawnPolicy policy now),
          Announced store next (withdrawnPolicy policy now) target) := by
  obtain ⟨files, fates, lists, answered⟩ := step
  have triple := @deprecatePolicy_progress store (fun _ _ => False) policyId now actionId draws
  have replied := bind triple fun _ => @ok TeamStore InboxReply _
    (fun _ last => Progress (fun _ _ => False) (DeprecateAdds policyId now draws) store last ∧
      ∃ policy, store.policies policyId = .written policy ∧
        ∀ target ∈ outboxTargets (withdrawnPolicy policy now),
          Announced store last (withdrawnPolicy policy now) target) _ .withdrawn fun _ holds => holds
  rcases answer_ends (replied store fates ⟨rfl, sound⟩) answered with ⟨progress, announced⟩ |
    ⟨failed, progress⟩
  · exact ⟨progress, fun _ => announced⟩
  · refine ⟨progress, fun done => ?_⟩
    have both : InboxReply.failed = .withdrawn := failed.symm.trans done
    cases both

theorem publish_step (sound : OutboxSound store) (step : InboxStep store
      ⟨.publishNewPolicy name statement scope now targetAgents actionId policyDraws draws, reply⟩ next) :
    Progress (fun _ _ => False) (PublishAdds store) store next := by
  obtain ⟨files, fates, lists, answered⟩ := step
  have triple := @publishNewPolicy_progress store (fun _ _ => False) name statement scope now
    targetAgents actionId policyDraws draws
  have replied := bind triple fun policyId => @ok TeamStore InboxReply _
    (fun _ last => Progress (fun _ _ => False) (PublishAdds store) store last) _
    (.published policyId) fun _ holds => holds
  rcases answer_ends (replied store fates (Progress.refl sound)) answered with progress |
    ⟨failed, progress⟩
  · exact progress
  · exact progress

theorem Progress.allow {mayAck allowed : AgentId → InboxId → Prop} {mayAdd : OutboxEntry → Prop}
    (progress : Progress mayAck mayAdd store next)
    (allows : ∀ agent inboxId, mayAck agent inboxId → allowed agent inboxId) :
    Progress allowed mayAdd store next where
  sound := progress.sound
  grows := progress.grows
  frame :=
    { acked := fun inboxId entry agent stored delivered =>
        (progress.frame.acked inboxId entry agent stored delivered).imp_left
          (allows agent inboxId)
      added := progress.frame.added }

theorem step_progress (sound : OutboxSound store) (step : InboxStep store event next) :
    Progress event.acks (event.call.mayAdd store) store next := by
  obtain ⟨call, reply⟩ := event
  cases call with
  | publishNewPolicy => exact (publish_step sound step).allow fun _ _ never => never.elim
  | deprecatePolicy => exact (deprecate_step sound step).1.allow fun _ _ never => never.elim
  | pullInbox => exact (pull_step sound step).1.allow fun _ _ never => never.elim
  | ackInbox agent inboxIds now =>
    obtain ⟨progress, outcome⟩ := ack_step sound step
    have reached : (∀ refusal, reply ≠ .refused refusal) → Progress
        (InboxEvent.acks ⟨.ackInbox agent inboxIds now, reply⟩) (fun _ => False) store next := by
      intro notRefused
      refine progress.allow ?_
      rintro other inboxId ⟨rfl, member⟩
      exact ⟨inboxIds, now, rfl, member, notRefused⟩
    rcases outcome with ⟨rfl, -⟩ | ⟨-, rfl⟩ | ⟨rfl, -⟩
    · exact reached (by simp)
    · exact Progress.refl sound
    · exact reached (by simp)

variable {events : List InboxEvent}

theorem run_grows (run : Trace InboxStep store events next)
    (sound : OutboxSound store) : OutboxSound next ∧ Grows store next := by
  induction run with
  | nil => exact ⟨sound, Grows.refl⟩
  | snoc _ taken ih =>
    have progress := step_progress ih.1 taken
    exact ⟨progress.sound, ih.2.trans progress.grows⟩

theorem run_acked (run : Trace InboxStep store events next) (sound : OutboxSound store)
    (silent : ∀ event ∈ events, ¬ event.acks agent inboxId)
    (delivered : DeliveredIn next agent inboxId) : DeliveredIn store agent inboxId := by
  induction run with
  | nil => exact delivered
  | snoc before taken ih =>
    obtain ⟨entry, stored, marked⟩ := delivered
    have progress := step_progress (run_grows before sound).1 taken
    rcases progress.frame.acked inboxId entry agent stored marked with acked | earlier
    · exact absurd acked (silent _ (by simp))
    · exact ih (fun event member => silent event (by simp [member])) earlier

end

variable {now : Instant}

section

variable {store next : TeamStore} {agent : AgentId} {inboxId : InboxId} {entry : OutboxEntry}
variable {messages : List InboxMessage}

theorem pull_returns (sound : OutboxSound store)
    (step : InboxStep store ⟨.pullInbox agent now, .inbox messages⟩ next)
    (stored : store.outbox inboxId = .written entry) (pending : entry.delivered agent = false)
    (owner : ∀ owner, entry.target = .targeted owner → owner = agent)
    (active : entry.inboxMessage.policy.status = .active → entry.offered agent = true)
    (seen : entry.inboxMessage.policy.status = .deprecated → ∃ otherId other,
      store.outbox otherId = .written other ∧
        other.inboxMessage.policyId = entry.inboxMessage.policyId ∧ other.offered agent = true) :
    entry.inboxMessage ∈ messages := by
  obtain ⟨files, lists, isMessages, -⟩ := (pull_step sound step).2 messages rfl
  rw [isMessages]
  refine mem_map_of_mem ((mem_chosenEntries lists).mpr ⟨⟨inboxId, stored⟩, ?_⟩)
  rw [pullChooses, pending, Bool.not_false, Bool.true_and]
  cases isTarget : entry.target with
  | targeted other => simpa using owner other isTarget
  | broadcast =>
    cases status : entry.inboxMessage.policy.status with
    | active => simp [status, active status]
    | deprecated =>
      have known := (mem_seenPolicyIds lists sound).mpr (seen status)
      simpa [status, InboxMessage.policyId] using known

theorem pull_pending (sound : OutboxSound store)
    (step : InboxStep store ⟨.pullInbox agent now, .inbox messages⟩ next)
    (delivered : DeliveredIn store agent inboxId) : ∀ message ∈ messages, message.id ≠ inboxId := by
  obtain ⟨files, lists, rfl, -⟩ := (pull_step sound step).2 messages rfl
  intro message member isId
  obtain ⟨chosen, isChosen, rfl⟩ := mem_map.mp member
  obtain ⟨⟨key, stored⟩, chooses⟩ := (mem_chosenEntries lists).mp isChosen
  obtain ⟨served, found, marked⟩ := delivered
  rw [(sound.entries key chosen stored).message] at isId
  rw [← isId, stored] at found
  cases found
  simp [pullChooses, marked] at chooses

end

variable {messages : List InboxMessage}

section

variable {store next : TeamStore} {agent : AgentId}

theorem pull_records (sound : OutboxSound store)
    (step : InboxStep store ⟨.pullInbox agent now, .inbox messages⟩ next) :
    ∀ message ∈ messages, ∃ entry, next.outbox message.id = .written entry ∧
      entry.inboxMessage = message ∧ entry.offered agent = true ∧
      entry.delivered agent = false := by
  obtain ⟨progress, returned⟩ := pull_step sound step
  obtain ⟨files, lists, rfl, offered⟩ := returned messages rfl
  intro message member
  obtain ⟨chosen, isChosen, rfl⟩ := mem_map.mp member
  obtain ⟨⟨inboxId, stored⟩, chooses⟩ := (mem_chosenEntries lists).mp isChosen
  have before := sound.entries inboxId chosen stored
  obtain ⟨entry, found, marked⟩ := offered chosen isChosen
  rw [before.named] at found
  obtain ⟨kept, isKept, same, -⟩ := progress.grows.entries inboxId chosen stored
  rw [found] at isKept
  cases isKept
  refine ⟨entry, by rw [before.message]; exact found, same.inboxMessage, marked, ?_⟩
  cases delivered : entry.delivered agent with
  | false => rfl
  | true =>
    rcases progress.frame.acked inboxId entry agent found delivered with never |
      ⟨earlier, isEarlier, already⟩
    · exact never.elim
    · rw [stored] at isEarlier
      cases isEarlier
      simp [pullChooses, already] at chooses

end

variable {entry : OutboxEntry}
variable {call : InboxCall}

section

variable {store next : TeamStore} {event : InboxEvent}

def InOrder (store : TeamStore) : Prop :=
  ∀ left right active withdrawal, store.outbox left = .written active →
    store.outbox right = .written withdrawal →
    active.inboxMessage.policyId = withdrawal.inboxMessage.policyId →
    active.inboxMessage.policy.status = .active →
    withdrawal.inboxMessage.policy.status = .deprecated → ¬ comesBefore withdrawal active

def InboxCall.Timely (store : TeamStore) : InboxCall → Prop
  | .deprecatePolicy policyId now _ draws => ∀ policy, store.policies policyId = .written policy →
      policy.createdAt < now ∨ policy.createdAt = now ∧
        ∀ inboxId entry, store.outbox inboxId = .written entry →
          entry.inboxMessage.policyId = policyId → entry.inboxMessage.policy.status = .active →
          ∀ target, ∀ draw ∈ draws target, inboxId < draw
  | _ => True

theorem SameEntry.comesBefore_iff (sameLeft : SameEntry left first)
    (sameRight : SameEntry right second) : comesBefore first second ↔ comesBefore left right := by
  rw [comesBefore, comesBefore, sameLeft.inboxMessage, sameRight.inboxMessage, sameLeft.createdAt,
    sameRight.createdAt, sameLeft.inboxId, sameRight.inboxId]

theorem timely_after (sound : OutboxSound store)
    (timely : (InboxCall.deprecatePolicy policyId now actionId draws).Timely store)
    (adds : DeprecateAdds policyId now draws withdrawal)
    (stored : store.outbox inboxId = .written active)
    (isPolicy : active.inboxMessage.policyId = policyId)
    (status : active.inboxMessage.policy.status = .active) : ¬ comesBefore withdrawal active := by
  have entrySound := sound.entries inboxId active stored
  obtain ⟨policy, isStored, announces⟩ := entrySound.announced
  rw [isPolicy] at isStored
  obtain ⟨happened, created⟩ := announces.active status
  obtain ⟨-, -, withdrawnAt, createdAt, target, drawn⟩ := adds
  rw [comesBefore, happened, created, withdrawnAt, createdAt, entrySound.named]
  rcases timely policy isStored with later | ⟨same, after⟩
  · rintro (sooner | ⟨together, -⟩)
    · exact lt_asymm later sooner
    · exact later.ne together.symm
  · have idAfter := after inboxId active stored isPolicy status target _ drawn
    rw [same]
    simpa using idAfter

theorem mayAdd_active (adds : call.mayAdd store entry)
    (status : entry.inboxMessage.policy.status = .active) : PublishAdds store entry ∧
      ∀ other, call.mayAdd store other → other.inboxMessage.policy.status = .active := by
  cases call with
  | publishNewPolicy => exact ⟨adds, fun _ alsoAdds => alsoAdds.1⟩
  | deprecatePolicy =>
    rw [adds.1] at status
    cases status
  | pullInbox | ackInbox => exact adds.elim

theorem mayAdd_deprecated (adds : call.mayAdd store entry)
    (status : entry.inboxMessage.policy.status = .deprecated) :
    ∃ policyId now actionId draws, call = .deprecatePolicy policyId now actionId draws ∧
      DeprecateAdds policyId now draws entry := by
  cases call with
  | publishNewPolicy =>
    rw [adds.1] at status
    cases status
  | deprecatePolicy policyId now actionId draws =>
    exact ⟨policyId, now, actionId, draws, rfl, adds⟩
  | pullInbox | ackInbox => exact adds.elim

theorem step_inOrder (sound : OutboxSound store) (timely : event.call.Timely store)
    (step : InboxStep store event next) (inOrder : InOrder store) : InOrder next := by
  intro left right active withdrawal isActive isWithdrawal samePolicy status withdrawn
  have frame := (step_progress sound step).frame
  rcases frame.added left active isActive with ⟨created, adds, same⟩ | ⟨before, wasThere, same⟩
  · rw [same.inboxMessage] at samePolicy status
    obtain ⟨fresh, others⟩ := mayAdd_active adds status
    rcases frame.added right withdrawal isWithdrawal with
      ⟨other, alsoAdds, alike⟩ | ⟨other, alsoThere, alike⟩
    · rw [alike.inboxMessage, others other alsoAdds] at withdrawn
      cases withdrawn
    · -- A new policy has no older entries.
      obtain ⟨policy, stored, -⟩ := (sound.entries right other alsoThere).announced
      rw [← alike.inboxMessage, ← samePolicy] at stored
      exact absurd stored (fresh.2 policy)
  · rw [same.inboxMessage] at samePolicy status
    rcases frame.added right withdrawal isWithdrawal with
      ⟨other, alsoAdds, alike⟩ | ⟨other, alsoThere, alike⟩
    · rw [alike.inboxMessage] at samePolicy withdrawn
      obtain ⟨policyId, now, actionId, draws, isCall, added⟩ := mayAdd_deprecated alsoAdds withdrawn
      rw [isCall] at timely
      rw [alike.comesBefore_iff same]
      exact timely_after sound timely added wasThere (samePolicy.trans added.2.1) status
    · rw [alike.inboxMessage] at samePolicy withdrawn
      rw [alike.comesBefore_iff same]
      exact inOrder left right before other wasThere alsoThere samePolicy status withdrawn

instance : Std.Total comesBefore where
  total left right := by
    unfold comesBefore
    rcases lt_trichotomy left.inboxMessage.eventAt right.inboxMessage.eventAt with less | same | more
    · exact .inl (.inl less)
    · rcases lt_trichotomy left.createdAt right.createdAt with earlier | together | later
      · exact .inl (.inr ⟨same, .inl earlier⟩)
      · rcases le_total left.inboxId right.inboxId with below | above
        · exact .inl (.inr ⟨same, .inr ⟨together, below⟩⟩)
        · exact .inr (.inr ⟨same.symm, .inr ⟨together.symm, above⟩⟩)
      · exact .inr (.inr ⟨same.symm, .inl later⟩)
    · exact .inr (.inl more)

instance : IsTrans OutboxEntry comesBefore where
  trans first second third before after := by
    unfold comesBefore at *
    rcases before with sooner | ⟨same, created⟩
    · left
      rcases after with later | ⟨alike, -⟩
      · exact lt_trans sooner later
      · rwa [← alike]
    · rcases after with later | ⟨alike, createdLater⟩
      · left
        rwa [same]
      · right
        refine ⟨same.trans alike, ?_⟩
        rcases created with earlier | ⟨together, below⟩
        · left
          rcases createdLater with later | ⟨alsoTogether, -⟩
          · exact lt_trans earlier later
          · rwa [← alsoTogether]
        · rcases createdLater with later | ⟨alsoTogether, above⟩
          · left
            rwa [together]
          · exact .inr ⟨together.trans alsoTogether, le_trans below above⟩

def Overtakes (left right : InboxMessage) : Prop :=
  left.policyId = right.policyId ∧ left.policy.status = .deprecated ∧
    right.policy.status = .active

theorem pull_inOrder {agent : AgentId} (sound : OutboxSound store) (inOrder : InOrder store)
    (step : InboxStep store ⟨.pullInbox agent now, .inbox messages⟩ next) :
    messages.Pairwise fun left right => ¬ Overtakes left right := by
  obtain ⟨files, lists, rfl, -⟩ := (pull_step sound step).2 messages rfl
  rw [pairwise_map]
  have sorted : (chosenEntries agent files store).Pairwise comesBefore :=
    pairwise_insertionSort _ _
  refine sorted.imp_of_mem ?_
  rintro left right isLeft isRight before ⟨samePolicy, withdrawn, status⟩
  obtain ⟨⟨leftId, leftStored⟩, -⟩ := (mem_chosenEntries lists).mp isLeft
  obtain ⟨⟨rightId, rightStored⟩, -⟩ := (mem_chosenEntries lists).mp isRight
  exact inOrder rightId leftId right left rightStored leftStored samePolicy.symm status withdrawn
    before

end

section

/-- What the outbox promises from a state on.  A run from it takes any steps. -/
structure DeliveryContract (store : TeamStore) : Prop where
  /-- What a pull returns is offered with it. -/
  recorded : ∀ agent now messages last,
    InboxStep store ⟨.pullInbox agent now, .inbox messages⟩ last → ∀ message ∈ messages,
      ∃ entry, last.outbox message.id = .written entry ∧ entry.inboxMessage = message ∧
        entry.offered agent = true ∧ entry.delivered agent = false
  /-- From its first offer on, every pull returns an entry until the agent acknowledges it. -/
  redelivered : ∀ inboxId entry agent between later now messages last,
    store.outbox inboxId = .written entry → entry.offered agent = true →
    entry.delivered agent = false → Trace InboxStep store between later →
    (∀ event ∈ between, ¬ event.acks agent inboxId) →
    InboxStep later ⟨.pullInbox agent now, .inbox messages⟩ last → entry.inboxMessage ∈ messages
  /-- After a successful acknowledgement no pull returns it. -/
  silenced : ∀ agent inboxIds now acked between later pulledAt messages last,
    InboxStep store ⟨.ackInbox agent inboxIds now, .acknowledged⟩ acked →
    Trace InboxStep acked between later →
    InboxStep later ⟨.pullInbox agent pulledAt, .inbox messages⟩ last →
    ∀ message ∈ messages, message.id ∉ inboxIds
  targeted : ∀ inboxId entry owner agent, store.outbox inboxId = .written entry →
    entry.target = .targeted owner → entry.offered agent = true → owner = agent
  withdrawalNeedsOffer : ∀ inboxId entry agent, store.outbox inboxId = .written entry →
    entry.target = .broadcast → entry.inboxMessage.policy.status = .deprecated →
    entry.offered agent = true → ActiveOffered store entry.inboxMessage.policyId agent
  /-- Whoever was offered an active broadcast gets its withdrawal. -/
  withdrawalFollows : ∀ policyId policy now actionId draws withdrawn,
    store.policies policyId = .written policy → outboxTargets policy = [.broadcast] →
    InboxStep store ⟨.deprecatePolicy policyId now actionId draws, .withdrawn⟩ withdrawn →
    ∃ inboxId entry, withdrawn.outbox inboxId = .written entry ∧ entry.target = .broadcast ∧
      entry.inboxMessage.policy = withdrawnPolicy policy now ∧
      ∀ agent between later pulledAt messages last, Trace InboxStep withdrawn between later →
        ActiveOffered later policyId agent → (∀ event ∈ between, ¬ event.acks agent inboxId) →
        InboxStep later ⟨.pullInbox agent pulledAt, .inbox messages⟩ last →
        entry.inboxMessage ∈ messages
  ordered : ∀ agent now messages last,
    InboxStep store ⟨.pullInbox agent now, .inbox messages⟩ last →
    messages.Pairwise fun left right => ¬ Overtakes left right
  /-- An unknown, a foreign or a never offered id fails the whole batch and changes nothing. -/
  refused : ∀ agent inboxIds now reply last inboxId,
    InboxStep store ⟨.ackInbox agent inboxIds now, reply⟩ last → inboxId ∈ inboxIds →
    (∀ entry, store.outbox inboxId = .written entry →
      (∃ owner, entry.target = .targeted owner ∧ owner ≠ agent) ∨ entry.offered agent = false) →
    (∃ refusal, reply = .refused refusal) ∧ last = store
  unchanged : ∀ agent inboxIds now refusal last,
    InboxStep store ⟨.ackInbox agent inboxIds now, .refused refusal⟩ last → last = store
  once : ∀ inboxId entry, store.outbox inboxId = .written entry →
    (entry.offeredTo.map OfferedMark.agentId).Nodup ∧
      (entry.deliveredTo.map DeliveredMark.agentId).Nodup ∧
      ∀ agent, entry.delivered agent = true → entry.offered agent = true

variable {store next : TeamStore}

theorem OutboxSound.redelivers (sound : OutboxSound store)
    {agent : AgentId}
    (stored : store.outbox inboxId = .written entry) (pending : entry.delivered agent = false)
    (run : Trace InboxStep store between later)
    (silent : ∀ event ∈ between, ¬ event.acks agent inboxId)
    (owner : ∀ owner, entry.target = .targeted owner → owner = agent)
    (active : entry.inboxMessage.policy.status = .active → entry.offered agent = true)
    (seen : entry.inboxMessage.policy.status = .deprecated → ∃ otherId other,
      later.outbox otherId = .written other ∧
        other.inboxMessage.policyId = entry.inboxMessage.policyId ∧ other.offered agent = true)
    (step : InboxStep later ⟨.pullInbox agent now, .inbox messages⟩ last) :
    entry.inboxMessage ∈ messages := by
  obtain ⟨laterSound, grows⟩ := run_grows run sound
  obtain ⟨kept, found, same, offers, -⟩ := grows.entries inboxId entry stored
  have stillPending : kept.delivered agent = false := by
    cases marked : kept.delivered agent with
    | false => rfl
    | true =>
      obtain ⟨before, isBefore, already⟩ := run_acked run sound silent ⟨kept, found, marked⟩
      rw [stored] at isBefore
      cases isBefore
      rw [pending] at already
      cases already
  rw [← same.inboxMessage]
  refine pull_returns laterSound step found stillPending ?_ ?_ ?_
  · rw [same.target]
    exact owner
  · rw [same.inboxMessage]
    exact fun status => offers agent (active status)
  · rw [same.inboxMessage]
    exact seen

theorem OutboxSound.contract (sound : OutboxSound store) (inOrder : InOrder store) :
    DeliveryContract store where
  recorded := fun _ _ _ _ step => pull_records sound step
  redelivered := by
    intro inboxId entry agent between later now messages last stored offered pending run silent step
    have marks := (sound.entries inboxId entry stored).marks
    refine sound.redelivers stored pending run silent (marks.owner agent offered)
      (fun _ => offered) ?_ step
    obtain ⟨kept, found, same, offers, -⟩ := (run_grows run sound).2.entries inboxId entry stored
    exact fun _ => ⟨inboxId, kept, found, by rw [same.inboxMessage], offers agent offered⟩
  silenced := by
    intro agent inboxIds now acked between later pulledAt messages last ack run step message member
      named
    obtain ⟨progress, accepted | ⟨⟨refusal, refused⟩, -⟩ | ⟨failed, -⟩⟩ := ack_step sound ack
    · obtain ⟨laterSound, grows⟩ := run_grows run progress.sound
      have served := (accepted.2 message.id named).2.grow grows
      exact pull_pending laterSound step served message member rfl
    · cases refused
    · cases failed
  targeted := fun inboxId entry owner agent stored isTarget offered =>
    (sound.entries inboxId entry stored).marks.owner agent offered owner isTarget
  withdrawalNeedsOffer := fun inboxId entry agent stored broadcast status offered =>
    (sound.entries inboxId entry stored).marks.withdrawal agent offered broadcast status
  withdrawalFollows := by
    intro policyId policy now actionId draws withdrawn stored broadcast step
    obtain ⟨progress, announces⟩ := deprecate_step sound step
    obtain ⟨other, isStored, announced⟩ := announces rfl
    rw [stored] at isStored
    cases isStored
    obtain ⟨named, normalized⟩ := sound.policies policyId policy stored
    have audience : outboxTargets (withdrawnPolicy policy now) = [.broadcast] := by
      rw [← broadcast, outboxTargets, outboxTargets, withdrawnPolicy, normalized]
    obtain ⟨inboxId, entry, found, isTarget, isPolicy, fresh⟩ :=
      announced .broadcast (by simp [audience])
    refine ⟨inboxId, entry, found, isTarget, isPolicy, ?_⟩
    intro agent between later pulledAt messages last run offered silent pull
    have isId : entry.inboxMessage.policyId = policyId := by
      rw [InboxMessage.policyId, isPolicy]
      exact named
    have deprecated : entry.inboxMessage.policy.status = .deprecated := by rw [isPolicy]; rfl
    have pending : entry.delivered agent = false := by
      cases marked : entry.delivered agent with
      | false => rfl
      | true =>
        rcases progress.frame.acked inboxId entry agent found marked with never |
          ⟨before, wasThere, -⟩
        · exact never.elim
        · exact absurd wasThere (fresh before)
    refine progress.sound.redelivers found pending run silent ?_ ?_ ?_ pull
    · intro owner isOwner
      rw [isTarget] at isOwner
      cases isOwner
    · intro active
      rw [deprecated] at active
      cases active
    · intro _
      obtain ⟨otherId, active, isActive, -, -, samePolicy, marked⟩ := offered
      exact ⟨otherId, active, isActive, samePolicy.trans isId.symm, marked⟩
  ordered := fun agent now messages last step => pull_inOrder sound inOrder step
  refused := by
    intro agent inboxIds now reply last inboxId step member bad
    have notAllowed : ¬ OfferedIn store agent inboxId := by
      rintro ⟨entry, stored, offered⟩
      rcases bad entry stored with ⟨owner, isOwner, foreign⟩ | never
      · exact foreign ((sound.entries inboxId entry stored).marks.owner agent offered owner isOwner)
      · rw [never] at offered
        cases offered
    obtain ⟨-, ⟨-, accepted⟩ | refusal | ⟨-, offered⟩⟩ := ack_step sound step
    · exact absurd (accepted inboxId member).1 notAllowed
    · exact refusal
    · exact absurd (offered inboxId member) notAllowed
  unchanged := by
    intro agent inboxIds now refusal last step
    obtain ⟨-, ⟨accepted, -⟩ | ⟨-, same⟩ | ⟨failed, -⟩⟩ := ack_step sound step
    · cases accepted
    · exact same
    · cases failed
  once := by
    intro inboxId entry stored
    have marks := (sound.entries inboxId entry stored).marks
    exact ⟨marks.offeredOnce, marks.deliveredOnce, marks.deliveredOffered⟩

end

def emptyStore : TeamStore where
  disputes := fun _ => none
  analyses := fun _ => none
  resolutionRecords := fun _ => none
  pendingDeliveries := KeyedMap.empty
  pendingObservations := KeyedMap.empty
  policies := fun _ => .absent
  outbox := fun _ => .absent
  policyIndex := fun _ => none
  inboxIndex := fun _ => none
  claimIndex := fun _ _ => none
  policyEvents := []
  resolutionEvents := []
  milestones := []

def InboxCall.NotBefore (store : TeamStore) : InboxCall → Prop
  | .deprecatePolicy policyId now _ _ => ∀ policy, store.policies policyId = .written policy →
      policy.createdAt ≤ now
  | _ => True

def StepWhere (allowed : TeamStore → InboxCall → Prop) (store : TeamStore) (event : InboxEvent)
    (next : TeamStore) : Prop :=
  InboxStep store event next ∧ allowed store event.call

theorem emptyStore_sound : OutboxSound emptyStore where
  policies := fun _ _ stored => by cases stored
  entries := fun _ _ stored => by cases stored

/-- In every run whose withdrawals are timely the contract holds of every state. -/
theorem timely_run_keeps_contract {events : List InboxEvent} {store : TeamStore}
    (run : Trace (StepWhere InboxCall.Timely) emptyStore events store) : DeliveryContract store := by
  have holds : OutboxSound store ∧ InOrder store := by
    induction run with
    | nil => exact ⟨emptyStore_sound, fun _ _ _ _ stored => by cases stored⟩
    | snoc _ taken ih =>
      exact ⟨(step_progress ih.1 taken.1).sound, step_inOrder ih.1 taken.2 taken.1 ih.2⟩
  exact holds.1.contract holds.2

def runCall (files : List InboxId) (call : InboxCall) (store : TeamStore) :
    InboxReply × TeamStore :=
  answer (perform files call store (replicate 4 .done))

def publishCall : InboxCall :=
  .publishNewPolicy "name" "statement" "scope" 5 none "action_1" ["policy_1"] fun _ => ["inbox_5"]

def withdrawCall (now : Instant) : InboxCall :=
  .deprecatePolicy "policy_1" now "action_2" fun _ => ["inbox_2"]

def publishedStore : TeamStore := (runCall [] publishCall emptyStore).2
def offeredStore : TeamStore := (runCall ["inbox_5"] (.pullInbox "agent" 6) publishedStore).2
def withdrawnStore (now : Instant) : TeamStore :=
  (runCall ["inbox_5"] (withdrawCall now) offeredStore).2

theorem runCall_step {store : TeamStore} (lists : Lists files store) (call : InboxCall) :
    InboxStep store ⟨call, (runCall files call store).1⟩ (runCall files call store).2 :=
  ⟨files, replicate 4 .done, lists, rfl⟩

theorem lists_emptyStore : Lists [] emptyStore := ⟨nodup_nil, fun inboxId => by simp [emptyStore]⟩

variable {store next : TeamStore}

theorem Lists.mint (lists : Lists files store) (fresh : inboxId ∉ files)
    (written : next.outbox = Function.update (Function.update store.outbox inboxId .reserved) inboxId
      (.written entry)) : Lists (inboxId :: files) next := by
  refine ⟨nodup_cons.mpr ⟨fresh, lists.nodup⟩, fun other => ?_⟩
  rw [written, Function.update_idem, mem_cons, lists.complete]
  by_cases same : other = inboxId
  · simp [same]
  · simp [same]

theorem Lists.mark (lists : Lists files store) (known : inboxId ∈ files)
    (written : next.outbox = Function.update store.outbox inboxId (.written entry)) :
    Lists files next := by
  refine ⟨lists.nodup, fun other => ?_⟩
  rw [written, lists.complete]
  by_cases same : other = inboxId
  · rw [lists.complete] at known
    simp [same, known]
  · simp [same]

theorem lists_publishedStore : Lists ["inbox_5"] publishedStore :=
  lists_emptyStore.mint (by simp) rfl

theorem lists_offeredStore : Lists ["inbox_5"] offeredStore :=
  lists_publishedStore.mark (by simp) rfl

theorem lists_withdrawnStore (now : Instant) : Lists ["inbox_2", "inbox_5"] (withdrawnStore now) :=
  lists_offeredStore.mint (by decide) rfl

theorem withdrawn_run {allowed : TeamStore → InboxCall → Prop} {now : Instant}
    (publishes : allowed emptyStore publishCall)
    (pulls : allowed publishedStore (.pullInbox "agent" 6))
    (withdraws : allowed offeredStore (withdrawCall now)) :
    ∃ events, Trace (StepWhere allowed) emptyStore events (withdrawnStore now) :=
  ⟨_, Trace.snoc (Trace.snoc (Trace.single ⟨runCall_step lists_emptyStore publishCall, publishes⟩)
    ⟨runCall_step lists_publishedStore (.pullInbox "agent" 6), pulls⟩)
    ⟨runCall_step lists_offeredStore (withdrawCall now), withdraws⟩⟩

/-- Withdrawn at the time of its publication, a policy is returned after its own withdrawal. -/
theorem contract_fails_at_equal_times : ¬ ∀ (events : List InboxEvent) (store : TeamStore),
      Trace (StepWhere InboxCall.NotBefore) emptyStore events store → DeliveryContract store := by
  intro promised
  obtain ⟨events, run⟩ := @withdrawn_run InboxCall.NotBefore 5 trivial trivial (by
    intro policy stored
    have created : policy.createdAt = 5 := by
      cases stored
      rfl
    exact created.le)
  have step := runCall_step (lists_withdrawnStore 5) (.pullInbox "agent" 7)
  have inOrder := (promised events _ run).ordered "agent" 7 _ _ step
  exact (pairwise_cons.mp inOrder).1 _ (mem_singleton_self _) ⟨rfl, rfl, rfl⟩

theorem timely_run_keeps_contract_withdrawn :
    ∃ events, Trace (StepWhere InboxCall.Timely) emptyStore events (withdrawnStore 7) ∧
      DeliveryContract (withdrawnStore 7) := by
  obtain ⟨events, run⟩ := @withdrawn_run InboxCall.Timely 7 trivial trivial (by
    intro policy stored
    have created : policy.createdAt = 5 := by
      cases stored
      rfl
    exact .inl (created.trans_lt (by decide)))
  exact ⟨events, run, timely_run_keeps_contract run⟩

/-- A delivery mark comes from an acknowledgement of its agent that was not refused, of an entry
that this agent had been offered. -/
theorem delivered_was_acked {events : List InboxEvent} {store : TeamStore}
    (run : Trace InboxStep emptyStore events store) (inboxId : InboxId) (entry : OutboxEntry)
    (agent : AgentId) (stored : store.outbox inboxId = .written entry)
    (delivered : entry.delivered agent = true) :
    (∃ event ∈ events, event.acks agent inboxId) ∧ entry.offered agent = true ∧
      ∃ policy, store.policies entry.inboxMessage.policyId = .written policy ∧
        Announces policy entry := by
  have sound := ((run_grows run emptyStore_sound).1.entries inboxId entry stored)
  refine ⟨?_, sound.marks.deliveredOffered agent delivered, sound.announced⟩
  by_contra silent
  obtain ⟨_, absent, _⟩ := run_acked run emptyStore_sound
    (fun event member acks => silent ⟨event, member, acks⟩) ⟨entry, stored, delivered⟩
  cases absent

theorem delivered_was_acked_once : ∃ (events : List InboxEvent) (store : TeamStore)
    (entry : OutboxEntry), store.outbox "inbox_5" = .written entry ∧
      entry.delivered "agent" = true ∧ (∃ event ∈ events, event.acks "agent" "inbox_5") ∧
      entry.offered "agent" = true ∧
      ∃ policy, store.policies entry.inboxMessage.policyId = .written policy ∧
        Announces policy entry :=
  ⟨_, _, _, rfl, rfl, delivered_was_acked
    (((Trace.single (runCall_step lists_emptyStore publishCall)).snoc
      (runCall_step lists_publishedStore (.pullInbox "agent" 6))).snoc
      (runCall_step lists_offeredStore (.ackInbox "agent" ["inbox_5"] 7)))
    "inbox_5" _ "agent" rfl rfl⟩

end AgentClaimNetwork.Maintainer.InboxDelivery
