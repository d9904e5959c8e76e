import AgentClaimNetwork.Maintainer.ResolutionStore

/-!
`ensure_delivery` of `src/maintainer/arbitration/resolution.rs`, with offers, acknowledgements and
`deprecate_policy` beside it.
-/

namespace AgentClaimNetwork.Maintainer

open Library Durable
open Program (bail forAll look require write)
open Function (update)

def ensurePolicy (policy : Policy) : Program TeamStore Unit := do
  let store ← look
  match store.policies policy.id with
  | .written existing => require (existing = policy)
  | .absent | .reserved => write fun store =>
    { store with policies := update store.policies policy.id (.written policy) }

def samePayload (existing wanted : OutboxEntry) : Bool :=
  existing.inboxId = wanted.inboxId &&
    existing.maintainerActionId = wanted.maintainerActionId &&
    existing.target = wanted.target && existing.createdAt = wanted.createdAt &&
    existing.inboxMessage = wanted.inboxMessage

theorem samePayload_refl : samePayload entry entry = true := by
  simp [samePayload]

def writeOutboxEntry (entry : OutboxEntry) : Program TeamStore Unit :=
  write fun store =>
    { store with outbox := update store.outbox entry.inboxId (.written entry) }

def ensureOutboxEntry (wanted : OutboxEntry) : Program TeamStore Unit := do
  let store ← look
  match store.outbox wanted.inboxId with
  | .written existing => require (samePayload existing wanted)
  | .absent | .reserved => writeOutboxEntry wanted

section

variable (record : ArbitrationResolutionRecord)

def resolutionPolicyEvent (policy : Policy) : PolicyEventRecord where
  eventId := "resolution_policy:" ++ record.resolutionId
  policyId := policy.id
  occurredAt := policy.updatedAt.getD policy.createdAt
  policyName := policy.name
  policyScope := policy.scope
  policyStatus := policy.status
  messageType := policy.messageType
  targetAgents := policy.targetAgents.getD []
  statement := policy.statement

def resolutionEvent : DisputeResolutionEventRecord where
  eventId := "resolution:" ++ record.resolutionId
  disputeId := record.disputeId
  occurredAt := record.resolution.resolvedAt
  summary := some record.resolution.conclusion

def ensurePolicyEvent (event : PolicyEventRecord) : Program TeamStore Unit := do
  let store ← look
  if store.policyEvents.any fun existing => existing.eventId = event.eventId then pure ()
  else write fun store => { store with policyEvents := store.policyEvents ++ [event] }

def ensureDisputeResolutionEvent (event : DisputeResolutionEventRecord) :
    Program TeamStore Unit := do
  let store ← look
  if store.resolutionEvents.any fun existing => existing.eventId = event.eventId then pure ()
  else write fun store =>
    { store with resolutionEvents := store.resolutionEvents ++ [event] }

def ensureIntentHistory : Program TeamStore Unit :=
  match record.deliveryIntent with
  | some intent => ensurePolicyEvent (resolutionPolicyEvent record intent.policy)
  | none => pure ()

def ensureResolutionHistory : Program TeamStore Unit := do
  ensureIntentHistory record
  ensureDisputeResolutionEvent (resolutionEvent record)

def targetEntry (intent : DeliveryIntent) (target : DeliveryTargetIntent) : OutboxEntry where
  inboxId := target.inboxId
  maintainerActionId := intent.maintainerActionId
  target := .targeted target.targetAgent
  createdAt := record.createdAt
  offeredTo := []
  deliveredTo := []
  inboxMessage := target.inboxMessage

def ensureIntent : Program TeamStore Unit :=
  match record.deliveryIntent with
  | some intent => do
      ensurePolicy intent.policy
      forAll intent.targets fun target =>
        ensureOutboxEntry (targetEntry record intent target)
  | none => pure ()

def ensureDelivery : Program TeamStore Unit := do
  ensureIntent record
  registerResolutionEventTargets record
  writePendingObservation record.target
  ensureResolutionHistory record
  removePendingDelivery record.resolutionId

end

def offer (agent : AgentId) (now : Instant) : List OfferedMark → List OfferedMark
  | [] => [⟨agent, now, now, 1⟩]
  | mark :: rest =>
    if mark.agentId = agent then
      { mark with lastOfferedAt := now, attempts := mark.attempts + 1 } :: rest
    else mark :: offer agent now rest

def recordOffered (inboxId : InboxId) (agent : AgentId) (now : Instant) :
    Program TeamStore Unit := do
  let store ← look
  match store.outbox inboxId with
  | .written entry => write fun store =>
    { store with
      outbox := update store.outbox inboxId
        (.written { entry with offeredTo := offer agent now entry.offeredTo }) }
  | .absent | .reserved => bail

def appendDelivered (inboxId : InboxId) (agent : AgentId) (now : Instant) :
    Program TeamStore Unit := do
  let store ← look
  match store.outbox inboxId with
  | .written entry =>
    if entry.deliveredTo.any fun mark => mark.agentId = agent then pure ()
    else write fun store =>
      { store with
        outbox := update store.outbox inboxId
          (.written { entry with deliveredTo := entry.deliveredTo ++ [⟨agent, now⟩] }) }
  | .absent | .reserved => bail

/-- `mint_unique_id_in_dir` in the outbox: the first draw that is free is reserved by an empty
file. -/
def mintInboxId : List InboxId → Program TeamStore InboxId
  | [] => bail
  | draw :: rest => do
      let store ← look
      if store.outbox draw = .absent then do
        write fun store =>
          { store with outbox := update store.outbox draw .reserved }
        pure draw
      else mintInboxId rest

def mintPolicyId : List PolicyId → Program TeamStore PolicyId
  | [] => bail
  | draw :: rest => do
      let store ← look
      if store.policies draw = .absent then do
        write fun store =>
          { store with policies := update store.policies draw .reserved }
        pure draw
      else mintPolicyId rest

def normalizeTargetAgents (targetAgents : Option (List AgentId)) : Option (List AgentId) :=
  let unique := (targetAgents.getD []).foldl
    (fun seen agent => if agent ∈ seen then seen else seen ++ [agent]) []
  if unique = [] then none else some unique

def policyInboxKind (policy : Policy) : InboxMessageKind :=
  match policy.messageType with
  | .policyUpdate => .policyUpdate policy
  | .claimAttributeUpdate => .claimAttributeUpdate policy none

def outboxTargets (policy : Policy) : List OutboxTarget :=
  match policy.targetAgents with
  | some (agent :: rest) => (agent :: rest).map .targeted
  | _ => [.broadcast]

/-- `draws` are the inbox ids that are tried for a target. -/
def createOutboxEntries (policy : Policy) (actionId : MaintainerActionId) (now : Instant)
    (draws : OutboxTarget → List InboxId) : Program TeamStore Unit :=
  forAll (outboxTargets policy) fun target => do
    let inboxId ← mintInboxId (draws target)
    writeOutboxEntry
      { inboxId := inboxId
        maintainerActionId := actionId
        target := target
        createdAt := now
        offeredTo := []
        deliveredTo := []
        inboxMessage := ⟨inboxId, policyInboxKind policy, none⟩ }

def deprecatePolicy (policyId : PolicyId) (now : Instant) (actionId : MaintainerActionId)
    (draws : OutboxTarget → List InboxId) : Program TeamStore Unit := do
  let store ← look
  match store.policies policyId with
  | .written policy => do
      let deprecated :=
        { policy with
          status := .deprecated
          updatedAt := some now
          targetAgents := normalizeTargetAgents policy.targetAgents }
      write fun store =>
        { store with policies := update store.policies policyId (.written deprecated) }
      createOutboxEntries deprecated actionId now draws
  | .absent | .reserved => bail

end AgentClaimNetwork.Maintainer
