import AgentClaimNetwork.Maintainer.ResolutionDelivery

/-!
The inbox side of `src/maintainer.rs`: what a publication puts into the outbox, what an agent
pulls out of it, and what it acknowledges.
-/

namespace AgentClaimNetwork.Maintainer

open Library Durable List

section

variable {Item : Type} [DecidableEq Item]

variable {items seen : List Item}

theorem mem_foldl_unique :
    item ∈ items.foldl (fun seen item => if item ∈ seen then seen else seen ++ [item]) seen ↔
      item ∈ seen ∨ item ∈ items := by
  induction items generalizing seen with
  | nil => simp
  | cons first rest ih =>
    rw [foldl_cons, ih]
    split_ifs with known
    · constructor
      · rintro (before | later)
        · exact .inl before
        · exact .inr (mem_cons_of_mem _ later)
      · rintro (before | member)
        · exact .inl before
        · rcases mem_cons.mp member with rfl | later
          · exact .inl known
          · exact .inr later
    · simp [or_assoc]

theorem nodup_foldl_unique (distinct : seen.Nodup) :
    (items.foldl (fun seen item => if item ∈ seen then seen else seen ++ [item]) seen).Nodup := by
  induction items generalizing seen with
  | nil => exact distinct
  | cons first rest ih =>
    rw [foldl_cons]
    apply ih
    split_ifs with known
    · exact distinct
    · exact nodup_append_comm.mpr (nodup_cons.mpr ⟨known, distinct⟩)

theorem foldl_unique_of_nodup (distinct : (seen ++ items).Nodup) :
    items.foldl (fun seen item => if item ∈ seen then seen else seen ++ [item]) seen =
      seen ++ items := by
  induction items generalizing seen with
  | nil => simp
  | cons first rest ih =>
    have unknown : first ∉ seen := by
      intro known
      exact (nodup_append.mp distinct).2.2 first known first (by simp) rfl
    rw [foldl_cons, if_neg unknown, ih (by simpa using distinct)]
    simp

theorem normalizeTargetAgents_idem :
    normalizeTargetAgents (normalizeTargetAgents targetAgents) =
      normalizeTargetAgents targetAgents := by
  have distinct := @nodup_foldl_unique AgentId _ (targetAgents.getD []) [] nodup_nil
  have again := @foldl_unique_of_nodup AgentId _ _ [] (by rwa [nil_append])
  by_cases empty : (targetAgents.getD []).foldl
      (fun seen agent => if agent ∈ seen then seen else seen ++ [agent]) [] = []
  · simp [normalizeTargetAgents, empty, foldl_nil]
  · simp [normalizeTargetAgents, if_neg empty, again, nil_append]

end

def InboxMessage.policy (message : InboxMessage) : Policy :=
  match message.kind with
  | .policyUpdate policy => policy
  | .claimAttributeUpdate policy _ => policy

def InboxMessage.policyId (message : InboxMessage) : PolicyId := message.policy.id

def InboxMessage.eventAt (message : InboxMessage) : Instant :=
  message.policy.updatedAt.getD message.policy.createdAt

section

variable (agent : AgentId)

def OutboxEntry.offered (entry : OutboxEntry) : Bool :=
  entry.offeredTo.any fun mark => mark.agentId = agent

def OutboxEntry.delivered (entry : OutboxEntry) : Bool :=
  entry.deliveredTo.any fun mark => mark.agentId = agent

theorem policyInboxKind_policy (policy : Policy) (inboxId : InboxId) (handledAt : Option Instant) :
    (InboxMessage.mk inboxId (policyInboxKind policy) handledAt).policy = policy := by
  simp only [InboxMessage.policy, policyInboxKind]
  cases policy.messageType <;> rfl

def publishNewPolicy (name statement scope : String) (now : Instant)
    (targetAgents : Option (List AgentId)) (actionId : MaintainerActionId)
    (policyDraws : List PolicyId) (draws : OutboxTarget → List InboxId) :
    Program TeamStore PolicyId := do
  let id ← mintPolicyId policyDraws
  let policy : Policy :=
    { id := id
      messageType := .policyUpdate
      name := name
      statement := statement
      scope := scope
      status := .active
      createdAt := now
      updatedAt := none
      targetAgents := normalizeTargetAgents targetAgents }
  Program.write fun store =>
    { store with policies := Function.update store.policies id (.written policy) }
  createOutboxEntries policy actionId now draws
  pure id

variable (files : List InboxId) (store : TeamStore)

/-- `outbox_io::list`: the entries of a directory listing, where a file that only reserves an id
is passed over. -/
def listOutbox : List OutboxEntry :=
  files.filterMap fun inboxId =>
    match store.outbox inboxId with
    | .written entry => some entry
    | .absent | .reserved => none

/-- Membership in `active_policy_id_set`. -/
def policyIsActive (policyId : PolicyId) : Bool :=
  match store.policies policyId with
  | .written policy => policy.status = .active
  | .absent | .reserved => false

def seenPolicyIds (entries : List OutboxEntry) : List PolicyId :=
  (entries.filter fun entry => entry.offered agent || entry.delivered agent).map fun entry =>
    entry.inboxMessage.policyId

def pullChooses (seen : List PolicyId) (entry : OutboxEntry) : Bool :=
  !entry.delivered agent &&
    match entry.target with
    | .targeted owner => decide (owner = agent)
    | .broadcast =>
      let snapshot := entry.inboxMessage.policy
      if snapshot.status = .deprecated then decide (snapshot.id ∈ seen)
      else policyIsActive store snapshot.id || entry.offered agent

def comesBefore (left right : OutboxEntry) : Prop :=
  left.inboxMessage.eventAt < right.inboxMessage.eventAt ∨
    left.inboxMessage.eventAt = right.inboxMessage.eventAt ∧
      (left.createdAt < right.createdAt ∨
        left.createdAt = right.createdAt ∧ left.inboxId ≤ right.inboxId)

instance : DecidableRel comesBefore := fun _ _ => instDecidableOr

def chosenEntries : List OutboxEntry :=
  let entries := listOutbox files store
  (entries.filter (pullChooses agent store (seenPolicyIds agent entries))).insertionSort comesBefore

def pullInbox (now : Instant) : Program TeamStore (List InboxMessage) := do
  let store ← Program.look
  Program.forAll (chosenEntries agent files store) fun entry =>
    recordOffered entry.inboxId agent now
  pure ((chosenEntries agent files store).map OutboxEntry.inboxMessage)

end

inductive InboxAckError
  | unknownInbox (inboxId : InboxId)
  | targetMismatch (agent : AgentId) (inboxId : InboxId)
  | notOffered (agent : AgentId) (inboxId : InboxId)

def uniqueIds (inboxIds : List InboxId) : List InboxId :=
  inboxIds.foldl (fun unique inboxId => if inboxId ∈ unique then unique else unique ++ [inboxId]) []

theorem mem_uniqueIds {inboxIds : List InboxId} :
    inboxId ∈ uniqueIds inboxIds ↔ inboxId ∈ inboxIds := by
  simp [uniqueIds, mem_foldl_unique]

def checkAck (agent : AgentId) (entries : List OutboxEntry) (inboxId : InboxId) :
    Except InboxAckError Unit :=
  match entries.find? fun entry => entry.inboxId = inboxId with
  | none => .error (.unknownInbox inboxId)
  | some entry =>
    match entry.target with
    | .targeted owner =>
      if owner ≠ agent then .error (.targetMismatch agent inboxId)
      else if !entry.offered agent && !entry.delivered agent then
        .error (.notOffered agent inboxId)
      else .ok ()
    | .broadcast =>
      if !entry.offered agent && !entry.delivered agent then
        .error (.notOffered agent inboxId)
      else .ok ()

def checkAcks (agent : AgentId) (entries : List OutboxEntry) : List InboxId →
    Except InboxAckError Unit
  | [] => .ok ()
  | inboxId :: rest =>
    match checkAck agent entries inboxId with
    | .error refusal => .error refusal
    | .ok () => checkAcks agent entries rest

def ackInbox (agent : AgentId) (inboxIds : List InboxId) (files : List InboxId) (now : Instant) :
    Program TeamStore (Except InboxAckError Unit) := do
  let store ← Program.look
  match checkAcks agent (listOutbox files store) (uniqueIds inboxIds) with
  | .error refusal => pure (.error refusal)
  | .ok () => do
      Program.forAll (uniqueIds inboxIds) fun inboxId => appendDelivered inboxId agent now
      pure (.ok ())

end AgentClaimNetwork.Maintainer
