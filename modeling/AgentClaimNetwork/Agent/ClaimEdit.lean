import AgentClaimNetwork.MaintainerUpload
import AgentClaimNetwork.Library.Durable
import AgentClaimNetwork.Library.TornLog
import AgentClaimNetwork.Library.Trace
import AgentClaimNetwork.Library.VersionLog

/-!
The claim edits of `src/agent/claims.rs` and their recovery: the pending record, the claim file
and the upload queue, all under the knowledge lock.
-/

namespace AgentClaimNetwork.Agent

open Library Library.Durable Library.Durable.Program

/-- `next_claim_update_at` of `src/time.rs`. -/
def nextClaimUpdateAt (now previous : Instant) : Instant :=
  max (truncateToSecond now) (previous + 1000000000)

/-- `Revision` is the type of the digests that tell versions of a claim apart. -/
structure ClaimUpdate (Revision : Type) where
  id : ClaimId
  expectedRevision : Revision
  name : Option String
  statement : Option String
  scope : Option String
  evidenceSummary : Option String
  confidence : Option Confidence
  status : Option ClaimStatus

structure ClaimUpdateResult (Revision : Type) where
  claim : Claim
  revision : Revision
  syncWarning : Option String
  syncPending : Bool

structure PendingClaimEdit (Revision : Type) where
  expectedRevision : Revision
  target : Claim

inductive Writer (Revision : Type)
  | edit (call : Nat) (update : ClaimUpdate Revision)
  | other

inductive DurableWrite (Revision : Type)
  | pendingWritten (call : Nat) (edit : PendingClaimEdit Revision)
  | claimWritten (writer : Writer Revision) (replaced : Option Claim) (claim : Claim)
  | queueWritten (claims : List Claim)
  | pendingRemoved (call : Nat) (current : Option Claim)

structure EditStore (Revision : Type) where
  claims : ClaimId → Option Claim
  pending : Option (Nat × PendingClaimEdit Revision)
  queue : PendingMaintainerUploads
  dreamPending : Bool
  log : List (DurableWrite Revision)

variable {Revision : Type} [DecidableEq Revision]

namespace EditStore

variable (store : EditStore Revision)

def writePending (call : Nat) (edit : PendingClaimEdit Revision) : EditStore Revision :=
  { store with pending := some (call, edit), log := .pendingWritten call edit :: store.log }

def writeClaim (writer : Writer Revision) (claim : Claim) : EditStore Revision :=
  { store with
    claims := Function.update store.claims claim.id (some claim)
    log := .claimWritten writer (store.claims claim.id) claim :: store.log }

def writeQueue (queue : PendingMaintainerUploads) : EditStore Revision :=
  { store with queue, log := .queueWritten queue.claims :: store.log }

def removePending : EditStore Revision :=
  match store.pending with
  | none => store
  | some (call, edit) =>
    { store with
      pending := none, log := .pendingRemoved call (store.claims edit.target.id) :: store.log }

end EditStore

/-- The runner.  `revision` is the digest of a claim's JSON form, `scan` the scan for unsafe
content. -/
structure ClaimEditor (Revision : Type) where
  agentId : AgentId
  teamServicesConfigured : Bool
  revision : Claim → Revision
  scan : String → Bool

def validateUpdate (update : ClaimUpdate Revision) : Bool :=
  update.name.isSome || update.statement.isSome || update.scope.isSome ||
    update.evidenceSummary.isSome || update.confidence.isSome || update.status.isSome

def ClaimUpdate.target (update : ClaimUpdate Revision) (current : Claim) (now : Instant) : Claim :=
  { current with
    name := update.name.getD current.name
    statement := update.statement.getD current.statement
    scope := update.scope.getD current.scope
    evidenceSummary := update.evidenceSummary.getD current.evidenceSummary
    confidence := update.confidence.getD current.confidence
    status := update.status.getD current.status
    updatedAt := some (nextClaimUpdateAt (truncateToSecond now) current.effectiveUpdatedAt) }

namespace ClaimEditor

variable (editor : ClaimEditor Revision)

def validateSharedClaimText (claim : Claim) : Bool :=
  [claim.name, claim.statement, claim.scope, claim.evidenceSummary].all fun value =>
    !(TornLog.trim value.toList).isEmpty && editor.scan value

/-- `ensure_knowledge_ready`: a Dream commit in progress keeps everyone else out. -/
def ensureKnowledgeReady : Program (EditStore Revision) Unit := do
  let store ← look
  require (!store.dreamPending)

def readOwnedClaim (id : ClaimId) : Program (EditStore Revision) Claim := do
  let store ← look
  match store.claims id with
  | none => bail
  | some claim => if claim.holder = editor.agentId then pure claim else bail

def clearPendingClaimEdit : Program (EditStore Revision) Unit := write EditStore.removePending

def stageMaintainerBatchWithDurableClaims (claims : List Claim) : Program (EditStore Revision) Unit :=
  write fun store =>
    store.writeQueue (stageMaintainerBatchInner store.queue ⟨claims, [], true, [], none⟩)

def settlePendingClaimEdit (pending : PendingClaimEdit Revision) (current : Claim) :
    Program (EditStore Revision) Unit :=
  if editor.revision current = pending.expectedRevision then clearPendingClaimEdit
  else do
    stageMaintainerBatchWithDurableClaims [current]
    clearPendingClaimEdit

def recoverPendingClaimEditLocked : Program (EditStore Revision) Unit :=
  if editor.teamServicesConfigured then do
    ensureKnowledgeReady
    let store ← look
    match store.pending with
    | none => pure ()
    | some (_, pending) => do
        let current ← editor.readOwnedClaim pending.target.id
        editor.settlePendingClaimEdit pending current
  else pure ()

/-- `recover_pending_claim_edit`.  Whether a record was found is read before the lock is taken. -/
def recoverPendingClaimEdit (found : Bool) : Program (EditStore Revision) Unit :=
  if editor.teamServicesConfigured && found then editor.recoverPendingClaimEditLocked else pure ()

def applyClaimEdit (call : Nat) (update : ClaimUpdate Revision)
    (pending : PendingClaimEdit Revision) : Program (EditStore Revision) Unit :=
  if editor.teamServicesConfigured then do
    write fun store => store.writePending call pending
    write fun store => store.writeClaim (.edit call update) pending.target
    stageMaintainerBatchWithDurableClaims [pending.target]
    clearPendingClaimEdit
  else write fun store => store.writeClaim (.edit call update) pending.target

def updateResult (claim : Claim) : ClaimUpdateResult Revision :=
  { claim
    revision := editor.revision claim
    syncWarning := if editor.teamServicesConfigured then
      some "Claim 已保存到本地，等待下一次团队同步。" else none
    syncPending := editor.teamServicesConfigured }

def updateClaim (call : Nat) (update : ClaimUpdate Revision) (now : Instant) :
    Program (EditStore Revision) (ClaimUpdateResult Revision) := do
  require (validateUpdate update)
  ensureKnowledgeReady
  editor.recoverPendingClaimEditLocked
  let current ← editor.readOwnedClaim update.id
  require (decide (update.expectedRevision = editor.revision current))
  let target := update.target current now
  require (editor.validateSharedClaimText target)
  editor.applyClaimEdit call update ⟨editor.revision current, target⟩
  pure (editor.updateResult target)

end ClaimEditor

structure EditWorld (Revision : Type) where
  store : EditStore Revision
  calls : Nat
  returned : List (Nat × ClaimUpdateResult Revision)

inductive EditAction (Revision : Type)
  | update (update : ClaimUpdate Revision) (now : Instant) (fates : List Fate)
  | recover (found : Bool) (fates : List Fate)
  | writeClaim (claim : Claim)
  | writeQueue (queue : PendingMaintainerUploads)
  | dream (pending : Bool)

def DurableWrite.claim? : DurableWrite Revision → Option Claim
  | .claimWritten _ _ claim => some claim
  | _ => none

def wasLocal (first : EditStore Revision) (log : List (DurableWrite Revision)) (claim : Claim) : Bool :=
  decide (claim ∈ first.queue.claims) || decide (first.claims claim.id = some claim) ||
    log.any fun written => decide (written.claim? = some claim)

namespace EditWorld

def finishUpdate (world : EditWorld Revision) (outcome : Outcome (EditStore Revision) (ClaimUpdateResult Revision)) :
    EditWorld Revision :=
  { store := outcome.store
    calls := world.calls + 1
    returned := match outcome with
      | .value result _ _ => (world.calls, result) :: world.returned
      | _ => world.returned }

def act (editor : ClaimEditor Revision) (first : EditStore Revision) (world : EditWorld Revision)  :
    EditAction Revision → Option (EditWorld Revision)
  | .update update now fates =>
    some (world.finishUpdate (editor.updateClaim world.calls update now world.store fates))
  | .recover found fates =>
    some { world with store := (editor.recoverPendingClaimEdit found world.store fates).store }
  | .writeClaim claim =>
    if (world.store.claims claim.id).all fun old =>
        decide (old.effectiveUpdatedAt < claim.effectiveUpdatedAt) then
      some { world with store := world.store.writeClaim .other claim }
    else none
  | .writeQueue queue =>
    if queue.claims.all fun claim => decide (claim ∈ world.store.queue.claims) ||
        wasLocal first world.store.log claim then
      some { world with store := world.store.writeQueue queue }
    else none
  | .dream pending => some { world with store := { world.store with dreamPending := pending } }

def Run (editor : ClaimEditor Revision) (first : EditStore Revision)  :
    EditWorld Revision → List (EditAction Revision) → EditWorld Revision → Prop :=
  Trace fun world action next => act editor first world action = some next

end EditWorld

end AgentClaimNetwork.Agent
