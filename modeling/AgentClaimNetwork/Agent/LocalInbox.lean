import AgentClaimNetwork.Library.Interleaving
import AgentClaimNetwork.Maintainer.Inbox
import Mathlib.Data.Finset.Insert

/-!
`LocalFsInboxReader` of `src/agent/fs.rs`: the inbox directory that any number of processes share,
and the calls on it as scripts of single file operations.
-/

namespace AgentClaimNetwork.Agent

open Library Interleaving
open Maintainer (InboxId InboxMessage)

/-- The names of the payload files of a message: `<id>.yaml`, `<id>.processing.<pid>.<suffix>.yaml`,
where the two numbers are one lease, and `<id>.done.yaml`. -/
inductive FileName
  | pending (id : InboxId)
  | processing (id : InboxId) (lease : Nat)
  | done (id : InboxId)
deriving DecidableEq

def FileName.id : FileName → InboxId
  | .pending id => id
  | .processing id _ => id
  | .done id => id

structure InboxFile where
  message : InboxMessage
  modifiedAt : Instant

structure InboxDir where
  files : FileName → Option InboxFile
  clock : Instant
  leases : Finset Nat

inductive FileAction
  | tryExists (name : FileName)
  | readYaml (name : FileName)
  | readDir
  | modified (name : FileName)
  /-- The time at which the age of `name` is taken, from a modification time that was read. -/
  | elapsed (name : FileName) (modified : Instant)
  | now
  | rename (source target : FileName)
  /-- Renames to a processing name with a random suffix. -/
  | lease (source : FileName) (id : InboxId)
  | removeFile (name : FileName)
  | writeYaml (name : FileName) (message : InboxMessage)

abbrev FileAnswer : FileAction → Type
  | .tryExists _ => Bool
  | .readYaml _ => Option InboxMessage
  | .readDir => List FileName
  | .modified _ => Option Instant
  | .elapsed _ _ | .now => Instant
  | .rename _ _ => Bool
  | .lease _ _ => Option Nat
  | .removeFile _ => Bool
  | .writeYaml _ _ => Unit

abbrev FileScript := Script FileAction FileAnswer

def InboxDir.moved (dir : InboxDir) (source target : FileName) (file : InboxFile) : InboxDir :=
  { dir with
    files := Function.update (Function.update dir.files source none) target (some file) }

def performs (dir : InboxDir) : (action : FileAction) → FileAnswer action → InboxDir → Prop
  | .tryExists name, answer, next => answer = (dir.files name).isSome ∧ next = dir
  | .readYaml name, answer, next => answer = (dir.files name).map InboxFile.message ∧ next = dir
  | .readDir, answer, next =>
    (∀ id lease, FileName.processing id lease ∈ (answer : List FileName) → lease ∈ dir.leases) ∧
      next = dir
  | .modified name, answer, next =>
    answer = (dir.files name).map InboxFile.modifiedAt ∧ next = dir
  | .elapsed _ _, answer, next | .now, answer, next => answer = dir.clock ∧ next = dir
  | .rename source target, answer, next =>
    (answer = false ∧ dir.files source = none ∧ next = dir) ∨
      ∃ file, answer = true ∧ dir.files source = some file ∧ next = dir.moved source target file
  | .lease source id, answer, next =>
    (answer = none ∧ dir.files source = none ∧ next = dir) ∨
      ∃ file lease, answer = some lease ∧ lease ∉ dir.leases ∧ dir.files source = some file ∧
        next = { dir.moved source (.processing id lease) file with
          leases := insert lease dir.leases }
  | .removeFile name, answer, next =>
    answer = (dir.files name).isSome ∧
      next = { dir with files := Function.update dir.files name none }
  | .writeYaml name message, _, next =>
    next = { dir with files := Function.update dir.files name (some ⟨message, dir.clock⟩) }

structure ClaimedInboxMessage where
  message : InboxMessage
  leaseId : Option FileName

structure PendingInboxMessage where
  message : InboxMessage
  modifiedAt : Instant
  path : FileName

variable (name : FileName)

def tryExists : FileScript Bool := .act (.tryExists name) .finished
def readContent : FileScript (Option InboxMessage) :=
  .act (.readYaml name) .finished
def readDir : FileScript (List FileName) := .act .readDir .finished
def modifiedAt : FileScript (Option Instant) := .act (.modified name) .finished
def elapsed (modified : Instant) : FileScript Instant :=
  .act (.elapsed name modified) .finished
def now : FileScript Instant := .act .now .finished
def rename (source target : FileName) : FileScript Bool := .act (.rename source target) .finished
def lease (source : FileName) (id : InboxId) : FileScript (Option Nat) :=
  .act (.lease source id) .finished
def writeYaml (message : InboxMessage) : FileScript Unit :=
  .act (.writeYaml name message) .finished

def readYaml : FileScript InboxMessage := do
  let found ← readContent name
  Script.orFail found

def modified : FileScript Instant := do
  let found ← modifiedAt name
  Script.orFail found

def removeFile : FileScript Unit :=
  .act (.removeFile name) fun removed => Script.require removed

def recoverMessage (path : FileName) (message : InboxMessage) : FileScript Unit := do
  let done ← tryExists (.done message.id)
  if done then removeFile path
  else do
    let active ← tryExists (.pending message.id)
    if active then removeFile path
    else do
      -- A file that is gone by now was recovered by another process.
      let _ ← rename path (.pending message.id)
      pure ()

variable (staleAfter : Int)

def isStale (modified now : Instant) : Bool :=
  decide (modified ≤ now) && decide (staleAfter ≤ now - modified)

def recoverFile (path : FileName) : FileScript Unit := do
  let modifiedAt ← modified path
  let readAt ← elapsed path modifiedAt
  if isStale staleAfter modifiedAt readAt then do
    let content ← readContent path
    match content with
    | some message => recoverMessage path message
    | none => pure ()
  else pure ()

def recoverStaleProcessing : FileScript Unit := do
  let names ← readDir
  Script.forEach names fun name =>
    match name with
    | .processing _ _ => recoverFile staleAfter name
    | .pending _ | .done _ => pure ()

def scanFile (path : FileName) : FileScript (Option PendingInboxMessage) := do
  let message ← readYaml path
  let done ← tryExists (.done message.id)
  if done then do
    removeFile path
    pure none
  else do
    let modifiedAt ← modified path
    pure (some ⟨message, modifiedAt, path⟩)

def pendingBefore (left right : PendingInboxMessage) : Prop :=
  left.message.eventAt < right.message.eventAt ∨
    left.message.eventAt = right.message.eventAt ∧
      (left.modifiedAt < right.modifiedAt ∨
        left.modifiedAt = right.modifiedAt ∧ left.message.id ≤ right.message.id)

instance : DecidableRel pendingBefore := fun _ _ => instDecidableOr

def claimItem (item : PendingInboxMessage) : FileScript (Option ClaimedInboxMessage) := do
  let leased ← lease item.path item.message.id
  pure (leased.map fun lease => ⟨item.message, some (.processing item.message.id lease)⟩)

/-- `seen` are the messages that this process acknowledged. -/
def claimPending (seen : List InboxId) : FileScript (List ClaimedInboxMessage) := do
  recoverStaleProcessing staleAfter
  let names ← readDir
  let pending ← Script.gather names fun name =>
    match name with
    | .pending _ => scanFile name
    | .processing _ _ | .done _ => pure none
  let ordered := pending.insertionSort pendingBefore
  Script.gather (ordered.filter fun item => item.message.id ∉ seen) claimItem

def finishMessage (id : InboxId) (path : FileName) : FileScript Unit := do
  let message ← readYaml path
  let handledAt ← now
  writeYaml (.done id) { message with handledAt := some (truncateToSecond handledAt) }
  removeFile path

def ack (id : InboxId) : FileScript Unit := do
  let active ← tryExists (.pending id)
  if active then finishMessage id (.pending id) else pure ()

def ackClaimed (claimed : ClaimedInboxMessage) : FileScript Unit :=
  match claimed.leaseId with
  | none => ack claimed.message.id
  | some processing => do
      let held ← tryExists processing
      if held then finishMessage claimed.message.id processing
      else do
        let done ← tryExists (.done claimed.message.id)
        if done then pure () else ack claimed.message.id

def releaseClaimed (claimed : ClaimedInboxMessage) : FileScript Unit :=
  match claimed.leaseId with
  | none => pure ()
  | some processing => do
      let done ← tryExists (.done claimed.message.id)
      if done then do
        let held ← tryExists processing
        if held then removeFile processing else pure ()
      else do
        let held ← tryExists processing
        if held then do
          let active ← tryExists (.pending claimed.message.id)
          if active then pure ()
          else do
            let moved ← rename processing (.pending claimed.message.id)
            Script.require moved
        else pure ()

def ensureExistingInboxSnapshot (path : FileName) (expected : InboxMessage) : FileScript Unit := do
  let actual ← readYaml path
  -- Only a done file carries the time it was handled at.
  Script.require ({ actual with handledAt := none } = { expected with handledAt := none })

def existingPaths (id : InboxId) (done active : Bool) (names : List FileName) : List FileName :=
  (if done then [.done id] else []) ++ (if active then [.pending id] else []) ++
    names.filter fun name => match name with
      | .processing other _ => other = id
      | .pending _ | .done _ => false

def acceptPulled (message : InboxMessage) : FileScript Unit := do
  let done ← tryExists (.done message.id)
  let active ← tryExists (.pending message.id)
  let names ← readDir
  if existingPaths message.id done active names = [] then writeYaml (.pending message.id) message
  else Script.forEach (existingPaths message.id done active names) fun path =>
    ensureExistingInboxSnapshot path message

inductive InboxCall
  | acceptPulled (message : InboxMessage)
  | claimPending (seen : List InboxId)
  | ackClaimed (claimed : ClaimedInboxMessage)
  | releaseClaimed (claimed : ClaimedInboxMessage)

def inboxScript : InboxCall → FileScript (List ClaimedInboxMessage)
  | .acceptPulled message => do
      acceptPulled message
      pure []
  | .claimPending seen => claimPending staleAfter seen
  | .ackClaimed claimed => do
      ackClaimed claimed
      pure []
  | .releaseClaimed claimed => do
      releaseClaimed claimed
      pure []

def Issued (dir : InboxDir) (claimed : ClaimedInboxMessage) : Prop :=
  ∀ name, claimed.leaseId = some name →
    ∃ lease ∈ dir.leases, name = .processing claimed.message.id lease

abbrev inboxMachine : Machine where
  World := InboxDir
  Action := FileAction
  Answer := FileAnswer
  Call := InboxCall
  Reply := List ClaimedInboxMessage
  script := inboxScript staleAfter
  performs := performs
  admits dir call :=
    match call with
    | .ackClaimed claimed | .releaseClaimed claimed => Issued dir claimed
    | .acceptPulled _ | .claimPending _ => True
  passes dir next := ∃ later, dir.clock ≤ later ∧ next = { dir with clock := later }

def emptyInbox : System (inboxMachine staleAfter) where
  world := ⟨fun _ => none, 0, ∅⟩
  running := fun _ => none

end AgentClaimNetwork.Agent
