import AgentClaimNetwork.Session.Metadata
import AgentClaimNetwork.Session.TurnProjection
import AgentClaimNetwork.Tool.ProcessManager

/-!
How the end of a background process reaches the main model, from
`src/agent/session_engine.rs`: into the turn journal, then to the provider, then past the cursors.
-/

namespace AgentClaimNetwork.Session.BackgroundDelivery

open Library Tool

abbrev Event (Stamp : Type) := TurnJournalEvent Stamp TurnJournalEventKind

variable {Stamp History : Type}

/-- What `next_turn_journal_seq` makes of the events of the file. -/
def nextSeq (events : List (Event Stamp)) : Nat :=
  min (events.foldl (fun highest event => max highest event.seq) 0 + 1) maxSeq

def completedKind (toolUseId : Text) (completion : ProcessCompletion) : TurnJournalEventKind :=
  .backgroundProcessCompleted toolUseId completion.processId completion.instanceId
    completion.status completion.exitCode completion.signal completion.success

def completionOf (event : Event Stamp) : Option ProcessCompletion :=
  match event.kind with
  | .backgroundProcessCompleted toolUseId processId instanceId status exitCode signal success =>
    some
      { processId, instanceId, status, exitCode, signal, success
        originatingTurnId := some event.turnId
        originatingToolUseId := some toolUseId }
  | _ => none

def journaledInstances (events : List (Event Stamp)) : List Allocation :=
  (events.filterMap completionOf).map (·.allocation)

inductive Party
  | heartbeat
  | turn
deriving DecidableEq

inductive PersistStage
  | opening
  | checking
  | appending
deriving DecidableEq

/-- `persist_main_background_process_completions` while it holds the completion lock. -/
structure Persisting where
  party : Party
  todo : List ProcessCompletion
  journaled : List Allocation
  stage : PersistStage

inductive IoWork (Stamp : Type)
  | openWriter
  | append (turnId : Text) (createdAt : Stamp) (kind : TurnJournalEventKind)

structure IoRequest (Stamp : Type) where
  work : IoWork Stamp
  awaited : Bool

def IoRequest.abandon (request : IoRequest Stamp) : IoRequest Stamp :=
  { request with awaited := false }

structure Offer (Stamp : Type) where
  events : List (Event Stamp)
  fresh : List (Event Stamp)
  projection : BackgroundProjection

inductive Phase (Stamp : Type)
  | ready
  | rolledBack
  | frozen (completions : List ProcessCompletion)
  | persisting
  | persisted
  | observed (events : List (Event Stamp))
  | offering (offer : Offer Stamp)
  | requesting (offer : Offer Stamp)
  | answered (offer : Offer Stamp)
  | stored

def Phase.offer : Phase Stamp → Option (Offer Stamp)
  | .offering offer | .requesting offer | .answered offer => some offer
  | _ => none

/-- The turn loop with `MainModelContextAppender`; `deliverySeq` is the number both hooks share,
`messages` are the background projections among the provider messages. -/
structure TurnRun (Stamp : Type) where
  deliveryIds : List Allocation
  untilSeq : Nat
  deliverySeq : Nat
  messages : List BackgroundProjection
  phase : Phase Stamp

/-- `succeeded` are the requests the provider has answered. -/
structure Delivery (Stamp History : Type) where
  manager : ProcessManager
  journal : List (Event Stamp)
  ioQueue : List (IoRequest Stamp)
  drains : List (List ProcessCompletion)
  lock : Option Persisting
  metadata : SessionMetadata Stamp History
  turn : Option (TurnRun Stamp)
  succeeded : List (List BackgroundProjection)

inductive WriteOutcome
  | done
  | failed
  /-- An error after the new content could be read. -/
  | failedWritten
deriving DecidableEq

def appendFrozenModelContext (messages : List BackgroundProjection)
    (projection : BackgroundProjection) : List BackgroundProjection :=
  if messages.getLast? = some projection then messages else messages ++ [projection]

namespace Delivery

def created (metadata : SessionMetadata Stamp History) : Delivery Stamp History where
  manager := .initial
  journal := []
  ioQueue := []
  drains := []
  lock := none
  metadata := { metadata with providerBackgroundCompletionUntilSeq := some 0 }
  turn := none
  succeeded := []

variable (delivery : Delivery Stamp History)

def storedSeq : Nat :=
  delivery.metadata.providerBackgroundCompletionUntilSeq.getD 0

def takeLock (party : Party) (completions : List ProcessCompletion) : Delivery Stamp History :=
  { delivery with
    lock := some ⟨party, completions, journaledInstances delivery.journal, .opening⟩
    ioQueue := delivery.ioQueue ++ [⟨.openWriter, true⟩] }

def failPersist (party : Party) : Delivery Stamp History :=
  { delivery with
    lock := none
    ioQueue := delivery.ioQueue.map IoRequest.abandon
    turn := if party = .turn then none else delivery.turn }

def drain : Delivery Stamp History :=
  if delivery.manager.obligations.isEmpty then delivery
  else { delivery with drains := delivery.drains ++ [delivery.manager.obligations] }

def enterDrain (index : Nat) : Option (Delivery Stamp History) :=
  match delivery.lock, delivery.drains[index]? with
  | none, some completions =>
    some { delivery.takeLock .heartbeat completions with
      drains := delivery.drains.eraseIdx index }
  | _, _ => none

def check (createdAt : Stamp) : Option (Delivery Stamp History) :=
  match delivery.lock with
  | some persisting =>
    if persisting.stage ≠ .checking then none
    else match persisting.todo with
      | [] => some
          { delivery with
            lock := none
            turn := if persisting.party = .turn then
                delivery.turn.map fun turn => { turn with phase := .persisted }
              else delivery.turn }
      | completion :: rest =>
        if persisting.journaled.contains completion.allocation then some
          { delivery with
            manager := delivery.manager.acknowledge completion.instanceId
            lock := some { persisting with todo := rest } }
        else match completion.originatingTurnId, completion.originatingToolUseId with
          | some turnId, some toolUseId => some
              { delivery with
                lock := some { persisting with stage := .appending }
                ioQueue := delivery.ioQueue ++
                  [⟨.append turnId createdAt (completedKind toolUseId completion), true⟩] }
          | _, _ => some (delivery.failPersist persisting.party)
  | none => none

def answerIo (outcome : WriteOutcome) : Delivery Stamp History :=
  match delivery.lock with
  | none => delivery
  | some persisting =>
    if outcome = .done then
      { delivery with
        lock := some
          { persisting with
            stage := .checking
            journaled :=
              if persisting.stage = .appending then
                (persisting.todo.take 1).map (·.allocation) ++ persisting.journaled
              else persisting.journaled } }
    else delivery.failPersist persisting.party

def appendEvent (turnId : Text) (createdAt : Stamp)
    (kind : TurnJournalEventKind) : Option (Delivery Stamp History) :=
  if nextSeq delivery.journal < maxSeq then
    some { delivery with
      journal := delivery.journal ++ [⟨nextSeq delivery.journal, turnId, createdAt, kind⟩] }
  else none

def perform (outcome : WriteOutcome) : Option (Delivery Stamp History) :=
  match delivery.ioQueue with
  | [] => none
  | request :: rest =>
    let popped := { delivery with ioQueue := rest }
    let worked : Option (Delivery Stamp History) := match request.work with
      | .openWriter => some popped
      | .append turnId createdAt kind =>
        if outcome = .failed then some popped
        else popped.appendEvent turnId createdAt kind
    worked.map fun next => if request.awaited then next.answerIo outcome else next

def giveUp : Option (Delivery Stamp History) :=
  match delivery.lock with
  | some persisting =>
    if persisting.stage = .checking then none else some (delivery.failPersist persisting.party)
  | none => none

def appendOther (turnId : Text) (createdAt : Stamp)
    (kind : TurnJournalEventKind) : Option (Delivery Stamp History) :=
  match kind with
  | .backgroundProcessCompleted .. => none
  | kind => delivery.appendEvent turnId createdAt kind

def startTurn (messages : List BackgroundProjection) : Option (Delivery Stamp History) :=
  match delivery.turn with
  | some _ => none
  | none => some
      { delivery with
        turn := some
          { deliveryIds := []
            untilSeq := delivery.storedSeq
            deliverySeq := 0
            messages
            phase := .ready } }

def endTurn : Delivery Stamp History :=
  match delivery.lock with
  | some persisting =>
    if persisting.party = .turn then delivery.failPersist .turn
    else { delivery with turn := none }
  | none => { delivery with turn := none }

def rewrite (messages : List BackgroundProjection) : Option (Delivery Stamp History) :=
  match delivery.turn with
  | some turn =>
    match turn.phase with
    | .ready => some { delivery with turn := some { turn with messages } }
    | _ => none
  | none => none

/-- The observation of `observe_context`, between one point where others may run and the
next. -/
def observe : Option (Delivery Stamp History) :=
  match delivery.turn with
  | none => none
  | some turn =>
    match turn.phase with
    | .ready => some
        { delivery with
          manager := delivery.manager.rollbackNotifications
          turn := some { turn with phase := .rolledBack } }
    | .rolledBack => some
        { delivery with
          manager := delivery.manager.beginNotifications
          turn := some
            { turn with
              deliveryIds := delivery.manager.deliverable.map (·.allocation)
              phase := .frozen delivery.manager.deliverable } }
    | .frozen completions =>
      if completions.isEmpty then
        some { delivery with turn := some { turn with phase := .persisted } }
      else if delivery.lock.isNone then
        some { delivery.takeLock .turn completions with
          turn := some { turn with phase := .persisting } }
      else none
    | .persisted => some
        { delivery with turn := some { turn with phase := .observed delivery.journal } }
    | .observed events =>
      let fresh := events.filter fun event =>
        (completionOf event).isSome && decide (turn.untilSeq < event.seq)
      let delivered := fresh.foldl (fun passed event => max passed event.seq) turn.untilSeq
      let projection := backgroundProcessProjection delivery.manager
        (fresh.filterMap completionOf) (journaledInstances events)
      some
        { delivery with
          turn := some
            { turn with
              deliverySeq :=
                if turn.untilSeq < delivered then delivered else turn.deliverySeq
              phase := .offering ⟨events, fresh, projection⟩ } }
    | _ => none

def settleInitial : Option (Delivery Stamp History) :=
  match delivery.turn with
  | none => none
  | some turn =>
    match turn.phase with
    | .offering offer => some
        { delivery with
          turn := some
            { turn with
              messages := appendFrozenModelContext turn.messages offer.projection
              phase := .ready } }
    | _ => none

def send (replaced : Option (List BackgroundProjection)) : Option (Delivery Stamp History) :=
  match delivery.turn with
  | none => none
  | some turn =>
    match turn.phase with
    | .offering offer => some
        { delivery with
          turn := some
            { turn with
              messages := match replaced with
                | some kept => kept ++ [offer.projection]
                | none => appendFrozenModelContext turn.messages offer.projection
              phase := .requesting offer } }
    | _ => none

def answer (success : Bool) : Option (Delivery Stamp History) :=
  match delivery.turn with
  | none => none
  | some turn =>
    match turn.phase with
    | .requesting offer =>
      if success then some
        { delivery with
          turn := some { turn with phase := .answered offer }
          succeeded := delivery.succeeded ++ [turn.messages] }
      else some { delivery with turn := some { turn with phase := .ready } }
    | _ => none

/-- `PreflightCompactor::after_provider_response_success`. -/
def storeCursor (outcome : WriteOutcome) : Option (Delivery Stamp History) :=
  match delivery.turn with
  | none => none
  | some turn =>
    match turn.phase with
    | .answered _ =>
      let metadata := delivery.metadata.advanceProviderBackgroundCompletionUntil
        turn.deliverySeq
      if turn.deliverySeq = 0 then
        some { delivery with turn := some { turn with phase := .stored } }
      else match outcome with
        | .done => some { delivery with metadata, turn := some { turn with phase := .stored } }
        | .failed => some { delivery with turn := none }
        | .failedWritten => some { delivery with metadata, turn := none }
    | _ => none

/-- `MainModelContextAppender::after_provider_response_success`. -/
def finishHooks : Option (Delivery Stamp History) :=
  match delivery.turn with
  | none => none
  | some turn =>
    match turn.phase with
    | .stored => some
        { delivery with
          manager := delivery.manager.commitNotifications turn.deliveryIds
          turn := some
            { turn with
              deliveryIds := []
              untilSeq := max turn.untilSeq turn.deliverySeq
              deliverySeq := 0
              phase := .ready } }
    | _ => none

inductive Label (Stamp : Type)
  | reserve (id : Text) (originatingTurnId originatingToolUseId : Option Text)
      (command cwd : Text) (tty : Bool)
  | advance (instanceId : Nat) (transition : ProcessState.Transition)
  | evict (instanceId : Nat)
  | recordCompletion (instanceId : Nat)
  | commitFinalOutput (instanceId : Nat)
  | drain
  | enterDrain (index : Nat)
  | check (createdAt : Stamp)
  | perform (outcome : WriteOutcome)
  | giveUp
  | appendOther (turnId : Text) (createdAt : Stamp) (kind : TurnJournalEventKind)
  | startTurn (messages : List BackgroundProjection)
  | endTurn
  | rewrite (messages : List BackgroundProjection)
  | observe
  | settleInitial
  | send (replaced : Option (List BackgroundProjection))
  | answer (success : Bool)
  | storeCursor (outcome : WriteOutcome)
  | finishHooks

def apply : Label Stamp → Option (Delivery Stamp History)
  | .reserve id originatingTurnId originatingToolUseId command cwd tty =>
    (delivery.manager.reserve id originatingTurnId originatingToolUseId command cwd tty).map
      fun manager => { delivery with manager }
  | .advance instanceId transition =>
    some { delivery with manager := delivery.manager.advance instanceId transition }
  | .evict instanceId => some { delivery with manager := delivery.manager.evict instanceId }
  | .recordCompletion instanceId =>
    some { delivery with manager := delivery.manager.recordCompletion instanceId }
  | .commitFinalOutput instanceId =>
    some { delivery with manager := delivery.manager.commitFinalOutput instanceId }
  | .drain => some delivery.drain
  | .enterDrain index => delivery.enterDrain index
  | .check createdAt => delivery.check createdAt
  | .perform outcome => delivery.perform outcome
  | .giveUp => delivery.giveUp
  | .appendOther turnId createdAt kind => delivery.appendOther turnId createdAt kind
  | .startTurn messages => delivery.startTurn messages
  | .endTurn => some delivery.endTurn
  | .rewrite messages => delivery.rewrite messages
  | .observe => delivery.observe
  | .settleInitial => delivery.settleInitial
  | .send replaced => delivery.send replaced
  | .answer success => delivery.answer success
  | .storeCursor outcome => delivery.storeCursor outcome
  | .finishHooks => delivery.finishHooks

def Patient : Label Stamp → Prop
  | .giveUp => ∀ persisting, delivery.lock = some persisting → persisting.stage ≠ .appending
  | .endTurn => ∀ persisting, delivery.lock = some persisting → persisting.party = .turn →
      persisting.stage ≠ .appending
  | _ => True

end Delivery

variable (metadata : SessionMetadata Stamp History) (labels : List (Delivery.Label Stamp))
  (delivery : Delivery Stamp History)

abbrev Run : Prop :=
  Trace (fun earlier label later => earlier.apply label = some later) (Delivery.created metadata)
    labels delivery

abbrev PatientRun : Prop :=
  Trace (fun earlier label later => earlier.Patient label ∧ earlier.apply label = some later)
    (Delivery.created metadata) labels delivery

end AgentClaimNetwork.Session.BackgroundDelivery
