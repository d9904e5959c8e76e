import AgentClaimNetwork.Maintainer.ResolutionStore
import Mathlib.Data.Finset.Card

/-!
The scheduler of `src/maintainer/arbitration/resolution_events.rs`: a bounded channel of requests
and one loop.  Each label is a part of the code that nothing else comes between.
-/

namespace AgentClaimNetwork.Maintainer

open Library Durable

inductive ResolutionEvent
  | deliver (target : ResolutionEventTarget)
  | refresh (target : ResolutionEventTarget)
  | recoverAdoption (job : AnalysisJob)
deriving DecidableEq

inductive RefillStage
  | deliveries
  | observations
  | adoptions
deriving DecidableEq

structure Refill where
  stage : RefillStage
  morePending : Bool
  moreAdoptions : Bool
deriving DecidableEq

/-- Where the loop stands. -/
inductive Phase
  | top
  | listing (refill : Refill)
  | refilling (refill : Refill) (remaining : List (ResolutionEvent × Option Instant))
  | dispatch
  | waiting
  | executing (event : ResolutionEvent)
  | completing (event : ResolutionEvent)
  | retrying (event : ResolutionEvent) (afterProcess : Bool)
  | closing
  | stopped
deriving DecidableEq

/-- `enqueuing` holds the lock of `scheduled`. `owed` is no part of the code: the targets that a
refresh was accepted for and that no refresh was started for since. -/
structure SchedulerState where
  channel : List ResolutionEvent
  closed : Bool
  scheduled : Finset ResolutionEvent
  dirtyRefreshes : Finset ResolutionEvent
  recoveryWake : Bool
  pendingObservations : KeyedMap ResolutionEventTarget.resolutionId
  enqueuing : Option ResolutionEvent
  ready : List ResolutionEvent
  delayed : List (Instant × ResolutionEvent)
  recoveryRequested : Bool
  recoverAdoptions : Bool
  phase : Phase
  owed : Finset ResolutionEventTarget

def owing : ResolutionEvent → Finset ResolutionEventTarget
  | .refresh target => {target}
  | .deliver _ | .recoverAdoption _ => ∅

def Phase.current : Phase → Option ResolutionEvent
  | .executing event | .completing event | .retrying event _ => some event
  | .top | .listing _ | .refilling _ _ | .dispatch | .waiting | .closing | .stopped => none

def Phase.running : Phase → Bool
  | .closing | .stopped => false
  | .top | .listing _ | .refilling _ _ | .dispatch | .waiting | .executing _ | .completing _
  | .retrying _ _ => true

def enqueue (state : SchedulerState) (event : ResolutionEvent) (fate : Fate) :
    Option SchedulerState :=
  if state.enqueuing.isSome then none
  else
    match event, fate with
    | .refresh target, .done => some
        { state with
          pendingObservations := state.pendingObservations.insert target
          enqueuing := some event }
    | .refresh _, .failed => some state
    | .deliver _, _ | .recoverAdoption _, _ => some { state with enqueuing := some event }

def markDirty (dirty : Finset ResolutionEvent) : ResolutionEvent → Finset ResolutionEvent
  | .refresh target => insert (.refresh target) dirty
  | .deliver _ | .recoverAdoption _ => dirty

def finishEnqueue (capacity : Nat) (state : SchedulerState) : Option SchedulerState :=
  match state.enqueuing with
  | none => none
  | some event =>
    if event ∈ state.scheduled then some
      { state with
        enqueuing := none
        dirtyRefreshes := markDirty state.dirtyRefreshes event
        owed := state.owed ∪ owing event }
    else if state.closed then some { state with enqueuing := none }
    else if state.channel.length < capacity then some
      { state with
        enqueuing := none
        scheduled := insert event state.scheduled
        channel := state.channel ++ [event]
        owed := state.owed ∪ owing event }
    else some
      { state with
        enqueuing := none
        recoveryWake := true
        owed := state.owed ∪ owing event }

def delayUntil (deadline : Instant) (event : ResolutionEvent) :
    List (Instant × ResolutionEvent) → List (Instant × ResolutionEvent)
  | [] => [(deadline, event)]
  | first :: rest =>
    if deadline < first.1 then (deadline, event) :: first :: rest
    else first :: delayUntil deadline event rest

def moveDue (now : Instant) (state : SchedulerState) : SchedulerState :=
  { state with
    ready := state.ready ++ (state.delayed.takeWhile fun entry => entry.1 ≤ now).map Prod.snd
    delayed := state.delayed.dropWhile fun entry => entry.1 ≤ now }

def turn (capacity : Nat) (now : Instant) (state : SchedulerState) : Option SchedulerState :=
  match state.phase with
  | .top =>
    let moved := moveDue now state
    if state.recoveryRequested then
      if state.enqueuing.isSome then none
      else if state.scheduled.card < capacity then some
        { moved with phase := .listing ⟨.deliveries, false, false⟩ }
      else some { moved with phase := .dispatch }
    else some { moved with phase := .dispatch }
  | _ => none

def listDeliveries (pending : List (ResolutionEventTarget × Option Instant))
    (state : SchedulerState) : Option SchedulerState :=
  match state.phase with
  | .listing ⟨.deliveries, morePending, moreAdoptions⟩ => some
      { state with
        phase := .refilling ⟨.deliveries, morePending, moreAdoptions⟩
          (pending.map fun entry => (.deliver entry.1, entry.2)) }
  | _ => none

def listObservations (targets : List ResolutionEventTarget) (state : SchedulerState) :
    Option SchedulerState :=
  match state.phase with
  | .listing ⟨.observations, morePending, moreAdoptions⟩ =>
    if state.pendingObservations.values.all fun target => target ∈ targets then some
      { state with
        phase := .refilling ⟨.observations, morePending, moreAdoptions⟩
          (targets.map fun target => (.refresh target, none)) }
    else none
  | _ => none

def listAdoptions (jobs : List AnalysisJob) (state : SchedulerState) : Option SchedulerState :=
  match state.phase with
  | .listing ⟨.adoptions, morePending, moreAdoptions⟩ => some
      { state with
        phase := .refilling ⟨.adoptions, morePending, moreAdoptions⟩
          (jobs.map fun job => (.recoverAdoption job, none)) }
  | _ => none

def nextStage (refill : Refill) (state : SchedulerState) : SchedulerState :=
  match refill.stage with
  | .deliveries => { state with phase := .listing { refill with stage := .observations } }
  | .observations =>
    if state.recoverAdoptions then
      { state with phase := .listing { refill with stage := .adoptions } }
    else { state with recoveryRequested := refill.morePending, phase := .dispatch }
  | .adoptions =>
    { state with
      recoverAdoptions := refill.moreAdoptions
      recoveryRequested := refill.morePending
      phase := .dispatch }

def refillOne (capacity : Nat) (state : SchedulerState) : Option SchedulerState :=
  match state.phase with
  | .refilling refill [] => some (nextStage refill state)
  | .refilling refill ((event, deadline) :: remaining) =>
    if state.enqueuing.isSome then none
    else if event ∈ state.scheduled then some { state with phase := .refilling refill remaining }
    else if capacity ≤ state.scheduled.card then some
      { state with
        phase := .refilling
          { refill with
            morePending := true
            moreAdoptions := refill.moreAdoptions || refill.stage = .adoptions } remaining }
    else
      match deadline with
      | some instant => some
          { state with
            scheduled := insert event state.scheduled
            delayed := delayUntil instant event state.delayed
            phase := .refilling refill remaining }
      | none => some
          { state with
            scheduled := insert event state.scheduled
            ready := state.ready ++ [event]
            phase := .refilling refill remaining }
  | _ => none

variable (state : SchedulerState)

def dispatch : Option SchedulerState :=
  match state.phase with
  | .dispatch =>
    match state.ready with
    | event :: rest => some
        { state with
          ready := rest
          phase := .executing event
          owed := state.owed \ owing event }
    | [] => some { state with phase := .waiting }
  | _ => none

def receive : Option SchedulerState :=
  match state.phase, state.channel with
  | .waiting, event :: rest => some
      { state with
        channel := rest
        ready := state.ready ++ [event]
        phase := .top }
  | _, _ => none

def wake : Option SchedulerState :=
  if state.phase = .waiting ∧ state.recoveryWake then some
    { state with
      recoveryWake := false
      recoveryRequested := true
      phase := .top }
  else none

def sleepOver : Option SchedulerState :=
  if state.phase = .waiting ∧ state.delayed ≠ [] then some { state with phase := .top } else none

def processed (succeeded : Bool) (state : SchedulerState) : Option SchedulerState :=
  match state.phase with
  | .executing event => some
      { state with
        phase := if succeeded then .completing event else .retrying event true }
  | _ => none

def finished (event : ResolutionEvent) (state : SchedulerState) : SchedulerState :=
  { state with
    scheduled := state.scheduled.erase event
    recoveryRequested := true
    phase := .top }

/-- `complete_event`: a refresh that was asked for again meanwhile keeps its marker. -/
def completeEvent (fate : Fate) (state : SchedulerState) : Option SchedulerState :=
  match state.phase with
  | .completing event =>
    if state.enqueuing.isSome then none
    else
      match event with
      | .refresh target =>
        if event ∈ state.dirtyRefreshes then some (finished event
          { state with dirtyRefreshes := state.dirtyRefreshes.erase event })
        else
          match fate with
          | .done => some (finished event
              { state with
                pendingObservations :=
                  state.pendingObservations.erase target.resolutionId })
          | .failed => some { state with phase := .retrying event false }
      | .deliver _ | .recoverAdoption _ => some (finished event state)
  | _ => none

/-- `persist_retry` and what follows it; without a deadline there is nothing left to retry. -/
def persistRetry (deadline : Option Instant) (state : SchedulerState) : Option SchedulerState :=
  match state.phase with
  | .retrying event afterProcess =>
    match event, deadline with
    | .refresh target, some instant => some
        { state with
          pendingObservations := state.pendingObservations.insert target
          delayed := delayUntil instant event state.delayed
          phase := .top }
    | .deliver _, some instant | .recoverAdoption _, some instant => some
        { state with
          delayed := delayUntil instant event state.delayed
          phase := .top }
    | .deliver _, none =>
      if afterProcess then
        if state.enqueuing.isSome then none else some (finished event state)
      else some { state with phase := .top }
    | .refresh _, none | .recoverAdoption _, none => none
  | _ => none

def cancel : Option SchedulerState :=
  if state.phase = .top ∨ state.phase = .waiting then some
    { state with
      closed := true
      phase := .closing }
  else none

def clear : Option SchedulerState :=
  if state.phase = .closing ∧ state.enqueuing = none then some
    { state with
      channel := []
      scheduled := ∅
      dirtyRefreshes := ∅
      ready := []
      delayed := []
      phase := .stopped }
  else none

def abort : Option SchedulerState :=
  match state.phase with
  | .listing _ | .retrying _ _ => some
      { state with
        channel := []
        closed := true
        ready := []
        delayed := []
        phase := .stopped }
  | _ => none

inductive SchedulerLabel
  | enqueue (event : ResolutionEvent) (fate : Fate)
  | enqueued
  | observed (target : ResolutionEventTarget)
  | notified
  | turned (now : Instant)
  | listedDeliveries (pending : List (ResolutionEventTarget × Option Instant))
  | listedObservations (targets : List ResolutionEventTarget)
  | listedAdoptions (jobs : List AnalysisJob)
  | refilled
  | dispatched
  | received
  | woken
  | slept
  | processed (succeeded : Bool)
  | completed (fate : Fate)
  | retried (deadline : Option Instant)
  | cancelled
  | cleared
  | aborted

def schedulerStep (capacity : Nat) (state : SchedulerState) : SchedulerLabel → Option SchedulerState
  | .enqueue event fate => Maintainer.enqueue state event fate
  | .enqueued => finishEnqueue capacity state
  | .observed target => some
      { state with pendingObservations := state.pendingObservations.insert target }
  | .notified => some { state with recoveryWake := true }
  | .turned now => turn capacity now state
  | .listedDeliveries pending => listDeliveries pending state
  | .listedObservations targets => listObservations targets state
  | .listedAdoptions jobs => listAdoptions jobs state
  | .refilled => refillOne capacity state
  | .dispatched => dispatch state
  | .received => receive state
  | .woken => wake state
  | .slept => sleepOver state
  | .processed succeeded => Maintainer.processed succeeded state
  | .completed fate => completeEvent fate state
  | .retried deadline => persistRetry deadline state
  | .cancelled => cancel state
  | .cleared => clear state
  | .aborted => abort state

/-- A scheduler as it is spawned over the markers of an earlier process. -/
structure Spawned (state : SchedulerState) : Prop where
  channel : state.channel = []
  scheduled : state.scheduled = ∅
  enqueuing : state.enqueuing = none
  ready : state.ready = []
  delayed : state.delayed = []
  recoveryRequested : state.recoveryRequested = true
  phase : state.phase = .top
  owed : state.owed = ∅

end AgentClaimNetwork.Maintainer
