import AgentClaimNetwork.Api.Continuation
import AgentClaimNetwork.Library.Trace
import AgentClaimNetwork.Session.ProviderWal

/-!
What a turn keeps about the requests of one provider call, from `src/api/turn_loop.rs`, and the
callbacks an adapter reports its requests through.
-/

namespace AgentClaimNetwork.Api.ProviderProgress

open Session.ProviderWal Library.ByteSlice

variable {Message Identity Stamp : Type} [DecidableEq Message]

structure ProviderRequestProgress (Message : Type) where
  latestMessages : List Message
  canonicalTailCount : Nat
  preparingWriteAhead : Bool := false
  unacceptedVisibleOutput : Bool := false
  visibleOutputBytes : Nat := 0
  acceptedVisibleOutputBytes : Nat := 0
  latestRequestStarted : Bool := false
  ambiguousSendSeen : Bool := false
  previousMessagesBeforePending : Option (List Message) := none
  fallbackOutputPrefix : Option Text := none
  acceptedFallbackText : Option Text := none

structure Call (Message Identity Stamp : Type) where
  progress : ProviderRequestProgress Message
  preflight : PreflightCompactor Message Identity Stamp

namespace Call

variable (context : TurnContext Identity) (call : Call Message Identity Stamp)

def beginProviderAttempt : Call Message Identity Stamp :=
  { call with progress := { call.progress with
      ambiguousSendSeen := call.progress.ambiguousSendSeen || call.progress.latestRequestStarted
      preparingWriteAhead := false
      latestRequestStarted := false } }

def rollbackUnsentRequest (cut : Cut) : Call Message Identity Stamp × Bool :=
  if call.progress.latestRequestStarted then (call, true)
  else
    let abandoned := call.preflight.providerRequestAbandonedBeforeSend cut
    if abandoned.2 = false then ({ call with preflight := abandoned.1 }, false)
    else
      ({ progress := { call.progress with
            latestMessages := call.progress.previousMessagesBeforePending.getD
              call.progress.latestMessages
            previousMessagesBeforePending := none }
         preflight := abandoned.1 }, true)

variable (messages : List Message)

def beforeProviderRequest (io : WalIo Stamp) : Call Message Identity Stamp × Bool :=
  if messages = call.progress.latestMessages then (call, true)
  else if call.progress.previousMessagesBeforePending.isSome then (call, false)
  else
    let preparing := { call.progress with
      latestRequestStarted := false, preparingWriteAhead := true }
    if call.progress.latestMessages.isPrefixOf messages = false then
      ({ call with progress := preparing }, false)
    else
      let ready := call.preflight.providerRequestReady context messages
        call.progress.canonicalTailCount io
      if ready.2 = false then ({ progress := preparing, preflight := ready.1 }, false)
      else
        ({ progress := { preparing with
              latestMessages := messages
              previousMessagesBeforePending := some call.progress.latestMessages
              preparingWriteAhead := false }
           preflight := ready.1 }, true)

def providerRequestStartedAfter (previousAttemptAmbiguous : Bool) :
    Call Message Identity Stamp × Bool :=
  if messages ≠ call.progress.latestMessages then (call, false)
  else
    ({ progress := { call.progress with
          ambiguousSendSeen := call.progress.ambiguousSendSeen || previousAttemptAmbiguous
          latestRequestStarted := true
          previousMessagesBeforePending := none }
       preflight := call.preflight.providerRequestStarted }, true)

def providerRequestOutcomeResolved : Call Message Identity Stamp × Bool :=
  if messages ≠ call.progress.latestMessages then (call, false)
  else ({ call with progress := { call.progress with latestRequestStarted := false } }, true)

/-- `recorded` says whether the turn's journal takes the event. -/
def providerResponseAccepted (recorded : Bool) : Call Message Identity Stamp × Bool :=
  let resolved := call.providerRequestOutcomeResolved messages
  if resolved.2 = false then resolved
  else
    let progress := { resolved.1.progress with ambiguousSendSeen := false }
    if progress.acceptedVisibleOutputBytes < progress.visibleOutputBytes && !recorded then
      ({ resolved.1 with progress }, false)
    else
      ({ progress := { progress with
            acceptedVisibleOutputBytes := progress.visibleOutputBytes
            unacceptedVisibleOutput := false }
         preflight := resolved.1.preflight.providerResponseAccepted }, true)

def acceptFallbackText (text : Option Text) :
    ProviderRequestProgress Message → ProviderRequestProgress Message := fun progress =>
  match progress.fallbackOutputPrefix, text with
  | some outputPrefix, some text =>
    -- no slice of the join is inside a character
    let accepted := (Continuation.appendWithOverlapDedupe outputPrefix text).getD outputPrefix
    { progress with
      visibleOutputBytes := byteLen accepted
      acceptedVisibleOutputBytes := byteLen accepted
      unacceptedVisibleOutput := false
      acceptedFallbackText := some accepted }
  | _, _ => progress

def providerResponseCheckpoint (history : List Message) (text : Option Text) (recorded : Bool)
    (io : WalIo Stamp) : Call Message Identity Stamp × Bool :=
  let preparing := { call.progress with preparingWriteAhead := true }
  if (preparing.fallbackOutputPrefix.isSome && text.isSome) && !recorded then
    ({ call with progress := preparing }, false)
  else
    let progress := acceptFallbackText text preparing
    let checkpoint := call.preflight.providerResponseCheckpoint context history
      progress.canonicalTailCount io
    ({ progress := { progress with preparingWriteAhead := !checkpoint.2 }
       preflight := checkpoint.1 }, checkpoint.2)

def providerRequestAbandonedBeforeSend (cut : Cut) : Call Message Identity Stamp × Bool :=
  if messages ≠ call.progress.latestMessages then (call, false)
  else if call.progress.latestRequestStarted then (call, false)
  else call.rollbackUnsentRequest cut

def showText (text : Text) : Call Message Identity Stamp :=
  if text = [] then call
  else { call with progress := { call.progress with
      visibleOutputBytes := call.progress.visibleOutputBytes + byteLen text
      unacceptedVisibleOutput := true } }

/-- What `call_provider` sets before an attempt that does not stream. -/
def prepareFallback (outputPrefix : Text) : Call Message Identity Stamp :=
  { call with progress := { call.progress with
      visibleOutputBytes := call.progress.acceptedVisibleOutputBytes
      fallbackOutputPrefix := some outputPrefix } }

def nextProviderCall (canonicalTailCount : Nat) (io : WalIo Stamp)
    (preflight : PreflightCompactor Message Identity Stamp) : Call Message Identity Stamp × Bool :=
  let ready := preflight.providerRequestReady context messages canonicalTailCount io
  ({ progress := { latestMessages := messages, canonicalTailCount }, preflight := ready.1 },
    ready.2)

def abandonFirstRequest (cut : Cut) : Call Message Identity Stamp × Bool :=
  let abandoned := call.preflight.providerRequestAbandonedBeforeSend cut
  ({ call with preflight := abandoned.1 }, abandoned.2)

end Call

inductive Callback (Message Stamp : Type)
  | nextProviderCall (messages : List Message) (canonicalTailCount : Nat) (io : WalIo Stamp)
  | abandonFirstRequest (cut : Cut)
  | beginProviderAttempt
  | beforeProviderRequest (messages : List Message) (io : WalIo Stamp)
  | providerRequestStartedAfter (messages : List Message) (previousAttemptAmbiguous : Bool)
  | providerRequestOutcomeResolved (messages : List Message)
  | providerResponseAccepted (messages : List Message) (recorded : Bool)
  | providerResponseCheckpoint (history : List Message) (text : Option Text) (recorded : Bool)
      (io : WalIo Stamp)
  | providerRequestAbandonedBeforeSend (messages : List Message) (cut : Cut)
  | rollbackUnsentRequest (cut : Cut)
  | showText (text : Text)
  | prepareFallback (outputPrefix : Text)

def Call.respond (context : TurnContext Identity) (call : Call Message Identity Stamp) :
    Callback Message Stamp → Call Message Identity Stamp × Bool
  | .nextProviderCall messages canonicalTailCount io =>
    nextProviderCall context messages canonicalTailCount io call.preflight
  | .abandonFirstRequest cut => call.abandonFirstRequest cut
  | .beginProviderAttempt => (call.beginProviderAttempt, true)
  | .beforeProviderRequest messages io => call.beforeProviderRequest context messages io
  | .providerRequestStartedAfter messages ambiguous =>
    call.providerRequestStartedAfter messages ambiguous
  | .providerRequestOutcomeResolved messages => call.providerRequestOutcomeResolved messages
  | .providerResponseAccepted messages recorded => call.providerResponseAccepted messages recorded
  | .providerResponseCheckpoint history text recorded io =>
    call.providerResponseCheckpoint context history text recorded io
  | .providerRequestAbandonedBeforeSend messages cut =>
    call.providerRequestAbandonedBeforeSend messages cut
  | .rollbackUnsentRequest cut => call.rollbackUnsentRequest cut
  | .showText text => (call.showText text, true)
  | .prepareFallback outputPrefix => (call.prepareFallback outputPrefix, true)

inductive Phase
  | idle
  | calling
  | refused
  | ended

def Phase.permits : Phase → Callback Message Stamp → Bool
  | .idle, .nextProviderCall .. => true
  | .idle, _ => false
  | .calling, .abandonFirstRequest _ => false
  | .calling, _ => true
  | .refused, .abandonFirstRequest _ => true
  | .refused, _ => false
  | .ended, _ => false

def Phase.after (phase : Phase) (succeeded : Bool) : Callback Message Stamp → Phase
  | .nextProviderCall .. => if succeeded then .calling else .refused
  | .abandonFirstRequest _ => .ended
  | _ => phase

end AgentClaimNetwork.Api.ProviderProgress
