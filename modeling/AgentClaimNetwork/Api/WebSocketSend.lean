import AgentClaimNetwork.Api.ResponsesEvents

/-!
Sending one Responses request over WebSocket: the attempts of a call, what each of them shows to
the outside, and when the call tries again, falls back to HTTP or gives up.
-/

namespace AgentClaimNetwork.Api.Responses

open Library

inductive WebSocketSendOutcome
  | response (reduced : ReducedResponses)
  | fallbackToHttp (previousAttemptAmbiguous : Bool)

inductive IncomingMessage
  | text (text : List Char)
  | binary
  | closed (code : Option Nat)
  | transportFailure
deriving DecidableEq

inductive WebSocketRequestFailure
  | previousResponseNotFound
  | connectionLimit
  | response (error : ResponsesError)
deriving DecidableEq

inductive ConnectFailure
  | immediateDowngrade
  | poolTimeout (message : String)
  | retryable (message : String)
  | transientStatus (message : String)
  | deterministic (error : ResponsesError)

section

def websocketErrorIsRetryable : ResponsesError → Bool
  | .streamFailure _ => true
  | .status status _ => status = 429 || 500 ≤ status
  | .failed code _ => code.any isProviderTransientErrorCode
  | _ => false

def websocketResponseAttemptAmbiguous : ResponsesError → Bool
  | .streamFailure _ => true
  | .http _ => true
  | .failed code _ => code.any isProviderTransientErrorCode
  | _ => false

def websocketErrorTriggersStickyDowngrade : ResponsesError → Bool
  | .streamFailure _ => true
  | _ => false

variable (parse : List Char → Option Json)

def websocketErrorCode (text : List Char) : Option String :=
  (parse text).bind fun event => (eventKind event).bind fun kind =>
    (if kind = "error" then (get event "code").or (objectField (get event "error") "code")
      else if kind = "response.failed" then
        objectField (objectField (get event "response") "error") "code"
      else none).bind asString

end

/-- What one attempt of a call does that is seen outside of it. -/
inductive Step
  | acquiring (forceFullHistory : Bool)
  | requestStarted (previousAttemptAmbiguous accepted : Bool)
  | sent
  | received (frame : IncomingMessage)
  | textDelta (text : String)
  | clearedChain
  | markedSticky
  | released (responseId : Option String)
deriving DecidableEq

section

variable (parse : List Char → Option Json)

def streamFailure (reason : String) : WebSocketRequestFailure := .response (.streamFailure reason)

def applyFrame (decoder : ResponsesEventDecoder) :
    IncomingMessage → Except WebSocketRequestFailure Applied
  | .text text =>
    if websocketErrorCode parse text = some "previous_response_not_found" then
      .error .previousResponseNotFound
    else if websocketErrorCode parse text = some "websocket_connection_limit_reached" then
      .error .connectionLimit
    else (applyEventText parse decoder text).mapError .response
  | .binary => .error (streamFailure "Responses WebSocket 收到不支持的 binary frame")
  | .closed code =>
    if code = some 1009 then
      .error (.response (.status 502 "\x7b\"error\":\x7b\"code\":\"websocket_message_too_big\"\x7d\x7d"))
    else .error (streamFailure ("Responses WebSocket 在完整终态前关闭" ++
      (code.map fun code => " (code=" ++ toString code ++ ")").getD ""))
  | .transportFailure => .error (streamFailure "Responses WebSocket 接收失败")

def deltaSteps (emitted : Option String) : List Step := emitted.toList.map Step.textDelta

/-- The loop over the frames of one response.  `overdue` says that the time for the request runs
out behind the last of them; else it is the channel that ends there. -/
def readFrames (overdue : Bool) (decoder : ResponsesEventDecoder) :
    List IncomingMessage → List Step × Except WebSocketRequestFailure ReducedResponses
  | [] => ([], .error (streamFailure (if overdue then "Responses WebSocket request 在完整终态前超时"
      else "Responses WebSocket 事件通道提前结束")))
  | frame :: frames =>
    match applyFrame parse decoder frame with
    | .error failure => ([.received frame], .error failure)
    | .ok applied =>
      if applied.terminal then
        (.received frame :: deltaSteps applied.emitted,
          (finish parse applied.decoder true).mapError .response)
      else
        let rest := readFrames overdue applied.decoder frames
        (.received frame :: (deltaSteps applied.emitted ++ rest.1), rest.2)

/-- What happens to one request between the caller, the connection's actor and the peer. -/
structure Exchange where
  /-- The actor takes the command. -/
  accepts : Bool
  /-- The actor's readiness reaches the caller in time. -/
  ready : Bool
  /-- Why `request_started` refuses. -/
  refusal : Option String
  /-- The actor still waits for the permission. -/
  waiting : Bool
  /-- The frame is written, and the caller learns so in time. -/
  acknowledged : Bool
  frames : List IncomingMessage
  overdue : Bool

def actorSteps : Option Bool → List Step
  | some true => [.sent]
  | _ => []

def runResponse (previousAttemptAmbiguous : Bool) (exchange : Exchange) :
    List Step × Except WebSocketRequestFailure ReducedResponses :=
  if exchange.accepts = false then
    ([], .error (streamFailure "WebSocket connection actor 已停止"))
  else if exchange.ready = false then
    ([], .error (streamFailure "WebSocket request 发送就绪确认丢失"))
  else
    match exchange.refusal with
    | some reason => (.requestStarted previousAttemptAmbiguous false :: actorSteps (some false),
        .error (.response (.requestPreparation reason)))
    | none =>
      if exchange.waiting = false then
        (.requestStarted previousAttemptAmbiguous true :: actorSteps none,
          .error (streamFailure "WebSocket request 发送许可丢失"))
      else if exchange.acknowledged = false then
        (.requestStarted previousAttemptAmbiguous true :: actorSteps (some true),
          .error (streamFailure "WebSocket request frame 发送失败"))
      else
        let read := readFrames parse exchange.overdue {} exchange.frames
        (.requestStarted previousAttemptAmbiguous true :: (actorSteps (some true) ++ read.1),
          read.2)

end

/-- What an attempt of `acquire_connection` comes to, and with a connection the exchange on it. -/
inductive Acquired
  | interrupted
  | sticky
  | failed (failure : ConnectFailure)
  | unserializable (reason : String)
  | connected (exchange : Exchange) (interruptedAfter : Bool)

structure Attempt where
  acquired : Acquired
  /-- The recovery is interrupted while the call waits for its next attempt. -/
  waitInterrupted : Bool

structure Sending where
  attempt : Nat := 0
  forceFullHistory : Bool := false
  previousStateRecoveryUsed : Bool := false
  previousAttemptAmbiguous : Bool := false

structure Settings where
  retryCount : Nat
  retryAfterPartial : Bool

inductive Next
  | again (sending : Sending)
  | done (result : Except ResponsesError WebSocketSendOutcome)

def fallback (previousAttemptAmbiguous : Bool) : Next :=
  .done (.ok (.fallbackToHttp previousAttemptAmbiguous))

/-- `wait_before_retry`, and the attempt behind it. -/
def retry (waitInterrupted previousAttemptAmbiguous : Bool) (sending : Sending) : Next :=
  if waitInterrupted then .done (.error .recoveryInterrupted)
  else .again { sending with
    attempt := sending.attempt + 1, forceFullHistory := true, previousAttemptAmbiguous }

def afterConnectFailure (settings : Settings) (sending : Sending) (waitInterrupted : Bool) :
    ConnectFailure → List Step × Next
  | .immediateDowngrade => ([.markedSticky], fallback sending.previousAttemptAmbiguous)
  | .poolTimeout _ => ([], fallback sending.previousAttemptAmbiguous)
  | .deterministic error => ([], .done (.error error))
  | .retryable _ =>
    if sending.attempt < settings.retryCount then
      ([], retry waitInterrupted sending.previousAttemptAmbiguous sending)
    else ([.markedSticky], fallback sending.previousAttemptAmbiguous)
  | .transientStatus _ =>
    if sending.attempt < settings.retryCount then
      ([], retry waitInterrupted sending.previousAttemptAmbiguous sending)
    else ([.clearedChain], fallback sending.previousAttemptAmbiguous)

def chainStep (error : ResponsesError) : Step :=
  if websocketErrorTriggersStickyDowngrade error then .markedSticky else .clearedChain

def afterFailure (settings : Settings) (sending : Sending) (waitInterrupted emitted : Bool) :
    WebSocketRequestFailure → List Step × Next
  | .previousResponseNotFound =>
    if sending.previousStateRecoveryUsed = false then
      ([.clearedChain], .again { sending with
        forceFullHistory := true, previousStateRecoveryUsed := true
        previousAttemptAmbiguous := false })
    else ([.clearedChain], fallback false)
  | .connectionLimit =>
    if sending.attempt < settings.retryCount then ([], retry waitInterrupted false sending)
    else ([.clearedChain], fallback false)
  | .response error =>
    if isExplicitWebsocketMessageTooBig error then
      ([.clearedChain],
        if emitted && !settings.retryAfterPartial then .done (.error error) else fallback false)
    else if emitted && !settings.retryAfterPartial then
      ([chainStep error], .done (.error error))
    else if websocketErrorIsRetryable error then
      if sending.attempt < settings.retryCount then
        ([], retry waitInterrupted (websocketResponseAttemptAmbiguous error) sending)
      else ([chainStep error], fallback (websocketResponseAttemptAmbiguous error))
    else ([.clearedChain], .done (.error error))

def afterResponse (reduced : ReducedResponses) : List Step × Next :=
  match reduced.responseId with
  | none => ([], .done (.error
      (.streamFailure "Responses WebSocket terminal response 缺少合法 id")))
  | some responseId => ([.released (some responseId)], .done (.ok (.response reduced)))

def isTextDelta : Step → Bool
  | .textDelta _ => true
  | _ => false

variable (parse : List Char → Option Json)

variable (settings : Settings)

def settle (sending : Sending) (waitInterrupted interruptedAfter : Bool) (steps : List Step)
    (result : Except WebSocketRequestFailure ReducedResponses) : List Step × Next :=
  match interruptedAfter, result with
  | true, .ok reduced => ([.clearedChain, .released none], .done (.ok (.response reduced)))
  | true, .error _ => ([.clearedChain], .done (.error .recoveryInterrupted))
  | false, .ok reduced => afterResponse reduced
  | false, .error failure =>
    afterFailure settings sending waitInterrupted (steps.any isTextDelta) failure

/-- One round of the loop of `send_with_retry_count_for_scope_and_start_hook`. -/
def attemptOnce (sending : Sending) (attempt : Attempt) : List Step × Next :=
  match attempt.acquired with
  | .interrupted =>
    ([.acquiring sending.forceFullHistory], .done (.error .recoveryInterrupted))
  | .sticky => ([.acquiring sending.forceFullHistory], fallback sending.previousAttemptAmbiguous)
  | .failed failure =>
    let after := afterConnectFailure settings sending attempt.waitInterrupted failure
    (.acquiring sending.forceFullHistory :: after.1, after.2)
  | .unserializable reason =>
    ([.acquiring sending.forceFullHistory], .done (.error (.responseJson reason)))
  | .connected exchange interruptedAfter =>
    let run := runResponse parse sending.previousAttemptAmbiguous exchange
    let after := settle settings sending attempt.waitInterrupted interruptedAfter run.1 run.2
    (.acquiring sending.forceFullHistory :: (run.1 ++ after.1), after.2)

def sendLoop (settings : Settings) (sending : Sending) : List Attempt →
    List (List Step) × Option (Except ResponsesError WebSocketSendOutcome)
  | [] => ([], none)
  | attempt :: attempts =>
    let round := attemptOnce parse settings sending attempt
    match round.2 with
    | .done result => ([round.1], some result)
    | .again next =>
      let rest := sendLoop settings next attempts
      (round.1 :: rest.1, rest.2)

inductive Entry
  | interrupted
  | sticky
  | malformed (error : ResponsesError)
  | ready

def sendWithRetryCount (entry : Entry) (attempts : List Attempt) :
    List (List Step) × Option (Except ResponsesError WebSocketSendOutcome) :=
  match entry with
  | .interrupted => ([], some (.error .recoveryInterrupted))
  | .sticky => ([], some (.ok (.fallbackToHttp false)))
  | .malformed error => ([], some (.error error))
  | .ready => sendLoop parse settings {} attempts

end AgentClaimNetwork.Api.Responses
