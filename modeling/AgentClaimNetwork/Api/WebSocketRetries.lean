import AgentClaimNetwork.Api.WebSocketSend

/-!
What a call over WebSocket shows to the outside, whatever fails in its attempts.
-/

namespace AgentClaimNetwork.Api.Responses

open Library List

variable (parse : List Char → Option Json) {decoder : ResponsesEventDecoder}
  {failure : WebSocketRequestFailure} {settings : Settings}

def refusesRequest : IncomingMessage → Bool
  | .text text =>
    websocketErrorCode parse text = some "previous_response_not_found" ||
      websocketErrorCode parse text = some "websocket_connection_limit_reached"
  | _ => false

def refusesSize (frame : IncomingMessage) : Bool :=
  match applyFrame parse {} frame with
  | .error (.response error) => isExplicitWebsocketMessageTooBig error
  | _ => false

def provesNotRun (frame : IncomingMessage) : Bool := refusesRequest parse frame || refusesSize parse frame

def feed (decoder : ResponsesEventDecoder) : List IncomingMessage → Option (List String)
  | [] => some []
  | frame :: frames =>
    match applyFrame parse decoder frame with
    | .error _ => none
    | .ok applied =>
      if applied.terminal then none
      else (feed applied.decoder frames).map (applied.emitted.toList ++ ·)

structure Exchange.Confirmed (exchange : Exchange) : Prop where
  accepts : exchange.accepts = true
  ready : exchange.ready = true
  allowed : exchange.refusal = none
  waiting : exchange.waiting = true
  acknowledged : exchange.acknowledged = true

def unguarded (settings : Settings) (frame : IncomingMessage) : Bool :=
  refusesRequest parse frame || (settings.retryAfterPartial && refusesSize parse frame)

def Derailed (settings : Settings) (attempt : Attempt) : Prop :=
  ∃ exchange before frame after texts,
    attempt.acquired = .connected exchange false ∧ exchange.Confirmed ∧
    exchange.frames = before ++ frame :: after ∧ feed parse {} before = some texts ∧
    texts ≠ [] ∧ unguarded parse settings frame = true

def isStart : Step → Bool
  | .requestStarted _ _ => true
  | _ => false

def receivedFrame : Step → Option IncomingMessage
  | .received frame => some frame
  | _ => none

def NotRun (steps : List Step) : Prop :=
  (∃ frame, (steps.filterMap receivedFrame).getLast? = some frame ∧
    provesNotRun parse frame = true) ∧ steps.any isTextDelta = false

def Permitted (steps : List Step) : Prop :=
  ∀ before after, steps = before ++ .sent :: after → ∃ ambiguous, .requestStarted ambiguous true ∈ before

def FallsBack (result : Option (Except ResponsesError WebSocketSendOutcome)) : Prop :=
  ∃ ambiguous, result = some (.ok (.fallbackToHttp ambiguous))

structure Contract (settings : Settings) (trace : List (List Step))
    (result : Option (Except ResponsesError WebSocketSendOutcome)) : Prop where
  shownOnce : settings.retryAfterPartial = false → ∀ earlier steps later,
    trace = earlier ++ steps :: later → steps.any isTextDelta = true →
      later = [] ∧ ¬ FallsBack result
  bounded : trace.flatten.countP isStart ≤ settings.retryCount + 2
  permitted : ∀ steps ∈ trace, Permitted steps
  resolved : result = some (.ok (.fallbackToHttp false)) → ∀ earlier steps later,
    trace = earlier ++ steps :: later → steps.any isStart = true →
      (∀ other ∈ later, other.any isStart = false) → NotRun parse steps

section

def Settled (error : ResponsesError) : Prop :=
  websocketErrorIsRetryable error = true → isExplicitWebsocketMessageTooBig error = false →
    websocketResponseAttemptAmbiguous error = true

def isStatus : ResponsesError → Bool
  | .status _ _ => true
  | _ => false

variable {error : ResponsesError}

theorem settled_of_plain (plain : isStatus error = false) : Settled error := by
  intro retryable _
  cases error with
  | status => cases plain
  | streamFailure => rfl
  | failed => exact retryable
  | http | auth | responseJson | invalidEndpoint | outputShape | incomplete | recoveryInterrupted
  | requestPreparation => cases retryable

theorem tooBig_isStatus
    (tooBig : isExplicitWebsocketMessageTooBig error = true) : isStatus error = true := by
  cases error with
  | status => rfl
  | _ => cases tooBig

variable {parse}

theorem responseStreamError_settled (event : Json) (error : Option Json) :
    Settled (responseStreamError parse event error) := by
  unfold responseStreamError
  split
  · exact settled_of_plain rfl
  · rename_i status _
    by_cases large : (decide (status = 413) || isExplicitWebsocketMessageTooBig
        (.status status (normalizeResponsesErrorBody parse (String.ofList event.render)))) = true
    · rw [if_pos large]
      intro retryable fits
      rw [fits, Bool.or_false] at large
      rw [of_decide_eq_true large] at retryable
      cases retryable
    · rw [if_neg large]
      split
      · exact settled_of_plain rfl
      · by_cases busy : (decide (status = 429) || decide (500 ≤ status)) = true
        · rw [if_pos busy]
          exact settled_of_plain rfl
        · rw [if_neg busy]
          exact fun retryable _ => absurd retryable busy

theorem responseTerminal_plain (failed : responseTerminal parse value = .error error) :
    isStatus error = false := by
  unfold responseTerminal at failed
  split at failed
  · cases failed
    rfl
  · dsimp only at failed
    split_ifs at failed <;> cases failed <;> rfl

theorem reduceResponseValue_plain (failed : reduceResponseValue parse value = .error error) :
    isStatus error = false := by
  unfold reduceResponseValue at failed
  split_ifs at failed
  · cases failed
    rfl
  · split at failed
    · rename_i terminalFailed
      cases failed
      exact responseTerminal_plain terminalFailed
    · split at failed
      · cases failed
        rfl
      · split at failed <;> cases failed
        rfl

theorem contiguous_plain (failed : contiguous expected items = .error error) :
    isStatus error = false := by
  induction items generalizing expected with
  | nil => cases failed
  | cons first items ih =>
    obtain ⟨index, item⟩ := first
    simp only [contiguous] at failed
    split_ifs at failed
    · cases failed
      rfl
    · cases rest : contiguous (expected + 1) items with
      | error reason =>
        rw [rest] at failed
        cases failed
        exact ih rest
      | ok => rw [rest] at failed; cases failed

theorem finish_plain (failed : finish parse decoder required = .error error) :
    isStatus error = false := by
  unfold finish at failed
  split at failed
  · cases failed
    rfl
  · split at failed
    · cases failed
      rfl
    · split at failed
      · cases failed
        rfl
      · cases failed
        rfl
      · split at failed
        · cases failed
          rfl
        · split at failed
          · rename_i gap
            cases failed
            exact contiguous_plain gap
          · split at failed
            · cases failed
              rfl
            · exact reduceResponseValue_plain failed

theorem applyItemDone_plain (failed : applyItemDone decoder event = .error error) :
    isStatus error = false := by
  unfold applyItemDone at failed
  split at failed
  · cases failed
    rfl
  · cases failed
    rfl
  · split_ifs at failed
    cases failed
    rfl

theorem applyEvent_error (failed : applyEvent parse decoder event kind = .error error) :
    isStatus error = false ∨ (Settled error ∧ applyEvent parse {} event kind = .error error) := by
  unfold applyEvent at failed ⊢
  split at failed
  · split at failed <;> cases failed
    exact .inl rfl
  · split at failed
    · split at failed <;> cases failed
      exact .inl rfl
    · split at failed
      · exact .inl (applyItemDone_plain failed)
      · split at failed
        · rename_i text refusal item failure
          cases failed
          rw [if_neg text, if_neg refusal, if_neg item, if_pos failure]
          exact .inr ⟨responseStreamError_settled _ _, rfl⟩
        · split at failed
          · rename_i text refusal item failure reported
            cases failed
            rw [if_neg text, if_neg refusal, if_neg item, if_neg failure, if_pos reported]
            exact .inr ⟨responseStreamError_settled _ _, rfl⟩
          · split at failed
            · cases failed
            · split at failed <;> cases failed
              exact .inl rfl

theorem applyEventText_error (failed : applyEventText parse decoder data = .error error) :
    isStatus error = false ∨ (Settled error ∧ applyEventText parse {} data = .error error) := by
  unfold applyEventText at failed ⊢
  by_cases done : TornLog.trim data = "[DONE]".toList
  · rw [if_pos done] at failed
    cases failed
  · rw [if_neg done] at failed ⊢
    split at failed
    · cases failed
      exact .inl rfl
    · split at failed
      · cases failed
        exact .inl rfl
      · rename_i event _ kind _
        split at failed
        · cases failed
          exact .inl rfl
        · exact applyEvent_error failed

end

section

def Refusal (frame : IncomingMessage) (failure : WebSocketRequestFailure) : Prop :=
  (refusesRequest parse frame = true ∧
      (failure = .previousResponseNotFound ∨ failure = .connectionLimit)) ∨
    (refusesSize parse frame = true ∧ ∃ error, failure = .response error ∧
      isExplicitWebsocketMessageTooBig error = true)

def Open (failure : WebSocketRequestFailure) : Prop :=
  ∃ error, failure = .response error ∧ Settled error ∧ isExplicitWebsocketMessageTooBig error = false

variable {parse}

theorem open_of_plain {error : ResponsesError} (plain : isStatus error = false) :
    Open (.response error) := by
  refine ⟨error, rfl, settled_of_plain plain, ?_⟩
  rw [Bool.eq_false_iff]
  intro tooBig
  rw [tooBig_isStatus tooBig] at plain
  cases plain

theorem mapError_error {α : Type} {result : Except ResponsesError α}
    (failed : result.mapError WebSocketRequestFailure.response = .error failure) :
    ∃ error, result = .error error ∧ failure = .response error := by
  cases result with
  | ok => cases failed
  | error error => exact ⟨error, rfl, (Except.error.inj failed).symm⟩

theorem applyFrame_error {frame : IncomingMessage}
    (failed : applyFrame parse decoder frame = .error failure) :
    Open failure ∨ Refusal parse frame failure := by
  cases frame with
  | binary | transportFailure => exact .inl (Except.error.inj failed ▸ open_of_plain rfl)
  | closed code =>
    simp only [applyFrame] at failed
    split at failed
    · rename_i large
      subst large
      cases failed
      exact .inr (.inr ⟨by simp only [refusesSize, applyFrame, ↓reduceIte]; decide +kernel,
        _, rfl, by decide +kernel⟩)
    · exact .inl (Except.error.inj failed ▸ open_of_plain rfl)
  | text text =>
    simp only [applyFrame] at failed
    split at failed
    · rename_i lost
      cases failed
      exact .inr (.inl ⟨by simp [refusesRequest, lost], .inl rfl⟩)
    · split at failed
      · rename_i limited
        cases failed
        exact .inr (.inl ⟨by simp [refusesRequest, limited], .inr rfl⟩)
      · rename_i kept unlimited
        obtain ⟨error, applied, rfl⟩ := mapError_error failed
        obtain plain | ⟨settled, same⟩ := applyEventText_error applied
        · exact .inl (open_of_plain plain)
        · cases large : isExplicitWebsocketMessageTooBig error with
          | false => exact .inl ⟨error, rfl, settled, large⟩
          | true =>
            refine .inr (.inr ⟨?_, error, rfl, large⟩)
            simp only [refusesSize, applyFrame, if_neg kept, if_neg unlimited, same]
            exact large

theorem any_deltaSteps (emitted : Option String) :
    (deltaSteps emitted).any isTextDelta = emitted.isSome := by
  cases emitted <;> rfl

structure StoppedAt (parse : List Char → Option Json) (frames : List IncomingMessage)
    (decoder : ResponsesEventDecoder) (steps : List Step) (frame : IncomingMessage)
    (texts : List String) : Prop where
  reached : ∃ before after, frames = before ++ frame :: after ∧ feed parse decoder before = some texts
  last : (steps.filterMap receivedFrame).getLast? = some frame
  shown : steps.any isTextDelta = !texts.isEmpty

theorem readFrames_error {frames : List IncomingMessage}
    (failed : (readFrames parse overdue decoder frames).2 = .error failure) :
    Open failure ∨ ∃ frame texts, Refusal parse frame failure ∧
      StoppedAt parse frames decoder (readFrames parse overdue decoder frames).1
        frame texts := by
  induction frames generalizing decoder with
  | nil =>
    left
    cases failed
    exact open_of_plain rfl
  | cons frame frames ih =>
    simp only [readFrames] at failed ⊢
    cases applied : applyFrame parse decoder frame with
    | error reason =>
      simp only [applied] at failed ⊢
      cases failed
      obtain settled | refusal := applyFrame_error applied
      · exact .inl settled
      · exact .inr ⟨frame, [], refusal, ⟨[], frames, rfl, rfl⟩, rfl, rfl⟩
    | ok next =>
      simp only [applied] at failed ⊢
      cases ends : next.terminal with
      | true =>
        simp only [ends, ↓reduceIte] at failed
        obtain ⟨error, finished, rfl⟩ := mapError_error failed
        exact .inl (open_of_plain (finish_plain finished))
      | false =>
        simp only [ends, Bool.false_eq_true, ↓reduceIte] at failed ⊢
        obtain settled | ⟨stop, texts, refusal, stopped⟩ := ih failed
        · exact .inl settled
        · obtain ⟨before, after, split, fed⟩ := stopped.reached
          refine .inr ⟨stop, next.emitted.toList ++ texts, refusal,
            ⟨frame :: before, after, by rw [split]; rfl, ?_⟩, ?_, ?_⟩
          · simp [feed, applied, ends, fed]
          · have quiet : (deltaSteps next.emitted).filterMap receivedFrame = [] := by
              cases next.emitted <;> rfl
            simp only [filterMap_cons, receivedFrame, filterMap_append, quiet,
              nil_append]
            rw [List.getLast?_cons, stopped.last]
            rfl
          · simp only [any_cons, any_append, any_deltaSteps, stopped.shown,
              isTextDelta, Bool.false_or]
            cases next.emitted <;> simp

end

section

variable {parse} {ambiguous : Bool} {exchange : Exchange}

theorem readFrames_starts (overdue : Bool) (decoder : ResponsesEventDecoder)
    (frames : List IncomingMessage) :
    ∀ step ∈ (readFrames parse overdue decoder frames).1, isStart step = false ∧ step ≠ .sent := by
  have texts : ∀ (emitted : Option String), ∀ step ∈ deltaSteps emitted,
      isStart step = false ∧ step ≠ .sent := by
    intro emitted step member
    obtain ⟨text, _, rfl⟩ := mem_map.mp member
    exact ⟨rfl, nofun⟩
  induction frames generalizing decoder with
  | nil => exact nofun
  | cons frame frames ih =>
    intro step member
    simp only [readFrames] at member
    split at member
    · rw [mem_singleton.mp member]
      exact ⟨rfl, nofun⟩
    · split at member
      · rcases mem_cons.mp member with rfl | member
        · exact ⟨rfl, nofun⟩
        · exact texts _ _ member
      · rcases mem_cons.mp member with rfl | member
        · exact ⟨rfl, nofun⟩
        · rcases mem_append.mp member with member | member
          · exact texts _ _ member
          · exact ih _ _ member

inductive Outline (ambiguous : Bool) : List Step → Prop
  | idle : Outline ambiguous []
  | refused : Outline ambiguous [.requestStarted ambiguous false]
  | unsent : Outline ambiguous [.requestStarted ambiguous true]
  | sent (rest : List Step) (quiet : ∀ step ∈ rest, isStart step = false ∧ step ≠ .sent) :
      Outline ambiguous (.requestStarted ambiguous true :: .sent :: rest)

theorem runResponse_outline :
    Outline ambiguous (runResponse parse ambiguous exchange).1 := by
  unfold runResponse
  split
  · exact .idle
  · split
    · exact .idle
    · split
      · exact .refused
      · split
        · exact .unsent
        · split
          · exact .sent [] nofun
          · exact .sent _ (readFrames_starts _ _ _)

theorem runResponse_error {failure : WebSocketRequestFailure}
    (failed : (runResponse parse ambiguous exchange).2 = .error failure) :
    Open failure ∨ ∃ frame texts, exchange.Confirmed ∧ Refusal parse frame failure ∧
      StoppedAt parse exchange.frames {} (runResponse parse ambiguous exchange).1
        frame texts := by
  unfold runResponse at failed ⊢
  split at failed
  · exact .inl (Except.error.inj failed ▸ open_of_plain rfl)
  · rename_i accepts
    rw [if_neg accepts]
    split at failed
    · exact .inl (Except.error.inj failed ▸ open_of_plain rfl)
    · rename_i ready
      rw [if_neg ready]
      split at failed
      · exact .inl (Except.error.inj failed ▸ open_of_plain rfl)
      · rename_i allowed
        split at failed
        · exact .inl (Except.error.inj failed ▸ open_of_plain rfl)
        · rename_i waiting
          split at failed
          · exact .inl (Except.error.inj failed ▸ open_of_plain rfl)
          · rename_i acknowledged
            obtain settled | ⟨frame, texts, refusal, stopped⟩ := readFrames_error failed
            · exact .inl settled
            · refine .inr ⟨frame, texts, ?_, refusal, ?_⟩
              · simp only [Bool.not_eq_false] at accepts ready waiting acknowledged
                exact ⟨accepts, ready, allowed, waiting, acknowledged⟩
              · simp only [if_neg waiting, if_neg acknowledged]
                exact ⟨stopped.reached, stopped.last, stopped.shown⟩

end

section

variable {parse} {sending : Sending} {attempt : Attempt}

def Cleared (parse : List Char → Option Json) (sending : Sending) (steps : List Step) : Prop :=
  (steps.any isStart = false ∧ sending.previousAttemptAmbiguous = false) ∨ NotRun parse steps

def Next.Confident : Next → Prop
  | .again sending => sending.previousAttemptAmbiguous = false
  | .done result => ∃ ambiguous, result = .ok (.fallbackToHttp ambiguous) ∧ ambiguous = false

def Next.Closed : Next → Prop
  | .again _ => False
  | .done result => ∀ ambiguous, result ≠ .ok (.fallbackToHttp ambiguous)

def budget (settings : Settings) (sending : Sending) : Nat :=
  (settings.retryCount - sending.attempt) + if sending.previousStateRecoveryUsed then 0 else 1

def isPoolStep : Step → Bool
  | .clearedChain | .markedSticky | .released _ => true
  | _ => false

structure RoundSteps (sending : Sending) (steps run : List Step) : Prop where
  outline : Outline sending.previousAttemptAmbiguous run
  around : ∃ after, steps = .acquiring sending.forceFullHistory :: (run ++ after) ∧
    ∀ step ∈ after, isPoolStep step = true

namespace RoundSteps

variable {steps run : List Step} (round : RoundSteps sending steps run)

include round

theorem any_eq (acquiring : ∀ force, predicate (.acquiring force) = false)
    (pool : ∀ step, isPoolStep step = true → predicate step = false) :
    steps.any predicate = run.any predicate := by
  obtain ⟨after, rfl, quiet⟩ := round.around
  have silent : after.any predicate = false :=
    any_eq_false.mpr fun step member => by simp [pool step (quiet step member)]
  simp [acquiring, silent]

theorem starts : steps.any isStart = run.any isStart :=
  round.any_eq (fun _ => rfl) fun step pool => by cases step <;> first | rfl | cases pool

theorem texts : steps.any isTextDelta = run.any isTextDelta :=
  round.any_eq (fun _ => rfl) fun step pool => by cases step <;> first | rfl | cases pool

theorem frames : steps.filterMap receivedFrame = run.filterMap receivedFrame := by
  obtain ⟨after, rfl, quiet⟩ := round.around
  have silent : after.filterMap receivedFrame = [] :=
    filterMap_eq_nil_iff.mpr fun step member => by
      have pool := quiet step member
      cases step <;> first | rfl | cases pool
  simp [filterMap_cons, receivedFrame, silent]

theorem started : steps.countP isStart ≤ 1 := by
  obtain ⟨after, rfl, quiet⟩ := round.around
  have silent : after.countP isStart = 0 := countP_eq_zero.mpr fun step member => by
    have pool := quiet step member
    cases step <;> first | exact Bool.false_ne_true | cases pool
  have few : run.countP isStart ≤ 1 := by
    cases round.outline with
    | idle => exact Nat.zero_le 1
    | refused | unsent => exact le_refl 1
    | sent rest others =>
      have none : rest.countP isStart = 0 := countP_eq_zero.mpr fun step member => by
        simp [(others step member).1]
      simp [countP_cons, isStart, none]
  simpa [countP_cons, isStart, silent] using few

theorem permitted : Permitted steps := by
  obtain ⟨after, rfl, quiet⟩ := round.around
  have silent : .sent ∉ after := fun member => by cases quiet _ member
  have unsentPermitted (begun : List Step) (unsent : .sent ∉ begun) : Permitted begun := by
    intro before later split
    exact absurd (split ▸ by simp) unsent
  cases round.outline with
  | idle | refused | unsent => exact unsentPermitted _ (by simpa using silent)
  | sent rest others =>
    intro before later split
    refine ⟨sending.previousAttemptAmbiguous, ?_⟩
    match before, split with
    | first :: second :: before, split =>
      obtain ⟨_, rfl, _⟩ : _ ∧ _ ∧ _ := by simpa using split
      simp
    | [first], split | [], split => simp at split

end RoundSteps

theorem chainStep_pool (error : ResponsesError) : isPoolStep (chainStep error) = true := by
  unfold chainStep
  split <;> rfl

theorem afterConnectFailure_pool {waitInterrupted : Bool} {failure : ConnectFailure} :
    ∀ step ∈ (afterConnectFailure settings sending waitInterrupted failure).1,
      isPoolStep step = true := by
  unfold afterConnectFailure
  split
  · simp [isPoolStep]
  · exact nofun
  · exact nofun
  all_goals split <;> simp [isPoolStep]

theorem afterFailure_pool :
    ∀ step ∈ (afterFailure settings sending waitInterrupted emitted failure).1,
      isPoolStep step = true := by
  unfold afterFailure
  split
  · split <;> simp [isPoolStep]
  · split <;> simp [isPoolStep]
  · split
    · simp [isPoolStep]
    · split
      · simp [chainStep_pool]
      · split
        · split <;> simp [chainStep_pool]
        · simp [isPoolStep]

theorem settle_pool :
    ∀ step ∈ (settle settings sending waitInterrupted interruptedAfter run result).1,
      isPoolStep step = true := by
  unfold settle
  split
  · simp [isPoolStep]
  · simp [isPoolStep]
  · unfold afterResponse
    split <;> simp [isPoolStep]
  · exact afterFailure_pool

def exchangeSteps (parse : List Char → Option Json) (sending : Sending) (attempt : Attempt) :
    List Step :=
  match attempt.acquired with
  | .connected exchange _ => (runResponse parse sending.previousAttemptAmbiguous exchange).1
  | _ => []

theorem attemptOnce_round (parse : List Char → Option Json) (settings : Settings) (sending : Sending) (attempt : Attempt) :
    RoundSteps sending (attemptOnce parse settings sending attempt).1
      (exchangeSteps parse sending attempt) := by
  unfold attemptOnce exchangeSteps
  cases attempt.acquired with
  | interrupted | sticky | unserializable => exact ⟨.idle, [], rfl, nofun⟩
  | failed => exact ⟨.idle, _, rfl, afterConnectFailure_pool⟩
  | connected => exact ⟨runResponse_outline, _, rfl, settle_pool⟩

theorem budget_retry {sending after : Sending} {waitInterrupted ambiguous : Bool}
    (left : sending.attempt < settings.retryCount)
    (again : retry waitInterrupted ambiguous sending = .again after) :
    budget settings after < budget settings sending := by
  unfold retry at again
  split at again
  · cases again
  · cases again
    simp only [budget]
    omega

theorem attemptOnce_spends {after : Sending}
    (again : (attemptOnce parse settings sending attempt).2 = .again after) :
    budget settings after < budget settings sending := by
  unfold attemptOnce at again
  split at again
  · cases again
  · cases again
  · unfold afterConnectFailure at again
    split at again
    · cases again
    · cases again
    · cases again
    all_goals
      split at again
      · exact budget_retry ‹_› again
      · cases again
  · cases again
  · simp only [settle] at again
    split at again
    · cases again
    · cases again
    · unfold afterResponse at again
      split at again <;> cases again
    · unfold afterFailure at again
      split at again
      · split at again
        · rename_i unused
          cases again
          simp [budget, unused]
        · cases again
      · split at again
        · exact budget_retry ‹_› again
        · cases again
      · split at again
        · split at again <;> cases again
        · split at again
          · cases again
          · split at again
            · split at again
              · exact budget_retry ‹_› again
              · cases again
            · cases again

theorem Refusal.texts_nil {exchange : Exchange} {run : List Step}
    (kept : ¬ Derailed parse settings attempt)
    (acquired : attempt.acquired = .connected exchange false) (confirmed : exchange.Confirmed)
    (stopped : StoppedAt parse exchange.frames {} run frame texts)
    (refusal : Refusal parse frame failure)
    (guarded : settings.retryAfterPartial = true ∨ ∀ error, failure ≠ .response error) :
    texts = [] := by
  by_contra shown
  obtain ⟨before, after, split, fed⟩ := stopped.reached
  refine kept ⟨exchange, before, frame, after, texts, acquired, confirmed, split, fed, shown, ?_⟩
  rcases refusal with ⟨refused, _⟩ | ⟨large, error, rfl, _⟩
  · simp [unguarded, refused]
  · rcases guarded with partialRetried | other
    · simp [unguarded, large, partialRetried]
    · exact absurd rfl (other error)

theorem Refusal.proves
    (refusal : Refusal parse frame failure) : provesNotRun parse frame = true := by
  rcases refusal with ⟨refused, _⟩ | ⟨large, _⟩
  · simp [provesNotRun, refused]
  · simp [provesNotRun, large]

theorem Cleared.notRun {steps : List Step} (cleared : Cleared parse sending steps)
    (started : steps.any isStart = true) : NotRun parse steps := by
  rcases cleared with ⟨unstarted, _⟩ | notRun
  · rw [started] at unstarted
    cases unstarted
  · exact notRun

theorem Cleared.unambiguous {steps run : List Step} (cleared : Cleared parse sending steps)
    (round : RoundSteps sending steps run) (unstarted : steps.any isStart = false) :
    sending.previousAttemptAmbiguous = false := by
  rcases cleared with ⟨_, unambiguous⟩ | ⟨⟨frame, last, _⟩, _⟩
  · exact unambiguous
  · rw [round.starts] at unstarted
    rw [round.frames] at last
    cases round.outline with
    | idle => cases last
    | refused | unsent | sent => cases unstarted

theorem Next.Closed.not_confident {next : Next} (closed : next.Closed) : ¬ next.Confident := by
  cases next with
  | again => exact closed.elim
  | done =>
    rintro ⟨ambiguous, ends, _⟩
    exact closed ambiguous ends

theorem retry_unsure : ¬ (retry waitInterrupted true sending).Confident := by
  unfold retry
  split
  · rintro ⟨ambiguous, ends, _⟩
    cases ends
  · exact Bool.true_eq_false_eq_False

theorem afterFailure_open (unclear : Open failure) :
    ¬ (afterFailure settings sending waitInterrupted emitted failure).2.Confident := by
  obtain ⟨error, rfl, settled, fits⟩ := unclear
  simp only [afterFailure, fits, Bool.false_eq_true, ↓reduceIte]
  split
  · rintro ⟨ambiguous, ends, _⟩
    cases ends
  · split
    · rename_i retryable
      rw [settled retryable fits]
      split
      · exact retry_unsure
      · rintro ⟨ambiguous, ends, sure⟩
        cases ends
        cases sure
    · rintro ⟨ambiguous, ends, _⟩
      cases ends

theorem afterFailure_shown {error : ResponsesError} (strict : settings.retryAfterPartial = false) :
    (afterFailure settings sending waitInterrupted true (.response error)).2.Closed := by
  simp only [afterFailure, strict, Bool.not_false, Bool.and_true, ↓reduceIte]
  split <;> exact nofun

theorem afterResponse_closed (reduced : ReducedResponses) : (afterResponse reduced).2.Closed := by
  unfold afterResponse
  split <;> exact nofun

theorem settle_failed {run : List Step} :
    settle settings sending waitInterrupted false run (.error failure) =
      afterFailure settings sending waitInterrupted (run.any isTextDelta) failure := rfl

theorem attemptOnce_shown (kept : ¬ Derailed parse settings attempt)
    (strict : settings.retryAfterPartial = false)
    (shown : (attemptOnce parse settings sending attempt).1.any isTextDelta = true) :
    (attemptOnce parse settings sending attempt).2.Closed := by
  rw [(attemptOnce_round parse settings sending attempt).texts] at shown
  unfold attemptOnce
  unfold exchangeSteps at shown
  cases acquired : attempt.acquired with
  | connected exchange interruptedAfter =>
    simp only [acquired] at shown ⊢
    cases ran : (runResponse parse sending.previousAttemptAmbiguous exchange).2 with
    | ok reduced =>
      cases interruptedAfter with
      | true => exact nofun
      | false => exact afterResponse_closed reduced
    | error failure =>
      cases interruptedAfter with
      | true => exact nofun
      | false =>
        rw [settle_failed, shown]
        obtain ⟨error, rfl, _⟩ | ⟨frame, texts, confirmed, refusal, stopped⟩ :=
          runResponse_error ran
        · exact afterFailure_shown strict
        · cases failure with
          | response => exact afterFailure_shown strict
          | previousResponseNotFound | connectionLimit =>
            have silent := refusal.texts_nil kept acquired confirmed stopped (.inr nofun)
            rw [stopped.shown, silent] at shown
            cases shown
  | interrupted | unserializable | sticky | failed =>
    rw [acquired] at shown
    cases shown

theorem afterConnectFailure_confident {failure : ConnectFailure}
    (confident : (afterConnectFailure settings sending waitInterrupted failure).2.Confident) :
    sending.previousAttemptAmbiguous = false := by
  have fallen (confident : (fallback sending.previousAttemptAmbiguous).Confident) :
      sending.previousAttemptAmbiguous = false := by
    obtain ⟨ambiguous, ends, sure⟩ := confident
    cases ends
    exact sure
  have retried (confident : (retry waitInterrupted sending.previousAttemptAmbiguous
      sending).Confident) : sending.previousAttemptAmbiguous = false := by
    cases ambiguous : sending.previousAttemptAmbiguous with
    | false => rfl
    | true =>
      rw [ambiguous] at confident
      exact absurd confident retry_unsure
  unfold afterConnectFailure at confident
  split at confident
  · exact fallen confident
  · exact fallen confident
  · obtain ⟨ambiguous, ends, _⟩ := confident
    cases ends
  all_goals
    split at confident
    · exact retried confident
    · exact fallen confident

theorem attemptOnce_confident (kept : ¬ Derailed parse settings attempt)
    (confident : (attemptOnce parse settings sending attempt).2.Confident) :
    Cleared parse sending (attemptOnce parse settings sending attempt).1 := by
  have round := attemptOnce_round parse settings sending attempt
  unfold Cleared NotRun
  rw [round.starts, round.texts, round.frames]
  unfold attemptOnce at confident
  unfold exchangeSteps
  cases acquired : attempt.acquired with
  | interrupted | unserializable =>
    rw [acquired] at confident
    obtain ⟨ambiguous, ends, _⟩ := confident
    cases ends
  | sticky =>
    rw [acquired] at confident
    obtain ⟨ambiguous, ends, sure⟩ := confident
    cases ends
    exact .inl ⟨rfl, sure⟩
  | failed failure =>
    rw [acquired] at confident
    exact .inl ⟨rfl, afterConnectFailure_confident confident⟩
  | connected exchange interruptedAfter =>
    simp only [acquired] at confident ⊢
    cases ran : (runResponse parse sending.previousAttemptAmbiguous exchange).2 with
    | ok reduced =>
      rw [ran] at confident
      cases interruptedAfter with
      | true =>
        obtain ⟨ambiguous, ends, _⟩ := confident
        cases ends
      | false => exact absurd confident (afterResponse_closed reduced).not_confident
    | error failure =>
      rw [ran] at confident
      cases interruptedAfter with
      | true =>
        obtain ⟨ambiguous, ends, _⟩ := confident
        cases ends
      | false =>
        rw [settle_failed] at confident
        obtain unclear | ⟨frame, texts, confirmed, refusal, stopped⟩ := runResponse_error ran
        · exact absurd confident (afterFailure_open unclear)
        · refine .inr ⟨⟨frame, stopped.last, refusal.proves⟩, ?_⟩
          rw [stopped.shown] at confident ⊢
          by_cases guarded : settings.retryAfterPartial = true ∨ ∀ error, failure ≠ .response error
          · rw [refusal.texts_nil kept acquired confirmed stopped guarded]
            rfl
          · obtain ⟨strict, error, rfl⟩ : settings.retryAfterPartial = false ∧
                ∃ error, failure = .response error := by
              simpa using guarded
            cases silent : texts.isEmpty with
            | true => rfl
            | false =>
              rw [silent] at confident
              exact absurd confident (afterFailure_shown strict).not_confident

end

section

variable {parse} {sending : Sending} {attempts : List Attempt}

theorem sendLoop_length :
    (sendLoop parse settings sending attempts).1.length ≤ budget settings sending + 1 := by
  induction attempts generalizing sending with
  | nil => exact Nat.zero_le _
  | cons attempt attempts ih =>
    simp only [sendLoop]
    cases next : (attemptOnce parse settings sending attempt).2 with
    | done => exact Nat.le_add_left 1 _
    | again after =>
      have rest := @ih after
      have spent := attemptOnce_spends next
      simp only [length_cons]
      omega

theorem sendLoop_rounds {steps : List Step}
    (member : steps ∈ (sendLoop parse settings sending attempts).1) :
    steps.countP isStart ≤ 1 ∧ Permitted steps := by
  induction attempts generalizing sending with
  | nil => cases member
  | cons attempt attempts ih =>
    have round := attemptOnce_round parse settings sending attempt
    simp only [sendLoop] at member
    cases next : (attemptOnce parse settings sending attempt).2 with
    | done =>
      rw [next] at member
      rw [mem_singleton.mp member]
      exact ⟨round.started, round.permitted⟩
    | again after =>
      rw [next] at member
      rcases mem_cons.mp member with rfl | later
      · exact ⟨round.started, round.permitted⟩
      · exact ih later

theorem countP_flatten_le {trace : List (List Step)}
    (few : ∀ steps ∈ trace, steps.countP isStart ≤ 1) :
    trace.flatten.countP isStart ≤ trace.length := by
  induction trace with
  | nil => exact Nat.zero_le _
  | cons steps trace ih =>
    have first := few steps (mem_cons_self ..)
    have others := ih fun other member => few other (mem_cons_of_mem _ member)
    simp only [flatten_cons, countP_append, length_cons]
    omega

def Orderly (parse : List Char → Option Json) (settings : Settings) (trace : List (List Step))
    (attempts : List Attempt) : Prop :=
  ∀ attempt ∈ attempts.take trace.length, ¬ Derailed parse settings attempt

theorem sendLoop_shown (strict : settings.retryAfterPartial = false)
    (orderly : Orderly parse settings (sendLoop parse settings sending attempts).1 attempts)
    {steps : List Step}
    (split : (sendLoop parse settings sending attempts).1 = earlier ++ steps :: later)
    (shown : steps.any isTextDelta = true) :
    later = [] ∧ ¬ FallsBack (sendLoop parse settings sending attempts).2 := by
  induction attempts generalizing sending earlier with
  | nil => simp [sendLoop] at split
  | cons attempt attempts ih =>
    simp only [sendLoop] at orderly split ⊢
    cases next : (attemptOnce parse settings sending attempt).2 with
    | done result =>
      simp only [next] at orderly split ⊢
      obtain ⟨rfl, rfl, rfl⟩ := singleton_eq_append_iff.mp split |>.elim
        (fun none => by simpa using none) (fun one => by simp at one)
      refine ⟨rfl, ?_⟩
      rintro ⟨ambiguous, fell⟩
      have closed := attemptOnce_shown (orderly attempt (by simp)) strict shown
      rw [next] at closed
      exact closed ambiguous (Option.some.inj fell)
    | again after =>
      simp only [next] at orderly split ⊢
      cases earlier with
      | nil =>
        obtain ⟨rfl, _⟩ := List.cons.inj split
        have closed := attemptOnce_shown (orderly attempt (by simp)) strict shown
        rw [next] at closed
        exact closed.elim
      | cons first earlier =>
        refine ih (fun other member => orderly other ?_) (List.cons.inj split).2
        exact mem_cons_of_mem _ member

theorem sendLoop_resolved
    (orderly : Orderly parse settings (sendLoop parse settings sending attempts).1 attempts)
    (fell : (sendLoop parse settings sending attempts).2 = some (.ok (.fallbackToHttp false))) :
    (∀ earlier steps later,
      (sendLoop parse settings sending attempts).1 = earlier ++ steps :: later →
        steps.any isStart = true → (∀ other ∈ later, other.any isStart = false) →
          NotRun parse steps) ∧
      ((∀ steps ∈ (sendLoop parse settings sending attempts).1, steps.any isStart = false) →
        sending.previousAttemptAmbiguous = false) := by
  induction attempts generalizing sending with
  | nil => cases fell
  | cons attempt attempts ih =>
    have round := attemptOnce_round parse settings sending attempt
    simp only [sendLoop] at orderly fell ⊢
    cases next : (attemptOnce parse settings sending attempt).2 with
    | done result =>
      simp only [next] at orderly fell ⊢
      have confident : (attemptOnce parse settings sending attempt).2.Confident := by
        rw [next]
        exact ⟨false, Option.some.inj fell, rfl⟩
      have cleared := attemptOnce_confident (orderly attempt (by simp)) confident
      constructor
      · intro earlier steps later split started _
        obtain ⟨rfl, rfl, rfl⟩ := singleton_eq_append_iff.mp split |>.elim
          (fun none => by simpa using none) (fun one => by simp at one)
        exact cleared.notRun started
      · exact fun quiet => cleared.unambiguous round (quiet _ (mem_singleton_self _))
    | again after =>
      simp only [next] at orderly fell ⊢
      obtain ⟨last, earlierOnly⟩ := ih
        (fun other member => orderly other (mem_cons_of_mem _ member)) fell
      have cleared (quiet : ∀ steps ∈ (sendLoop parse settings after attempts).1,
          steps.any isStart = false) :
          Cleared parse sending (attemptOnce parse settings sending attempt).1 := by
        refine attemptOnce_confident (orderly attempt (by simp)) ?_
        rw [next]
        exact earlierOnly quiet
      constructor
      · intro earlier steps later split started quiet
        cases earlier with
        | nil =>
          obtain ⟨rfl, rfl⟩ := List.cons.inj split
          exact (cleared quiet).notRun started
        | cons first earlier => exact last earlier steps later (List.cons.inj split).2 started quiet
      · intro quiet
        exact (cleared fun steps member => quiet steps (mem_cons_of_mem _ member)).unambiguous
          round (quiet _ (mem_cons_self ..))

theorem sendLoop_ends (enough : budget settings sending < attempts.length) :
    (sendLoop parse settings sending attempts).2.isSome = true := by
  induction attempts generalizing sending with
  | nil => cases enough
  | cons attempt attempts ih =>
    simp only [sendLoop]
    cases next : (attemptOnce parse settings sending attempt).2 with
    | done => rfl
    | again after =>
      have spent := attemptOnce_spends next
      rw [length_cons] at enough
      exact ih (by omega)

/-- Whatever happens in the attempts of a call, if no request is refused after it was answered
with text, text is shown by the last attempt only and a fallback that calls itself unambiguous
follows a request that was not run. -/
theorem visible_text_is_not_repeated (parse : List Char → Option Json) (settings : Settings)
    (entry : Entry) (attempts : List Attempt)
    (orderly : Orderly parse settings
      (sendWithRetryCount parse settings entry attempts).1 attempts) :
    Contract parse settings (sendWithRetryCount parse settings entry attempts).1
        (sendWithRetryCount parse settings entry attempts).2 ∧
      (settings.retryCount + 2 ≤ attempts.length →
        (sendWithRetryCount parse settings entry attempts).2.isSome = true) := by
  have unstarted (result) : Contract parse settings [] result :=
    ⟨fun _ earlier steps later split => by simp at split, Nat.zero_le _, nofun,
      fun _ earlier steps later split => by simp at split⟩
  cases entry with
  | interrupted | sticky | malformed => exact ⟨unstarted _, fun _ => rfl⟩
  | ready =>
    have few : budget settings {} = settings.retryCount + 1 := rfl
    refine ⟨⟨fun strict _ _ _ => sendLoop_shown strict orderly, ?_,
      fun steps member => (sendLoop_rounds member).2,
      fun fell => (sendLoop_resolved orderly fell).1⟩, fun enough => ?_⟩
    · calc
        _ ≤ (sendLoop parse settings {} attempts).1.length :=
          countP_flatten_le fun steps member => (sendLoop_rounds member).1
        _ ≤ settings.retryCount + 2 := sendLoop_length
    · exact sendLoop_ends (by omega)

end

def parseKnown (known : List Json) (text : List Char) : Option Json :=
  known.find? fun value => value.render = text

def textEvent (kind field text : String) : Json :=
  .obj [("type".toList, .str kind.toList), (field.toList, .str text.toList)]

def helloEvent : Json := textEvent "response.output_text.delta" "delta" "Hello"

def notFoundEvent : Json :=
  .obj [("type".toList, .str "error".toList), ("status".toList, .num 400),
    ("error".toList, .obj [("code".toList, .str "previous_response_not_found".toList)])]

def answeredWith (frames : List IncomingMessage) : Exchange :=
  ⟨true, true, none, true, true, frames, false⟩

def answered (frames : List IncomingMessage) : Attempt :=
  ⟨.connected (answeredWith frames) false, false⟩

def knownEvents : List Char → Option Json := parseKnown [helloEvent, notFoundEvent]

def strictOnce : Settings := { retryCount := 0, retryAfterPartial := false }

theorem not_derailed_of_tail {parse : List Char → Option Json} {settings : Settings}
    (guarded : ∀ frame ∈ frames.tail, unguarded parse settings frame = false) :
    ¬ Derailed parse settings (answered frames) := by
  rintro ⟨exchange, before, frame, after, texts, acquired, _, split, fed, shown, bare⟩
  have same : answeredWith frames = exchange := (Acquired.connected.inj acquired).1
  subst same
  cases before with
  | nil => exact shown (Option.some.inj fed).symm
  | cons first before =>
    have member : frame ∈ frames.tail := by rw [show frames = _ from split]; simp
    rw [guarded frame member] at bare
    cases bare

/-- A state that is gone is reported before any text: the request runs once more in full. -/
theorem visible_text_is_not_repeated_recovered : Contract knownEvents strictOnce
      (sendWithRetryCount knownEvents strictOnce .ready
        [answered [.text notFoundEvent.render], answered [.text helloEvent.render, .binary]]).1
      (sendWithRetryCount knownEvents strictOnce .ready
        [answered [.text notFoundEvent.render], answered [.text helloEvent.render, .binary]]).2 :=
  (visible_text_is_not_repeated knownEvents strictOnce .ready _ (by
    intro attempt member
    rcases mem_cons.mp (mem_of_mem_take member) with rfl | member
    · exact not_derailed_of_tail nofun
    · rw [mem_singleton.mp member]
      exact not_derailed_of_tail (by decide +kernel))).1

/-- The state is reported gone after text was shown, and the second attempt shows it again. -/
theorem refused_after_text_is_repeated : (sendWithRetryCount knownEvents strictOnce .ready
        (replicate 2
          (answered [.text helloEvent.render, .text notFoundEvent.render]))).1.map
      (fun steps => steps.filter fun step => isStart step || isTextDelta step) =
        [[.requestStarted false true, .textDelta "Hello"],
          [.requestStarted false true, .textDelta "Hello"]] ∧
    ¬ Contract knownEvents strictOnce
      (sendWithRetryCount knownEvents strictOnce .ready
        (replicate 2 (answered [.text helloEvent.render, .text notFoundEvent.render]))).1
      (sendWithRetryCount knownEvents strictOnce .ready
        (replicate 2 (answered [.text helloEvent.render, .text notFoundEvent.render]))).2 := by
  have rounds : (sendWithRetryCount knownEvents strictOnce .ready
        (replicate 2
          (answered [.text helloEvent.render, .text notFoundEvent.render]))).1 =
      [] ++ [.acquiring false, .requestStarted false true, .sent, .received (.text helloEvent.render),
        .textDelta "Hello", .received (.text notFoundEvent.render), .clearedChain] ::
      [[.acquiring true, .requestStarted false true, .sent, .received (.text helloEvent.render),
        .textDelta "Hello", .received (.text notFoundEvent.render), .clearedChain]] := by
    decide +kernel
  refine ⟨by rw [rounds]; decide +kernel, fun contract => ?_⟩
  have alone := (contract.shownOnce rfl _ _ _ rounds (by decide +kernel)).1
  cases alone

end AgentClaimNetwork.Api.Responses
