import AgentClaimNetwork.Library.Trace
import AgentClaimNetwork.MaintainerUpload

/-!
The delivery protocol around the upload queue.  Lock sections, issues and results of requests are
steps; the delivery lock admits one attempt, and local edits fall between any two of its steps.
-/

namespace AgentClaimNetwork

open Library ConsolidationDelivery PendingMaintainerUploads

/-- `MAINTAINER_UPLOAD_MAX_CONCURRENCY`. -/
def maintainerUploadMaxConcurrency : Nat := 8

inductive AttemptPhase
  -- the queue was read under its lock
  | snapshot
  -- the knowledge lock is held and the local claims are listed
  | listed (localClaims : List Claim)
  -- head of the claim loop
  | checking
  | uploading (localClaims : Option (List Claim)) (waiting inFlight : List Claim)
  | reporting (waiting inFlight : List Dispute)
deriving DecidableEq

structure Attempt where
  attempted : PendingMaintainerUploads
  failed : PendingMaintainerUploads
  remaining : List Claim
  phase : AttemptPhase
deriving DecidableEq

structure World where
  queue : PendingMaintainerUploads
  localClaims : List Claim
  /-- The holder of the delivery lock. -/
  attempt : Option Attempt
  /-- The uploads the Maintainer has acknowledged, newest first. -/
  delivered : List Claim
deriving DecidableEq

inductive Label
  | edit (localClaims : List Claim)
  | stage (batch : Batch)
  | rebind (previous revised : ConsolidationDelivery)
  | snapshot
  | listLocal
  | refresh
  | skipRefresh
  | check (locked : Bool)
  | uploadClaim (claim : Claim)
  | claimResult (claim : Claim) (result : UploadResult)
  | endRound
  | reportDispute (dispute : Dispute)
  | disputeResult (dispute : Dispute) (result : UploadResult)
  | reconcile
  | crash

def startUploads (attempted : PendingMaintainerUploads) : Option Attempt :=
  if attempted.claims = [] ∧ attempted.disputes = [] then none
  else some ⟨attempted, empty, attempted.claims, .checking⟩

def checkRound (attempt : Attempt) (localClaims : Option (List Claim)) : Attempt :=
  let ready := readyClaims attempt.attempted localClaims attempt.remaining
  if ready = [] then
    { attempt with
      failed := attempt.remaining.foldl
        (fun failed claim => retainFailedClaim failed claim true) attempt.failed
      phase := .reporting attempt.attempted.disputes [] }
  else
    { attempt with
      remaining := attempt.remaining.filter (fun claim => claim ∉ ready)
      phase := .uploading localClaims ready [] }

def checkedLocal (world : World) (attempt : Attempt) (locked : Bool) : Option (List Claim) :=
  if relatedIds attempt.attempted.consolidations = ∅ then some []
  else if locked then some world.localClaims
  else none

/-- The steps of the attempt that holds the delivery lock. -/
def attemptStep (world : World) (attempt : Attempt) : Label → Option World
  | .listLocal =>
    if attempt.phase = .snapshot ∧ attempt.attempted.consolidations ≠ [] then
      some { world with attempt := some { attempt with phase := .listed world.localClaims } }
    else none
  | .refresh =>
    match attempt.phase with
    | .listed localClaims =>
      let attempted := refreshAttempted world.queue localClaims
      some { world with
        queue := attempted.writeOrClear
        attempt := startUploads attempted }
    | _ => none
  | .skipRefresh =>
    if attempt.phase = .snapshot then
      some { world with attempt := startUploads attempt.attempted }
    else none
  | .check locked =>
    if attempt.phase = .checking then
      some { world with attempt := some (checkRound attempt (checkedLocal world attempt locked)) }
    else none
  | .uploadClaim claim =>
    match attempt.phase with
    | .uploading localClaims (next :: waiting) inFlight =>
      if claim = next ∧ inFlight.length < maintainerUploadMaxConcurrency then
        some { world with attempt := some { attempt with
          phase := .uploading localClaims waiting (inFlight ++ [claim]) } }
      else none
    | _ => none
  | .claimResult claim result =>
    match attempt.phase with
    | .uploading localClaims waiting inFlight =>
      if claim ∈ inFlight then
        let recorded := recordClaimResult attempt.attempted attempt.failed claim result
        some { world with
          attempt := some { attempt with
            attempted := recorded.1
            failed := recorded.2
            phase := .uploading localClaims waiting (inFlight.erase claim) }
          delivered := match result with
            | .ok _ => claim :: world.delivered
            | .error _ => world.delivered }
      else none
    | _ => none
  | .endRound =>
    match attempt.phase with
    | .uploading _ [] [] => some { world with attempt := some { attempt with phase := .checking } }
    | _ => none
  | .reportDispute dispute =>
    match attempt.phase with
    | .reporting (next :: waiting) inFlight =>
      if dispute = next ∧ inFlight.length < maintainerUploadMaxConcurrency then
        some { world with attempt := some { attempt with
          phase := .reporting waiting (inFlight ++ [dispute]) } }
      else none
    | _ => none
  | .disputeResult dispute result =>
    match attempt.phase with
    | .reporting waiting inFlight =>
      if dispute ∈ inFlight then
        some { world with attempt := some { attempt with
          failed := recordDisputeResult attempt.failed dispute result
          phase := .reporting waiting (inFlight.erase dispute) } }
      else none
    | _ => none
  | .reconcile =>
    match attempt.phase with
    | .reporting [] [] =>
      some { world with
        queue := (reconcilePendingUploadsAfterAttempt world.queue attempt.attempted
          attempt.failed).writeOrClear
        attempt := none }
    | _ => none
  -- the process stops or the attempt returns early; its locks are released
  | .crash => some { world with attempt := none }
  | _ => none

def step (world : World) : Label → Option World
  | .edit localClaims => some { world with localClaims := localClaims }
  | .stage batch => some { world with queue := stageMaintainerBatchInner world.queue batch }
  | .rebind previous revised =>
    match rebindConsolidation world.queue previous revised with
    | .ok queue => some { world with queue := queue }
    | .error _ => some world
  | .snapshot =>
    if world.attempt.isSome then none
    else if world.queue.claims = [] ∧ world.queue.disputes = [] then some world
    else some { world with
        attempt := some ⟨world.queue, empty, world.queue.claims, .snapshot⟩ }
  | label =>
    match world.attempt with
    | some attempt => attemptStep world attempt label
    | none => none

/-- Everything one step can do, with its guards. -/
inductive Moved (world : World) : Label → World → Prop
  | edit (localClaims) : Moved world (.edit localClaims) { world with localClaims := localClaims }
  | stage (batch) : Moved world (.stage batch)
      { world with queue := stageMaintainerBatchInner world.queue batch }
  | rebound {previous revised queue} :
      rebindConsolidation world.queue previous revised = .ok queue →
      Moved world (.rebind previous revised) { world with queue := queue }
  | refused (previous revised) : Moved world (.rebind previous revised) world
  | nothingQueued : world.attempt = none → Moved world .snapshot world
  | snapshot : world.attempt = none → ¬(world.queue.claims = [] ∧ world.queue.disputes = []) →
      Moved world .snapshot { world with
        attempt := some ⟨world.queue, empty, world.queue.claims, .snapshot⟩ }
  | listLocal {attempt} : world.attempt = some attempt → attempt.phase = .snapshot →
      Moved world .listLocal
        { world with attempt := some { attempt with phase := .listed world.localClaims } }
  | refresh {attempt localClaims} : world.attempt = some attempt →
      attempt.phase = .listed localClaims →
      Moved world .refresh { world with
        queue := (refreshAttempted world.queue localClaims).writeOrClear
        attempt := startUploads (refreshAttempted world.queue localClaims) }
  | skipRefresh {attempt} : world.attempt = some attempt → attempt.phase = .snapshot →
      Moved world .skipRefresh { world with attempt := startUploads attempt.attempted }
  | check {attempt} (locked) : world.attempt = some attempt → attempt.phase = .checking →
      Moved world (.check locked)
        { world with attempt := some (checkRound attempt (checkedLocal world attempt locked)) }
  | uploadClaim {attempt localClaims claim waiting inFlight} : world.attempt = some attempt →
      attempt.phase = .uploading localClaims (claim :: waiting) inFlight →
      Moved world (.uploadClaim claim) { world with attempt := some { attempt with
        phase := .uploading localClaims waiting (inFlight ++ [claim]) } }
  | claimDelivered {attempt localClaims claim waiting inFlight} : world.attempt = some attempt →
      attempt.phase = .uploading localClaims waiting inFlight → claim ∈ inFlight →
      Moved world (.claimResult claim (.ok ())) { world with
        attempt := some { attempt with
          attempted := { attempt.attempted with
            acknowledgements := acknowledge attempt.attempted.acknowledgements claim }
          phase := .uploading localClaims waiting (inFlight.erase claim) }
        delivered := claim :: world.delivered }
  | claimFailed {attempt localClaims claim waiting inFlight error} :
      world.attempt = some attempt →
      attempt.phase = .uploading localClaims waiting inFlight → claim ∈ inFlight →
      Moved world (.claimResult claim (.error error)) { world with
        attempt := some { attempt with
          failed := if retainsClaim error (claim.id ∈ attempt.attempted.durableClaimIds) then
              retainFailedClaim attempt.failed claim
                (claim.id ∈ attempt.attempted.durableClaimIds)
            else attempt.failed
          phase := .uploading localClaims waiting (inFlight.erase claim) } }
  | endRound {attempt localClaims} : world.attempt = some attempt →
      attempt.phase = .uploading localClaims [] [] →
      Moved world .endRound { world with attempt := some { attempt with phase := .checking } }
  | reportDispute {attempt dispute waiting inFlight} : world.attempt = some attempt →
      attempt.phase = .reporting (dispute :: waiting) inFlight →
      Moved world (.reportDispute dispute) { world with attempt := some { attempt with
        phase := .reporting waiting (inFlight ++ [dispute]) } }
  | disputeResult {attempt dispute result waiting inFlight} : world.attempt = some attempt →
      attempt.phase = .reporting waiting inFlight → dispute ∈ inFlight →
      Moved world (.disputeResult dispute result) { world with attempt := some { attempt with
        failed := recordDisputeResult attempt.failed dispute result
        phase := .reporting waiting (inFlight.erase dispute) } }
  | reconcile {attempt} : world.attempt = some attempt → attempt.phase = .reporting [] [] →
      Moved world .reconcile { world with
        queue := (reconcilePendingUploadsAfterAttempt world.queue attempt.attempted
          attempt.failed).writeOrClear
        attempt := none }
  | crash {attempt} : world.attempt = some attempt →
      Moved world .crash { world with attempt := none }

theorem recordClaimResult_error (attempted failed : PendingMaintainerUploads) (claim : Claim)
    (error : UploadError) :
    recordClaimResult attempted failed claim (.error error) =
      (attempted,
        if retainsClaim error (claim.id ∈ attempted.durableClaimIds) then
          retainFailedClaim failed claim (claim.id ∈ attempted.durableClaimIds)
        else failed) := by
  cases kind : classifyUploadError error with
  | retryable | conflict | client | unknown => simp [recordClaimResult, retainsClaim, kind]
  | auth | forbidden =>
    by_cases durable : claim.id ∈ attempted.durableClaimIds
    all_goals simp [recordClaimResult, retainsClaim, kind, durable]

theorem attemptStep_moved (running : world.attempt = some attempt)
    (taken : attemptStep world attempt label = some next) : Moved world label next := by
  cases label with
  | edit | stage | rebind | snapshot => simp [attemptStep] at taken
  | listLocal =>
    simp only [attemptStep] at taken
    split_ifs at taken with guard
    cases taken
    exact Moved.listLocal running guard.1
  | refresh =>
    simp only [attemptStep] at taken
    split at taken
    · rename_i localClaims phase
      cases taken
      exact Moved.refresh running phase
    · cases taken
  | skipRefresh =>
    simp only [attemptStep] at taken
    split_ifs at taken with phase
    cases taken
    exact Moved.skipRefresh running phase
  | check locked =>
    simp only [attemptStep] at taken
    split_ifs at taken with phase
    cases taken
    exact Moved.check locked running phase
  | uploadClaim claim =>
    simp only [attemptStep] at taken
    split at taken
    · rename_i localClaims first waiting inFlight phase
      split_ifs at taken with guard
      cases taken
      exact Moved.uploadClaim running (guard.1 ▸ phase)
    · cases taken
  | claimResult claim result =>
    simp only [attemptStep] at taken
    split at taken
    · rename_i localClaims waiting inFlight phase
      split_ifs at taken with member
      cases taken
      cases result with
      | ok _ => exact Moved.claimDelivered running phase member
      | error error =>
        rw [recordClaimResult_error]
        exact Moved.claimFailed running phase member
    · cases taken
  | endRound =>
    simp only [attemptStep] at taken
    split at taken
    · rename_i localClaims phase
      cases taken
      exact Moved.endRound running phase
    · cases taken
  | reportDispute dispute =>
    simp only [attemptStep] at taken
    split at taken
    · rename_i first waiting inFlight phase
      split_ifs at taken with guard
      cases taken
      exact Moved.reportDispute running (guard.1 ▸ phase)
    · cases taken
  | disputeResult dispute result =>
    simp only [attemptStep] at taken
    split at taken
    · rename_i waiting inFlight phase
      split_ifs at taken with member
      cases taken
      exact Moved.disputeResult running phase member
    · cases taken
  | reconcile =>
    simp only [attemptStep] at taken
    split at taken
    · rename_i phase
      cases taken
      exact Moved.reconcile running phase
    · cases taken
  | crash =>
    cases taken
    exact Moved.crash running

theorem step_moved (taken : step world label = some next) : Moved world label next := by
  unfold step at taken
  split at taken
  · cases taken
    exact Moved.edit _
  · cases taken
    exact Moved.stage _
  · split at taken
    · rename_i queue done
      cases taken
      exact Moved.rebound done
    · cases taken
      exact Moved.refused _ _
  · split_ifs at taken with busy nothing
    · cases taken
      exact Moved.nothingQueued (by simpa using busy)
    · cases taken
      exact Moved.snapshot (by simpa using busy) nothing
  · split at taken
    · rename_i attempt running
      exact attemptStep_moved running taken
    · cases taken

def initialWorld (localClaims : List Claim) : World := ⟨empty, localClaims, none, []⟩

end AgentClaimNetwork
