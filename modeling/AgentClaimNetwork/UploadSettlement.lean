import AgentClaimNetwork.UploadSafety

/-!
No upload is lost or sent again: the reconciliation settles exactly what the attempt had read,
whatever was staged in between.
-/

namespace AgentClaimNetwork

open Library ConsolidationDelivery PendingMaintainerUploads List
open Prod (fst)

variable {labels : List Label} {result : UploadResult}

def Label.duringDelivery : Label → Prop
  | .rebind _ _ | .snapshot | .refresh | .reconcile | .crash => False
  | _ => True

def Label.stagedBatch? : Label → Option Batch
  | .stage batch => some batch
  | _ => none

def Label.claimResult? : Label → Option (Claim × UploadResult)
  | .claimResult claim result => some (claim, result)
  | _ => none

def Label.disputeResult? : Label → Option (Dispute × UploadResult)
  | .disputeResult dispute result => some (dispute, result)
  | _ => none

section

variable (labels : List Label)

def stagedBatches : List Batch := labels.filterMap Label.stagedBatch?

def stagedClaims : List Claim := (stagedBatches labels).flatMap Batch.claims

def stagedDisputes : List Dispute :=
  (stagedBatches labels).flatMap Batch.disputes

def claimResults : List (Claim × UploadResult) :=
  labels.filterMap Label.claimResult?

def disputeResults : List (Dispute × UploadResult) :=
  labels.filterMap Label.disputeResult?

end

def claimRetained (durable : Finset ClaimId) : Claim × UploadResult → Bool
  | (_, .ok _) => false
  | (claim, .error error) => retainsClaim error (claim.id ∈ durable)

def disputeRetained : Dispute × UploadResult → Bool
  | (_, .ok _) => false
  | (_, .error error) => retainsDispute error

def AttemptPhase.openClaims : AttemptPhase → List Claim
  | .uploading _ waiting inFlight => waiting ++ inFlight
  | _ => []

def Attempt.blocked (attempt : Attempt) : List Claim :=
  match attempt.phase with
  | .reporting _ _ => attempt.remaining
  | _ => []

def Attempt.openDisputes (attempt : Attempt) : List Dispute :=
  match attempt.phase with
  | .reporting waiting inFlight => waiting ++ inFlight
  | _ => attempt.attempted.disputes

/-- The books of an attempt that read `read` from the queue, after `labels`. -/
structure Accounts (read : PendingMaintainerUploads) (labels : List Label)
    (attempt : Attempt) : Prop where
  claims : attempt.attempted.claims = read.claims
  disputes : attempt.attempted.disputes = read.disputes
  durable : attempt.attempted.durableClaimIds = read.durableClaimIds
  openClaims : (attempt.remaining ++ attempt.phase.openClaims ++
    (claimResults labels).map fst).Perm read.claims
  failedClaims : attempt.failed.claims =
    ((claimResults labels).filter (claimRetained read.durableClaimIds)).map fst ++
      attempt.blocked
  openDisputes : (attempt.openDisputes ++ (disputeResults labels).map fst).Perm read.disputes
  failedDisputes : attempt.failed.disputes =
    ((disputeResults labels).filter disputeRetained).map fst
  fresh : attempt.phase = .snapshot →
    attempt.failed = empty ∧ attempt.remaining = read.claims

/-- The queue file after the batches of `labels`. -/
structure Queued (read : PendingMaintainerUploads) (labels : List Label)
    (queue : PendingMaintainerUploads) : Prop where
  wellFormed : WellFormed queue
  claims : KeyedMap.OfferedFrom Claim.id Claim.effectiveUpdatedAt read.claims
    (stagedClaims labels) queue.claims
  disputes : KeyedMap.OfferedFrom Dispute.id Dispute.createdAt read.disputes
    (stagedDisputes labels) queue.disputes
  durable : ∀ id ∈ read.durableClaimIds, id ∈ queue.durableClaimIds
  stagedDurable : ∀ batch ∈ stagedBatches labels, batch.durableClaims = true →
    ∀ claim ∈ batch.claims, claim.id ∈ queue.durableClaimIds

theorem Queued.start {read : PendingMaintainerUploads} (wellFormed : WellFormed read) :
    Queued read [] read where
  wellFormed := wellFormed
  claims := KeyedMap.OfferedFrom.start wellFormed.claimIds
  disputes := KeyedMap.OfferedFrom.start wellFormed.disputeIds
  durable _ mark := mark
  stagedDurable batch member := by simp [stagedBatches] at member

variable {claim : Claim}

theorem stage_marks (wellFormed : WellFormed pending) (durable : batch.durableClaims = true)
    (member : claim ∈ batch.claims) :
    claim.id ∈ (stageMaintainerBatchInner pending batch).durableClaimIds := by
  obtain ⟨stored, storedMem, storedId⟩ :=
    (@stage_offered_claims pending batch wellFormed _ _
      (KeyedMap.OfferedFrom.start wellFormed.claimIds)).present claim (.inr (by simpa))
  have queued : claim.id ∈ (stageMaintainerBatchInner pending batch).claims.map Claim.id :=
    storedId ▸ mem_map_of_mem storedMem
  rw [stage_durable_eq queued]
  rw [stage_claims, ← mergedWith_claims] at queued
  refine Finset.mem_filter.mpr ⟨?_, queued⟩
  simp only [durable, if_true, Finset.mem_union, mem_toFinset]
  exact .inr (mem_map_of_mem member)

theorem Queued.stage {read queue : PendingMaintainerUploads} (queued : Queued read labels queue) :
    Queued read (labels ++ [.stage batch]) (stageMaintainerBatchInner queue batch) where
  wellFormed := stage_wellFormed
  claims := by
    have next := @stage_offered_claims queue batch queued.wellFormed _ _ queued.claims
    simpa [stagedClaims, stagedBatches, Label.stagedBatch?] using next
  disputes := by
    have next := @stage_offered_disputes queue batch queued.wellFormed _ _ queued.disputes
    simpa [stagedDisputes, stagedBatches, Label.stagedBatch?] using next
  durable id mark := stage_durable queued.wellFormed (queued.durable id mark)
  stagedDurable other member durable claim belongs := by
    simp only [stagedBatches, filterMap_append, mem_append] at member
    rcases member with earlier | latest
    · exact stage_durable queued.wellFormed
        (queued.stagedDurable other earlier durable claim belongs)
    · have same : other = batch := by simpa [Label.stagedBatch?] using latest
      subst same
      exact stage_marks queued.wellFormed durable belongs

theorem Queued.silent {read queue : PendingMaintainerUploads}
    (queued : Queued read labels queue) {label : Label} (silent : label.stagedBatch? = none) :
    Queued read (labels ++ [label]) queue := by
  have same : stagedBatches (labels ++ [label]) = stagedBatches labels := by
    simp [stagedBatches, silent]
  refine ⟨queued.wellFormed, ?_, ?_, queued.durable, ?_⟩
  · rw [stagedClaims, same]
    exact queued.claims
  · rw [stagedDisputes, same]
    exact queued.disputes
  · rw [same]
    exact queued.stagedDurable

section

variable {read : PendingMaintainerUploads} {attempt : Attempt}

theorem Accounts.start {phase : AttemptPhase} (idle : phase = .snapshot ∨ phase = .checking) :
    Accounts read [] ⟨read, empty, read.claims, phase⟩ := by
  rcases idle with rfl | rfl
  · exact ⟨rfl, rfl, rfl, by simp [AttemptPhase.openClaims, claimResults],
      by simp [claimResults, Attempt.blocked, empty],
      by simp [Attempt.openDisputes, disputeResults], by simp [disputeResults, empty],
      fun _ => ⟨rfl, rfl⟩⟩
  · exact ⟨rfl, rfl, rfl, by simp [AttemptPhase.openClaims, claimResults],
      by simp [claimResults, Attempt.blocked, empty],
      by simp [Attempt.openDisputes, disputeResults], by simp [disputeResults, empty],
      fun impossible => by cases impossible⟩

variable {label : Label}

theorem claimResults_silent (silent : label.claimResult? = none) :
    claimResults (labels ++ [label]) = claimResults labels := by
  simp [claimResults, silent]

theorem disputeResults_silent (silent : label.disputeResult? = none) :
    disputeResults (labels ++ [label]) = disputeResults labels := by
  simp [disputeResults, silent]

variable (accounts : Accounts read labels attempt)

include accounts

theorem Accounts.silent
    (noClaim : label.claimResult? = none) (noDispute : label.disputeResult? = none) :
    Accounts read (labels ++ [label]) attempt := by
  have sameClaims : claimResults (labels ++ [label]) = claimResults labels :=
    claimResults_silent noClaim
  have sameDisputes : disputeResults (labels ++ [label]) = disputeResults labels :=
    disputeResults_silent noDispute
  refine ⟨accounts.claims, accounts.disputes, accounts.durable, ?_, ?_, ?_, ?_, accounts.fresh⟩
  · rw [sameClaims]
    exact accounts.openClaims
  · rw [sameClaims]
    exact accounts.failedClaims
  · rw [sameDisputes]
    exact accounts.openDisputes
  · rw [sameDisputes]
    exact accounts.failedDisputes

theorem Accounts.phase {phase : AttemptPhase}
    (claims : phase.openClaims.Perm attempt.phase.openClaims)
    (blocked : ({ attempt with phase := phase } : Attempt).blocked = attempt.blocked)
    (disputes : ({ attempt with phase := phase } : Attempt).openDisputes.Perm
      attempt.openDisputes)
    (started : phase ≠ .snapshot) :
    Accounts read labels { attempt with phase := phase } := by
  refine ⟨accounts.claims, accounts.disputes, accounts.durable, ?_, ?_, ?_,
    accounts.failedDisputes, fun same => absurd same started⟩
  · exact ((claims.append_left _).append_right _).trans accounts.openClaims
  · rw [blocked]
    exact accounts.failedClaims
  · exact (disputes.append_right _).trans accounts.openDisputes

omit accounts

theorem retainFailed_foldl (claims : List Claim) (failed : PendingMaintainerUploads) :
    (claims.foldl (fun failed claim => retainFailedClaim failed claim true) failed).claims =
        failed.claims ++ claims ∧
      (claims.foldl (fun failed claim => retainFailedClaim failed claim true) failed).disputes =
        failed.disputes := by
  induction claims generalizing failed with
  | nil => simp
  | cons claim rest ih =>
    obtain ⟨claims, disputes⟩ := ih (retainFailedClaim failed claim true)
    refine ⟨?_, disputes⟩
    rw [foldl_cons, claims]
    simp [retainFailedClaim]

theorem readyClaims_split (attempted : PendingMaintainerUploads)
    (localClaims : Option (List Claim)) (remaining : List Claim) :
    (remaining.filter (fun claim => claim ∉ readyClaims attempted localClaims remaining) ++
      readyClaims attempted localClaims remaining).Perm remaining := by
  unfold readyClaims
  set passes : Claim → Bool := fun claim =>
    decide (claim.id ∉ relatedIds attempted.consolidations) || localClaims.any fun current =>
      decide (claim ∈ current) &&
        ready claim attempted.consolidations attempted.acknowledgements current with isPasses
  have rest : remaining.filter (fun claim => claim ∉ remaining.filter passes) =
      remaining.filter (fun claim => !passes claim) := by
    apply filter_congr
    intro claim member
    simp [member]
  rw [rest]
  exact perm_append_comm.trans (filter_append_perm passes remaining)

include accounts in
theorem Accounts.checkRound
    (phase : attempt.phase = .checking) {localClaims : Option (List Claim)} :
    Accounts read labels (checkRound attempt localClaims) := by
  have claims := accounts.openClaims
  have failed := accounts.failedClaims
  have disputes := accounts.openDisputes
  simp only [phase, AttemptPhase.openClaims, Attempt.blocked, Attempt.openDisputes,
    append_nil] at claims failed disputes
  rcases checkRound_cases attempt localClaims with ⟨_, same⟩ | ⟨ready, chosen, same⟩
  · rw [same]
    obtain ⟨blocked, kept⟩ := retainFailed_foldl attempt.remaining attempt.failed
    refine ⟨accounts.claims, accounts.disputes, accounts.durable, ?_, ?_, ?_, ?_, ?_⟩
    · simpa [AttemptPhase.openClaims] using claims
    · simpa [Attempt.blocked, failed] using blocked
    · simpa [Attempt.openDisputes] using disputes
    · rw [kept]
      exact accounts.failedDisputes
    · exact fun impossible => by cases impossible
  · rw [same]
    refine ⟨accounts.claims, accounts.disputes, accounts.durable, ?_, ?_, ?_,
      accounts.failedDisputes, fun impossible => by cases impossible⟩
    · have split := readyClaims_split attempt.attempted localClaims attempt.remaining
      rw [← chosen] at split
      simpa [AttemptPhase.openClaims] using (split.append_right _).trans claims
    · simpa [Attempt.blocked] using failed
    · simpa [Attempt.openDisputes] using disputes

theorem settle_inFlight {Item : Type*} [DecidableEq Item] {item : Item}
    {before inFlight done : List Item} (member : item ∈ inFlight) :
    (before ++ inFlight.erase item ++ (done ++ [item])).Perm (before ++ inFlight ++ done) := by
  have moved : (inFlight.erase item ++ (done ++ [item])).Perm (inFlight ++ done) := by
    have front : (item :: inFlight.erase item ++ done).Perm (inFlight ++ done) :=
      (perm_cons_erase member).symm.append_right done
    refine List.Perm.trans ?_ front
    rw [← append_assoc]
    exact perm_append_singleton item _
  simpa [append_assoc] using moved.append_left before

include accounts

theorem Accounts.claimResult {waiting inFlight acknowledgements : List Claim}
    {result : UploadResult} {failed : PendingMaintainerUploads}
    (phase : attempt.phase = .uploading localClaims waiting inFlight) (member : claim ∈ inFlight)
    (retained : failed.claims = attempt.failed.claims ++
      if claimRetained read.durableClaimIds (claim, result) then [claim] else [])
    (kept : failed.disputes = attempt.failed.disputes) :
    Accounts read (labels ++ [.claimResult claim result]) { attempt with
      attempted := { attempt.attempted with acknowledgements := acknowledgements }
      failed := failed
      phase := .uploading localClaims waiting (inFlight.erase claim) } := by
  have results : claimResults (labels ++ [.claimResult claim result]) =
      claimResults labels ++ [(claim, result)] := by
    simp [claimResults, Label.claimResult?]
  have claims := accounts.openClaims
  have before := accounts.failedClaims
  have disputes := accounts.openDisputes
  simp only [phase, AttemptPhase.openClaims, Attempt.blocked, Attempt.openDisputes]
    at claims before disputes
  refine ⟨accounts.claims, accounts.disputes, accounts.durable, ?_, ?_, ?_, ?_,
    fun impossible => by cases impossible⟩
  · rw [results, map_append]
    refine List.Perm.trans ?_ claims
    simpa [AttemptPhase.openClaims, append_assoc] using
      @settle_inFlight _ _ _ (attempt.remaining ++ waiting) _ _ member
  · rw [results, retained, before]
    split_ifs with retains
    all_goals simp [Attempt.blocked, retains]
  · rw [disputeResults_silent rfl]
    exact disputes
  · rw [disputeResults_silent rfl, kept]
    exact accounts.failedDisputes

theorem Accounts.claimFailed
    (phase : attempt.phase = .uploading localClaims waiting inFlight) (member : claim ∈ inFlight) :
    Accounts read (labels ++ [.claimResult claim (.error error)]) { attempt with
      failed := if retainsClaim error (claim.id ∈ attempt.attempted.durableClaimIds) then
          retainFailedClaim attempt.failed claim
            (claim.id ∈ attempt.attempted.durableClaimIds)
        else attempt.failed
      phase := .uploading localClaims waiting (inFlight.erase claim) } := by
  refine accounts.claimResult phase member ?_ ?_
  · rw [claimRetained, accounts.durable]
    split_ifs
    · rfl
    · exact (append_nil _).symm
  · split_ifs <;> rfl

theorem Accounts.disputeResult {result : UploadResult}
    (phase : attempt.phase = .reporting waiting inFlight) (member : dispute ∈ inFlight) :
    Accounts read (labels ++ [.disputeResult dispute result]) { attempt with
      failed := recordDisputeResult attempt.failed dispute result
      phase := .reporting waiting (inFlight.erase dispute) } := by
  have results : disputeResults (labels ++ [.disputeResult dispute result]) =
      disputeResults labels ++ [(dispute, result)] := by
    simp [disputeResults, Label.disputeResult?]
  have claims := accounts.openClaims
  have failed := accounts.failedClaims
  have disputes := accounts.openDisputes
  simp only [phase, AttemptPhase.openClaims, Attempt.blocked, Attempt.openDisputes]
    at claims failed disputes
  have keptClaims : (recordDisputeResult attempt.failed dispute result).claims =
      attempt.failed.claims := by
    unfold recordDisputeResult
    split
    · rfl
    · split_ifs <;> rfl
  refine ⟨accounts.claims, accounts.disputes, accounts.durable, ?_, ?_, ?_, ?_,
    fun impossible => by cases impossible⟩
  · rw [claimResults_silent rfl]
    exact claims
  · rw [keptClaims, failed, claimResults_silent rfl]
    rfl
  · rw [results, map_append]
    refine List.Perm.trans ?_ disputes
    simpa [Attempt.openDisputes] using @settle_inFlight _ _ _ waiting _ _ member
  · rw [results]
    have kept := accounts.failedDisputes
    cases result with
    | ok _ => simpa [recordDisputeResult, disputeRetained] using kept
    | error error =>
      by_cases retained : retainsDispute error = true
      all_goals simp [recordDisputeResult, disputeRetained, retained, kept]

omit accounts

end

/-- An attempt that read `read` and is still running after `labels`. -/
structure Delivering (read : PendingMaintainerUploads) (labels : List Label)
    (world : World) : Prop where
  accounts : ∃ attempt, world.attempt = some attempt ∧ Accounts read labels attempt
  queued : Queued read labels world.queue

variable {read : PendingMaintainerUploads}

theorem startUploads_fresh {attempt : Attempt} (accounts : Accounts read labels attempt)
    (phase : attempt.phase = .snapshot)
    (nonempty : ¬(read.claims = [] ∧ read.disputes = [])) :
    startUploads attempt.attempted = some { attempt with phase := .checking } := by
  obtain ⟨noneFailed, allRemain⟩ := accounts.fresh phase
  rw [startUploads, accounts.claims, accounts.disputes, if_neg nonempty, ← allRemain,
    ← noneFailed]

theorem Delivering.attemptMoved
    {world next : World} {label : Label} (delivering : Delivering read labels world)
    (nonempty : ¬(read.claims = [] ∧ read.disputes = [])) (moved : Moved world label next)
    (during : label.duringDelivery) :
    ∃ attempt, next.attempt = some attempt ∧ Accounts read (labels ++ [label]) attempt := by
  obtain ⟨attempt, running, accounts⟩ := delivering.accounts
  cases moved with
  | edit | stage => exact ⟨attempt, running, accounts.silent rfl rfl⟩
  | rebound | refused | nothingQueued | snapshot | refresh | reconcile | crash =>
    exact absurd during id
  | listLocal held phase | endRound held phase =>
    cases running.symm.trans held
    refine ⟨_, rfl, (accounts.phase ?_ ?_ ?_ (by simp)).silent rfl rfl⟩
    · rw [phase]
      exact List.Perm.refl _
    · simp [Attempt.blocked, phase]
    · simp [Attempt.openDisputes, phase]
  | skipRefresh held phase =>
    cases running.symm.trans held
    refine ⟨_, startUploads_fresh accounts phase nonempty, ?_⟩
    refine (accounts.phase ?_ ?_ ?_ (by simp)).silent rfl rfl
    · rw [phase]
      exact List.Perm.refl _
    · simp [Attempt.blocked, phase]
    · simp [Attempt.openDisputes, phase]
  | check locked held phase =>
    cases running.symm.trans held
    exact ⟨_, rfl, (accounts.checkRound phase).silent rfl rfl⟩
  | uploadClaim held phase =>
    cases running.symm.trans held
    refine ⟨_, rfl, (accounts.phase ?_ ?_ ?_ (by simp)).silent rfl rfl⟩
    · rw [phase, AttemptPhase.openClaims, ← append_assoc]
      exact perm_append_singleton _ _
    · simp [Attempt.blocked, phase]
    · simp [Attempt.openDisputes, phase]
  | claimDelivered held phase member =>
    cases running.symm.trans held
    exact ⟨_, rfl, accounts.claimResult phase member (append_nil _).symm rfl⟩
  | claimFailed held phase member =>
    cases running.symm.trans held
    exact ⟨_, rfl, accounts.claimFailed phase member⟩
  | reportDispute held phase =>
    cases running.symm.trans held
    refine ⟨_, rfl, (accounts.phase ?_ ?_ ?_ (by simp)).silent rfl rfl⟩
    · rw [phase]
      exact List.Perm.refl _
    · simp [Attempt.blocked, phase]
    · simp only [Attempt.openDisputes, phase]
      rw [← append_assoc]
      exact perm_append_singleton _ _
  | disputeResult held phase member =>
    cases running.symm.trans held
    exact ⟨_, rfl, accounts.disputeResult phase member⟩

theorem Delivering.moved {read : PendingMaintainerUploads} {labels : List Label}
    {world next : World} {label : Label} (delivering : Delivering read labels world)
    (nonempty : ¬(read.claims = [] ∧ read.disputes = [])) (moved : Moved world label next)
    (during : label.duringDelivery) : Delivering read (labels ++ [label]) next := by
  refine ⟨delivering.attemptMoved nonempty moved during, ?_⟩
  cases moved with
  | stage batch => exact delivering.queued.stage
  | rebound | refused | nothingQueued | snapshot | refresh | reconcile | crash =>
    exact absurd during id
  | edit | listLocal | skipRefresh | check | uploadClaim | claimDelivered | claimFailed
  | endRound | reportDispute | disputeResult => exact delivering.queued.silent rfl

theorem Delivering.run {start last : World} (initial : Delivering read [] start)
    (nonempty : ¬(read.claims = [] ∧ read.disputes = []))
    (run : Trace (fun world label next => step world label = some next) start labels last)
    (during : ∀ label ∈ labels, label.duringDelivery) : Delivering read labels last := by
  induction run with
  | nil => exact initial
  | snoc _ taken ih =>
    have earlier := ih (fun label member => during label (by simp [member]))
    exact earlier.moved nonempty (step_moved taken) (during _ (by simp))

theorem read_delivering {attempt : Attempt} {read : Label}
    (isRead : read = .snapshot ∨ read = .refresh) (moved : Moved prior read start)
    (wellFormed : WellFormed start.queue) (running : start.attempt = some attempt) :
    Delivering start.queue [] start ∧
      ¬(start.queue.claims = [] ∧ start.queue.disputes = []) := by
  rcases isRead with rfl | rfl
  · cases moved with
    | nothingQueued idle =>
      rw [idle] at running
      cases running
    | snapshot idle nonempty =>
      exact ⟨⟨⟨_, rfl, Accounts.start (.inl rfl)⟩, Queued.start wellFormed⟩, nonempty⟩
  · cases moved with
    | refresh held phase =>
      obtain ⟨nonempty, _⟩ := startUploads_some running
      simp only [writeOrClear, if_neg nonempty] at wellFormed ⊢
      refine ⟨⟨⟨_, ?_, Accounts.start (.inr rfl)⟩, Queued.start wellFormed⟩,
        nonempty⟩
      exact if_neg nonempty

theorem mem_claimResults :
    (claim, result) ∈ claimResults labels ↔ .claimResult claim result ∈ labels := by
  simp only [claimResults, mem_filterMap]
  constructor
  · rintro ⟨label, member, found⟩
    cases label with
    | claimResult other outcome =>
      cases found
      exact member
    | _ => cases found
  · intro member
    exact ⟨_, member, rfl⟩

theorem mem_disputeResults :
    (dispute, result) ∈ disputeResults labels ↔ .disputeResult dispute result ∈ labels := by
  simp only [disputeResults, mem_filterMap]
  constructor
  · rintro ⟨label, member, found⟩
    cases label with
    | disputeResult other outcome =>
      cases found
      exact member
    | _ => cases found
  · intro member
    exact ⟨_, member, rfl⟩

def ClaimMustStay (read : PendingMaintainerUploads) (labels : List Label) (claim : Claim) : Prop :=
  (∃ error, .claimResult claim (.error error) ∈ labels ∧
      retainsClaim error (claim.id ∈ read.durableClaimIds) = true) ∨
    (claim ∈ read.claims ∧ ∀ result, .claimResult claim result ∉ labels)

def DisputeMustStay (labels : List Label) (dispute : Dispute) : Prop :=
  ∃ error, .disputeResult dispute (.error error) ∈ labels ∧ retainsDispute error = true

section

variable {Item Id : Type*} {read : List Item} {results : List (Item × UploadResult)}

theorem failed_of_retained (books : (remaining ++ results.map fst).Perm read)
    (failures : failed = (results.filter retained).map fst ++ remaining)
    (member : (item, result) ∈ results) (stays : retained (item, result) = true) :
    item ∈ read ∧ key item ∈ failed.map key := by
  refine ⟨books.subset ?_, mem_map_of_mem ?_⟩
  · exact mem_append_right _ (mem_map.mpr ⟨_, member, rfl⟩)
  · rw [failures]
    exact mem_append_left _
      (mem_map.mpr ⟨_, mem_filter.mpr ⟨member, stays⟩, rfl⟩)

theorem not_failed_of_dropped (books : (remaining ++ results.map fst).Perm read)
    (failures : failed = (results.filter retained).map fst ++ remaining)
    (unique : (read.map key).Nodup) (member : (item, result) ∈ results)
    (leaves : retained (item, result) = false) : item ∈ read ∧ key item ∉ failed.map key := by
  have settledItem : item ∈ results.map fst := mem_map.mpr ⟨_, member, rfl⟩
  have readItem : item ∈ read := books.subset (mem_append_right _ settledItem)
  have distinct : (remaining ++ results.map fst).Nodup :=
    books.nodup_iff.mpr (List.Nodup.of_map key unique)
  rw [nodup_append'] at distinct
  obtain ⟨_, once, apart⟩ := distinct
  refine ⟨readItem, fun failure => ?_⟩
  obtain ⟨other, otherMem, otherKey⟩ := mem_map.mp failure
  rw [failures, mem_append] at otherMem
  have sameItem : other ∈ read → other = item :=
    fun readOther => inj_on_of_nodup_map unique readOther readItem otherKey
  rcases otherMem with settled | blocked
  · obtain ⟨⟨named, outcome⟩, found, rfl⟩ := mem_map.mp settled
    obtain ⟨resultMem, stays⟩ := mem_filter.mp found
    have same : named = item := sameItem
      (books.subset (mem_append_right _ (mem_map.mpr ⟨_, resultMem, rfl⟩)))
    have pair : (named, outcome) = (item, result) :=
      inj_on_of_nodup_map once resultMem member same
    rw [pair, leaves] at stays
    cases stays
  · have same : other = item := sameItem (books.subset (mem_append_left _ blocked))
    exact apart (same ▸ blocked) settledItem

end

section

variable {read : PendingMaintainerUploads} {last final : World} {attempt : Attempt}

section

variable (unique : WellFormed read) (accounts : Accounts read labels attempt)
  (queued : Queued read labels last.queue) (phase : attempt.phase = .reporting [] [])
include unique accounts queued phase

theorem settled_claims :
    KeyedMap.Settled Claim.id Claim.effectiveUpdatedAt read.claims (stagedClaims labels)
      (reconcilePendingUploadsAfterAttempt last.queue attempt.attempted attempt.failed).claims
      (ClaimMustStay read labels) (fun claim => .claimResult claim (.ok ()) ∈ labels) := by
  have books := accounts.openClaims
  have failures := accounts.failedClaims
  simp only [phase, AttemptPhase.openClaims, Attempt.blocked, append_nil] at books failures
  apply queued.claims.settled unique.claimIds reconcile_wellFormed.claimIds
  · intro claim
    rw [← accounts.claims]
    apply mem_reconcile_claims queued.wellFormed.claimIds
    intro other member
    rw [accounts.claims] at member
    obtain ⟨stored, storedMem, storedId⟩ := queued.claims.present other (.inl member)
    exact storedId ▸ mem_map_of_mem storedMem
  · rintro claim (⟨error, member, stays⟩ | ⟨member, unresolved⟩)
    · exact failed_of_retained books failures (mem_claimResults.mpr member) stays
    · refine ⟨member, mem_map_of_mem ?_⟩
      rw [failures]
      refine mem_append_right _ ?_
      rcases mem_append.mp (books.symm.subset member) with blocked | settled
      · exact blocked
      · obtain ⟨⟨named, result⟩, found, rfl⟩ := mem_map.mp settled
        exact absurd (mem_claimResults.mp found) (unresolved result)
  · intro claim member
    exact not_failed_of_dropped books failures unique.claimIds (mem_claimResults.mpr member) rfl

theorem settled_disputes :
    KeyedMap.Settled Dispute.id Dispute.createdAt read.disputes (stagedDisputes labels)
      (reconcilePendingUploadsAfterAttempt last.queue attempt.attempted attempt.failed).disputes
      (DisputeMustStay labels) (fun dispute => .disputeResult dispute (.ok ()) ∈ labels) := by
  have books : ([] ++ (disputeResults labels).map fst).Perm read.disputes := by
    have unsettled := accounts.openDisputes
    simpa [phase, Attempt.openDisputes] using unsettled
  have failures : attempt.failed.disputes =
      ((disputeResults labels).filter disputeRetained).map fst ++ [] := by
    rw [append_nil]
    exact accounts.failedDisputes
  apply queued.disputes.settled unique.disputeIds reconcile_wellFormed.disputeIds
  · intro dispute
    rw [← accounts.disputes]
    apply mem_reconcile_disputes queued.wellFormed.disputeIds
    intro other member
    rw [accounts.disputes] at member
    obtain ⟨stored, storedMem, storedId⟩ := queued.disputes.present other (.inl member)
    exact storedId ▸ mem_map_of_mem storedMem
  · rintro dispute ⟨error, member, stays⟩
    exact failed_of_retained books failures (mem_disputeResults.mpr member) stays
  · intro dispute member
    exact not_failed_of_dropped books failures unique.disputeIds (mem_disputeResults.mpr member)
      rfl

end

end

/-- Whatever is staged between the read of an attempt and its reconciliation: the
queue it leaves has lost nothing that must stay and keeps nothing that arrived. -/
theorem delivery_loses_and_repeats_nothing {localClaims : List Claim} {early late : List Label}
    {prior start last final : World} {read : Label} {attempt : Attempt}
    (earlier : Run (initialWorld localClaims) early prior)
    (isRead : read = .snapshot ∨ read = .refresh) (taken : step prior read = some start)
    (running : start.attempt = some attempt)
    (run : Trace (fun world label next => step world label = some next) start late last)
    (during : ∀ label ∈ late, label.duringDelivery)
    (reconciled : step last .reconcile = some final) :
    KeyedMap.Settled Claim.id Claim.effectiveUpdatedAt start.queue.claims (stagedClaims late)
        final.queue.claims (ClaimMustStay start.queue late)
        (fun claim => .claimResult claim (.ok ()) ∈ late) ∧
      KeyedMap.Settled Dispute.id Dispute.createdAt start.queue.disputes (stagedDisputes late)
        final.queue.disputes (DisputeMustStay late)
        (fun dispute => .disputeResult dispute (.ok ()) ∈ late) ∧
      (∀ id ∈ final.queue.durableClaimIds, id ∈ final.queue.claims.map Claim.id) ∧
      (∀ id ∈ final.queue.claims.map Claim.id,
        (id ∈ start.queue.durableClaimIds ∨
          ∃ batch ∈ stagedBatches late, batch.durableClaims = true ∧
            id ∈ batch.claims.map Claim.id) →
        id ∈ final.queue.durableClaimIds) := by
  have startWellFormed : WellFormed start.queue := by
    have contracted : contractStep prior read = some start := by
      rcases isRead with rfl | rfl
      · exact taken
      · exact taken
    exact (run_inv (Trace.snoc earlier contracted)).queue.wellFormed
  obtain ⟨initial, nonempty⟩ :=
    read_delivering isRead (step_moved taken) startWellFormed running
  obtain ⟨⟨finished, held, accounts⟩, queued⟩ := initial.run nonempty run during
  cases step_moved reconciled with
  | reconcile alsoHeld phase =>
    cases held.symm.trans alsoHeld
    refine ⟨?_, ?_, ?_, ?_⟩
    · rw [writeOrClear_claims]
      exact settled_claims startWellFormed accounts queued phase
    · rw [writeOrClear_disputes]
      exact settled_disputes startWellFormed accounts queued phase
    · exact reconcile_wellFormed.writeOrClear.durable
    · intro id pending marked
      have mark : id ∈ last.queue.durableClaimIds := by
        rcases marked with first | ⟨batch, member, durable, named⟩
        · exact queued.durable id first
        · obtain ⟨claim, belongs, rfl⟩ := mem_map.mp named
          exact queued.stagedDurable batch member durable claim belongs
      rw [writeOrClear_claims] at pending
      rw [writeOrClear, if_neg (fun cleared => by simp [cleared.1] at pending)]
      exact reconcile_durable mark pending

namespace TwoEdits

def attempted : Claim :=
  ⟨"claim_a", "a", "a", "", "agent_1", .high, .active, 0, none, [], ""⟩

def second : Claim := { attempted with statement := "second", updatedAt := some 1 }

def third : Claim := { attempted with statement := "third", updatedAt := some 2 }

def stageOne (claim : Claim) : Label := .stage ⟨[claim], [], true, [], none⟩

def during : List Label :=
  [ .skipRefresh, stageOne second, stageOne third, .check true, .uploadClaim attempted,
    .claimResult attempted (.ok ()), .endRound, .check true ]

def prior : World :=
  (Trace.execute contractStep (initialWorld []) [stageOne attempted]).getD (initialWorld [])

def start : World := (step prior .snapshot).getD prior

def last : World := (Trace.execute step start during).getD start

def final : World := (step last .reconcile).getD last

theorem earlier : Run (initialWorld []) [stageOne attempted] prior :=
  Trace.of_execute (by decide +kernel)

theorem run : Trace (fun world label next => step world label = some next) start during last :=
  Trace.of_execute (by decide +kernel)

theorem allDuring : ∀ label ∈ during, label.duringDelivery := by
  simp [during, Label.duringDelivery, stageOne]

end TwoEdits

theorem delivery_loses_and_repeats_nothing_twoEdits : TwoEdits.third ∈ TwoEdits.final.queue.claims ∧
      (TwoEdits.final.queue.claims.map Claim.id).Nodup := by
  obtain ⟨attempt, running⟩ : ∃ attempt, TwoEdits.start.attempt = some attempt :=
    Option.isSome_iff_exists.mp (by decide +kernel)
  obtain ⟨claims, _⟩ := delivery_loses_and_repeats_nothing TwoEdits.earlier (.inl rfl)
    (by decide +kernel : step TwoEdits.prior .snapshot = some TwoEdits.start) running TwoEdits.run
    TwoEdits.allDuring (by decide +kernel : step TwoEdits.last .reconcile = some TwoEdits.final)
  refine ⟨?_, claims.unique⟩
  rcases claims.keepsStaged TwoEdits.third (by decide +kernel) with stays | other
  · exact stays
  · exact absurd other (by decide +kernel)

/-- Of two versions staged during one attempt only the newer one stays pending. -/
theorem staged_version_replaced_during_delivery :
    ¬ ∀ (localClaims : List Claim) (early late : List Label) (prior start last final : World),
      Run (initialWorld localClaims) early prior → step prior .snapshot = some start →
      Trace (fun world label next => step world label = some next) start late last →
      (∀ label ∈ late, label.duringDelivery) → step last .reconcile = some final →
      ∀ claim ∈ stagedClaims late, claim ∉ start.queue.claims → claim ∈ final.queue.claims := by
  intro always
  have pending := always _ _ _ _ _ _ _ TwoEdits.earlier
    (by decide +kernel : step TwoEdits.prior .snapshot = some TwoEdits.start) TwoEdits.run
    TwoEdits.allDuring (by decide +kernel : step TwoEdits.last .reconcile = some TwoEdits.final)
    TwoEdits.second (by decide +kernel) (by decide +kernel)
  exact absurd pending (by decide +kernel)

end AgentClaimNetwork
