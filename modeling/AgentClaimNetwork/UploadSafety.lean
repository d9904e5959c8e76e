import AgentClaimNetwork.UploadProtocol

/-!
Delivery order of consolidations: every issued upload of a retired source follows a readiness
check of the same attempt at which its carriers had been acknowledged.
-/

namespace AgentClaimNetwork

open Library ConsolidationDelivery PendingMaintainerUploads List

/-- What `dream.rs`, `claims.rs` and `dream_execution.rs` pass to the queue. -/
def Contract (world : World) : Label → Prop
  | .stage batch =>
    ∀ group ∈ batch.groups, group.retired ∈ (stageMaintainerBatchInner world.queue batch).claims
  | .rebind previous revised =>
    revised.retired = previous.retired ∧
      (∀ carrier ∈ revised.carriers, carrier.status ≠ .deprecated) ∧
      (revised.carriers.map Claim.id).Nodup
  | _ => True

instance (world : World) : DecidablePred (Contract world)
  | .stage _ => inferInstanceAs (Decidable (∀ group ∈ _, _))
  | .rebind _ _ => inferInstanceAs (Decidable (_ ∧ _ ∧ _))
  | .edit _ | .snapshot | .listLocal | .refresh | .skipRefresh | .check _ | .uploadClaim _
  | .claimResult _ _ | .endRound | .reportDispute _ | .disputeResult _ _ | .reconcile
  | .crash => inferInstanceAs (Decidable True)

def contractStep (world : World) (label : Label) : Option World :=
  if Contract world label then step world label else none

abbrev Run (first : World) (labels : List Label) (last : World) : Prop :=
  Trace (fun world label next => contractStep world label = some next) first labels last

variable {label : Label}

variable {world next : World}

theorem contractStep_moved (taken : contractStep world label = some next) :
    Contract world label ∧ Moved world label next := by
  unfold contractStep at taken
  split_ifs at taken with promised
  exact ⟨promised, step_moved taken⟩

structure QueueInv (world : World) : Prop where
  wellFormed : WellFormed world.queue
  aligned : Aligned world.queue.consolidations world.queue.claims
  acknowledged : ∀ claim ∈ world.queue.acknowledgements, claim ∈ world.delivered

def AttemptPhase.waitingClaims : AttemptPhase → List Claim
  | .uploading _ waiting _ => waiting
  | _ => []

structure AttemptInv (world : World) (attempt : Attempt) : Prop where
  aligned : Aligned attempt.attempted.consolidations attempt.attempted.claims
  acknowledged : ∀ claim ∈ attempt.attempted.acknowledgements, claim ∈ world.delivered
  queued : ∀ claim ∈ attempt.attempted.claims, claim.id ∈ world.queue.claims.map Claim.id
  remaining : ∀ claim ∈ attempt.remaining, claim ∈ attempt.attempted.claims
  waiting : ∀ claim ∈ attempt.phase.waitingClaims, claim ∈ attempt.attempted.claims

structure WorldInv (world : World) : Prop where
  queue : QueueInv world
  attempt : ∀ attempt, world.attempt = some attempt → AttemptInv world attempt

theorem initial_inv : WorldInv (initialWorld localClaims) where
  queue := ⟨empty_wellFormed, by simp [Aligned, initialWorld, empty],
    by simp [initialWorld, empty]⟩
  attempt _ running := by simp [initialWorld] at running

variable {attempt : Attempt}

theorem AttemptInv.queue_grows (inv : AttemptInv world attempt)
    (grows : ∀ id ∈ world.queue.claims.map Claim.id, id ∈ next.queue.claims.map Claim.id)
    (delivered : ∀ claim ∈ world.delivered, claim ∈ next.delivered) : AttemptInv next attempt where
  aligned := inv.aligned
  acknowledged claim member := delivered claim (inv.acknowledged claim member)
  queued claim member := grows _ (inv.queued claim member)
  remaining := inv.remaining
  waiting := inv.waiting

variable {world : World}

theorem QueueInv.read_attempt (inv : QueueInv world) (phase : AttemptPhase)
    (idle : phase.waitingClaims = []) :
    AttemptInv world ⟨world.queue, empty, world.queue.claims, phase⟩ where
  aligned := inv.aligned
  acknowledged := inv.acknowledged
  queued claim member := mem_map_of_mem member
  remaining _ member := member
  waiting claim member := by simp [idle] at member

theorem startUploads_some (started : startUploads attempted = some attempt) :
    ¬(attempted.claims = [] ∧ attempted.disputes = []) ∧
      attempt = ⟨attempted, empty, attempted.claims, .checking⟩ := by
  unfold startUploads at started
  split_ifs at started with nothing
  exact ⟨nothing, (Option.some.inj started).symm⟩

variable {claim : Claim}

theorem readyClaims_subset (member : claim ∈ readyClaims attempted localClaims remaining) :
    claim ∈ remaining :=
  (mem_filter.mp member).1

theorem checkRound_cases (attempt : Attempt) (localClaims : Option (List Claim)) :
    (readyClaims attempt.attempted localClaims attempt.remaining = [] ∧
      checkRound attempt localClaims = { attempt with
        failed := attempt.remaining.foldl
          (fun failed claim => retainFailedClaim failed claim true) attempt.failed
        phase := .reporting attempt.attempted.disputes [] }) ∨
      ∃ ready, ready = readyClaims attempt.attempted localClaims attempt.remaining ∧
        checkRound attempt localClaims = { attempt with
          remaining := attempt.remaining.filter (fun claim => claim ∉ ready)
          phase := .uploading localClaims ready [] } := by
  by_cases finished : readyClaims attempt.attempted localClaims attempt.remaining = []
  · exact .inl ⟨finished, if_pos finished⟩
  · exact .inr ⟨_, rfl, if_neg finished⟩

theorem AttemptInv.checkRound (inv : AttemptInv world attempt) : AttemptInv world (checkRound attempt localClaims) := by
  rcases checkRound_cases attempt localClaims with ⟨_, same⟩ | ⟨ready, chosen, same⟩
  · rw [same]
    exact ⟨inv.aligned, inv.acknowledged, inv.queued, inv.remaining,
      by simp [AttemptPhase.waitingClaims]⟩
  · rw [same]
    refine ⟨inv.aligned, inv.acknowledged, inv.queued, ?_, ?_⟩
    · intro claim member
      exact inv.remaining claim (mem_filter.mp member).1
    · intro claim member
      rw [AttemptPhase.waitingClaims, chosen] at member
      exact inv.remaining claim (readyClaims_subset member)

theorem QueueInv.refresh (inv : QueueInv world) (localClaims : List Claim) (next : Option Attempt) :
    QueueInv { world with
      queue := (refreshAttempted world.queue localClaims).writeOrClear
      attempt := next } where
  wellFormed := (refreshAttempted_wellFormed inv.wellFormed).writeOrClear
  aligned := by
    refine (refreshAttempted_aligned inv.wellFormed.claimIds inv.aligned).subset
      (fun _ member => mem_writeOrClear_consolidations member) ?_
    rw [writeOrClear_claims]
    exact fun _ member => member
  acknowledged claim member := by
    have listed : claim ∈ (refreshAttempted world.queue localClaims).acknowledgements :=
      mem_writeOrClear_acknowledgements member
    exact inv.acknowledged claim listed

theorem AttemptInv.phase (inv : AttemptInv world attempt) (phase : AttemptPhase)
    (subset : ∀ claim ∈ phase.waitingClaims, claim ∈ attempt.phase.waitingClaims) :
    AttemptInv world { attempt with phase := phase } :=
  ⟨inv.aligned, inv.acknowledged, inv.queued, inv.remaining,
    fun claim member => inv.waiting claim (subset claim member)⟩

theorem QueueInv.reconcile (inv : QueueInv world) (attemptInv : AttemptInv world attempt) :
    QueueInv { world with
      queue := (reconcilePendingUploadsAfterAttempt world.queue attempt.attempted
        attempt.failed).writeOrClear
      attempt := none } where
  wellFormed := reconcile_wellFormed.writeOrClear
  aligned := by
    refine (reconcile_aligned inv.wellFormed.claimIds attemptInv.queued inv.aligned).subset
      (fun _ member => mem_writeOrClear_consolidations member) ?_
    rw [writeOrClear_claims]
    exact fun _ member => member
  acknowledged claim member := by
    rcases mem_reconcile_acknowledgements (mem_writeOrClear_acknowledgements member) with
      old | new
    · exact inv.acknowledged claim old
    · exact attemptInv.acknowledged claim new

theorem AttemptInv.claimDelivered {waiting inFlight left : List Claim}
    (inv : AttemptInv world attempt)
    (phase : attempt.phase = .uploading localClaims waiting inFlight) (next : Option Attempt) :
    AttemptInv { world with attempt := next, delivered := claim :: world.delivered }
      { attempt with
        attempted := { attempt.attempted with
          acknowledgements := acknowledge attempt.attempted.acknowledgements claim }
        phase := .uploading localClaims waiting left } where
  aligned := inv.aligned
  acknowledged other member := by
    rcases mem_acknowledge member with old | new
    · exact mem_cons_of_mem _ (inv.acknowledged other old)
    · simp [new]
  queued := inv.queued
  remaining := inv.remaining
  waiting other member := by
    apply inv.waiting other
    rw [phase]
    exact member

theorem moved_queueInv (promised : Contract world label)
    (moved : Moved world label next) (inv : WorldInv world) : QueueInv next := by
  obtain ⟨queueInv, attemptInv⟩ := inv
  cases moved with
  | stage batch =>
    exact ⟨stage_wellFormed, stage_aligned queueInv.aligned promised,
      fun claim member => queueInv.acknowledged claim (mem_stage_acknowledgements member)⟩
  | rebound done =>
    obtain ⟨retires, live, distinct⟩ := promised
    obtain ⟨_, _, _, _, acknowledged⟩ := rebind_ok done
    exact ⟨rebind_wellFormed queueInv.wellFormed done distinct,
      rebind_aligned queueInv.aligned done retires live,
      fun claim member => queueInv.acknowledged claim (acknowledged claim member)⟩
  | refresh running phase => exact queueInv.refresh _ _
  | reconcile running phase => exact queueInv.reconcile (attemptInv _ running)
  | claimDelivered running phase member =>
    exact ⟨queueInv.wellFormed, queueInv.aligned,
      fun claim listed => mem_cons_of_mem _ (queueInv.acknowledged claim listed)⟩
  | edit | refused | nothingQueued | snapshot | listLocal | skipRefresh | check | uploadClaim
  | claimFailed | endRound | reportDispute | disputeResult | crash =>
    exact ⟨queueInv.wellFormed, queueInv.aligned, queueInv.acknowledged⟩

theorem moved_attemptInv (moved : Moved world label next)
    (inv : WorldInv world) (nextQueue : QueueInv next) :
    ∀ attempt, next.attempt = some attempt → AttemptInv next attempt := by
  obtain ⟨queueInv, attemptInv⟩ := inv
  intro attempt started
  cases moved with
  | edit | refused | nothingQueued =>
    exact (attemptInv attempt started).queue_grows (fun _ member => member)
      (fun _ member => member)
  | stage batch =>
    exact (attemptInv attempt started).queue_grows
      (fun _ member => stage_keeps_claim_ids queueInv.wellFormed member)
      (fun _ member => member)
  | rebound done =>
    exact (attemptInv attempt started).queue_grows
      (fun _ member => rebind_keeps_claim_ids done member) (fun _ member => member)
  | snapshot idle =>
    cases started
    exact nextQueue.read_attempt .snapshot rfl
  | refresh running phase =>
    obtain ⟨nonempty, rfl⟩ := startUploads_some started
    have read := nextQueue.read_attempt .checking rfl
    simp only [writeOrClear, if_neg nonempty] at read ⊢
    exact read
  | skipRefresh running phase =>
    obtain ⟨_, rfl⟩ := startUploads_some started
    have old := attemptInv _ running
    exact ⟨old.aligned, old.acknowledged, old.queued, fun _ member => member,
      by simp [AttemptPhase.waitingClaims]⟩
  | check locked running phase =>
    cases started
    exact ((attemptInv _ running).checkRound).queue_grows (fun _ member => member)
      (fun _ member => member)
  | uploadClaim running phase =>
    cases started
    refine ((attemptInv _ running).phase _ ?_).queue_grows (fun _ member => member)
      (fun _ member => member)
    intro claim member
    rw [phase]
    exact mem_cons_of_mem _ member
  | claimDelivered running phase member =>
    cases started
    exact (attemptInv _ running).claimDelivered phase _
  | claimFailed running phase member =>
    cases started
    have old := attemptInv _ running
    refine ⟨old.aligned, old.acknowledged, old.queued, old.remaining, ?_⟩
    intro claim waiting
    apply old.waiting claim
    rw [phase]
    exact waiting
  | disputeResult running phase member =>
    cases started
    have old := attemptInv _ running
    exact ⟨old.aligned, old.acknowledged, old.queued, old.remaining,
      by simp [AttemptPhase.waitingClaims]⟩
  | listLocal running phase | endRound running phase | reportDispute running phase =>
    cases started
    exact ((attemptInv _ running).phase _ (by simp [AttemptPhase.waitingClaims])).queue_grows
      (fun _ member => member) (fun _ member => member)
  | reconcile | crash => cases started

theorem run_inv (run : Run (initialWorld localClaims) labels world) : WorldInv world := by
  refine run.invariant ?_ initial_inv
  intro state label next taken inv
  obtain ⟨promised, moved⟩ := contractStep_moved taken
  have nextQueue := moved_queueInv promised moved inv
  exact ⟨nextQueue, moved_attemptInv moved inv nextQueue⟩

def Label.quietAttempt : Label → Prop
  | .snapshot | .refresh | .reconcile | .crash => False
  | _ => True

def Label.quietRound : Label → Prop
  | .edit _ | .stage _ | .rebind _ _ | .uploadClaim _ | .claimResult _ _ => True
  | _ => False

abbrev SinceRead (P : World → Prop) : World → List Label → World → Prop :=
  Trace.Since (fun world label next => contractStep world label = some next)
    Label.quietAttempt P

abbrev SinceCheck (P : World → Prop) : World → List Label → World → Prop :=
  Trace.Since (fun world label next => contractStep world label = some next)
    Label.quietRound P

def ReadBy (attempt : Attempt) (read : World) : Prop :=
  read.queue.claims = attempt.attempted.claims ∧
    read.queue.consolidations = attempt.attempted.consolidations

theorem run_read (run : Run (initialWorld localClaims) labels world)
    (running : world.attempt = some attempt) :
    SinceRead (ReadBy attempt) (initialWorld localClaims) labels world := by
  induction run generalizing attempt with
  | nil => simp [initialWorld] at running
  | snoc before taken ih =>
    have run := Trace.snoc before taken
    obtain ⟨_, moved⟩ := contractStep_moved taken
    cases moved with
    | edit | stage | rebound | refused => exact (ih running).extend taken trivial
    | nothingQueued idle => rw [idle] at running; cases running
    | snapshot idle =>
      cases running
      exact Trace.Since.now run ⟨rfl, rfl⟩
    | refresh held phase =>
      obtain ⟨nonempty, rfl⟩ := startUploads_some running
      refine Trace.Since.now run ?_
      rw [ReadBy, writeOrClear, if_neg nonempty]
      exact ⟨rfl, rfl⟩
    | skipRefresh held phase =>
      obtain ⟨_, rfl⟩ := startUploads_some running
      exact (ih held).extend taken trivial
    | check locked held phase =>
      cases running
      refine ((ih held).extend taken trivial).imp fun read same => ?_
      rcases checkRound_cases _ _ with ⟨_, round⟩ | ⟨_, _, round⟩
      all_goals
        rw [round]
        exact same
    | listLocal held | uploadClaim held | claimDelivered held | claimFailed held
    | endRound held | reportDispute held | disputeResult held =>
      cases running
      exact (ih held).extend taken trivial
    | reconcile | crash => cases running

def PassedCheck (groups : List ConsolidationDelivery) (claim : Claim) (checked : World) : Prop :=
  claim.id ∉ relatedIds groups ∨
    (claim ∈ checked.localClaims ∧ ∀ group ∈ groups, group.retired = claim →
      group.carriers ≠ [] ∧
        ∀ carrier ∈ group.carriers,
          Carried groups (· ∈ checked.delivered) checked.localClaims carrier)

theorem passedCheck_of_ready
    (acknowledged : ∀ other ∈ attempt.attempted.acknowledgements, other ∈ world.delivered)
    (chosen : claim ∈ readyClaims attempt.attempted (checkedLocal world attempt locked)
      attempt.remaining) :
    PassedCheck attempt.attempted.consolidations claim world := by
  have passed := (mem_filter.mp chosen).2
  by_cases related : claim.id ∈ relatedIds attempt.attempted.consolidations
  · right
    have nonempty : relatedIds attempt.attempted.consolidations ≠ ∅ :=
      Finset.ne_empty_of_mem related
    cases locked with
    | false => simp [checkedLocal, nonempty, related] at passed
    | true =>
      simp only [checkedLocal, nonempty, related, if_false, if_true, not_true, decide_false,
        Bool.false_or, Option.any_some, Bool.and_eq_true, decide_eq_true_eq] at passed
      refine ⟨passed.1, fun group member retires => ?_⟩
      obtain ⟨nonempty, carried⟩ := ready_sound passed.2 member retires
      exact ⟨nonempty, fun carrier belongs => (carried carrier belongs).mono acknowledged⟩
  · exact .inl related

theorem run_checked (run : Run (initialWorld localClaims) labels world)
    (running : world.attempt = some attempt) (waiting : claim ∈ attempt.phase.waitingClaims) :
    SinceCheck (PassedCheck attempt.attempted.consolidations claim) (initialWorld localClaims)
      labels world := by
  induction run generalizing attempt with
  | nil => simp [initialWorld] at running
  | snoc before taken ih =>
    have run := Trace.snoc before taken
    have inv := run_inv before
    obtain ⟨_, moved⟩ := contractStep_moved taken
    cases moved with
    | edit | stage | rebound | refused => exact (ih running waiting).extend taken trivial
    | nothingQueued idle => rw [idle] at running; cases running
    | refresh held phase | skipRefresh held phase =>
      obtain ⟨_, rfl⟩ := startUploads_some running
      simp [AttemptPhase.waitingClaims] at waiting
    | check locked held phase =>
      cases running
      refine Trace.Since.now run ?_
      rcases checkRound_cases _ _ with ⟨_, round⟩ | ⟨ready, chosen, round⟩
      · rw [round] at waiting
        simp [AttemptPhase.waitingClaims] at waiting
      · rw [round] at waiting ⊢
        rw [AttemptPhase.waitingClaims, chosen] at waiting
        have passed := passedCheck_of_ready (inv.attempt _ held).acknowledged waiting
        exact passed
    | uploadClaim held phase =>
      cases running
      refine (ih held ?_).extend taken trivial
      rw [phase]
      exact mem_cons_of_mem _ waiting
    | claimDelivered held phase | claimFailed held phase =>
      cases running
      refine (ih held ?_).extend taken trivial
      rw [phase]
      exact waiting
    | snapshot | listLocal | endRound | reportDispute | disputeResult =>
      cases running
      simp [AttemptPhase.waitingClaims] at waiting
    | reconcile | crash => cases running

/-- An issued upload of a deprecated claim: every group of the attempt that retires its identifier
retires this version, and at the check before it each carrier was acknowledged at its local version
or carried on by a later group. -/
theorem deprecated_upload_follows_carriers {localClaims : List Claim} {labels : List Label}
    {world next : World} {claim : Claim}
    (run : Run (initialWorld localClaims) labels world)
    (issued : step world (.uploadClaim claim) = some next)
    (deprecated : claim.status = .deprecated) :
    ∃ attempt, world.attempt = some attempt ∧
      SinceRead (fun read => claim ∈ read.queue.claims ∧ ReadBy attempt read)
        (initialWorld localClaims) labels world ∧
      ∀ group ∈ attempt.attempted.consolidations, group.retired.id = claim.id →
        group.retired = claim ∧ group.carriers ≠ [] ∧
        SinceCheck (fun checked => claim ∈ checked.localClaims ∧
            ∀ carrier ∈ group.carriers, Carried attempt.attempted.consolidations
              (· ∈ checked.delivered) checked.localClaims carrier)
          (initialWorld localClaims) labels world := by
  cases step_moved issued with
  | @uploadClaim attempt current _ waiting inFlight running phase =>
    have inv := (run_inv run).attempt attempt running
    have head : claim ∈ attempt.phase.waitingClaims := by
      rw [phase]
      exact mem_cons_self
    have attempted : claim ∈ attempt.attempted.claims := inv.waiting claim head
    refine ⟨attempt, running, ?_, ?_⟩
    · refine (run_read run running).imp fun read same => ⟨?_, same⟩
      rw [same.1]
      exact attempted
    · intro group member same
      have retires := inv.aligned claim attempted deprecated group member same
      have related : claim.id ∈ relatedIds attempt.attempted.consolidations :=
        mem_relatedIds.mpr ⟨group, member, .inl same.symm⟩
      have since := run_checked run running head
      have checked : ∀ past, PassedCheck attempt.attempted.consolidations claim past →
          claim ∈ past.localClaims ∧ group.carriers ≠ [] ∧
            ∀ carrier ∈ group.carriers, Carried attempt.attempted.consolidations
              (· ∈ past.delivered) past.localClaims carrier := by
        intro past passed
        obtain ⟨present, groups⟩ := passed.resolve_left (fun outside => outside related)
        exact ⟨present, groups group member retires⟩
      obtain ⟨_, _, past, _, _, _, _, passed⟩ := since
      refine ⟨retires, (checked past passed).2.1, ?_⟩
      exact (run_checked run running head).imp fun past passed =>
        ⟨(checked past passed).1, (checked past passed).2.2⟩

def CarriersDelivered (world : World) (claim : Claim) : Prop :=
  ∀ group ∈ world.queue.consolidations, group.retired.id = claim.id →
    ∀ carrier ∈ group.carriers,
      Carried world.queue.consolidations (· ∈ world.delivered) world.localClaims carrier

namespace LateEdit

def source : Claim :=
  ⟨"claim_a", "a", "a", "", "agent_1", .high, .active, 0, none, [], ""⟩

def retired : Claim := { source with status := .deprecated, updatedAt := some 1 }

def carrier : Claim :=
  ⟨"claim_b", "b", "b", "", "agent_1", .high, .active, 1, none, [], ""⟩

def editedCarrier : Claim := { carrier with statement := "b, edited", updatedAt := some 2 }

def labels : List Label :=
  [ .stage ⟨[retired, carrier], [], true, [⟨source, retired, [carrier]⟩], none⟩,
    .snapshot, .skipRefresh,
    .check true, .uploadClaim carrier, .claimResult carrier (.ok ()), .endRound,
    -- the check of the second round passes, and its lock is released before the upload
    .check true, .edit [retired, editedCarrier] ]

def issuing : World :=
  ((Trace.execute contractStep (initialWorld [retired, carrier]) labels).getD
    (initialWorld []))

theorem run : Run (initialWorld [retired, carrier]) labels issuing :=
  Trace.of_execute (by decide +kernel)

theorem issued : ∃ next, step issuing (.uploadClaim retired) = some next := by
  have some : (step issuing (.uploadClaim retired)).isSome := by decide +kernel
  exact Option.isSome_iff_exists.mp some

end LateEdit

theorem deprecated_upload_follows_carriers_lateEdit :
    ∃ attempt, LateEdit.issuing.attempt = some attempt ∧
      ∃ group ∈ attempt.attempted.consolidations, group.retired = LateEdit.retired ∧
        SinceCheck (fun checked => LateEdit.retired ∈ checked.localClaims ∧
            ∀ carrier ∈ group.carriers, Carried attempt.attempted.consolidations
              (· ∈ checked.delivered) checked.localClaims carrier)
          (initialWorld [LateEdit.retired, LateEdit.carrier]) LateEdit.labels
          LateEdit.issuing := by
  obtain ⟨next, taken⟩ := LateEdit.issued
  obtain ⟨attempt, running, _, groups⟩ :=
    deprecated_upload_follows_carriers LateEdit.run taken rfl
  have member : ⟨LateEdit.source, LateEdit.retired, [LateEdit.carrier]⟩ ∈
      attempt.attempted.consolidations := by
    have listed : ∀ started ∈ LateEdit.issuing.attempt,
        ⟨LateEdit.source, LateEdit.retired, [LateEdit.carrier]⟩ ∈
          started.attempted.consolidations := by decide +kernel
    exact listed attempt running
  obtain ⟨retires, _, since⟩ := groups _ member rfl
  exact ⟨attempt, running, _, member, retires, since⟩

/-- A carrier edited between the check and the request is not delivered at its current
version when the retired source is uploaded. -/
theorem carriersDelivered_fails_after_late_edit :
    ¬ ∀ localClaims labels world next claim, Run (initialWorld localClaims) labels world →
      step world (.uploadClaim claim) = some next → claim ∈ world.queue.claims →
      claim.status = .deprecated → CarriersDelivered world claim := by
  intro always
  obtain ⟨next, taken⟩ := LateEdit.issued
  have delivered := always _ _ _ next LateEdit.retired LateEdit.run taken (by decide +kernel) rfl
    ⟨LateEdit.source, LateEdit.retired, [LateEdit.carrier]⟩ (by decide +kernel) rfl
    LateEdit.carrier (by simp)
  generalize isCarrier : LateEdit.carrier = carrier at delivered
  cases delivered with
  | acknowledged live present sent =>
    rw [← isCarrier] at present
    exact absurd present (by decide +kernel)
  | @replaced group member _ _ _ =>
    have outside : ∀ group ∈ LateEdit.issuing.queue.consolidations,
        group.before ≠ LateEdit.carrier := by decide +kernel
    exact outside group member isCarrier.symm

/-- In every run, what the queue or the attempt takes for acknowledged was delivered, and what
the attempt still has to send waits in the queue under its id. -/
theorem acknowledged_was_delivered {world : World}
    (run : Run (initialWorld localClaims) labels world) :
    world.queue.WellFormed ∧
      (∀ claim ∈ world.queue.acknowledgements, claim ∈ world.delivered) ∧
      ∀ attempt, world.attempt = some attempt →
        (∀ claim ∈ attempt.attempted.acknowledgements, claim ∈ world.delivered) ∧
        ∀ claim, claim ∈ attempt.remaining ∨ claim ∈ attempt.phase.waitingClaims →
          claim ∈ attempt.attempted.claims ∧ claim.id ∈ world.queue.claims.map Claim.id := by
  have inv := run_inv run
  refine ⟨inv.queue.wellFormed, inv.queue.acknowledged, fun attempt running => ?_⟩
  have attemptInv := inv.attempt attempt running
  refine ⟨attemptInv.acknowledged, fun claim left => ?_⟩
  have taken : claim ∈ attempt.attempted.claims :=
    left.elim (attemptInv.remaining claim) (attemptInv.waiting claim)
  exact ⟨taken, attemptInv.queued claim taken⟩

theorem acknowledged_was_delivered_lateEdit : LateEdit.issuing.queue.WellFormed ∧
    ∃ attempt, LateEdit.issuing.attempt = some attempt ∧
      LateEdit.carrier ∈ attempt.attempted.acknowledgements ∧
      (∀ claim ∈ attempt.attempted.acknowledgements, claim ∈ LateEdit.issuing.delivered) ∧
      ∀ claim, claim ∈ attempt.remaining ∨ claim ∈ attempt.phase.waitingClaims →
        claim ∈ attempt.attempted.claims ∧
          claim.id ∈ LateEdit.issuing.queue.claims.map Claim.id := by
  obtain ⟨wellFormed, _, each⟩ := acknowledged_was_delivered LateEdit.run
  have carried : ∃ attempt ∈ LateEdit.issuing.attempt,
      LateEdit.carrier ∈ attempt.attempted.acknowledgements := by decide +kernel
  obtain ⟨attempt, running, carried⟩ := carried
  exact ⟨wellFormed, attempt, running, carried, each attempt running⟩

end AgentClaimNetwork
