import AgentClaimNetwork.Agent.ClaimEditSafety

/-!
Of the edits that name one revision at most one changes a claim file, and what it wrote is in the
upload queue before its record is gone.
-/

namespace AgentClaimNetwork.Agent.ClaimEdits

open Library Library.Durable Library.VersionLog List
open Triple (ok seq write)

variable {Revision : Type} {editor : ClaimEditor Revision} {first : EditStore Revision}
  {old : List (DurableWrite Revision)}

structure Consistent (editor : ClaimEditor Revision) (first : EditStore Revision)
    (world : EditWorld Revision) : Prop where
  kept : Kept editor first world.store.log none world.store
  below : ∀ call, Wrote call world.store.log → call < world.calls
  returned : ∀ call result, (call, result) ∈ world.returned →
    Settled call result.claim world.store.log

structure Follows (world next : EditWorld Revision) : Prop where
  log : world.store.log <:+ next.store.log
  calls : world.calls ≤ next.calls
  authors : ∀ call, Wrote call next.store.log → Wrote call world.store.log ∨ world.calls ≤ call

theorem Follows.refl : Follows world world :=
  ⟨suffix_refl _, Nat.le_refl _, fun _ => .inl⟩

theorem Follows.trans {world middle next : EditWorld Revision} (before : Follows world middle)
    (after : Follows middle next) : Follows world next := by
  refine ⟨before.log.trans after.log, before.calls.trans after.calls, fun call wrote => ?_⟩
  rcases after.authors call wrote with earlier | later
  · exact before.authors call earlier
  · exact .inr (before.calls.trans later)
variable {claim : Claim}

theorem Settled.mono {earlier log : List (DurableWrite Revision)}
    (settled : Settled call claim earlier) (suffix : earlier <:+ log) : Settled call claim log := by
  obtain ⟨update, replaced, before, removed, wrote⟩ := settled
  exact ⟨update, replaced, before, removed.trans suffix, wrote⟩

section

variable {store : EditStore Revision}

theorem Kept.here (kept : Kept editor first old author store) :
    Kept editor first store.log none store :=
  { kept with grown := suffix_refl _, authors := fun _ => .inl }

theorem Kept.dream (kept : Kept editor first old author store) (pending : Bool) :
    Kept editor first old author { store with dreamPending := pending } :=
  ⟨kept.lawful, kept.files, kept.queued, kept.pending, kept.grown, kept.authors⟩

variable {next : EditWorld Revision}

theorem Consistent.other (consistent : Consistent editor first world)
    (kept : Kept editor first world.store.log none store) :
    Consistent editor first { world with store } ∧ Follows world { world with store } := by
  have authors : ∀ call, Wrote call store.log → Wrote call world.store.log :=
    fun call wrote => (kept.authors call wrote).resolve_right (by simp)
  refine ⟨⟨kept.here, fun call wrote => consistent.below call (authors call wrote), ?_⟩,
    kept.grown, Nat.le_refl _, fun call wrote => .inl (authors call wrote)⟩
  exact fun call result member => (consistent.returned call result member).mono kept.grown

theorem Consistent.finishUpdate (consistent : Consistent editor first world)
    (ends : outcome.Ends
      (fun result store => Kept editor first world.store.log (some world.calls) store ∧
        Settled world.calls result.claim store.log)
      (Kept editor first world.store.log (some world.calls))) :
    Consistent editor first (world.finishUpdate outcome) ∧
      Follows world (world.finishUpdate outcome) := by
  have kept : Kept editor first world.store.log (some world.calls) outcome.store := by
    cases outcome with
    | value result last rest => exact ends.1
    | error last rest | stopped last => exact ends
  have authors : ∀ call, Wrote call outcome.store.log →
      Wrote call world.store.log ∨ world.calls = call := fun call wrote => by
    simpa using kept.authors call wrote
  refine ⟨⟨kept.here, ?_, ?_⟩, kept.grown, Nat.le_succ _, ?_⟩
  · intro call wrote
    show call < world.calls + 1
    rcases authors call wrote with before | own
    · exact Nat.lt_succ_of_lt (consistent.below call before)
    · omega
  · intro call result member
    have earlier : ∀ known, (call, known) ∈ world.returned →
        Settled call known.claim outcome.store.log := fun known there =>
      (consistent.returned call known there).mono kept.grown
    cases outcome with
    | value value last rest =>
      rcases mem_cons.mp member with own | before
      · cases own
        exact ends.2
      · exact earlier result before
    | error last rest | stopped last => exact earlier result member
  · intro call wrote
    rcases authors call wrote with before | own
    · exact .inl before
    · exact .inr (Nat.le_of_eq own)

theorem consistent_start (start : Start first) : Consistent editor first ⟨first, 0, []⟩ := by
  have unwritten : ∀ call, ¬ Wrote call first.log := by simp [Wrote, start.fresh]
  refine ⟨⟨?_, ?_, ?_, ?_, suffix_refl _, fun _ => .inl⟩, ?_, ?_⟩
  · rw [start.fresh]
    trivial
  · rw [start.fresh]
    rfl
  · intro claim member
    simp [wasLocal, member]
  · intro call edit there
    rw [start.settled] at there
    cases there
  · exact fun call wrote => absurd wrote (unwritten call)
  · exact fun call result member => by cases member

variable [DecidableEq Revision]

theorem Consistent.step (injective : Function.Injective editor.revision) (start : Start first)
    (team : editor.teamServicesConfigured = true) (consistent : Consistent editor first world)
    (taken : world.act editor first action = some next) :
    Consistent editor first next ∧ Follows world next := by
  cases action with
  | update update now fates =>
    cases taken
    exact consistent.finishUpdate
      (updateClaim_triple injective start team consistent.below world.store fates consistent.kept)
  | recover found fates =>
    cases taken
    exact consistent.other
      (Triple.ends (recoverPendingClaimEdit_triple injective start team) fates consistent.kept)
  | writeClaim claim =>
    simp only [EditWorld.act, Option.ite_none_right_eq_some, Option.some.injEq] at taken
    obtain ⟨later, rfl⟩ := taken
    simp only [Option.all_eq_true, decide_eq_true_eq] at later
    refine consistent.other (consistent.kept.writeClaim later (by simp) ?_)
    intro call edit there
    obtain ⟨_, base, expected, past⟩ := consistent.kept.pending call edit there
    exact ⟨base, expected, by simp, past⟩
  | writeQueue queue =>
    simp only [EditWorld.act, Option.ite_none_right_eq_some, Option.some.injEq] at taken
    obtain ⟨known, rfl⟩ := taken
    simp only [all_eq_true, Bool.or_eq_true, decide_eq_true_eq] at known
    refine consistent.other (consistent.kept.writeQueue fun claim member => ?_)
    exact (known claim member).elim (consistent.kept.queued claim) id
  | dream pending =>
    cases taken
    exact consistent.other (consistent.kept.dream pending)

theorem Consistent.run (injective : Function.Injective editor.revision) (start : Start first)
    (team : editor.teamServicesConfigured = true) (consistent : Consistent editor first world)
    (run : EditWorld.Run editor first world actions next) :
    Consistent editor first next ∧ Follows world next := by
  induction run with
  | nil => exact ⟨consistent, Follows.refl⟩
  | snoc _ taken ih =>
    obtain ⟨later, before⟩ := ih
    obtain ⟨last, after⟩ := later.step injective start team taken
    exact ⟨last, before.trans after⟩

end

section

variable {log : List (DurableWrite Revision)}

theorem replaced_once (start : Start first) (lawful : Lawful (Allowed editor first) log)
    {old other : Claim} (wrote : .claimWritten writer (some old) claim :: earlier <:+ log)
    (again : localVersion first log other.id = some old) : False := by
  have there : localVersion first earlier claim.id = some old := (lawful.allowed_at wrote).1
  have same : other.id = claim.id :=
    (localVersion_named start again).symm.trans (localVersion_named start there)
  rw [same] at again
  exact (rising_of_lawful lawful).no_return wrote rfl there again

theorem one_write_per_revision (injective : Function.Injective editor.revision)
    (start : Start first) (lawful : Lawful (Allowed editor first) log)
    (wrote : .claimWritten (.edit call update) replaced claim :: earlier <:+ log)
    (again : .claimWritten (.edit other also) overwritten version :: before <:+ log)
    (same : update.expectedRevision = also.expectedRevision) : call = other ∧ earlier = before := by
  obtain ⟨here, _, reads⟩ := lawful.allowed_at wrote
  obtain ⟨there, _, readsAgain⟩ := lawful.allowed_at again
  obtain ⟨old, rfl, revision⟩ := reads call update rfl
  obtain ⟨past, rfl, revisionAgain⟩ := readsAgain other also rfl
  have one : old = past := injective (by rw [revision, revisionAgain, same])
  subst one
  rcases moments_ordered wrote again with ⟨event, moment⟩ | inside | inside
  · simp only [DurableWrite.claimWritten.injEq, Writer.edit.injEq] at event
    exact ⟨event.1.1, moment⟩
  · exact (replaced_once start (lawful.of_suffix (suffix_of_cons_suffix again)) inside there).elim
  · exact (replaced_once start (lawful.of_suffix (suffix_of_cons_suffix wrote)) inside here).elim

theorem staged_target_is_written (start : Start first) (lawful : Lawful (Allowed editor first) log)
    (recorded : .pendingWritten call edit ∈ log) (queued : .queueWritten claims :: earlier <:+ log)
    (member : edit.target ∈ claims) :
    ∃ writer replaced, .claimWritten writer replaced edit.target ∈ earlier := by
  obtain ⟨before, moment⟩ := exists_suffix_of_mem recorded
  obtain ⟨_, current, present, later⟩ := lawful.allowed_at moment
  have rising := rising_of_lawful (lawful.of_suffix (suffix_of_cons_suffix moment))
  have newer : ∀ old, first.claims edit.target.id = some old →
      old.effectiveUpdatedAt < edit.target.effectiveUpdatedAt := by
    intro old initial
    obtain ⟨now, there, bound⟩ := rising.le nil_suffix initial
    have same : now = current := Option.some.inj (there.symm.trans present)
    rw [same] at bound
    exact lt_of_le_of_lt bound later
  have known : wasLocal first earlier edit.target = true := lawful.allowed_at queued edit.target member
  simp only [wasLocal, Bool.or_eq_true, decide_eq_true_eq, any_eq_true] at known
  rcases known with (initially | initial) | ⟨event, happened, wrote⟩
  · obtain ⟨old, there, bound⟩ := start.queued edit.target initially
    exact absurd (newer old there) (not_lt_of_ge bound)
  · exact absurd (newer edit.target initial) (lt_irrefl _)
  · cases event with
    | claimWritten writer replaced claim =>
      cases wrote
      exact ⟨writer, replaced, happened⟩
    | pendingWritten call edit | queueWritten claims | pendingRemoved call current => cases wrote

end

section

variable {files : ClaimId → Option Claim}

def Untouched (files : ClaimId → Option Claim) (old : List (DurableWrite Revision))
    (store : EditStore Revision) : Prop :=
  store.claims = files ∧ ∀ event ∈ store.log, event ∈ old ∨ event.claim? = none

open ClaimEditor

theorem Untouched.cons {store next : EditStore Revision} (untouched : Untouched files old store)
    {event : DurableWrite Revision} (claims : next.claims = store.claims)
    (log : next.log = event :: store.log) (silent : event.claim? = none) :
    Untouched files old next := by
  refine ⟨claims.trans untouched.1, fun other member => ?_⟩
  rw [log] at member
  rcases mem_cons.mp member with same | before
  · rw [same]
    exact .inr silent
  · exact untouched.2 other before

theorem clearPendingClaimEdit_untouched :
    Durable.Keeps (Untouched files old) clearPendingClaimEdit := by
  apply write (fun _ untouched => untouched)
  intro store untouched
  unfold EditStore.removePending
  cases store.pending with
  | none => exact untouched
  | some record => exact untouched.cons rfl rfl rfl

variable [DecidableEq Revision]

theorem settlePendingClaimEdit_untouched :
    Durable.Keeps (Untouched files old) (editor.settlePendingClaimEdit edit current) := by
  unfold settlePendingClaimEdit
  split_ifs
  · exact clearPendingClaimEdit_untouched
  · exact seq (write (fun _ untouched => untouched)
      fun _ untouched => untouched.cons rfl rfl rfl) fun _ => clearPendingClaimEdit_untouched

theorem recoverPendingClaimEditLocked_untouched :
    Durable.Keeps (Untouched files old) editor.recoverPendingClaimEditLocked := by
  unfold recoverPendingClaimEditLocked
  split_ifs
  · refine seq (ensureKnowledgeReady_triple fun _ untouched => untouched) fun _ =>
      Triple.look_any fun seen => ?_
    cases seen.pending with
    | none => exact ok fun _ untouched => untouched
    | some record =>
      exact Triple.bind (readOwnedClaim_triple fun _ untouched => untouched) fun current =>
        Triple.weaken settlePendingClaimEdit_untouched (fun _ before => before.2)
          fun _ _ after => after
  · exact ok fun _ untouched => untouched

theorem recoverPendingClaimEdit_untouched :
    Durable.Keeps (Untouched files old) (editor.recoverPendingClaimEdit found) := by
  unfold recoverPendingClaimEdit
  split_ifs
  · exact recoverPendingClaimEditLocked_untouched
  · exact ok fun _ untouched => untouched

end

/-- Runs in team mode, seen at a moment and at a later one.  Edits that name one revision change a
claim file at most once; recovery changes none; a call that returned, or wrote before it stopped, has
its target staged before its record goes; a call that ended without having written is never written
for; each edit writes a later version than the one it replaces. -/
theorem claim_edit_is_all_or_nothing [DecidableEq Revision] {editor : ClaimEditor Revision}
    {first : EditStore Revision} (injective : Function.Injective editor.revision)
    (team : editor.teamServicesConfigured = true) (start : Start first)
    {actions more : List (EditAction Revision)} {middle last : EditWorld Revision}
    (run : EditWorld.Run editor first ⟨first, 0, []⟩ actions middle)
    (rest : EditWorld.Run editor first middle more last) :
    (∀ call update replaced claim earlier other also overwritten version before,
      .claimWritten (.edit call update) replaced claim :: earlier <:+ last.store.log →
      .claimWritten (.edit other also) overwritten version :: before <:+ last.store.log →
      update.expectedRevision = also.expectedRevision → call = other ∧ earlier = before) ∧
    (∀ found fates, Untouched last.store.claims last.store.log
      (editor.recoverPendingClaimEdit found last.store fates).store) ∧
    (∀ call result, (call, result) ∈ last.returned → ∃ update replaced earlier,
      .pendingRemoved call (some result.claim) :: earlier <:+ last.store.log ∧
      .claimWritten (.edit call update) replaced result.claim ∈ earlier) ∧
    (∀ call current earlier, .pendingRemoved call current :: earlier <:+ last.store.log →
      Wrote call earlier → ∃ version, current = some version ∧ Staged version earlier) ∧
    (∀ call < middle.calls, ¬ Wrote call middle.store.log → ¬ Wrote call last.store.log ∧
      ∀ edit, .pendingWritten call edit ∈ middle.store.log →
        ∀ claims earlier, .queueWritten claims :: earlier <:+ last.store.log →
          edit.target ∈ claims →
          ∃ writer replaced, .claimWritten writer replaced edit.target ∈ earlier) ∧
    (∀ call update replaced claim,
      .claimWritten (.edit call update) replaced claim ∈ last.store.log →
      ∃ old, replaced = some old ∧ old.effectiveUpdatedAt < claim.effectiveUpdatedAt) := by
  obtain ⟨settled, _⟩ := (consistent_start start).run injective start team run
  obtain ⟨consistent, follows⟩ := settled.run injective start team rest
  have lawful := consistent.kept.lawful
  refine ⟨?_, ?_, consistent.returned, ?_, ?_, ?_⟩
  · intro call update replaced claim earlier other also overwritten version before wrote again same
    exact one_write_per_revision injective start lawful wrote again same
  · intro found fates
    exact Triple.ends recoverPendingClaimEdit_untouched fates ⟨rfl, fun _ => .inl⟩
  · intro call current earlier removed wrote
    exact lawful.allowed_at removed wrote
  · intro call ended unwritten
    refine ⟨fun wrote => ?_, ?_⟩
    · rcases follows.authors call wrote with before | later
      · exact unwritten before
      · omega
    · intro edit recorded claims earlier queued member
      exact staged_target_is_written start lawful (follows.log.subset recorded) queued member
  · intro call update replaced claim wrote
    obtain ⟨earlier, moment⟩ := exists_suffix_of_mem wrote
    obtain ⟨_, later, reads⟩ := lawful.allowed_at moment
    obtain ⟨old, there, _⟩ := reads call update rfl
    exact ⟨old, there, later old there⟩

def teamEditor : ClaimEditor Claim :=
  { agentId := "agent-a", teamServicesConfigured := true, revision := id, scan := fun _ => true }

def sampleClaim : Claim :=
  { id := "claim-a", name := "timeout", statement := "30 s", scope := "orders", holder := "agent-a"
    confidence := .high, status := .active, createdAt := 0, updatedAt := none, sourceClaimIds := []
    evidenceSummary := "trace" }

def sampleFiles : EditStore Claim :=
  { claims := fun id => if id = "claim-a" then some sampleClaim else none
    pending := none, queue := PendingMaintainerUploads.empty, dreamPending := false, log := [] }

def sampleUpdate : ClaimUpdate Claim :=
  { id := "claim-a", expectedRevision := sampleClaim, name := some "batch timeout"
    statement := none, scope := none, evidenceSummary := none, confidence := none, status := none }

theorem sampleFiles_start : Start sampleFiles := by
  refine ⟨rfl, rfl, ?_, fun claim member => by cases member⟩
  intro id claim there
  simp only [sampleFiles, Option.ite_none_right_eq_some, Option.some.injEq] at there
  rw [← there.2, there.1]
  rfl

/-- The call stops after its claim write and a recovery finishes for it. -/
theorem landed_edit_is_staged : ∃ middle last,
    EditWorld.act teamEditor sampleFiles ⟨sampleFiles, 0, []⟩
      (.update sampleUpdate 5000000000 [.done, .done]) = some middle ∧
    EditWorld.act teamEditor sampleFiles middle (.recover true [.done, .done]) = some last ∧
    last.store.log.length = 4 ∧
    ∀ call current earlier, .pendingRemoved call current :: earlier <:+ last.store.log →
      Wrote call earlier → ∃ version, current = some version ∧ Staged version earlier := by
  refine ⟨_, _, rfl, rfl, by decide, ?_⟩
  have whole := @claim_edit_is_all_or_nothing Claim _ teamEditor sampleFiles Function.injective_id rfl
    sampleFiles_start
  exact (whole
    (@Trace.single _ _ _ _ (.update sampleUpdate 5000000000 [.done, .done]) _ rfl)
    (@Trace.single _ _ _ _ (.recover true [.done, .done]) _ rfl)).2.2.2.1

end AgentClaimNetwork.Agent.ClaimEdits
