import Mathlib.Data.Int.ConditionallyCompleteOrder
import Mathlib.Order.ConditionallyCompleteLattice.Basic
import AgentClaimNetwork.Agent.ClaimEdit

/-!
A claim edit is all or nothing: what each of its writes relies on, and what recovery makes of the
files wherever an edit stopped.
-/

namespace AgentClaimNetwork.Agent.ClaimEdits

open Library Library.Durable Library.VersionLog List
open Triple (bail bind guard look ok seq weaken write)

variable {Revision : Type} {editor : ClaimEditor Revision} {first : EditStore Revision}
  {old : List (DurableWrite Revision)} {author : Option Nat}

def Wrote (call : Nat) (log : List (DurableWrite Revision)) : Prop :=
  ∃ update replaced claim, .claimWritten (.edit call update) replaced claim ∈ log

def Staged (version : Claim) (log : List (DurableWrite Revision)) : Prop :=
  ∃ claims, .queueWritten claims ∈ log ∧ version ∈ claims

def localVersion (first : EditStore Revision) (log : List (DurableWrite Revision)) : ClaimId → Option Claim :=
  latest DurableWrite.claim? Claim.id first.claims log

theorem Wrote.of_cons {call : Nat} {log : List (DurableWrite Revision)}
    (wrote : Wrote call (newest :: log))
    (others : ∀ update replaced claim, newest ≠ .claimWritten (.edit call update) replaced claim) :
    Wrote call log := by
  obtain ⟨update, replaced, claim, member⟩ := wrote
  rcases mem_cons.mp member with now | before
  · exact absurd now.symm (others update replaced claim)
  · exact ⟨update, replaced, claim, before⟩

def Allowed (editor : ClaimEditor Revision) (first : EditStore Revision) (earlier : List (DurableWrite Revision)) :
    DurableWrite Revision → Prop
  | .pendingWritten call edit => ¬ Wrote call earlier ∧
      ∃ current, localVersion first earlier edit.target.id = some current ∧
        current.effectiveUpdatedAt < edit.target.effectiveUpdatedAt
  | .claimWritten writer replaced claim => localVersion first earlier claim.id = replaced ∧
      (∀ old, replaced = some old → old.effectiveUpdatedAt < claim.effectiveUpdatedAt) ∧
      ∀ call update, writer = .edit call update →
        ∃ old, replaced = some old ∧ editor.revision old = update.expectedRevision
  | .queueWritten claims => ∀ claim ∈ claims, wasLocal first earlier claim = true
  | .pendingRemoved call current => Wrote call earlier →
      ∃ version, current = some version ∧ Staged version earlier

structure Start (first : EditStore Revision) : Prop where
  settled : first.pending = none
  fresh : first.log = []
  named : ∀ id claim, first.claims id = some claim → claim.id = id
  queued : ∀ claim ∈ first.queue.claims, ∃ now, first.claims claim.id = some now ∧
    claim.effectiveUpdatedAt ≤ now.effectiveUpdatedAt

section

variable {log : List (DurableWrite Revision)} {claim : Claim}

theorem rising_of_lawful (lawful : Lawful (Allowed editor first) log) :
    Rising DurableWrite.claim? Claim.id Claim.effectiveUpdatedAt first.claims log := by
  intro newest earlier version suffix wrote old there
  have allowed := lawful.allowed_at suffix
  cases newest with
  | claimWritten writer replaced written =>
    cases wrote
    exact allowed.2.1 old (allowed.1.symm.trans there)
  | pendingWritten call edit | queueWritten claims | pendingRemoved call current => cases wrote

theorem localVersion_named (start : Start first) {id : ClaimId}
    (there : localVersion first log id = some version) : version.id = id := by
  induction log with
  | nil => exact start.named id version there
  | cons newest earlier ih =>
    cases wrote : newest.claim? with
    | none =>
      rw [localVersion, latest_silent wrote] at there
      exact ih there
    | some written =>
      rw [localVersion, latest_written wrote] at there
      by_cases same : id = written.id
      · subst same
        simp only [Function.update_self, Option.some.injEq] at there
        rw [there]
      · rw [Function.update_of_ne same] at there
        exact ih there

theorem wasLocal_le (start : Start first) (lawful : Lawful (Allowed editor first) log)
    (known : wasLocal first log claim = true) :
    ∃ now, localVersion first log claim.id = some now ∧
      claim.effectiveUpdatedAt ≤ now.effectiveUpdatedAt := by
  have rising := rising_of_lawful lawful
  simp only [wasLocal, Bool.or_eq_true, decide_eq_true_eq, any_eq_true] at known
  rcases known with (queued | initial) | ⟨newest, member, wrote⟩
  · obtain ⟨old, there, bound⟩ := start.queued claim queued
    obtain ⟨now, present, later⟩ := rising.le (nil_suffix) there
    exact ⟨now, present, le_trans bound later⟩
  · exact rising.le (nil_suffix) initial
  · obtain ⟨earlier, suffix⟩ := exists_suffix_of_mem member
    exact rising.written_le suffix wrote

theorem wasLocal_cons (known : wasLocal first log claim = true) :
    wasLocal first (newest :: log) claim = true := by
  simp only [wasLocal, Bool.or_eq_true, decide_eq_true_eq, any_cons] at known ⊢
  tauto

theorem wasLocal_of_local (there : localVersion first log claim.id = some claim) :
    wasLocal first log claim = true := by
  induction log with
  | nil =>
    have initial : first.claims claim.id = some claim := there
    simp [wasLocal, initial]
  | cons newest earlier ih =>
    cases wrote : newest.claim? with
    | none =>
      rw [localVersion, latest_silent wrote] at there
      exact wasLocal_cons (ih there)
    | some written =>
      rw [localVersion, latest_written wrote] at there
      by_cases same : claim.id = written.id
      · rw [same] at there
        simp only [Function.update_self, Option.some.injEq] at there
        simp [wasLocal, wrote, there]
      · rw [Function.update_of_ne same] at there
        exact wasLocal_cons (ih there)

end

def Open (editor : ClaimEditor Revision) (first : EditStore Revision) (log : List (DurableWrite Revision)) (call : Nat)
    (edit : PendingClaimEdit Revision) : Prop :=
  .pendingWritten call edit ∈ log ∧ ∃ base, editor.revision base = edit.expectedRevision ∧
    (Wrote call log → ∃ now, localVersion first log edit.target.id = some now ∧
      base.effectiveUpdatedAt < now.effectiveUpdatedAt)

/-- What holds between any two writes, since a moment with the log `old` and with no writes to
claim files by a call other than `author`. -/
structure Kept (editor : ClaimEditor Revision) (first : EditStore Revision) (old : List (DurableWrite Revision))
    (author : Option Nat) (store : EditStore Revision) : Prop where
  lawful : Lawful (Allowed editor first) store.log
  files : store.claims = localVersion first store.log
  queued : ∀ claim ∈ store.queue.claims, wasLocal first store.log claim = true
  pending : ∀ call edit, store.pending = some (call, edit) → Open editor first store.log call edit
  grown : old <:+ store.log
  authors : ∀ call, Wrote call store.log → Wrote call old ∨ author = some call
variable {current : Claim}

section

variable {first store : EditStore Revision}

theorem Kept.written_by (kept : Kept editor first old none store) :
    Kept editor first old author store :=
  { kept with
    authors := fun call wrote => .inl ((kept.authors call wrote).resolve_right (by simp)) }

section

variable (kept : Kept editor first old author store)
include kept

theorem Kept.writeQueue (known : ∀ claim ∈ queue.claims, wasLocal first store.log claim = true) :
    Kept editor first old author (store.writeQueue queue) := by
  have silent : ∀ call, Wrote call (.queueWritten queue.claims :: store.log) → Wrote call store.log :=
    fun call wrote => wrote.of_cons (by simp)
  refine ⟨⟨known, kept.lawful⟩, ?_, ?_, ?_, ?_, ?_⟩
  · exact kept.files.trans (latest_silent rfl).symm
  · exact fun claim member => wasLocal_cons (known claim member)
  · intro call edit there
    obtain ⟨recorded, base, expected, past⟩ := kept.pending call edit there
    refine ⟨mem_cons_of_mem _ recorded, base, expected, fun wrote => ?_⟩
    obtain ⟨now, present, later⟩ := past (silent call wrote)
    exact ⟨now, by rw [← present]; exact congrFun (latest_silent rfl) _, later⟩
  · exact kept.grown.trans (suffix_cons _ _)
  · exact fun call wrote => kept.authors call (silent call wrote)

theorem Kept.writeClaim {claim : Claim}
    (later : ∀ old, store.claims claim.id = some old →
      old.effectiveUpdatedAt < claim.effectiveUpdatedAt)
    (expected : ∀ call update, writer = .edit call update → author = some call ∧
      ∃ old, store.claims claim.id = some old ∧ editor.revision old = update.expectedRevision)
    (past : ∀ call edit, store.pending = some (call, edit) →
      ∃ base, editor.revision base = edit.expectedRevision ∧
        ((∃ update, writer = .edit call update) → edit.target.id = claim.id ∧
          base.effectiveUpdatedAt < claim.effectiveUpdatedAt) ∧
        (Wrote call store.log → ∃ now, localVersion first store.log edit.target.id = some now ∧
          base.effectiveUpdatedAt < now.effectiveUpdatedAt)) :
    Kept editor first old author (store.writeClaim writer claim) := by
  have after : localVersion first (.claimWritten writer (store.claims claim.id) claim :: store.log) =
      Function.update (localVersion first store.log) claim.id (some claim) := latest_written rfl
  have here : localVersion first store.log claim.id = store.claims claim.id := by rw [kept.files]
  refine ⟨⟨⟨here, later, fun call update same => (expected call update same).2⟩, kept.lawful⟩,
    ?_, ?_, ?_, ?_, ?_⟩
  · show Function.update store.claims claim.id (some claim) = _
    rw [kept.files]
    exact after.symm
  · exact fun other member => wasLocal_cons (kept.queued other member)
  · intro call edit there
    obtain ⟨base, revision, own, before⟩ := past call edit there
    have recorded := (kept.pending call edit there).1
    refine ⟨mem_cons_of_mem _ recorded, base, revision, fun wrote => ?_⟩
    rw [EditStore.writeClaim, after]
    by_cases same : edit.target.id = claim.id
    · rw [same, Function.update_self]
      refine ⟨claim, rfl, ?_⟩
      by_cases mine : ∃ update, writer = .edit call update
      · exact (own mine).2
      · obtain ⟨now, present, bound⟩ := before (wrote.of_cons fun update replaced other equal =>
          mine ⟨update, (DurableWrite.claimWritten.inj equal).1⟩)
        rw [same, here] at present
        exact lt_trans bound (later now present)
    · rw [Function.update_of_ne same]
      refine before (wrote.of_cons fun update replaced other equal => same ?_)
      exact (own ⟨update, (DurableWrite.claimWritten.inj equal).1⟩).1
  · exact kept.grown.trans (suffix_cons _ _)
  · intro call wrote
    by_cases mine : ∃ update, writer = .edit call update
    · obtain ⟨update, same⟩ := mine
      exact .inr (expected call update same).1
    · exact kept.authors call (wrote.of_cons fun update replaced other equal =>
        mine ⟨update, (DurableWrite.claimWritten.inj equal).1⟩)

theorem Kept.writePending {call : Nat} (unwritten : ¬ Wrote call store.log)
    (there : store.claims edit.target.id = some current)
    (expected : editor.revision current = edit.expectedRevision)
    (later : current.effectiveUpdatedAt < edit.target.effectiveUpdatedAt) :
    Kept editor first old author (store.writePending call edit) := by
  have silent : ∀ other, Wrote other (.pendingWritten call edit :: store.log) →
      Wrote other store.log := fun other wrote => wrote.of_cons (by simp)
  have present : localVersion first store.log edit.target.id = some current := by
    rw [← kept.files]
    exact there
  refine ⟨⟨⟨unwritten, current, present, later⟩, kept.lawful⟩, ?_, ?_, ?_, ?_, ?_⟩
  · exact kept.files.trans (latest_silent rfl).symm
  · exact fun claim member => wasLocal_cons (kept.queued claim member)
  · intro other record same
    obtain ⟨rfl, rfl⟩ : call = other ∧ edit = record := by
      simpa [EditStore.writePending] using same
    exact ⟨mem_cons_self, current, expected, fun wrote => absurd (silent call wrote) unwritten⟩
  · exact kept.grown.trans (suffix_cons _ _)
  · exact fun other wrote => kept.authors other (silent other wrote)

theorem Kept.removePending
    (staged : ∀ call edit, store.pending = some (call, edit) → Wrote call store.log →
      ∃ version, store.claims edit.target.id = some version ∧ Staged version store.log) :
    Kept editor first old author store.removePending := by
  unfold EditStore.removePending
  cases there : store.pending with
  | none => exact kept
  | some record =>
    obtain ⟨call, edit⟩ := record
    have silent : ∀ other, Wrote other
        (.pendingRemoved call (store.claims edit.target.id) :: store.log) →
        Wrote other store.log := fun other wrote => wrote.of_cons (by simp)
    refine ⟨⟨staged call edit there, kept.lawful⟩, ?_, ?_, ?_, ?_, ?_⟩
    · exact kept.files.trans (latest_silent rfl).symm
    · exact fun claim member => wasLocal_cons (kept.queued claim member)
    · exact fun _ _ none => by cases none
    · exact kept.grown.trans (suffix_cons _ _)
    · exact fun other wrote => kept.authors other (silent other wrote)

end

end

open ClaimEditor

variable {pre crash : EditStore Revision → Prop}

theorem ensureKnowledgeReady_triple (holds : ∀ store, pre store → crash store) :
    Triple pre ensureKnowledgeReady (fun _ => pre) crash := by
  exact Triple.look_any fun seen => Triple.require holds fun _ _ before => before

theorem readOwnedClaim_triple {id : ClaimId} (holds : ∀ store, pre store → crash store) :
    Triple pre (editor.readOwnedClaim id)
      (fun claim store => store.claims id = some claim ∧ pre store) crash := by
  apply look
  intro seen
  cases there : seen.claims id with
  | none => exact bail fun store before => holds store before.2
  | some claim =>
    simp only
    split_ifs with owned
    · refine ok fun store before => ⟨?_, before.2⟩
      rw [before.1]
      exact there
    · exact bail fun store before => holds store before.2

theorem mem_staged {claim other : Claim} (newest : ∀ queued ∈ queue.claims, queued.id = claim.id →
      queued.effectiveUpdatedAt ≤ claim.effectiveUpdatedAt) :
    other ∈ (stageMaintainerBatchInner queue ⟨[claim], [], true, [], none⟩).claims ↔
      other = claim ∨
        (other ∈ (KeyedMap.ofList Claim.id queue.claims).values ∧ other.id ≠ claim.id) := by
  have accepted : (KeyedMap.ofList Claim.id queue.claims).accepts Claim.effectiveUpdatedAt claim =
      true :=
    KeyedMap.accepts_iff.mpr fun queued member same =>
      newest queued (KeyedMap.mem_of_mem_ofList member) same
  rw [stage_claims]
  simp only [foldl_cons, foldl_nil, KeyedMap.offer, accepted, if_true]
  exact KeyedMap.mem_insert

theorem stage_triple (start : Start first) {claim : Claim} {record : Option (Nat × PendingClaimEdit Revision)}
    {event : DurableWrite Revision} :
    Triple
      (fun store => Kept editor first old author store ∧ store.claims claim.id = some claim ∧
        store.pending = record ∧ event ∈ store.log)
      (stageMaintainerBatchWithDurableClaims [claim])
      (fun _ store => Kept editor first old author store ∧ store.claims claim.id = some claim ∧
        store.pending = record ∧ event ∈ store.log ∧ Staged claim store.log)
      (Kept editor first old author) := by
  apply write (fun _ before => before.1)
  rintro store ⟨kept, there, pending, happened⟩
  have present : localVersion first store.log claim.id = some claim := by
    rw [← kept.files]
    exact there
  have newest : ∀ queued ∈ store.queue.claims, queued.id = claim.id →
      queued.effectiveUpdatedAt ≤ claim.effectiveUpdatedAt := by
    intro queued member same
    obtain ⟨now, here, bound⟩ := wasLocal_le start kept.lawful (kept.queued queued member)
    rw [same, present, Option.some.injEq] at here
    rw [here]
    exact bound
  refine ⟨kept.writeQueue ?_, there, pending, mem_cons_of_mem _ happened, ?_⟩
  · intro other member
    rcases (mem_staged newest).mp member with same | ⟨before, _⟩
    · rw [same]
      exact wasLocal_of_local present
    · exact kept.queued other (KeyedMap.mem_of_mem_ofList before)
  · exact ⟨_, mem_cons_self, (mem_staged newest).mpr (.inl rfl)⟩

theorem clearPendingClaimEdit_triple {record : PendingClaimEdit Revision} {call : Nat} {current : Claim}
    {event : DurableWrite Revision} :
    Triple
      (fun store => Kept editor first old author store ∧
        store.claims record.target.id = some current ∧ store.pending = some (call, record) ∧
        event ∈ store.log ∧ (Wrote call store.log → Staged current store.log))
      clearPendingClaimEdit
      (fun _ store => Kept editor first old author store ∧ store.pending = none ∧
        ∃ earlier, .pendingRemoved call (some current) :: earlier <:+ store.log ∧ event ∈ earlier)
      (Kept editor first old author) := by
  apply write (fun _ before => before.1)
  rintro store ⟨kept, there, pending, happened, staged⟩
  refine ⟨kept.removePending ?_, ?_, store.log, ?_, happened⟩
  · intro other edit same wrote
    rw [pending, Option.some.injEq, Prod.mk.injEq] at same
    obtain ⟨rfl, rfl⟩ := same
    exact ⟨current, there, staged wrote⟩
  · simp [EditStore.removePending, pending]
  · simp [EditStore.removePending, pending, there]

variable {call : Nat}

theorem Open.unwritten (injective : Function.Injective editor.revision)
    {log : List (DurableWrite Revision)} (opened : Open editor first log call record)
    (there : localVersion first log record.target.id = some current)
    (unchanged : editor.revision current = record.expectedRevision) : ¬ Wrote call log := by
  obtain ⟨_, base, expected, past⟩ := opened
  intro wrote
  obtain ⟨now, present, later⟩ := past wrote
  have same : current = base := injective (unchanged.trans expected.symm)
  rw [there, Option.some.injEq] at present
  rw [← present, same] at later
  exact lt_irrefl _ later

def Settled (call : Nat) (claim : Claim) (log : List (DurableWrite Revision)) : Prop :=
  ∃ update replaced earlier, .pendingRemoved call (some claim) :: earlier <:+ log ∧
    .claimWritten (.edit call update) replaced claim ∈ earlier

theorem applyClaimEdit_triple (start : Start first) (team : editor.teamServicesConfigured = true)
    {call : Nat} {update : ClaimUpdate Revision} {edit : PendingClaimEdit Revision} {current : Claim}
    (below : ∀ other, Wrote other old → other < call) (named : edit.target.id = current.id)
    (revision : editor.revision current = edit.expectedRevision)
    (expected : update.expectedRevision = edit.expectedRevision)
    (later : current.effectiveUpdatedAt < edit.target.effectiveUpdatedAt) :
    Triple
      (fun store => store.claims current.id = some current ∧ Kept editor first old none store ∧
        store.pending = none)
      (editor.applyClaimEdit call update edit)
      (fun _ store => Kept editor first old (some call) store ∧ Settled call edit.target store.log)
      (Kept editor first old (some call)) := by
  have stage := @stage_triple Revision editor first old (some call) start edit.target (some (call, edit))
    (.claimWritten (.edit call update) (some current) edit.target)
  have clear := @clearPendingClaimEdit_triple Revision editor first old (some call) edit call edit.target
    (.claimWritten (.edit call update) (some current) edit.target)
  have record : Triple
      (fun store => store.claims current.id = some current ∧ Kept editor first old none store ∧
        store.pending = none)
      (Program.write fun store => store.writePending call edit)
      (fun _ store => Kept editor first old none store ∧
        store.claims current.id = some current ∧ store.pending = some (call, edit))
      (Kept editor first old (some call)) := by
    apply write (fun _ before => before.2.1.written_by)
    rintro store ⟨there, kept, none⟩
    have unwritten : ¬ Wrote call store.log := fun wrote =>
      Nat.lt_irrefl call (below call ((kept.authors call wrote).resolve_right (by simp)))
    exact ⟨kept.writePending unwritten (by rw [named]; exact there) revision later, there, rfl⟩
  have overwrite : Triple (fun store => Kept editor first old none store ∧
        store.claims current.id = some current ∧ store.pending = some (call, edit))
      (Program.write fun store => store.writeClaim (.edit call update) edit.target)
      (fun _ store => Kept editor first old (some call) store ∧
        store.claims edit.target.id = some edit.target ∧ store.pending = some (call, edit) ∧
        .claimWritten (.edit call update) (some current) edit.target ∈ store.log)
      (Kept editor first old (some call)) := by
    apply write (fun _ before => before.1.written_by)
    rintro store ⟨kept, there, pending⟩
    rw [← named] at there
    refine ⟨(kept.written_by).writeClaim ?_ ?_ ?_, ?_, pending, ?_⟩
    · intro replaced same
      rw [there, Option.some.injEq] at same
      rw [← same]
      exact later
    · intro other also same
      obtain ⟨rfl, rfl⟩ := Writer.edit.inj same
      exact ⟨rfl, current, there, revision.trans expected.symm⟩
    · intro other also same
      rw [pending, Option.some.injEq, Prod.mk.injEq] at same
      obtain ⟨rfl, rfl⟩ := same
      have unwritten : ¬ Wrote call store.log := fun wrote =>
        Nat.lt_irrefl call (below call ((kept.authors call wrote).resolve_right (by simp)))
      exact ⟨current, revision, fun _ => ⟨rfl, later⟩, fun wrote => absurd wrote unwritten⟩
    · simp [EditStore.writeClaim]
    · simp [EditStore.writeClaim, there]
  unfold applyClaimEdit
  rw [if_pos team]
  refine bind record fun _ => bind overwrite fun _ => bind stage fun _ =>
    weaken clear ?_ ?_
  · rintro store ⟨kept, there, pending, happened, staged⟩
    exact ⟨kept, there, pending, happened, fun _ => staged⟩
  · rintro _ store ⟨kept, _, earlier, suffix, happened⟩
    exact ⟨kept, update, _, earlier, suffix, happened⟩

theorem lt_nextClaimUpdateAt {now : Instant} : previous < nextClaimUpdateAt now previous := by
  have later : previous < previous + 1000000000 := Int.lt_add_of_pos_right previous (by decide)
  exact lt_of_lt_of_le later (le_max_right _ _)

theorem target_later {update : ClaimUpdate Revision} {current : Claim} {now : Instant} :
    current.effectiveUpdatedAt < (update.target current now).effectiveUpdatedAt :=
  lt_nextClaimUpdateAt

variable [DecidableEq Revision]

theorem settlePendingClaimEdit_triple (injective : Function.Injective editor.revision)
    (start : Start first) (named : record.target.id = current.id) : Triple
      (fun store => Kept editor first old author store ∧
        store.claims current.id = some current ∧ store.pending = some (call, record))
      (editor.settlePendingClaimEdit record current)
      (fun _ store => Kept editor first old author store ∧ store.pending = none)
      (Kept editor first old author) := by
  have clear := @clearPendingClaimEdit_triple Revision editor first old author record call current
    (.pendingWritten call record)
  unfold settlePendingClaimEdit
  rw [named] at clear
  split_ifs with unchanged
  · refine weaken clear ?_ fun _ _ after => ⟨after.1, after.2.1⟩
    rintro store ⟨kept, there, pending⟩
    have opened := kept.pending call record pending
    have present : localVersion first store.log record.target.id = some current := by
      rw [← kept.files, named]
      exact there
    exact ⟨kept, there, pending, opened.1, fun wrote =>
      absurd wrote (opened.unwritten injective present unchanged)⟩
  · have stage := @stage_triple Revision editor first old author start current (some (call, record))
      (.pendingWritten call record)
    refine weaken (bind stage fun _ => weaken clear ?_
      fun _ _ after => ⟨after.1, after.2.1⟩) ?_ fun _ _ after => after
    · rintro store ⟨kept, there, pending, recorded, staged⟩
      exact ⟨kept, there, pending, recorded, fun _ => staged⟩
    · rintro store ⟨kept, there, pending⟩
      exact ⟨kept, there, pending, (kept.pending call record pending).1⟩

theorem recoverPendingClaimEditLocked_triple (injective : Function.Injective editor.revision)
    (start : Start first) (team : editor.teamServicesConfigured = true) :
    Triple (Kept editor first old author) editor.recoverPendingClaimEditLocked
      (fun _ store => Kept editor first old author store ∧ store.pending = none)
      (Kept editor first old author) := by
  unfold recoverPendingClaimEditLocked
  rw [if_pos team]
  refine seq (ensureKnowledgeReady_triple fun _ kept => kept) fun _ => look ?_
  intro seen
  cases pending : seen.pending with
  | none =>
    refine ok fun store before => ⟨before.2, ?_⟩
    rw [before.1]
    exact pending
  | some record =>
    obtain ⟨call, edit⟩ := record
    refine bind (readOwnedClaim_triple fun store before => before.2) fun current => ?_
    have settles : edit.target.id = current.id → Triple
        (fun store => Kept editor first old author store ∧
          store.claims current.id = some current ∧ store.pending = some (call, edit))
        (editor.settlePendingClaimEdit edit current)
        (fun _ store => Kept editor first old author store ∧ store.pending = none)
        (Kept editor first old author) := settlePendingClaimEdit_triple injective start
    refine weaken (Triple.given settles) ?_ fun _ _ after => after
    rintro store ⟨there, same, kept⟩
    have present : localVersion first store.log edit.target.id = some current := by
      rw [← kept.files]
      exact there
    have named := localVersion_named start present
    rw [← named] at there
    rw [← same] at pending
    exact ⟨⟨kept, there, pending⟩, named.symm⟩

variable (injective : Function.Injective editor.revision) (start : Start first)
  (team : editor.teamServicesConfigured = true)
include injective start team

theorem recoverPendingClaimEdit_triple :
    Durable.Keeps (Kept editor first old author) (editor.recoverPendingClaimEdit found) := by
  unfold recoverPendingClaimEdit
  split_ifs with entered
  · exact weaken (recoverPendingClaimEditLocked_triple injective start team)
      (fun _ kept => kept) fun _ _ after => after.1
  · exact ok fun _ kept => kept

theorem updateClaim_triple {now : Instant} (below : ∀ other, Wrote other old → other < call) :
    Triple (Kept editor first old none) (editor.updateClaim call update now)
      (fun result store => Kept editor first old (some call) store ∧
        Settled call result.claim store.log)
      (Kept editor first old (some call)) := by
  have gaveUp : ∀ store, Kept editor first old none store → Kept editor first old (some call) store :=
    fun store kept => kept.written_by
  have recover := Triple.relax (@recoverPendingClaimEditLocked_triple Revision editor first old none _ injective
    start team) gaveUp
  refine guard gaveUp fun _ => seq (ensureKnowledgeReady_triple gaveUp) fun _ =>
    bind recover fun _ => bind
      (readOwnedClaim_triple fun store before => gaveUp store before.1) fun current =>
    guard (fun store before => gaveUp store before.2.1) fun matched =>
    guard (fun store before => gaveUp store before.2.1) fun _ => ?_
  have applies := @applyClaimEdit_triple Revision editor first old start team call update
    ⟨editor.revision current, update.target current now⟩ current below rfl rfl
    (of_decide_eq_true matched) target_later
  refine bind (weaken applies ?_ fun _ _ after => after) fun _ => ok ?_
  · rintro store ⟨there, kept, pending⟩
    have present : localVersion first store.log update.id = some current := by
      rw [← kept.files]
      exact there
    rw [← localVersion_named start present] at there
    exact ⟨there, kept, pending⟩
  · exact fun store after => after

end AgentClaimNetwork.Agent.ClaimEdits
