import AgentClaimNetwork.SessionSearch.Repair

/-!
Runs of appends, index runs, purges and repairs.
-/

namespace AgentClaimNetwork.SessionSearch

open Library Session List

variable {Stamp Replay : Type}

def IndexedSession.written (session : IndexedSession Stamp Replay)
    (data : SessionDiskData Stamp Replay) (write : Option IndexWrite) : IndexedSession Stamp Replay :=
  { session with
    index := (write.map fun write => write.apply session.index data.messages).getD session.index }

variable {faults : String → RepairFaults}

section

variable {session : IndexedSession Stamp Replay} {data : SessionDiskData Stamp Replay}
  {agentId : String} {current : Option String}

theorem purgeOrphaned_of_disk (stored : session.disk = some data) : session.purgeOrphaned = session := by
  simp [IndexedSession.purgeOrphaned, stored]

theorem repair_written (stored : session.disk = some data) :
    (session.repair agentId current (faults session.id)).1 =
      session.written data ((IndexAction.repair agentId current faults).write? session data) := by
  obtain ⟨id, disk, index⟩ := session
  cases stored
  simp only [IndexedSession.repair, IndexAction.write?]
  by_cases skipped : current = some id ∨ (faults id).metadata ∨
      data.agentId ≠ agentId ∨ (faults id).count ∨ (faults id).data
  · have none : (current = some id ∨ (faults id).metadata ∨
        data.agentId ≠ agentId ∨ (faults id).count ∨ (faults id).data ∨
        (faults id).transaction) := by tauto
    rw [if_pos none]
    split_ifs <;> first | rfl | tauto
  · simp only [not_or] at skipped
    obtain ⟨other, metadata, agent, count, read⟩ := skipped
    rw [if_neg other, if_neg metadata, if_neg agent, if_neg count, if_neg read]
    cases failed : (faults id).transaction with
    | true =>
      simp only [or_true, if_true]
      cases repairOneSession index data.messages <;> rfl
    | false =>
      simp only [other, metadata, agent, count, read, Bool.false_eq_true, or_self, if_false]
      cases repairOneSession index data.messages <;> rfl

def SoundWrite (session : IndexedSession Stamp Replay) (data : SessionDiskData Stamp Replay)
    (write : Option IndexWrite) : Prop :=
  ∀ start, write = some (.upsert start) →
    (session.index.below start).Among (data.messages.take start)

theorem written_faithful (stored : session.disk = some data)
    (faithful : session.index.Faithful data.messages) (sound : SoundWrite session data write) :
    ∀ after, (session.written data write).disk = some after →
      (session.written data write).index.Faithful after.messages := by
  intro after same
  have equal : data = after := Option.some.inj (stored.symm.trans same)
  subst equal
  cases write with
  | none => exact faithful
  | some write =>
    exact apply_faithful data.numbered fun start chosen => sound start (by rw [chosen])

def Kept (session : IndexedSession Stamp Replay) : Prop :=
  ∀ data, session.disk = some data → session.index.Faithful data.messages

theorem act_disk_none (absent : session.disk = none) {action : IndexAction Stamp Replay} :
    (session.act action).disk = none := by
  cases action with
  | append id messages counted => simp only [IndexedSession.act]; split_ifs <;> simp [absent]
  | index id preferred failed => simp [IndexedSession.act, absent]
  | purge id => simp only [IndexedSession.act]; split_ifs <;> exact absent
  | repair agentId current faults =>
    have orphaned : session.purgeOrphaned.disk = none := by
      unfold IndexedSession.purgeOrphaned
      split_ifs <;> exact absent
    simp [IndexedSession.act, IndexedSession.repair, orphaned]

theorem Kept.act (kept : Kept session) {action : IndexAction Stamp Replay}
    (sound : ∀ data, session.disk = some data → SoundWrite session data (action.write? session data)) :
    Kept (session.act action) := by
  cases stored : session.disk with
  | none => exact fun data same => absurd same (by simp [act_disk_none stored])
  | some data =>
    have faithful := kept data stored
    cases action with
    | append id messages counted =>
      simp only [IndexedSession.act]
      split_ifs
      · intro after same
        simp only [stored, Option.map_some, Option.some.injEq] at same
        rw [← same]
        exact faithful.append
      · exact kept
    | index id preferred failed =>
      have written := written_faithful stored faithful (sound data stored)
      simp only [IndexedSession.act, stored]
      cases chosen : (IndexAction.index id preferred failed).write? session data with
      | none => exact kept
      | some write =>
        rw [chosen] at written
        exact fun after same => written after (stored.trans same)
    | purge id =>
      simp only [IndexedSession.act]
      split_ifs
      · intro after _ stamp stamped
        cases stamped
      · exact kept
    | repair agentId current faults =>
      show Kept (session.purgeOrphaned.repair agentId current (faults session.id)).1
      rw [purgeOrphaned_of_disk stored, repair_written stored]
      exact written_faithful stored faithful (sound data stored)

theorem quiet_repair (stored : session.disk = some data) (agent : data.agentId = agentId)
    (other : current ≠ some session.id)
    (quiet : (session.repair agentId current (faults session.id)).2 = []) :
    (IndexAction.repair agentId current faults).write? session data =
      repairOneSession session.index data.messages := by
  simp only [IndexedSession.repair, stored, if_neg other] at quiet
  have metadata : (faults session.id).metadata = false := by
    refine Bool.eq_false_iff.mpr fun fault => ?_
    simp [fault] at quiet
  have count : (faults session.id).count = false := by
    refine Bool.eq_false_iff.mpr fun fault => ?_
    simp [metadata, agent, fault] at quiet
  have read : (faults session.id).data = false := by
    refine Bool.eq_false_iff.mpr fun fault => ?_
    simp [metadata, agent, count, fault] at quiet
  simp only [IndexAction.write?, other, metadata, agent, count, read]
  cases chosen : repairOneSession session.index data.messages with
  | none => simp
  | some write =>
    have done : (faults session.id).transaction = false := by
      refine Bool.eq_false_iff.mpr fun fault => ?_
      simp [metadata, agent, count, read, chosen, fault] at quiet
    simp [done]

theorem repaired_session_exact (kept : Kept session) (stored : session.disk = some data)
    (agent : data.agentId = agentId) (other : current ≠ some session.id)
    (quiet : (session.repair agentId current (faults session.id)).2 = []) :
    (session.repair agentId current (faults session.id)).1.index.Exact data.messages ↔
      session.index.KeepsRebuilt data.messages := by
  rw [repair_written stored, quiet_repair stored agent other quiet]
  exact repairOneSession_exact data.numbered (kept data stored)

end

abbrev World (Stamp Replay : Type) := List (IndexedSession Stamp Replay)

def SoundStep (world : World Stamp Replay) (action : IndexAction Stamp Replay)
    (next : World Stamp Replay) : Prop :=
  next = world.map (fun session => session.act action) ∧
    ∀ session ∈ world, ∀ data, session.disk = some data →
      SoundWrite session data (action.write? session data)

theorem sound_run_kept (start : ∀ session ∈ first, Kept session)
    (run : Trace SoundStep first actions world) : ∀ session ∈ world, Kept session := by
  induction run with
  | nil => exact start
  | snoc _ taken ih =>
    obtain ⟨rfl, sound⟩ := taken
    intro session member
    obtain ⟨old, oldMember, rfl⟩ := mem_map.mp member
    exact (ih old oldMember).act (sound old oldMember)

def Rebuilt (agentId : String) (current : Option String) (world : World Stamp Replay) : Prop :=
  ∀ session ∈ world, ∀ data, session.disk = some data → data.agentId = agentId →
    current ≠ some session.id → session.index.Exact data.messages

def KeepsRebuiltRows (agentId : String) (current : Option String) (world : World Stamp Replay) :
    Prop :=
  ∀ session ∈ world, ∀ data, session.disk = some data → data.agentId = agentId →
    current ≠ some session.id → session.index.KeepsRebuilt data.messages

/-- After a repair without warnings an index is that of a rebuild exactly when the rows that the
repair found below its stored count were. -/
theorem repaired_index_is_rebuilt_iff {first world : World Stamp Replay}
    (start : ∀ session ∈ first, Kept session) {actions : List (IndexAction Stamp Replay)}
    (run : Trace SoundStep first actions world) {agentId : String} {current : Option String}
    {faults : String → RepairFaults}
    (quiet : (repairIndexForAgent agentId current faults world).2 = []) :
    Rebuilt agentId current (repairIndexForAgent agentId current faults world).1 ↔
      KeepsRebuiltRows agentId current world := by
  have kept := sound_run_kept start run
  have each : ∀ session ∈ world, ∀ data, session.disk = some data → data.agentId = agentId →
      current ≠ some session.id →
        ((session.repair agentId current (faults session.id)).1.index.Exact data.messages ↔
          session.index.KeepsRebuilt data.messages) := by
    intro session member data stored agent other
    refine repaired_session_exact (kept session member) stored agent other ?_
    have silent := flatMap_eq_nil_iff.mp quiet _ (mem_map_of_mem member)
    rwa [purgeOrphaned_of_disk stored] at silent
  have images : (repairIndexForAgent agentId current faults world).1 = world.map fun session =>
      (session.purgeOrphaned.repair agentId current (faults session.id)).1 := by
    simp [repairIndexForAgent]
  rw [Rebuilt, images]
  constructor
  · intro rebuilt session member data stored agent other
    refine (each session member data stored agent other).mp ?_
    have image := rebuilt _ (mem_map_of_mem member) data
    rw [purgeOrphaned_of_disk stored, repair_written stored] at image
    rw [repair_written stored]
    exact image stored agent other
  · intro keeps repaired member data stored agent other
    obtain ⟨session, old, rfl⟩ := mem_map.mp member
    cases before : session.disk with
    | none =>
      have gone := @act_disk_none _ _ session before (.repair agentId current faults)
      rw [IndexedSession.act] at gone
      rw [gone] at stored
      cases stored
    | some earlier =>
      rw [purgeOrphaned_of_disk before, repair_written before] at stored other ⊢
      have same : earlier = data := Option.some.inj (before.symm.trans stored)
      subst same
      rw [← repair_written before]
      exact (each session old earlier before agent other).mpr
        (keeps session old earlier before agent other)

def sampleMessage (text : String) : NewSessionMessage Nat Unit :=
  ⟨.user, [.text text.toList], 7, "model".toList, none⟩

def sampleData : SessionDiskData Nat Unit :=
  ⟨"agent-a", 1, storedMessages 0 [sampleMessage "first"], storedMessages_numbered _ _⟩

def unindexedSession : IndexedSession Nat Unit :=
  ⟨"session_1", some sampleData, SessionIndex.deleteRows⟩

def upgradedSession : IndexedSession Nat Unit :=
  ⟨"session_1", some sampleData,
    { session := true
      messages := {⟨0, .user, "model".toList, "FIRST".toList, 7⟩}
      fts := {⟨0, .user, "FIRST".toList⟩}
      trigram := {⟨0, .user, "FIRST".toList⟩}
      indexed := some ⟨1, some "session_search_v2"⟩ }⟩

def noFaults : String → RepairFaults := fun _ => ⟨false, false, false, false⟩

/-- After an append the repair extends the rows of the earlier version, and stamps them. -/
theorem old_rows_survive_repair : ∃ world,
    Trace SoundStep [upgradedSession] [.append "session_1" [sampleMessage "second"] true] world ∧
    (repairIndexForAgent "agent-a" none noFaults world).2 = [] ∧
    (∀ session ∈ (repairIndexForAgent "agent-a" none noFaults world).1,
      session.index.sessionIndexComplete 2 = true) ∧
    ¬ Rebuilt "agent-a" none (repairIndexForAgent "agent-a" none noFaults world).1 := by
  refine ⟨_, Trace.single ⟨rfl, ?_⟩, by decide, by decide, fun rebuilt => ?_⟩
  · rintro session _ data _ start chosen
    cases chosen
  · have exact := rebuilt _ mem_cons_self _ rfl rfl (by decide)
    revert exact
    unfold SessionIndex.Exact
    decide

/-- An index run, an append and a repair. -/
theorem extended_index_is_rebuilt : ∃ world,
    Trace SoundStep [unindexedSession] [.index "session_1" 5 false,
      .append "session_1" [sampleMessage "second"] true] world ∧
    Rebuilt "agent-a" none (repairIndexForAgent "agent-a" none noFaults world).1 := by
  have start : ∀ session ∈ [unindexedSession], Kept session := by
    intro session member data _ stamp stamped
    rw [mem_singleton.mp member] at stamped
    cases stamped
  have indexed : SoundStep [unindexedSession] (.index "session_1" 5 false)
      [unindexedSession.act (.index "session_1" 5 false)] := by
    refine ⟨rfl, fun session member data stored start chosen => ?_⟩
    rw [mem_singleton.mp member] at stored chosen ⊢
    cases stored
    cases chosen
    exact below_zero.among
  have appended : SoundStep [unindexedSession.act (.index "session_1" 5 false)]
      (.append "session_1" [sampleMessage "second"] true)
      [(unindexedSession.act (.index "session_1" 5 false)).act
        (.append "session_1" [sampleMessage "second"] true)] :=
    ⟨rfl, fun session _ data _ start chosen => by cases chosen⟩
  have run := Trace.append (Trace.single indexed) (Trace.single appended)
  refine ⟨_, run, (repaired_index_is_rebuilt_iff start run (by decide)).mpr ?_⟩
  intro session member data stored _ _ stamp stamped _
  rw [mem_singleton.mp member] at stored stamped ⊢
  cases stored
  cases stamped
  unfold SessionIndex.Exact
  decide

end AgentClaimNetwork.SessionSearch
