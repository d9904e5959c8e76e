import AgentClaimNetwork.Delegation.Store

/-!
The life of a subagent over whole runs of store calls: its status, the fields that go with
it, and the status changes its event log tells.
-/

namespace AgentClaimNetwork.Delegation

open Library List
open SubagentFiles (appendStatusChange appendUnlocked completionKind initializeCreated)

def StatusEdge : DelegationStatus → DelegationStatus → Prop
  | .queued, .running | .queued, .failed | .queued, .abandoned => True
  | .running, .completed | .running, .failed | .running, .abandoned => True
  | _, _ => False

def followChange (current : Option DelegationStatus) (event : DelegationEvent) :
    Option DelegationStatus :=
  match event.kind with
  | .statusChanged before after => if current = some before then some after else none
  | _ => current

/-- The status the changes of a log lead to from `Queued`; none when one of them does not
start where the one before it ended. -/
def foldStatus (events : List DelegationEvent) : Option DelegationStatus :=
  events.foldl followChange (some .queued)

def DelegationEventKind.isStatusChange : DelegationEventKind → Bool
  | .statusChanged _ _ => true
  | _ => false

def Call.Ordinary : Call → Prop
  | .appendEvent _ kind _ => kind.isStatusChange = false
  | _ => True

section

variable {events : List DelegationEvent} {kind : DelegationEventKind}

@[simp] theorem isStatusChange_boundEventKind (kind : DelegationEventKind) :
    (boundEventKind kind).isStatusChange = kind.isStatusChange := by
  cases kind <;> rfl

theorem followChange_other (other : event.kind.isStatusChange = false)
    (current : Option DelegationStatus) : followChange current event = current := by
  unfold followChange
  cases same : event.kind with
  | statusChanged before after => simp [same, DelegationEventKind.isStatusChange] at other
  | _ => rfl

theorem foldStatus_other (other : event.kind.isStatusChange = false) :
    foldStatus (events ++ [event]) = foldStatus events := by
  rw [foldStatus, foldl_append, foldl_cons, foldl_nil, followChange_other other,
    foldStatus]

theorem foldStatus_change (here : foldStatus events = some before) {after : DelegationStatus} :
    foldStatus (events ++ [⟨seq, stamp, .statusChanged before after⟩]) = some after := by
  rw [foldStatus, foldl_append, foldl_cons, foldl_nil, ← foldStatus, here]
  exact if_pos rfl

end

structure Settled (files : SubagentFiles) : Prop where
  completedAt : files.metadata.completedAt.isSome = files.metadata.status.isTerminal
  resultRef : files.metadata.resultRef.isSome = files.metadata.status.isTerminal
  result : files.result.isSome = files.metadata.status.isTerminal

structure SameLife (files next : SubagentFiles) : Prop where
  status : next.metadata.status = files.metadata.status
  completedAt : next.metadata.completedAt = files.metadata.completedAt
  resultRef : next.metadata.resultRef = files.metadata.resultRef
  result : next.result = files.result

def SteeringTold (events : List DelegationEvent) (kind : DelegationEventKind) (now : Text)
    (before after : Option (List DelegationSteering)) : Prop :=
  after = before ∨ ∃ instruction, boundEventKind kind = .steered instruction ∧
    after = some (before.getD [] ++ [⟨nextSeq events, now, instruction⟩])

/-- Everything a call can do to the files of a subagent at a time. -/
inductive Effect (ordinary : Prop) (now : Text) (files next : SubagentFiles) : Prop
  | unchanged (same : next = files)
  | noted (kind : DelegationEventKind) (live : files.metadata.status.isTerminal = false)
      (same : SameLife files next) (other : ordinary → kind.isStatusChange = false)
      (events : next.events = told files.events kind now)
      (steering : SteeringTold files.events kind now files.steering next.steering)
  | moved (kind : DelegationEventKind)
      (edge : StatusEdge files.metadata.status next.metadata.status)
      (settled : Settled files → Settled next) (other : kind.isStatusChange = false)
      (events : next.events = told (told files.events
        (.statusChanged files.metadata.status next.metadata.status) now) kind now)
      (steering : next.steering = files.steering)

section

variable {ordinary : Prop} {files next : SubagentFiles}
variable {after : DelegationStatus}

theorem StatusEdge.live (edge : StatusEdge before after) : before.isTerminal = false := by
  cases before <;> first | rfl | exact edge.elim

theorem StatusEdge.ne (edge : StatusEdge before after) : before ≠ after := by
  rintro rfl
  cases before <;> exact edge

theorem edge_of_live (live : before.isTerminal = false)
    (moves : before ≠ after) (target : after = .running ∨ after = .abandoned) :
    StatusEdge before after := by
  rcases target with rfl | rfl
  · cases before with
    | queued => trivial
    | running => exact (moves rfl).elim
    | _ => cases live
  · cases before with
    | queued => trivial
    | running => trivial
    | _ => cases live

variable {now : Text}

theorem transition_effect (target : status = .running ∨ status = .abandoned)
    (done : files.transition status reason now = .ok (next, out)) :
    Effect ordinary now files next := by
  unfold SubagentFiles.transition at done
  by_cases ended : files.metadata.status.isTerminal
  · rw [if_pos ended] at done
    by_cases abandoned : status = .abandoned
    · rw [if_pos abandoned] at done
      cases done
      exact .unchanged rfl
    · rw [if_neg abandoned] at done
      cases done
  · rw [if_neg ended] at done
    by_cases same : files.metadata.status = status
    · rw [if_pos same] at done
      cases done
      exact .unchanged rfl
    · rw [if_neg same] at done
      have live : files.metadata.status.isTerminal = false := by simpa using ended
      have edge := edge_of_live live same target
      rcases target with rfl | rfl
      · cases done
        simp only [appendStatusChange, ne_eq, same, not_false_eq_true, if_true,
          appendUnlocked]
        refine .moved .started edge ?_ rfl rfl rfl
        intro settled
        have completedAt := settled.completedAt
        have resultRef := settled.resultRef
        have result := settled.result
        rw [live] at completedAt resultRef result
        exact ⟨completedAt, resultRef, result⟩
      · cases done
        simp only [appendStatusChange, ne_eq, same, not_false_eq_true, if_true,
          appendUnlocked]
        refine .moved (.abandoned _) edge ?_ rfl rfl rfl
        intro _
        exact ⟨rfl, rfl, rfl⟩

theorem updateProgress_effect (done : files.updateProgress update now = .ok (next, out)) :
    Effect ordinary now files next := by
  unfold SubagentFiles.updateProgress at done
  by_cases running : files.metadata.status = .running
  · rw [if_neg (by simpa using running)] at done
    cases done
    refine .noted (.progressUpdated _ _ _) ?_ ⟨rfl, rfl, rfl, rfl⟩ (fun _ => rfl) rfl (.inl rfl)
    rw [running]
    rfl
  · rw [if_pos running] at done
    cases done

theorem steer_effect {instruction now : Text}
    (done : files.steer instruction now = .ok (next, out)) : Effect ordinary now files next := by
  unfold SubagentFiles.steer at done
  by_cases ended : files.metadata.status.isTerminal
  · rw [if_pos ended] at done
    cases done
  · rw [if_neg ended] at done
    cases done
    refine .noted (.steered _) (by simpa using ended) ⟨rfl, rfl, rfl, rfl⟩ (fun _ => rfl) rfl
      (.inr ⟨_, ?_, rfl⟩)
    exact congrArg _ truncateText_idem

theorem appendEvent_effect {kind : DelegationEventKind}
    (done : files.appendEvent kind now = .ok (next, out)) :
    Effect (kind.isStatusChange = false) now files next := by
  unfold SubagentFiles.appendEvent at done
  by_cases ended : files.metadata.status.isTerminal
  · rw [if_pos ended] at done
    cases done
    exact .unchanged rfl
  · rw [if_neg ended] at done
    cases done
    exact .noted kind (by simpa using ended) ⟨rfl, rfl, rfl, rfl⟩ id rfl (.inl rfl)

theorem completionKind_not_change {result : DelegationResult} :
    (completionKind result).isStatusChange = false := by
  unfold completionKind
  cases result.status <;> rfl

theorem complete_effect {result : DelegationResult}
    (done : files.complete result = .ok (next, out)) :
    Effect ordinary result.completedAt files next := by
  unfold SubagentFiles.complete at done
  dsimp only at done
  split_ifs at done with running ended legal
  cases done
  have terminal : (boundResult result).status.isTerminal = true := by simpa using running
  have edge : StatusEdge files.metadata.status (boundResult result).status := by
    rcases legal with active | ⟨waiting, other⟩
    · rw [active]
      cases same : (boundResult result).status with
      | queued | running => simp [same, DelegationStatus.isTerminal] at terminal
      | _ => trivial
    · rw [waiting]
      cases same : (boundResult result).status with
      | queued => simp [same, DelegationStatus.isTerminal] at terminal
      | completed => exact (other same).elim
      | _ => trivial
  simp only [appendStatusChange, ne_eq, edge.ne, not_false_eq_true, if_true,
    appendUnlocked]
  refine .moved _ edge ?_ completionKind_not_change rfl rfl
  intro _
  exact ⟨terminal.symm, terminal.symm, terminal.symm⟩

end

namespace Effect

variable {ordinary : Prop} {now : Text} {files next : SubagentFiles}

variable (effect : Effect ordinary now files next)
include effect

theorem status : next.metadata.status = files.metadata.status ∨
      StatusEdge files.metadata.status next.metadata.status := by
  cases effect with
  | unchanged same => exact .inl (by rw [same])
  | noted _ _ same => exact .inl same.status
  | moved _ edge => exact .inr edge

theorem absorbed (ended : files.metadata.status.isTerminal = true) : next = files := by
  cases effect with
  | unchanged same => exact same
  | noted _ live =>
    rw [live] at ended
    cases ended
  | moved _ edge =>
    rw [edge.live] at ended
    cases ended

theorem settled (before : Settled files) : Settled next := by
  cases effect with
  | unchanged same => rwa [same]
  | noted _ _ same =>
    obtain ⟨status, completedAt, resultRef, result⟩ := same
    constructor
    · rw [completedAt, status, before.completedAt]
    · rw [resultRef, status, before.resultRef]
    · rw [result, status, before.result]
  | moved _ _ settled => exact settled before

theorem folds (isOrdinary : ordinary)
    (before : foldStatus files.events = some files.metadata.status) :
    foldStatus next.events = some next.metadata.status := by
  cases effect with
  | unchanged same => rwa [same]
  | noted kind _ same other events =>
    have quiet : (boundEventKind kind).isStatusChange = false := by
      rw [isStatusChange_boundEventKind, other isOrdinary]
    rw [events, told, foldStatus_other quiet, before, same.status]
  | moved kind _ _ other events =>
    have quiet : (boundEventKind kind).isStatusChange = false := by
      rw [isStatusChange_boundEventKind, other]
    rw [events, told, foldStatus_other quiet]
    exact foldStatus_change before

end Effect

section

variable {store : Store} {id : Text}
variable {files : SubagentFiles}

theorem onFiles_effect {Out : Type} {ordinary : Prop} {now : Text}
    {call : SubagentFiles → Except StoreError (SubagentFiles × Out)}
    (effect : ∀ files next out, call files = .ok (next, out) → Effect ordinary now files next)
    (present : store id = some files) :
    ∃ next, (store.onFiles target call).1 id = some next ∧ Effect ordinary now files next := by
  unfold Store.onFiles
  cases found : store target with
  | none => exact ⟨files, present, .unchanged rfl⟩
  | some current =>
    dsimp only
    cases done : call current with
    | error error => exact ⟨files, present, .unchanged rfl⟩
    | ok result =>
      obtain ⟨next, out⟩ := result
      by_cases here : id = target
      · subst here
        rw [present, Option.some.injEq] at found
        subst found
        exact ⟨next, Function.update_self id (some next) store, effect _ _ _ done⟩
      · exact ⟨files, by simpa [Function.update_of_ne here] using present, .unchanged rfl⟩

theorem onFiles_absent {Out : Type} {call : SubagentFiles → Except StoreError (SubagentFiles × Out)}
    (absent : store id = none) : (store.onFiles target call).1 id = none := by
  unfold Store.onFiles
  cases found : store target with
  | none => exact absent
  | some current =>
    have elsewhere : id ≠ target := by
      rintro rfl
      rw [absent] at found
      cases found
    dsimp only
    cases call current with
    | error error => exact absent
    | ok result => simpa [Function.update_of_ne elsewhere] using absent

theorem create_cases : (store.create expectedSessionId request ids now).1 = store ∨
      ∃ fresh, store fresh = none ∧ (store.create expectedSessionId request ids now).1 =
        Function.update store fresh (some (initializeCreated
          (DelegationMetadata.new fresh request now) now)) := by
  unfold Store.create
  cases expectedSessionId.filter (· ≠ request.parentSessionId) with
  | some expected => exact .inl rfl
  | none =>
    cases free : (range idMaxAttempts).find? fun attempt => (store (ids attempt)).isNone with
    | none => exact .inl rfl
    | some attempt =>
      have empty := List.find?_some free
      exact .inr ⟨ids attempt, by simpa using empty, rfl⟩

theorem after_effect (present : store id = some files) :
    ∃ next, store.after expectedSessionId call id = some next ∧
      Effect call.Ordinary call.now files next := by
  cases call with
  | create request ids now =>
    refine ⟨files, ?_, .unchanged rfl⟩
    rcases create_cases with same | ⟨fresh, empty, changed⟩
    · exact (congrFun same id).trans present
    · have elsewhere : id ≠ fresh := by
        rintro rfl
        rw [present] at empty
        cases empty
      refine (congrFun changed id).trans ?_
      rwa [Function.update_of_ne elsewhere]
  | start target now => exact onFiles_effect (fun _ _ _ => transition_effect (.inl rfl)) present
  | updateProgress target update now =>
    exact onFiles_effect (fun _ _ _ => updateProgress_effect) present
  | steer target instruction now => exact onFiles_effect (fun _ _ _ => steer_effect) present
  | appendEvent target kind now =>
    exact onFiles_effect (fun _ _ _ => appendEvent_effect) present
  | complete target result => exact onFiles_effect (fun _ _ _ => complete_effect) present
  | abandon target reason now =>
    exact onFiles_effect (fun _ _ _ => transition_effect (.inr rfl)) present

theorem after_created (absent : store id = none)
    (created : store.after expectedSessionId call id = some files) :
    ∃ request, files =
      initializeCreated (DelegationMetadata.new id request call.now) call.now := by
  cases call with
  | create request ids now =>
    rcases create_cases with same | ⟨fresh, empty, changed⟩
    · have still := (congrFun same id).symm.trans created
      rw [absent] at still
      cases still
    · have there := (congrFun changed id).symm.trans created
      by_cases here : id = fresh
      · subst here
        rw [Function.update_self, Option.some.injEq] at there
        exact ⟨request, there.symm⟩
      · rw [Function.update_of_ne here, absent] at there
        cases there
  | start | updateProgress | steer | appendEvent | complete | abandon =>
    have still := (onFiles_absent absent).symm.trans created
    cases still

theorem run_settled (run : Trace (CallStep expectedSessionId) Store.empty calls store)
    (present : store id = some files) : Settled files ∧ ((∀ call ∈ calls, call.Ordinary) →
      foldStatus files.events = some files.metadata.status) := by
  induction run generalizing files with
  | nil => cases present
  | @snoc calls before call next earlier taken ih =>
    subst taken
    cases was : before id with
    | none =>
      obtain ⟨request, rfl⟩ := after_created was present
      exact ⟨⟨rfl, rfl, rfl⟩, fun _ => rfl⟩
    | some old =>
      obtain ⟨settled, folds⟩ := ih was
      obtain ⟨next, there, effect⟩ := after_effect was
      obtain rfl : next = files := Option.some.inj (there.symm.trans present)
      refine ⟨effect.settled settled, fun ordinary => ?_⟩
      exact effect.folds (ordinary call (by simp))
        (folds fun other member => ordinary other (by simp [member]))

theorem run_absorbed (run : Trace (CallStep expectedSessionId) store calls last)
    (present : store id = some files) (ended : files.metadata.status.isTerminal = true) :
    last id = some files := by
  induction run with
  | nil => exact present
  | snoc _ taken ih =>
    subst taken
    obtain ⟨next, there, effect⟩ := after_effect ih
    rwa [effect.absorbed ended] at there

end

/-- In every run: a subagent starts out queued, its status moves along the edges alone, a terminal
one is never touched again, the time and the reference of its result are set exactly then, and the
changes its log tells end at its status, unless a caller appended a status change of its own. -/
theorem lifecycle_agreement (expectedSessionId : Option Text) {calls : List Call} {store : Store}
    (run : Trace (CallStep expectedSessionId) Store.empty calls store) (id : Text) :
    (store id = none → ∀ call files, store.after expectedSessionId call id = some files →
      files.metadata.status = .queued) ∧
    ∀ files, store id = some files →
      (∀ call, ∃ next, store.after expectedSessionId call id = some next ∧
        (next.metadata.status = files.metadata.status ∨
          StatusEdge files.metadata.status next.metadata.status)) ∧
      (files.metadata.status.isTerminal = true → ∀ later last,
        Trace (CallStep expectedSessionId) store later last → last id = some files) ∧
      (files.metadata.completedAt.isSome ↔ files.metadata.status.isTerminal) ∧
      (files.metadata.resultRef.isSome ↔ files.metadata.status.isTerminal) ∧
      ((∀ call ∈ calls, call.Ordinary) →
        foldStatus files.events = some files.metadata.status) := by
  constructor
  · intro absent call files created
    obtain ⟨request, rfl⟩ := after_created absent created
    rfl
  · intro files present
    obtain ⟨settled, folds⟩ := run_settled run present
    refine ⟨?_, ?_, ?_, ?_, folds⟩
    · intro call
      obtain ⟨next, there, effect⟩ := after_effect present
      exact ⟨next, there, effect.status⟩
    · intro ended later last continued
      exact run_absorbed continued present ended
    · rw [settled.completedAt]
    · rw [settled.resultRef]

namespace ShortLife

def request : DelegationCreateRequest :=
  ⟨"session".toList, "turn".toList, "agent".toList, "title".toList, "role".toList,
    "objective".toList, []⟩

def id : Text := "subagent_00000001".toList

def now : Text := "2026-01-01T00:00:00Z".toList

def result : DelegationResult := ⟨.completed, "done".toList, [], [], none, now⟩

def calls : List Call :=
  [.create request (fun _ => id) now, .start id now, .steer id "more".toList now,
    .complete id result]

def final : Store := calls.foldl (Store.after none) Store.empty

theorem run : Trace (CallStep none) Store.empty calls final :=
  Trace.snoc (Trace.snoc (Trace.snoc (Trace.single rfl) rfl) rfl) rfl

def forged : List Call :=
  [.create request (fun _ => id) now,
    .appendEvent id (.statusChanged .queued .completed) now]

def forgedFinal : Store := forged.foldl (Store.after none) Store.empty

def created : SubagentFiles × EventFiles :=
  (⟨DelegationMetadata.new id request now, [], none, none, none⟩, ⟨[], none⟩)

end ShortLife

theorem lifecycle_agreement_shortLife : ∃ files, ShortLife.final ShortLife.id = some files ∧
      files.metadata.status = .completed ∧ files.metadata.completedAt.isSome ∧
      foldStatus files.events = some .completed := by
  have present : (ShortLife.final ShortLife.id).isSome := by decide +kernel
  obtain ⟨files, there⟩ := Option.isSome_iff_exists.mp present
  have status : (ShortLife.final ShortLife.id).map (·.metadata.status) = some .completed := by
    decide +kernel
  rw [there, Option.map_some, Option.some.injEq] at status
  obtain ⟨_, _, completedAt, _, folds⟩ :=
    (lifecycle_agreement none ShortLife.run ShortLife.id).2 files there
  have ordinary : ∀ call ∈ ShortLife.calls, call.Ordinary := by
    simp [ShortLife.calls, Call.Ordinary]
  refine ⟨files, there, status, completedAt.mpr (by rw [status]; rfl), ?_⟩
  rw [folds ordinary, status]

theorem foldStatus_fails_after_forged_change :
    ∃ files, Trace (CallStep none) Store.empty ShortLife.forged ShortLife.forgedFinal ∧
      ShortLife.forgedFinal ShortLife.id = some files ∧ files.metadata.status = .queued ∧
      foldStatus files.events = some .completed := by
  refine ⟨((ShortLife.forgedFinal ShortLife.id).get (by decide +kernel)), ?_, ?_, ?_, ?_⟩
  · exact Trace.snoc (Trace.single rfl) rfl
  · exact (Option.some_get _).symm
  · decide +kernel
  · decide +kernel

variable (reader : EventReader)

def Agree (both : SubagentFiles × EventFiles) : Prop :=
  Holds reader both.1.events [] both.2.events

/-- One append to the events of a store and to the log that holds them as bytes. -/
def Appended (before : SubagentFiles × EventFiles) (append : DelegationEventKind × Text)
    (after : SubagentFiles × EventFiles) : Prop :=
  reader.stamps append.2 ∧ before.2.events.length < 2 ^ 64 ∧
    after = (before.1.appendUnlocked append.1 append.2,
      (Delegation.appendEvent reader before.2 ⟨append.1, append.2, .completed⟩).1)

/-- The event file is the lines of the events in the store, numbered from one. -/
theorem event_file_follows_store {first last : SubagentFiles × EventFiles}
    {appends : List (DelegationEventKind × Text)} (agree : Agree reader first)
    (run : Trace (Appended reader) first appends last) :
    last.2.events = LineLog.frame (last.1.events.map DelegationEvent.text) ∧
      last.1.events.map DelegationEvent.seq = range' 1 last.1.events.length := by
  have kept : Agree reader last := by
    refine run.invariant ?_ agree
    rintro before append _ ⟨stamped, fits, rfl⟩ inv
    obtain ⟨event, _, written, after⟩ := appendUnlocked_refines inv fits stamped
    rw [Agree, written]
    exact after
  have bytes := kept.bytes
  rw [append_nil] at bytes
  exact ⟨bytes, kept.numbered⟩

theorem event_file_follows_store_created : ∃ last : SubagentFiles × EventFiles,
    last.1.events.map DelegationEvent.kind = [.created, .started, .steered "more".toList] ∧
      last.2.events = LineLog.frame (last.1.events.map DelegationEvent.text) ∧
      last.1.events.map DelegationEvent.seq = [1, 2, 3] := by
  have agree : Agree EventReader.exact ShortLife.created :=
    ⟨rfl, rfl, by simp [ShortLife.created], .inl rfl⟩
  have once := @Trace.single _ _ (Appended EventReader.exact) ShortLife.created
    (.created, TornCreate.stamp) _ ⟨TornCreate.stamped, by decide, rfl⟩
  have short := (event_file_follows_store _ agree once).1
  have twice := @Trace.snoc _ _ _ _ _ _ (.started, TornCreate.stamp) _ once
    ⟨TornCreate.stamped, by rw [short]; decide +kernel, rfl⟩
  have longer := (event_file_follows_store _ agree twice).1
  have thrice := @Trace.snoc _ _ _ _ _ _ (.steered "more".toList, TornCreate.stamp) _ twice
    ⟨TornCreate.stamped, by rw [longer]; decide +kernel, rfl⟩
  exact ⟨_, rfl, event_file_follows_store _ agree thrice⟩

end AgentClaimNetwork.Delegation
