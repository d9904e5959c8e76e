import AgentClaimNetwork.Agent.LocalInboxOutline
import Mathlib.Data.Finset.Lattice.Fold
import Mathlib.Order.Lattice.Nat

/-!
No message is lost from the inbox directory and none is handed out again once it is done, whatever
processes do there and wherever they are cut off.
-/

namespace AgentClaimNetwork.Agent

open Library Interleaving
open Maintainer (InboxId InboxMessage)
open Function (update update_of_ne update_self)

variable {staleAfter : Int}
variable {lease : Nat}

section

variable {system next : System (inboxMachine staleAfter)} {id : InboxId} {name : FileName}

def Threatened (system : System (inboxMachine staleAfter)) (name : FileName) : Prop :=
  ∃ process call rest, system.running process = some (call, .act (.removeFile name) rest)

def DoneIn (dir : InboxDir) (id : InboxId) : Prop := ∃ file, dir.files (.done id) = some file

def Present (system : System (inboxMachine staleAfter)) (id : InboxId) : Prop :=
  DoneIn system.world id ∨ ∃ name file, name.id = id ∧ system.world.files name = some file ∧
    ¬ Threatened system name

structure Holds (system : System (inboxMachine staleAfter)) (known : InboxKnowledge) : Prop where
  done : ∀ id ∈ known.done, DoneIn system.world id
  leases : ∀ lease ∈ known.leases, lease ∈ system.world.leases
  seen : ∀ id ∈ known.seen, Present system id

structure InboxSound (system : System (inboxMachine staleAfter)) : Prop where
  named : ∀ name file, system.world.files name = some file → file.message.id = name.id
  outlined : ∀ process call script, system.running process = some (call, script) →
    ∃ known, Holds system known ∧ script.Obeys inboxOutline (callPost call) known
  present : ∀ name file, system.world.files name = some file → Present system name.id

theorem InboxSound.pending_safe (sound : InboxSound system) (undone : ¬ DoneIn system.world id) :
    ¬ Threatened system (.pending id) := by
  rintro ⟨process, call, rest, running⟩
  obtain ⟨known, holds, obeys⟩ := sound.outlined process call _ running
  exact undone (holds.done id obeys.1)

theorem InboxSound.threatened_lease (sound : InboxSound system)
    (threatened : Threatened system (.processing id lease)) : lease ∈ system.world.leases := by
  obtain ⟨process, call, rest, running⟩ := threatened
  obtain ⟨known, holds, obeys⟩ := sound.outlined process call _ running
  exact holds.leases lease obeys.1.1

end

section

/-- What an action that the outline allows does to the directory. -/
inductive Effect (dir : InboxDir) : FileAction → InboxDir → Prop
  | nothing {action} : (∀ name, action ≠ .removeFile name) →
      (∀ name message, action ≠ .writeYaml name message) → Effect dir action dir
  | restored {id lease file} : dir.files (.processing id lease) = some file →
      Effect dir (.rename (.processing id lease) (.pending id))
        (dir.moved (.processing id lease) (.pending id) file)
  | leased {id lease file} : lease ∉ dir.leases → dir.files (.pending id) = some file →
      Effect dir (.lease (.pending id) id)
        { dir.moved (.pending id) (.processing id lease) file with
          leases := insert lease dir.leases }
  | removed {name} : (∀ id, name ≠ .done id) → Effect dir (.removeFile name)
      { dir with files := update dir.files name none }
  | written {name message} : message.id = name.id → Effect dir (.writeYaml name message)
      { dir with files := update dir.files name (some ⟨message, dir.clock⟩) }

variable {dir next : InboxDir} {known : InboxKnowledge} {action : FileAction}
  {answer : FileAnswer action} {id : InboxId}

variable {file : InboxFile}

theorem moved_files {source target name : FileName} : (dir.moved source target file).files name =
      if name = target then some file else if name = source then none else dir.files name := by
  simp only [InboxDir.moved, Function.update_apply]

theorem performs_effect (allowed : known.allows action)
    (performed : performs dir action answer next) : Effect dir action next := by
  cases action with
  | tryExists | readYaml | readDir | modified | elapsed | now =>
    rw [performed.2]
    exact Effect.nothing (by simp) (by simp)
  | rename source target =>
    obtain ⟨id, lease, rfl, rfl⟩ := allowed
    rcases performed with ⟨-, -, rfl⟩ | ⟨file, -, found, rfl⟩
    · exact Effect.nothing (by simp) (by simp)
    · exact Effect.restored found
  | lease source id =>
    have isSource : source = .pending id := allowed
    subst isSource
    rcases performed with ⟨-, -, rfl⟩ | ⟨file, lease, -, fresh, found, rfl⟩
    · exact Effect.nothing (by simp) (by simp)
    · exact Effect.leased fresh found
  | removeFile name =>
    obtain ⟨-, rfl⟩ := performed
    refine Effect.removed ?_
    rintro id rfl
    exact allowed
  | writeYaml name message =>
    have isNext := performed
    rw [isNext]
    exact Effect.written allowed.1

section

variable (effect : Effect dir action next)
include effect

theorem Effect.done (done : DoneIn dir id) : DoneIn next id := by
  obtain ⟨file, stored⟩ := done
  cases effect with
  | nothing => exact ⟨file, stored⟩
  | restored | leased => exact ⟨file, by simpa [moved_files] using stored⟩
  | @removed name undone =>
    have differs : FileName.done id ≠ name := fun same => undone id same.symm
    exact ⟨file, by simpa only [update_of_ne differs] using stored⟩
  | @written name message =>
    by_cases same : FileName.done id = name
    · subst same
      exact ⟨_, update_self _ _ _⟩
    · exact ⟨file, by simpa only [update_of_ne same] using stored⟩

theorem Effect.leases (drawn : lease ∈ dir.leases) : lease ∈ next.leases := by
  cases effect with
  | nothing | restored => exact drawn
  | leased => exact Finset.mem_insert_of_mem drawn
  | removed | written => exact drawn

theorem Effect.origin {name : FileName} (stored : next.files name = some file) :
    (∃ message, action = .writeYaml name message ∧ file.message = message) ∨
      ∃ before old, before.id = name.id ∧ dir.files before = some old ∧
        old.message = file.message := by
  cases effect with
  | nothing => exact .inr ⟨name, file, rfl, stored, rfl⟩
  | @restored id lease moved found =>
    rw [moved_files] at stored
    split_ifs at stored with isTarget isSource
    · subst isTarget
      cases stored
      exact .inr ⟨.processing id lease, file, rfl, found, rfl⟩
    · exact .inr ⟨name, file, rfl, stored, rfl⟩
  | @leased id lease moved fresh found =>
    have isFile : (dir.moved (.pending id) (.processing id lease) moved).files name = some file :=
      stored
    rw [moved_files] at isFile
    split_ifs at isFile with isTarget isSource
    · subst isTarget
      cases isFile
      exact .inr ⟨.pending id, file, rfl, found, rfl⟩
    · exact .inr ⟨name, file, rfl, isFile, rfl⟩
  | @removed other =>
    by_cases same : name = other
    · subst same
      simp at stored
    · exact .inr ⟨name, file, rfl, by simpa only [update_of_ne same] using stored, rfl⟩
  | @written other message =>
    by_cases same : name = other
    · subst same
      simp only [update_self, Option.some.injEq] at stored
      exact .inl ⟨message, rfl, by rw [← stored]⟩
    · exact .inr ⟨name, file, rfl, by simpa only [update_of_ne same] using stored, rfl⟩

theorem Effect.stays {name : FileName} (stored : dir.files name = some file) :
    action = .removeFile name ∨ (∃ kept, next.files name = some kept) ∨
      (∃ kept, next.files (.pending name.id) = some kept) ∨
      ∃ lease kept, lease ∉ dir.leases ∧ (∀ other, action ≠ .tryExists other) ∧
        next.files (.processing name.id lease) = some kept := by
  cases effect with
  | nothing => exact .inr (.inl ⟨file, stored⟩)
  | @restored id lease moved found =>
    by_cases same : name = .processing id lease
    · subst same
      exact .inr (.inr (.inl ⟨moved, by simp [moved_files, FileName.id]⟩))
    · by_cases target : name = .pending id
      · exact .inr (.inl ⟨moved, by simp [moved_files, target]⟩)
      · exact .inr (.inl ⟨file, by simpa [moved_files, same, target] using stored⟩)
  | @leased id lease moved fresh found =>
    by_cases same : name = .pending id
    · subst same
      refine .inr (.inr (.inr ⟨lease, moved, fresh, by simp, ?_⟩))
      simp [moved_files, FileName.id]
    · by_cases target : name = .processing id lease
      · refine .inr (.inl ⟨moved, ?_⟩)
        simp [moved_files, target]
      · refine .inr (.inl ⟨file, ?_⟩)
        simpa [moved_files, same, target] using stored
  | @removed other =>
    by_cases same : name = other
    · exact .inl (by rw [same])
    · exact .inr (.inl ⟨file, by simpa only [update_of_ne same] using stored⟩)
  | @written other message =>
    by_cases same : name = other
    · subst same
      exact .inr (.inl ⟨_, update_self _ _ _⟩)
    · exact .inr (.inl ⟨file, by simpa only [update_of_ne same] using stored⟩)

end

section

variable (performed : performs dir action answer next)
include performed

theorem learned_pending (saw : (known.learn action answer).sawPending = some id) :
    action = .tryExists (.pending id) ∧ next = dir ∧
      ∃ file, dir.files (.pending id) = some file := by
  unfold InboxKnowledge.learn at saw
  split at saw
  case h_2 other =>
      have same : other = id := by simpa using saw
      subst same
      exact ⟨rfl, performed.2, Option.isSome_iff_exists.mp performed.1.symm⟩
  all_goals cases saw

theorem learned_done
    (learned : id ∈ (known.learn action answer).done) : id ∈ known.done ∨ DoneIn next id := by
  unfold InboxKnowledge.learn at learned
  split at learned
  case h_1 other =>
      rcases learned with rfl | before
      · rw [performed.2]
        exact .inr (Option.isSome_iff_exists.mp performed.1.symm)
      · exact .inl before
  case h_6 other message _ =>
      rcases learned with rfl | before
      · have isNext := performed
        rw [isNext]
        exact .inr ⟨_, update_self _ _ _⟩
      · exact .inl before
  all_goals exact .inl learned

theorem learned_lease (learned : lease ∈ (known.learn action answer).leases) :
    lease ∈ known.leases ∨ lease ∈ dir.leases := by
  unfold InboxKnowledge.learn at learned
  split at learned
  case h_5 names =>
      rcases learned with before | ⟨other, member⟩
      · exact .inl before
      · exact .inr (performed.1 other lease member)
  all_goals exact .inl learned

theorem learned_seen (learned : id ∈ (known.learn action answer).seen) :
    id ∈ known.seen ∨ (∃ name file, name.id = id ∧ dir.files name = some file) ∨
      ∃ name file, name.id = id ∧ next.files name = some file ∧
        ∀ other lease, name ≠ .processing other lease := by
  unfold InboxKnowledge.learn at learned
  split at learned
  case h_1 other =>
      rcases learned with rfl | before
      · obtain ⟨file, found⟩ := Option.isSome_iff_exists.mp performed.1.symm
        exact .inr (.inl ⟨.done id, file, rfl, found⟩)
      · exact .inl before
  case h_2 other =>
      rcases learned with rfl | before
      · obtain ⟨file, found⟩ := Option.isSome_iff_exists.mp performed.1.symm
        exact .inr (.inl ⟨.pending id, file, rfl, found⟩)
      · exact .inl before
  case h_3 other lease =>
      rcases learned with rfl | before
      · obtain ⟨file, found⟩ := Option.isSome_iff_exists.mp performed.1.symm
        exact .inr (.inl ⟨.processing id lease, file, rfl, found⟩)
      · exact .inl before
  case h_4 name message =>
      rcases learned with rfl | before
      · obtain ⟨file, found, -⟩ := Option.map_eq_some_iff.mp performed.1.symm
        exact .inr (.inl ⟨name, file, rfl, found⟩)
      · exact .inl before
  case h_6 other message _ =>
      have isNext := performed
      rcases learned with rfl | before
      · rw [isNext]
        exact .inr (.inr ⟨.done id, _, rfl, update_self _ _ _, by simp⟩)
      · exact .inl before
  case h_7 other message _ =>
      have isNext := performed
      rcases learned with rfl | before
      · rw [isNext]
        exact .inr (.inr ⟨.pending id, _, rfl, update_self _ _ _, by simp⟩)
      · exact .inl before
  all_goals exact .inl learned

end

end

section

variable {system : System (inboxMachine staleAfter)} {process : Nat} {call : InboxCall}
  {action : FileAction} {rest : FileAnswer action → FileScript (List ClaimedInboxMessage)}
  {answer : FileAnswer action} {world : InboxDir} {known : InboxKnowledge} {id : InboxId}

def acted (system : System (inboxMachine staleAfter)) (process : Nat) (call : InboxCall)
    (script : FileScript (List ClaimedInboxMessage)) (world : InboxDir) :
    System (inboxMachine staleAfter) :=
  ⟨world, update system.running process (some (call, script))⟩

theorem threatened_acted {name : FileName}
    (threatened : Threatened (acted system process call script world) name) :
    Threatened system name ∨ ∃ rest, script = .act (.removeFile name) rest := by
  obtain ⟨other, otherCall, otherRest, running⟩ := threatened
  by_cases same : other = process
  · subst same
    simp only [acted, update_self, Option.some.injEq] at running
    exact .inr ⟨otherRest, congrArg Prod.snd running⟩
  · simp only [acted, update_of_ne same] at running
    exact .inl ⟨other, otherCall, otherRest, running⟩

variable (sound : InboxSound system) (holds : Holds system known)
  (performed : performs system.world action answer world) (effect : Effect system.world action world)
  (obeys : (rest answer).Obeys inboxOutline (callPost call) (known.learn action answer))
  (running : system.running process = some (call, .act action rest))

include sound holds performed effect obeys

theorem pending_present {file : InboxFile} (stored : world.files (.pending id) = some file) :
    Present (acted system process call (rest answer) world) id := by
  by_cases done : DoneIn world id
  · exact .inl done
  · refine .inr ⟨.pending id, file, rfl, stored, fun threatened => done ?_⟩
    rcases threatened_acted threatened with before | ⟨later, isHead⟩
    · by_contra undone
      exact sound.pending_safe (fun already => undone (effect.done already)) before
    · rw [isHead] at obeys
      rcases learned_done performed obeys.1 with known | now
      · exact effect.done (holds.done id known)
      · exact now

include running

theorem present_acted (present : Present system id) :
    Present (acted system process call (rest answer) world) id := by
  rcases present with done | ⟨name, file, isId, stored, safe⟩
  · exact .inl (effect.done done)
  have pendingSafe := fun kept found =>
    @pending_present _ system process call action rest answer world known id sound holds performed
      effect obeys kept found
  by_cases done : DoneIn world id
  · exact .inl done
  rcases effect.stays stored with removes | ⟨kept, found⟩ | ⟨kept, found⟩ |
    ⟨lease, kept, fresh, noLook, found⟩
  · subst removes
    exact absurd ⟨process, call, rest, running⟩ safe
  · by_cases threatened : Threatened (acted system process call (rest answer) world) name
    · rcases threatened_acted threatened with before | ⟨later, isHead⟩
      · exact absurd before safe
      · -- Only a process that has just seen the message pending may remove this file.
        rw [isHead] at obeys
        have allowed := obeys.1
        cases name with
        | pending other =>
          have isOther : other = id := isId
          subst isOther
          rcases learned_done performed allowed with already | now
          · exact .inl (effect.done (holds.done other already))
          · exact .inl now
        | done other => exact allowed.elim
        | processing other lease =>
          have isOther : other = id := isId
          subst isOther
          rcases allowed.2 with known | saw
          · rcases learned_done performed known with already | now
            · exact .inl (effect.done (holds.done other already))
            · exact .inl now
          · obtain ⟨-, same, pending, isPending⟩ := learned_pending performed saw
            subst same
            exact pendingSafe pending isPending
    · exact .inr ⟨name, kept, isId, found, threatened⟩
  · rw [isId] at found
    exact pendingSafe kept found
  · rw [isId] at found
    refine .inr ⟨.processing id lease, kept, rfl, found, fun threatened => done ?_⟩
    rcases threatened_acted threatened with before | ⟨later, isHead⟩
    · exact absurd (sound.threatened_lease before) fresh
    · rw [isHead] at obeys
      rcases obeys.1.2 with known | saw
      · rcases learned_done performed known with already | now
        · exact effect.done (holds.done id already)
        · exact now
      · exact absurd (learned_pending performed saw).1 (noLook _)

theorem holds_acted (otherHolds : Holds system other) :
    Holds (acted system process call (rest answer) world) other where
  done := fun id isDone => effect.done (otherHolds.done id isDone)
  leases := fun lease drawn => effect.leases (otherHolds.leases lease drawn)
  seen := fun id seen =>
    present_acted sound holds performed effect obeys running (otherHolds.seen id seen)

theorem learn_acted :
    Holds (acted system process call (rest answer) world) (known.learn action answer) where
  done := by
    intro id isDone
    rcases learned_done performed isDone with before | now
    · exact effect.done (holds.done id before)
    · exact now
  leases := by
    intro lease drawn
    rcases learned_lease performed drawn with before | listed
    · exact effect.leases (holds.leases lease before)
    · exact effect.leases listed
  seen := by
    intro id seen
    rcases learned_seen performed seen with before | ⟨name, file, isId, stored⟩ |
      ⟨name, file, isId, stored, notHeld⟩
    · exact present_acted sound holds performed effect obeys running (holds.seen id before)
    · have present := sound.present name file stored
      rw [isId] at present
      exact present_acted sound holds performed effect obeys running present
    · cases name with
      | pending other =>
        have isOther : other = id := isId
        subst isOther
        exact pending_present sound holds performed effect obeys stored
      | done other =>
        have isOther : other = id := isId
        subst isOther
        exact .inl ⟨file, stored⟩
      | processing other lease => exact absurd rfl (notHeld other lease)

theorem sound_acted (allowed : known.allows action) :
    InboxSound (acted system process call (rest answer) world) where
  named := by
    intro name file stored
    rcases effect.origin stored with ⟨message, isWrite, isMessage⟩ | ⟨before, old, sameId, found, same⟩
    · subst isWrite
      rw [isMessage]
      exact allowed.1
    · rw [← same, sound.named before old found, sameId]
  outlined := by
    intro other otherCall script isRunning
    rcases update_cases isRunning with ⟨rfl, written⟩ | ⟨same, isRunning⟩
    · cases written
      exact ⟨_, learn_acted sound holds performed effect obeys running, obeys⟩
    · obtain ⟨otherKnown, otherHolds, otherObeys⟩ := sound.outlined other otherCall script isRunning
      exact ⟨otherKnown, holds_acted sound holds performed effect obeys running otherHolds,
        otherObeys⟩
  present := by
    intro name file stored
    rcases effect.origin stored with ⟨message, isWrite, -⟩ | ⟨before, old, sameId, found, -⟩
    · subst isWrite
      cases name with
      | pending id => exact pending_present sound holds performed effect obeys stored
      | done id => exact .inl ⟨file, stored⟩
      | processing id lease => exact absurd rfl (allowed.2 id lease)
    · rw [← sameId]
      exact present_acted sound holds performed effect obeys running (sound.present before old found)

end
variable {labels : List (Label (inboxMachine staleAfter))}

section

variable {system next : System (inboxMachine staleAfter)} {label : Label (inboxMachine staleAfter)}

structure Settled (system next : System (inboxMachine staleAfter)) : Prop where
  files : next.world.files = system.world.files
  leases : next.world.leases = system.world.leases
  safe : ∀ name, Threatened next name → Threatened system name

variable {id : InboxId}

theorem Settled.present (settled : Settled system next)
    (present : Present system id) : Present next id := by
  rcases present with ⟨file, done⟩ | ⟨name, file, isId, stored, safe⟩
  · exact .inl ⟨file, by rw [settled.files]; exact done⟩
  · refine .inr ⟨name, file, isId, by rw [settled.files]; exact stored, ?_⟩
    exact fun threatened => safe (settled.safe name threatened)

variable {known : InboxKnowledge}

theorem Settled.holds (settled : Settled system next)
    (holds : Holds system known) : Holds next known where
  done := by
    intro id isDone
    obtain ⟨file, stored⟩ := holds.done id isDone
    exact ⟨file, by rw [settled.files]; exact stored⟩
  leases := by
    rw [settled.leases]
    exact holds.leases
  seen := fun id seen => settled.present (holds.seen id seen)

theorem Settled.sound (settled : Settled system next) (sound : InboxSound system)
    (outlined : ∀ process call script, next.running process = some (call, script) →
      system.running process = some (call, script) ∨
        ∃ known, Holds system known ∧ script.Obeys inboxOutline (callPost call) known) :
    InboxSound next where
  named := by
    rw [settled.files]
    exact sound.named
  outlined := by
    intro process call script running
    rcases outlined process call script running with before | ⟨known, holds, obeys⟩
    · obtain ⟨known, holds, obeys⟩ := sound.outlined process call script before
      exact ⟨known, settled.holds holds, obeys⟩
    · exact ⟨known, settled.holds holds, obeys⟩
  present := by
    rw [settled.files]
    exact fun name file stored => settled.present (sound.present name file stored)

theorem ended_settled (process : Nat) :
    Settled system { system with running := update system.running process none } where
  files := rfl
  leases := rfl
  safe := by
    rintro name ⟨other, call, rest, running⟩
    rcases update_cases running with ⟨rfl, written⟩ | ⟨same, running⟩
    · cases written
    · exact ⟨other, call, rest, running⟩

theorem ended_running {process other : Nat} {job}
    (running : update system.running process none other = some job) :
    system.running other = some job := by
  by_cases same : other = process
  · subst same
    simp at running
  · rwa [update_of_ne same] at running

theorem callKnowledge_holds : Holds system (callKnowledge system.world) where
  done := fun _ isDone => isDone.elim
  leases := fun _ drawn => drawn
  seen := fun _ seen => seen.elim

theorem started_settled {process : Nat} {call : InboxCall}
    (admitted : (inboxMachine staleAfter).admits system.world call) :
    Settled system { system with
      running := update system.running process
        (some (call, (inboxMachine staleAfter).script call)) } where
  files := rfl
  leases := rfl
  safe := by
    rintro name ⟨other, otherCall, rest, running⟩
    by_cases same : other = process
    · subst same
      simp only [update_self, Option.some.injEq] at running
      have isScript : inboxScript staleAfter call = .act (.removeFile name) rest :=
        congrArg Prod.snd running
      have obeys := obeys_inboxScript admitted
      rw [isScript] at obeys
      have allowed := obeys.1
      cases name with
      | pending id | done id => exact allowed.elim
      | processing id lease =>
        rcases allowed.2 with known | saw
        · exact known.elim
        · cases saw
    · simp only [update_of_ne same] at running
      exact ⟨other, otherCall, rest, running⟩

theorem answer_possible (sound : InboxSound system) {action : FileAction}
    {answer : FileAnswer action} {world : InboxDir}
    (performed : performs system.world action answer world) :
    inboxOutline.possible known action answer := by
  cases action with
  | readYaml name =>
    cases answer with
    | none => trivial
    | some message =>
      obtain ⟨file, found, isMessage⟩ := Option.map_eq_some_iff.mp performed.1.symm
      rw [← isMessage]
      exact sound.named name file found
  | tryExists | readDir | modified | elapsed | now | rename | lease | removeFile | writeYaml =>
    trivial

section

variable (sound : InboxSound system) (step : Step (inboxMachine staleAfter) system label next)
include sound step

theorem sound_step : InboxSound next := by
  cases step with
  | @start process call idle admitted =>
    refine (started_settled admitted).sound sound ?_
    intro other otherCall script running
    rcases update_cases running with ⟨rfl, written⟩ | ⟨same, running⟩
    · cases written
      exact .inr ⟨_, callKnowledge_holds, obeys_inboxScript admitted⟩
    · exact .inl running
  | @act process call action rest answer world running performed =>
    obtain ⟨known, holds, obeys⟩ := sound.outlined process call _ running
    exact sound_acted sound holds performed (performs_effect obeys.1 performed)
      (obeys.2 answer (answer_possible sound performed)) running obeys.1
  | finish | fail | crash =>
    exact (ended_settled _).sound sound fun _ _ _ running => .inl (ended_running running)
  | pass passed =>
    obtain ⟨later, -, rfl⟩ := passed
    have settled : Settled system { system with world := { system.world with clock := later } } :=
      ⟨rfl, rfl, fun _ threatened => threatened⟩
    exact settled.sound sound fun _ _ _ running => .inl running

theorem present_step (present : Present system id) : Present next id := by
  cases step with
  | start idle admitted => exact (started_settled admitted).present present
  | @act process call action rest answer world running performed =>
    obtain ⟨known, holds, obeys⟩ := sound.outlined process call _ running
    exact present_acted sound holds performed (performs_effect obeys.1 performed)
      (obeys.2 answer (answer_possible sound performed)) running present
  | finish | fail | crash => exact (ended_settled _).present present
  | pass passed =>
    obtain ⟨later, -, rfl⟩ := passed
    have settled : Settled system { system with world := { system.world with clock := later } } :=
      ⟨rfl, rfl, fun _ threatened => threatened⟩
    exact settled.present present

theorem done_step (done : DoneIn system.world id) : DoneIn next.world id := by
  cases step with
  | start => exact done
  | @act process call action rest answer world running performed =>
    obtain ⟨known, holds, obeys⟩ := sound.outlined process call _ running
    exact (performs_effect obeys.1 performed).done done
  | finish | fail | crash => exact done
  | pass passed =>
    obtain ⟨later, -, rfl⟩ := passed
    exact done

end

theorem sound_run (sound : InboxSound system)
    (run : Trace (Step (inboxMachine staleAfter)) system labels next) : InboxSound next := by
  induction run with
  | nil => exact sound
  | snoc _ taken ih => exact sound_step ih taken

theorem emptyInbox_sound : InboxSound (emptyInbox staleAfter) where
  named := fun _ _ stored => by cases stored
  outlined := fun _ _ _ running => by cases running
  present := fun _ _ stored => by cases stored

end

section

def doneOutline (id : InboxId) : Outline FileAction FileAnswer Unit where
  learn := fun _ _ _ => ()
  allowed := fun _ _ => True
  possible := fun _ action answer =>
    match action, answer with
    | .tryExists name, found => name = .done id → found = true
    | _, _ => True

variable {id : InboxId} {Result : Type}

theorem obeys_anything (script : FileScript Result) :
    script.Obeys (doneOutline id) (fun _ _ => True) () := by
  induction script with
  | finished result => trivial
  | failed => trivial
  | act action next ih => exact ⟨trivial, fun answer _ => ih answer⟩

theorem scanFile_done (path : FileName) : (scanFile path).Obeys (doneOutline id)
      (fun _ found => ∀ item, found = some item → item.message.id ≠ id) () := by
  refine Script.Obeys.bind (obeys_anything (readYaml path)) fun _ message _ => ?_
  refine And.intro trivial fun done can => ?_
  cases done with
  | true =>
    show Script.Obeys _ _ _ (removeFile _ >>= fun _ => pure none)
    refine Script.Obeys.bind (obeys_anything (removeFile path)) fun _ _ _ => ?_
    intro item found
    cases found
  | false =>
    have differs : message.id ≠ id := by
      intro same
      have absent := can (by rw [same])
      cases absent
    show Script.Obeys _ _ _ (modified path >>= fun modifiedAt =>
      pure (some (PendingInboxMessage.mk message modifiedAt path)))
    refine Script.Obeys.bind (obeys_anything (modified path)) fun _ modifiedAt _ => ?_
    intro item found
    cases found
    exact differs

theorem claimPending_done (staleAfter : Int) (seen : List InboxId) :
    (claimPending staleAfter seen).Obeys (doneOutline id)
      (fun _ claimed => ∀ item ∈ claimed, item.message.id ≠ id) () := by
  refine Script.Obeys.bind (obeys_anything _) fun _ _ _ => ?_
  refine Script.Obeys.bind (obeys_anything readDir) fun _ names _ => ?_
  refine Script.Obeys.bind (obeys_scanPending fun _ _ => scanFile_done _)
    fun _ pending collected => ?_
  have claims := @Script.Obeys.gather FileAction FileAnswer ClaimedInboxMessage
    PendingInboxMessage Unit (doneOutline id) () (fun _ => True) (fun _ item => item.message.id ≠ id)
    ((pending.insertionSort pendingBefore).filter fun item => item.message.id ∉ seen) claimItem
    (fun _ _ _ _ good => good) ?_ trivial
  · exact claims.weaken fun _ _ holds => holds.2
  · intro item member _ _
    have among := List.mem_of_mem_filter member
    rw [List.mem_insertionSort] at among
    refine And.intro trivial fun leased _ => ⟨trivial, ?_⟩
    intro claimed found
    obtain ⟨lease, -, rfl⟩ := Option.map_eq_some_iff.mp found
    exact collected item among

def ClaimsOthers (id : InboxId) (seen : List InboxId) (process : Nat)
    (system : System (inboxMachine staleAfter)) : Prop :=
  ∀ call script, system.running process = some (call, script) →
    call = .claimPending seen ∧ script.Obeys (doneOutline id)
      (fun _ (claimed : List ClaimedInboxMessage) => ∀ item ∈ claimed, item.message.id ≠ id) ()

variable {system next : System (inboxMachine staleAfter)} {label : Label (inboxMachine staleAfter)}
  {seen : List InboxId} {process : Nat}

theorem claimsOthers_step (done : DoneIn system.world id)
    (step : Step (inboxMachine staleAfter) system label next)
    (sameCall : ∀ call, label ≠ .start process call)
    (claims : ClaimsOthers id seen process system) : ClaimsOthers id seen process next := by
  intro call script running
  cases step with
  | @start other otherCall idle admitted =>
    have differs : process ≠ other := by
      rintro rfl
      exact sameCall otherCall rfl
    simp only [update_of_ne differs] at running
    exact claims call script running
  | @act other otherCall action rest answer world isRunning performed =>
    rcases update_cases running with ⟨rfl, written⟩ | ⟨same, running⟩
    · cases written
      obtain ⟨isCall, obeys⟩ := claims call _ isRunning
      refine ⟨isCall, obeys.2 answer ?_⟩
      cases action with
      | tryExists name =>
        rintro rfl
        obtain ⟨file, stored⟩ := done
        rw [performed.1, stored]
        rfl
      | readYaml | readDir | modified | elapsed | now | rename | lease | removeFile | writeYaml =>
        trivial
    · exact claims call script running
  | finish | fail | crash => exact claims call script (ended_running running)
  | pass => exact claims call script running

theorem claimsOthers_run (sound : InboxSound system) (done : DoneIn system.world id)
    (run : Trace (Step (inboxMachine staleAfter)) system labels next)
    (sameCall : ∀ call, Label.start process call ∉ labels)
    (claims : ClaimsOthers id seen process system) :
    ClaimsOthers id seen process next ∧ DoneIn next.world id := by
  induction run with
  | nil => exact ⟨claims, done⟩
  | snoc before taken ih =>
    obtain ⟨earlier, isDone⟩ := ih fun call member => sameCall call (by simp [member])
    refine ⟨claimsOthers_step isDone taken ?_ earlier, ?_⟩
    · rintro call rfl
      exact sameCall call (by simp)
    · exact done_step (sound_run sound before) taken isDone

end

variable {system : System (inboxMachine staleAfter)}

theorem accepted_present
    (run : Trace (Step (inboxMachine staleAfter)) (emptyInbox staleAfter) labels system)
    {process : Nat}
    (accepted : Label.finish process (InboxCall.acceptPulled message) (some reply) ∈ labels) :
    Present system message.id := by
  induction run with
  | nil => cases accepted
  | snoc before taken ih =>
    have sound := sound_run emptyInbox_sound before
    rcases mem_concat accepted with earlier | rfl
    · exact present_step sound taken (ih earlier)
    · cases taken with
      | finish running =>
        obtain ⟨known, holds, obeys⟩ := sound.outlined process _ _ running
        exact (ended_settled process).present (holds.seen message.id obeys)

/-- An accepted message keeps a file, and no claim returns a message that was done when it began. -/
theorem local_inbox_keeps_messages {labels : List (Label (inboxMachine staleAfter))}
    (run : Trace (Step (inboxMachine staleAfter)) (emptyInbox staleAfter) labels system) :
    (∀ process message reply,
      Label.finish process (InboxCall.acceptPulled message) (some reply) ∈ labels →
        ∃ name file, name.id = message.id ∧ system.world.files name = some file) ∧
      ∀ id, DoneIn system.world id → ∀ process seen started between later (claimed : List ClaimedInboxMessage) last,
        Step (inboxMachine staleAfter) system (.start process (.claimPending seen)) started →
        Trace (Step (inboxMachine staleAfter)) started between later →
        (∀ call, Label.start process call ∉ between) →
        Step (inboxMachine staleAfter) later
          (.finish process (.claimPending seen) (some claimed)) last →
        ∀ item ∈ claimed, item.message.id ≠ id := by
  have sound := sound_run emptyInbox_sound run
  constructor
  · intro process message reply accepted
    rcases accepted_present run accepted with ⟨file, stored⟩ | ⟨name, file, isId, stored, -⟩
    · exact ⟨.done message.id, file, rfl, stored⟩
    · exact ⟨name, file, isId, stored⟩
  · intro id done process seen started between later claimed last start run sameCall finish
    have startSound := sound_step sound start
    have startDone := done_step sound start done
    have claims : ClaimsOthers id seen process started := by
      cases start with
      | start idle admitted =>
        intro call script running
        simp only [update_self, Option.some.injEq] at running
        cases running
        exact ⟨rfl, claimPending_done staleAfter seen⟩
    obtain ⟨others, -⟩ := claimsOthers_run startSound startDone run sameCall claims
    cases finish with
    | finish running => exact (others _ _ running).2

def respond (names : List FileName) (dir : InboxDir) :
    (action : FileAction) → FileAnswer action × InboxDir
  | .tryExists name => ((dir.files name).isSome, dir)
  | .readYaml name => ((dir.files name).map InboxFile.message, dir)
  | .readDir =>
    (names.filter fun name => match name with
      | .processing _ lease => decide (lease ∈ dir.leases) && (dir.files name).isSome
      | .pending _ | .done _ => (dir.files name).isSome, dir)
  | .modified name => ((dir.files name).map InboxFile.modifiedAt, dir)
  | .elapsed _ _ | .now => (dir.clock, dir)
  | .rename source target =>
    match dir.files source with
    | some file => (true, dir.moved source target file)
    | none => (false, dir)
  | .lease source id =>
    match dir.files source with
    | some file =>
      let lease := dir.leases.sup Nat.succ
      (some lease, { dir.moved source (.processing id lease) file with
        leases := insert lease dir.leases })
    | none => (none, dir)
  | .removeFile name =>
    ((dir.files name).isSome, { dir with files := update dir.files name none })
  | .writeYaml name message =>
    ((), { dir with files := update dir.files name (some ⟨message, dir.clock⟩) })

theorem respond_performs (dir : InboxDir) (action : FileAction) :
    performs dir action (respond names dir action).1 (respond names dir action).2 := by
  cases action with
  | tryExists | readYaml | modified | elapsed | now => exact ⟨rfl, rfl⟩
  | readDir =>
    refine ⟨?_, rfl⟩
    intro id lease member
    have listed := (List.mem_filter.mp member).2
    simp only [Bool.and_eq_true, decide_eq_true_eq] at listed
    exact listed.1
  | rename source target =>
    simp only [respond]
    cases found : dir.files source with
    | none => exact .inl ⟨rfl, found, rfl⟩
    | some file => exact .inr ⟨file, rfl, found, rfl⟩
  | lease source id =>
    simp only [respond]
    cases found : dir.files source with
    | none => exact .inl ⟨rfl, found, rfl⟩
    | some file =>
      refine .inr ⟨file, _, rfl, ?_, found, rfl⟩
      intro drawn
      have bound := @Finset.le_sup ℕ ℕ _ _ dir.leases Nat.succ _ drawn
      omega
  | removeFile => exact ⟨rfl, rfl⟩
  | writeYaml => rfl

def samplePolicy : Maintainer.Policy :=
  ⟨"policy_1", .policyUpdate, "name", "statement", "scope", .active, 5, none, none⟩

def sampleMessage : InboxMessage := ⟨"inbox_1", .policyUpdate samplePolicy, none⟩

def sampleClaim : ClaimedInboxMessage := ⟨sampleMessage, some (.processing "inbox_1" 0)⟩

def afterCall (staleAfter : Int) (names : List FileName) (call : InboxCall) (dir : InboxDir) :
    InboxDir :=
  ((inboxScript staleAfter call).eval (respond names) dir).2

/-- One process accepts a message, claims it and acknowledges it. -/
theorem local_inbox_keeps_messages_acked : ∃ labels system,
      Trace (Step (inboxMachine 600)) (emptyInbox 600) labels system ∧
        DoneIn system.world "inbox_1" ∧
        ∃ name file, name.id = "inbox_1" ∧ system.world.files name = some file := by
  obtain ⟨acts, -, accepts⟩ := @call_run (inboxMachine 600) (respond []) 1
    (.acceptPulled sampleMessage) respond_performs (emptyInbox 600) rfl trivial
  obtain ⟨_, -, claims⟩ := @call_run (inboxMachine 600) (respond [.pending "inbox_1"]) 1
    (.claimPending []) respond_performs
    ⟨afterCall 600 [] (.acceptPulled sampleMessage) (emptyInbox 600).world, fun _ => none⟩ rfl trivial
  obtain ⟨_, -, acks⟩ := @call_run (inboxMachine 600) (respond []) 1
    (.ackClaimed sampleClaim) respond_performs
    ⟨afterCall 600 [.pending "inbox_1"] (.claimPending [])
      (afterCall 600 [] (.acceptPulled sampleMessage) (emptyInbox 600).world), fun _ => none⟩ rfl
    (by
      intro name isLease
      cases isLease
      exact ⟨0, by decide, rfl⟩)
  have run := (accepts.append claims).append acks
  refine ⟨_, _, run, ⟨_, rfl⟩, ?_⟩
  refine (local_inbox_keeps_messages run).1 1 sampleMessage [] ?_
  have ended : ((inboxScript 600 (.acceptPulled sampleMessage)).eval (respond [])
      (emptyInbox 600).world).1 = some [] := rfl
  simp [ended]

end AgentClaimNetwork.Agent
