import AgentClaimNetwork.Library.Trace

/-!
Programs that share a world and take turns at atomic actions.  An outline says what a program may
do with what it has learned.
-/

namespace AgentClaimNetwork.Library

open Function (update update_idem)

variable {Action : Type} {Answer : Action → Type} {machine : Machine}

namespace Interleaving

inductive Script (Action : Type) (Answer : Action → Type) (Result : Type) : Type
  | finished (result : Result)
  | failed
  | act (action : Action) (next : Answer action → Script Action Answer Result)

namespace Script

variable {Result Next Item : Type}

def andThen (script : Script Action Answer Result) (next : Result → Script Action Answer Next) :
    Script Action Answer Next :=
  match script with
  | .finished result => next result
  | .failed => .failed
  | .act action rest => .act action fun answer => andThen (rest answer) next

instance : Monad (Script Action Answer) where
  pure := .finished
  bind := andThen

def orFail : Option Result → Script Action Answer Result
  | some result => .finished result
  | none => .failed

def require (condition : Bool) : Script Action Answer Unit :=
  if condition then .finished () else .failed

def forEach (items : List Item) (body : Item → Script Action Answer Unit) :
    Script Action Answer Unit :=
  match items with
  | [] => .finished ()
  | item :: rest => andThen (body item) fun _ => forEach rest body

def gather (items : List Item) (body : Item → Script Action Answer (Option Result)) :
    Script Action Answer (List Result) :=
  match items with
  | [] => .finished []
  | item :: rest => andThen (body item) fun found =>
    andThen (gather rest body) fun more => .finished (found.toList ++ more)

end Script

section

variable {Result Next Item Knowledge : Type}

structure Outline (Action : Type) (Answer : Action → Type) (Knowledge : Type) where
  learn : Knowledge → (action : Action) → Answer action → Knowledge
  allowed : Knowledge → Action → Prop
  possible : Knowledge → (action : Action) → Answer action → Prop

variable {outline : Outline Action Answer Knowledge} {post : Knowledge → Result → Prop}
  {known : Knowledge} {script : Script Action Answer Result}

/-- Every action is allowed when it is taken, and the result is as `post` says. -/
def Script.Obeys (outline : Outline Action Answer Knowledge) (post : Knowledge → Result → Prop)
    (known : Knowledge) : Script Action Answer Result → Prop
  | .finished result => post known result
  | .failed => True
  | .act action next => outline.allowed known action ∧ ∀ answer,
      outline.possible known action answer →
        Obeys outline post (outline.learn known action answer) (next answer)

theorem Script.Obeys.weaken {weaker : Knowledge → Result → Prop}
    (obeys : script.Obeys outline post known)
    (implies : ∀ known result, post known result → weaker known result) :
    script.Obeys outline weaker known := by
  induction script generalizing known with
  | finished result => exact implies known result obeys
  | failed => trivial
  | act action next ih => exact ⟨obeys.1, fun answer can => ih answer (obeys.2 answer can)⟩

theorem Script.Obeys.bind {after : Knowledge → Next → Prop}
    (first : script.Obeys outline post known)
    (second : ∀ known result, post known result → (next result).Obeys outline after known) :
    (script >>= next).Obeys outline after known := by
  induction script generalizing known with
  | finished result => exact second known result first
  | failed => trivial
  | act action rest ih => exact ⟨first.1, fun answer can => ih answer (first.2 answer can)⟩

variable {kept : Knowledge → Prop}

theorem Script.Obeys.keep (obeys : script.Obeys outline post known)
    (stable : ∀ known action answer, kept known → kept (outline.learn known action answer))
    (holds : kept known) :
    script.Obeys outline (fun known result => post known result ∧ kept known) known := by
  induction script generalizing known with
  | finished result => exact ⟨obeys, holds⟩
  | failed => trivial
  | act action next ih =>
    exact ⟨obeys.1, fun answer can => ih answer (obeys.2 answer can) (stable known action answer holds)⟩

theorem Script.Obeys.orFail (holds : ∀ result, found = some result → post known result) :
    (Script.orFail found : Script Action Answer Result).Obeys outline post known := by
  cases found with
  | none => trivial
  | some result => exact holds result rfl

theorem Script.Obeys.require {post : Knowledge → Unit → Prop}
    (holds : condition = true → post known ()) :
    (Script.require condition : Script Action Answer Unit).Obeys outline post known := by
  cases condition with
  | false => trivial
  | true => exact holds rfl

theorem Script.Obeys.forEach {items : List Item} {body : Item → Script Action Answer Unit}
    (each : ∀ item ∈ items, ∀ known, kept known → (body item).Obeys outline (fun known _ => kept known) known)
    (holds : kept known) :
    (Script.forEach items body).Obeys outline (fun known _ => kept known) known := by
  induction items generalizing known with
  | nil => exact holds
  | cons item rest ih =>
    refine Script.Obeys.bind (each item List.mem_cons_self known holds) fun known _ holds => ?_
    exact ih (fun other member => each other (List.mem_cons_of_mem _ member)) holds

theorem Script.Obeys.gather {good : Knowledge → Result → Prop} {items : List Item}
    {body : Item → Script Action Answer (Option Result)}
    (stable : ∀ known action answer result, good known result → good (outline.learn known action answer) result)
    (each : ∀ item ∈ items, ∀ known, kept known → (body item).Obeys outline (fun known found => kept known ∧ ∀ result, found = some result → good known result) known)
    (holds : kept known) :
    (Script.gather items body).Obeys outline
      (fun known found => kept known ∧ ∀ result ∈ found, good known result) known := by
  induction items generalizing known with
  | nil => exact ⟨holds, by simp⟩
  | cons item rest ih =>
    refine Script.Obeys.bind (each item List.mem_cons_self known holds) ?_
    rintro known found ⟨holds, first⟩
    have others := ih (fun other member => each other (List.mem_cons_of_mem _ member)) holds
    have both := @Script.Obeys.keep Action Answer (List Result) Knowledge outline _ _ _
      (fun known => ∀ result, found = some result → good known result) others
      (fun known action answer all result isFound =>
        stable known action answer result (all result isFound)) first
    refine Script.Obeys.bind both ?_
    rintro known more ⟨⟨holds, later⟩, here⟩
    refine ⟨holds, ?_⟩
    intro result member
    rcases List.mem_append.mp member with isFirst | isLater
    · exact here result (by simpa using isFirst)
    · exact later result isLater

end

/-- Calls that run as scripts over one world. -/
structure Machine where
  World : Type
  Action : Type
  Answer : Action → Type
  Call : Type
  Reply : Type
  script : Call → Script Action Answer Reply
  performs : World → (action : Action) → Answer action → World → Prop
  admits : World → Call → Prop
  passes : World → World → Prop

abbrev Machine.Program (machine : Machine) : Type :=
  Script machine.Action machine.Answer machine.Reply

structure System (machine : Machine) where
  world : machine.World
  running : Nat → Option (machine.Call × machine.Program)

inductive Label (machine : Machine)
  | start (process : Nat) (call : machine.Call)
  | act (process : Nat) (action : machine.Action) (answer : machine.Answer action)
  | finish (process : Nat) (call : machine.Call) (reply : Option machine.Reply)
  | crash (process : Nat)
  | pass

inductive Step (machine : Machine) : System machine → Label machine → System machine → Prop
  | start {system process call} : system.running process = none → machine.admits system.world call →
      Step machine system (.start process call)
        { system with
          running := update system.running process (some (call, machine.script call)) }
  | act {system process call action next answer world} :
      system.running process = some (call, .act action next) →
      machine.performs system.world action answer world →
      Step machine system (.act process action answer)
        ⟨world, update system.running process (some (call, next answer))⟩
  | finish {system process call reply} : system.running process = some (call, .finished reply) →
      Step machine system (.finish process call (some reply))
        { system with running := update system.running process none }
  | fail {system process call} : system.running process = some (call, .failed) →
      Step machine system (.finish process call none)
        { system with running := update system.running process none }
  | crash {system process job} : system.running process = some job →
      Step machine system (.crash process)
        { system with running := update system.running process none }
  | pass {system world} : machine.passes system.world world →
      Step machine system .pass { system with world := world }

def Script.eval {World Action Result : Type} {Answer : Action → Type}
    (respond : World → (action : Action) → Answer action × World) (world : World) :
    Script Action Answer Result → Option Result × World
  | .finished result => (some result, world)
  | .failed => (none, world)
  | .act action next =>
    let response := respond world action
    eval respond response.2 (next response.1)

def Label.IsActOf (process : Nat) : Label machine → Prop
  | .act other _ _ => other = process
  | .start _ _ | .finish _ _ _ | .crash _ | .pass => False

variable {respond : machine.World → (action : machine.Action) → machine.Answer action × machine.World}
  {process : Nat} {call : machine.Call}

def Script.Meets {World Action Result : Type} {Answer : Action → Type}
    (respond : World → (action : Action) → Answer action × World) (allowed : World → Action → Prop)
    (world : World) : Script Action Answer Result → Prop
  | .finished _ | .failed => True
  | .act action next =>
    allowed world action ∧ Meets respond allowed (respond world action).2 (next (respond world action).1)

theorem Script.meets_all {World Action Result : Type} {Answer : Action → Type}
    {respond : World → (action : Action) → Answer action × World} {world : World}
    (script : Script Action Answer Result) : script.Meets respond (fun _ _ => True) world := by
  induction script generalizing world with
  | finished result => trivial
  | failed => trivial
  | act action next ih => exact ⟨trivial, ih _⟩

variable {guard : System machine → Label machine → Prop}
  {allowed : machine.World → machine.Action → Prop}

section

variable (sound : ∀ world action, machine.performs world action (respond world action).1 (respond world action).2)
include sound

theorem eval_run
    (acts : ∀ system action answer, allowed system.world action → guard system (.act process action answer))
    (ends : ∀ system reply, guard system (.finish process call reply)) (script : machine.Program)
    (system : System machine) (running : system.running process = some (call, script))
    (meets : script.Meets respond allowed system.world) :
    ∃ labels, (∀ label ∈ labels, label.IsActOf process) ∧
      Trace (fun state label next => Step machine state label next ∧ guard state label) system
        (labels ++ [.finish process call (script.eval respond system.world).1])
        ⟨(script.eval respond system.world).2, update system.running process none⟩ := by
  induction script generalizing system with
  | finished result => exact ⟨[], by simp, Trace.single ⟨Step.finish running, ends _ _⟩⟩
  | failed => exact ⟨[], by simp, Trace.single ⟨Step.fail running, ends _ _⟩⟩
  | act action next ih =>
    obtain ⟨labels, ofProcess, run⟩ := ih (respond system.world action).1
      ⟨(respond system.world action).2, update system.running process
        (some (call, next (respond system.world action).1))⟩ (by simp) meets.2
    refine ⟨.act process action (respond system.world action).1 :: labels, ?_, ?_⟩
    · intro label member
      rcases List.mem_cons.mp member with rfl | later
      · rfl
      · exact ofProcess label later
    · rw [update_idem] at run
      have first := @Trace.single _ _
        (fun state label next => Step machine state label next ∧ guard state label) _ _ _
        ⟨Step.act running (sound system.world action), acts system action _ meets.1⟩
      exact first.append run

theorem guarded_call_run (starts : ∀ system, guard system (.start process call))
    (acts : ∀ system action answer, allowed system.world action → guard system (.act process action answer))
    (ends : ∀ system reply, guard system (.finish process call reply)) (system : System machine)
    (idle : system.running process = none) (admitted : machine.admits system.world call)
    (meets : (machine.script call).Meets respond allowed system.world) :
    ∃ labels, (∀ label ∈ labels, label.IsActOf process) ∧
      Trace (fun state label next => Step machine state label next ∧ guard state label) system
        (.start process call ::
          (labels ++ [.finish process call ((machine.script call).eval respond system.world).1]))
        ⟨((machine.script call).eval respond system.world).2, system.running⟩ := by
  obtain ⟨labels, ofProcess, run⟩ := @eval_run machine respond process call guard allowed sound acts
    ends (machine.script call) ⟨system.world, update system.running process
      (some (call, machine.script call))⟩ (by simp) meets
  rw [update_idem] at run
  have restored : update system.running process none = system.running := by
    rw [← idle]
    exact Function.update_eq_self process system.running
  rw [restored] at run
  have first := @Trace.single _ _
    (fun state label next => Step machine state label next ∧ guard state label) _ _ _
    ⟨Step.start idle admitted, starts system⟩
  exact ⟨labels, ofProcess, first.append run⟩

theorem call_run (system : System machine) (idle : system.running process = none)
    (admitted : machine.admits system.world call) :
    ∃ acts, (∀ label ∈ acts, label.IsActOf process) ∧ Trace (Step machine) system
      (.start process call ::
        (acts ++ [.finish process call ((machine.script call).eval respond system.world).1]))
      ⟨((machine.script call).eval respond system.world).2, system.running⟩ := by
  obtain ⟨labels, ofProcess, run⟩ := @guarded_call_run machine respond process call
    (fun _ _ => True) (fun _ _ => True) sound (fun _ => trivial) (fun _ _ _ _ => trivial)
    (fun _ _ => trivial) system idle admitted (Script.meets_all _)
  exact ⟨labels, ofProcess, Trace.mono (fun taken => taken.1) run⟩

end

end Interleaving

end AgentClaimNetwork.Library
