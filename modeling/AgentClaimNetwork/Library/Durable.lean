import Mathlib.Data.List.Basic

/-!
Programs over a durable store whose writes can fail and which can stop before any write, with
triples that say what holds of the store when they end and wherever they stop.
-/

namespace AgentClaimNetwork.Library

open List

namespace Durable

inductive Fate
  | done
  | failed
deriving DecidableEq

inductive Outcome (Store Result : Type)
  | value (result : Result) (store : Store) (fates : List Fate)
  | error (store : Store) (fates : List Fate)
  | stopped (store : Store)

def Outcome.store {Store Result : Type} : Outcome Store Result → Store
  | .value _ store _ => store
  | .error store _ => store
  | .stopped store => store

def Program (Store Result : Type) : Type := Store → List Fate → Outcome Store Result

variable {Store Result Next : Type}

namespace Program

def ok (result : Result) : Program Store Result := fun store fates => .value result store fates

def andThen (program : Program Store Result) (next : Result → Program Store Next) :
    Program Store Next :=
  fun store fates =>
    match program store fates with
    | .value result store fates => next result store fates
    | .error store fates => .error store fates
    | .stopped store => .stopped store

instance : Monad (Program Store) where
  pure := ok
  bind := andThen

def look : Program Store Store := fun store fates => .value store store fates

def bail : Program Store Result := fun store fates => .error store fates

def require (condition : Bool) : Program Store Unit := if condition then ok () else bail

def write (change : Store → Store) : Program Store Unit := fun store fates =>
  match fates with
  | [] => .stopped store
  | .done :: rest => .value () (change store) rest
  | .failed :: rest => .error store rest

def attempt (program : Program Store Result) : Program Store (Option Result) := fun store fates =>
  match program store fates with
  | .value result store fates => .value (some result) store fates
  | .error store fates => .value none store fates
  | .stopped store => .stopped store

def forAll {Item : Type} (items : List Item) (program : Item → Program Store Unit) :
    Program Store Unit :=
  match items with
  | [] => ok ()
  | item :: rest => andThen (program item) fun _ => forAll rest program

end Program
variable {next : Result → Program Store Next}

section

variable {pre middle : Store → Prop} {post : Result → Store → Prop} {after : Next → Store → Prop}
  {crash : Store → Prop} {program : Program Store Result}

def Outcome.Ends (post : Result → Store → Prop) (crash : Store → Prop) : Outcome Store Result → Prop
  | .value result store _ => post result store
  | .error store _ => crash store
  | .stopped store => crash store

/-- From a store with `pre` the program ends with `post`, or fails or stops with `crash`. -/
def Triple (pre : Store → Prop) (program : Program Store Result) (post : Result → Store → Prop)
    (crash : Store → Prop) : Prop :=
  ∀ store fates, pre store → (program store fates).Ends post crash

abbrev Keeps (holds : Store → Prop) (program : Program Store Result) : Prop :=
  Triple holds program (fun _ => holds) holds

theorem Triple.weaken {stronger : Store → Prop} {weaker : Result → Store → Prop}
    (triple : Triple pre program post crash) (before : ∀ store, stronger store → pre store)
    (behind : ∀ result store, post result store → weaker result store) :
    Triple stronger program weaker crash := by
  intro store fates holds
  have ends := triple store fates (before store holds)
  cases ended : program store fates with
  | value result last rest =>
    rw [ended] at ends
    exact behind result last ends
  | error last rest | stopped last =>
    rw [ended] at ends
    exact ends

theorem Triple.relax {worse : Store → Prop} (triple : Triple pre program post crash)
    (covers : ∀ store, crash store → worse store) : Triple pre program post worse := by
  intro store fates holds
  have ends := triple store fates holds
  cases ended : program store fates with
  | value result last rest =>
    rw [ended] at ends
    exact ends
  | error last rest | stopped last =>
    rw [ended] at ends
    exact covers last ends

theorem Triple.ok {result : Result} (holds : ∀ store, pre store → post result store) :
    Triple pre (pure result) post crash :=
  fun store _ before => holds store before

theorem Triple.bind (first : Triple pre program post crash)
    (second : ∀ result, Triple (post result) (next result) after crash) :
    Triple pre (program >>= next) after crash := by
  intro store fates holds
  have ends := first store fates holds
  show (Program.andThen program next store fates).Ends after crash
  unfold Program.andThen
  cases ended : program store fates with
  | value result last rest =>
    rw [ended] at ends
    exact second result last rest ends
  | error last rest | stopped last =>
    rw [ended] at ends
    exact ends

theorem Triple.seq (first : Triple pre program (fun _ => pre) crash)
    (second : ∀ result, Triple pre (next result) after crash) :
    Triple pre (program >>= next) after crash :=
  Triple.bind first second

theorem Triple.look {next : Store → Program Store Next}
    (rest : ∀ seen, Triple (fun store => store = seen ∧ pre store) (next seen) after crash) :
    Triple pre (Program.look >>= next) after crash :=
  fun store fates holds => rest store store fates ⟨rfl, holds⟩

theorem Triple.look_any {next : Store → Program Store Next}
    (rest : ∀ seen, Triple pre (next seen) after crash) :
    Triple pre (Program.look >>= next) after crash :=
  fun store fates holds => rest store store fates holds

theorem Triple.look_known {next : Store → Program Store Next}
    (rest : Triple (fun store => store = seen) (next seen) after crash) :
    Triple (fun store => store = seen) (Program.look >>= next) after crash := by
  rintro store fates rfl
  exact rest store fates rfl

theorem Triple.known
    (each : ∀ seen, pre seen → Triple (fun store => store = seen) program post crash) :
    Triple pre program post crash :=
  fun store fates holds => each store holds store fates rfl

theorem Triple.read {view : Store → Result}
    (rest : ∀ seen, Triple (fun store => view store = seen ∧ pre store) (next seen) after crash) :
    Triple pre ((Program.look >>= fun store => pure (view store)) >>= next) after crash :=
  fun store fates holds => rest (view store) store fates ⟨rfl, holds⟩

theorem Triple.choose {Index : Sort*} {pre : Index → Store → Prop}
    (each : ∀ index, Triple (pre index) program post crash) :
    Triple (fun store => ∃ index, pre index store) program post crash :=
  fun store fates ⟨index, holds⟩ => each index store fates holds

theorem Triple.given {fact : Prop} (each : fact → Triple pre program post crash) :
    Triple (fun store => pre store ∧ fact) program post crash :=
  fun store fates ⟨holds, known⟩ => each known store fates holds

section

variable (holds : ∀ store, pre store → crash store)
include holds

theorem Triple.bail : Triple pre (Program.bail : Program Store Result) post crash :=
  fun store _ before => holds store before

theorem Triple.require {post : Unit → Store → Prop}
    (passes : condition = true → ∀ store, pre store → post () store) :
    Triple pre (Program.require condition) post crash := by
  intro store fates before
  cases condition with
  | true => exact passes rfl store before
  | false => exact holds store before

theorem Triple.guard {next : Unit → Program Store Next}
    (rest : condition = true → Triple pre (next ()) after crash) :
    Triple pre (Program.require condition >>= next) after crash := by
  intro store fates before
  cases condition with
  | true => exact rest rfl store fates before
  | false => exact holds store before

end

theorem Triple.write {change : Store → Store} {post : Unit → Store → Prop}
    (holds : ∀ store, pre store → crash store)
    (changed : ∀ store, pre store → post () (change store)) :
    Triple pre (Program.write change) post crash := by
  intro store fates before
  cases fates with
  | nil => exact holds store before
  | cons fate rest =>
    cases fate with
    | done => exact changed store before
    | failed => exact holds store before

theorem Triple.attempt {after : Option Result → Store → Prop}
    (triple : Triple pre program post crash)
    (worked : ∀ result store, post result store → after (some result) store)
    (missed : ∀ store, crash store → after none store) :
    Triple pre (Program.attempt program) after crash := by
  intro store fates holds
  have ends := triple store fates holds
  unfold Program.attempt
  cases ended : program store fates with
  | value result last rest =>
    rw [ended] at ends
    exact worked result last ends
  | error last rest =>
    rw [ended] at ends
    exact missed last ends
  | stopped last =>
    rw [ended] at ends
    exact ends

theorem Triple.forAll {Item : Type} {program : Item → Program Store Unit}
    {upTo : List Item → Store → Prop} {done items : List Item}
    (each : ∀ passed item, item ∈ items → Triple (upTo passed) (program item)
      (fun _ => upTo (passed ++ [item])) crash) :
    Triple (upTo done) (Program.forAll items program) (fun _ => upTo (done ++ items)) crash := by
  induction items generalizing done with
  | nil =>
    rw [append_nil]
    exact Triple.ok fun _ holds => holds
  | cons item rest ih =>
    have later := @ih (done ++ [item]) fun passed other member =>
      each passed other (mem_cons_of_mem _ member)
    rw [append_assoc, singleton_append] at later
    exact Triple.bind (each done item mem_cons_self) fun _ => later

theorem Triple.forAll_keeps {Item : Type} {program : Item → Program Store Unit}
    {items : List Item} (each : ∀ item ∈ items, Triple pre (program item) (fun _ => pre) crash) :
    Triple pre (Program.forAll items program) (fun _ => pre) crash :=
  @Triple.forAll Store crash Item program (fun _ => pre) [] items fun _ => each

theorem Triple.ends {keeps : Store → Prop} (triple : Triple pre program (fun _ => keeps) keeps)
    {store : Store} (fates : List Fate) (holds : pre store) : keeps (program store fates).store := by
  have ends := triple store fates holds
  cases ended : program store fates with
  | value result last rest | error last rest | stopped last =>
    rw [ended] at ends
    exact ends

end

def Completes (program : Program Store Result) (store : Store) (post : Result → Store → Prop) :
    Prop :=
  ∃ count result last, post result last ∧
    ∀ fates, program store (replicate count Fate.done ++ fates) = .value result last fates

variable {program : Program Store Result} {store : Store} {post : Result → Store → Prop}
  {after : Next → Store → Prop}

theorem Completes.ok {result : Result} (holds : post result store) :
    Completes (pure result) store post :=
  ⟨0, result, store, holds, fun _ => rfl⟩

theorem Completes.bind (first : Completes program store post)
    (second : ∀ result last, post result last → Completes (next result) last after) :
    Completes (program >>= next) store after := by
  obtain ⟨count, result, middle, holds, runs⟩ := first
  obtain ⟨more, final, last, finally_holds, goesOn⟩ := second result middle holds
  refine ⟨count + more, final, last, finally_holds, ?_⟩
  intro fates
  show Program.andThen program next store _ = _
  rw [Program.andThen, replicate_add, append_assoc, runs]
  exact goesOn fates

theorem Completes.look {next : Store → Program Store Next}
    (rest : Completes (next store) store after) : Completes (Program.look >>= next) store after :=
  rest

theorem Completes.write {change : Store → Store} {post : Unit → Store → Prop}
    (holds : post () (change store)) : Completes (Program.write change) store post :=
  ⟨1, (), change store, holds, fun _ => rfl⟩

theorem Completes.weaken {weaker : Result → Store → Prop} (completes : Completes program store post)
    (behind : ∀ result last, post result last → weaker result last) :
    Completes program store weaker := by
  obtain ⟨count, result, last, holds, runs⟩ := completes
  exact ⟨count, result, last, behind result last holds, runs⟩

theorem Completes.and_triple {pre crash : Store → Prop} {keeps : Result → Store → Prop}
    (completes : Completes program store post) (triple : Triple pre program keeps crash)
    (holds : pre store) :
    Completes program store fun result last => keeps result last ∧ post result last := by
  obtain ⟨count, result, last, reached, runs⟩ := completes
  have ends := triple store (replicate count Fate.done ++ []) holds
  rw [runs] at ends
  exact ⟨count, result, last, ⟨ends, reached⟩, runs⟩

theorem Completes.forAll {Item : Type} {program : Item → Program Store Unit}
    {upTo : List Item → Store → Prop} {done items : List Item}
    (each : ∀ passed item store, item ∈ items → upTo passed store →
      Completes (program item) store fun _ => upTo (passed ++ [item]))
    (holds : upTo done store) :
    Completes (Program.forAll items program) store fun _ => upTo (done ++ items) := by
  induction items generalizing done store with
  | nil =>
    rw [append_nil]
    exact Completes.ok holds
  | cons item rest ih =>
    refine Completes.bind (each done item store (by simp) holds) ?_
    intro _ last reached
    have later := @ih last (done ++ [item])
      (fun passed other store member => each passed other store (by simp [member])) reached
    rwa [append_assoc, singleton_append] at later

def GetsThrough (program : Program Store Result) (store : Store) : Prop :=
  Completes program store fun _ _ => True

theorem GetsThrough.completes {crash : Store → Prop} (through : GetsThrough program store)
    (triple : Triple (fun other => other = store) program post crash) :
    Completes program store post :=
  (Completes.and_triple through triple rfl).weaken fun _ _ ended => ended.1

theorem GetsThrough.ok {result : Result} : GetsThrough (pure result : Program Store Result) store :=
  Completes.ok trivial

theorem GetsThrough.look {next : Store → Program Store Next}
    (rest : GetsThrough (next store) store) : GetsThrough (Program.look >>= next) store :=
  rest

theorem GetsThrough.write {change : Store → Store} : GetsThrough (Program.write change) store :=
  Completes.write trivial

theorem GetsThrough.require (holds : condition = true) :
    GetsThrough (Program.require condition : Program Store Unit) store := by
  subst holds
  exact GetsThrough.ok

theorem GetsThrough.bind (first : GetsThrough program store)
    (second : ∀ result last, GetsThrough (next result) last) :
    GetsThrough (program >>= next) store :=
  Completes.bind first fun result last _ => second result last

theorem Completes.through (first : Completes program store post)
    (second : ∀ result last, post result last → GetsThrough (next result) last) :
    GetsThrough (program >>= next) store :=
  Completes.bind first second

theorem GetsThrough.forAll {Item : Type} {program : Item → Program Store Unit} {items : List Item}
    (each : ∀ item store, GetsThrough (program item) store) :
    GetsThrough (Program.forAll items program) store :=
  @Completes.forAll Store store Item program (fun _ _ => True) [] items
    (fun _ item last _ _ => each item last) trivial

end Durable

end AgentClaimNetwork.Library
