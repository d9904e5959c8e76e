import AgentClaimNetwork.Library.Durable

/-!
Durable programs that name the failure they end with.  A failed or missing write is still the
business of the durable layer; a failure is what the program itself decides.
-/

namespace AgentClaimNetwork.Library

open List

variable {Store Failure Result Next Item : Type}

namespace Durable

def Checked (Store Failure Result : Type) : Type := Program Store (Except Failure Result)

namespace Checked

def ok (result : Result) : Checked Store Failure Result := Program.ok (.ok result)

def fail (failure : Failure) : Checked Store Failure Result := Program.ok (.error failure)

def andThen (program : Checked Store Failure Result)
    (next : Result → Checked Store Failure Next) : Checked Store Failure Next :=
  Program.andThen program fun
    | .ok result => next result
    | .error failure => fail failure

instance : Monad (Checked Store Failure) where
  pure := ok
  bind := andThen

def plain (program : Program Store Result) : Checked Store Failure Result :=
  Program.andThen program fun result => Program.ok (.ok result)

def look : Checked Store Failure Store := fun store fates => .value (.ok store) store fates

def write (change : Store → Store) : Checked Store Failure Unit := plain (Program.write change)

def note (change : Store → Store) : Checked Store Failure Unit := fun store fates =>
  .value (.ok ()) (change store) fates

def ensure (condition : Bool) (failure : Failure) : Checked Store Failure Unit :=
  if condition then ok () else fail failure

def orFail (failure : Failure) : Option Result → Checked Store Failure Result
  | some result => ok result
  | none => fail failure

def ofExcept : Except Failure Result → Checked Store Failure Result
  | .ok result => ok result
  | .error failure => fail failure

def forAll (items : List Item) (program : Item → Checked Store Failure Unit) :
    Checked Store Failure Unit :=
  match items with
  | [] => ok ()
  | item :: rest => andThen (program item) fun _ => forAll rest program

def fold (items : List Item) (program : Result → Item → Checked Store Failure Result)
    (start : Result) : Checked Store Failure Result :=
  match items with
  | [] => ok start
  | item :: rest => andThen (program start item) (fold rest program)

end Checked

theorem forAll_eq_fold {items : List Item} {program : Item → Checked Store Failure Unit} :
    Checked.forAll items program = Checked.fold items (fun _ => program) () := by
  induction items with
  | nil => rfl
  | cons item rest ih => rw [Checked.forAll, Checked.fold, ih]

variable {failure : Failure}

variable {next : Result → Checked Store Failure Next}

section

variable {pre : Store → Prop} {post : Result → Store → Prop} {after : Next → Store → Prop}
  {fails : Failure → Store → Prop} {crash : Store → Prop} {program : Checked Store Failure Result}

def Answers (post : Result → Store → Prop) (fails : Failure → Store → Prop) :
    Except Failure Result → Store → Prop
  | .ok result, store => post result store
  | .error failure, store => fails failure store

/-- From a store with `pre` the program ends with `post`, decides on a failure with `fails`, or is
cut off with `crash`. -/
def Meets (pre : Store → Prop) (program : Checked Store Failure Result)
    (post : Result → Store → Prop) (fails : Failure → Store → Prop) (crash : Store → Prop) : Prop :=
  Triple pre program (Answers post fails) crash

theorem Meets.ok {result : Result} (holds : ∀ store, pre store → post result store) :
    Meets pre (pure result : Checked Store Failure Result) post fails crash :=
  fun store _ before => holds store before

theorem Meets.fail {failure : Failure} (holds : ∀ store, pre store → fails failure store) :
    Meets pre (Checked.fail failure : Checked Store Failure Result) post fails crash :=
  fun store _ before => holds store before

theorem Meets.bind (first : Meets pre program post fails crash)
    (second : ∀ result, Meets (post result) (next result) after fails crash) :
    Meets pre (program >>= next) after fails crash := by
  refine Triple.bind first fun answer => ?_
  cases answer with
  | ok result => exact second result
  | error failure => exact fun store _ holds => holds

theorem Meets.chain
    (first : Meets pre program (fun result store => result = known ∧ store = middle) fails crash)
    (second : Meets (fun store => store = middle) (next known) after fails crash) :
    Meets pre (program >>= next) after fails crash := by
  refine Meets.bind first fun result => ?_
  rintro store fates ⟨rfl, rfl⟩
  exact second store fates rfl

theorem Meets.weaken {stronger : Store → Prop} {weaker : Result → Store → Prop}
    (meets : Meets pre program post fails crash) (before : ∀ store, stronger store → pre store)
    (behind : ∀ result store, post result store → weaker result store) :
    Meets stronger program weaker fails crash := by
  refine Triple.weaken meets before fun answer store holds => ?_
  cases answer with
  | ok result => exact behind result store holds
  | error failure => exact holds

theorem Meets.relax {worse : Failure → Store → Prop} {lost : Store → Prop}
    (meets : Meets pre program post fails crash)
    (covers : ∀ failure store, fails failure store → worse failure store)
    (covered : ∀ store, crash store → lost store) : Meets pre program post worse lost := by
  refine Triple.relax (Triple.weaken meets (fun _ holds => holds) fun answer store holds => ?_) covered
  cases answer with
  | ok result => exact holds
  | error failure => exact covers failure store holds

theorem Meets.pin
    (each : ∀ seen, pre seen → Meets (fun store => store = seen) program post fails crash) :
    Meets pre program post fails crash :=
  fun store fates holds => each store holds store fates rfl

theorem Meets.look {next : Store → Checked Store Failure Next}
    (rest : ∀ seen, Meets (fun store => store = seen ∧ pre store) (next seen) after fails crash) :
    Meets pre (Checked.look >>= next) after fails crash :=
  fun store fates holds => rest store store fates ⟨rfl, holds⟩

theorem Meets.given {fact : Prop} (each : fact → Meets pre program post fails crash) :
    Meets (fun store => pre store ∧ fact) program post fails crash :=
  Triple.given each

theorem Meets.write {change : Store → Store} {post : Unit → Store → Prop}
    (holds : ∀ store, pre store → crash store)
    (changed : ∀ store, pre store → post () (change store)) :
    Meets pre (Checked.write change) post fails crash :=
  Triple.bind (Triple.write holds changed) fun _ _ _ behind => behind

theorem Meets.note {post : Unit → Store → Prop}
    (changed : ∀ store, pre store → post () (change store)) :
    Meets pre (Checked.note change) post fails crash :=
  fun store _ before => changed store before

theorem Meets.ensure {next : Unit → Checked Store Failure Next}
    (holds : condition = false → ∀ store, pre store → fails failure store)
    (rest : condition = true → Meets pre (next ()) after fails crash) :
    Meets pre (Checked.ensure condition failure >>= next) after fails crash := by
  cases condition with
  | true => exact fun store fates before => rest rfl store fates before
  | false => exact fun store _ before => holds rfl store before

theorem Meets.orFail (missing : found = none → ∀ store, pre store → fails failure store)
    (there : ∀ result, found = some result → ∀ store, pre store → post result store) :
    Meets pre (Checked.orFail failure found) post fails crash := by
  cases found with
  | none => exact fun store _ before => missing rfl store before
  | some result => exact fun store _ before => there result rfl store before

theorem Meets.ofExcept
    (wrong : ∀ failure, answer = .error failure → ∀ store, pre store → fails failure store)
    (right : ∀ result, answer = .ok result → ∀ store, pre store → post result store) :
    Meets pre (Checked.ofExcept answer) post fails crash := by
  cases answer with
  | error failure => exact fun store _ before => wrong failure rfl store before
  | ok result => exact fun store _ before => right result rfl store before

theorem Meets.fold {program : Result → Item → Checked Store Failure Result}
    {upTo : List Item → Result → Store → Prop} {done items : List Item} {start : Result}
    (each : ∀ passed item left value, items = passed ++ item :: left →
      Meets (upTo (done ++ passed) value) (program value item)
        (upTo (done ++ passed ++ [item])) fails crash) :
    Meets (upTo done start) (Checked.fold items program start) (upTo (done ++ items)) fails crash := by
  induction items generalizing done start with
  | nil =>
    rw [append_nil]
    exact Meets.ok fun _ holds => holds
  | cons item rest ih =>
    have first := each [] item rest start rfl
    rw [append_nil] at first
    refine Meets.bind first fun value => ?_
    have later := @ih (done ++ [item]) value fun passed other left value split => by
      have turn := each (item :: passed) other left value (by rw [split]; rfl)
      rwa [append_cons] at turn
    rwa [append_assoc, singleton_append] at later

theorem Meets.forAll {program : Item → Checked Store Failure Unit}
    {upTo : List Item → Store → Prop} {done items : List Item}
    (each : ∀ passed item left, items = passed ++ item :: left →
      Meets (upTo (done ++ passed)) (program item) (fun _ => upTo (done ++ passed ++ [item])) fails
        crash) :
    Meets (upTo done) (Checked.forAll items program) (fun _ => upTo (done ++ items)) fails crash := by
  rw [forAll_eq_fold]
  exact @Meets.fold _ _ _ _ fails crash _ (fun passed _ => upTo passed) _ _ _
    fun passed item left _ => each passed item left

end

variable {program : Checked Store Failure Result}

def Checked.Finishes (program : Checked Store Failure Result) : Prop :=
  ∀ store, Completes program store fun _ _ => True

theorem Finishes.ok {result : Result} :
    Checked.Finishes (pure result : Checked Store Failure Result) :=
  fun store => ⟨0, .ok result, store, trivial, fun _ => rfl⟩

theorem Finishes.fail {failure : Failure} :
    Checked.Finishes (Checked.fail failure : Checked Store Failure Result) :=
  fun store => ⟨0, .error failure, store, trivial, fun _ => rfl⟩

theorem Finishes.bind (first : program.Finishes) (second : ∀ result, (next result).Finishes) :
    Checked.Finishes (program >>= next) := by
  intro store
  refine Completes.bind (first store) fun answer last _ => ?_
  cases answer with
  | ok result => exact second result last
  | error failure => exact Finishes.fail last

theorem Finishes.look {next : Store → Checked Store Failure Next}
    (rest : ∀ seen, (next seen).Finishes) : Checked.Finishes (Checked.look >>= next) :=
  fun store => rest store store

theorem Finishes.write {change : Store → Store} :
    Checked.Finishes (Checked.write change : Checked Store Failure Unit) :=
  fun store => ⟨1, .ok (), change store, trivial, fun _ => rfl⟩

theorem Finishes.ensure :
    Checked.Finishes (Checked.ensure condition failure : Checked Store Failure Unit) := by
  cases condition with
  | true => exact Finishes.ok
  | false => exact Finishes.fail

theorem Finishes.fold {items : List Item} {program : Result → Item → Checked Store Failure Result}
    {start : Result} (each : ∀ value item, (program value item).Finishes) :
    (Checked.fold items program start).Finishes := by
  induction items generalizing start with
  | nil => exact Finishes.ok
  | cons item rest ih => exact Finishes.bind (each start item) fun _ => ih

theorem Finishes.forAll {items : List Item} {program : Item → Checked Store Failure Unit}
    (each : ∀ item, (program item).Finishes) : (Checked.forAll items program).Finishes := by
  rw [forAll_eq_fold]
  exact Finishes.fold fun _ => each

theorem Finishes.completes {pre : Store → Prop} {post : Result → Store → Prop}
    {crash : Store → Prop} (finishes : program.Finishes)
    (meets : Meets pre program post (fun _ _ => False) crash) (holds : pre store) :
    ∃ count result last, post result last ∧ ∀ fates,
      program store (replicate count Fate.done ++ fates) = .value (.ok result) last fates := by
  obtain ⟨count, answer, last, -, runs⟩ := finishes store
  have ends := meets store (replicate count Fate.done ++ []) holds
  rw [runs] at ends
  cases answer with
  | ok result => exact ⟨count, result, last, ends, runs⟩
  | error failure => exact ends.elim

end Durable

end AgentClaimNetwork.Library
