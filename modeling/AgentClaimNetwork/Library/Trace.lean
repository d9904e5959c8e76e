import Mathlib.Logic.Relation
import AgentClaimNetwork.Library.Lookup

/-!
Finite labelled runs of a transition relation and the induction rules the
protocol proofs use: what one step preserves, a whole run preserves.
-/

namespace AgentClaimNetwork.Library

inductive Trace {State Label : Type*} (step : State → Label → State → Prop) :
    State → List Label → State → Prop
  | nil (state) : Trace step state [] state
  | snoc {first labels last label next} : Trace step first labels last →
      step last label next → Trace step first (labels ++ [label]) next

namespace Trace

variable {State Label : Type*} {step : State → Label → State → Prop}

theorem single {first label next} (taken : step first label next) : Trace step first [label] next :=
  Trace.snoc (Trace.nil first) taken

theorem append {first left middle right last} (before : Trace step first left middle)
    (after : Trace step middle right last) : Trace step first (left ++ right) last := by
  induction after with
  | nil => simpa using before
  | snoc _ taken ih =>
    rw [← List.append_assoc]
    exact Trace.snoc ih taken

theorem last_step {first last labels label} (run : Trace step first (labels ++ [label]) last) :
    ∃ prior, Trace step first labels prior ∧ step prior label last := by
  generalize whole : labels ++ [label] = all at run
  cases run with
  | nil => simp at whole
  | snoc earlier taken =>
    obtain ⟨rfl, isLast⟩ := List.append_inj' whole rfl
    cases isLast
    exact ⟨_, earlier, taken⟩

theorem mono {weaker : State → Label → State → Prop}
    (implies : ∀ {state label next}, step state label next → weaker state label next)
    {first labels last} (run : Trace step first labels last) : Trace weaker first labels last := by
  induction run with
  | nil => exact Trace.nil _
  | snoc _ taken ih => exact Trace.snoc ih (implies taken)

theorem invariant {Inv : State → Prop}
    (kept : ∀ {state label next}, step state label next → Inv state → Inv next)
    {first labels last} (run : Trace step first labels last) (initial : Inv first) :
    Inv last := by
  induction run with
  | nil => exact initial
  | snoc _ taken ih => exact kept taken ih

/-- `P` held in an earlier state of the run, and only `quiet` labels follow it. -/
def Since (step : State → Label → State → Prop) (quiet : Label → Prop) (P : State → Prop)
    (first : State) (labels : List Label) (last : State) : Prop :=
  ∃ early late past, labels = early ++ late ∧ Trace step first early past ∧
    Trace step past late last ∧ (∀ label ∈ late, quiet label) ∧ P past

section

variable {quiet : Label → Prop} {P Q : State → Prop} {first last next : State}
  {labels : List Label} {label : Label}

theorem Since.now (run : Trace step first labels last) (holds : P last) :
    Since step quiet P first labels last :=
  ⟨labels, [], last, (List.append_nil labels).symm, run, Trace.nil last, by simp, holds⟩

theorem Since.extend (since : Since step quiet P first labels last)
    (taken : step last label next) (silent : quiet label) :
    Since step quiet P first (labels ++ [label]) next := by
  obtain ⟨early, late, past, split, before, after, allQuiet, holds⟩ := since
  refine ⟨early, late ++ [label], past, ?_, before, Trace.snoc after taken, ?_, holds⟩
  · rw [split, List.append_assoc]
  · intro other member
    rcases mem_concat member with earlier | rfl
    · exact allQuiet other earlier
    · exact silent

theorem Since.imp (since : Since step quiet P first labels last)
    (implies : ∀ past, P past → Q past) : Since step quiet Q first labels last := by
  obtain ⟨early, late, past, split, before, after, allQuiet, holds⟩ := since
  exact ⟨early, late, past, split, before, after, allQuiet, implies past holds⟩

end

def execute (next : State → Label → Option State) : State → List Label → Option State
  | state, [] => some state
  | state, label :: rest => (next state label).bind fun following => execute next following rest

theorem of_execute {next : State → Label → Option State} {first last : State}
    {labels : List Label} (ran : execute next first labels = some last) :
    Trace (fun state label following => next state label = some following) first labels last := by
  induction labels generalizing first with
  | nil =>
    cases ran
    exact Trace.nil _
  | cons label rest ih =>
    obtain ⟨following, taken, later⟩ := Option.bind_eq_some_iff.mp ran
    exact Trace.append (Trace.single taken) (ih later)

end Trace

end AgentClaimNetwork.Library
