import AgentClaimNetwork.Library.Durable

/-!
Programs over one part of a store, run in the whole store, and programs that clean up after an
error.
-/

namespace AgentClaimNetwork.Library

namespace Durable

structure Focus (Whole Part : Type) where
  view : Whole → Part
  put : Part → Whole → Whole
  view_put : ∀ part whole, view (put part whole) = part
  put_put : ∀ part other whole, put part (put other whole) = put part whole

variable {Whole Part Result : Type}

namespace Program

def within (focus : Focus Whole Part) (program : Program Part Result) : Program Whole Result :=
  fun whole fates =>
    match program (focus.view whole) fates with
    | .value result part fates => .value result (focus.put part whole) fates
    | .error part fates => .error (focus.put part whole) fates
    | .stopped part => .stopped (focus.put part whole)

/-- Runs `cleanUp` after an error, which stays an error whatever becomes of the clean-up. -/
def orCleanUp (program : Program Whole Result) (cleanUp : Program Whole Unit) :
    Program Whole Result :=
  fun store fates =>
    match program store fates with
    | .value result store fates => .value result store fates
    | .stopped store => .stopped store
    | .error store fates =>
      match cleanUp store fates with
      | .value _ store fates => .error store fates
      | .error store fates => .error store fates
      | .stopped store => .stopped store

end Program

variable {focus : Focus Whole Part} {base : Whole} {program : Program Part Result}
  {pre crash : Part → Prop} {post : Result → Part → Prop}

def Focus.Holds (focus : Focus Whole Part) (base : Whole) (condition : Part → Prop)
    (whole : Whole) : Prop :=
  ∃ part, whole = focus.put part base ∧ condition part

theorem Triple.within (triple : Triple pre program post crash) :
    Triple (focus.Holds base pre) (Program.within focus program)
      (fun result => focus.Holds base (post result)) (focus.Holds base crash) := by
  rintro whole fates ⟨part, rfl, holds⟩
  have ends := triple part fates holds
  unfold Program.within
  rw [focus.view_put]
  cases ended : program part fates with
  | value result last rest | error last rest | stopped last =>
    rw [ended] at ends
    exact ⟨last, focus.put_put last part base, ends⟩

theorem Triple.any : Triple pre program (fun _ _ => True) (fun _ => True) := by
  intro store fates _
  cases program store fates <;> trivial

theorem Triple.orCleanUp (triple : Triple pre program post crash)
    (cleans : Keeps crash cleanUp) :
    Triple pre (Program.orCleanUp program cleanUp) post crash := by
  intro store fates holds
  have ends := triple store fates holds
  unfold Program.orCleanUp
  cases ended : program store fates with
  | value result last rest | stopped last =>
    rw [ended] at ends
    exact ends
  | error last rest =>
    rw [ended] at ends
    have after := cleans last rest ends
    dsimp only
    cases cleaned : cleanUp last rest with
    | value _ final others | error final others | stopped final =>
      rw [cleaned] at after
      exact after

end Durable

end AgentClaimNetwork.Library
