import Mathlib.Logic.Function.Basic

/-!
What a list holds behind a new last item, a map behind a write at one key, and a bind that
ended well.
-/

namespace AgentClaimNetwork.Library

/-- One proof for all the definitions that ask whether a text is among others. -/
instance lawful_text : LawfulBEq (List Char) := inferInstance

theorem mem_concat {Item : Type*} {items : List Item} {item last : Item}
    (member : item ∈ items ++ [last]) : item ∈ items ∨ item = last :=
  (List.mem_append.mp member).imp_right List.mem_singleton.mp

theorem update_cases {Key Value : Type*} [DecidableEq Key] {map : Key → Value} {key place : Key}
    {value found : Value} (read : Function.update map place value key = found) :
    (key = place ∧ value = found) ∨ (key ≠ place ∧ map key = found) := by
  by_cases same : key = place
  · subst same
    rw [Function.update_self] at read
    exact Or.inl ⟨rfl, read⟩
  · rw [Function.update_of_ne same] at read
    exact Or.inr ⟨same, read⟩

theorem bind_ok {Failure First Second : Type} {first : Except Failure First}
    {then_ : First → Except Failure Second} {result : Second}
    (ok : first >>= then_ = .ok result) : ∃ value, first = .ok value ∧ then_ value = .ok result := by
  cases first with
  | error => cases ok
  | ok value => exact ⟨value, rfl, ok⟩

end AgentClaimNetwork.Library
