import AgentClaimNetwork.Claim
import AgentClaimNetwork.Library.KeyedMap

/-!
The plan records of `src/agent/session_engine/dream_plan.rs`: operation groups as the model proposed
them, and the prepared groups with the claims they replace.
-/

namespace AgentClaimNetwork.Dream

open Library

inductive Kind
  | quality
  | evidence
  | consolidation
deriving DecidableEq

structure Coverage where
  inputId : ClaimId
  outputIds : List ClaimId
  note : String
deriving DecidableEq

structure ChangeBasis where
  claimId : ClaimId
  removedOrChanged : String
  added : String
  justification : String
  evidenceIds : List String
deriving DecidableEq

structure Update where
  id : ClaimId
  name : String
  statement : String
  scope : String
  confidence : Confidence
  status : ClaimStatus
  sourceClaimIds : List SourceId
  evidenceSummary : String
deriving DecidableEq

structure OperationGroup where
  kind : Kind
  reason : String
  evidenceIds : List String
  coverage : List Coverage
  changeBasis : List ChangeBasis
  updates : List Update
deriving DecidableEq

structure PreparedGroup where
  before : List Claim
  after : List Claim
  completed : Bool
  skipped : Bool

/-- The `&mut seen` search with its nesting bounded by `fuel`: every nested call marks a claim of the
graph that was not seen. -/
def reachesWithin (target : ClaimId) (graph : KeyedMap Claim.id) :
    Nat → ClaimId → List ClaimId → Bool × List ClaimId
  | 0, _, seen => (false, seen)
  | fuel + 1, id, seen =>
    if id = target then (true, seen)
    else if id ∈ seen then (false, seen)
    else
      match graph.get? id with
      | none => (false, id :: seen)
      | some claim =>
        claim.sourceClaimIds.foldl (fun found source =>
          if found.1 then found
          else
            match source with
            | .claim next => reachesWithin target graph fuel next found.2
            | .policy _ => found) (false, id :: seen)

def reaches (id target : ClaimId) (graph : KeyedMap Claim.id) : Bool :=
  (reachesWithin target graph (graph.values.length + 2) id []).1

end AgentClaimNetwork.Dream
