import Mathlib.Data.String.Basic

/-!
The claim and dispute records of `src/claim`.  Identifiers are prefixed strings
compared as strings; an instant is its distance from the epoch.
-/

namespace AgentClaimNetwork

abbrev ClaimId := String
abbrev PolicyId := String
abbrev DisputeId := String
abbrev AgentId := String

/-- `DateTime<Utc>`, in nanoseconds since the epoch. -/
abbrev Instant := Int

/-- `truncate_to_second` of `src/time.rs`. -/
def truncateToSecond (time : Instant) : Instant := time / 1000000000 * 1000000000

inductive Confidence
  | high
  | medium
  | low
deriving DecidableEq

inductive ClaimStatus
  | active
  | stale
  | deprecated
deriving DecidableEq

inductive SourceId
  | claim (id : ClaimId)
  | policy (id : PolicyId)
deriving DecidableEq

structure Claim where
  id : ClaimId
  name : String
  statement : String
  scope : String
  holder : AgentId
  confidence : Confidence
  status : ClaimStatus
  createdAt : Instant
  updatedAt : Option Instant
  sourceClaimIds : List SourceId
  evidenceSummary : String
deriving DecidableEq

def Claim.effectiveUpdatedAt (claim : Claim) : Instant :=
  claim.updatedAt.getD claim.createdAt

inductive DisputeStatus
  | opened
  | resolved
deriving DecidableEq

structure Dispute where
  id : DisputeId
  name : String
  reporterAgentId : AgentId
  claims : List ClaimId
  summary : String
  status : DisputeStatus
  createdAt : Instant
  resolvedAt : Option Instant
deriving DecidableEq

end AgentClaimNetwork
