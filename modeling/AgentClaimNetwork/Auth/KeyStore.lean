import AgentClaimNetwork.Claim
import AgentClaimNetwork.Library.Hex
import AgentClaimNetwork.Library.TornLog
import Mathlib.Data.List.Pairwise

/-!
The team key ledger and its verifier, from `src/auth.rs`.
-/

namespace AgentClaimNetwork.Auth

open Library List
open TornLog (trimString)

variable {row next : AuthApiKeyConfig} {rows : List AuthApiKeyConfig}

abbrev Digest := { bytes : List UInt8 // bytes.length = 32 }

structure AuthEnvelope where
  agentId : AgentId
  acnKey : String
deriving DecidableEq

inductive AuthKeyStatus
  | active
  | revoked
deriving DecidableEq

structure AuthApiKeyConfig where
  keyId : String
  agentId : AgentId
  keyHash : String
  generatedTime : Instant
  status : AuthKeyStatus
deriving DecidableEq

structure AuthConfig where
  enabled : Bool
  apiKeys : List AuthApiKeyConfig
deriving DecidableEq

structure AuthPrincipal where
  agentId : AgentId
  keyId : String
deriving DecidableEq

inductive HashError
  | noPrefix
  | notHex
  | badLength (length : Nat)
deriving DecidableEq

inductive AuthConfigError
  | invalidKeyHash (keyId : String) (reason : HashError)
  | emptyAgentId (keyId : String)
  | duplicateActiveAgent (agentId : AgentId)

inductive TeamAuthStoreError
  | config (error : AuthConfigError)
  | activeKeyConflict (agentId : AgentId) (keyId : String)
  | keyNotFound (keyId : String)
  | invalidAgentId (agentId : String)
  | reservedAgentId (agentId : AgentId)
  | keyIdCollision

inductive AuthHttpError
  | unauthorized
  | forbidden
deriving DecidableEq

structure VerifiedAuthKey where
  keyHash : Digest
  principal : AuthPrincipal

structure AuthVerifierState where
  enabled : Bool
  keys : List VerifiedAuthKey

section

def hashPrefix : List Char := "sha256:".toList

def parseSha256Hash (raw : String) : Except HashError Digest :=
  let text := TornLog.trim raw.toList
  if hashPrefix.isPrefixOf text then
    match Hex.decode (text.drop hashPrefix.length) with
    | none => .error .notHex
    | some bytes =>
      if fits : bytes.length = 32 then .ok ⟨bytes, fits⟩ else .error (.badLength bytes.length)
  else .error .noPrefix

def verifiedKeyFromRow (item : AuthApiKeyConfig) : Except AuthConfigError (Option VerifiedAuthKey) :=
  if item.status ≠ .active then .ok none
  else if trimString item.agentId = "" then .error (.emptyAgentId item.keyId)
  else
    match parseSha256Hash item.keyHash with
    | .error reason => .error (.invalidKeyHash item.keyId reason)
    | .ok keyHash => .ok (some ⟨keyHash, ⟨item.agentId, item.keyId⟩⟩)

/-- The loop of `compile_auth_config`; `seen` are the agents with an active key so far. -/
def compileRows (seen : List AgentId) :
    List AuthApiKeyConfig → Except AuthConfigError (List VerifiedAuthKey)
  | [] => .ok []
  | item :: rest =>
    match verifiedKeyFromRow item with
    | .error error => .error error
    | .ok none => compileRows seen rest
    | .ok (some key) =>
      if key.principal.agentId ∈ seen then .error (.duplicateActiveAgent key.principal.agentId)
      else (compileRows (key.principal.agentId :: seen) rest).map (key :: ·)

def compileAuthConfig (config : AuthConfig) : Except AuthConfigError AuthVerifierState :=
  if config.enabled then (compileRows [] config.apiKeys).map fun keys => ⟨true, keys⟩
  else .ok ⟨false, []⟩

/-- What `replace_active_keys_from_store` installs of the ledger it has read. -/
def activeKeysOf (enabled : Bool) (ledger : AuthConfig) : Except AuthConfigError AuthVerifierState :=
  if enabled then compileAuthConfig { ledger with enabled := true } else .ok ⟨false, []⟩

variable (sha256 : String → Digest)

def verifyEnvelope (state : AuthVerifierState) (auth : Option AuthEnvelope) :
    Except AuthHttpError (Option AuthPrincipal) :=
  if !state.enabled then .ok none
  else
    match auth with
    | none => .error .unauthorized
    | some auth =>
      let matched := state.keys.foldl (fun matched key =>
        if key.keyHash = sha256 auth.acnKey ∧ key.principal.agentId = auth.agentId then
          some key.principal
        else matched) none
      match matched with
      | some principal => .ok (some principal)
      | none => .error .unauthorized

end

section

def routerServiceAgentId : AgentId := "router-service"

/-- `AgentId::new`. -/
def isAgentId (text : String) : Bool :=
  !text.isEmpty && text.toList.all fun character =>
    character.isLower || character.isDigit || character = '-' || character = '_'

def uniqueKeyId (rows : List AuthApiKeyConfig) (draws : List String) : Option String :=
  (draws.take 32).find? fun keyId => !rows.any fun row => row.keyId = keyId

variable (sha256 : String → Digest)

/-- `sha256:<64 hex>`. -/
def writtenHash (acnKey : String) : String :=
  String.ofList (hashPrefix ++ Hex.encode (sha256 acnKey).val)

/-- The ledger that `create_key` writes and its new row, for the ids and the key it has drawn. -/
def createKey (ledger : AuthConfig) (agentId : String) (draws : List String) (acnKey : String)
    (now : Instant) : Except TeamAuthStoreError (AuthConfig × AuthApiKeyConfig) :=
  let agentId := trimString agentId
  if !isAgentId agentId then .error (.invalidAgentId agentId)
  else if agentId = routerServiceAgentId then .error (.reservedAgentId agentId)
  else
    match ledger.apiKeys.find? fun row => row.agentId = agentId ∧ row.status = .active with
    | some active => .error (.activeKeyConflict agentId active.keyId)
    | none =>
      match uniqueKeyId ledger.apiKeys draws with
      | none => .error .keyIdCollision
      | some keyId =>
        let row : AuthApiKeyConfig := ⟨keyId, agentId, writtenHash sha256 acnKey, now, .active⟩
        let next : AuthConfig := ⟨true, ledger.apiKeys ++ [row]⟩
        match compileAuthConfig next with
        | .error error => .error (.config error)
        | .ok _ => .ok (next, row)

def revokeFirst (keyId : String) : List AuthApiKeyConfig → List AuthApiKeyConfig
  | [] => []
  | row :: rest =>
    if row.keyId = keyId then { row with status := .revoked } :: rest
    else row :: revokeFirst keyId rest

def revokeKey (ledger : AuthConfig) (keyId : String) : Except TeamAuthStoreError AuthConfig :=
  let keyId := trimString keyId
  match ledger.apiKeys.find? fun row => row.keyId = keyId with
  | none => .error (.keyNotFound keyId)
  | some row =>
    if row.agentId = routerServiceAgentId then .error (.reservedAgentId row.agentId)
    else .ok { ledger with apiKeys := revokeFirst keyId ledger.apiKeys }

end

def AuthApiKeyConfig.hasDigest (row : AuthApiKeyConfig) (digest : Digest) : Prop :=
  parseSha256Hash row.keyHash = .ok digest

instance (row : AuthApiKeyConfig) (digest : Digest) : Decidable (row.hasDigest digest) :=
  inferInstanceAs (Decidable (parseSha256Hash row.keyHash = .ok digest))

def Distinct (left right : AuthApiKeyConfig) : Prop :=
  left.keyId ≠ right.keyId ∧ (∀ digest, left.hasDigest digest → ¬right.hasDigest digest) ∧
    (left.status = .active → right.status = .active → left.agentId ≠ right.agentId)

def AuthApiKeyConfig.Readable (row : AuthApiKeyConfig) : Prop :=
  trimString row.agentId ≠ "" ∧ ∃ digest, row.hasDigest digest

structure AuthConfig.Valid (config : AuthConfig) : Prop where
  distinct : config.apiKeys.Pairwise Distinct
  readable : ∀ row ∈ config.apiKeys, row.Readable

def AuthApiKeyConfig.Becomes (row next : AuthApiKeyConfig) : Prop :=
  next.keyId = row.keyId ∧ next.agentId = row.agentId ∧ next.keyHash = row.keyHash ∧
    (row.status = .revoked → next.status = .revoked)

instance (row next : AuthApiKeyConfig) : Decidable (row.Becomes next) := by
  unfold AuthApiKeyConfig.Becomes
  infer_instance

def AuthConfig.Advances (older newer : AuthConfig) : Prop :=
  ∀ row ∈ older.apiKeys, ∃ next ∈ newer.apiKeys, row.Becomes next

instance (older newer : AuthConfig) : Decidable (older.Advances newer) := by
  unfold AuthConfig.Advances
  infer_instance

section

variable {sha256 : String → Digest} {config older newer : AuthConfig}

theorem verifiedKeyFromRow_inactive (inactive : row.status ≠ .active) :
    verifiedKeyFromRow row = .ok none := by
  rw [verifiedKeyFromRow, if_pos inactive]

theorem verifiedKeyFromRow_active (active : row.status = .active) (named : trimString row.agentId ≠ "")
    (digests : row.hasDigest digest) :
    verifiedKeyFromRow row = .ok (some ⟨digest, ⟨row.agentId, row.keyId⟩⟩) := by
  rw [AuthApiKeyConfig.hasDigest] at digests
  simp [verifiedKeyFromRow, active, named, digests]

def Compiled (rows : List AuthApiKeyConfig) (keys : List VerifiedAuthKey) : Prop :=
  ∀ key, key ∈ keys ↔ ∃ row ∈ rows, row.status = .active ∧ row.hasDigest key.keyHash ∧
    key.principal = ⟨row.agentId, row.keyId⟩

theorem compileRows_ok {seen : List AgentId} (distinct : rows.Pairwise Distinct)
    (readable : ∀ row ∈ rows, row.Readable)
    (unseen : ∀ row ∈ rows, row.status = .active → row.agentId ∉ seen) :
    ∃ keys, compileRows seen rows = .ok keys ∧ Compiled rows keys := by
  induction rows generalizing seen with
  | nil => exact ⟨[], rfl, by simp [Compiled]⟩
  | cons row rest ih =>
    obtain ⟨apart, restDistinct⟩ := pairwise_cons.mp distinct
    have restReadable : ∀ other ∈ rest, other.Readable := fun other member =>
      readable other (mem_cons_of_mem _ member)
    have restUnseen : ∀ other ∈ rest, other.status = .active → other.agentId ∉ seen :=
      fun other member => unseen other (mem_cons_of_mem _ member)
    by_cases active : row.status = .active
    · obtain ⟨named, digest, digests⟩ := readable row mem_cons_self
      have fresh := unseen row mem_cons_self active
      have laterUnseen : ∀ other ∈ rest, other.status = .active →
          other.agentId ∉ row.agentId :: seen := by
        intro other member otherActive inSeen
        rcases mem_cons.mp inSeen with same | before
        · exact (apart other member).2.2 active otherActive same.symm
        · exact restUnseen other member otherActive before
      obtain ⟨keys, compiled, known⟩ := ih restDistinct restReadable laterUnseen
      refine ⟨⟨digest, ⟨row.agentId, row.keyId⟩⟩ :: keys, ?_, fun key => ?_⟩
      · simp [compileRows, verifiedKeyFromRow_active active named digests, fresh, compiled,
          Except.map]
      · rw [mem_cons, known key]
        constructor
        · rintro (rfl | ⟨other, member, facts⟩)
          · exact ⟨row, mem_cons_self, active, digests, rfl⟩
          · exact ⟨other, mem_cons_of_mem _ member, facts⟩
        · rintro ⟨other, member, otherActive, otherDigests, principal⟩
          rcases mem_cons.mp member with rfl | inRest
          · left
            have same : digest = key.keyHash := by
              rw [AuthApiKeyConfig.hasDigest] at digests otherDigests
              exact Except.ok.inj (digests.symm.trans otherDigests)
            cases key
            simp_all
          · exact .inr ⟨other, inRest, otherActive, otherDigests, principal⟩
    · obtain ⟨keys, compiled, known⟩ := ih restDistinct restReadable restUnseen
      refine ⟨keys, ?_, fun key => ?_⟩
      · simp [compileRows, verifiedKeyFromRow_inactive active, compiled]
      · rw [known key]
        constructor
        · rintro ⟨other, member, facts⟩
          exact ⟨other, mem_cons_of_mem _ member, facts⟩
        · rintro ⟨other, member, otherActive, facts⟩
          rcases mem_cons.mp member with rfl | inRest
          · exact absurd otherActive active
          · exact ⟨other, inRest, otherActive, facts⟩

theorem activeKeysOf_ok (valid : config.Valid) :
    ∃ keys, activeKeysOf true config = .ok ⟨true, keys⟩ ∧ Compiled config.apiKeys keys := by
  obtain ⟨keys, compiled, known⟩ := @compileRows_ok config.apiKeys [] valid.distinct valid.readable
    (by simp)
  exact ⟨keys, by simp [activeKeysOf, compileAuthConfig, compiled, Except.map], known⟩

variable {keys : List VerifiedAuthKey}

theorem lastMatch_some {fits : VerifiedAuthKey → Prop}
    [DecidablePred fits]
    (found : keys.foldl (fun matched key =>
      if fits key then some key.principal else matched) start = some principal) :
    start = some principal ∨ ∃ key ∈ keys, fits key ∧ key.principal = principal := by
  induction keys generalizing start with
  | nil => exact .inl found
  | cons key rest ih =>
    rcases ih found with atStart | ⟨other, member, facts⟩
    · simp only at atStart
      split_ifs at atStart with here
      · exact .inr ⟨key, mem_cons_self, here, Option.some.inj atStart⟩
      · exact .inl atStart
    · exact .inr ⟨other, mem_cons_of_mem _ member, facts⟩

theorem lastMatch_isSome {keys : List VerifiedAuthKey} {fits : VerifiedAuthKey → Prop}
    [DecidablePred fits] {start : Option AuthPrincipal}
    (present : start.isSome = true ∨ ∃ key ∈ keys, fits key) :
    (keys.foldl (fun matched key =>
      if fits key then some key.principal else matched) start).isSome = true := by
  induction keys generalizing start with
  | nil => simpa using present
  | cons key rest ih =>
    refine ih ?_
    rcases present with before | ⟨other, member, here⟩
    · left
      by_cases matching : fits key <;> simp [matching, before]
    · rcases mem_cons.mp member with rfl | later
      · exact .inl (by simp [here])
      · exact .inr ⟨other, later, here⟩

theorem verifyEnvelope_ok (accepted : verifyEnvelope sha256 ⟨true, keys⟩ (some auth) = .ok answer) :
    ∃ key ∈ keys, key.keyHash = sha256 auth.acnKey ∧ key.principal.agentId = auth.agentId ∧
      answer = some key.principal := by
  simp only [verifyEnvelope, Bool.not_true, Bool.false_eq_true, if_false] at accepted
  split at accepted
  · next principal found =>
    cases accepted
    rcases lastMatch_some found with atStart | ⟨key, member, ⟨digests, agent⟩, same⟩
    · cases atStart
    · exact ⟨key, member, digests, agent, by rw [same]⟩
  · cases accepted

theorem verifyEnvelope_error (refused : verifyEnvelope sha256 state auth = .error error) :
    error = .unauthorized := by
  unfold verifyEnvelope at refused
  split_ifs at refused
  split at refused
  · cases refused
    rfl
  · simp only at refused
    split at refused <;> cases refused
    rfl

theorem verifyEnvelope_accepts (member : key ∈ keys) (digests : key.keyHash = sha256 auth.acnKey)
    (agent : key.principal.agentId = auth.agentId) :
    ∃ principal, verifyEnvelope sha256 ⟨true, keys⟩ (some auth) = .ok (some principal) := by
  have found := @lastMatch_isSome keys (fun key => key.keyHash = sha256 auth.acnKey ∧
    key.principal.agentId = auth.agentId) _ none (.inr ⟨key, member, digests, agent⟩)
  obtain ⟨principal, same⟩ := Option.isSome_iff_exists.mp found
  refine ⟨principal, ?_⟩
  simp [verifyEnvelope, same]

end

variable {sha256 : String → Digest} {config older newer : AuthConfig}

theorem Becomes.refl : row.Becomes row := ⟨rfl, rfl, rfl, fun revoked => revoked⟩

theorem Becomes.trans (first : row.Becomes next) (second : next.Becomes final) :
    row.Becomes final :=
  ⟨second.1.trans first.1, second.2.1.trans first.2.1, second.2.2.1.trans first.2.2.1,
    fun revoked => second.2.2.2 (first.2.2.2 revoked)⟩

theorem Advances.refl : config.Advances config := fun row member => ⟨row, member, Becomes.refl⟩

theorem Advances.trans (first : older.Advances newer) (second : newer.Advances last) :
    older.Advances last := by
  intro row member
  obtain ⟨next, inNewer, becomes⟩ := first row member
  obtain ⟨final, inLast, later⟩ := second next inNewer
  exact ⟨final, inLast, Becomes.trans becomes later⟩

theorem Becomes.hasDigest (becomes : row.Becomes next) :
    next.hasDigest digest ↔ row.hasDigest digest := by
  rw [AuthApiKeyConfig.hasDigest, AuthApiKeyConfig.hasDigest, becomes.2.2.1]

theorem Distinct.symm (distinct : Distinct left right) : Distinct right left :=
  ⟨fun same => distinct.1 same.symm,
    fun digest inRight inLeft => distinct.2.1 digest inLeft inRight,
    fun rightActive leftActive same => distinct.2.2 leftActive rightActive same.symm⟩

instance : Std.Symm Distinct where
  symm _ _ := Distinct.symm

section

variable (valid : config.Valid) (member : row ∈ config.apiKeys) (other : next ∈ config.apiKeys)
include valid member other

theorem AuthConfig.Valid.same_of_id (same : row.keyId = next.keyId) : row = next := by
  by_contra different
  exact (valid.distinct.forall member other different).1 same

theorem AuthConfig.Valid.same_of_digest (digests : row.hasDigest digest)
    (alsoDigests : next.hasDigest digest) : row = next := by
  by_contra different
  exact (valid.distinct.forall member other different).2.1 digest digests
    alsoDigests

end

theorem writtenHash_digest :
    parseSha256Hash (writtenHash sha256 acnKey) = .ok (sha256 acnKey) := by
  have text : (writtenHash sha256 acnKey).toList = hashPrefix ++ Hex.encode (sha256 acnKey).val := by
    rw [writtenHash, String.toList_ofList]
  have untrimmed : TornLog.trim (hashPrefix ++ Hex.encode (sha256 acnKey).val) =
      hashPrefix ++ Hex.encode (sha256 acnKey).val := by
    have nonempty : hashPrefix ++ Hex.encode (sha256 acnKey).val ≠ [] :=
      append_ne_nil_of_left_ne_nil (by decide) _
    obtain ⟨last, ends⟩ : ∃ last, (hashPrefix ++ Hex.encode (sha256 acnKey).val).getLast? =
        some last := ⟨_, List.getLast?_eq_some_getLast nonempty⟩
    have solid : ∀ character ∈ hashPrefix ++ Hex.encode (sha256 acnKey).val,
        LineLog.isWhitespace character = false := by
      intro character member
      rcases mem_append.mp member with inPrefix | inHex
      · have plain : (hashPrefix.all fun known => !LineLog.isWhitespace known) = true := rfl
        exact Bool.not_eq_true' _ ▸ all_eq_true.mp plain character inPrefix
      · exact Hex.encode_solid character inHex
    have head : (hashPrefix ++ Hex.encode (sha256 acnKey).val).head? = some 's' := rfl
    exact TornLog.trim_eq_self (by decide) (solid last (mem_of_getLast? ends)) head ends
  have opens : hashPrefix.isPrefixOf (hashPrefix ++ Hex.encode (sha256 acnKey).val) = true :=
    isPrefixOf_iff_prefix.mpr (prefix_append _ _)
  rw [parseSha256Hash, text, untrimmed]
  simp only [opens, if_true, drop_left, Hex.decode_encode]
  rw [dif_pos (sha256 acnKey).property]

theorem createKey_ok
    (created : createKey sha256 config agentId draws acnKey now = .ok (newer, row)) :
    newer.apiKeys = config.apiKeys ++ [row] ∧ row.status = .active ∧
      row.keyHash = writtenHash sha256 acnKey ∧
      (∀ other ∈ config.apiKeys, other.keyId ≠ row.keyId) ∧
      (∀ other ∈ config.apiKeys, other.status = .active → other.agentId ≠ row.agentId) ∧
      ∃ state, compileAuthConfig ⟨true, newer.apiKeys⟩ = .ok state := by
  unfold createKey at created
  simp only at created
  split_ifs at created with malformed reserved
  split at created
  · cases created
  · next noActive =>
    split at created
    · cases created
    · next keyId drawn =>
      split at created
      · cases created
      · next state compiled =>
        cases created
        refine ⟨rfl, rfl, rfl, ?_, ?_, state, compiled⟩
        · have unique := List.find?_some drawn
          simpa using unique
        · intro other member active agent
          have different := List.find?_eq_none.mp noActive other member
          simp [agent, active] at different

theorem compileRows_named {keys : List VerifiedAuthKey}
    (compiled : compileRows seen rows = .ok keys) :
    ∀ row ∈ rows, row.status = .active → trimString row.agentId ≠ "" := by
  induction rows generalizing seen keys with
  | nil => simp
  | cons first rest ih =>
    intro row member active
    unfold compileRows at compiled
    split at compiled
    · cases compiled
    · next inactive =>
      rcases mem_cons.mp member with rfl | inRest
      · simp only [verifiedKeyFromRow, active, ne_eq, not_true_eq_false, if_false] at inactive
        split_ifs at inactive with named
        exact named
      · exact ih compiled row inRest active
    · next key verified =>
      split_ifs at compiled with known
      rcases mem_cons.mp member with rfl | inRest
      · simp only [verifiedKeyFromRow, active, ne_eq, not_true_eq_false, if_false] at verified
        split_ifs at verified with named
        exact named
      · cases later : compileRows (key.principal.agentId :: seen) rest with
        | error error =>
          rw [later] at compiled
          cases compiled
        | ok others => exact ih later row inRest active

theorem createKey_advances
    (created : createKey sha256 config agentId draws acnKey now = .ok (newer, row)) :
    config.Advances newer := by
  intro other member
  rw [(createKey_ok created).1]
  exact ⟨other, mem_append_left _ member, Becomes.refl⟩

theorem createKey_valid
    (valid : config.Valid) (fresh : ∀ other ∈ config.apiKeys, ¬other.hasDigest (sha256 acnKey))
    (created : createKey sha256 config agentId draws acnKey now = .ok (newer, row)) :
    newer.Valid := by
  obtain ⟨rows, active, written, newId, newAgent, state, compiled⟩ := createKey_ok created
  have digests : row.hasDigest (sha256 acnKey) := by
    rw [AuthApiKeyConfig.hasDigest, written]
    exact writtenHash_digest
  have named : trimString row.agentId ≠ "" := by
    simp only [compileAuthConfig, if_true] at compiled
    cases eachRow : compileRows [] newer.apiKeys with
    | error error => simp [eachRow, Except.map] at compiled
    | ok keys =>
      exact compileRows_named eachRow row (by simp [rows]) active
  constructor
  · rw [rows, pairwise_append]
    refine ⟨valid.distinct, pairwise_singleton _ _, fun other member last isLast => ?_⟩
    rw [mem_singleton.mp isLast]
    refine ⟨newId other member, fun digest otherDigests rowDigests => ?_,
      fun otherActive _ => newAgent other member otherActive⟩
    have same : digest = sha256 acnKey := Except.ok.inj (rowDigests.symm.trans digests)
    exact fresh other member (same ▸ otherDigests)
  · intro other member
    rw [rows] at member
    rcases mem_concat member with before | rfl
    · exact valid.readable other before
    · exact ⟨named, _, digests⟩

theorem revokeFirst_split (present : ∃ row ∈ rows, row.keyId = keyId) :
    ∃ early row late, rows = early ++ row :: late ∧ row.keyId = keyId ∧
      revokeFirst keyId rows = early ++ { row with status := .revoked } :: late := by
  induction rows with
  | nil => simp at present
  | cons first rest ih =>
    by_cases here : first.keyId = keyId
    · exact ⟨[], first, rest, rfl, here, by simp [revokeFirst, here]⟩
    · obtain ⟨early, row, late, split, same, revoked⟩ := ih (by simpa [here] using present)
      refine ⟨first :: early, row, late, by simp [split], same, ?_⟩
      simp [revokeFirst, here, revoked]

theorem revokeKey_split (revoked : revokeKey config keyId = .ok newer) :
    ∃ early row late, config.apiKeys = early ++ row :: late ∧ row.keyId = trimString keyId ∧
      newer.apiKeys = early ++ { row with status := .revoked } :: late := by
  unfold revokeKey at revoked
  simp only at revoked
  split at revoked
  · cases revoked
  · next found first =>
    split_ifs at revoked
    cases revoked
    have same : found.keyId = trimString keyId := by simpa using List.find?_some first
    exact revokeFirst_split ⟨found, List.mem_of_find?_eq_some first, same⟩

theorem revoked_becomes : row.Becomes { row with status := .revoked } :=
  ⟨rfl, rfl, rfl, fun _ => rfl⟩

theorem revokeKey_advances (revoked : revokeKey config keyId = .ok newer) :
    config.Advances newer := by
  obtain ⟨early, row, late, split, -, rows⟩ := revokeKey_split revoked
  intro other member
  rw [split] at member
  rw [rows]
  rcases mem_append.mp member with before | behind
  · exact ⟨other, mem_append_left _ before, Becomes.refl⟩
  · rcases mem_cons.mp behind with rfl | later
    · exact ⟨_, mem_append_right _ mem_cons_self, revoked_becomes⟩
    · exact ⟨other, mem_append_right _ (mem_cons_of_mem _ later), Becomes.refl⟩

theorem revokeKey_revokes (revoked : revokeKey config keyId = .ok newer) :
    ∃ row ∈ newer.apiKeys, row.keyId = trimString keyId ∧ row.status = .revoked := by
  obtain ⟨early, row, late, -, same, rows⟩ := revokeKey_split revoked
  exact ⟨{ row with status := .revoked }, by simp [rows], same, rfl⟩

theorem Distinct.revoke (distinct : Distinct left right) :
    Distinct { left with status := .revoked } right :=
  ⟨distinct.1, distinct.2.1, fun active _ => nomatch active⟩

theorem revokeKey_valid (valid : config.Valid)
    (revoked : revokeKey config keyId = .ok newer) : newer.Valid := by
  obtain ⟨early, row, late, split, -, rows⟩ := revokeKey_split revoked
  have distinct := valid.distinct
  rw [split, pairwise_append, pairwise_cons] at distinct
  obtain ⟨before, ⟨toLate, after⟩, across⟩ := distinct
  constructor
  · rw [rows, pairwise_append, pairwise_cons]
    refine ⟨before, ⟨fun other member => (toLate other member).revoke, after⟩, ?_⟩
    intro other inEarly following inRest
    rcases mem_cons.mp inRest with rfl | inLate
    · exact (across other inEarly row mem_cons_self).symm.revoke.symm
    · exact across other inEarly following (mem_cons_of_mem _ inLate)
  · intro other member
    rw [rows] at member
    have readable := valid.readable
    rw [split] at readable
    rcases mem_append.mp member with inEarly | inRest
    · exact readable other (mem_append_left _ inEarly)
    · rcases mem_cons.mp inRest with rfl | inLate
      · exact readable row (by simp)
      · exact readable other (by simp [inLate])

end AgentClaimNetwork.Auth
