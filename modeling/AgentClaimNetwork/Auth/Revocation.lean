import AgentClaimNetwork.Auth.KeyStore
import AgentClaimNetwork.Library.Trace

/-!
The key handlers of `src/maintainer/server/api.rs` and the requests of the Maintainer and of
`src/router/server.rs`, over one ledger file and the verifier of each server.
-/

namespace AgentClaimNetwork.Auth

open Library List
open TornLog (trimString)
open Function (update)
open Advances (refl trans)

variable {system following : System} {envelope : AuthEnvelope}

section

inductive Server
  | maintainer
  | router
deriving DecidableEq

inductive Duty
  | create (row : AuthApiKeyConfig)
  | revoke (keyId : String)
  | request (server : Server) (envelope : AuthEnvelope)
deriving DecidableEq

inductive Stage
  | begun
  | loaded (ledger : AuthConfig)
  | refreshed
  | failed
  | answered (answer : Except AuthHttpError (Option AuthPrincipal))
deriving DecidableEq

def Duty.server : Duty → Server
  | .request server _ => server
  | _ => .maintainer

/-- `installed` are the ledgers that the verifiers' keys come from; `undisclosed` are the hashes of new
keys that no answer has given out yet. -/
structure System where
  ledger : AuthConfig
  verifier : Server → AuthVerifierState
  installed : Server → AuthConfig
  undisclosed : List String
  tasks : Nat → Option (Duty × Stage)

inductive Label
  | create (task : Nat) (agentId : String) (draws : List String) (acnKey : String) (now : Instant)
  | revoke (task : Nat) (keyId : String)
  | arrive (task : Nat) (server : Server) (envelope : AuthEnvelope)
  | load (task : Nat)
  | swap (task : Nat)
  | verify (task : Nat)

def System.put (system : System) (task : Nat) (duty : Duty) (stage : Stage) : System :=
  { system with tasks := update system.tasks task (some (duty, stage)) }

def System.write (system : System) (ledger : AuthConfig) : System := { system with ledger := ledger }

variable (sha256 : String → Digest)

/-- `generate_acn_key` draws 32 random bytes: a key that no row has, and that nobody can present before
it is given out. -/
def System.create (system : System) (task : Nat) (agentId : String) (draws : List String)
    (acnKey : String) (now : Instant) : Option System :=
  if (system.tasks task).isSome ∨ ∃ row ∈ system.ledger.apiKeys, row.hasDigest (sha256 acnKey) then none
  else
    match createKey sha256 system.ledger agentId draws acnKey now with
    | .error _ => some system
    | .ok (ledger, row) => some
        { (system.write ledger).put task (.create row) .begun with
          undisclosed := row.keyHash :: system.undisclosed }

def System.revoke (system : System) (task : Nat) (keyId : String) : Option System :=
  if (system.tasks task).isSome then none
  else
    match revokeKey system.ledger keyId with
    | .error _ => some system
    | .ok ledger => some ((system.write ledger).put task (.revoke (trimString keyId)) .begun)

section

variable (system : System)

def System.arrive (task : Nat) (server : Server) (envelope : AuthEnvelope) : Option System :=
  if (system.tasks task).isSome ∨ ∃ keyHash ∈ system.undisclosed,
      parseSha256Hash keyHash = .ok (sha256 envelope.acnKey) then none
  else some (system.put task (.request server envelope) .begun)

def System.refreshes : Duty → Bool
  | .request .maintainer _ => false
  | .request .router _ => (system.verifier .router).enabled
  | _ => true

def System.load (task : Nat) : Option System :=
  match system.tasks task with
  | some (duty, .begun) =>
    if system.refreshes duty then some (system.put task duty (.loaded system.ledger)) else none
  | _ => none

def Duty.disclose (undisclosed : List String) : Duty → List String
  | .create row => undisclosed.filter fun keyHash => keyHash ≠ row.keyHash
  | _ => undisclosed

def System.swap (task : Nat) : Option System :=
  match system.tasks task with
  | some (duty, .loaded ledger) =>
    match activeKeysOf true ledger with
    | .error _ => some (system.put task duty .failed)
    | .ok state => some
        { system.put task duty .refreshed with
          verifier := update system.verifier duty.server state
          installed := update system.installed duty.server ledger
          undisclosed := duty.disclose system.undisclosed }
  | _ => none

def System.verify (task : Nat) : Option System :=
  match system.tasks task with
  | some (.request server envelope, stage) =>
    if (stage = .begun ∧ system.refreshes (.request server envelope) = false) ∨
        stage = .refreshed then
      some (system.put task (.request server envelope)
        (.answered (verifyEnvelope sha256 (system.verifier server) (some envelope))))
    else none
  | _ => none

def System.next : Label → Option System
  | .create task agentId draws acnKey now => system.create sha256 task agentId draws acnKey now
  | .revoke task keyId => system.revoke task keyId
  | .arrive task server envelope => system.arrive sha256 task server envelope
  | .load task => system.load task
  | .swap task => system.swap task
  | .verify task => system.verify sha256 task

def System.start (ledger : AuthConfig) (state : AuthVerifierState) : System where
  ledger := ledger
  verifier := fun _ => state
  installed := fun _ => ledger
  undisclosed := []
  tasks := fun _ => none

def System.Fresh : Label → Prop
  | .swap task =>
    match system.tasks task with
    | some (duty, .loaded ledger) => (system.installed duty.server).Advances ledger
    | _ => True
  | _ => True

end

instance (system : System) (label : Label) : Decidable (system.Fresh label) := by
  unfold System.Fresh
  split
  · split <;> infer_instance
  · infer_instance

def System.Step (system : System) (label : Label) (following : System) : Prop :=
  system.next sha256 label = some following

def System.FreshStep (system : System) (label : Label) (following : System) : Prop :=
  system.Step sha256 label following ∧ system.Fresh label

end
variable {ledger : AuthConfig}

section

variable {sha256 : String → Digest} {label : Label}
variable {task : Nat} {duty : Duty} {stage : Stage}

@[simp] theorem put_ledger : (system.put task duty stage).ledger = system.ledger := rfl

def Duty.HeldIn (ledger : AuthConfig) : Duty → Prop
  | .create row => ∃ next ∈ ledger.apiKeys, row.Becomes next
  | .revoke keyId => ∃ row ∈ ledger.apiKeys, row.keyId = keyId ∧ row.status = .revoked
  | .request _ _ => True

def System.Placed (system : System) (duty : Duty) : Stage → Prop
  | .begun => duty.HeldIn system.ledger
  | .loaded ledger => ledger.Valid ∧ ledger.Advances system.ledger ∧ duty.HeldIn ledger
  | .refreshed => duty.HeldIn (system.installed duty.server)
  | _ => True

structure System.Sound (system : System) : Prop where
  valid : system.ledger.Valid
  installedValid : ∀ server, (system.installed server).Valid
  installed : ∀ server, (system.installed server).Advances system.ledger
  verifier : ∀ server, activeKeysOf true (system.installed server) = .ok (system.verifier server)
  placed : ∀ task duty stage, system.tasks task = some (duty, stage) → system.Placed duty stage
  disclosed : ∀ row ∈ system.ledger.apiKeys, row.keyHash ∈ system.undisclosed ∨
    ∃ known ∈ (system.installed .maintainer).apiKeys, known.Becomes row

structure System.Grows (system following : System) : Prop where
  ledger : system.ledger.Advances following.ledger
  installed : ∀ server, (system.installed server).Advances (following.installed server)

theorem HeldIn.mono (held : duty.HeldIn older) (advances : older.Advances newer) :
    duty.HeldIn newer := by
  cases duty with
  | create row =>
    obtain ⟨next, member, becomes⟩ := held
    obtain ⟨final, inNewer, later⟩ := advances next member
    exact ⟨final, inNewer, Becomes.trans becomes later⟩
  | revoke keyId =>
    obtain ⟨row, member, same, revoked⟩ := held
    obtain ⟨final, inNewer, later⟩ := advances row member
    exact ⟨final, inNewer, later.1.trans same, later.2.2.2 revoked⟩
  | request server envelope => trivial

theorem Placed.mono (placed : system.Placed duty stage)
    (grows : system.Grows following) : following.Placed duty stage := by
  cases stage with
  | begun => exact HeldIn.mono placed grows.ledger
  | loaded ledger => exact ⟨placed.1, trans placed.2.1 grows.ledger, placed.2.2⟩
  | refreshed => exact HeldIn.mono placed (grows.installed _)
  | failed => trivial
  | answered answer => trivial

theorem placed_step (sound : system.Sound) (grows : system.Grows following)
    (tasks : following.tasks = update system.tasks task (some (duty, stage)))
    (here : following.Placed duty stage) :
    ∀ other otherDuty otherStage, following.tasks other = some (otherDuty, otherStage) →
      following.Placed otherDuty otherStage := by
  intro other otherDuty otherStage found
  rw [tasks, Function.update_apply] at found
  split_ifs at found with same
  · cases found
    exact here
  · exact Placed.mono (sound.placed other otherDuty otherStage found) grows

theorem known_later {older newer last : AuthConfig} (valid : last.Valid)
    (first : older.Advances newer) (second : newer.Advances last) (member : known ∈ older.apiKeys)
    (inLast : row ∈ last.apiKeys) (becomes : known.Becomes row) :
    ∃ next ∈ newer.apiKeys, next.Becomes row := by
  obtain ⟨next, inNewer, toNext⟩ := first known member
  obtain ⟨final, isLast, toFinal⟩ := second next inNewer
  have sameId : final.keyId = row.keyId := by rw [toFinal.1, toNext.1, becomes.1]
  rw [valid.same_of_id isLast inLast sameId] at toFinal
  exact ⟨next, inNewer, toFinal⟩

theorem AuthConfig.Valid.same_of_hash {config : AuthConfig} {row next : AuthApiKeyConfig}
    (valid : config.Valid) (member : row ∈ config.apiKeys) (other : next ∈ config.apiKeys)
    (same : row.keyHash = next.keyHash) : row = next := by
  obtain ⟨-, digest, digests⟩ := valid.readable row member
  refine valid.same_of_digest member other digests ?_
  rw [AuthApiKeyConfig.hasDigest, ← same]
  exact digests

section

variable (sound : system.Sound)
include sound

theorem create_sound (taken : system.create sha256 task agentId draws acnKey now = some following) :
    following.Sound ∧ system.Grows following := by
  unfold System.create at taken
  split_ifs at taken with busy
  split at taken
  · cases taken
    exact ⟨sound, ⟨refl, fun _ => refl⟩⟩
  · next ledger row created =>
    cases taken
    have fresh : ∀ other ∈ system.ledger.apiKeys, ¬other.hasDigest (sha256 acnKey) :=
      fun other member digests => busy (.inr ⟨other, member, digests⟩)
    have advances : system.ledger.Advances ledger := createKey_advances created
    have grows : system.Grows { (system.write ledger).put task (.create row) .begun with
        undisclosed := row.keyHash :: system.undisclosed } := ⟨advances, fun _ => refl⟩
    have rows := (createKey_ok created).1
    refine ⟨⟨createKey_valid sound.valid fresh created, sound.installedValid,
      fun server => trans (sound.installed server) advances, sound.verifier,
      placed_step sound grows rfl ?_, fun other member => ?_⟩, grows⟩
    · exact ⟨row, by simp [System.put, System.write, rows], Becomes.refl⟩
    · change other ∈ ledger.apiKeys at member
      rw [rows] at member
      rcases mem_concat member with before | isNew
      · exact (sound.disclosed other before).imp (mem_cons_of_mem _) fun known => known
      · left
        rw [isNew]
        exact mem_cons_self

theorem revoke_sound (taken : system.revoke task keyId = some following) :
    following.Sound ∧ system.Grows following := by
  unfold System.revoke at taken
  split_ifs at taken with busy
  split at taken
  · cases taken
    exact ⟨sound, ⟨refl, fun _ => refl⟩⟩
  · next ledger revoked =>
    cases taken
    have advances : system.ledger.Advances ledger := revokeKey_advances revoked
    have grows : system.Grows ((system.write ledger).put task (.revoke (trimString keyId)) .begun) :=
      ⟨advances, fun _ => refl⟩
    refine ⟨⟨revokeKey_valid sound.valid revoked, sound.installedValid,
      fun server => trans (sound.installed server) advances, sound.verifier,
      placed_step sound grows rfl (revokeKey_revokes revoked), fun other member => ?_⟩, grows⟩
    -- The changed row stands where the row it came from stood.
    obtain ⟨early, row, late, split, -, rows⟩ := revokeKey_split revoked
    change other ∈ ledger.apiKeys at member
    rw [rows] at member
    have before : ∃ prior ∈ system.ledger.apiKeys, prior.keyHash = other.keyHash ∧
        prior.Becomes other := by
      rw [split]
      rcases mem_append.mp member with inEarly | inRest
      · exact ⟨other, mem_append_left _ inEarly, rfl, Becomes.refl⟩
      · rcases mem_cons.mp inRest with rfl | inLate
        · exact ⟨row, by simp, rfl, revoked_becomes⟩
        · exact ⟨other, by simp [inLate], rfl, Becomes.refl⟩
    obtain ⟨prior, inPrior, sameHash, becomes⟩ := before
    rw [← sameHash]
    refine (sound.disclosed prior inPrior).imp_right fun ⟨known, inInstalled, toPrior⟩ => ?_
    exact ⟨known, inInstalled, Becomes.trans toPrior becomes⟩

theorem put_sound (here : (system.put task duty stage).Placed duty stage) :
    (system.put task duty stage).Sound ∧ system.Grows (system.put task duty stage) := by
  have grows : system.Grows (system.put task duty stage) :=
    ⟨refl, fun _ => refl⟩
  exact ⟨⟨sound.valid, sound.installedValid, sound.installed, sound.verifier,
    placed_step sound grows rfl here, sound.disclosed⟩, grows⟩

theorem arrive_sound {server : Server} {envelope : AuthEnvelope}
    (taken : system.arrive sha256 task server envelope = some following) :
    following.Sound ∧ system.Grows following := by
  unfold System.arrive at taken
  split_ifs at taken
  cases taken
  exact put_sound sound trivial

theorem load_sound (taken : system.load task = some following) :
    following.Sound ∧ system.Grows following := by
  unfold System.load at taken
  split at taken
  · next duty begun =>
    split_ifs at taken
    cases taken
    exact put_sound sound ⟨sound.valid, refl, sound.placed task duty .begun begun⟩
  · cases taken

theorem disclosed_swap {row : AuthApiKeyConfig} (advances : ledger.Advances system.ledger)
    (held : duty.HeldIn ledger) (forward : (system.installed .maintainer).Advances ledger)
    (member : row ∈ system.ledger.apiKeys) :
    row.keyHash ∈ duty.disclose system.undisclosed ∨ ∃ known ∈ ledger.apiKeys, known.Becomes row := by
  rcases sound.disclosed row member with hidden | ⟨known, inInstalled, becomes⟩
  · cases duty with
    | create created =>
      by_cases same : row.keyHash = created.keyHash
      · obtain ⟨next, inLedger, toNext⟩ := held
        obtain ⟨final, inLast, toFinal⟩ := advances next inLedger
        have sameHash : final.keyHash = row.keyHash := by
          rw [toFinal.2.2.1, toNext.2.2.1, same]
        rw [sound.valid.same_of_hash inLast member sameHash] at toFinal
        exact .inr ⟨next, inLedger, toFinal⟩
      · exact .inl (mem_filter.mpr ⟨hidden, by simpa using same⟩)
    | revoke keyId | request server envelope => exact .inl hidden
  · exact .inr (known_later sound.valid forward advances inInstalled member becomes)

theorem swap_sound (fresh : system.Fresh (.swap task))
    (taken : system.swap task = some following) : following.Sound ∧ system.Grows following := by
  unfold System.swap at taken
  split at taken
  · next duty ledger loaded =>
    obtain ⟨valid, advances, held⟩ := sound.placed task duty (.loaded ledger) loaded
    have forward : (system.installed duty.server).Advances ledger := by
      simpa only [System.Fresh, loaded] using fresh
    obtain ⟨keys, compiled, -⟩ := activeKeysOf_ok valid
    rw [compiled] at taken
    cases taken
    have grows : system.Grows { system.put task duty .refreshed with
        verifier := update system.verifier duty.server ⟨true, keys⟩
        installed := update system.installed duty.server ledger
        undisclosed := duty.disclose system.undisclosed } := by
      refine ⟨refl, fun server => ?_⟩
      by_cases same : server = duty.server
      · rw [same]
        simpa using forward
      · simpa [same] using refl
    refine ⟨⟨sound.valid, fun server => ?_, fun server => ?_, fun server => ?_,
      placed_step sound grows rfl ?_, fun row member => ?_⟩, grows⟩
    · by_cases same : server = duty.server
      · rw [same]
        simpa using valid
      · simpa [same] using sound.installedValid server
    · by_cases same : server = duty.server
      · rw [same]
        simpa using advances
      · simpa [same] using sound.installed server
    · by_cases same : server = duty.server
      · rw [same]
        simpa using compiled
      · simpa [same] using sound.verifier server
    · simpa [System.Placed] using held
    · by_cases here : duty.server = .maintainer
      · rw [here] at forward
        simpa [here] using disclosed_swap sound advances held forward member
      · have isRequest : duty.disclose system.undisclosed = system.undisclosed := by
          cases duty with
          | create row | revoke keyId => exact absurd rfl here
          | request server envelope => rfl
        simpa [isRequest, Ne.symm here] using sound.disclosed row member
  · cases taken

theorem verify_sound (taken : system.verify sha256 task = some following) :
    following.Sound ∧ system.Grows following := by
  unfold System.verify at taken
  split at taken
  · split_ifs at taken
    cases taken
    exact put_sound sound trivial
  · cases taken

theorem step_sound (taken : system.FreshStep sha256 label following) :
    following.Sound ∧ system.Grows following := by
  obtain ⟨taken, fresh⟩ := taken
  cases label with
  | create task agentId draws acnKey now => exact create_sound sound taken
  | revoke task keyId => exact revoke_sound sound taken
  | arrive task server envelope => exact arrive_sound sound taken
  | load task => exact load_sound sound taken
  | swap task => exact swap_sound sound fresh taken
  | verify task => exact verify_sound sound taken

end

theorem start_sound (valid : ledger.Valid) (loaded : activeKeysOf true ledger = .ok state) :
    (System.start ledger state).Sound where
  valid := valid
  installedValid := fun _ => valid
  installed := fun _ => refl
  verifier := fun _ => loaded
  placed := fun _ _ _ found => nomatch found
  disclosed := fun row member => .inr ⟨row, member, Becomes.refl⟩

end

section

variable {sha256 : String → Digest} {label : Label} {task : Nat} {server : Server}
  {floor : AuthConfig}

def System.dueFrom (system : System) : Server → AuthConfig
  | .maintainer => system.installed .maintainer
  | .router => system.ledger

/-- A request is answered from a ledger that is not older than `floor`. -/
def System.AnswersFrom (system : System) (sha256 : String → Digest) (floor : AuthConfig)
    (server : Server) (envelope : AuthEnvelope) : Stage → Prop
  | .begun => floor.Advances (system.dueFrom server)
  | .loaded ledger => floor.Advances ledger
  | .refreshed => floor.Advances (system.installed server)
  | .failed => True
  | .answered answer => ∃ seen state, seen.Valid ∧ floor.Advances seen ∧ seen.Advances system.ledger ∧
      activeKeysOf true seen = .ok state ∧ answer = verifyEnvelope sha256 state (some envelope)

theorem AnswersFrom.mono {stage : Stage}
    (answers : system.AnswersFrom sha256 floor server envelope stage) (grows : system.Grows following) :
    following.AnswersFrom sha256 floor server envelope stage := by
  cases stage with
  | begun =>
    cases server with
    | maintainer => exact trans answers (grows.installed _)
    | router => exact trans answers grows.ledger
  | loaded ledger => exact answers
  | refreshed => exact trans answers (grows.installed _)
  | failed => trivial
  | answered answer =>
    obtain ⟨seen, state, valid, after, before, compiled, same⟩ := answers
    exact ⟨seen, state, valid, after, trans before grows.ledger, compiled, same⟩

def System.Tracks (system : System) (sha256 : String → Digest) (floor : AuthConfig) (task : Nat)
    (server : Server) (envelope : AuthEnvelope) : Prop :=
  ∃ stage, system.tasks task = some (.request server envelope, stage) ∧
    system.AnswersFrom sha256 floor server envelope stage

theorem Tracks.other {other : Nat} {duty : Duty} {stage : Stage}
    (tracks : system.Tracks sha256 floor task server envelope) (grows : system.Grows following)
    (tasks : following.tasks = update system.tasks other (some (duty, stage)))
    (different : task ≠ other) : following.Tracks sha256 floor task server envelope := by
  obtain ⟨known, found, answers⟩ := tracks
  refine ⟨known, ?_, AnswersFrom.mono answers grows⟩
  rw [tasks, Function.update_of_ne different]
  exact found

theorem Tracks.put (stage : Stage)
    (answers : following.AnswersFrom sha256 floor server envelope stage)
    (tasks : following.tasks =
      update system.tasks task (some (.request server envelope, stage))) :
    following.Tracks sha256 floor task server envelope :=
  ⟨stage, by rw [tasks, Function.update_self], answers⟩

theorem verifier_enabled (sound : system.Sound) (server : Server) :
    (system.verifier server).enabled = true := by
  obtain ⟨keys, compiled, -⟩ := activeKeysOf_ok (sound.installedValid server)
  have same := (sound.verifier server).symm.trans compiled
  rw [Except.ok.inj same]

theorem load_tracks (grows : system.Grows following)
    (tracks : system.Tracks sha256 floor task server envelope)
    (taken : system.load other = some following) :
    following.Tracks sha256 floor task server envelope := by
  unfold System.load at taken
  split at taken
  · next duty begun =>
    split_ifs at taken with refreshes
    cases taken
    by_cases same : task = other
    · obtain ⟨stage, found, answers⟩ := tracks
      rw [same, begun] at found
      cases found
      rw [same]
      refine Tracks.put (.loaded system.ledger) ?_ rfl
      cases server with
      | maintainer => cases refreshes
      | router => exact answers
    · exact Tracks.other tracks grows rfl same
  · cases taken

theorem swap_tracks (grows : system.Grows following)
    (tracks : system.Tracks sha256 floor task server envelope)
    (taken : system.swap other = some following) :
    following.Tracks sha256 floor task server envelope := by
  unfold System.swap at taken
  split at taken
  · next duty ledger loaded =>
    by_cases same : task = other
    · obtain ⟨stage, found, answers⟩ := tracks
      rw [same, loaded] at found
      cases found
      rw [same]
      split at taken
      · cases taken
        exact Tracks.put .failed trivial rfl
      · cases taken
        refine Tracks.put .refreshed ?_ rfl
        simpa [System.AnswersFrom, Duty.server] using answers
    · split at taken <;> cases taken
      all_goals exact Tracks.other tracks grows rfl same
  · cases taken

section

variable (sound : system.Sound)
include sound

theorem verify_tracks (grows : system.Grows following)
    (tracks : system.Tracks sha256 floor task server envelope)
    (taken : system.verify sha256 other = some following) :
    following.Tracks sha256 floor task server envelope := by
  unfold System.verify at taken
  split at taken
  · next otherServer otherEnvelope stage found =>
    split_ifs at taken with ready
    cases taken
    by_cases same : task = other
    · obtain ⟨known, isKnown, answers⟩ := tracks
      rw [same, found] at isKnown
      cases isKnown
      rw [same]
      refine Tracks.put _ ?_ rfl
      have current : floor.Advances (system.installed server) := by
        rcases ready with ⟨rfl, unrefreshed⟩ | rfl
        · cases server with
          | maintainer => exact answers
          | router =>
            have enabled := verifier_enabled sound .router
            exact absurd (enabled.symm.trans unrefreshed) (by simp)
        · exact answers
      exact ⟨system.installed server, system.verifier server, sound.installedValid server, current,
        sound.installed server, sound.verifier server, rfl⟩
    · exact Tracks.other tracks grows rfl same
  · cases taken

theorem step_tracks (taken : system.FreshStep sha256 label following)
    (tracks : system.Tracks sha256 floor task server envelope) :
    following.Tracks sha256 floor task server envelope := by
  have grows := (step_sound sound taken).2
  obtain ⟨taken, -⟩ := taken
  have busy : (system.tasks task).isSome = true := by
    obtain ⟨stage, found, -⟩ := tracks
    rw [found]
    rfl
  cases label with
  | create other agentId draws acnKey now =>
    simp only [System.Step, System.next, System.create] at taken
    split_ifs at taken with taken'
    have different : task ≠ other := fun same => taken' (.inl (same ▸ busy))
    split at taken <;> cases taken
    · exact tracks
    · exact Tracks.other tracks grows rfl different
  | revoke other keyId =>
    simp only [System.Step, System.next, System.revoke] at taken
    split_ifs at taken with taken'
    have different : task ≠ other := fun same => taken' (same ▸ busy)
    split at taken <;> cases taken
    · exact tracks
    · exact Tracks.other tracks grows rfl different
  | arrive other otherServer otherEnvelope =>
    simp only [System.Step, System.next, System.arrive] at taken
    split_ifs at taken with taken'
    have different : task ≠ other := fun same => taken' (.inl (same ▸ busy))
    cases taken
    exact Tracks.other tracks grows rfl different
  | load other => exact load_tracks grows tracks taken
  | swap other => exact swap_tracks grows tracks taken
  | verify other => exact verify_tracks sound grows tracks taken

theorem run_sound (run : Trace (System.FreshStep sha256) system labels following) :
    following.Sound ∧ system.Grows following := by
  induction run with
  | nil => exact ⟨sound, ⟨refl, fun _ => refl⟩⟩
  | snoc _ taken ih =>
    obtain ⟨lastSound, grown⟩ := ih
    obtain ⟨nextSound, grows⟩ := step_sound lastSound taken
    exact ⟨nextSound, ⟨trans grown.ledger grows.ledger,
      fun server => trans (grown.installed server) (grows.installed server)⟩⟩

theorem run_tracks (run : Trace (System.FreshStep sha256) system labels following)
    (tracks : system.Tracks sha256 floor task server envelope) :
    following.Tracks sha256 floor task server envelope := by
  induction run with
  | nil => exact tracks
  | snoc earlier taken ih => exact step_tracks (run_sound sound earlier).1 taken ih

end

end

variable {sha256 : String → Digest}
theorem arrive_tracks {task : Nat} {server : Server}
    (taken : system.Step sha256 (.arrive task server envelope) following) :
    following.Tracks sha256 (system.dueFrom server) task server envelope ∧
      ∀ keyHash ∈ system.undisclosed, parseSha256Hash keyHash ≠ .ok (sha256 envelope.acnKey) := by
  simp only [System.Step, System.next, System.arrive] at taken
  split_ifs at taken with refused
  cases taken
  refine ⟨Tracks.put .begun ?_ rfl, fun keyHash hidden same => ?_⟩
  · cases server <;> exact refl
  · exact refused (.inr ⟨keyHash, hidden, same⟩)

theorem refused_of_revoked (valid : seen.Valid) (compiled : activeKeysOf true seen = .ok state)
    (member : row ∈ seen.apiKeys) (digests : row.hasDigest (sha256 envelope.acnKey))
    (revoked : row.status = .revoked) :
    verifyEnvelope sha256 state (some envelope) = .error .unauthorized := by
  obtain ⟨keys, compiledToo, known⟩ := activeKeysOf_ok valid
  obtain rfl := Except.ok.inj (compiled.symm.trans compiledToo)
  cases verified : verifyEnvelope sha256 ⟨true, keys⟩ (some envelope) with
  | error error => rw [verifyEnvelope_error verified]
  | ok answer =>
    obtain ⟨key, inKeys, sameDigest, -, -⟩ := verifyEnvelope_ok verified
    obtain ⟨other, inSeen, active, otherDigests, -⟩ := (known key).mp inKeys
    rw [sameDigest] at otherDigests
    rw [valid.same_of_digest inSeen member otherDigests digests, revoked] at active
    cases active

theorem accepted_of_active (valid : seen.Valid) (compiled : activeKeysOf true seen = .ok state)
    (member : row ∈ seen.apiKeys) (active : row.status = .active)
    (digests : row.hasDigest (sha256 envelope.acnKey)) (agent : envelope.agentId = row.agentId) :
    verifyEnvelope sha256 state (some envelope) = .ok (some ⟨row.agentId, row.keyId⟩) := by
  obtain ⟨keys, compiledToo, known⟩ := activeKeysOf_ok valid
  obtain rfl := Except.ok.inj (compiled.symm.trans compiledToo)
  have inKeys := (known ⟨sha256 envelope.acnKey, ⟨row.agentId, row.keyId⟩⟩).mpr
    ⟨row, member, active, digests, rfl⟩
  obtain ⟨principal, accepted⟩ := verifyEnvelope_accepts inKeys rfl agent.symm
  obtain ⟨key, isKey, sameDigest, -, isPrincipal⟩ := verifyEnvelope_ok accepted
  obtain ⟨other, inSeen, -, otherDigests, named⟩ := (known key).mp isKey
  rw [sameDigest] at otherDigests
  rw [valid.same_of_digest inSeen member otherDigests digests] at named
  rw [accepted, isPrincipal, named]

/-- As long as no older ledger is swapped in, a request that arrives after the answer to a revocation
is refused with the revoked key, a request whose key is active from before its arrival is accepted as
its agent, and no agent has two active rows. -/
theorem revocation_takes_effect {ledger : AuthConfig} {state : AuthVerifierState}
    {early late : List Label} {arrival arrived last : System} {task : Nat} {server : Server}
    {envelope : AuthEnvelope} (valid : ledger.Valid) (loaded : activeKeysOf true ledger = .ok state)
    (before : Trace (System.FreshStep sha256) (System.start ledger state) early arrival)
    (arrives : arrival.FreshStep sha256 (.arrive task server envelope) arrived)
    (after : Trace (System.FreshStep sha256) arrived late last) :
    last.ledger.apiKeys.Pairwise (fun left right =>
        left.status = .active → right.status = .active → left.agentId ≠ right.agentId) ∧
      ∀ answer, last.tasks task = some (.request server envelope, .answered answer) →
        ∀ row ∈ arrival.ledger.apiKeys, row.hasDigest (sha256 envelope.acnKey) →
          (∀ revoker, arrival.tasks revoker = some (.revoke row.keyId, .refreshed) →
            answer = .error .unauthorized) ∧
          (row.status = .active → row ∈ last.ledger.apiKeys → envelope.agentId = row.agentId →
            answer = .ok (some ⟨row.agentId, row.keyId⟩)) := by
  have arrivalSound := (run_sound (start_sound valid loaded) before).1
  have arrivedSound := (step_sound arrivalSound arrives).1
  obtain ⟨lastSound, -⟩ := run_sound arrivedSound after
  refine ⟨lastSound.valid.distinct.imp fun distinct => distinct.2.2, ?_⟩
  intro answer answered row member digests
  obtain ⟨tracks, disclosed⟩ := arrive_tracks arrives.1
  obtain ⟨stage, found, answers⟩ := run_tracks arrivedSound after tracks
  rw [answered] at found
  cases found
  obtain ⟨seen, seenState, seenValid, fromFloor, toLast, compiled, rfl⟩ := answers
  have sameRow : ∀ other ∈ arrival.ledger.apiKeys, other.keyId = row.keyId → other = row :=
    fun other inLedger same => arrivalSound.valid.same_of_id inLedger member same
  constructor
  · intro revoker revoked
    obtain ⟨known, inDue, digestsToo, isRevoked⟩ : ∃ known ∈ (arrival.dueFrom server).apiKeys,
        known.hasDigest (sha256 envelope.acnKey) ∧ known.status = .revoked := by
      obtain ⟨known, inInstalled, sameId, isRevoked⟩ :=
        arrivalSound.placed revoker (.revoke row.keyId) .refreshed revoked
      obtain ⟨next, inLedger, becomes⟩ := arrivalSound.installed .maintainer known inInstalled
      rw [sameRow next inLedger (becomes.1.trans sameId)] at becomes
      cases server with
      | maintainer => exact ⟨known, inInstalled, (Becomes.hasDigest becomes).mp digests, isRevoked⟩
      | router => exact ⟨row, member, digests, becomes.2.2.2 isRevoked⟩
    obtain ⟨next, inSeen, becomes⟩ := fromFloor known inDue
    exact refused_of_revoked seenValid compiled inSeen ((Becomes.hasDigest becomes).mpr digestsToo)
      (becomes.2.2.2 isRevoked)
  · intro active stillActive agent
    obtain ⟨known, inDue, toRow⟩ : ∃ known ∈ (arrival.dueFrom server).apiKeys,
        known.Becomes row := by
      cases server with
      | maintainer =>
        rcases arrivalSound.disclosed row member with hidden | known
        · exact absurd digests (disclosed row.keyHash hidden)
        · exact known
      | router => exact ⟨row, member, Becomes.refl⟩
    obtain ⟨next, inSeen, becomes⟩ := fromFloor known inDue
    obtain ⟨final, inLast, later⟩ := toLast next inSeen
    have sameId : final.keyId = row.keyId := by rw [later.1, becomes.1, toRow.1]
    rw [lastSound.valid.same_of_id inLast stillActive sameId] at later
    have nextActive : next.status = .active := by
      cases status : next.status with
      | active => rfl
      | revoked =>
        have rowRevoked := later.2.2.2 status
        rw [active] at rowRevoked
        cases rowRevoked
    have accepted := accepted_of_active seenValid compiled inSeen nextActive
      ((Becomes.hasDigest later).mp digests) (agent.trans later.2.1)
    rw [accepted, later.1, later.2.1]

def firstKey : String :=
  "acn_a1a1a1a1a1a1a1a1a1a1a1a1a1a1a1a1a1a1a1a1a1a1a1a1a1a1a1a1a1a1a1a1"

def secondKey : String :=
  "acn_b2b2b2b2b2b2b2b2b2b2b2b2b2b2b2b2b2b2b2b2b2b2b2b2b2b2b2b2b2b2b2b2"

def sampleSha256 (acnKey : String) : Digest :=
  if acnKey = firstKey then
    ⟨[186, 227, 219, 2, 238, 218, 184, 198, 143, 153, 190, 147, 73, 75, 191, 97, 40, 116, 15,
    248, 160, 52, 81, 143, 97, 178, 158, 39, 174, 128, 227, 144], rfl⟩
  else if acnKey = secondKey then
    ⟨[131, 30, 232, 127, 149, 170, 71, 99, 5, 249, 217, 229, 219, 184, 47, 61, 247, 255, 136,
    74, 245, 55, 216, 36, 159, 184, 70, 189, 204, 133, 233, 11], rfl⟩
  else ⟨replicate 32 0, rfl⟩

def staleRefresh : List Label :=
  [.create 0 "agent-a" ["key_00000001"] firstKey 0, .load 0, .swap 0,
    .create 1 "agent-b" ["key_00000002"] secondKey 1, .load 1,
    .revoke 2 "key_00000001", .load 2, .swap 2, .swap 1]

/-- The revoked key is accepted again, and stays so until the next refresh. -/
theorem revoked_key_revives :
    ¬ ∀ (early : List Label) (arrival arrived last : System) (envelope : AuthEnvelope),
      Trace (System.Step sampleSha256) (System.start ⟨true, []⟩ ⟨true, []⟩) early arrival →
      arrival.Step sampleSha256 (.arrive 3 .maintainer envelope) arrived →
      arrived.Step sampleSha256 (.verify 3) last →
      arrival.tasks 2 = some (.revoke "key_00000001", .refreshed) →
        ∀ principal, principal.keyId = "key_00000001" →
          last.tasks 3 ≠ some (.request .maintainer envelope, .answered (.ok (some principal))) := by
  intro refused
  have ran : ((Trace.execute (System.next sampleSha256) (System.start ⟨true, []⟩ ⟨true, []⟩)
      staleRefresh).bind fun arrival =>
        (arrival.next sampleSha256 (.arrive 3 .maintainer ⟨"agent-a", firstKey⟩)).bind fun arrived =>
          (arrived.next sampleSha256 (.verify 3)).map fun last =>
            (arrival.tasks 2, last.tasks 3)) =
      some (some (.revoke "key_00000001", .refreshed),
        some (.request .maintainer ⟨"agent-a", firstKey⟩,
          .answered (.ok (some ⟨"agent-a", "key_00000001"⟩)))) := by
    decide +kernel
  obtain ⟨arrival, early, ran⟩ := Option.bind_eq_some_iff.mp ran
  obtain ⟨arrived, arrives, ran⟩ := Option.bind_eq_some_iff.mp ran
  obtain ⟨last, verifies, ran⟩ := Option.map_eq_some_iff.mp ran
  obtain ⟨revoked, accepted⟩ := Prod.mk.inj ran
  exact refused _ arrival arrived last _ (Trace.of_execute early) arrives verifies revoked _ rfl accepted

def System.nextFresh (sha256 : String → Digest) (system : System) (label : Label) : Option System :=
  if system.Fresh label then system.next sha256 label else none

theorem nextFresh_step {label : Label} (taken : system.nextFresh sha256 label = some following) :
    system.FreshStep sha256 label following := by
  unfold System.nextFresh at taken
  split_ifs at taken with fresh
  exact ⟨taken, fresh⟩

def orderly : List Label :=
  [.create 0 "agent-a" ["key_00000001"] firstKey 0, .load 0, .swap 0,
    .create 1 "agent-b" ["key_00000002"] secondKey 1, .load 1, .swap 1,
    .revoke 2 "key_00000001", .load 2, .swap 2]

theorem revocation_takes_effect_orderly : ∃ arrival arrived last : System,
      Trace (System.FreshStep sampleSha256) (System.start ⟨true, []⟩ ⟨true, []⟩) orderly arrival ∧
      arrival.FreshStep sampleSha256 (.arrive 3 .router ⟨"agent-a", firstKey⟩) arrived ∧
      arrival.tasks 2 = some (.revoke "key_00000001", .refreshed) ∧
      ∀ answer, last.tasks 3 = some (.request .router ⟨"agent-a", firstKey⟩, .answered answer) →
        answer = .error .unauthorized := by
  have ran : ((Trace.execute (System.nextFresh sampleSha256) (System.start ⟨true, []⟩ ⟨true, []⟩)
      orderly).bind fun arrival =>
        (arrival.nextFresh sampleSha256 (.arrive 3 .router ⟨"agent-a", firstKey⟩)).bind fun arrived =>
          (Trace.execute (System.nextFresh sampleSha256) arrived [.load 3, .swap 3, .verify 3]).map
            fun last => (arrival.tasks 2, (last.tasks 3).isSome, arrival.ledger.apiKeys.any fun row =>
              row.keyId = "key_00000001" ∧ row.hasDigest (sampleSha256 firstKey))) =
      some (some (.revoke "key_00000001", .refreshed), true, true) := by
    decide +kernel
  obtain ⟨arrival, early, ran⟩ := Option.bind_eq_some_iff.mp ran
  obtain ⟨arrived, arrives, ran⟩ := Option.bind_eq_some_iff.mp ran
  obtain ⟨last, late, ran⟩ := Option.map_eq_some_iff.mp ran
  obtain ⟨revoked, ran⟩ := Prod.mk.inj ran
  obtain ⟨row, member, named⟩ := any_eq_true.mp (Prod.mk.inj ran).2
  obtain ⟨sameId, digests⟩ := of_decide_eq_true named
  have before := (Trace.of_execute early).mono nextFresh_step
  have after := (Trace.of_execute late).mono nextFresh_step
  refine ⟨arrival, arrived, last, before, nextFresh_step arrives, revoked, fun answer answered => ?_⟩
  have valid : AuthConfig.Valid ⟨true, []⟩ := ⟨List.Pairwise.nil, fun _ member => nomatch member⟩
  have taken := revocation_takes_effect valid rfl before (nextFresh_step arrives) after
  exact (taken.2 answer answered row member digests).1 2 (sameId ▸ revoked)

end AgentClaimNetwork.Auth
