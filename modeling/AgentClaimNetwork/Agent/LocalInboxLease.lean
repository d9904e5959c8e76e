import AgentClaimNetwork.Agent.LocalInboxSafety

/-!
How long a claim keeps others off a message.  The age of a lease is the modification time of a
file that is only renamed, so it counts from the acceptance of the message.
-/

namespace AgentClaimNetwork.Agent

open Library Interleaving List
open Function (update_apply update_of_ne update_self)
variable {staleAfter : Int} {known : LeaseKnowledge} {action : FileAction} {id : InboxId}
  {lease : Nat} {owner : LeaseOwner}

open Maintainer (InboxId InboxMessage)
variable {call : InboxCall}

section

structure LeaseKnowledge where
  stale : Bool
  drew : Bool

def LeaseKnowledge.learn (staleAfter : Int) (held : FileName) (known : LeaseKnowledge) :
    (action : FileAction) → FileAnswer action → LeaseKnowledge
  | .elapsed name modified, time =>
    { known with stale := known.stale || decide (name = held) && isStale staleAfter modified time }
  | .lease _ id, some lease =>
    if FileName.processing id lease = held then { known with drew := true } else known
  | _, _ => known

def LeaseKnowledge.allows (held : FileName) (known : LeaseKnowledge) : FileAction → Prop
  | .removeFile name => name = held → known.stale = true
  | .rename source target => (source = held → known.stale = true) ∧ target ≠ held
  | .lease source _ => source ≠ held
  | .writeYaml name _ => name ≠ held
  | .tryExists _ | .readYaml _ | .readDir | .modified _ | .elapsed _ _ | .now => True

def leaseOutline (staleAfter : Int) (held : FileName) :
    Outline FileAction FileAnswer LeaseKnowledge where
  learn := LeaseKnowledge.learn staleAfter held
  allowed := LeaseKnowledge.allows held
  possible := fun _ _ _ => True

def Keeps (held : FileName) : InboxCall → Prop
  | .ackClaimed claimed | .releaseClaimed claimed => claimed.leaseId ≠ some held
  | .acceptPulled _ | .claimPending _ => True

variable {held : FileName}

theorem learn_drew (drew : known.drew = true) :
    ((leaseOutline staleAfter held).learn known action answer).drew = true := by
  show (known.learn staleAfter held action answer).drew = true
  unfold LeaseKnowledge.learn
  split
  · exact drew
  · split_ifs
    · rfl
    · exact drew
  · exact drew

theorem lease_removeFile (may : path = held → known.stale = true) :
    (removeFile path).Obeys (leaseOutline staleAfter held) (fun _ _ => True) known :=
  ⟨may, fun _ _ => Script.Obeys.require fun _ => trivial⟩

theorem lease_readYaml :
    (readYaml path).Obeys (leaseOutline staleAfter held) (fun _ _ => True) known := by
  refine And.intro trivial fun found _ => ?_
  exact Script.Obeys.orFail fun _ _ => trivial

theorem lease_recoverMessage (may : path = held → known.stale = true)
    (isHeld : ∀ id, FileName.pending id ≠ held) :
    (recoverMessage path message).Obeys (leaseOutline staleAfter held) (fun _ _ => True) known := by
  refine And.intro trivial fun done _ => ?_
  cases done with
  | true => exact lease_removeFile may
  | false =>
    refine And.intro trivial fun active _ => ?_
    cases active with
    | true => exact lease_removeFile may
    | false => exact And.intro ⟨may, isHeld _⟩ fun _ _ => trivial

variable (isHeld : ∀ id, FileName.pending id ≠ held)

include isHeld

theorem lease_recoverFile :
    (recoverFile staleAfter path).Obeys (leaseOutline staleAfter held) (fun _ _ => True) known := by
  refine And.intro trivial fun found _ => ?_
  cases found with
  | none => trivial
  | some modifiedAt =>
    refine And.intro trivial fun readAt _ => ?_
    show Script.Obeys _ _ _ (if isStale staleAfter modifiedAt readAt then _ else _)
    split
    · rename_i stale
      refine And.intro trivial fun content _ => ?_
      cases content with
      | none => trivial
      | some message =>
        refine lease_recoverMessage ?_ isHeld
        intro same
        simp [leaseOutline, LeaseKnowledge.learn, same, stale]
    · trivial

theorem lease_recoverStaleProcessing :
    (recoverStaleProcessing staleAfter).Obeys (leaseOutline staleAfter held) (fun _ _ => True)
      known := by
  refine And.intro trivial fun names _ => ?_
  refine @Script.Obeys.forEach FileAction FileAnswer FileName LeaseKnowledge
    (leaseOutline staleAfter held) _ (fun _ => True) names _ ?_ trivial
  intro name member known _
  cases name with
  | processing id lease => exact lease_recoverFile isHeld
  | pending id => trivial
  | done id => trivial

theorem lease_scanFile {id : InboxId} :
    (scanFile (.pending id)).Obeys (leaseOutline staleAfter held)
      (fun _ found => ∀ item, found = some item → item.path ≠ held) known := by
  refine Script.Obeys.bind lease_readYaml fun known message _ => ?_
  refine And.intro trivial fun done _ => ?_
  cases done with
  | true =>
    show Script.Obeys _ _ _ (removeFile _ >>= fun _ => pure none)
    refine Script.Obeys.bind (lease_removeFile fun same => absurd same (isHeld id)) fun _ _ _ => ?_
    intro item found
    cases found
  | false =>
    refine And.intro trivial fun found _ => ?_
    cases found with
    | none => trivial
    | some modifiedAt =>
      intro item isItem
      cases isItem
      exact isHeld id

omit isHeld

def OwnLease (held : FileName) (known : LeaseKnowledge) (claimed : ClaimedInboxMessage) : Prop :=
  (∃ lease, claimed.leaseId = some (.processing claimed.message.id lease)) ∧
    (claimed.leaseId = some held → known.drew = true)

theorem lease_claimItem (path : item.path ≠ held) :
    (claimItem item).Obeys (leaseOutline staleAfter held)
      (fun known found => ∀ claimed, found = some claimed → OwnLease held known claimed) known := by
  refine And.intro path fun leased _ => ?_
  intro claimed found
  obtain ⟨lease, rfl, rfl⟩ := Option.map_eq_some_iff.mp found
  refine ⟨⟨lease, rfl⟩, ?_⟩
  intro isHeld
  simp only [Option.some.injEq] at isHeld
  simp [leaseOutline, LeaseKnowledge.learn, isHeld]

include isHeld in
theorem lease_claimPending :
    (claimPending staleAfter seen).Obeys (leaseOutline staleAfter held)
      (fun known claimed => ∀ item ∈ claimed, OwnLease held known item) known := by
  refine Script.Obeys.bind (lease_recoverStaleProcessing isHeld) fun known _ _ => ?_
  refine And.intro trivial fun names _ => ?_
  show Script.Obeys _ _ _ (Script.gather names _ >>= _)
  refine Script.Obeys.bind (obeys_scanPending fun _ _ => lease_scanFile isHeld)
    fun known pending collected => ?_
  have claims := @Script.Obeys.gather FileAction FileAnswer ClaimedInboxMessage
    PendingInboxMessage LeaseKnowledge (leaseOutline staleAfter held) known (fun _ => True)
    (OwnLease held)
    ((pending.insertionSort pendingBefore).filter fun item => item.message.id ∉ seen) claimItem
    (fun _ action answer _ own => ⟨own.1, fun isLease => learn_drew (own.2 isLease)⟩)
    ?_ trivial
  · exact claims.weaken fun _ _ holds => holds.2
  · intro item member known _
    have among := mem_of_mem_filter member
    rw [mem_insertionSort] at among
    exact (lease_claimItem (collected item among)).weaken fun _ _ holds => ⟨trivial, holds⟩

theorem lease_finishMessage {id : InboxId} (other : path ≠ held)
    (isHeld : ∀ id, FileName.done id ≠ held) :
    (finishMessage id path).Obeys (leaseOutline staleAfter held) (fun _ _ => True) known := by
  refine Script.Obeys.bind lease_readYaml fun known message _ => ?_
  refine And.intro trivial fun handledAt _ => ?_
  exact And.intro (isHeld id) fun _ _ => lease_removeFile fun same => absurd same other

theorem lease_ack {id : InboxId} (notPending : ∀ id, FileName.pending id ≠ held)
    (notDone : ∀ id, FileName.done id ≠ held) :
    (ack id).Obeys (leaseOutline staleAfter held) (fun _ _ => True) known := by
  refine And.intro trivial fun active _ => ?_
  cases active with
  | true => exact lease_finishMessage (notPending id) notDone
  | false => trivial

variable {claimed : ClaimedInboxMessage}

theorem lease_ackClaimed (keeps : claimed.leaseId ≠ some held)
    (notPending : ∀ id, FileName.pending id ≠ held) (notDone : ∀ id, FileName.done id ≠ held) :
    (ackClaimed claimed).Obeys (leaseOutline staleAfter held) (fun _ _ => True) known := by
  unfold ackClaimed
  split
  · exact lease_ack notPending notDone
  · rename_i processing isLease
    have other : processing ≠ held := by
      rintro rfl
      exact keeps isLease
    refine And.intro trivial fun held _ => ?_
    cases held with
    | true => exact lease_finishMessage other notDone
    | false =>
      refine And.intro trivial fun done _ => ?_
      cases done with
      | true => trivial
      | false => exact lease_ack notPending notDone

theorem lease_releaseClaimed (keeps : claimed.leaseId ≠ some held)
    (notPending : ∀ id, FileName.pending id ≠ held) :
    (releaseClaimed claimed).Obeys (leaseOutline staleAfter held) (fun _ _ => True) known := by
  unfold releaseClaimed
  split
  · trivial
  · rename_i processing isLease
    have other : processing ≠ held := by
      rintro rfl
      exact keeps isLease
    refine And.intro trivial fun done _ => ?_
    cases done with
    | true =>
      refine And.intro trivial fun there _ => ?_
      cases there with
      | true => exact lease_removeFile fun same => absurd same other
      | false => trivial
    | false =>
      refine And.intro trivial fun there _ => ?_
      cases there with
      | false => trivial
      | true =>
        refine And.intro trivial fun active _ => ?_
        cases active with
        | true => trivial
        | false =>
          refine And.intro ⟨fun same => absurd same other, notPending _⟩ fun moved _ => ?_
          exact Script.Obeys.require fun _ => trivial

theorem lease_acceptPulled (notPending : ∀ id, FileName.pending id ≠ held) :
    (acceptPulled message).Obeys (leaseOutline staleAfter held) (fun _ _ => True) known := by
  refine And.intro trivial fun done _ => ?_
  refine And.intro trivial fun active _ => ?_
  refine And.intro trivial fun names _ => ?_
  show Script.Obeys _ _ _ (if existingPaths message.id done active names = [] then _ else _)
  split
  · exact And.intro (notPending _) fun _ _ => trivial
  · refine @Script.Obeys.forEach FileAction FileAnswer FileName LeaseKnowledge
      (leaseOutline staleAfter held) _ (fun _ => True) _ _ ?_ trivial
    intro path member known _
    refine Script.Obeys.bind lease_readYaml fun known actual _ => ?_
    exact Script.Obeys.require fun _ => trivial

def leasePost (held : FileName) (known : LeaseKnowledge) (claimed : List ClaimedInboxMessage) :
    Prop :=
  ∀ item ∈ claimed, OwnLease held known item

theorem lease_inboxScript (keeps : Keeps held call) (notPending : ∀ id, FileName.pending id ≠ held)
    (notDone : ∀ id, FileName.done id ≠ held) :
    (inboxScript staleAfter call).Obeys (leaseOutline staleAfter held) (leasePost held) known := by
  cases call with
  | acceptPulled message =>
    exact Script.Obeys.bind (lease_acceptPulled notPending) fun _ _ _ _ member => by
      cases member
  | claimPending seen => exact lease_claimPending notPending
  | ackClaimed claimed =>
    exact Script.Obeys.bind (lease_ackClaimed keeps notPending notDone) fun _ _ _ _ member => by
      cases member
  | releaseClaimed claimed =>
    exact Script.Obeys.bind (lease_releaseClaimed keeps notPending) fun _ _ _ _ member => by
      cases member

end
variable {file : InboxFile}

section

variable {dir next : InboxDir}

def FileName.IsPayload : FileName → Prop
  | .pending _ | .processing _ _ => True
  | .done _ => False

/-- Of the message `id` there is one pending or processing file at most. -/
structure OneCopy (id : InboxId) (dir : InboxDir) : Prop where
  unique : ∀ left right first second, left.IsPayload → right.IsPayload → left.id = id →
    right.id = id → dir.files left = some first → dir.files right = some second → left = right
  drawn : ∀ other lease file, dir.files (.processing other lease) = some file → lease ∈ dir.leases

theorem OneCopy.move {source target : FileName} (copies : OneCopy id dir)
    (found : dir.files source = some file) (payload : source.IsPayload) (sameId : source.id = target.id)
    (left right : FileName) {first second : InboxFile} (isLeft : left.IsPayload)
    (isRight : right.IsPayload) (leftId : left.id = id) (rightId : right.id = id)
    (leftStored : (dir.moved source target file).files left = some first)
    (rightStored : (dir.moved source target file).files right = some second) : left = right := by
  rw [moved_files] at leftStored rightStored
  -- Whatever else the message had would have been a second copy beside the source.
  have onlySource : ∀ name kept, name.IsPayload → name.id = id → target.id = id →
      (if name = source then none else dir.files name) = some kept → False := by
    intro name kept isPayload isId isTarget stored
    split_ifs at stored with isSource
    exact isSource (copies.unique name source kept file isPayload payload isId
      (sameId.trans isTarget) stored found)
  by_cases leftTarget : left = target
  · by_cases rightTarget : right = target
    · rw [leftTarget, rightTarget]
    · rw [if_neg rightTarget] at rightStored
      exact (onlySource right second isRight rightId (leftTarget ▸ leftId) rightStored).elim
  · by_cases rightTarget : right = target
    · rw [if_neg leftTarget] at leftStored
      exact (onlySource left first isLeft leftId (rightTarget ▸ rightId) leftStored).elim
    · split_ifs at leftStored rightStored
      exact copies.unique left right first second isLeft isRight leftId rightId leftStored
        rightStored

theorem Effect.oneCopy (effect : Effect dir action next) (copies : OneCopy id dir)
    (careful : ∀ message, action = .writeYaml (.pending id) message →
      ∀ name file, name.IsPayload → name.id = id → dir.files name ≠ some file)
    (noLease : ∀ id lease message, action ≠ .writeYaml (.processing id lease) message) :
    OneCopy id next := by
  cases effect with
  | nothing => exact copies
  | @restored other lease file found =>
    constructor
    · intro left right first second isLeft isRight leftId rightId leftStored rightStored
      exact @OneCopy.move id file dir _ (.pending other) copies found trivial rfl left right first
        second isLeft isRight leftId rightId leftStored rightStored
    · intro other drawn kept stored
      rw [moved_files, if_neg (by simp)] at stored
      split_ifs at stored
      exact copies.drawn other drawn kept stored
  | @leased other lease file fresh found =>
    constructor
    · intro left right first second isLeft isRight leftId rightId leftStored rightStored
      exact @OneCopy.move id file dir _ (.processing other lease) copies found trivial rfl left
        right first second isLeft isRight leftId rightId leftStored rightStored
    · intro moved drawn kept stored
      have isStored : (dir.moved (.pending other) (.processing other lease) file).files
          (.processing moved drawn) = some kept := stored
      rw [moved_files] at isStored
      by_cases isTarget : FileName.processing moved drawn = .processing other lease
      · cases isTarget
        exact Finset.mem_insert_self _ _
      · rw [if_neg isTarget, if_neg (by simp)] at isStored
        exact Finset.mem_insert_of_mem (copies.drawn moved drawn kept isStored)
  | @removed name undone =>
    constructor
    · intro left right first second isLeft isRight leftId rightId leftStored rightStored
      simp only [update_apply] at leftStored rightStored
      split_ifs at leftStored rightStored
      exact copies.unique left right first second isLeft isRight leftId rightId leftStored
        rightStored
    · intro other drawn kept stored
      simp only [update_apply] at stored
      split_ifs at stored
      exact copies.drawn other drawn kept stored
  | @written name message sameId =>
    constructor
    · intro left right first second isLeft isRight leftId rightId leftStored rightStored
      simp only [update_apply] at leftStored rightStored
      cases name with
      | processing id lease => exact absurd rfl (noLease id lease message)
      | done id =>
        rw [if_neg (by rintro rfl; exact isLeft)] at leftStored
        rw [if_neg (by rintro rfl; exact isRight)] at rightStored
        exact copies.unique left right first second isLeft isRight leftId rightId leftStored
          rightStored
      | pending other =>
        by_cases leftNew : left = .pending other
        · subst leftNew
          obtain rfl : other = id := leftId
          by_cases rightNew : right = .pending other
          · exact rightNew.symm
          · rw [if_neg rightNew] at rightStored
            exact absurd rightStored (careful message rfl right second isRight rightId)
        · rw [if_neg leftNew] at leftStored
          by_cases rightNew : right = .pending other
          · subst rightNew
            obtain rfl : other = id := rightId
            exact absurd leftStored (careful message rfl left first isLeft leftId)
          · rw [if_neg rightNew] at rightStored
            exact copies.unique left right first second isLeft isRight leftId rightId leftStored
              rightStored
    · intro other drawn kept stored
      have differs : FileName.processing other drawn ≠ name := by
        rintro rfl
        exact noLease other drawn message rfl
      simp only [update_of_ne differs] at stored
      exact copies.drawn other drawn kept stored

theorem Effect.clock (effect : Effect dir action next) : next.clock = dir.clock := by
  cases effect with
  | nothing => rfl
  | restored => rfl
  | leased => rfl
  | removed => rfl
  | written => rfl

theorem Effect.held_after (effect : Effect dir action next) (copies : OneCopy other dir)
    (allowed : known.allows (.processing id lease) action)
    (stored : dir.files (.processing id lease) = some file) :
    known.stale = true ∨ next.files (.processing id lease) = some file := by
  cases effect with
  | nothing => exact .inr stored
  | @restored other drawn moved found =>
    by_cases same : FileName.processing other drawn = .processing id lease
    · exact .inl (allowed.1 same)
    · have differs : FileName.processing id lease ≠ .processing other drawn := fun equal =>
        same equal.symm
      exact .inr (by rw [moved_files, if_neg (by simp), if_neg differs]; exact stored)
  | @leased other drawn moved fresh found =>
    have differs : FileName.processing id lease ≠ .processing other drawn := by
      intro same
      cases same
      exact fresh (copies.drawn id lease file stored)
    refine .inr ?_
    rw [moved_files, if_neg differs, if_neg (by simp)]
    exact stored
  | @removed name undone =>
    by_cases same : name = .processing id lease
    · exact .inl (allowed same)
    · have differs : FileName.processing id lease ≠ name := fun equal => same equal.symm
      exact .inr (by simpa only [update_of_ne differs] using stored)
  | @written name message sameId =>
    have differs : FileName.processing id lease ≠ name := fun same => allowed same.symm
    exact .inr (by simpa only [update_of_ne differs] using stored)

end

section

variable {system next : System (inboxMachine staleAfter)} {label : Label (inboxMachine staleAfter)}

/-- Who got the file `<id>.processing.<lease>`; the number may also have gone to another message. -/
inductive LeaseOwner
  | undrawn
  | held (process : Nat)
  | ended
  | elsewhere
deriving DecidableEq

def LeaseOwner.IsDrawn : LeaseOwner → Prop
  | .held _ | .ended => True
  | .undrawn | .elsewhere => False

structure LeaseInv (id : InboxId) (lease : Nat) (owner : LeaseOwner)
    (system : System (inboxMachine staleAfter)) : Prop where
  outlined : ∀ process call script, system.running process = some (call, script) →
    ∃ known : LeaseKnowledge, known.stale = false ∧ (known.drew = true → owner = .held process) ∧
      script.Obeys (leaseOutline staleAfter (.processing id lease))
        (leasePost (.processing id lease)) known
  drawn : owner ≠ .undrawn → lease ∈ system.world.leases
  stored : owner.IsDrawn → ∃ file, system.world.files (.processing id lease) = some file

theorem LeaseInv.ended (inv : LeaseInv id lease owner system) (process : Nat) :
    LeaseInv id lease (if owner = .held process then .ended else owner)
      { system with running := Function.update system.running process none } := by
  constructor
  · intro other call script running
    have differs : other ≠ process := by
      rintro rfl
      simp at running
    obtain ⟨known, unstale, drew, obeys⟩ := inv.outlined other call script (ended_running running)
    refine ⟨known, unstale, fun isDrew => ?_, obeys⟩
    have isOwner := drew isDrew
    rw [if_neg (by rw [isOwner]; simp [differs])]
    exact isOwner
  · intro drawn
    apply inv.drawn
    rintro rfl
    simp at drawn
  · intro isDrawn
    apply inv.stored
    split_ifs at isDrawn with same
    · rw [same]
      trivial
    · exact isDrawn

theorem learn_draws (performed : performs dir action answer world)
    (drew : (known.learn staleAfter (.processing id lease) action answer).drew = true) :
    known.drew = true ∨ lease ∉ dir.leases ∧ lease ∈ world.leases ∧
      ∃ file, world.files (.processing id lease) = some file := by
  unfold LeaseKnowledge.learn at drew
  split at drew
  · exact .inl drew
  · split_ifs at drew with same
    · cases same
      rcases performed with ⟨missing, -⟩ | ⟨file, fresh, isFresh, notDrawn, found, rfl⟩
      · cases missing
      · cases isFresh
        exact .inr ⟨notDrawn, Finset.mem_insert_self _ _, file, update_self _ _ _⟩
    · exact .inl drew
  · exact .inl drew

/-- `accept_pulled` writes the message `id` only where no pending or processing file of it is, and
no age test of `recover_stale_processing` finds a file of `leases` stale. -/
def CarefulAct (staleAfter : Int) (id : InboxId) (leases : FileName → Prop) (dir : InboxDir) :
    FileAction → Prop
  | .writeYaml (.pending other) _ =>
    other = id → ∀ name file, name.IsPayload → name.id = id → dir.files name ≠ some file
  | .elapsed name modified => leases name → isStale staleAfter modified dir.clock = false
  | _ => True

def Careful (id : InboxId) (leases : FileName → Prop) (system : System (inboxMachine staleAfter)) :
    Label (inboxMachine staleAfter) → Prop
  | .act _ action _ => CarefulAct staleAfter id leases system.world action
  | .start _ _ | .finish _ _ _ | .crash _ | .pass => True

def CarefulStep (id : InboxId) (leases : FileName → Prop) (system : System (inboxMachine staleAfter))
    (label : Label (inboxMachine staleAfter)) (next : System (inboxMachine staleAfter)) : Prop :=
  Step (inboxMachine staleAfter) system label next ∧ Careful id leases system label

def KeepsLease (held : FileName) : Label (inboxMachine staleAfter) → Prop
  | .start _ call => Keeps held call
  | .act _ _ _ | .finish _ _ _ | .crash _ | .pass => True

variable {leases : FileName → Prop}

theorem oneCopy_step (sound : InboxSound system) (copies : OneCopy id system.world)
    (step : CarefulStep id leases system label next) : OneCopy id next.world := by
  obtain ⟨step, careful⟩ := step
  cases step with
  | start => exact copies
  | @act process call action rest answer world running performed =>
    obtain ⟨known, holds, obeys⟩ := sound.outlined process call _ running
    refine (performs_effect obeys.1 performed).oneCopy copies ?_ ?_
    · rintro message rfl
      exact careful rfl
    · rintro id lease message rfl
      exact obeys.1.2 id lease rfl
  | finish | fail | crash => exact copies
  | pass passed =>
    obtain ⟨later, -, rfl⟩ := passed
    exact ⟨copies.unique, copies.drawn⟩

theorem learn_unstale (unstale : known.stale = false) (performed : performs dir action answer world)
    (careful : CarefulAct staleAfter id leases dir action) (protects : leases held) :
    (known.learn staleAfter held action answer).stale = false := by
  unfold LeaseKnowledge.learn
  split
  · rename_i name modified time
    obtain ⟨rfl, -⟩ := performed
    simp only [unstale, Bool.false_or, Bool.and_eq_false_iff, decide_eq_false_iff_not]
    by_cases same : name = held
    · exact .inr (careful (same ▸ protects))
    · exact .inl same
  · split_ifs
    · exact unstale
    · exact unstale
  · exact unstale

theorem LeaseInv.acted {process : Nat} (inv : LeaseInv id lease owner system)
    (running : system.running process = some (call, .act action rest))
    (performed : performs system.world action answer world)
    (effect : Effect system.world action world) (copies : OneCopy other system.world)
    (careful : CarefulAct staleAfter other leases system.world action)
    (protects : leases (.processing id lease)) :
    ∃ later, LeaseInv id lease later (acted system process call (rest answer) world) ∧
      (owner = .ended → later = .ended) := by
  obtain ⟨known, unstale, drew, obeys⟩ := inv.outlined process call _ running
  have learned := learn_unstale unstale performed careful protects
  have goesOn := obeys.2 answer trivial
  have outlined : ∀ later : LeaseOwner,
      ((known.learn staleAfter (.processing id lease) action answer).drew = true →
        later = .held process) →
      (∀ other, other ≠ process → owner = .held other → later = .held other) →
      ∀ other otherCall script, (Agent.acted system process call (rest answer) world).running other =
        some (otherCall, script) →
      ∃ known : LeaseKnowledge, known.stale = false ∧ (known.drew = true → later = .held other) ∧
        script.Obeys (leaseOutline staleAfter (.processing id lease))
          (leasePost (.processing id lease)) known := by
    intro later mine others other otherCall script isRunning
    rcases update_cases isRunning with ⟨rfl, written⟩ | ⟨same, isRunning⟩
    · cases written
      exact ⟨_, learned, mine, goesOn⟩
    · obtain ⟨otherKnown, otherUnstale, otherDrew, otherObeys⟩ := inv.outlined other _ _ isRunning
      exact ⟨otherKnown, otherUnstale, fun isDrew => others other same (otherDrew isDrew), otherObeys⟩
  by_cases fresh : lease ∉ system.world.leases ∧ lease ∈ world.leases
  · have undrawn : owner = .undrawn := by
      by_contra drawn
      exact fresh.1 (inv.drawn drawn)
    -- The number was drawn just now, for the message of the lease or for another one.
    refine ⟨if (known.learn staleAfter (.processing id lease) action answer).drew
      then .held process else .elsewhere, ⟨outlined _ (fun isDrew => if_pos isDrew) ?_,
        fun _ => fresh.2, ?_⟩, ?_⟩
    · intro other _ isHeld
      rw [undrawn] at isHeld
      cases isHeld
    · intro isDrawn
      split_ifs at isDrawn with isDrew
      · rcases learn_draws performed isDrew with before | ⟨-, -, stored⟩
        · rw [undrawn] at drew
          cases drew before
        · exact stored
      · exact isDrawn.elim
    · intro ended
      rw [undrawn] at ended
      cases ended
  · refine ⟨owner, ⟨outlined _ (fun isDrew => ?_) fun _ _ isHeld => isHeld,
      fun drawn => effect.leases (inv.drawn drawn), fun isDrawn => ?_⟩, fun ended => ended⟩
    · rcases learn_draws performed isDrew with before | ⟨wasNot, isNow, -⟩
      · exact drew before
      · exact absurd ⟨wasNot, isNow⟩ fresh
    · obtain ⟨file, stored⟩ := inv.stored isDrawn
      rcases effect.held_after copies obeys.1 stored with stale | kept
      · rw [unstale] at stale
        cases stale
      · exact ⟨file, kept⟩

theorem leaseInv_step (sound : InboxSound system) (copies : OneCopy other system.world)
    (inv : LeaseInv id lease owner system) (step : CarefulStep other leases system label next)
    (protects : leases (.processing id lease)) (keeps : KeepsLease (.processing id lease) label) :
    ∃ later, LeaseInv id lease later next ∧ (owner = .ended → later = .ended) := by
  obtain ⟨step, careful⟩ := step
  cases step with
  | @start process call idle admitted =>
    refine ⟨owner, ⟨?_, inv.drawn, inv.stored⟩, fun ended => ended⟩
    intro other otherCall script running
    rcases update_cases running with ⟨rfl, written⟩ | ⟨same, running⟩
    · cases written
      exact ⟨⟨false, false⟩, rfl, fun drew => Bool.noConfusion drew,
        lease_inboxScript keeps (by simp) (by simp)⟩
    · exact inv.outlined other otherCall script running
  | @act process call action rest answer world running performed =>
    obtain ⟨known, holds, obeys⟩ := sound.outlined process call _ running
    exact inv.acted running performed (performs_effect obeys.1 performed) copies careful protects
  | @finish process | @fail process | @crash process =>
    exact ⟨_, inv.ended process, fun ended => by simp [ended]⟩
  | pass passed =>
    obtain ⟨later, after, rfl⟩ := passed
    exact ⟨owner, ⟨inv.outlined, inv.drawn, inv.stored⟩, fun ended => ended⟩

theorem clock_step (sound : InboxSound system)
    (step : Step (inboxMachine staleAfter) system label next) :
    system.world.clock ≤ next.world.clock := by
  cases step with
  | start => exact le_rfl
  | @act process call action rest answer world running performed =>
    obtain ⟨known, -, obeys⟩ := sound.outlined process call _ running
    exact (performs_effect obeys.1 performed).clock.ge
  | finish | fail | crash => exact le_rfl
  | pass passed =>
    obtain ⟨later, after, rfl⟩ := passed
    exact after

end

variable {system next : System (inboxMachine staleAfter)}
  {labels : List (Label (inboxMachine staleAfter))}

structure LeaseSound (id : InboxId) (lease : Nat) (owner : LeaseOwner)
    (system : System (inboxMachine staleAfter)) : Prop where
  sound : InboxSound system
  copies : OneCopy id system.world
  inv : LeaseInv id lease owner system

theorem emptyInbox_leaseSound : LeaseSound id lease .undrawn (emptyInbox staleAfter) where
  sound := emptyInbox_sound
  copies := by
    refine ⟨fun left right first second _ _ _ _ stored => ?_, fun other drawn file stored => ?_⟩
    · cases stored
    · cases stored
  inv := by
    refine ⟨fun process call script running => ?_, fun drawn => absurd rfl drawn, False.elim⟩
    cases running

variable {leases : FileName → Prop}

theorem leaseSound_run (start : LeaseSound id lease owner system)
    (run : Trace (CarefulStep id leases) system labels next)
    (protects : leases (.processing id lease))
    (keeps : ∀ label ∈ labels, KeepsLease (.processing id lease) label) :
    ∃ later, LeaseSound id lease later next ∧ (owner = .ended → later = .ended) := by
  induction run with
  | nil => exact ⟨owner, start, fun ended => ended⟩
  | @snoc labels last label next earlier taken ih =>
    obtain ⟨middle, before, stays⟩ := ih fun label member =>
      keeps label (mem_append_left _ member)
    obtain ⟨later, inv, ended⟩ := leaseInv_step before.sound before.copies before.inv taken protects
      (keeps label (by simp))
    exact ⟨later, ⟨sound_step before.sound taken.1, oneCopy_step before.sound before.copies taken,
      inv⟩, fun isEnded => ended (stays isEnded)⟩

theorem leases_step {label : Label (inboxMachine staleAfter)} (sound : InboxSound system)
    (step : Step (inboxMachine staleAfter) system label next) (drawn : lease ∈ system.world.leases) :
    lease ∈ next.world.leases := by
  cases step with
  | start => exact drawn
  | @act process call action rest answer world running performed =>
    obtain ⟨known, -, obeys⟩ := sound.outlined process call _ running
    exact (performs_effect obeys.1 performed).leases drawn
  | finish | fail | crash => exact drawn
  | pass passed =>
    obtain ⟨later, -, rfl⟩ := passed
    exact drawn

/-- A number that nobody drew is the lease of no file, so no run touches it. -/
theorem undrawn_careful (sound : InboxSound system) (undrawn : lease ∉ system.world.leases)
    (step : CarefulStep id leases system label next) :
    CarefulStep id (· = .processing id lease) system label next ∧
      KeepsLease (.processing id lease) label := by
  refine ⟨⟨step.1, ?_⟩, ?_⟩
  · cases step.1 with
    | @act process call action rest answer world running performed =>
      cases action with
      | elapsed name modified =>
        rintro rfl
        obtain ⟨known, holds, obeys⟩ := sound.outlined process call _ running
        exact absurd (holds.leases lease obeys.1) undrawn
      | writeYaml name =>
        cases name with
        | pending => exact step.2
        | processing | done => trivial
      | tryExists | readYaml | readDir | modified | now | rename | lease | removeFile => trivial
    | start | finish | fail | crash | pass => trivial
  · cases step.1 with
    | @start process call idle admitted =>
      cases call with
      | acceptPulled | claimPending => trivial
      | ackClaimed | releaseClaimed =>
        intro isLease
        obtain ⟨drawn, isDrawn, same⟩ := admitted _ isLease
        cases same
        exact undrawn isDrawn
    | act | finish | fail | crash | pass => trivial

theorem undrawn_run (run : Trace (CarefulStep id leases) (emptyInbox staleAfter) labels system)
    (undrawn : lease ∉ system.world.leases) :
    Trace (CarefulStep id (· = .processing id lease)) (emptyInbox staleAfter) labels system ∧
      ∀ label ∈ labels, KeepsLease (.processing id lease) label := by
  induction run with
  | nil => exact ⟨Trace.nil _, by simp⟩
  | @snoc labels last label next earlier taken ih =>
    have sound := sound_run emptyInbox_sound (Trace.mono (fun taken => taken.1) earlier)
    have notBefore : lease ∉ last.world.leases := fun drawn =>
      undrawn (leases_step sound taken.1 drawn)
    obtain ⟨before, keeps⟩ := ih notBefore
    obtain ⟨careful, kept⟩ := undrawn_careful sound notBefore taken
    refine ⟨before.snoc careful, fun other member => ?_⟩
    rcases mem_concat member with isEarlier | rfl
    · exact keeps other isEarlier
    · exact kept

variable {claimed : List ClaimedInboxMessage} {process : Nat}

theorem claimed_owner (inv : LeaseInv id lease owner system)
    (step : Step (inboxMachine staleAfter) system
      (.finish process (.claimPending seen) (some claimed)) next) (member : item ∈ claimed) :
    (∃ drawn, item.leaseId = some (.processing item.message.id drawn)) ∧
      (item.leaseId = some (.processing id lease) → owner = .held process) := by
  cases step with
  | finish running =>
    obtain ⟨known, -, drew, obeys⟩ := inv.outlined process _ _ running
    have own := obeys item member
    exact ⟨own.1, fun isLease => drew (own.2 isLease)⟩

theorem claimed_lease (run : Trace (CarefulStep id leases) (emptyInbox staleAfter) labels system)
    (step : Step (inboxMachine staleAfter) system
      (.finish process (.claimPending seen) (some claimed)) next) (member : item ∈ claimed) :
    ∃ drawn, item.leaseId = some (.processing item.message.id drawn) := by
  obtain ⟨unused, undrawn⟩ := Infinite.exists_notMem_finset system.world.leases
  obtain ⟨careful, keeps⟩ := undrawn_run run undrawn
  obtain ⟨owner, leased, -⟩ := leaseSound_run emptyInbox_leaseSound careful rfl keeps
  exact (claimed_owner leased.inv step member).1

theorem returned_ended (start : LeaseSound id lease owner system)
    (returns : Step (inboxMachine staleAfter) system
      (.finish process (.claimPending seen) (some claimed)) next)
    (member : item ∈ claimed) (isLease : item.leaseId = some (.processing id lease)) :
    LeaseSound id lease .ended next := by
  have isOwner := (claimed_owner start.inv returns member).2 isLease
  have atEnd := start.inv.ended process
  rw [if_pos isOwner] at atEnd
  have sound := sound_step start.sound returns
  cases returns with
  | finish running => exact ⟨sound, start.copies, atEnd⟩

theorem clock_run (sound : InboxSound system)
    (run : Trace (Step (inboxMachine staleAfter)) system labels next) :
    system.world.clock ≤ next.world.clock := by
  induction run with
  | nil => exact le_rfl
  | snoc earlier taken ih => exact le_trans ih (clock_step (sound_run sound earlier) taken)

def CarefulUntil (deadline : Instant) (id : InboxId) (leases : FileName → Prop)
    (system : System (inboxMachine staleAfter)) (label : Label (inboxMachine staleAfter))
    (next : System (inboxMachine staleAfter)) : Prop :=
  Step (inboxMachine staleAfter) system label next ∧
    (system.world.clock < deadline → Careful id leases system label)

theorem careful_before (sound : InboxSound system)
    (run : Trace (CarefulUntil deadline id leases) system labels next)
    (inTime : next.world.clock < deadline) : Trace (CarefulStep id leases) system labels next := by
  induction run with
  | nil => exact Trace.nil _
  | @snoc labels last label next earlier taken ih =>
    have before := sound_run sound (Trace.mono (fun taken => taken.1) earlier)
    have inTimeBefore := lt_of_le_of_lt (clock_step before taken.1) inTime
    exact Trace.snoc (ih inTimeBefore) ⟨taken.1, taken.2 inTimeBefore⟩

def HasLease (item found : ClaimedInboxMessage) (name : FileName) : Prop :=
  item.leaseId = some name ∨ found.leaseId = some name

/-- A message that was claimed and not given back comes to no other claim before the lease is over,
if until then no age test finds the file of one of the two leases stale and the message is accepted
once. -/
theorem careful_run_keeps_lease {before between : List (Label (inboxMachine staleAfter))}
    {returned later last : System (inboxMachine staleAfter)} {process other : Nat}
    {seen otherSeen : List InboxId} {claimed again : List ClaimedInboxMessage}
    {item found : ClaimedInboxMessage}
    (run : Trace (CarefulUntil (system.world.clock + staleAfter) item.message.id
      (HasLease item found)) (emptyInbox staleAfter) before system)
    (returns : Step (inboxMachine staleAfter) system
      (.finish process (.claimPending seen) (some claimed)) returned)
    (isClaimed : item ∈ claimed)
    (goesOn : Trace (CarefulUntil (system.world.clock + staleAfter) item.message.id
      (HasLease item found)) returned between later)
    (comesBack : Step (inboxMachine staleAfter) later
      (.finish other (.claimPending otherSeen) (some again)) last)
    (isFound : found ∈ again) (sameMessage : found.message.id = item.message.id)
    (kept : ∀ label ∈ before ++ between, ∀ name, HasLease item found name →
      KeepsLease name label) :
    system.world.clock + staleAfter ≤ later.world.clock := by
  by_contra early
  have sound := sound_run emptyInbox_sound (Trace.mono (fun taken => taken.1) run)
  have returnedSound := sound_step sound returns
  have laterTime := not_le.mp early
  have monotone := le_trans (clock_step sound returns)
    (clock_run returnedSound (Trace.mono (fun taken => taken.1) goesOn))
  have carefulRun := careful_before emptyInbox_sound run (lt_of_le_of_lt monotone laterTime)
  have carefulBetween := careful_before returnedSound goesOn laterTime
  have wholeRun := (carefulRun.snoc ⟨returns, trivial⟩).append carefulBetween
  obtain ⟨lease, isLease⟩ := claimed_lease carefulRun returns isClaimed
  obtain ⟨otherLease, isOther⟩ := claimed_lease wholeRun comesBack isFound
  rw [sameMessage] at isOther
  obtain ⟨owner, start, -⟩ := leaseSound_run emptyInbox_leaseSound carefulRun (.inl isLease)
    fun label member => kept label (mem_append_left _ member) _ (.inl isLease)
  obtain ⟨laterOwner, laterSound, isOver⟩ := leaseSound_run
    (returned_ended start returns isClaimed isLease) carefulBetween (.inl isLease) fun label member => kept label (mem_append_right _ member) _ (.inl isLease)
  obtain ⟨otherOwner, otherSound, -⟩ := leaseSound_run emptyInbox_leaseSound wholeRun (.inr isOther)
    (by
      intro label member
      rcases mem_append.mp member with isBefore | isBetween
      · rcases mem_concat isBefore with isEarlier | rfl
        · exact kept label (mem_append_left _ isEarlier) _ (.inr isOther)
        · trivial
      · exact kept label (mem_append_right _ isBetween) _ (.inr isOther))
  have isOwner := (claimed_owner otherSound.inv comesBack isFound).2 isOther
  -- The files of both leases are still there, so the two are one lease, which is over.
  obtain ⟨file, stored⟩ := laterSound.inv.stored (by rw [isOver rfl]; trivial)
  obtain ⟨otherFile, otherStored⟩ := otherSound.inv.stored (by rw [isOwner]; trivial)
  have sameFile := laterSound.copies.unique (.processing item.message.id otherLease)
    (.processing item.message.id lease) otherFile file trivial trivial rfl rfl otherStored stored
  have isHeld := (claimed_owner laterSound.inv comesBack isFound).2 (by rw [isOther, sameFile])
  rw [isOver rfl] at isHeld
  cases isHeld

theorem finish_world
    (step : Step (inboxMachine staleAfter) system (.finish process call reply) next) :
    next.world = system.world := by
  cases step with
  | finish => rfl
  | fail => rfl

theorem acts_keep {process : Nat} {held : FileName}
    (acts : ∀ label ∈ labels, label.IsActOf process) : ∀ label ∈ labels, KeepsLease held label := by
  intro label isAct
  cases label with
  | start => exact (acts _ isAct).elim
  | act | finish | crash | pass => trivial

def sampleNames : List FileName := [.pending "inbox_1", .processing "inbox_1" 0]

def sampleAccepted : InboxDir :=
  afterCall 600 sampleNames (.acceptPulled sampleMessage) (emptyInbox 600).world

def sampleClaimed (clock : Instant) : InboxDir :=
  afterCall 600 sampleNames (.claimPending []) { sampleAccepted with clock := clock }

def sampleAgain : ClaimedInboxMessage := ⟨sampleMessage, some (.processing "inbox_1" 1)⟩

abbrev SampleStep : System (inboxMachine 600) → Label (inboxMachine 600) →
    System (inboxMachine 600) → Prop :=
  CarefulUntil 700 "inbox_1" (HasLease sampleClaim sampleAgain)

theorem sample_pass {dir : InboxDir} {later : Instant} (after : dir.clock ≤ later) :
    Trace SampleStep ⟨dir, fun _ => none⟩ [.pass] ⟨{ dir with clock := later }, fun _ => none⟩ :=
  Trace.single ⟨Step.pass ⟨later, after, rfl⟩, fun _ => trivial⟩

theorem sample_call (process : Nat) {call : InboxCall} {dir : InboxDir}
    (admitted : (inboxMachine 600).admits dir call)
    (meets : (inboxScript 600 call).Meets (respond sampleNames) (fun dir action =>
      dir.clock < 700 → CarefulAct 600 "inbox_1" (HasLease sampleClaim sampleAgain) dir action) dir) :
    ∃ acts, (∀ label ∈ acts, label.IsActOf process) ∧ Trace SampleStep ⟨dir, fun _ => none⟩
      (.start process call :: (acts ++
        [.finish process call ((inboxScript 600 call).eval (respond sampleNames) dir).1]))
      ⟨afterCall 600 sampleNames call dir, fun _ => none⟩ :=
  @guarded_call_run (inboxMachine 600) (respond sampleNames) process call
    (fun system label => system.world.clock < 700 →
      Careful "inbox_1" (HasLease sampleClaim sampleAgain) system label) _ respond_performs
    (fun _ _ => trivial) (fun _ _ _ may => may) (fun _ _ _ => trivial) ⟨dir, fun _ => none⟩ rfl
    admitted meets

/-- The message waits for a while, is claimed, is passed over by a claim that finds the lease young,
and comes back when the lease is over. -/
theorem careful_run_keeps_lease_stale :
    ∃ (before between : List (Label (inboxMachine 600))) (system returned later last : _),
      Trace SampleStep (emptyInbox 600) before system ∧ system.world.clock = 100 ∧
        Step (inboxMachine 600) system (.finish 1 (.claimPending []) (some [sampleClaim])) returned ∧
        Trace SampleStep returned between later ∧
        .finish 3 (.claimPending []) (some []) ∈ between ∧
        Step (inboxMachine 600) later (.finish 2 (.claimPending []) (some [sampleAgain])) last ∧
        system.world.clock + 600 ≤ later.world.clock := by
  obtain ⟨first, accepting, accept⟩ := @sample_call 1 (.acceptPulled sampleMessage)
    (emptyInbox 600).world trivial (by
      repeat refine And.intro (fun _ => trivial) ?_
      refine And.intro (fun _ _ name file _ _ stored => ?_) trivial
      cases stored)
  obtain ⟨second, claiming, claim⟩ := @sample_call 1 (.claimPending [])
    { sampleAccepted with clock := 100 } trivial (by
      repeat refine And.intro (fun _ => trivial) ?_
      trivial)
  obtain ⟨third, passing, passedOver⟩ := @sample_call 3 (.claimPending [])
    { sampleClaimed 100 with clock := 500 } trivial (by
      refine And.intro (fun _ => trivial) ?_
      refine And.intro (fun _ => trivial) ?_
      refine And.intro (fun _ _ => rfl) ?_
      repeat refine And.intro (fun _ => trivial) ?_
      trivial)
  obtain ⟨fourth, again, reclaim⟩ := @sample_call 2 (.claimPending [])
    { sampleClaimed 100 with clock := 700 } trivial (by
      repeat refine And.intro (fun early => absurd early (by decide)) ?_
      trivial)
  have claimed : Trace SampleStep ⟨{ sampleAccepted with clock := 100 }, fun _ => none⟩
      ((.start 1 (.claimPending []) :: second) ++
        [.finish 1 (.claimPending []) (some [sampleClaim])])
      ⟨sampleClaimed 100, fun _ => none⟩ := claim
  have nothing : Trace SampleStep ⟨{ sampleClaimed 100 with clock := 500 }, fun _ => none⟩
      (.start 3 (.claimPending []) :: (third ++ [.finish 3 (.claimPending []) (some [])]))
      ⟨{ sampleClaimed 100 with clock := 500 }, fun _ => none⟩ := passedOver
  have reclaimed : Trace SampleStep ⟨{ sampleClaimed 100 with clock := 700 }, fun _ => none⟩
      ((.start 2 (.claimPending []) :: fourth) ++
        [.finish 2 (.claimPending []) (some [sampleAgain])]) ⟨_, fun _ => none⟩ := reclaim
  obtain ⟨system, begun, returns⟩ := claimed.last_step
  obtain ⟨later, goesOn, comesBack⟩ := reclaimed.last_step
  have isClock : system.world.clock = 100 := by
    rw [← finish_world returns.1]
    rfl
  have deadline : system.world.clock + 600 = 700 := by
    rw [isClock]
    rfl
  have run := (accept.append (@sample_pass sampleAccepted 100 (by decide))).append begun
  have between := ((@sample_pass (sampleClaimed 100) 500 (by decide)).append nothing).append
    ((@sample_pass { sampleClaimed 100 with clock := 500 } 700 (by decide)).append goesOn)
  refine ⟨_, _, system, _, later, _, run, isClock, returns.1, between, by simp, comesBack.1, ?_⟩
  refine careful_run_keeps_lease (by rw [deadline]; exact run) returns.1 mem_cons_self
    (by rw [deadline]; exact between) comesBack.1 mem_cons_self rfl ?_
  intro label member name _
  simp only [mem_append, mem_cons, not_mem_nil, or_false, or_assoc] at member
  rcases member with rfl | isFirst | rfl | rfl | rfl | isSecond | rfl | rfl | isThird | rfl | rfl |
    rfl | isFourth
  any_goals trivial
  · exact acts_keep accepting label isFirst
  · exact acts_keep claiming label isSecond
  · exact acts_keep passing label isThird
  · exact acts_keep again label isFourth

/-- A message that waited for longer than the lease is claimed twice at once. -/
theorem lease_fails_on_old_message :
    ∃ (before between : List (Label (inboxMachine 600))) (system returned later last : _),
      Trace (Step (inboxMachine 600)) (emptyInbox 600) before system ∧
        Step (inboxMachine 600) system (.finish 1 (.claimPending []) (some [sampleClaim])) returned ∧
        Trace (Step (inboxMachine 600)) returned between later ∧
        Step (inboxMachine 600) later (.finish 2 (.claimPending []) (some [sampleAgain])) last ∧
        (∀ label ∈ before ++ between, ∀ name, KeepsLease name label) ∧
        later.world.clock < system.world.clock + 600 := by
  obtain ⟨first, accepting, accept⟩ := @call_run (inboxMachine 600) (respond sampleNames) 1
    (.acceptPulled sampleMessage) respond_performs (emptyInbox 600) rfl trivial
  obtain ⟨second, claiming, claim⟩ := @call_run (inboxMachine 600) (respond sampleNames) 1
    (.claimPending []) respond_performs
    ⟨{ sampleAccepted with clock := 1000 }, fun _ => none⟩ rfl trivial
  obtain ⟨third, reclaiming, reclaim⟩ := @call_run (inboxMachine 600) (respond sampleNames) 2
    (.claimPending []) respond_performs ⟨sampleClaimed 1000, fun _ => none⟩ rfl trivial
  have waited := accept.append
    (Trace.single (Step.pass ⟨1000, by decide, rfl⟩))
  have claimed : Trace (Step (inboxMachine 600)) ⟨{ sampleAccepted with clock := 1000 }, fun _ => none⟩
      ((.start 1 (.claimPending []) :: second) ++
        [.finish 1 (.claimPending []) (some [sampleClaim])])
      ⟨sampleClaimed 1000, fun _ => none⟩ := claim
  have again : Trace (Step (inboxMachine 600)) ⟨sampleClaimed 1000, fun _ => none⟩
      ((.start 2 (.claimPending []) :: third) ++
        [.finish 2 (.claimPending []) (some [sampleAgain])]) ⟨_, fun _ => none⟩ := reclaim
  obtain ⟨system, begun, returns⟩ := claimed.last_step
  obtain ⟨later, goesOn, comesBack⟩ := again.last_step
  refine ⟨_, _, system, _, later, _, waited.append begun, returns, goesOn, comesBack, ?_, ?_⟩
  · intro label member name
    simp only [mem_append, mem_cons, not_mem_nil, or_false, or_assoc] at member
    rcases member with rfl | isFirst | rfl | rfl | rfl | isSecond | rfl | isThird
    any_goals trivial
    · exact acts_keep accepting label isFirst
    · exact acts_keep claiming label isSecond
    · exact acts_keep reclaiming label isThird
  · rw [← finish_world returns, ← finish_world comesBack]
    decide

end AgentClaimNetwork.Agent
