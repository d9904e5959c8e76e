import AgentClaimNetwork.Agent.LocalInbox

/-!
What the calls on the inbox directory may do: a payload is removed only by a process that knows
the message to be done or has just seen it pending.
-/

namespace AgentClaimNetwork.Agent

open Library Interleaving List
open Maintainer (InboxId InboxMessage)

structure InboxKnowledge where
  done : Set InboxId
  leases : Set Nat
  seen : Set InboxId
  sawPending : Option InboxId

def InboxKnowledge.learn (known : InboxKnowledge) :
    (action : FileAction) → FileAnswer action → InboxKnowledge
  | .tryExists (.done id), true =>
    { known with done := insert id known.done, seen := insert id known.seen, sawPending := none }
  | .tryExists (.pending id), true =>
    { known with seen := insert id known.seen, sawPending := some id }
  | .tryExists (.processing id _), true =>
    { known with seen := insert id known.seen, sawPending := none }
  | .readYaml name, some _ => { known with seen := insert name.id known.seen, sawPending := none }
  | .readDir, names =>
    { known with
      leases := known.leases ∪ { lease | ∃ id, FileName.processing id lease ∈ names }
      sawPending := none }
  | .writeYaml (.done id) _, _ =>
    { known with done := insert id known.done, seen := insert id known.seen, sawPending := none }
  | .writeYaml (.pending id) _, _ =>
    { known with seen := insert id known.seen, sawPending := none }
  | _, _ => { known with sawPending := none }

def InboxKnowledge.allows (known : InboxKnowledge) : FileAction → Prop
  | .removeFile (.pending id) => id ∈ known.done
  | .removeFile (.processing id lease) =>
    lease ∈ known.leases ∧ (id ∈ known.done ∨ known.sawPending = some id)
  | .removeFile (.done _) => False
  | .rename source target => ∃ id lease, source = .processing id lease ∧ target = .pending id
  | .lease source id => source = .pending id
  | .writeYaml name message => message.id = name.id ∧ ∀ id lease, name ≠ .processing id lease
  | .elapsed (.processing _ lease) _ => lease ∈ known.leases
  | .elapsed _ _ | .tryExists _ | .readYaml _ | .readDir | .modified _ | .now => True

def inboxOutline : Outline FileAction FileAnswer InboxKnowledge where
  learn := InboxKnowledge.learn
  allowed := InboxKnowledge.allows
  possible := fun _ action answer =>
    match action, answer with
    | .readYaml name, some message => message.id = name.id
    | _, _ => True
variable {lease : Nat}

theorem learn_leases {known : InboxKnowledge}
    (drawn : lease ∈ known.leases) : lease ∈ (inboxOutline.learn known action answer).leases := by
  show lease ∈ (known.learn action answer).leases
  unfold InboxKnowledge.learn
  split
  all_goals first | exact drawn | exact .inl drawn

variable {known : InboxKnowledge} {Result : Type} {post : InboxKnowledge → Result → Prop}

def InboxKnowledge.Knows (known : InboxKnowledge) : FileName → Prop
  | .processing _ lease => lease ∈ known.leases
  | .pending _ | .done _ => True

theorem learn_knows (knows : known.Knows name) :
    (inboxOutline.learn known action answer).Knows name := by
  cases name with
  | processing id lease => exact learn_leases knows
  | pending id => trivial
  | done id => trivial
variable {path : FileName}

theorem obeys_removeFile (may : known.allows (.removeFile path)) :
    (removeFile path).Obeys inboxOutline (fun _ _ => True) known :=
  ⟨may, fun _ _ => Script.Obeys.require fun _ => trivial⟩

theorem obeys_readYaml {path : FileName} {kept : InboxKnowledge → Prop}
    (stable : ∀ known action answer, kept known → kept (inboxOutline.learn known action answer))
    (holds : kept known) :
    (readYaml path).Obeys inboxOutline
      (fun known message => kept known ∧ message.id = path.id ∧ path.id ∈ known.seen) known := by
  refine And.intro trivial fun found can => ?_
  cases found with
  | none => trivial
  | some message =>
    exact ⟨stable known (.readYaml path) (some message) holds, can, Set.mem_insert _ _⟩

variable {id : InboxId}

theorem obeys_recoverMessage (isId : message.id = id) (knows : lease ∈ known.leases) :
    (recoverMessage (.processing id lease) message).Obeys inboxOutline (fun _ _ => True) known := by
  subst isId
  refine And.intro trivial fun done _ => ?_
  cases done with
  | true => exact obeys_removeFile ⟨knows, .inl (Set.mem_insert _ _)⟩
  | false =>
    refine And.intro trivial fun active _ => ?_
    cases active with
    | true => exact obeys_removeFile ⟨knows, .inr rfl⟩
    | false => exact And.intro ⟨message.id, lease, rfl, rfl⟩ fun _ _ => trivial

theorem obeys_recoverFile (knows : lease ∈ known.leases) :
    (recoverFile staleAfter (.processing id lease)).Obeys inboxOutline (fun _ _ => True) known := by
  refine And.intro trivial fun found _ => ?_
  cases found with
  | none => trivial
  | some modifiedAt =>
    refine And.intro (learn_leases knows) fun readAt _ => ?_
    show Script.Obeys _ _ _ (if isStale staleAfter modifiedAt readAt then _ else _)
    split
    · refine And.intro trivial fun content can => ?_
      cases content with
      | none => trivial
      | some message => exact obeys_recoverMessage can knows
    · trivial

theorem obeys_recoverStaleProcessing :
    (recoverStaleProcessing staleAfter).Obeys inboxOutline (fun _ _ => True) known := by
  refine And.intro trivial fun names _ => ?_
  have loop := @Script.Obeys.forEach FileAction FileAnswer FileName InboxKnowledge inboxOutline
    (inboxOutline.learn known .readDir names) (fun known => ∀ name ∈ names, known.Knows name) names
    (fun name => match name with
      | .processing _ _ => recoverFile staleAfter name
      | .pending _ | .done _ => pure ()) ?_ ?_
  · exact loop.weaken fun _ _ _ => trivial
  · intro name member known knows
    cases name with
    | processing id lease =>
      refine ((obeys_recoverFile (knows _ member)).keep ?_ knows).weaken fun _ _ holds => holds.2
      exact fun known action answer knows other among => learn_knows (knows other among)
    | pending id | done id => exact knows
  · intro name member
    cases name with
    | processing id lease => exact .inr ⟨id, member⟩
    | pending id => trivial
    | done id => trivial

theorem obeys_scanFile {id : InboxId} : (scanFile (.pending id)).Obeys inboxOutline
      (fun _ found => ∀ item, found = some item → item.path = .pending item.message.id) known := by
  refine Script.Obeys.bind (@obeys_readYaml known (.pending id) (fun _ => True)
    (fun _ _ _ _ => trivial) trivial) ?_
  rintro known message ⟨-, isId, -⟩
  have isName : message.id = id := isId
  subst isName
  refine And.intro trivial fun done _ => ?_
  cases done with
  | true =>
    show Script.Obeys _ _ _ (removeFile _ >>= fun _ => pure none)
    refine Script.Obeys.bind (obeys_removeFile (Set.mem_insert _ _)) fun _ _ _ => ?_
    intro item found
    cases found
  | false =>
    refine And.intro trivial fun found _ => ?_
    cases found with
    | none => trivial
    | some modifiedAt =>
      intro item isItem
      cases isItem
      rfl

/-- A claim reads the pending files only: what each of them gives, the scan gives. -/
theorem obeys_scanPending {Knowledge : Type} {outline : Outline FileAction FileAnswer Knowledge}
    {known : Knowledge} {good : PendingInboxMessage → Prop} {names : List FileName}
    (each : ∀ id known, (scanFile (.pending id)).Obeys outline
      (fun _ found => ∀ item, found = some item → good item) known) :
    (Script.gather names fun name => match name with
      | .pending _ => scanFile name
      | .processing _ _ | .done _ => pure none).Obeys outline
        (fun _ found => ∀ item ∈ found, good item) known := by
  refine (@Script.Obeys.gather _ _ _ _ _ outline known (fun _ => True) (fun _ => good) _ _
    (fun _ _ _ _ holds => holds) (fun name _ known _ => ?_) trivial).weaken fun _ _ both => both.2
  cases name with
  | pending id => exact (each id known).weaken fun _ _ holds => ⟨trivial, holds⟩
  | processing id lease | done id => exact ⟨trivial, fun _ none => by cases none⟩

theorem obeys_claimPending :
    (claimPending staleAfter seen).Obeys inboxOutline (fun _ _ => True) known := by
  refine Script.Obeys.bind obeys_recoverStaleProcessing fun known _ _ => ?_
  refine And.intro trivial fun names _ => ?_
  show Script.Obeys _ _ _ (Script.gather names _ >>= _)
  refine Script.Obeys.bind (obeys_scanPending fun _ _ => obeys_scanFile)
    fun known pending collected => ?_
  have claims := @Script.Obeys.gather FileAction FileAnswer ClaimedInboxMessage
    PendingInboxMessage InboxKnowledge inboxOutline known (fun _ => True) (fun _ _ => True)
    ((pending.insertionSort pendingBefore).filter fun item => item.message.id ∉ seen) claimItem
    (fun _ _ _ _ good => good) ?_ trivial
  · exact claims.weaken fun _ _ _ => trivial
  · intro item member known _
    have among := mem_of_mem_filter member
    rw [mem_insertionSort] at among
    exact And.intro (collected item among) fun _ _ => ⟨trivial, fun _ _ => trivial⟩

theorem obeys_finishMessage {path : FileName} (knows : known.Knows path)
    (undone : ∀ id, path ≠ .done id) :
    (finishMessage path.id path).Obeys inboxOutline (fun _ _ => True) known := by
  refine Script.Obeys.bind (@obeys_readYaml known path (fun known => known.Knows path)
    (fun _ action answer knows => learn_knows knows) knows) ?_
  rintro known message ⟨knows, isId, -⟩
  refine And.intro trivial fun handledAt _ => ?_
  refine And.intro ⟨isId, fun _ _ => by simp⟩ fun _ _ => obeys_removeFile ?_
  cases path with
  | pending id => exact Set.mem_insert _ _
  | processing id lease => exact ⟨knows, .inl (Set.mem_insert _ _)⟩
  | done id => exact absurd rfl (undone id)

theorem obeys_ack {id : InboxId} : (ack id).Obeys inboxOutline (fun _ _ => True) known := by
  refine And.intro trivial fun active _ => ?_
  cases active with
  | true => exact @obeys_finishMessage _ (.pending id) trivial fun _ => by simp
  | false => trivial

theorem obeys_ackClaimed (issued : ∀ name, claimed.leaseId = some name →
      ∃ lease ∈ known.leases, name = .processing claimed.message.id lease) :
    (ackClaimed claimed).Obeys inboxOutline (fun _ _ => True) known := by
  unfold ackClaimed
  split
  · exact obeys_ack
  · rename_i processing isLease
    obtain ⟨lease, drawn, rfl⟩ := issued processing isLease
    refine And.intro trivial fun held _ => ?_
    cases held with
    | true => exact @obeys_finishMessage _ (.processing claimed.message.id lease) drawn fun _ => by simp
    | false =>
      refine And.intro trivial fun done _ => ?_
      cases done with
      | true => trivial
      | false => exact obeys_ack

theorem obeys_releaseClaimed (issued : ∀ name, claimed.leaseId = some name →
      ∃ lease ∈ known.leases, name = .processing claimed.message.id lease) :
    (releaseClaimed claimed).Obeys inboxOutline (fun _ _ => True) known := by
  unfold releaseClaimed
  split
  · trivial
  · rename_i processing isLease
    obtain ⟨lease, drawn, rfl⟩ := issued processing isLease
    refine And.intro trivial fun done _ => ?_
    cases done with
    | true =>
      refine And.intro trivial fun held _ => ?_
      cases held with
      | true => exact obeys_removeFile ⟨drawn, .inl (Set.mem_insert _ _)⟩
      | false => trivial
    | false =>
      refine And.intro trivial fun held _ => ?_
      cases held with
      | false => trivial
      | true =>
        refine And.intro trivial fun active _ => ?_
        cases active with
        | true => trivial
        | false =>
          refine And.intro ⟨claimed.message.id, lease, rfl, rfl⟩ fun moved _ => ?_
          exact Script.Obeys.require fun _ => trivial

theorem existingPaths_id (member : path ∈ existingPaths id done active names) : path.id = id := by
  simp only [existingPaths, mem_append, mem_filter] at member
  rcases member with (inDone | inActive) | ⟨-, ofId⟩
  · cases done with
    | true =>
      rw [mem_singleton.mp inDone]
      rfl
    | false => simp at inDone
  · cases active with
    | true =>
      rw [mem_singleton.mp inActive]
      rfl
    | false => simp at inActive
  · cases path with
    | processing other lease => simpa [FileName.id] using ofId
    | pending other | done other => simp at ofId

theorem obeys_acceptPulled :
    (acceptPulled message).Obeys inboxOutline (fun known _ => message.id ∈ known.seen) known := by
  refine And.intro trivial fun done _ => ?_
  refine And.intro trivial fun active _ => ?_
  refine And.intro trivial fun names _ => ?_
  show Script.Obeys _ _ _ (if existingPaths message.id done active names = [] then _ else _)
  split
  · exact And.intro ⟨rfl, fun _ _ => by simp⟩ fun _ _ => Set.mem_insert _ _
  · rename_i some
    obtain ⟨first, rest, isList⟩ := exists_cons_of_ne_nil some
    have ofId : ∀ path ∈ first :: rest, path.id = message.id := by
      rw [← isList]
      exact fun path member => existingPaths_id member
    rw [isList]
    have snapshot : ∀ path ∈ first :: rest, ∀ known, (ensureExistingInboxSnapshot path message).Obeys
        inboxOutline (fun known _ => message.id ∈ known.seen) known := by
      intro path member known
      refine Script.Obeys.bind (@obeys_readYaml known path (fun _ => True)
        (fun _ _ _ _ => trivial) trivial) ?_
      rintro known actual ⟨-, -, seen⟩
      rw [ofId path member] at seen
      exact Script.Obeys.require fun _ => seen
    refine Script.Obeys.bind (snapshot first mem_cons_self _) fun known _ seen => ?_
    refine Script.Obeys.forEach ?_ seen
    exact fun path member known _ => snapshot path (mem_cons_of_mem _ member) known

def callPost : InboxCall → InboxKnowledge → List ClaimedInboxMessage → Prop
  | .acceptPulled message, known, _ => message.id ∈ known.seen
  | .claimPending _, _, _ | .ackClaimed _, _, _ | .releaseClaimed _, _, _ => True

def callKnowledge (dir : InboxDir) : InboxKnowledge where
  done := ∅
  leases := { lease | lease ∈ dir.leases }
  seen := ∅
  sawPending := none

theorem obeys_inboxScript
    (admitted : (inboxMachine staleAfter).admits dir call) :
    (inboxScript staleAfter call).Obeys inboxOutline (callPost call) (callKnowledge dir) := by
  cases call with
  | acceptPulled message =>
    exact Script.Obeys.bind obeys_acceptPulled fun _ _ seen => seen
  | claimPending seen => exact obeys_claimPending
  | ackClaimed claimed =>
    exact Script.Obeys.bind (obeys_ackClaimed admitted) fun _ _ _ => trivial
  | releaseClaimed claimed =>
    exact Script.Obeys.bind (obeys_releaseClaimed admitted) fun _ _ _ => trivial

end AgentClaimNetwork.Agent
