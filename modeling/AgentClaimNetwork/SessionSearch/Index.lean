import AgentClaimNetwork.SessionSearch.Render
import AgentClaimNetwork.Library.NumberedRows

/-!
The search index of `src/session_search/index.rs`: its rows, their incremental and complete
rewrite, and the repair.  A transaction is done as a whole or not at all.
-/

namespace AgentClaimNetwork.SessionSearch

open Library Session

def indexVersion : String := "session_search_v3"

/-- A row of `messages`. -/
structure MessageRow (Stamp : Type) where
  messageIndex : Nat
  role : SessionMessageRole
  model : Text
  contentText : Text
  createdAt : Stamp
deriving DecidableEq

/-- A row of `messages_fts` or `messages_fts_trigram`. -/
structure FtsRow where
  messageIndex : Nat
  role : SessionMessageRole
  contentText : Text
deriving DecidableEq

/-- A row of `indexed_sessions`. -/
structure IndexedStamp where
  messageCount : Nat
  indexVersion : Option String

structure SessionIndex (Stamp : Type) where
  session : Bool
  messages : Multiset (MessageRow Stamp)
  fts : Multiset FtsRow
  trigram : Multiset FtsRow
  indexed : Option IndexedStamp

structure SessionDiskData (Stamp Replay : Type) where
  agentId : String
  messageCount : Nat
  messages : List (SessionMessage Stamp Replay)
  numbered : Numbered SessionMessage.index 0 messages

variable {Stamp Replay : Type}

def messageRow (message : SessionMessage Stamp Replay) (contentText : Text) : MessageRow Stamp :=
  ⟨message.index, message.role, message.model, contentText, message.createdAt⟩

def ftsRow (message : SessionMessage Stamp Replay) (contentText : Text) : FtsRow :=
  ⟨message.index, message.role, contentText⟩

def messageRows (messages : List (SessionMessage Stamp Replay)) : List (MessageRow Stamp) :=
  List.zipWith messageRow messages (searchableTextsForMessages messages)

def ftsRows (messages : List (SessionMessage Stamp Replay)) : List FtsRow :=
  List.zipWith ftsRow messages (searchableTextsForMessages messages)

namespace SessionIndex

def deleteRows : SessionIndex Stamp := ⟨false, 0, 0, 0, none⟩

def upsertSessionRows (index : SessionIndex Stamp) (messages : List (SessionMessage Stamp Replay))
    (start : Nat) : SessionIndex Stamp where
  session := true
  messages := ((messageRows messages).filter fun row => start ≤ row.messageIndex).foldl
    (upsertRow MessageRow.messageIndex) (index.messages.filter fun row => row.messageIndex < start)
  fts := index.fts.filter (fun row => row.messageIndex < start) +
    ((ftsRows messages).filter fun row => start ≤ row.messageIndex : List FtsRow)
  trigram := index.trigram.filter (fun row => row.messageIndex < start) +
    ((ftsRows messages).filter fun row => start ≤ row.messageIndex : List FtsRow)
  indexed := some ⟨messages.length, some indexVersion⟩

def sessionIndexComplete (index : SessionIndex Stamp) (expected : Nat) : Bool :=
  decide (index.messages.card = expected) && decide (index.fts.card = expected) &&
    decide (index.trigram.card = expected) &&
    decide ((index.indexed.bind IndexedStamp.indexVersion) = some indexVersion)

end SessionIndex

inductive IndexWrite
  | upsert (start : Nat)
  | rebuild

def IndexWrite.apply (write : IndexWrite) (index : SessionIndex Stamp)
    (messages : List (SessionMessage Stamp Replay)) : SessionIndex Stamp :=
  match write with
  | .upsert start => index.upsertSessionRows messages start
  | .rebuild => SessionIndex.deleteRows.upsertSessionRows messages 0

section

variable (index : SessionIndex Stamp) (messages : List (SessionMessage Stamp Replay))

/-- The choice of `best_effort_index_session_from_files`, where `extension` is the start of an
incremental run after that many messages, and of `repair_one_session`. -/
def chooseWrite (extension : Nat → Nat) : Option IndexWrite :=
  match index.indexed with
  | none => some (.upsert 0)
  | some stamp =>
    if messages.length < stamp.messageCount then some .rebuild
    else if stamp.messageCount < messages.length then some (.upsert (extension stamp.messageCount))
    else if index.sessionIndexComplete stamp.messageCount then none
    else some .rebuild

def bestEffortWrite (preferredStartIndex : Nat) : Option IndexWrite :=
  chooseWrite index messages fun count => min count preferredStartIndex

def repairOneSession : Option IndexWrite :=
  chooseWrite index messages id

end

structure IndexedSession (Stamp Replay : Type) where
  id : String
  disk : Option (SessionDiskData Stamp Replay)
  index : SessionIndex Stamp

inductive RepairWarning
  | metadataSkipped (id : String)
  | countSkipped (id : String)
  | dataSkipped (id : String)
  | countMismatch (id : String) (metadata messages : Nat)
  | repairSkipped (id : String)

structure RepairFaults where
  metadata : Bool
  count : Bool
  data : Bool
  transaction : Bool

namespace IndexedSession

def purgeOrphaned (session : IndexedSession Stamp Replay) : IndexedSession Stamp Replay :=
  if session.disk.isNone && session.index.session then
    { session with index := SessionIndex.deleteRows }
  else session

/-- The turn of one session directory in `repair_index_for_agent`. -/
def repair (agentId : String) (current : Option String) (faults : RepairFaults)
    (session : IndexedSession Stamp Replay) : IndexedSession Stamp Replay × List RepairWarning :=
  match session.disk with
  | none => (session, [])
  | some data =>
    if current = some session.id then (session, [])
    else if faults.metadata then (session, [.metadataSkipped session.id])
    else if data.agentId ≠ agentId then (session, [])
    else if faults.count then (session, [.countSkipped session.id])
    else if faults.data then (session, [.dataSkipped session.id])
    else
      let mismatch := if data.messageCount ≠ data.messages.length then
        [.countMismatch session.id data.messageCount data.messages.length] else []
      match repairOneSession session.index data.messages with
      | none => (session, mismatch)
      | some write =>
        if faults.transaction then (session, mismatch ++ [.repairSkipped session.id])
        else ({ session with index := write.apply session.index data.messages }, mismatch)

end IndexedSession

def repairIndexForAgent (agentId : String) (current : Option String) (faults : String → RepairFaults)
    (sessions : List (IndexedSession Stamp Replay)) :
    List (IndexedSession Stamp Replay) × List RepairWarning :=
  let repaired := sessions.map fun session =>
    session.purgeOrphaned.repair agentId current (faults session.id)
  (repaired.map Prod.fst, repaired.flatMap Prod.snd)

theorem storedMessages_numbered (start : Nat) (messages : List (NewSessionMessage Stamp Replay)) :
    Numbered SessionMessage.index start (storedMessages start messages) := by
  induction messages generalizing start with
  | nil => trivial
  | cons message rest ih => exact ⟨rfl, ih (start + 1)⟩

def SessionDiskData.append (data : SessionDiskData Stamp Replay)
    (messages : List (NewSessionMessage Stamp Replay)) (counted : Bool) :
    SessionDiskData Stamp Replay where
  agentId := data.agentId
  messageCount := if counted then data.messages.length + messages.length else data.messageCount
  messages := data.messages ++ storedMessages data.messages.length messages
  numbered := data.numbered.append (by simpa using storedMessages_numbered _ messages)

inductive IndexAction (Stamp Replay : Type)
  | append (id : String) (messages : List (NewSessionMessage Stamp Replay)) (counted : Bool)
  | index (id : String) (preferredStartIndex : Nat) (failed : Bool)
  | purge (id : String)
  | repair (agentId : String) (current : Option String) (faults : String → RepairFaults)

def IndexAction.write? (action : IndexAction Stamp Replay) (session : IndexedSession Stamp Replay)
    (data : SessionDiskData Stamp Replay) : Option IndexWrite :=
  match action with
  | .append _ _ _ => none
  | .purge _ => none
  | .index id preferredStartIndex failed =>
    if session.id = id ∧ failed = false then
      bestEffortWrite session.index data.messages preferredStartIndex
    else none
  | .repair agentId current faults =>
    if current = some session.id ∨ (faults session.id).metadata ∨ data.agentId ≠ agentId ∨
        (faults session.id).count ∨ (faults session.id).data ∨ (faults session.id).transaction then
      none
    else repairOneSession session.index data.messages

def IndexedSession.act (session : IndexedSession Stamp Replay)
    (action : IndexAction Stamp Replay) : IndexedSession Stamp Replay :=
  match action with
  | .append id messages counted =>
    if session.id = id then
      { session with disk := session.disk.map fun data => data.append messages counted }
    else session
  | .index _ _ _ =>
    match session.disk with
    | none => session
    | some data =>
      match action.write? session data with
      | none => session
      | some write => { session with index := write.apply session.index data.messages }
  | .purge id => if session.id = id then { session with index := SessionIndex.deleteRows } else session
  | .repair agentId current faults =>
    (session.purgeOrphaned.repair agentId current (faults session.id)).1

end AgentClaimNetwork.SessionSearch
