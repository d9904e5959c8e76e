import AgentClaimNetwork.Library.Trace
import AgentClaimNetwork.Router.VectorStore

/-!
Publications, searches, intent recovery and any number of workers at the vector files of one
claim.  A worker is one call of `process_pending_queue`.
-/

namespace AgentClaimNetwork.Router

open Library Durable

inductive TaskPhase
  | waiting
  | embedding (searchText : Text)
  /-- `none` is an error. -/
  | finished (outcome : Option QueueEntryOutcome)

structure VectorTask (Fingerprint Stamp : Type) where
  entry : VectorQueueEntry Fingerprint Stamp
  phase : TaskPhase

structure VectorWorker (Fingerprint Stamp : Type) where
  fingerprint : Fingerprint
  batch : Nat
  tasks : List (VectorTask Fingerprint Stamp)

/-- `returned` is what embedding clients have returned for which text. -/
structure VectorSystem (Fingerprint Scalar Stamp : Type) where
  store : VectorStore Fingerprint Scalar Stamp
  workers : List (VectorWorker Fingerprint Stamp)
  returned : List (Fingerprint × Text × List Scalar)

inductive VectorLabel (Fingerprint Scalar Stamp : Type)
  | publish (document : RetrievalDocument) (fingerprint : Option Fingerprint) (now : Stamp)
      (fates : List Fate)
  | requeueExpected (fingerprint : Fingerprint) (expectedContentHash : Text)
      (queryDimensions : Nat) (now : Stamp) (fates : List Fate)
  | requeueMismatch (fingerprint : Fingerprint) (expectedContentHash : Text)
      (queryDimensions : Nat) (now : Stamp) (fates : List Fate)
  | recoverIntent (fingerprint : Fingerprint) (now : Stamp) (fates : List Fate)
  | drain (fingerprint : Fingerprint) (name : Nat) (fates : List Fate)
  | prepare (worker task : Nat) (now later : Stamp) (fates : List Fate)
  | complete (worker task : Nat) (embedded : Except Text (List Scalar)) (completedAt now : Stamp)
      (fates : List Fate)
  | finish (worker : Nat) (fates : List Fate)
  | crash (worker : Nat)

def VectorTask.retries {Fingerprint Stamp : Type} (task : VectorTask Fingerprint Stamp) : Bool :=
  match task.phase with
  | .finished none | .finished (some .requeueForMatchingWorker) => true
  | _ => false

def VectorTask.isFinished {Fingerprint Stamp : Type} (task : VectorTask Fingerprint Stamp) : Bool :=
  match task.phase with
  | .finished _ => true
  | _ => false

variable {Fingerprint Scalar Stamp : Type} [DecidableEq Fingerprint] [LinearOrder Stamp]

namespace VectorSystem

def initial : VectorSystem Fingerprint Scalar Stamp := ⟨.empty, [], []⟩

def held (system : VectorSystem Fingerprint Scalar Stamp) : List Nat :=
  system.workers.map (·.batch)

def setPhase (worker : VectorWorker Fingerprint Stamp) (task : Nat) (phase : TaskPhase) :
    VectorWorker Fingerprint Stamp :=
  { worker with tasks := worker.tasks.modify task fun task => { task with phase } }

def settle {Result : Type} (system : VectorSystem Fingerprint Scalar Stamp) (worker task : Nat)
    (ended : Outcome (VectorStore Fingerprint Scalar Stamp) Result) (phase : Result → TaskPhase) :
    VectorSystem Fingerprint Scalar Stamp :=
  match ended with
  | .value result store _ =>
    { system with
      store
      workers := system.workers.modify worker fun worker =>
        setPhase worker task (phase result) }
  | .error store _ =>
    { system with
      store
      workers := system.workers.modify worker fun worker =>
        setPhase worker task (.finished none) }
  | .stopped store => { system with store, workers := system.workers.eraseIdx worker }

variable (runtime : VectorRuntime Scalar Stamp) (dimensionError : Nat → Nat → Text)

def apply (system : VectorSystem Fingerprint Scalar Stamp) :
    VectorLabel Fingerprint Scalar Stamp → Option (VectorSystem Fingerprint Scalar Stamp)
  | .publish document fingerprint now fates => some
      { system with
        store := (ensureRetrievalTargetLocked runtime system.held document fingerprint now
          system.store fates).store }
  | .requeueExpected fingerprint expectedContentHash queryDimensions now fates => some
      { system with
        store := (requeueExpectedDimensionChange runtime system.held fingerprint
          expectedContentHash queryDimensions now system.store fates).store }
  | .requeueMismatch fingerprint expectedContentHash queryDimensions now fates => some
      { system with
        store := (requeueDimensionMismatch runtime system.held fingerprint expectedContentHash
          queryDimensions now system.store fates).store }
  | .recoverIntent fingerprint now fates => some
      { system with
        store := (recoverVectorTargetIntent runtime system.held fingerprint now system.store
          fates).store }
  | .drain fingerprint name fates =>
    match drainQueueEntries system.held name system.store fates with
    | .value (some entries) store _ => some
        { system with
          store
          workers := system.workers ++
            [⟨fingerprint, name, entries.map fun entry => ⟨entry, .waiting⟩⟩] }
    | ended => some { system with store := ended.store }
  | .prepare index task now later fates =>
    match system.workers[index]? with
    | none => none
    | some worker =>
      match worker.tasks[task]? with
      | some ⟨entry, .waiting⟩ => some (settle system index task
          (prepareQueueEntry runtime worker.fingerprint entry now later system.store fates)
          fun result => match result with
            | .inl outcome => .finished (some outcome)
            | .inr searchText => .embedding searchText)
      | _ => none
  | .complete index task embedded completedAt now fates =>
    match system.workers[index]? with
    | none => none
    | some worker =>
      match worker.tasks[task]? with
      | some ⟨entry, .embedding searchText⟩ =>
        let answered := match embedded with
          | .ok vector =>
            { system with
              returned := system.returned ++ [(worker.fingerprint, searchText, vector)] }
          | .error _ => system
        some (settle answered index task
          (completeQueueEntry runtime worker.fingerprint entry embedded dimensionError
            completedAt now system.store fates)
          fun outcome => .finished (some outcome))
      | _ => none
  | .finish index fates =>
    match system.workers[index]? with
    | none => none
    | some worker =>
      if worker.tasks.all VectorTask.isFinished then some
        { system with
          store := (finishInFlightQueue worker.batch
            ((worker.tasks.filter VectorTask.retries).map (·.entry)) system.store fates).store
          workers := system.workers.eraseIdx index }
      else none
  | .crash index => some { system with workers := system.workers.eraseIdx index }

end VectorSystem

abbrev VectorRun (runtime : VectorRuntime Scalar Stamp) (dimensionError : Nat → Nat → Text)
    (labels : List (VectorLabel Fingerprint Scalar Stamp))
    (system : VectorSystem Fingerprint Scalar Stamp) : Prop :=
  Trace (fun earlier label later => earlier.apply runtime dimensionError label = some later)
    .initial labels system

end AgentClaimNetwork.Router
