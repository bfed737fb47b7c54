import ComponentHost.World

/-! # Coordination of transactions

  A scope is a unit of work between its entry and its end. On entry the propagation of its
  definition and the current transaction decide how it takes part:

  - without a transaction, `required`, `requiresNew` and `nested` begin one and own it,
    `mandatory` fails, and the others run without;
  - within one, `required`, `supports` and `mandatory` join it, `requiresNew` suspends it and owns
    another, `nested` sets a savepoint in it, `notSupported` suspends it and runs without, and
    `never` fails.

  On its end an owner commits or rolls back, a joined scope marks the transaction for rollback if it
  failed, a nested scope gives up its savepoint or goes back to it, and a suspended transaction is
  taken up again. A scope that is refused on entry makes no context.
-/

namespace ComponentHost

/-- How a scope takes part in transactions. -/
inductive Participation
  /-- It began the transaction and ends it; another one may lie suspended meanwhile. -/
  | owner (transaction : TxId) (suspended : Option TxId)
  /-- It runs in a transaction that another scope ends. -/
  | joined (transaction : TxId)
  /-- It runs in a transaction behind a savepoint; the mark for rollback was this before. -/
  | nested (transaction : TxId) (savepoint : String) (rollbackOnly : Bool)
  /-- It runs without a transaction; one may lie suspended meanwhile. -/
  | apart (suspended : Option TxId)
  deriving Repr, DecidableEq

namespace Participation

def transaction : Participation → Option TxId
  | owner t _ | joined t | nested t _ _ => some t
  | apart _ => none

def suspended : Participation → Option TxId
  | owner _ s | apart s => s
  | joined _ | nested _ _ _ => none

def isOwner : Participation → Bool
  | owner _ _ => true
  | _ => false

def name : Participation → String
  | owner _ _ => "NewTransaction"
  | joined _ => "Joined"
  | nested _ _ _ => "Nested"
  | apart _ => "NonTransactional"

end Participation

/-- A scope that has been entered and not ended. -/
structure TransactionScope where
  /-- How it takes part in transactions. -/
  participation : Participation
  /-- The context that its code runs in. -/
  context : ContextId
  deriving Repr, DecidableEq

/-- Coordinates the transactions of one resource. -/
structure Coordinator where
  resource : ResourceId := .main
  /-- What happens when a scope joins a transaction whose isolation it did not ask for. -/
  policy : IsolationPolicy := .inherit
  /-- What the names of savepoints start with. -/
  savepointPrefix : String := "SAVEPOINT_"
  deriving Repr, DecidableEq

namespace Coordinator

open World

/-! ## Entry -/

def start (k : Coordinator) (d : TransactionDefinition) : Hosted TxId := do
  let t ← addTransaction d
  call k.resource (.begin t)
  return t

def isolationOf (w : World) (t : TxId) : Isolation :=
  ((w.transaction? t).map (·.isolation)).getD .default

def checkJoin (k : Coordinator) (d : TransactionDefinition) (t : TxId) : Hosted Unit := do
  checkTimeout t
  let existing := isolationOf (← get) t
  if d.isolation ≠ .default && d.isolation ≠ existing && k.policy == .strict then
    throw (.isolationConflict d.isolation.label existing.label)

/-- Begins a transaction while another lies suspended. If that fails the other is taken up
    again. -/
def startApart (k : Coordinator) (d : TransactionDefinition) (outer : TxId) : Hosted TxId := do
  call k.resource (.suspend outer)
  tryCatch (k.start d) fun e => do
    tryCatch (call k.resource (.resume outer)) fun _ => pure ()
    throw e

def startNested (k : Coordinator) (t : TxId) : Hosted Participation := do
  checkTimeout t
  let savepoint ← nextSavepoint t k.savepointPrefix
  call k.resource (.createSavepoint t savepoint)
  return .nested t savepoint ((← get).isRollbackOnly t)

/-- How a scope takes part where there is no transaction. -/
def participateFresh (k : Coordinator) (d : TransactionDefinition) : Hosted Participation :=
  match d.propagation with
  | .mandatory => throw .noTransaction
  | .required | .requiresNew | .nested => return .owner (← k.start d) none
  | .supports | .notSupported | .never => return .apart none

/-- How a scope takes part within a transaction. -/
def participateWithin (k : Coordinator) (d : TransactionDefinition) (t : TxId) :
    Hosted Participation :=
  match d.propagation with
  | .never => throw (.unexpectedTransaction t.label)
  | .required | .supports | .mandatory => do
    k.checkJoin d t
    return .joined t
  | .requiresNew => return .owner (← k.startApart d t) (some t)
  | .nested => k.startNested t
  | .notSupported => do
    call k.resource (.suspend t)
    return .apart (some t)

/-- Enters a scope: decides how it takes part and makes its context, which is not yet installed. -/
def enter (k : Coordinator) (d : TransactionDefinition) : Hosted TransactionScope := do
  let parent := (← get).current
  let participation ← match (← get).currentTransaction with
    | none => k.participateFresh d
    | some t => k.participateWithin d t
  let context ← derive parent {} (some participation.transaction)
  return ⟨participation, context⟩

/-! ## End -/

def rollback (k : Coordinator) (t : TxId) : Hosted Unit := do
  call k.resource (.rollback t)
  setState t .rolledBack

/-- Commits a transaction for its owner. One whose time is up, or that may only be rolled back, is
    rolled back instead; so is one that the resource does not commit. -/
def commit (k : Coordinator) (t : TxId) : Hosted Unit := do
  let w ← get
  if w.isExpired t then
    k.rollback t
    throw (w.timeoutError t)
  else if w.isRollbackOnly t then
    k.rollback t
    throw (.unexpectedRollback t.label)
  else
    tryCatch
      (do call k.resource (.commit t)
          setState t .committed)
      fun e => do
        tryCatch (k.rollback t) fun _ => pure ()
        throw e

/-- Ends the part that a scope took in its own transaction. -/
def settle (k : Coordinator) (p : Participation) (success : Bool) : Hosted Unit :=
  match p with
  | .owner t _ => if success then k.commit t else k.rollback t
  | .joined t => do
    if !success then setRollbackOnly t true
    else
      let w ← get
      if w.isExpired t then
        setRollbackOnly t true
        throw (w.timeoutError t)
  | .nested t savepoint rollbackOnly =>
    if success then call k.resource (.releaseSavepoint t savepoint)
    else do
      call k.resource (.rollbackToSavepoint t savepoint)
      setRollbackOnly t rollbackOnly
  | .apart _ => pure ()

/-- Takes a suspended transaction up again. -/
def takeUp (k : Coordinator) : Option TxId → Hosted Unit
  | some t => call k.resource (.resume t)
  | none => pure ()

/-- Ends the part that a scope took, and then takes up what lay suspended. Of two failures the first
    one is reported. -/
def finish (k : Coordinator) (p : Participation) (success : Bool) : Hosted Unit := fun w =>
  let (result, w) := k.settle p success w
  let (resumed, w) := k.takeUp p.suspended w
  (match result with
    | .error e => .error e
    | .ok () => resumed, w)

/-! ## Scopes of a flow -/

/-- Enters a scope and installs its context. -/
def begin (k : Coordinator) (d : TransactionDefinition) : Hosted TransactionScope := do
  let scope ← k.enter d
  install scope.context
  return scope

def complete (k : Coordinator) (s : TransactionScope) : Hosted Unit := do
  uninstall s.context
  k.finish s.participation true

/-- Ends a scope whose work failed, or that was left. -/
def fail (k : Coordinator) (s : TransactionScope) : Hosted Unit := do
  uninstall s.context
  k.finish s.participation false

/-- Runs a body in a scope. The scope ends well if the body does; an error on entry or on a good
    end is the result, while a body that stops keeps its own reason whatever its rollback does. -/
def execute {m : Type → Type} [Monad m] [MonadLiftT (StateM World) m] {α : Type}
    (k : Coordinator) (d : TransactionDefinition) (body : m (Except Stop α)) :
    m (Except Stop α) := do
  match ← liftM (k.begin d).run with
  | .error e => return .error (.ofError e)
  | .ok scope =>
    match ← body with
    | .ok a =>
      match ← liftM (k.complete scope).run with
      | .ok () => return .ok a
      | .error e => return .error (.ofError e)
    | .error stop =>
      let _ ← liftM (k.fail scope).run
      return .error stop

end Coordinator

end ComponentHost
