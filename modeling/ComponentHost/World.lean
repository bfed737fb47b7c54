import ComponentHost.Context
import ComponentHost.Transaction.Resource

/-! # The world of a flow

  What the code of one flow of execution shares: a clock, the contexts that were made and the stack
  of those that are installed, the transactions that were begun, and two resources. Reading and
  writing a resource always goes through the transaction of the context on top of the stack.
-/

namespace ComponentHost

/-- The resources of a world. -/
inductive ResourceId
  /-- The resource that the host coordinates. -/
  | main
  /-- A second one. -/
  | other
  deriving Repr, DecidableEq, Inhabited

/-- The state that the code of a flow shares. -/
structure World where
  /-- The time in milliseconds since the start. -/
  clock : Nat := 0
  /-- All contexts, in the order in which they were made. -/
  contexts : Contexts := #[]
  /-- The installed contexts, the latest first. -/
  stack : List ContextId := []
  /-- All transactions, in the order in which they were begun. -/
  transactions : Array Transaction := #[]
  main : Resource := {}
  other : Resource := {}
  deriving Repr, DecidableEq, Inhabited

/-- A computation on a world that may fail with an error. -/
abbrev Hosted (α : Type) := Attempt World α

namespace World

/-! ## Resources -/

def resource (w : World) : ResourceId → Resource
  | .main => w.main
  | .other => w.other

def setResource (w : World) : ResourceId → Resource → World
  | .main, r => { w with main := r }
  | .other, r => { w with other := r }

@[simp] theorem resource_setResource_self (w : World) (i : ResourceId) (r : Resource) :
    (w.setResource i r).resource i = r := by cases i <;> rfl

theorem resource_setResource (w : World) (i j : ResourceId) (r : Resource) :
    (w.setResource i r).resource j = if j = i then r else w.resource j := by
  cases i <;> cases j <;> rfl

@[simp] theorem setResource_clock (w : World) (i : ResourceId) (r : Resource) :
    (w.setResource i r).clock = w.clock := by cases i <;> rfl

@[simp] theorem setResource_contexts (w : World) (i : ResourceId) (r : Resource) :
    (w.setResource i r).contexts = w.contexts := by cases i <;> rfl

@[simp] theorem setResource_stack (w : World) (i : ResourceId) (r : Resource) :
    (w.setResource i r).stack = w.stack := by cases i <;> rfl

@[simp] theorem setResource_transactions (w : World) (i : ResourceId) (r : Resource) :
    (w.setResource i r).transactions = w.transactions := by cases i <;> rfl

def call (i : ResourceId) (c : Call) : Hosted Unit := fun w =>
  let (result, r) := (w.resource i).call c
  (result, w.setResource i r)

/-! ## Contexts -/

def current (w : World) : Option ContextId := w.stack.head?

/-- Makes a context that is derived from another, or from none. -/
def derive (parent : Option ContextId) (attributes : Attributes)
    (binding : Option (Option TxId)) : StateM World ContextId := fun w =>
  let c : Context := ⟨parent, w.contexts.depthBelow parent, attributes, binding⟩
  (⟨w.contexts.size⟩, { w with contexts := w.contexts.push c })

def install (c : ContextId) : StateM World Unit :=
  modify fun w => { w with stack := c :: w.stack }

/-- Takes a context off the stack, wherever it is; where it is installed more than once, the latest
    time. -/
def uninstall (c : ContextId) : StateM World Unit :=
  modify fun w => { w with stack := w.stack.erase c }

/-- Makes a context below the current one and installs it. -/
def push (attributes : Attributes) : StateM World ContextId := do
  let c ← derive (← get).current attributes none
  install c
  return c

/-- Runs a body in a new context below the current one. However the body ends, its context is taken
    off. -/
def scope {m : Type → Type} [Monad m] [MonadLiftT (StateM World) m] {α : Type}
    (attributes : Attributes) (body : m α) : m α := do
  let c ← liftM (push attributes)
  let a ← body
  liftM (uninstall c)
  return a

def insertAttributes (c : ContextId) (attributes : Attributes) : StateM World Unit :=
  modify fun w => { w with
    contexts := w.contexts.modify c.index fun ctx =>
      { ctx with attributes := attributes.over ctx.attributes } }

/-! ## Transactions -/

/-- The transaction of the current context: the binding of the nearest context that has one. -/
def currentTransaction (w : World) : Option TxId := do
  let binding ← w.contexts.lookup (·.binding) (← w.current)
  binding

def transaction? (w : World) (t : TxId) : Option Transaction := w.transactions[t.index]?

def changeTransaction (t : TxId) (change : Transaction → Transaction) : StateM World Unit :=
  modify fun w => { w with transactions := w.transactions.modify t.index change }

def addTransaction (d : TransactionDefinition) : StateM World TxId := fun w =>
  (⟨w.transactions.size⟩,
    { w with transactions := w.transactions.push (.ofDefinition d w.clock) })

def isExpired (w : World) (t : TxId) : Bool :=
  (w.transaction? t).any (·.isExpired w.clock)

def isRollbackOnly (w : World) (t : TxId) : Bool := (w.transaction? t).any (·.rollbackOnly)

/-- The error of a scope that finds the time of its transaction up. -/
def timeoutError (w : World) (t : TxId) : Error :=
  .transactionTimeout t.label (((w.transaction? t).bind (·.timeout)).getD 0)

def checkTimeout (t : TxId) : Hosted Unit := do
  let w ← get
  if w.isExpired t then throw (w.timeoutError t)

/-- Marks a transaction as one that may only be rolled back, or takes the mark away. -/
def setRollbackOnly (t : TxId) (mark : Bool) : StateM World Unit :=
  changeTransaction t ({ · with rollbackOnly := mark })

/-- Notes how a transaction ended. -/
def setState (t : TxId) (state : TransactionState) : StateM World Unit :=
  changeTransaction t ({ · with state })

/-- The name of the next savepoint of a transaction, which is thereby used up. -/
def nextSavepoint (t : TxId) (start : String) : StateM World String := do
  let name := (((← get).transaction? t).map (·.nextSavepoint start)).getD start
  changeTransaction t fun tx => { tx with savepoints := tx.savepoints + 1 }
  return name

/-! ## Reading and writing -/

/-- What the current code sees under a key of a resource. -/
def read (w : World) (i : ResourceId) (key : String) : Option Value :=
  (w.resource i).memory.read w.currentTransaction key

def write (i : ResourceId) (key : String) (value : Option Value) : Hosted Unit := fun w =>
  let tx := w.currentTransaction.map fun t => (t, (w.transaction? t).any (·.readOnly))
  let r := w.resource i
  match r.memory.write tx key value with
  | .ok m => (.ok (), w.setResource i { r with memory := m })
  | .error e => (.error e, w)

def advance (ms : Nat) : StateM World Unit := modify fun w => { w with clock := w.clock + ms }

end World

/-! ## States with a world in them -/

class HasWorld (σ : Type) where
  world : σ → World
  setWorld : σ → World → σ
  /-- The world that was put in is found. -/
  world_setWorld : ∀ s w, world (setWorld s w) = w
  /-- Putting back the world that is there changes nothing. -/
  setWorld_world : ∀ s, setWorld s (world s) = s
  /-- The last world that was put in stays. -/
  setWorld_setWorld : ∀ s w w', setWorld (setWorld s w) w' = setWorld s w'

namespace HasWorld

attribute [simp] world_setWorld setWorld_world setWorld_setWorld

instance : HasWorld World where
  world w := w
  setWorld _ w := w
  world_setWorld _ _ := rfl
  setWorld_world _ := rfl
  setWorld_setWorld _ _ _ := rfl

/-- A computation on worlds as one on states with a world in them. -/
def onWorld {σ α : Type} [HasWorld σ] (act : StateM World α) : StateM σ α := fun s =>
  let (a, w) := act (world s)
  (a, setWorld s w)

end HasWorld

end ComponentHost
