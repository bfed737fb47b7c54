import ComponentHost.Error
import ComponentHost.Transaction.Definition
import ComponentHost.Text.Duration

/-! # Transactions

  A transaction is a handle that its scopes share: what it was begun with, whether it may still be
  committed, how many savepoints it has named, and how it ended. Times are milliseconds of the
  world's clock.
-/

namespace ComponentHost

/-- The identity of a transaction: its place in the order in which transactions were begun. -/
structure TxId where
  /-- How many transactions were begun before. -/
  index : Nat
  deriving Repr, DecidableEq, Inhabited

def TxId.label (t : TxId) : String := "tx" ++ toString (t.index + 1)

/-- Where a transaction is in its life. -/
inductive TransactionState
  /-- It was begun and has not ended. -/
  | active
  /-- Its writes were made durable. -/
  | committed
  /-- Its writes were given up. -/
  | rolledBack
  deriving Repr, DecidableEq, Inhabited

def TransactionState.name : TransactionState → String
  | active => "Active"
  | committed => "Committed"
  | rolledBack => "RolledBack"

/-- A transaction, as its scopes see it. -/
structure Transaction where
  /-- The name of the unit of work that began it. -/
  name : Option String
  /-- Its isolation, fixed when it was begun. -/
  isolation : Isolation
  /-- It refuses writes, fixed when it was begun. -/
  readOnly : Bool
  /-- Its timeout in seconds, fixed when it was begun. -/
  timeout : Option Nat
  startedAt : Nat
  /-- It may only be rolled back. -/
  rollbackOnly : Bool := false
  /-- How many savepoints it has named. -/
  savepoints : Nat := 0
  /-- How it ended, if it has. -/
  state : TransactionState := .active
  deriving Repr, DecidableEq, Inhabited

namespace Transaction

/-- A transaction as a definition asks for it, begun at a time. -/
def ofDefinition (d : TransactionDefinition) (now : Nat) : Transaction where
  name := d.name
  isolation := d.isolation
  readOnly := d.readOnly
  timeout := d.timeout
  startedAt := now

def elapsed (t : Transaction) (now : Nat) : Nat := now - t.startedAt

def limit (t : Transaction) : Option Nat := t.timeout.map (· * 1000)

def remaining (t : Transaction) (now : Nat) : Option Nat := t.limit.map (· - t.elapsed now)

def isExpired (t : Transaction) (now : Nat) : Bool :=
  match t.limit with
  | some limit => limit ≤ t.elapsed now
  | none => false

def isActive (t : Transaction) : Bool := t.state == .active

def nextSavepoint (t : Transaction) (start : String) : String :=
  start ++ toString (t.savepoints + 1)

def description (t : Transaction) (id : TxId) : String :=
  "Transaction \x7b id: " ++ id.label
    ++ ", name: " ++ Text.optional (t.name.map Text.quoted)
    ++ ", isolation: " ++ t.isolation.title
    ++ ", read_only: " ++ toString t.readOnly
    ++ ", timeout: " ++ Text.optional (t.limit.map Text.duration)
    ++ ", state: " ++ t.state.name
    ++ ", rollback_only: " ++ toString t.rollbackOnly ++ " \x7d"

end Transaction

end ComponentHost
