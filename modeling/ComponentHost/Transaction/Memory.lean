import ComponentHost.Data.Dict
import ComponentHost.Transaction.Basic

/-! # Transactional memory

  Keys with committed values, and for every transaction that has been begun a journal of pending
  writes. A savepoint is a snapshot of the pending writes under a name. A commit carries the pending
  writes over into the committed values; a rollback gives them up.
-/

namespace ComponentHost

/-- Pending writes: for each key its new value, or none where it is deleted. -/
abbrev Writes := Dict String (Option Value)

/-- What a transaction has done to a memory so far. -/
structure Journal where
  writes : Writes := {}
  /-- The savepoints, oldest first, each with the writes that were pending when it was set. -/
  savepoints : List (String × Writes) := []
  deriving Repr, DecidableEq, Inhabited

namespace Journal

def write (j : Journal) (key : String) (value : Option Value) : Journal :=
  { j with writes := j.writes.insert key value }

def setSavepoint (j : Journal) (name : String) : Journal :=
  { j with savepoints := j.savepoints ++ [(name, j.writes)] }

/-- The place of the oldest savepoint of a name. -/
def position? (j : Journal) (name : String) : Option Nat :=
  j.savepoints.findIdx? (·.1 == name)

/-- Goes back to a savepoint: its writes are pending again, it and all later ones are gone. -/
def rollbackTo? (j : Journal) (name : String) : Option Journal := do
  let i ← j.position? name
  let (_, writes) ← j.savepoints[i]?
  return ⟨writes, j.savepoints.take i⟩

/-- Gives up a savepoint and all later ones; the pending writes stay. -/
def release? (j : Journal) (name : String) : Option Journal := do
  let i ← j.position? name
  return { j with savepoints := j.savepoints.take i }

end Journal

structure Memory where
  committed : Dict String Value := {}
  /-- The journals of the transactions that were begun and have not ended. -/
  journals : Dict TxId Journal := {}
  refusesCommits : Bool := false
  deriving Repr, DecidableEq, Inhabited

/-- A call on a transactional resource. -/
inductive Call
  /-- Begin a transaction. -/
  | begin (t : TxId)
  /-- Make its writes durable. -/
  | commit (t : TxId)
  /-- Give up its writes. -/
  | rollback (t : TxId)
  /-- Set a savepoint. -/
  | createSavepoint (t : TxId) (name : String)
  /-- Go back to a savepoint. -/
  | rollbackToSavepoint (t : TxId) (name : String)
  /-- Give up a savepoint. -/
  | releaseSavepoint (t : TxId) (name : String)
  /-- Lay the transaction aside. -/
  | suspend (t : TxId)
  /-- Take it up again. -/
  | resume (t : TxId)
  deriving Repr, DecidableEq

namespace Call

def transaction : Call → TxId
  | begin t | commit t | rollback t | createSavepoint t _ | rollbackToSavepoint t _
  | releaseSavepoint t _ | suspend t | resume t => t

/-- The entry that a call leaves in the list of events. -/
def event : Call → String
  | begin t => "begin " ++ t.label
  | commit t => "commit " ++ t.label
  | rollback t => "rollback " ++ t.label
  | createSavepoint _ name => "savepoint " ++ name
  | rollbackToSavepoint _ name => "rollback_to " ++ name
  | releaseSavepoint _ name => "release " ++ name
  | suspend t => "suspend " ++ t.label
  | resume t => "resume " ++ t.label

end Call

namespace Memory

/-- The committed values after some writes. -/
def apply (committed : Dict String Value) (writes : Writes) : Dict String Value :=
  writes.entries.foldl (fun c (k, v) => c.set k v) committed

def unknown (t : TxId) : Error := .resource ("unknown transaction " ++ t.label)

def noSavepoint (name : String) : Error := .resource ("savepoint not found: " ++ name)

def changeJournal (m : Memory) (t : TxId) (change : Journal → Except Error Journal) :
    Except Error Memory :=
  match m.journals.get? t with
  | none => .error (unknown t)
  | some j => do
    let j ← change j
    return { m with journals := m.journals.insert t j }

/-- Carries out a call. A call that fails changes nothing. -/
def perform (m : Memory) : Call → Except Error Memory
  | .begin t => .ok { m with journals := m.journals.insert t {} }
  | .commit t =>
    if m.refusesCommits then .error (.resource ("commit of " ++ t.label ++ " rejected"))
    else match m.journals.get? t with
      | none => .error (unknown t)
      | some j =>
        .ok { m with committed := apply m.committed j.writes, journals := m.journals.erase t }
  | .rollback t => .ok { m with journals := m.journals.erase t }
  | .createSavepoint t name => m.changeJournal t fun j => .ok (j.setSavepoint name)
  | .rollbackToSavepoint t name => m.changeJournal t fun j =>
    match j.rollbackTo? name with
    | some j => .ok j
    | none => .error (noSavepoint name)
  | .releaseSavepoint t name => m.changeJournal t fun j =>
    match j.release? name with
    | some j => .ok j
    | none => .error (noSavepoint name)
  | .suspend _ | .resume _ => .ok m

/-- What a reader sees under a key: the pending write of its transaction, or the committed value. -/
def read (m : Memory) (t : Option TxId) (key : String) : Option Value :=
  match (t.bind m.journals.get?).bind (·.writes.get? key) with
  | some pending => pending
  | none => m.committed.get? key

/-- Writes under a key: into the journal of the transaction, or at once where there is none. A
    transaction that refuses writes, or was not begun here, makes the write fail. -/
def write (m : Memory) (t : Option (TxId × Bool)) (key : String) (value : Option Value) :
    Except Error Memory :=
  match t with
  | none => .ok { m with committed := m.committed.set key value }
  | some (t, readOnly) =>
    if readOnly then
      .error (.resource ("cannot write '" ++ key ++ "' in read-only transaction " ++ t.label))
    else match m.journals.get? t with
      | none =>
        .error (.resource ("transaction " ++ t.label ++ " is not enlisted in memory resource"))
      | some j => .ok { m with journals := m.journals.insert t (j.write key value) }

end Memory

end ComponentHost
