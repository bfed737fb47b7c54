import ComponentHost.Task.Basic
import ComponentHost.Transaction.Coordinator

/-! # Transactional tasks

  A task may run in a transactional scope. The scope is entered at the first poll, its context is
  installed during polls only, and it ends with the task: well, by the failure of the task, by its
  own deadline, or by being dropped, the last three all along the same path.
-/

namespace ComponentHost

namespace Coordinator

open HasWorld

variable {σ α : Type} [HasWorld σ]

/-- Ends the part that a scope took, in a state with a world. -/
def finishIn (k : Coordinator) (p : Participation) (success : Bool) :
    StateM σ (Except Error Unit) :=
  onWorld (k.finish p success).run

/-- Ends a scope around a task with the outcome of the task. -/
def conclude (k : Coordinator) (p : Participation) (r : Except Stop α) :
    StateM σ (Except Stop α) := do
  match r with
  | .ok a =>
    match ← k.finishIn p true with
    | .ok () => return .ok a
    | .error e => return .error (.ofError e)
  | .error stop =>
    let _ ← k.finishIn p false
    return .error stop

/-- Ends a scope whose time ran out before its task had ended. -/
def abort (k : Coordinator) (p : Participation) : StateM σ (Except Stop α) := do
  let w := world (← get)
  let e := match p.transaction with
    | some t => w.timeoutError t
    | none => .internal "timeout without transaction"
  let _ ← k.finishIn p false
  return .error (.ofError e)

/-- Watches over a task in a scope. When the deadline of the scope passes while the task waits, and
    none inside it has passed, the task is dropped and the scope ends by its time out. -/
def supervise (k : Coordinator) (p : Participation) (deadline : Option Nat) :
    Progress σ α → Progress σ α
  | .done r s =>
    let (r, s) := k.conclude p r s
    .done r s
  | .pending w s resume cancel =>
    .pending { w with deadline := earlier deadline w.deadline } s
      (fun g s =>
        let now := (world s).clock
        if g = .expire && !hasPassed w.deadline now && hasPassed deadline now then
          let (r, s) := k.abort p (cancel s)
          .done r s
        else supervise k p deadline (resume g s))
      (fun s => (k.finishIn p false (cancel s)).2)

/-- The moment at which the time of a scope's transaction is up. -/
def deadlineOf (w : World) (p : Participation) : Option Nat := do
  let t ← w.transaction? (← p.transaction)
  let left ← t.remaining w.clock
  return w.clock + left

/-- Runs a task in a scope, in the scope's context. -/
def executeTask (k : Coordinator) (d : TransactionDefinition) (body : Task σ α) : Task σ α :=
  fun s =>
    match onWorld (k.enter d).run s with
    | (.error e, s) => .done (.error (.ofError e)) s
    | (.ok scope, s) =>
      let p := scope.participation
      supervise k p (deadlineOf (world s) p) (body.within scope.context s)

end Coordinator

end ComponentHost
