import ComponentHost.Task.Basic

/-! # Executors

  Two ways to run tasks. The first runs one task to its end and moves the clock forward to the
  moment that the task waits for, or to the deadline that passes before. The second gives several
  tasks turns, one poll each in every round, and drops a task after its allotted number of polls;
  the clock stands still meanwhile.
-/

namespace ComponentHost

open HasWorld

variable {σ α : Type} [HasWorld σ]

/-- Moves the clock forward to a moment, unless it is already past it. -/
def waitUntil (moment : Nat) (s : σ) : σ :=
  let w := world s
  setWorld s { w with clock := max w.clock moment }

/-- Runs a task to its end. At a tie between the moment that is waited for and a deadline the task
    goes on. -/
def Progress.drive : Progress σ α → Except Stop α × σ
  | .done r s => (r, s)
  | .pending w s resume _ =>
    if hasPassed w.deadline (world s).clock then (resume .expire s).drive
    else match w.wakeAt with
      | none => (resume .wake s).drive
      | some t =>
        match w.deadline with
        | some d =>
          if d < t then (resume .expire (waitUntil d s)).drive
          else (resume .wake (waitUntil t s)).drive
        | none => (resume .wake (waitUntil t s)).drive

/-- Runs a task to its end. -/
def Task.drive (t : Task σ α) : StateM σ (Except Stop α) := fun s => (t s).drive

/-! ## Turns -/

/-- A task that has its turns together with others. -/
structure Turn (σ α : Type) where
  /-- Its place among the tasks. -/
  index : Nat
  /-- How many polls are left to it, if they are limited. -/
  polls : Option Nat
  next : Task σ α
  cancel : σ → σ

/-- How a task among others ended. -/
inductive TaskEnd (α : Type)
  /-- With a value, or by a failure. -/
  | finished (index : Nat) (result : Except Failure α)
  /-- It was dropped after its last poll. -/
  | cancelled (index : Nat)

def dropAll (turns : List (Turn σ α)) (s : σ) : σ := turns.foldl (fun s t => t.cancel s) s

/-- What one poll of a task among others leads to. -/
inductive TurnOutcome (σ α : Type)
  | waiting (turn : Turn σ α)
  | ended (how : TaskEnd α)
  | panicked (message : Option String)

/-- Gives a task its turn: one poll, and the drop after its last one. -/
def Turn.take (t : Turn σ α) (s : σ) : TurnOutcome σ α × σ :=
  match t.next s with
  | .done (.ok a) s => (.ended (.finished t.index (.ok a)), s)
  | .done (.error (.failed f)) s => (.ended (.finished t.index (.error f)), s)
  | .done (.error (.panicked m)) s => (.panicked m, s)
  | .pending _ s resume cancel =>
    let left := t.polls.map (· - 1)
    if left = some 0 then (.ended (.cancelled t.index), cancel s)
    else (.waiting ⟨t.index, left, resume .wake, cancel⟩, s)

/-- One round: every task has its turn, and every end is announced. A panic drops all other tasks
    that have not ended, in order. -/
def round (announce : TaskEnd α → StateM σ Unit) :
    List (Turn σ α) → List (Turn σ α) → StateM σ (Except Stop (List (Turn σ α)))
  | waiting, [] => return .ok waiting.reverse
  | waiting, t :: rest => do
    match ← (fun s => t.take s : StateM σ (TurnOutcome σ α)) with
    | .waiting t => round announce (t :: waiting) rest
    | .ended how =>
      announce how
      round announce waiting rest
    | .panicked m =>
      modify (dropAll (waiting.reverse ++ rest))
      return .error (.panicked m)

/-- Rounds until every task has ended; `limit` bounds their number. -/
def rounds (announce : TaskEnd α → StateM σ Unit) :
    Nat → List (Turn σ α) → StateM σ (Except Stop Unit)
  | 0, _ => return .ok ()
  | _, [] => return .ok ()
  | limit + 1, turns => do
    match ← round announce [] turns with
    | .ok turns => rounds announce limit turns
    | .error stop => return .error stop

end ComponentHost
