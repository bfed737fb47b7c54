import ComponentHost.World

/-! # Tasks

  A task is a body that may wait. One poll runs it up to its end or its next wait; a waiting task is
  either resumed, which gives the next poll, or dropped, which lets its open scopes end. What a task
  waits for is a moment of the clock, or merely its next turn; the least deadline of the scopes
  around the wait is told along with it.
-/

namespace ComponentHost

structure Wait where
  /-- The moment from which it may go on; without one, it waits for its next turn. -/
  wakeAt : Option Nat := none
  /-- The least deadline of the scopes around the wait. -/
  deadline : Option Nat := none
  deriving Repr, DecidableEq

/-- Why a waiting task is resumed. -/
inductive Signal
  /-- What it waited for has come. -/
  | wake
  /-- A deadline around the wait has passed first. -/
  | expire
  deriving Repr, DecidableEq

/-- Where one poll of a task has led. -/
inductive Progress (σ α : Type)
  /-- To its end. -/
  | done (result : Except Stop α) (state : σ)
  /-- To a wait. Dropping the task there changes the state by `cancel`. -/
  | pending (wait : Wait) (state : σ) (resume : Signal → σ → Progress σ α) (cancel : σ → σ)

/-- A body that may wait: what its first poll does. -/
def Task (σ α : Type) := σ → Progress σ α

/-! ## Deadlines -/

def earlier : Option Nat → Option Nat → Option Nat
  | some a, some b => some (min a b)
  | some a, none => some a
  | none, b => b

def hasPassed (deadline : Option Nat) (now : Nat) : Bool := deadline.any (· ≤ now)

namespace Progress

variable {σ α β : Type}

/-- Goes on with another task once this one has ended well. -/
def bind : Progress σ α → (α → Task σ β) → Progress σ β
  | done (.ok a) s, f => f a s
  | done (.error stop) s, _ => done (.error stop) s
  | pending w s resume cancel, f => pending w s (fun g s => (resume g s).bind f) cancel

/-- Goes on with another task however this one has ended. -/
def andThen : Progress σ α → (Except Stop α → Task σ β) → Progress σ β
  | done r s, f => f r s
  | pending w s resume cancel, f => pending w s (fun g s => (resume g s).andThen f) cancel

end Progress

namespace Task

variable {σ α β : Type}

instance : Monad (Task σ) where
  pure a := fun s => .done (.ok a) s
  bind t f := fun s => (t s).bind f

def now (act : StateM σ (Except Stop α)) : Task σ α := fun s =>
  let (r, s) := act s
  .done r s

def attempt (t : Task σ α) : Task σ (Except Stop α) := fun s =>
  (t s).andThen fun r s => .done (.ok r) s

def yield : Task σ Unit := fun s => .pending {} s (fun _ s => .done (.ok ()) s) id

/-- Waits for a time; no time at all is over at once. -/
def sleep [HasWorld σ] (ms : Nat) : Task σ Unit := fun s =>
  if ms = 0 then .done (.ok ()) s
  else
    .pending { wakeAt := some ((HasWorld.world s).clock + ms) } s (fun _ s => .done (.ok ()) s) id

end Task

/-! ## Contexts of tasks -/

open HasWorld in
/-- Keeps a context installed while a task is polled, and only then. -/
def Progress.within {σ α : Type} [HasWorld σ] (c : ContextId) : Progress σ α → Progress σ α
  | done r s => done r (onWorld (World.uninstall c) s).2
  | pending w s resume cancel =>
    pending w (onWorld (World.uninstall c) s).2
      (fun g s => (resume g (onWorld (World.install c) s).2).within c) cancel

open HasWorld in
def Task.within {σ α : Type} [HasWorld σ] (c : ContextId) (t : Task σ α) : Task σ α := fun s =>
  (t (onWorld (World.install c) s).2).within c

end ComponentHost
