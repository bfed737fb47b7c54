import ComponentHost.Proofs.Transaction.Scopes
import ComponentHost.Task.Executor
import ComponentHost.Task.Transactional

/-! # Bodies that never wait

  There are two ways to run a body in a transactional scope: directly, with a guard that is
  completed or failed, and as a task, with its context installed during polls and a timer around
  them. For a body that never waits they are the same: the first poll of the task is its last one,
  so the timer has no say, however late it has become meanwhile.

  - `Body` is code that never waits and nests further scopes, each run in the one way or the other;
    it can be read as a task (`Body.task`) and as a plain computation (`Body.plain`);
  - `Coordinator.executeTask_now` says that a scope around a task that ends in its first poll is a
    scope around a plain computation;
  - `boundaries_agree` puts it together, for scopes that are nested in either way.
-/

namespace ComponentHost

open World HasWorld

variable {σ α : Type} [HasWorld σ]

/-- What a computation on worlds does to a state with a world. -/
theorem HasWorld.onWorld_eq {β : Type} (act : StateM World β) (s : σ) :
    onWorld act s = ((act (world s)).1, setWorld s (act (world s)).2) := rfl

/-! ### A scope around a computation -/

namespace Coordinator

/-- Runs a body in a scope, in a state with a world. -/
def executeIn (k : Coordinator) (d : TransactionDefinition) (body : StateM σ (Except Stop α)) :
    StateM σ (Except Stop α) :=
  letI : MonadLift (StateM World) (StateM σ) := ⟨onWorld⟩
  k.execute d body

variable (k : Coordinator) (d : TransactionDefinition)

/-- Where the state is the world alone, this is running a body in a scope. -/
theorem executeIn_world (body : StateM World (Except Stop α)) :
    k.executeIn d body = k.execute d body := rfl

/-- What running a body in a scope does to a state with a world. -/
theorem executeIn_eq (body : StateM σ (Except Stop α)) (s : σ) :
    k.executeIn d body s =
      match k.begin d (world s) with
      | (.error e, w) => (.error (.ofError e), setWorld s w)
      | (.ok scope, w) =>
        match body (setWorld s w) with
        | (.error stop, s) => (.error stop, setWorld s (k.fail scope (world s)).2)
        | (.ok a, s) =>
          match k.complete scope (world s) with
          | (.error e, w) => (.error (.ofError e), setWorld s w)
          | (.ok (), w) => (.ok a, setWorld s w) := by
  rcases hb : k.begin d (world s) with ⟨e | scope, w⟩
  · simp only [executeIn, execute, bind, StateT.bind, ExceptT.run, liftM, monadLift,
      MonadLift.monadLift, onWorld, hb]
    rfl
  · rcases hr : body (setWorld s w) with ⟨stop | a, s₁⟩
    · simp only [executeIn, execute, bind, StateT.bind, ExceptT.run, liftM, monadLift,
        MonadLift.monadLift, onWorld, hb, hr]
      rfl
    · rcases hc : k.complete scope (world s₁) with ⟨e | _, w₁⟩ <;>
        simp only [executeIn, execute, bind, StateT.bind, ExceptT.run, liftM, monadLift,
          MonadLift.monadLift, onWorld, hb, hr, hc] <;> rfl

/-! ### A scope around a task that ends in its first poll -/

/-- Beginning a scope is entering it and installing its context. -/
theorem begin_eq (w : World) :
    k.begin d w =
      match k.enter d w with
      | (.error e, w) => (.error e, w)
      | (.ok scope, w) => (.ok scope, (install scope.context w).2) := by
  unfold begin
  rcases he : k.enter d w with ⟨e | scope, w₁⟩
  · exact Attempt.bind_error he
  · exact Attempt.bind_ok he

section Conclude

variable (scope : TransactionScope) (s : σ)

/-- The part of a scope ends after its context has been taken off. -/
theorem finishIn_uninstall (success : Bool) :
    k.finishIn scope.participation success (onWorld (uninstall scope.context) s).2 =
      let (r, w) := k.finish scope.participation success (uninstall scope.context (world s)).2
      (r, setWorld s w) := by
  unfold finishIn
  rw [onWorld_eq, onWorld_eq, world_setWorld, setWorld_setWorld]
  rfl

/-- A scope around a task that has failed is failed; neither reports what comes of it. -/
theorem conclude_error (stop : Stop) :
    k.conclude (α := α) scope.participation (.error stop) (onWorld (uninstall scope.context) s).2
      = (.error stop, setWorld s (k.fail scope (world s)).2) := by
  unfold conclude
  simp only [bind, StateT.bind, finishIn_uninstall]
  rfl

/-- A scope around a task that has succeeded is completed, and both report an error of that. -/
theorem conclude_ok (a : α) :
    k.conclude scope.participation (.ok a) (onWorld (uninstall scope.context) s).2 =
      match k.complete scope (world s) with
      | (.error e, w) => (.error (.ofError e), setWorld s w)
      | (.ok (), w) => (.ok a, setWorld s w) := by
  have completed : k.complete scope (world s)
      = k.finish scope.participation true (uninstall scope.context (world s)).2 := rfl
  rw [completed]
  unfold conclude
  rcases hf : k.finish scope.participation true (uninstall scope.context (world s)).2 with
    ⟨e | _, w⟩ <;> simp only [bind, StateT.bind, finishIn_uninstall, hf] <;> rfl

end Conclude

/-- A scope around a task that ends in its first poll is a scope around a computation. The deadline
    of the scope is not looked at, for the task never waits. -/
theorem executeTask_now (body : StateM σ (Except Stop α)) :
    k.executeTask d (Task.now body) = Task.now (k.executeIn d body) := by
  funext s
  unfold Task.now
  rw [executeIn_eq, begin_eq]
  rcases he : k.enter d (world s) with ⟨e | scope, w⟩
  · simp only [executeTask, onWorld_eq, ExceptT.run, he]
  · simp only [executeTask, onWorld_eq, ExceptT.run, he, Task.within, world_setWorld,
      setWorld_setWorld]
    -- The body is done in the first poll, so the timer has no say.
    rcases hr : body (setWorld s (install scope.context w).2) with ⟨r, s₁⟩
    cases r with
    | error stop => simp only [Progress.within, supervise, conclude_error]
    | ok a =>
      rcases hc : k.complete scope (world s₁) with ⟨e | _, w₁⟩ <;>
        simp only [Progress.within, supervise, conclude_ok, hc]

end Coordinator

/-! ### Bodies -/

/-- The two ways to run a body in a transactional scope. -/
inductive Boundary
  /-- Directly. -/
  | plain
  | task
  deriving DecidableEq

/-- Code that never waits. -/
inductive Body (σ α : Type)
  /-- It ends: with a value, by a failure or by a panic. -/
  | done (result : Except Stop α)
  /-- It changes the state, by whatever it does there, and looks at what has become of it. -/
  | step (act : σ → σ) (next : σ → Body σ α)
  /-- It runs a body in a transactional scope. -/
  | scope (boundary : Boundary) (k : Coordinator) (d : TransactionDefinition) (body : Body σ α)
      (next : Except Stop α → Body σ α)

namespace Body

mutual

/-- The task that a body is. A body that is to be run directly is no task of its own. -/
def task : Body σ α → Task σ α
  | done result => fun s => .done result s
  | step act next => fun s => (next (act s)).task (act s)
  | scope .task k d body next => fun s =>
    (k.executeTask d body.task s).andThen fun r => (next r).task
  | scope .plain k d body next => fun s =>
    let (r, s) := k.executeIn d body.plain s
    (next r).task s
termination_by structural body => body

/-- The computation that a body is. A body that is to be run as a task is driven to its end. -/
def plain : Body σ α → StateM σ (Except Stop α)
  | done result => fun s => (result, s)
  | step act next => fun s => (next (act s)).plain (act s)
  | scope .task k d body next => fun s =>
    let (r, s) := (k.executeTask d body.task).drive s
    (next r).plain s
  | scope .plain k d body next => fun s =>
    let (r, s) := k.executeIn d body.plain s
    (next r).plain s
termination_by structural body => body

end

/-- The body with all scopes in it run in one way. -/
def recast (boundary : Boundary) : Body σ α → Body σ α
  | done result => done result
  | step act next => step act fun s => (next s).recast boundary
  | scope _ k d body next =>
    scope boundary k d (body.recast boundary) fun r => (next r).recast boundary

/-- A body never waits: its first poll as a task is what it does as a computation. -/
theorem task_eq_now (body : Body σ α) : body.task = Task.now body.plain := by
  induction body with
  | done result => rfl
  | step act next ih =>
    funext s
    simp only [task, ih (act s)]
    rfl
  | scope boundary k d body next ihb ihn =>
    funext s
    -- A scope inside may be of either kind; its body is done at once by the induction.
    cases boundary with
    | plain =>
      rw [task]
      rcases hr : k.executeIn d body.plain s with ⟨r, s₁⟩
      simp only [ihn r, Task.now, plain, hr]
    | task =>
      rw [task, ihb, k.executeTask_now]
      rcases hr : k.executeIn d body.plain s with ⟨r, s₁⟩
      simp only [Progress.andThen, ihn r, Task.now, plain, ihb, k.executeTask_now, Task.drive,
        Progress.drive, hr]

/-- Whether a scope in a body is run directly or as a task makes no difference. -/
theorem plain_scope (boundary : Boundary) (k : Coordinator) (d : TransactionDefinition)
    (body : Body σ α) (next : Except Stop α → Body σ α) (s : σ) :
    (scope boundary k d body next).plain s =
      let (r, s) := k.executeIn d body.plain s
      (next r).plain s := by
  cases boundary with
  | plain => rw [plain]
  | task =>
    rw [plain, task_eq_now, k.executeTask_now]
    rfl

theorem plain_recast (boundary : Boundary) (body : Body σ α) :
    (body.recast boundary).plain = body.plain := by
  induction body with
  | done result => rfl
  | step act next ih =>
    funext s
    simp only [recast, plain, ih]
  | scope inner k d body next ihb ihn =>
    funext s
    rw [recast, plain_scope, plain_scope, ihb]
    simp only [ihn]

end Body

/-! ### The two boundaries -/

/-- **The two boundaries agree.** Take any definition, any state, whatever transaction is current
    there and whatever faults are pending, and any body that never waits: it may change the state as
    it likes, move the clock past the deadline, nest further scopes that are run in either way,
    fail or panic. A task that runs it in a scope ends in its first poll, and so when it is driven
    to its end; its result and all of the state, calls, records, contexts and stack included, are
    what running the body directly in the scope leads to, and also what it leads to when all scopes
    inside are run in one and the same way. -/
theorem boundaries_agree (k : Coordinator) (d : TransactionDefinition) (body : Body σ α) (s : σ) :
    let direct := k.executeIn d body.plain s
    k.executeTask d body.task s = .done direct.1 direct.2 ∧
    (k.executeTask d body.task).drive s = direct ∧
    ∀ boundary, k.executeIn d (body.recast boundary).plain s = direct ∧
      k.executeTask d (body.recast boundary).task s = .done direct.1 direct.2 := by
  intro direct
  -- Only the plain form of a body decides, and recasting keeps it.
  have polled (body' : Body σ α) (same : body'.plain = body.plain) :
      k.executeTask d body'.task s = .done direct.1 direct.2 := by
    rw [body'.task_eq_now, k.executeTask_now, same]
    rfl
  refine ⟨polled body rfl, ?_, fun boundary => ⟨?_, ?_⟩⟩
  · show (k.executeTask d body.task s).drive = direct
    rw [polled body rfl]
    rfl
  · rw [body.plain_recast boundary]
  · exact polled _ (body.plain_recast boundary)

/-- The time of a transaction runs out inside a nested scope that is run as a task: the owner rolls
    its transaction back. -/
example :
    let late : Body World Unit := .step (fun w => { w with clock := w.clock + 1000 }) fun _ =>
      .done (.ok ())
    let body : Body World Unit := .scope .task {} {} late fun _ => .done (.ok ())
    let d : TransactionDefinition := { timeoutSeconds := 1 }
    ((Coordinator.executeTask {} d body.task).drive {}).2.main.log.map (·.call)
      = [.rollback ⟨0⟩, .begin ⟨0⟩] := by cbv

end ComponentHost
