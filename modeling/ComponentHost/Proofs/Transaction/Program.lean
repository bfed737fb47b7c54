import ComponentHost.Proofs.Transaction.LifeCycle

/-! # Programs of scopes

  A program is a unit of work as a tree: it reads and writes one resource, marks its transaction,
  lets time pass, and runs other programs in scopes of their own. What it does next may depend on
  every answer that it got, so it may catch the failure of an inner scope, or of a write, or pass it
  on, as it likes.

  - `Program.run` runs a program with the coordinator's own operations;
  - `Program.observations` lists what the program sees;
  - `Program.record` keeps, for proofs, what happened on a run: the writes that were taken, each
    with the context it was issued in, and the scopes, each with the worlds at its entry and its
    end.
-/

namespace ComponentHost

open World Attempt

/-- A unit of work. -/
inductive Program
  /-- It ends, well or not. -/
  | done (result : Except Stop Value)
  | get (key : String) (next : Option Value → Program)
  /-- It writes a value under a key, or deletes it. -/
  | write (key : String) (value : Option Value) (next : Except Error Unit → Program)
  /-- It marks the current transaction, if there is one, for rollback. -/
  | mark (next : Program)
  /-- It lets time pass. -/
  | wait (ms : Nat) (next : Program)
  /-- It runs a program in a scope. -/
  | execute (d : TransactionDefinition) (body : Program) (next : Except Stop Value → Program)

namespace World

/-- Marks the current transaction, if there is one, for rollback. -/
def markCurrent (w : World) : World :=
  match w.currentTransaction with
  | some t => (setRollbackOnly t true w).2
  | none => w

end World

/-- What became of a scope. -/
structure ScopeRun where
  /-- What was asked for. -/
  definition : TransactionDefinition
  scope : TransactionScope
  before : World
  /-- The world in which its body started. -/
  entered : World
  /-- How its body ended. -/
  result : Except Stop Value
  /-- The world in which its body ended. -/
  left : World
  /-- How the scope ended. -/
  told : Except Error Unit
  after : World

namespace ScopeRun

/-- What the code around the scope is told: the failure of the body whatever the end of the scope
    does, and otherwise the failure of that. -/
def outcome (run : ScopeRun) : Except Stop Value :=
  match run.result, run.told with
  | .error stop, _ => .error stop
  | .ok _, .error e => .error (.ofError e)
  | .ok v, .ok () => .ok v

def owned (run : ScopeRun) : Option TxId := run.scope.participation.owned

end ScopeRun

namespace Coordinator

variable {k : Coordinator} {d : TransactionDefinition} {w w' : World}

/-- What becomes of a body that is to run in a scope: the scope is refused, or it runs. -/
def scopeRun (k : Coordinator) (d : TransactionDefinition)
    (body : StateM World (Except Stop Value)) (w : World) : Except (Error × World) ScopeRun :=
  match k.begin d w with
  | (.error e, w₁) => .error (e, w₁)
  | (.ok s, w₁) =>
    let (result, w₂) := body w₁
    let (told, w₃) := match result with
      | .ok _ => k.complete s w₂
      | .error _ => k.fail s w₂
    .ok ⟨d, s, w, w₁, result, w₂, told, w₃⟩

/-- Running a body in a scope is what a scope's run says. -/
theorem execute_eq_scopeRun (k : Coordinator) (d : TransactionDefinition)
    (body : StateM World (Except Stop Value)) (w : World) :
    k.execute d body w = match k.scopeRun d body w with
      | .error (e, w₁) => (.error (.ofError e), w₁)
      | .ok run => (run.outcome, run.after) := by
  rw [execute_eq, scopeRun]
  rcases k.begin d w with ⟨e | s, w₁⟩
  · rfl
  · rcases hb : body w₁ with ⟨stop | v, w₂⟩
    · simp only [hb]
      rfl
    · rcases hc : k.complete s w₂ with ⟨e | _, w₃⟩ <;> simp only [hb, hc] <;> rfl

theorem scopeRun_error {body : StateM World (Except Stop Value)} {e : Error}
    (h : k.scopeRun d body w = .error (e, w')) : k.begin d w = (.error e, w') := by
  unfold scopeRun at h
  rcases hb : k.begin d w with ⟨e' | s, w₁⟩
  · rw [hb] at h
    cases h
    rfl
  · rw [hb] at h
    cases h

/-- The worlds of a scope's run are those that its entry, its body and its end lead through. -/
theorem scopeRun_ok {body : StateM World (Except Stop Value)} {run : ScopeRun}
    (h : k.scopeRun d body w = .ok run) :
    run.definition = d ∧ run.before = w ∧ k.begin d w = (.ok run.scope, run.entered) ∧
      body run.entered = (run.result, run.left) ∧
      k.finish run.scope.participation run.result.isOk (uninstall run.scope.context run.left).2
        = (run.told, run.after) := by
  unfold scopeRun at h
  rcases hb : k.begin d w with ⟨e | s, w₁⟩
  · rw [hb] at h
    cases h
  · rw [hb] at h
    rcases hr : body w₁ with ⟨stop | v, w₂⟩
    · rcases hf : k.fail s w₂ with ⟨told, w₃⟩
      simp only [hr, hf] at h
      cases h
      exact ⟨rfl, rfl, rfl, hr, hf⟩
    · rcases hf : k.complete s w₂ with ⟨told, w₃⟩
      simp only [hr, hf] at h
      cases h
      exact ⟨rfl, rfl, rfl, hr, hf⟩

end Coordinator

namespace Program

/-! ### Running a program -/

def run (k : Coordinator) : Program → StateM World (Except Stop Value)
  | done result => fun w => (result, w)
  | get key next => fun w => (next (w.read k.resource key)).run k w
  | write key value next => fun w =>
    let (r, w) := World.write k.resource key value w
    (next r).run k w
  | mark next => fun w => next.run k w.markCurrent
  | wait ms next => fun w => next.run k (advance ms w).2
  | execute d body next => fun w =>
    let (r, w) := k.execute d (body.run k) w
    (next r).run k w

/-- A run as part of the run of a flow: all scopes that the program begins it also ends. -/
theorem runs (k : Coordinator) (p : Program) (w : World) (live : List TransactionScope) :
    Coordinator.Runs k ⟨w, live⟩ ⟨(p.run k w).2, live⟩ := by
  induction p generalizing w live with
  | done result => exact .refl
  | get key next ih => exact ih _ w live
  | write key value next ih =>
    rcases hw : World.write k.resource key value w with ⟨r, w₁⟩
    have step : Coordinator.Step k ⟨w, live⟩ ⟨w₁, live⟩ := .wrote hw
    simp only [run, hw]
    exact .head step (ih r w₁ live)
  | mark next ih =>
    have step : Coordinator.Step k ⟨w, live⟩ ⟨w.markCurrent, live⟩ := by
      unfold markCurrent
      cases w.currentTransaction with
      | none => exact .elsewhere rfl rfl
      | some t => exact .marked t true
    exact .head step (ih w.markCurrent live)
  | wait ms next ih =>
    have step : Coordinator.Step k ⟨w, live⟩ ⟨(advance ms w).2, live⟩ :=
      .elsewhere rfl (by cases k.resource <;> rfl)
    exact .head step (ih _ live)
  -- The body is a run that starts with one more live scope and ends without it.
  | execute d body next ihb ihn =>
    have executed : Coordinator.Runs k ⟨w, live⟩ ⟨(k.execute d (body.run k) w).2, live⟩ := by
      rcases hb : k.begin d w with ⟨e | s, w₁⟩
      · exact Coordinator.runs_execute_refused hb
      · have := Coordinator.runs_execute hb (ihb w₁ (s :: live)) (by simp)
        rwa [List.erase_cons_head] at this
    exact executed.trans (ihn _ _ live)

/-! ### What is seen -/

/-- What a program sees of its run. -/
inductive Observation
  | got (key : String) (answer : Option Value)
  /-- A write was taken or refused. -/
  | wrote (key : String) (value : Option Value) (result : Except Error Unit)
  /-- A scope ended, or was refused. -/
  | ended (result : Except Stop Value)

/-- All that a program sees, and all that the programs in its scopes see, in order. -/
def observations (k : Coordinator) : Program → World → List Observation
  | done _, _ => []
  | get key next, w =>
    .got key (w.read k.resource key) :: (next (w.read k.resource key)).observations k w
  | write key value next, w =>
    let (r, w) := World.write k.resource key value w
    .wrote key value r :: (next r).observations k w
  | mark next, w => next.observations k w.markCurrent
  | wait ms next, w => next.observations k (advance ms w).2
  | execute d body next, w =>
    let (r, w') := k.execute d (body.run k) w
    (match k.begin d w with
      | (.ok _, w₁) => body.observations k w₁
      | (.error _, _) => []) ++ .ended r :: (next r).observations k w'

end Program

/-! ### What happens -/

/-- What happened on a run. -/
inductive Record
  /-- Nothing more. -/
  | done
  /-- A write was taken, in a context if one was installed. -/
  | wrote (context : Option ContextId) (key : String) (value : Option Value) (rest : Record)
  /-- A program was run in a scope. -/
  | scope (run : ScopeRun) (inside rest : Record)

/-- A scope on record. -/
structure Occurrence where
  /-- What became of it. -/
  run : ScopeRun
  /-- What happened in it. -/
  inside : Record
  /-- The scopes around it, outer ones first. -/
  path : List ScopeRun

def Occurrence.under (o : Occurrence) (run : ScopeRun) : Occurrence :=
  { o with path := run :: o.path }

/-- All scopes on record, in the order in which they were begun. -/
def Record.scopes : Record → List Occurrence
  | done => []
  | wrote _ _ _ rest => rest.scopes
  | scope run inside rest => ⟨run, inside, []⟩ :: (inside.scopes.map (·.under run) ++ rest.scopes)

namespace Program

/-- What happens on a run of a program. Writes and scopes that are refused leave no trace. -/
def record (k : Coordinator) : Program → World → Record
  | done _, _ => .done
  | get key next, w => (next (w.read k.resource key)).record k w
  | write key value next, w =>
    match World.write k.resource key value w with
    | (.ok (), w₁) => .wrote w.current key value ((next (.ok ())).record k w₁)
    | (.error e, w₁) => (next (.error e)).record k w₁
  | mark next, w => next.record k w.markCurrent
  | wait ms next, w => next.record k (advance ms w).2
  | execute d body next, w =>
    match k.scopeRun d (body.run k) w with
    | .error (e, w₁) => (next (.error (.ofError e))).record k w₁
    | .ok run => .scope run (body.record k run.entered) ((next run.outcome).record k run.after)

variable {k : Coordinator} {d : TransactionDefinition} {body : Program}
  {next : Except Stop Value → Program} {w w' : World}

theorem run_execute_refused {e : Error} (h : k.scopeRun d (body.run k) w = .error (e, w')) :
    (execute d body next).run k w = (next (.error (.ofError e))).run k w' := by
  have he := k.execute_eq_scopeRun d (body.run k) w
  rw [h] at he
  simp only [run, he]

theorem run_execute {r : ScopeRun} (h : k.scopeRun d (body.run k) w = .ok r) :
    (execute d body next).run k w = (next r.outcome).run k r.after := by
  have he := k.execute_eq_scopeRun d (body.run k) w
  rw [h] at he
  simp only [run, he]

end Program

end ComponentHost
