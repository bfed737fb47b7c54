import ComponentHost.Transaction.Memory

/-! # Resources

  A resource is a transactional memory behind a gate. For every kind of call the gate holds a
  schedule of verdicts on the next calls of that kind; where the schedule has run out, calls pass.
  So every pattern of failures in a finite run is some schedule. A log keeps all calls and how they
  went.
-/

namespace ComponentHost

/-- The kinds of calls on a resource. -/
inductive Point
  | begin
  | commit
  | rollback
  | createSavepoint
  | rollbackToSavepoint
  | releaseSavepoint
  | suspend
  | resume
  deriving Repr, DecidableEq, Inhabited

namespace Point

def all : List Point :=
  [begin, commit, rollback, createSavepoint, rollbackToSavepoint, releaseSavepoint, suspend, resume]

def name : Point → String
  | begin => "begin"
  | commit => "commit"
  | rollback => "rollback"
  | createSavepoint => "create_savepoint"
  | rollbackToSavepoint => "rollback_to_savepoint"
  | releaseSavepoint => "release_savepoint"
  | suspend => "suspend"
  | resume => "resume"

end Point

def Call.point : Call → Point
  | begin _ => .begin
  | commit _ => .commit
  | rollback _ => .rollback
  | createSavepoint _ _ => .createSavepoint
  | rollbackToSavepoint _ _ => .rollbackToSavepoint
  | releaseSavepoint _ _ => .releaseSavepoint
  | suspend _ => .suspend
  | resume _ => .resume

def Call.isHook : Call → Bool
  | suspend _ | resume _ => true
  | _ => false

/-- What the gate does with a call. -/
inductive Verdict
  /-- It lets the call through. -/
  | pass
  /-- It fails the call, which is not carried out. -/
  | refuse
  /-- It lets the call through and then fails it. -/
  | spoil
  deriving Repr, DecidableEq, Inhabited

/-- Equal verdicts on several calls in a row. -/
structure Stretch where
  calls : Nat
  verdict : Verdict
  deriving Repr, DecidableEq

/-- The verdicts on the next calls, in their order. -/
abbrev Schedule := List Stretch

namespace Schedule

def verdicts (s : Schedule) : List Verdict := s.flatMap fun t => List.replicate t.calls t.verdict

def next : Schedule → Verdict
  | [] => .pass
  | ⟨0, _⟩ :: later => next later
  | ⟨_ + 1, v⟩ :: _ => v

/-- What is left once that verdict has been given. -/
def rest : Schedule → Schedule
  | [] => []
  | ⟨0, _⟩ :: later => rest later
  | ⟨n + 1, v⟩ :: later => ⟨n, v⟩ :: later

theorem next_eq_headD : (s : Schedule) → s.next = s.verdicts.headD .pass
  | [] => rfl
  | ⟨0, _⟩ :: later => by simpa [next, verdicts] using next_eq_headD later
  | ⟨_ + 1, _⟩ :: _ => by simp [next, verdicts, List.replicate_succ]

theorem verdicts_rest : (s : Schedule) → s.rest.verdicts = s.verdicts.tail
  | [] => rfl
  | ⟨0, _⟩ :: later => by simpa [rest, verdicts] using verdicts_rest later
  | ⟨_ + 1, _⟩ :: _ => by simp [rest, verdicts, List.replicate_succ]

end Schedule

/-- A call and how it went. -/
structure CallRecord where
  call : Call
  /-- The memory carried it out. -/
  performed : Bool
  /-- The caller was told that it succeeded. -/
  succeeded : Bool
  deriving Repr, DecidableEq

/-- A transactional memory behind a gate. -/
structure Resource where
  memory : Memory := {}
  /-- The verdicts on the next calls of each kind. -/
  schedules : Dict Point Schedule := {}
  /-- Calls that lay a transaction aside or take it up again reach the memory; otherwise they
      succeed at the gate and leave no trace. -/
  hooks : Bool := true
  /-- All calls, the latest first. -/
  log : List CallRecord := []
  deriving Repr, DecidableEq, Inhabited

namespace Resource

def name (r : Resource) : String := if r.hooks then "memory" else "resource"

def injected (p : Point) : Error := .resource ("injected " ++ p.name ++ " fault")

def schedule (r : Resource) (p : Point) : Schedule := (r.schedules.get? p).getD []

/-- The resource once a verdict on a call of a kind has been given. -/
def judged (r : Resource) (p : Point) : Resource :=
  match r.schedules.get? p with
  | some s => { r with schedules := r.schedules.insert p s.rest }
  | none => r

def logged (r : Resource) (call : Call) (performed succeeded : Bool) : Resource :=
  { r with log := ⟨call, performed, succeeded⟩ :: r.log }

/-- A call on the resource. -/
def call (r : Resource) (c : Call) : Except Error Unit × Resource :=
  if c.isHook && !r.hooks then (.ok (), r.logged c false true)
  else
    let judged := r.judged c.point
    match (r.schedule c.point).next with
    | .refuse => (.error (injected c.point), judged.logged c false false)
    | .pass => match r.memory.perform c with
      | .ok m => (.ok (), { judged with memory := m }.logged c true true)
      | .error e => (.error e, judged.logged c false false)
    | .spoil => match r.memory.perform c with
      | .ok m => (.error (injected c.point), { judged with memory := m }.logged c true false)
      | .error e => (.error e, judged.logged c false false)

/-- The calls that the memory carried out, oldest first, as texts. -/
def events (r : Resource) : List String :=
  (r.log.filter (·.performed)).reverse.map (·.call.event)

end Resource

end ComponentHost
