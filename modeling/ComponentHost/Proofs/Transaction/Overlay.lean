import ComponentHost.Proofs.Transaction.Program

/-! # Nested overlays

  What programs of scopes mean, without contexts, bindings, journals and savepoints. A state is the
  committed values and at most one layer of pending ones over them.

  - A scope that opens a transaction runs its body on an empty layer. If the body ends well the
    layer is merged into the committed values as they are at that moment, unless it is doomed, in
    which case the scope fails; otherwise the layer is thrown away. The layer from before is current
    again.
  - A scope that joins runs its body on the current layer, and dooms it if the body fails.
  - A scope that nests runs its body on the current layer, and puts back the layer from before if
    the body fails.
  - A scope apart runs its body on no layer. The layer from before is current again.
  - A read sees the pending value, or the committed one. A write goes into the layer, or is
    committed at once where there is none.
-/

namespace ComponentHost

namespace Overlay

/-- Pending values over the committed ones. -/
structure Layer where
  /-- The name in messages. -/
  id : TxId
  isolation : Isolation
  /-- It refuses writes. -/
  readOnly : Bool
  /-- The pending value of a key, if there is one; a deleted key has none as its value. -/
  writes : String → Option (Option Value)
  /-- It cannot be merged any more. -/
  doomed : Bool

/-- An empty layer as a definition asks for it. -/
def Layer.opened (d : TransactionDefinition) (n : Nat) : Layer where
  id := ⟨n⟩
  isolation := d.isolation
  readOnly := d.readOnly
  writes _ := none
  doomed := false

/-- The committed values with those of a layer over them. -/
def Layer.merge (l : Layer) (committed : String → Option Value) (key : String) : Option Value :=
  (l.writes key).getD (committed key)

/-- Committed values and the current layer. -/
structure State where
  /-- The committed value of a key, if it has one. -/
  committed : String → Option Value
  /-- How many layers were opened, which gives the next one its name. -/
  opened : Nat
  layer : Option Layer

namespace State

def read (s : State) (key : String) : Option Value :=
  match s.layer with
  | some l => l.merge s.committed key
  | none => s.committed key

def write (s : State) (key : String) (value : Option Value) : Except Error Unit × State :=
  match s.layer with
  | none => (.ok (), { s with committed := fun k => if k = key then value else s.committed k })
  | some l =>
    if l.readOnly then
      (.error (.resource
        ("cannot write '" ++ key ++ "' in read-only transaction " ++ l.id.label)), s)
    else
      (.ok (), { s with layer := some { l with
        writes := fun k => if k = key then some value else l.writes k } })

def doom (s : State) : State := { s with layer := s.layer.map ({ · with doomed := true }) }

variable {s : State} {l : Layer} {key : String} {value : Option Value}

theorem write_of_none (hl : s.layer = none) :
    s.write key value
      = (.ok (), { s with committed := fun k => if k = key then value else s.committed k }) := by
  simp only [write, hl]

theorem write_of_some (hl : s.layer = some l) (hr : l.readOnly = false) :
    s.write key value = (.ok (), { s with layer := some { l with
      writes := fun k => if k = key then some value else l.writes k } }) := by
  simp only [write, hl, hr, Bool.false_eq_true, if_false]

theorem write_of_readOnly (hl : s.layer = some l) (hr : l.readOnly = true) :
    s.write key value
      = (.error (.resource
          ("cannot write '" ++ key ++ "' in read-only transaction " ++ l.id.label)), s) := by
  simp only [write, hl, hr, if_true]

theorem doom_of_some (hl : s.layer = some l) :
    s.doom = { s with layer := some { l with doomed := true } } := by
  rw [doom, hl]
  rfl

theorem doom_of_none (hl : s.layer = none) : s.doom = s := by
  obtain ⟨committed, opened, layer⟩ := s
  have hl : layer = none := hl
  rw [hl]
  rfl

end State

/-- How a scope uses layers. -/
inductive Role
  | opens
  | joins
  | nests
  /-- It has none. -/
  | apart
  deriving DecidableEq

/-- How a scope uses layers, or why it is refused. -/
def role (policy : IsolationPolicy) (d : TransactionDefinition) : Option Layer → Except Error Role
  | none => match d.propagation with
    | .mandatory => .error .noTransaction
    | .required | .requiresNew | .nested => .ok .opens
    | .supports | .notSupported | .never => .ok .apart
  | some l => match d.propagation with
    | .never => .error (.unexpectedTransaction l.id.label)
    | .required | .supports | .mandatory =>
      if d.isolation ≠ .default ∧ d.isolation ≠ l.isolation ∧ policy = .strict then
        .error (.isolationConflict d.isolation.label l.isolation.label)
      else .ok .joins
    | .requiresNew => .ok .opens
    | .nested => .ok .nests
    | .notSupported => .ok .apart

/-- The state on which the body of a scope runs. -/
def enter (d : TransactionDefinition) (s : State) : Role → State
  | .opens => { s with opened := s.opened + 1, layer := some (.opened d s.opened) }
  | .joins | .nests => s
  | .apart => { s with layer := none }

/-- What a scope makes of the result of its body and of the state that it left, given the state from
    before. -/
def leave (before : State) (result : Except Stop Value) (left : State) :
    Role → Except Stop Value × State
  | .opens => match result, left.layer with
    | .ok v, some l =>
      if l.doomed then
        (.error (.ofError (.unexpectedRollback l.id.label)), { left with layer := before.layer })
      else (.ok v, { left with committed := l.merge left.committed, layer := before.layer })
    | result, _ => (result, { left with layer := before.layer })
  | .joins => match result with
    | .ok v => (.ok v, left)
    | .error stop => (.error stop, left.doom)
  | .nests => match result with
    | .ok v => (.ok v, left)
    | .error stop => (.error stop, { left with layer := before.layer })
  | .apart => (result, { left with layer := before.layer })

def scope (policy : IsolationPolicy) (d : TransactionDefinition)
    (body : State → Except Stop Value × State) (s : State) : Except Stop Value × State :=
  match role policy d s.layer with
  | .error e => (.error (.ofError e), s)
  | .ok r =>
    let (result, left) := body (enter d s r)
    leave s result left r

section Scope

variable {policy : IsolationPolicy} {d : TransactionDefinition} {s : State}
  {body : State → Except Stop Value × State}

theorem scope_refused {e : Error} (h : role policy d s.layer = .error e) :
    scope policy d body s = (.error (.ofError e), s) := by
  simp only [scope, h]

theorem scope_entered {r : Role} (h : role policy d s.layer = .ok r) :
    scope policy d body s = leave s (body (enter d s r)).1 (body (enter d s r)).2 r := by
  simp only [scope, h]

end Scope

end Overlay

namespace Program

open Overlay

def eval (policy : IsolationPolicy) : Program → State → Except Stop Value × State
  | done result, s => (result, s)
  | get key next, s => (next (s.read key)).eval policy s
  | write key value next, s =>
    let (r, s) := s.write key value
    (next r).eval policy s
  | mark next, s => next.eval policy s.doom
  | wait _ next, s => next.eval policy s
  | execute d body next, s =>
    let (r, s) := Overlay.scope policy d (body.eval policy) s
    (next r).eval policy s

/-- What a program sees when it runs on overlays. -/
def glimpses (policy : IsolationPolicy) : Program → State → List Observation
  | done _, _ => []
  | get key next, s => .got key (s.read key) :: (next (s.read key)).glimpses policy s
  | write key value next, s =>
    let (r, s) := s.write key value
    .wrote key value r :: (next r).glimpses policy s
  | mark next, s => next.glimpses policy s.doom
  | wait _ next, s => next.glimpses policy s
  | execute d body next, s =>
    let (r, s') := Overlay.scope policy d (body.eval policy) s
    (match role policy d s.layer with
      | .ok role => body.glimpses policy (enter d s role)
      | .error _ => []) ++ .ended r :: (next r).glimpses policy s'

/-- No scope of the program asks for a timeout. -/
def Untimed : Program → Prop
  | done _ => True
  | get _ next => ∀ answer, (next answer).Untimed
  | write _ _ next => ∀ result, (next result).Untimed
  | mark next => next.Untimed
  | wait _ next => next.Untimed
  | execute d body next => d.timeout = none ∧ body.Untimed ∧ ∀ result, (next result).Untimed

end Program

end ComponentHost
