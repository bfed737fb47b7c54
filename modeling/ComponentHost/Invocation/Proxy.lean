import ComponentHost.Data.Dict
import ComponentHost.Invocation.Chain

/-! # Proxies

  A proxy stands in front of a target and exposes methods of its table. Under the interface strategy
  it exposes the methods of the declared interfaces and intercepts all of them; under the subclass
  strategy it exposes all methods and intercepts those that are not sealed. A method is called by
  its name, or by its qualified name where the name alone is ambiguous.
-/

namespace ComponentHost

/-! ## Method tables -/

structure MethodSlot (β : Type) where
  /-- What is declared about it. -/
  signature : MethodSignature
  body : Option β
  deriving Repr

/-- The methods of a target. -/
structure MethodTable (β : Type) where
  typeName : String
  /-- The interfaces that the target declares. -/
  interfaces : List String := []
  /-- Its methods; owner and name are never the same in two of them. -/
  slots : List (MethodSlot β) := []
  deriving Repr

namespace MethodTable

variable {β : Type}

/-- Two methods share owner and name. -/
def sameSlot (a b : MethodSlot β) : Bool :=
  a.signature.owner == b.signature.owner && a.signature.name == b.signature.name

/-- Puts a method in the place of one with its owner and name, or at the end. -/
def putSlot (slot : MethodSlot β) : List (MethodSlot β) → List (MethodSlot β)
  | [] => [slot]
  | s :: rest => if sameSlot s slot then slot :: rest else s :: putSlot slot rest

def put (t : MethodTable β) (slot : MethodSlot β) : MethodTable β :=
  { t with slots := putSlot slot t.slots }

def implement (t : MethodTable β) (interface : String) : MethodTable β :=
  { t with interfaces := t.interfaces ++ [interface] }

end MethodTable

/-! ## Strategies and routes -/

/-- How a proxy stands in front of its target. -/
inductive ProxyStrategy
  /-- By the interfaces that the target declares. -/
  | interface
  | subclass
  deriving Repr, DecidableEq, Inhabited

def ProxyStrategy.name : ProxyStrategy → String
  | interface => "Interface"
  | subclass => "Subclass"

/-- The strategy for a table: the one asked for, or else by interfaces if there are any. -/
def MethodTable.strategy {β : Type} (t : MethodTable β) : Option ProxyStrategy → ProxyStrategy
  | some s => s
  | none => if t.interfaces.isEmpty then .subclass else .interface

/-- Where a name leads. -/
inductive Route
  /-- Through the chain to the method at a place of the table. -/
  | intercepted (slot : Nat)
  /-- Straight to the method at a place of the table. -/
  | direct (slot : Nat)
  /-- To several methods. -/
  | ambiguous
  deriving Repr, DecidableEq

def Route.isIntercepted : Route → Bool
  | intercepted _ => true
  | _ => false

/-- The routes of a proxy, by name. -/
abbrev Routes := Dict String Route

namespace Routes

variable {β : Type}

/-- The route to an exposed method, or none where the method is not exposed. -/
def routeTo? (t : MethodTable β) (strategy : ProxyStrategy) (i : Nat) (slot : MethodSlot β) :
    Option Route :=
  match strategy with
  | .interface => if slot.signature.owner ∈ t.interfaces then some (.intercepted i) else none
  | .subclass => some (if slot.signature.isSealed then .direct i else .intercepted i)

/-- Adds the route to a method under its qualified name and under its name; a name that is there
    already becomes ambiguous. -/
def add (routes : Routes) (signature : MethodSignature) (route : Route) : Routes :=
  let routes := routes.insert signature.qualifiedName route
  let shared := if routes.contains signature.name then Route.ambiguous else route
  routes.insert signature.name shared

/-- Adds the routes to the methods of a table from a place on. -/
def addAll (t : MethodTable β) (strategy : ProxyStrategy) :
    Nat → List (MethodSlot β) → Routes → Routes
  | _, [], routes => routes
  | i, slot :: rest, routes =>
    addAll t strategy (i + 1) rest <|
      match routeTo? t strategy i slot with
      | some route => routes.add slot.signature route
      | none => routes

def ofTable (t : MethodTable β) (strategy : ProxyStrategy) : Routes :=
  addAll t strategy 0 t.slots {}

end Routes

/-! ## Proxies -/

/-- A proxy for a target of type `τ`, with filters of type `φ` and method bodies of type `β`. -/
structure Proxy (τ φ β : Type) where
  target : τ
  table : MethodTable β
  /-- The filters, in the order in which calls pass them. -/
  filters : List φ
  /-- How the proxy stands in front of its target. -/
  strategy : ProxyStrategy
  /-- Where names lead. -/
  routes : Routes

namespace Proxy

variable {τ φ β : Type}

/-- Why no method of a table can be intercepted. -/
def obstacle (t : MethodTable β) : ProxyStrategy → String
  | .interface => "no methods declared on its interfaces"
  | .subclass => if t.slots.isEmpty then "no method slots" else "all methods are sealed"

/-- Builds a proxy. It is refused where it could not intercept any method. -/
def build (target : τ) (t : MethodTable β) (filters : List φ) (asked : Option ProxyStrategy) :
    Except Error (Proxy τ φ β) :=
  let strategy := t.strategy asked
  let routes := Routes.ofTable t strategy
  if routes.entries.any (·.2.isIntercepted) then .ok ⟨target, t, filters, strategy, routes⟩
  else .error (.nonProxyable t.typeName (obstacle t strategy))

def methods (p : Proxy τ φ β) : List String :=
  (p.table.slots.filter fun s => p.routes.contains s.signature.qualifiedName).map
    (·.signature.name)

def isIntercepted (p : Proxy τ φ β) (method : String) : Bool :=
  (p.routes.get? method).any (·.isIntercepted)

/-- The qualified names of the exposed methods of a name, in the order of the table. -/
def candidates (p : Proxy τ φ β) (method : String) : List String :=
  ((p.table.slots.filter (·.signature.name == method)).map (·.signature.qualifiedName)).filter
    p.routes.contains

/-- The method that a name leads to, and whether calls of it pass the filters. -/
def select (p : Proxy τ φ β) (method : String) : Except Error (MethodSlot β × Bool) :=
  let notFound := Error.methodNotFound p.table.typeName method
  let slot (i : Nat) (intercepted : Bool) : Except Error (MethodSlot β × Bool) :=
    match p.table.slots[i]? with
    | some slot => .ok (slot, intercepted)
    | none => .error notFound
  match p.routes.get? method with
  | none => .error notFound
  | some (.intercepted i) => slot i true
  | some (.direct i) => slot i false
  | some .ambiguous =>
    .error (.invalidArgument method
      ("ambiguous method name, use one of " ++ Text.quotedList (p.candidates method)))

/-- The last link to a method: its body, whose failure is that of the method, or for a method
    without one an error. -/
def invoker {σ : Type} (run : β → Invoker σ) (slot : MethodSlot β) : Invoker σ := fun args =>
  match slot.body with
  | none => return .error (.ofError (.unsupportedInvocation slot.signature.display))
  | some body => do
    match ← run body args with
    | .ok v => return .ok v
    | .error stop => return .error (stop.ofMethod slot.signature.display)

/-- Calls a method of the target by a name. `filter` and `run` say what filters and bodies do. -/
def invoke {σ : Type} (filter : φ → Filter σ) (run : τ → β → Invoker σ) (p : Proxy τ φ β)
    (method : String) (values : List Value) : StateM σ (Except Stop Value) :=
  match p.select method with
  | .error e => return .error (.ofError e)
  | .ok (slot, intercepted) =>
    let signature := slot.signature
    let expected := signature.parameters.length
    if values.length ≠ expected then
      return .error (.ofError (.invalidArgument signature.display
        ("expected " ++ toString expected ++ " arguments, got " ++ toString values.length)))
    else
      let args := Arguments.forMethod signature values
      let last := invoker (run p.target) slot
      if intercepted then do
        return (← Chain.execute (p.filters.map filter) signature last args).1
      else last args

/-- Reads the result of a call under a shape; `expected` is the name of what the caller wants. -/
def readResult (p : Proxy τ φ β) (method : String) (shape : Shape) (expected : String)
    (v : Value) : Except Error Value :=
  match shape.read v with
  | .ok v => .ok v
  | .error e =>
    .error (.typeMismatch (p.table.typeName ++ "::" ++ method) (expected ++ " (" ++ e ++ ")"))

end Proxy

end ComponentHost
