import ComponentHost.Registry.Resolution
import ComponentHost.Settings
import ComponentHost.Task.Transactional

/-! # Containers

  A container brings a store of definitions and a coordinator of transactions together: it resolves
  names and types, puts proxies in front of components, and runs bodies in transactions.
-/

namespace ComponentHost

/-- What a container is set up with. -/
structure Container where
  /-- The coordinator of its transactions, if it has one. -/
  coordinator? : Option Coordinator := none
  /-- The type under which filters are registered. -/
  filterType : TypeKey
  deriving Repr, DecidableEq

namespace Container

variable {K : Kit} {σ : Type} [HasStore K σ]

open HasStore

def coordinator (c : Container) : Except Error Coordinator :=
  match c.coordinator? with
  | some k => .ok k
  | none => .error (.internal "no transaction coordinator configured")

def definition (s : Store K) (name : String) : Except Error (Definition K) :=
  match s.find? name with
  | some d => .ok d
  | none => .error (.definitionNotFound name)

def definitionByType (s : Store K) (key : TypeKey) : Except Error (Definition K) := s.findByType key

/-! ## Proxies -/

/-- The filter that a specification means. One that is named is resolved. -/
def resolveFilter (c : Container) (maker : Maker K σ) (limit : Nat) :
    FilterSpec K.filter → Attempt σ K.filter
  | .inline f => return f
  | .named name => do
    match (← Resolution.instantiateAs maker limit name c.filterType).item.held with
    | .filter f => return f
    | .component _ => throw (.typeMismatch name c.filterType.name)

def resolveFilters (c : Container) (maker : Maker K σ) (limit : Nat)
    (specs : List (FilterSpec K.filter)) : Attempt σ (List K.filter) :=
  specs.mapM (c.resolveFilter maker limit)

def buildProxy {τ : Type} (c : Container) (maker : Maker K σ) (limit : Nat) (target : τ)
    (t : MethodTable K.body) (specs : List (FilterSpec K.filter)) :
    Attempt σ (Proxy τ K.filter K.body) := do
  let filters ← c.resolveFilters maker limit specs
  Attempt.ofExcept (Proxy.build target t filters none)

/-- Puts a proxy in front of the component that a name resolves to, with the methods and filters of
    its definition. `present` hands an instance out as a target. -/
def resolveProxy {τ : Type} (c : Container) (maker : Maker K σ) (limit : Nat)
    (present : Presented K → StateM σ τ) (name : String) (key : TypeKey) :
    Attempt σ (Proxy τ K.filter K.body) := do
  let d ← Attempt.ofExcept (definition (store (← get)) name)
  if !d.isExact key then throw (.typeMismatch d.id key.name)
  else match d.methods with
    | none =>
      throw (.nonProxyable d.type.name ("definition '" ++ d.id ++ "' has no method table"))
    | some t =>
      let p ← Resolution.instantiateAs maker limit name key
      c.buildProxy maker limit (← present p) t d.filters

end Container

end ComponentHost
