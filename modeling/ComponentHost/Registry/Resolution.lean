import ComponentHost.Console
import ComponentHost.Registry.Store

/-! # Resolution

  Resolving a name gives the instance of a singleton, made at the first success, or a new instance
  of a prototype. Dependencies are resolved first, in the order of their declaration. A cycle below
  the definition is found before anything is made. A failure fills no slot but those of dependencies
  that were made before it, so a later resolution tries again.
-/

namespace ComponentHost

class HasStore (K : outParam Kit) (σ : Type) where
  store : σ → Store K
  setStore : σ → Store K → σ

/-- Runs a factory of a definition on its dependencies. -/
abbrev Maker (K : Kit) (σ : Type) :=
  Definition K → K.factory → Dependencies K → StateM σ (Except Stop (Held K))

/-- An instance and how it is handed out under the type that was asked for. -/
structure Presented (K : Kit) where
  item : Instance K
  cast : Cast K

namespace Resolution

variable {K : Kit} {σ : Type} [HasStore K σ]

open HasStore

/-- A resolution that went deeper than its limit. -/
def tooDeep : Error := .internal "resolution is nested too deeply"

/-- The text of the reason why a factory stopped. -/
def stopMessage : Stop → String
  | .failed f => f.message
  | .panicked m => "factory panicked: " ++ m.getD "unknown panic payload"

def entry (name : String) : Attempt σ (Entry K) := do
  match (store (← get)).lookup? name with
  | some e => return e
  | none => throw (.definitionNotFound name)

/-- Resolves dependencies in order, up to the first failure. A singleton that has been made is taken
    from its slot. -/
def resolveAll (resolve : Definition K → Attempt σ (Instance K)) :
    List String → Attempt σ (List (String × Instance K))
  | [] => return []
  | name :: rest => do
    let e ← entry name
    let i ← match e.slot with
      | some i => pure i
      | none => resolve e.definition
    return (name, i) :: (← resolveAll resolve rest)

/-- Makes an instance from its dependencies. -/
def make (maker : Maker K σ) (d : Definition K) (deps : Dependencies K) :
    Attempt σ (Instance K) :=
  match d.factory with
  | .existing held => return ⟨d.type, held⟩
  | .make f => fun s =>
    match maker d f deps s with
    | (.ok held, s) => (.ok ⟨d.type, held⟩, s)
    | (.error stop, s) => (.error (.construction d.id (stopMessage stop)), s)

/-- Resolves a definition. `path` holds the ids of the definitions that are being resolved for it,
    outermost first; `limit` bounds how many more may follow. -/
def resolve (maker : Maker K σ) : Nat → List String → Definition K → Attempt σ (Instance K)
  | 0, _, _ => throw tooDeep
  | limit + 1, path, d =>
    if d.id ∈ path then throw (.circularDependency (path.dropWhile (· ≠ d.id) ++ [d.id]))
    else
      let construct : Attempt σ (Instance K) := do
        make maker d ⟨← resolveAll (resolve maker limit (path ++ [d.id])) d.dependencies⟩
      match d.scope with
      | .prototype => construct
      | .singleton => do
        match ((store (← get)).entries.get? d.id).bind (·.slot) with
        | some i => return i
        | none =>
          let i ← construct
          modify fun s => setStore s ((store s).fill d.id i)
          return i

def instantiate (maker : Maker K σ) (limit : Nat) (name : String) : Attempt σ (Instance K) := do
  let e ← entry name
  match e.slot with
  | some i => return i
  | none =>
    match (store (← get)).checkAcyclic e.definition.id with
    | .error e => throw e
    | .ok () => resolve maker limit [] e.definition

/-- Resolves a name to something of a type. A definition that does not satisfy the type is refused
    before anything is made. -/
def instantiateAs (maker : Maker K σ) (limit : Nat) (name : String) (key : TypeKey) :
    Attempt σ (Presented K) := do
  let d := (← entry name).definition
  match d.cast? key with
  | none => throw (.typeMismatch d.id key.name)
  | some cast =>
    let i ← instantiate maker limit name
    if i.type = d.type then return ⟨i, cast⟩ else throw (.typeMismatch d.id key.name)

/-- Resolves a type: the definition that alone qualifies for it. -/
def instantiateByType (maker : Maker K σ) (limit : Nat) (key : TypeKey) :
    Attempt σ (Presented K) := do
  match (store (← get)).findByType key with
  | .error e => throw e
  | .ok d => instantiateAs maker limit d.id key

/-! ## Making all singletons -/

/-- How an attempt to make all singletons has gone so far. -/
structure Tally where
  /-- Singletons that are there. -/
  created : Nat := 0
  /-- Prototypes, which are not made ahead of time. -/
  prototypes : Nat := 0
  /-- Singletons whose attempt failed. -/
  failed : Nat := 0
  firstError : Option Error := none
  output : String := ""

namespace Tally

def addCreated (t : Tally) (id : String) : Tally :=
  { t with created := t.created + 1, output := t.output ++ Console.subTask id "✓ Created" }

def addPrototype (t : Tally) (id : String) : Tally :=
  { t with
    prototypes := t.prototypes + 1
    output := t.output ++ Console.subTask id "prototype (created on demand)" }

def addFailed (t : Tally) (id : String) (e : Error) : Tally :=
  { t with
    failed := t.failed + 1
    firstError := t.firstError <|> some e
    output := t.output ++ Console.subTask id ("✗ " ++ e.message) }

/-- All that is printed about the attempt. -/
def report (t : Tally) : String :=
  Console.boxedTitle "🔄 INITIALIZING CONTAINER"
    ++ Console.stepStart 1 "Creating singleton instances"
    ++ t.output
    ++ Console.stepComplete 1 "Singleton instances created" t.created
    ++ Console.summary t.created t.prototypes t.failed

def result (t : Tally) : Except Error Nat :=
  match t.firstError with
  | some e => .error e
  | none => .ok t.created

end Tally

/-- Attempts to make the singletons among some definitions, in order and whatever fails. -/
def makeSingletons (maker : Maker K σ) (limit : Nat) : Tally → List (Definition K) → StateM σ Tally
  | tally, [] => return tally
  | tally, d :: rest =>
    match d.scope with
    | .prototype => makeSingletons maker limit (tally.addPrototype d.id) rest
    | .singleton => do
      match ← (instantiate maker limit d.id).run with
      | .ok _ => makeSingletons maker limit (tally.addCreated d.id) rest
      | .error e => makeSingletons maker limit (tally.addFailed d.id e) rest

/-- Attempts to make all singletons, in the order of registration. -/
def initializeSingletons (maker : Maker K σ) (limit : Nat) : StateM σ Tally := do
  makeSingletons maker limit {} (store (← get)).definitions

end Resolution

end ComponentHost
