import ComponentHost.Registry.Definition

/-! # Definition stores

  A store keeps definitions under their ids, aliases for ids, for every singleton a slot for its
  instance, and the list of the ids in the order of their registration. An id is never an alias,
  every alias stands for an id, and a call that fails changes nothing.
-/

namespace ComponentHost

structure Entry (K : Kit) where
  definition : Definition K
  /-- The instance, once the singleton has been made. -/
  slot : Option (Instance K) := none

/-- A store of definitions. -/
structure Store (K : Kit) where
  /-- The definitions by id. -/
  entries : Dict String (Entry K) := {}
  /-- The ids that aliases stand for. -/
  aliases : Dict String String := {}
  /-- The ids, in the order of registration. -/
  ids : List String := []

namespace Store

variable {K : Kit}

instance : Inhabited (Store K) := ⟨{}⟩

def size (s : Store K) : Nat := s.ids.length

/-- The id that a name stands for: itself, or the one it is an alias of. -/
def canonical? (s : Store K) (name : String) : Option String :=
  if s.entries.contains name then some name else s.aliases.get? name

def lookup? (s : Store K) (name : String) : Option (Entry K) :=
  (s.canonical? name).bind s.entries.get?

def find? (s : Store K) (name : String) : Option (Definition K) :=
  (s.lookup? name).map (·.definition)

/-- The definitions, in the order of registration. -/
def definitions (s : Store K) : List (Definition K) :=
  s.ids.filterMap fun id => (s.entries.get? id).map (·.definition)

/-! ## Registration -/

/-- Checks the aliases of a definition that is to be registered under an id. -/
def checkAliases (s : Store K) (id : String) : List String → Except Error Unit
  | [] => .ok ()
  | a :: rest =>
    match s.canonical? a with
    | some existing => .error (.aliasConflict a existing id)
    | none => if a = id then .error (.aliasConflict a id id) else s.checkAliases id rest

def register (s : Store K) (d : Definition K) : Except Error (Store K) :=
  if s.entries.contains d.id || s.aliases.contains d.id then .error (.duplicateDefinition d.id)
  else do
    s.checkAliases d.id d.aliases
    return {
      entries := s.entries.insert d.id { definition := d }
      aliases := d.aliases.foldl (fun as a => as.insert a d.id) s.aliases
      ids := s.ids ++ [d.id] }

/-- Makes a name an alias of what another name stands for. An alias that stands for the same id
    already is left as it is. -/
def addAlias (s : Store K) (new name : String) : Except Error (Store K) :=
  match s.canonical? name with
  | none => .error (.definitionNotFound name)
  | some target =>
    match s.canonical? new with
    | none => .ok { s with aliases := s.aliases.insert new target }
    | some existing =>
      if existing = target && new ≠ target then .ok s
      else .error (.aliasConflict new existing target)

/-- Puts the instance of a singleton into its slot. -/
def fill (s : Store K) (id : String) (i : Instance K) : Store K :=
  match s.entries.get? id with
  | some e => { s with entries := s.entries.insert id { e with slot := some i } }
  | none => s

/-! ## Types -/

/-- The definitions that qualify for a type: those of that concrete type, or if there are none
    those that declare it as a capability. -/
def candidates (s : Store K) (key : TypeKey) : List (Definition K) :=
  let exact := s.definitions.filter (·.isExact key)
  if exact.isEmpty then s.definitions.filter (·.satisfies key) else exact

/-- The definition that alone qualifies for a type, if any does. -/
def findByType? (s : Store K) (key : TypeKey) : Except Error (Option (Definition K)) :=
  match s.candidates key with
  | [] => .ok none
  | [d] => .ok (some d)
  | ds => .error (.ambiguousType key.name (ds.map (·.id)))

/-- The definition that alone qualifies for a type. -/
def findByType (s : Store K) (key : TypeKey) : Except Error (Definition K) :=
  match s.findByType? key with
  | .ok (some d) => .ok d
  | .ok none => .error (.definitionNotFound key.name)
  | .error e => .error e

/-! ## Cycles -/

/-- Searches for a cycle below a name, depth first. `visiting` is the way from the start to here and
    `finished` holds the ids below which there is none; names that stand for nothing are passed
    over. `fuel` bounds the length of the way. -/
def visit (s : Store K) : Nat → List String → List String → String →
    Except (List String) (List String)
  | fuel, visiting, finished, name =>
    match s.canonical? name with
    | none => .ok finished
    | some id =>
      if id ∈ finished then .ok finished
      else if id ∈ visiting then .error (visiting.dropWhile (· ≠ id) ++ [id])
      else match s.entries.get? id, fuel with
        | none, _ | _, 0 => .ok finished
        | some e, fuel + 1 => do
          let finished ← e.definition.dependencies.foldlM
            (fun finished dep => s.visit fuel (visiting ++ [id]) finished dep) finished
          return id :: finished

/-- Fails if a cycle lies below a definition. -/
def checkAcyclic (s : Store K) (id : String) : Except Error Unit :=
  match s.visit (s.size + 1) [] [] id with
  | .ok _ => .ok ()
  | .error path => .error (.circularDependency path)

end Store

end ComponentHost
