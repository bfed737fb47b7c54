import ComponentHost.Invocation.Proxy

/-! # Component definitions

  A definition says how a component is made, how long an instance lives, under which names and types
  it is found, and what stands around its methods. It is built by clauses, one after the other. What
  factories, filters, method bodies and conversions are is left open: a kit names their types.

  What a definition is looked up by, and how its instances are handed out, are two tables: the list
  of the capabilities that were declared, and the casters. A clause that declares a capability
  writes both.
-/

namespace ComponentHost

/-- A type of components or of what they are capable of. -/
structure TypeKey where
  /-- Its name in messages. -/
  name : String
  deriving Repr, DecidableEq, Inhabited

/-- How long an instance lives. -/
inductive Scope
  /-- As long as the store; there is one. -/
  | singleton
  /-- Every resolution makes its own. -/
  | prototype
  deriving Repr, DecidableEq, Inhabited

namespace Scope

def all : List Scope := [singleton, prototype]

def name : Scope → String
  | singleton => "singleton"
  | prototype => "prototype"

def title : Scope → String
  | singleton => "Singleton"
  | prototype => "Prototype"

end Scope

/-- The types of what a host is built from. -/
structure Kit where
  component : Type
  filter : Type
  body : Type
  factory : Type
  /-- Conversions of an instance to something that it is capable of being. -/
  conversion : Type

/-- What an instance holds. -/
inductive Held (K : Kit)
  | component (c : K.component)
  /-- A filter that was registered in order to be found by its name. -/
  | filter (f : K.filter)

/-- An instance that a store hands out. -/
structure Instance (K : Kit) where
  type : TypeKey
  held : Held K

/-- How instances are come by. -/
inductive Factory (K : Kit)
  /-- There is one already. -/
  | existing (held : Held K)
  /-- They are made. -/
  | make (factory : K.factory)

/-- A filter around a component's methods. -/
inductive FilterSpec (φ : Type)
  | inline (filter : φ)
  /-- The filter that is found under a name. -/
  | named (name : String)

/-- How an instance is handed out under a type. -/
inductive Cast (K : Kit)
  /-- As it is. -/
  | itself
  | converted (conversion : K.conversion)

/-- How a component is made, kept and found. -/
structure Definition (K : Kit) where
  id : String
  /-- The concrete type of its instances. -/
  type : TypeKey
  /-- The declared capabilities, in the order of their first declarations. -/
  implements : List TypeKey := []
  /-- How its instances are handed out under a type. There is a way for the concrete type from the
      start. -/
  casters : Dict TypeKey (Cast K) := ({} : Dict TypeKey (Cast K)).insert type .itself
  scope : Scope := .singleton
  aliases : List String := []
  /-- The names of what its factory needs. -/
  dependencies : List String := []
  filters : List (FilterSpec K.filter) := []
  /-- Its methods, if a proxy may stand in front of it. -/
  methods : Option (MethodTable K.body) := none
  /-- How its instances are come by. -/
  factory : Factory K

namespace Definition

variable {K : Kit}

def isExact (d : Definition K) (key : TypeKey) : Bool := d.type == key

/-- The concrete type, or a declared capability, is this one. -/
def satisfies (d : Definition K) (key : TypeKey) : Bool :=
  d.isExact key || d.implements.contains key

/-- How instances are handed out under a type. -/
def cast? (d : Definition K) (key : TypeKey) : Option (Cast K) := d.casters.get? key

/-- The filters in messages; `name` tells the name of a filter. -/
def filterNames (name : K.filter → String) (d : Definition K) : List String :=
  d.filters.map fun
    | .inline f => "Inline(" ++ name f ++ ")"
    | .named n => "Named(" ++ n ++ ")"

/-- A definition's description in messages; `name` tells the name of a filter. -/
def description (name : K.filter → String) (d : Definition K) : String :=
  "Definition \x7b id: " ++ Text.quoted d.id
    ++ ", type: " ++ Text.quoted d.type.name
    ++ ", scope: " ++ d.scope.title
    ++ ", aliases: " ++ Text.quotedList d.aliases
    ++ ", filters: " ++ Text.listed (d.filterNames name)
    ++ ", dependencies: " ++ Text.quotedList d.dependencies ++ " \x7d"

end Definition

/-! ## Clauses -/

/-- What a definition is built by, after its id, its type and its factory are known. -/
inductive Clause (K : Kit)
  | scope (scope : Scope)
  | named (name : String)
  /-- One more name of what its factory needs. -/
  | dependsOn (name : String)
  /-- One more filter around its methods. -/
  | filter (spec : FilterSpec K.filter)
  /-- Its instances are capable of something, by a conversion. -/
  | implements (key : TypeKey) (conversion : K.conversion)
  | methods (table : MethodTable K.body)

namespace Definition

variable {K : Kit}

/-- Declares a capability. A capability that is declared again, or that is the concrete type, gets
    another conversion. -/
def implement (d : Definition K) (key : TypeKey) (conversion : K.conversion) : Definition K :=
  { d with
    implements := if key ∈ d.implements then d.implements else d.implements ++ [key]
    casters := d.casters.insert key (.converted conversion) }

def add (d : Definition K) : Clause K → Definition K
  | .scope scope => { d with scope }
  | .named name => { d with aliases := d.aliases ++ [name] }
  | .dependsOn name => { d with dependencies := d.dependencies ++ [name] }
  | .filter spec => { d with filters := d.filters ++ [spec] }
  | .implements key conversion => d.implement key conversion
  | .methods table => { d with methods := some table }

def build (id : String) (type : TypeKey) (factory : Factory K) (clauses : List (Clause K)) :
    Definition K :=
  clauses.foldl add { id, type, factory }

end Definition

/-! ## Dependencies -/

/-- The instances that a factory is given, under the names that its definition declares. -/
structure Dependencies (K : Kit) where
  /-- Names and instances, in the order of the declaration. -/
  resolved : List (String × Instance K) := []

namespace Dependencies

variable {K : Kit}

def instance? (d : Dependencies K) (name : String) : Option (Instance K) := d.resolved.lookup name

/-- The instance under a name, which must be of a concrete type. -/
def get (d : Dependencies K) (name : String) (type : TypeKey) : Except Error (Instance K) :=
  match d.instance? name with
  | none => .error (.definitionNotFound name)
  | some i => if i.type = type then .ok i else .error (.typeMismatch name type.name)

def size (d : Dependencies K) : Nat := d.resolved.length

end Dependencies

end ComponentHost
