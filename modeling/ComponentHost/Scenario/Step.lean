import ComponentHost.Container
import ComponentHost.Invocation.Logging
import ComponentHost.Invocation.Transactional

/-! # Steps

  A scenario is a list of steps that use a host: they register and resolve components, call methods
  through proxies, run bodies in transactions and contexts, and read and write resources. Bodies of
  methods, filters and transactions are lists of steps themselves.
-/

namespace ComponentHost.Scenario

/-! ## What steps are made of -/

structure Line (S : Type) where
  step : S
  /-- A failure of the step does not end the body. -/
  caught : Bool := false

inductive MethodScript (S : Type)
  | steps (lines : List (Line S))
  /-- It returns something that cannot be written as a value. -/
  | unwritable

/-- The methods of a component, in the order in which they are added. -/
structure TableScript (S : Type) where
  typeName : String
  interfaces : List String
  /-- The methods; one with the owner and name of an earlier one replaces it. -/
  methods : List (MethodSlot (MethodScript S))

inductive FilterScript (S : Type)
  /-- Steps; a filter without a name of its own goes by the name of its type. -/
  | steps (name : Option String) (typeName : String) (lines : List (Line S))
  | logging (options : LoggingOptions)
  /-- The transaction filter of a resource's coordinator. -/
  | transactional (on : ResourceId) (rules : TransactionRules)

/-- How an instance becomes something that it is capable of being. -/
inductive Conversion
  /-- It is seen as such. -/
  | view (key : TypeKey)
  /-- A new component of that type is made after it. -/
  | rebuild (key : TypeKey)
  deriving Repr, DecidableEq

/-- What a factory does. Its attempts are counted from one; `B` is the type of blueprints. -/
structure FactoryScript (B : Type) where
  /-- Further names under which it looks for dependencies. -/
  probe : List String := []
  register : List B := []
  lookup : List String := []
  /-- The dependencies that it takes as instances of a type. -/
  get : List (String × TypeKey) := []
  /-- It panics with a fixed text up to this attempt. -/
  panicFixed : Nat := 0
  /-- It panics with a text about the attempt up to this attempt. -/
  panicTold : Nat := 0
  /-- It panics without a text up to this attempt. -/
  panicMute : Nat := 0
  /-- It fails up to this attempt. -/
  fail : Nat := 0
  message : String := "factory failed"

/-- Where the instances of a blueprint come from. -/
inductive Origin (S B : Type)
  /-- One is made when the blueprint is registered. -/
  | registered
  | filter (f : FilterScript S)
  | factory (f : FactoryScript B)

/-- From what a definition is built. -/
structure Blueprint (S : Type) where
  id : String
  type : TypeKey
  scope : Scope := .singleton
  aliases : List String := []
  dependencies : List String := []
  filters : List (FilterSpec (FilterScript S)) := []
  capabilities : List (TypeKey × Conversion) := []
  table : Option (TableScript S) := none
  origin : Origin S (Blueprint S)

structure TaskScript (S : Type) where
  lines : List (Line S)
  /-- The values of the context that it runs in, if it has one of its own. -/
  context : Option Attributes := none
  /-- It is dropped when it waits after this many polls. -/
  polls : Option Nat := none

/-- The value that a body returns. -/
inductive Returned
  /-- This value. -/
  | value (v : Value)
  | argument (index : Nat)
  /-- The last result of passing the call on, wrapped. -/
  | wrapped
  deriving Repr, DecidableEq

/-- How a resource is used: coordinated by its own coordinator, or through the container. -/
inductive Via
  /-- By the coordinator of a resource. -/
  | coordinator (on : ResourceId)
  /-- By the container. -/
  | container
  deriving Repr, DecidableEq

/-! ## The steps -/

/-- A step of a scenario. Labels name what a step keeps for later ones. -/
inductive Step
  -- memory
  | put (on : ResourceId) (key : String) (value : Value)
  | delete (on : ResourceId) (key : String)
  | get (on : ResourceId) (key : String)
  | store (on : ResourceId)
  | refuseCommits (on : ResourceId) (refuse : Bool)
  /-- Sets the verdicts on the next calls of a kind. -/
  | fault (on : ResourceId) (point : Point) (schedule : Schedule)
  -- transactions
  | transaction (via : Via) (definition : TransactionDefinition) (body : List (Line Step))
  | begin (on : ResourceId) (definition : TransactionDefinition) (label : String)
  | complete (label : String)
  | failScope (label : String)
  /-- Lets go of what a label names. -/
  | drop (label : String)
  | current (label : Option String)
  /-- Shows a transaction that a label names. -/
  | inspect (label : String)
  | setRollbackOnly
  /-- Fails if the time of the current transaction is up. -/
  | checkTimeout
  | advance (ms : Nat)
  | policy (on : ResourceId)
  -- control
  | fail (failure : Failure)
  | panic (message : String)
  | catchPanic (body : List (Line Step))
  | iterate (count : Nat) (body : List (Line Step))
  | note (text : String)
  | return (value : Returned)
  -- contexts
  /-- Installs a new context; it is first derived from what a label names. -/
  | push (label : String) (values : Attributes) (source : Option String)
  | pop (label : String)
  /-- Derives a context from what a label names, and keeps it. -/
  | derive (label : String) (parent : Option String) (values : Attributes)
  | insert (label : String) (values : Attributes)
  | context (label : Option String)
  /-- Runs a body in a new context. -/
  | scope (values : Attributes) (body : List (Line Step))
  | otherFlow (on : ResourceId) (write : Option (String × Value)) (read : Option String)
  -- registry
  | register (blueprint : Blueprint Step)
  | addAlias (new name : String)
  | definition (name : String)
  | find (name : String)
  | ids
  /-- Finds the definition for a type, which must be there. -/
  | definitionByType (key : TypeKey)
  /-- Finds the definition for a type, if there is one. -/
  | findByType (key : TypeKey)
  | resolve (name : String)
  | resolveAs (name : String) (key : TypeKey)
  | resolveByType (key : TypeKey)
  /-- Resolves a name from several flows at once. -/
  | resolveTogether (name : String) (flows : Nat)
  | makeSingletons
  | scan
  | start
  -- proxies and chains
  /-- Puts a proxy in front of a component that is resolved. -/
  | resolveProxy (name : String) (key : TypeKey) (label : String)
  /-- Puts a proxy in front of a new component; `strategy` is given where the choice is not left to
      the container. -/
  | buildProxy (key : TypeKey) (table : TableScript Step)
      (filters : List (FilterSpec (FilterScript Step)))
      (strategy : Option (Option ProxyStrategy)) (label : String)
  | cloneProxy (proxy label : String)
  /-- Shows a proxy, and how it treats some names. -/
  | proxyInfo (proxy : String) (probe : List String)
  /-- Calls a method; the result may be read under a shape, which has a name. -/
  | invoke (proxy method : String) (arguments : List Value) (shape : Option (String × Shape))
  /-- Passes a call through a chain of filters to a method of a new component, several times. -/
  | chain (key : TypeKey) (filters : List (FilterSpec (FilterScript Step)))
      (signature : MethodSignature) (arguments : List Value) (body : Option (List (Line Step)))
      (times : Nat) (bare : Bool)
  /-- Shows the definition that a transaction filter has for a method. -/
  | definitionFor (filter : FilterScript Step) (signature : MethodSignature)
  -- in filters and methods
  | proceed
  | position
  | setArgument (index : Nat) (value : Option Value)
  | argument (index : Nat) (shape : Shape)
  | arguments
  | bump
  -- tasks
  /-- Runs a body as a task to its end. -/
  | async (body : List (Line Step))
  | tasks (tasks : List (TaskScript Step))
  /-- In a task: runs a body in a scope. -/
  | transactionTask (via : Via) (definition : TransactionDefinition) (body : List (Line Step))
  /-- In a task: runs a body in a new context. -/
  | contextTask (values : Attributes) (body : List (Line Step))
  /-- In a task: waits for a time. -/
  | sleep (ms : Nat)
  /-- In a task: waits for its next turn. -/
  | yield

namespace Step

def name : Step → String
  | put .. => "put"
  | delete .. => "delete"
  | get .. => "get"
  | store .. => "store"
  | refuseCommits .. => "fail_commits"
  | fault .. => "fault"
  | transaction .. => "tx"
  | begin .. => "begin"
  | complete .. => "complete"
  | failScope .. => "fail_scope"
  | drop .. => "drop"
  | current .. => "current"
  | inspect .. => "inspect"
  | setRollbackOnly => "set_rollback_only"
  | checkTimeout => "check_timeout"
  | advance .. => "advance"
  | policy .. => "policy"
  | fail .. => "fail"
  | panic .. => "panic"
  | catchPanic .. => "catch_panic"
  | iterate .. => "repeat"
  | note .. => "note"
  | .return .. => "return"
  | push .. => "push"
  | pop .. => "pop"
  | derive .. => "derive"
  | insert .. => "insert"
  | context .. => "ctx"
  | scope .. => "scope"
  | otherFlow .. => "other_thread"
  | register .. => "register"
  | addAlias .. => "alias"
  | definition .. => "definition"
  | find .. => "find"
  | ids => "ids"
  | definitionByType .. => "definition_by_type"
  | findByType .. => "find_by_type"
  | resolve .. => "resolve"
  | resolveAs .. => "resolve_as"
  | resolveByType .. => "resolve_by_type"
  | resolveTogether .. => "resolve_threads"
  | makeSingletons => "initialize"
  | scan => "scan"
  | start => "start"
  | resolveProxy .. => "resolve_proxy"
  | buildProxy .. => "build_proxy"
  | cloneProxy .. => "clone_proxy"
  | proxyInfo .. => "proxy_info"
  | invoke .. => "invoke"
  | chain .. => "chain"
  | definitionFor .. => "definition_for"
  | proceed => "proceed"
  | position => "position"
  | setArgument .. => "set_arg"
  | argument .. => "arg"
  | arguments => "args"
  | bump => "bump"
  | async .. => "async"
  | tasks .. => "tasks"
  | transactionTask .. => "tx_async"
  | contextTask .. => "ctx_scope"
  | sleep .. => "sleep"
  | yield => "yield"

end Step

/-! ## The kit of scenarios -/

structure Component where
  type : TypeKey
  /-- The id of the definition that it was made for. -/
  id : String
  /-- Its number among the components that were made. -/
  serial : Nat
  /-- It was made after a component of another type. -/
  converted : Bool := false
  /-- Its identity, by which its calls are counted. -/
  object : Nat
  deriving Repr, DecidableEq, Inhabited

/-- What hosts in scenarios are built from. -/
abbrev kit : Kit where
  component := Component
  filter := FilterScript Step
  body := MethodScript Step
  factory := FactoryScript (Blueprint Step)
  conversion := Conversion

def FilterScript.name {S : Type} : FilterScript S → String
  | .steps name typeName _ => name.getD typeName
  | .logging _ => "logging"
  | .transactional _ _ => "transaction"

def TableScript.table {S : Type} (t : TableScript S) : MethodTable (MethodScript S) :=
  t.methods.foldl MethodTable.put { typeName := t.typeName, interfaces := t.interfaces }

end ComponentHost.Scenario
