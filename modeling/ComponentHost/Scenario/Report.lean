import ComponentHost.Scenario.Step
import ComponentHost.Task.Executor

/-! # Reports

  What the steps of a scenario leave in its trace. Every step adds one entry when it ends, so the
  entries of a body come before that of the step it belongs to.
-/

namespace ComponentHost.Scenario

/-! ## Views -/

structure TransactionView where
  id : TxId
  record : Transaction
  now : Nat
  deriving Repr, DecidableEq

structure ContextView where
  id : ContextId
  depth : Nat
  parent : Option ContextId
  /-- The values that are found from it. -/
  found : Attributes
  /-- The values that it holds itself. -/
  own : Attributes
  description : String
  deriving Repr, DecidableEq

structure ResourceView where
  committed : Dict String Value
  events : List String
  /-- How many transactions were begun and have not ended. -/
  active : Nat
  deriving Repr, DecidableEq

inductive InstanceView
  | component (c : Component)
  | filter (name : String)
  /-- A component seen as what it is capable of being. -/
  | through (key : TypeKey) (c : Component)
  deriving Repr, DecidableEq

structure ProxyView where
  /-- How it stands in front of its target. -/
  strategy : ProxyStrategy
  filters : List String
  /-- The names of the methods that it exposes. -/
  methods : List String
  target : Component
  deriving Repr, DecidableEq

structure ChainResult where
  result : Except Failure Value
  arguments : List Value

/-! ## Reports and entries -/

inductive Report
  | done
  /-- The label names nothing that the step could use. -/
  | missing
  | value (v : Value)
  /-- What is seen under a key, and the committed value. -/
  | read (seen committed : Option Value)
  | resource (r : ResourceView)
  /-- A scope that was entered, and the depth of its context. -/
  | scope (participation : Participation) (depth : Nat)
  | transaction (t : Option TransactionView)
  /-- Whether there was a transaction to mark. -/
  | applied (applied : Bool)
  | policy (policy : IsolationPolicy) (resource : String) (container : Except Error Unit)
  | caught (message : Option String)
  | note (text : String)
  | context (c : Option ContextView)
  /-- What another flow found, and how its write went. -/
  | otherFlow (context transaction : Bool) (sees : Option Value) (put : Option (Except Error Unit))
  | definition (d : Definition kit)
  | found (id canonical : Option String) (contains : Bool)
  | ids (ids : List String)
  | id (id : Option String)
  | instance (i : InstanceView)
  /-- How many results several flows had, and how many components were made. -/
  | together (distinct made : Nat)
  /-- How many singletons were made, or definitions registered, and what was printed. -/
  | started (result : Except Error Nat) (output : Option String)
  | proxy (p : ProxyView)
  /-- A proxy, which names it intercepts, and the calls of its target. -/
  | proxyInfo (p : ProxyView) (intercepted : List (String × Bool)) (calls : Nat)
  /-- The results of a chain, its filters, the method, and the calls of the target. -/
  | chain (results : List ChainResult) (filters : List String) (signature : MethodSignature)
      (calls : Nat)
  | transactionDefinition (d : TransactionDefinition)
  /-- Where a filter stands, and the method that is called. -/
  | link (l : Link) (method : String)
  | arguments (values : List Value)
  | calls (count : Nat)

inductive TraceEntry
  | succeeded (step : String) (report : Report)
  | failed (step : String) (failure : Failure)
  | panicked (step : String) (message : Option String)
  /-- A factory was called: its attempt, the dependencies that it looked for, and how many it was
      given. -/
  | factory (id : String) (attempt : Nat) (looked : List (String × Option InstanceView))
      (given : Nat)
  | lookup (found : InstanceView)
  | dependency (got : InstanceView)
  | log (line : LogLine)
  | spawned (index : Nat) (context : Option ContextView)
  | task (how : TaskEnd Value)

end ComponentHost.Scenario
