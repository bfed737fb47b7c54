import ComponentHost.Transaction.Definition

/-! # Settings

  What the environment of the process decides: which deployment it is, whether singletons are made
  at the start, what is logged, and how transactions are coordinated.
-/

namespace ComponentHost

inductive Deployment
  /-- A developer's machine. -/
  | development
  | test
  /-- A rehearsal of production. -/
  | staging
  /-- The real thing; also any name that is not known. -/
  | production
  deriving Repr, DecidableEq, Inhabited

namespace Deployment

def ofSetting (s : String) : Deployment :=
  match Text.plainWord s with
  | "development" | "dev" => development
  | "test" | "testing" => test
  | "staging" | "stage" => staging
  | _ => production

def name : Deployment → String
  | development => "Development"
  | test => "Test"
  | staging => "Staging"
  | production => "Production"

/-- Mistakes should show early here. -/
def isLocal : Deployment → Bool
  | development | test => true
  | staging | production => false

/-- The isolation policy where no setting names one. -/
def isolationPolicy (d : Deployment) : IsolationPolicy := if d.isLocal then .strict else .inherit

end Deployment

/-- The variables of the environment: for each name its text, if it is set to a text. -/
abbrev Variables := String → Option String

namespace Variables

/-- The text of a variable that is given in bytes: none unless they are UTF-8. -/
def ofBytes? (bytes : ByteArray) : Option String := String.fromUTF8? bytes

def switch? (s : String) : Option Bool :=
  match Text.plainWord s with
  | "true" | "1" | "yes" | "on" => some true
  | "false" | "0" | "no" | "off" => some false
  | _ => none

def deployment (vars : Variables) : Deployment :=
  match vars "ENVIRONMENT" with
  | some s => .ofSetting s
  | none => .production

/-- Singletons are made at the start. -/
def eagerInit (vars : Variables) : Bool := ((vars "CONTAINER_EAGER_INIT").bind switch?).getD true

/-- What is logged. -/
def logFilter (vars : Variables) : String := (vars "CONTAINER_LOG").getD "info"

/-- The isolation policy: the one that is set, or that of the deployment. -/
def isolationPolicy (vars : Variables) : IsolationPolicy :=
  ((vars "TX_ISOLATION_POLICY").bind IsolationPolicy.ofSetting?).getD
    vars.deployment.isolationPolicy

/-- What the names of savepoints start with. -/
def savepointPrefix (vars : Variables) : String :=
  match vars "TX_SAVEPOINT_PREFIX" with
  | some s => if (Text.trim s).isEmpty then "SAVEPOINT_" else s
  | none => "SAVEPOINT_"

end Variables

end ComponentHost
