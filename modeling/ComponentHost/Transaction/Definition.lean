import ComponentHost.Text.Blank
import ComponentHost.Value.Shape

/-! # Transaction definitions

  A definition says how a unit of work takes part in transactions: how it relates to one that is
  already running, and what a new one would be like. Definitions are read from values: from a record
  with any of the fields, or from a list of the first few fields in their fixed order.
-/

namespace ComponentHost

/-! ## Propagation -/

/-- How a unit of work relates to a transaction that is already running. -/
inductive Propagation
  /-- Join it; without one, start one. -/
  | required
  /-- Suspend it and start another. -/
  | requiresNew
  /-- Set a savepoint in it; without one, start one. -/
  | nested
  /-- Join it; without one, run without. -/
  | supports
  /-- Suspend it and run without. -/
  | notSupported
  /-- Join it; without one, fail. -/
  | mandatory
  /-- Fail; without one, run without. -/
  | never
  deriving Repr, DecidableEq, Inhabited

namespace Propagation

def all : List Propagation :=
  [required, requiresNew, nested, supports, notSupported, mandatory, never]

def name : Propagation → String
  | required => "required"
  | requiresNew => "requires_new"
  | nested => "nested"
  | supports => "supports"
  | notSupported => "not_supported"
  | mandatory => "mandatory"
  | never => "never"

def label (p : Propagation) : String := p.name.map Char.toUpper

end Propagation

/-! ## Isolation -/

/-- How far a transaction is kept apart from others. -/
inductive Isolation
  /-- As the resource sees fit. -/
  | default
  /-- Uncommitted writes of others may be seen. -/
  | readUncommitted
  /-- Only committed writes of others are seen. -/
  | readCommitted
  /-- What was read once reads the same again. -/
  | repeatableRead
  /-- As if transactions ran one after the other. -/
  | serializable
  deriving Repr, DecidableEq, Inhabited

namespace Isolation

def all : List Isolation := [default, readUncommitted, readCommitted, repeatableRead, serializable]

def name : Isolation → String
  | default => "default"
  | readUncommitted => "read_uncommitted"
  | readCommitted => "read_committed"
  | repeatableRead => "repeatable_read"
  | serializable => "serializable"

def label (i : Isolation) : String := i.name.map Char.toUpper

def title : Isolation → String
  | default => "Default"
  | readUncommitted => "ReadUncommitted"
  | readCommitted => "ReadCommitted"
  | repeatableRead => "RepeatableRead"
  | serializable => "Serializable"

end Isolation

/-! ## Isolation policy -/

/-- What happens when a unit of work joins a transaction whose isolation it did not ask for. -/
inductive IsolationPolicy
  /-- It takes the isolation of the transaction. -/
  | inherit
  /-- It fails. -/
  | strict
  deriving Repr, DecidableEq, Inhabited

namespace IsolationPolicy

def all : List IsolationPolicy := [inherit, strict]

def name : IsolationPolicy → String
  | inherit => "inherit"
  | strict => "strict"

def ofSetting? (s : String) : Option IsolationPolicy :=
  match Text.plainWord s with
  | "inherit" | "ignore" => some inherit
  | "strict" | "fail" => some strict
  | _ => none

end IsolationPolicy

/-! ## Reading names -/

/-- Reads one of some named things from its name, or from a record whose one field has that name
    and is null. -/
def Value.named? {α : Type} (all : List α) (name : α → String) : Value → Option α
  | .string s => all.find? (name · == s)
  | .object [(k, .null)] => all.find? (name · == k)
  | _ => none

/-! ## Definitions -/

/-- How a unit of work takes part in transactions. -/
structure TransactionDefinition where
  /-- How it relates to a transaction that is already running. -/
  propagation : Propagation := .required
  isolation : Isolation := .default
  /-- The timeout of a new transaction in seconds; none unless positive. -/
  timeoutSeconds : Int := -1
  /-- A new transaction refuses writes. -/
  readOnly : Bool := false
  /-- The name of the unit of work. -/
  name : Option String := none
  deriving Repr, DecidableEq, Inhabited

namespace TransactionDefinition

def timeout (d : TransactionDefinition) : Option Nat :=
  if 0 < d.timeoutSeconds then some d.timeoutSeconds.toNat else none

def displayName (d : TransactionDefinition) : String := d.name.getD "<anonymous>"

/-- Whole numbers of sixty-four bits, which a timeout is read from. -/
def seconds : Shape := .signed "i64" 64

/-- Reads the number of seconds of a timeout. -/
def timeout? (v : Value) : Option Int :=
  match seconds.read v with
  | .ok (.number (.int n)) => some n
  | _ => none

def readOnly? : Value → Option Bool
  | .bool b => some b
  | _ => none

def name? : Value → Option (Option String)
  | .null => some none
  | .string s => some (some s)
  | _ => none

/-- The names of the fields, in their order in lists. -/
def fieldNames : List String := ["propagation", "isolation", "timeout_seconds", "read_only", "name"]

/-- Takes one field over into a definition; fields with other names are left out. -/
def readField (d : TransactionDefinition) : String × Value → Option TransactionDefinition
  | ("propagation", v) =>
    (v.named? Propagation.all Propagation.name).map ({ d with propagation := · })
  | ("isolation", v) => (v.named? Isolation.all Isolation.name).map ({ d with isolation := · })
  | ("timeout_seconds", v) => (timeout? v).map ({ d with timeoutSeconds := · })
  | ("read_only", v) => (readOnly? v).map ({ d with readOnly := · })
  | ("name", v) => (name? v).map ({ d with name := · })
  | _ => some d

/-- Reads a definition. Missing fields have their default. -/
def ofValue? : Value → Option TransactionDefinition
  | .object fields => fields.foldlM readField {}
  | .array items =>
    if items.length ≤ fieldNames.length then (fieldNames.zip items).foldlM readField {} else none
  | _ => none

def toValue (d : TransactionDefinition) : Value :=
  .record [
    ("propagation", d.propagation.name),
    ("isolation", d.isolation.name),
    ("timeout_seconds", .ofInt d.timeoutSeconds),
    ("read_only", d.readOnly),
    ("name", .ofOption (d.name.map .string))]

/-! ## Changes -/

/-- A change of a definition. -/
inductive Change
  /-- Start again from the default with this propagation. -/
  | propagation (p : Propagation)
  | replace (d : TransactionDefinition)
  | isolation (i : Isolation)
  | timeout (seconds : Int)
  | readOnly
  | named (name : String)
  deriving Repr, DecidableEq

def change (d : TransactionDefinition) : Change → TransactionDefinition
  | .propagation p => { propagation := p }
  | .replace d => d
  | .isolation i => { d with isolation := i }
  | .timeout s => { d with timeoutSeconds := s }
  | .readOnly => { d with readOnly := true }
  | .named n => { d with name := some n }

end TransactionDefinition

end ComponentHost
