import ComponentHost.Value.Shown

/-! # Shapes

  A shape says which values a caller accepts. Reading a value under a shape gives the value as the
  shape writes it, or the text of what is wrong with it. A double is never read as a whole number.
-/

namespace ComponentHost

/-- What a caller accepts. -/
inductive Shape
  /-- A whole number between two bounds, under the name that messages give it. -/
  | whole (name : String) (low high : Int)
  | truth
  | text
  | list (item : Shape)
  /-- Null, or a value of a shape. -/
  | optional (inner : Shape)
  /-- A record with these fields, or a list of their values in this order. -/
  | record (title : String) (fields : List (String × Shape))
  | any
  deriving Inhabited

namespace Shape

def signed (name : String) (bits : Nat) : Shape :=
  .whole name (-(Nat.pow 2 (bits - 1) : Int)) (Nat.pow 2 (bits - 1) - 1)

def unsigned (name : String) (bits : Nat) : Shape := .whole name 0 (Nat.pow 2 bits - 1)

/-- What messages call the values that a shape accepts. -/
def expectation : Shape → String
  | .whole name _ _ => name
  | .truth => "a boolean"
  | .text => "a string"
  | .list _ => "a sequence"
  | .optional inner => inner.expectation
  | .record title _ => title
  | .any => "any value"

/-- What messages call a value that was not expected. -/
def sighting : Value → String
  | .null => "null"
  | .bool b => "boolean `" ++ toString b ++ "`"
  | .number (.int n) => "integer `" ++ toString n ++ "`"
  | .number (.double d) => "floating point `" ++ d.render ++ "`"
  | .string s => "string " ++ Text.quoted s
  | .array _ => "sequence"
  | .object _ => "map"

def wrongKind (s : Shape) (v : Value) : String :=
  "invalid type: " ++ sighting v ++ ", expected " ++ s.expectation

def outOfBounds (n : Int) (name : String) : String :=
  "invalid value: integer `" ++ toString n ++ "`, expected " ++ name

def missingField (name : String) : String := "missing field `" ++ name ++ "`"

def tooShort (length : Nat) (title : String) (fields : Nat) : String :=
  "invalid length " ++ toString length ++ ", expected " ++ title ++ " with " ++ toString fields
    ++ (if fields = 1 then " element" else " elements")

def tooLong (length : Nat) : String :=
  "invalid length " ++ toString length ++ ", expected fewer elements in array"

/-- Results under names, read in the order of the names: the first failure, or all values. -/
def inOrder (results : List (String × Except String Value)) :
    Except String (List (String × Value)) :=
  (results.mergeSort (fun a b => decide (a.1 ≤ b.1))).mapM fun (k, r) => do return (k, ← r)

/-- The first field that is required and not given. -/
def missing : List (String × Shape) → List (String × Value) → Option String
  | [], _ => none
  | (name, s) :: rest, given => match s, given.lookup name with
    | .optional _, _ | _, some _ => missing rest given
    | _, none => some name

mutual

def read (s : Shape) (v : Value) : Except String Value :=
  match s, v with
  | .whole name low high, .number (.int n) =>
    if low ≤ n && n ≤ high then .ok v else .error (outOfBounds n name)
  | .truth, .bool _ => .ok v
  | .text, .string _ => .ok v
  | .list item, .array items => do return .array (← readItems item items)
  | .optional _, .null => .ok .null
  | .optional inner, v => inner.read v
  | .record _ fields, .object given => do
    let read ← inOrder (readFields fields given)
    match missing fields given with
    | some name => .error (missingField name)
    | none => return Value.record read
  | .record title fields, .array items => do
    let read ← readPositions fields items
    if items.length < fields.length then
      .error (tooShort items.length title fields.length)
    else if fields.length < items.length then .error (tooLong items.length)
    else return Value.record read
  | .any, v => .ok v
  | s, v => .error (s.wrongKind v)

/-- Reads every item under one shape, up to the first failure. -/
def readItems (item : Shape) : List Value → Except String (List Value)
  | [] => .ok []
  | v :: vs => do
    let v ← item.read v
    return v :: (← readItems item vs)

def readFields : List (String × Shape) → List (String × Value) →
    List (String × Except String Value)
  | [], _ => []
  | (name, s) :: rest, given => match given.lookup name with
    | some v => (name, s.read v) :: readFields rest given
    | none => readFields rest given

/-- Reads the items of a list as the fields of a record, as far as both go. -/
def readPositions : List (String × Shape) → List Value → Except String (List (String × Value))
  | (name, s) :: rest, v :: vs => do
    let v ← s.read v
    return (name, v) :: (← readPositions rest vs)
  | _, _ => .ok []

end

end Shape

end ComponentHost
