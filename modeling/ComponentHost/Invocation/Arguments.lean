import ComponentHost.Error
import ComponentHost.Invocation.Signature
import ComponentHost.Value.Shape

/-! # Arguments

  The arguments of a call, by position. They are read under a shape and may be replaced one by one;
  an error names the method that is being called.
-/

namespace ComponentHost

structure Arguments where
  /-- The method that errors name. -/
  method : String := ""
  values : List Value
  deriving Repr, DecidableEq, Inhabited

namespace Arguments

def forMethod (m : MethodSignature) (values : List Value) : Arguments := ⟨m.display, values⟩

def size (a : Arguments) : Nat := a.values.length

def value? (a : Arguments) (i : Nat) : Option Value := a.values[i]?

def invalid (a : Arguments) (message : String) : Error := .invalidArgument a.method message

def get (a : Arguments) (i : Nat) (shape : Shape) : Except Error Value :=
  match a.value? i with
  | none => .error (a.invalid
      ("missing argument " ++ toString i ++ " (got " ++ toString a.size ++ ")"))
  | some v => match shape.read v with
    | .ok v => .ok v
    | .error e => .error (a.invalid ("argument " ++ toString i ++ ": " ++ e))

/-- What is wrong with something that cannot be written as a value. -/
def unwritable : String := "key must be a string"

/-- Replaces the argument at a position. What cannot be written as a value is none; then, as for a
    position beyond the last one, nothing is replaced. -/
def set (a : Arguments) (i : Nat) (new : Option Value) : Except Error Arguments :=
  match new with
  | none => .error ((Failure.application unwritable).within ("serialize argument " ++ toString i))
  | some v =>
    if i < a.size then .ok { a with values := a.values.set i v }
    else .error (a.invalid
      ("cannot replace argument " ++ toString i ++ " (got " ++ toString a.size ++ ")"))

end Arguments

end ComponentHost
