/-! # Method signatures

  A method is known by its owner and its name; the rest of its signature tells how it is called and
  whether a subclass may stand in front of it.
-/

namespace ComponentHost

/-- What is declared about a method. -/
structure MethodSignature where
  /-- The type or interface that declares it. -/
  owner : String
  name : String
  parameters : List String := []
  /-- The type of its result, if it declares one. -/
  returns : Option String := none
  /-- No subclass may stand in front of it. -/
  isSealed : Bool := false
  deriving Repr, DecidableEq, Inhabited

namespace MethodSignature

/-- The name together with its owner, which tells methods of one name apart. -/
def qualifiedName (m : MethodSignature) : String := m.owner ++ "::" ++ m.name

def display (m : MethodSignature) : String :=
  m.qualifiedName ++ "(" ++ String.intercalate ", " m.parameters ++ ")"
    ++ (match m.returns with
      | some r => " -> " ++ r
      | none => "")

end MethodSignature

end ComponentHost
