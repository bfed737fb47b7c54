import ComponentHost.Transaction.Basic

/-! # Contexts

  A context holds values for the code that runs in it, and points to the context it was derived
  from, where values that it does not hold itself are looked up. Contexts are kept in the order in
  which they were made, so a context only ever points to an earlier one.
-/

namespace ComponentHost

/-- The identity of a context: its place in the order in which contexts were made. -/
structure ContextId where
  /-- How many contexts were made before. -/
  index : Nat
  deriving Repr, DecidableEq, Inhabited

def ContextId.number (c : ContextId) : Nat := c.index + 1

/-- The values of a context, at most one of each kind. -/
structure Attributes where
  num : Option Int := none
  text : Option String := none
  flag : Option Bool := none
  deriving Repr, DecidableEq, Inhabited

/-- Values put over others: where a kind is given anew, the new value stays. -/
def Attributes.over (new old : Attributes) : Attributes where
  num := new.num <|> old.num
  text := new.text <|> old.text
  flag := new.flag <|> old.flag

structure Context where
  parent : Option ContextId
  /-- How many contexts lie above it. -/
  depth : Nat
  /-- Its own values. -/
  attributes : Attributes := {}
  /-- The transaction that its code runs in, if it says so itself: one, or none. -/
  binding : Option (Option TxId) := none
  deriving Repr, DecidableEq, Inhabited

/-- All contexts, in the order in which they were made. -/
abbrev Contexts := Array Context

namespace Contexts

/-- Looks something up in a context, and where it has none in the contexts above it. -/
def lookup {α : Type} (cs : Contexts) (f : Context → Option α) (c : ContextId) : Option α :=
  match cs[c.index]? with
  | none => none
  | some ctx => match f ctx with
    | some a => some a
    | none => match ctx.parent with
      | none => none
      | some p => if p.index < c.index then lookup cs f p else none
termination_by c.index

/-- The depth of a context that is derived from another, or from none. -/
def depthBelow (cs : Contexts) (parent : Option ContextId) : Nat :=
  match parent.bind (cs[·.index]?) with
  | some p => p.depth + 1
  | none => 0

def description (cs : Contexts) (c : ContextId) : String :=
  match cs[c.index]? with
  | none => ""
  | some ctx =>
    "Context \x7b id: " ++ toString c.number ++ ", depth: " ++ toString ctx.depth
      ++ ", parent: " ++ Text.optional (ctx.parent.map (toString ·.number)) ++ " \x7d"

end Contexts

end ComponentHost
