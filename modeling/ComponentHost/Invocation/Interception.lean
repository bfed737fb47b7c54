import ComponentHost.Invocation.Arguments
import ComponentHost.World

/-! # Interceptions

  What a filter does with a call, as a tree: it ends with a result, or asks for something and goes
  on with the reply. The state is the filter's to change; the arguments and the rest of the chain
  are reached by asking. A filter replaces arguments one by one here. That it may also put a whole
  new list in their place, of another length or with another method in its errors, is left out.
-/

namespace ComponentHost

/-- Where a filter stands in its chain. -/
structure Link where
  /-- The place of the next link. -/
  position : Nat
  /-- How many filters lie between here and the method. -/
  remaining : Nat
  deriving Repr, DecidableEq

/-- What a filter may ask for. -/
inductive Request
  /-- Pass the call on to the next link. -/
  | proceed
  /-- Replace an argument. What cannot be written as a value is none. -/
  | replaceArgument (index : Nat) (value : Option Value)
  /-- Tell the arguments as they are now. -/
  | arguments
  /-- Tell where the filter stands. -/
  | link
  deriving Repr, DecidableEq

def Request.Reply : Request → Type
  | .proceed => Except Stop Value
  | .replaceArgument _ _ => Except Error Unit
  | .arguments => Arguments
  | .link => Link

/-- What a filter does from here on. -/
inductive Interception (σ α : Type)
  /-- It ends. -/
  | done (result : α) (state : σ)
  /-- It asks for something, and goes on with the reply and the state at that time. -/
  | ask (request : Request) (state : σ) (resume : request.Reply → σ → Interception σ α)

/-- Goes on with something else at the end. -/
def Interception.bind {σ α β : Type} :
    Interception σ α → (α → σ → Interception σ β) → Interception σ β
  | done a s, f => f a s
  | ask q s resume, f => ask q s fun r s => (resume r s).bind f

/-- Computations that may ask what filters ask. -/
def Intercept (σ α : Type) := σ → Interception σ α

namespace Intercept

variable {σ α : Type}

instance : Monad (Intercept σ) where
  pure a := fun s => .done a s
  bind t f := fun s => (t s).bind f

instance : MonadStateOf σ (Intercept σ) where
  get := fun s => .done s s
  set s := fun _ => .done () s
  modifyGet f := fun s => let (a, s) := f s; .done a s

instance : MonadLift (StateM σ) (Intercept σ) where
  monadLift act := fun s => let (a, s) := act s; .done a s

def ask (q : Request) : Intercept σ q.Reply := fun s => .ask q s fun r s => .done r s

end Intercept

/-- The end of a computation that stands in no chain: it is refused whatever it asks for. -/
def Interception.finish {σ α : Type} : Interception σ α → α × σ
  | done a s => (a, s)
  | ask .proceed s resume => (resume (.error (.ofError outside)) s).finish
  | ask (.replaceArgument _ _) s resume => (resume (.error outside) s).finish
  | ask .arguments s resume => (resume ⟨"", []⟩ s).finish
  | ask .link s resume => (resume ⟨0, 0⟩ s).finish
where
  /-- There is no chain to ask. -/
  outside : Error := .internal "no call is being intercepted"

/-- Runs a computation that stands in no chain. -/
def Intercept.finish {σ α : Type} (t : Intercept σ α) : StateM σ α := fun s => (t s).finish

end ComponentHost
