import ComponentHost.Invocation.Interception

/-! # Filter chains

  A chain passes a call through its filters, in order, to the invoker of the method. Every filter is
  given the rest of the chain and may pass the call on to it once; a second attempt fails, whatever
  came of the first. A filter that does not pass the call on cuts the chain short.
-/

namespace ComponentHost

/-- A filter over states `σ`. -/
structure Filter (σ : Type) where
  name : String
  /-- What it does with a call of a method. -/
  invoke : MethodSignature → Intercept σ (Except Stop Value)

/-- The last link of a chain: runs a method on the arguments. -/
abbrev Invoker (σ : Type) := Arguments → StateM σ (Except Stop Value)

/-- The rest of a chain: takes the arguments, and gives the result and the arguments afterwards. -/
abbrev Continuation (σ : Type) := Arguments → StateM σ (Except Stop Value × Arguments)

namespace Chain

variable {σ : Type}

/-- Serves the requests of a filter. `used` says that it has passed the call on already. -/
def serve (signature : MethodSignature) (link : Link) (next : Continuation σ) :
    Bool → Arguments → Interception σ (Except Stop Value) →
      (Except Stop Value × Arguments) × σ
  | _, args, .done result s => ((result, args), s)
  | true, args, .ask .proceed s resume =>
    let refused := Stop.ofError (.chainReentry signature.display link.position)
    serve signature link next true args (resume (.error refused) s)
  | false, args, .ask .proceed s resume =>
    let ((result, args), s) := next args s
    serve signature link next true args (resume result s)
  | used, args, .ask (.replaceArgument i v) s resume =>
    match args.set i v with
    | .ok args => serve signature link next used args (resume (.ok ()) s)
    | .error e => serve signature link next used args (resume (.error e) s)
  | used, args, .ask .arguments s resume => serve signature link next used args (resume args s)
  | used, args, .ask .link s resume => serve signature link next used args (resume link s)

/-- Passes a call on to the filters from a position on, and to the invoker after the last. -/
def proceed (signature : MethodSignature) (invoker : Invoker σ) :
    Nat → List (Filter σ) → Continuation σ
  | _, [] => fun args s =>
    let (result, s) := invoker args s
    ((result, args), s)
  | position, f :: rest => fun args s =>
    serve signature ⟨position + 1, rest.length⟩ (proceed signature invoker (position + 1) rest)
      false args (f.invoke signature s)

/-- Passes a call through a whole chain. -/
def execute (filters : List (Filter σ)) (signature : MethodSignature) (invoker : Invoker σ) :
    Continuation σ :=
  proceed signature invoker 0 filters

end Chain

end ComponentHost
