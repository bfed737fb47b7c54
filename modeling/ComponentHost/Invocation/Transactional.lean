import ComponentHost.Data.Dict
import ComponentHost.Invocation.Chain
import ComponentHost.Transaction.Coordinator

/-! # The transaction filter

  Runs the rest of a call in a transactional scope. Which definition the scope has may differ by the
  name of the method; a definition without a name takes the signature of the method for one.
-/

namespace ComponentHost

/-- The definitions of a transaction filter. -/
structure TransactionRules where
  /-- The definition for methods without one of their own. -/
  fallback : TransactionDefinition := {}
  methods : Dict String TransactionDefinition := {}
  deriving Repr, DecidableEq, Inhabited

def TransactionRules.definitionFor (r : TransactionRules) (m : MethodSignature) :
    TransactionDefinition :=
  let d := (r.methods.get? m.name).getD r.fallback
  { d with name := some (d.name.getD m.display) }

instance {σ : Type} [HasWorld σ] : MonadLift (StateM World) (Intercept σ) where
  monadLift act := liftM (HasWorld.onWorld (σ := σ) act)

def Filter.transactional {σ : Type} [HasWorld σ] (k : Coordinator) (r : TransactionRules) :
    Filter σ where
  name := "transaction"
  invoke signature := k.execute (r.definitionFor signature) (Intercept.ask .proceed)

end ComponentHost
