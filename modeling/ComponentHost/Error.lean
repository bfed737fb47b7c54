import ComponentHost.Text.Quoted

/-! # Errors

  What can go wrong in a host of components, by cause, and the text of each cause. A body that runs
  inside the host may also fail with an error of its own, of which the host only knows the text.
-/

namespace ComponentHost

/-- A failure of the host, by its cause. -/
inductive Error
  /-- The id is taken, by a definition or by an alias. -/
  | duplicateDefinition (id : String)
  /-- The alias already stands for another definition. -/
  | aliasConflict (name existing requested : String)
  /-- Several definitions qualify for a type. -/
  | ambiguousType (typeName : String) (candidates : List String)
  /-- No definition has the name. -/
  | definitionNotFound (name : String)
  /-- A definition depends on itself; the path starts and ends with its id. -/
  | circularDependency (path : List String)
  /-- The factory failed or panicked. -/
  | construction (id message : String)
  /-- The instance is not of the type asked for. -/
  | typeMismatch (id expected : String)
  /-- No method of the target can be intercepted. -/
  | nonProxyable (typeName reason : String)
  /-- A filter passed the call on twice. -/
  | chainReentry (method : String) (position : Nat)
  /-- The method has no body. -/
  | unsupportedInvocation (signature : String)
  /-- The proxy exposes no such method. -/
  | methodNotFound (typeName method : String)
  /-- The number or form of the arguments does not fit. -/
  | invalidArgument (method message : String)
  /-- The body of a method failed with an error of its own. -/
  | methodFailed (method source : String)
  /-- A transaction is required and there is none. -/
  | noTransaction
  /-- No transaction is allowed and there is one. -/
  | unexpectedTransaction (id : String)
  /-- The scope asks for another isolation than the transaction it would join has. -/
  | isolationConflict (requested existing : String)
  /-- The transaction ran past its timeout. -/
  | transactionTimeout (id : String) (seconds : Nat)
  /-- The transaction was rolled back where its owner meant to commit it. -/
  | unexpectedRollback (id : String)
  /-- The resource refused a call. -/
  | resource (message : String)
  /-- Anything else. -/
  | internal (message : String)
  deriving Repr, DecidableEq, Inhabited

namespace Error

def message : Error → String
  | duplicateDefinition id => "Duplicate definition: '" ++ id ++ "' is already registered"
  | aliasConflict name existing requested =>
    "Alias conflict: '" ++ name ++ "' already resolves to '" ++ existing ++ "', cannot bind to '"
      ++ requested ++ "'"
  | ambiguousType typeName candidates =>
    "Ambiguous type " ++ typeName ++ ": candidates " ++ Text.quotedList candidates
  | definitionNotFound name => "Definition not found: " ++ name
  | circularDependency path =>
    "Circular dependency detected: " ++ String.intercalate " -> " path
  | construction id message => "Failed to construct '" ++ id ++ "': " ++ message
  | typeMismatch id expected => "Type mismatch for '" ++ id ++ "': expected " ++ expected
  | nonProxyable typeName reason => "Type " ++ typeName ++ " is not proxyable: " ++ reason
  | chainReentry method position =>
    "Filter chain re-entered at link " ++ toString position ++ " while invoking " ++ method
  | unsupportedInvocation signature => "Unsupported invocation: " ++ signature
  | methodNotFound typeName method => "Method not found on " ++ typeName ++ ": " ++ method
  | invalidArgument method message => "Invalid argument for " ++ method ++ ": " ++ message
  | methodFailed method source => "Method " ++ method ++ " failed: " ++ source
  | noTransaction =>
    "No existing transaction found for transaction marked with propagation 'mandatory'"
  | unexpectedTransaction id =>
    "Existing transaction " ++ id ++ " found for transaction marked with propagation 'never'"
  | isolationConflict requested existing =>
    "Isolation conflict: requested " ++ requested ++ ", existing transaction uses " ++ existing
  | transactionTimeout id seconds =>
    "Transaction " ++ id ++ " timed out after " ++ toString seconds ++ "s"
  | unexpectedRollback id =>
    "Transaction " ++ id ++ " rolled back because it has been marked as rollback-only"
  | resource message => "Transaction resource error: " ++ message
  | internal message => "Internal container error: " ++ message

/-- The error says that a rule of transactions was broken. -/
def isTransactional : Error → Bool
  | noTransaction | unexpectedTransaction _ | isolationConflict .. | transactionTimeout ..
  | unexpectedRollback _ => true
  | _ => false

end Error

/-- A computation on states that may fail with an error. What it changed before stays changed. -/
abbrev Attempt (σ α : Type) := ExceptT Error (StateM σ) α

/-- The outcome of a computation that has no state. -/
def Attempt.ofExcept {σ α : Type} (r : Except Error α) : Attempt σ α := fun s => (r, s)

/-- How a body fails: with an error of the host, or with one of its own. -/
inductive Failure
  | host (error : Error)
  /-- An error of the application, known by its text. -/
  | application (message : String)
  deriving Repr, DecidableEq, Inhabited

namespace Failure

def message : Failure → String
  | host e => e.message
  | application m => m

/-- The failure of a method's body as its caller sees it: an error of the host stays what it is,
    any other is reported as the failure of the method. -/
def ofMethod (method : String) : Failure → Error
  | host e => e
  | application m => .methodFailed method m

/-- The failure with a text in front that says what was being done. -/
def within (task : String) (f : Failure) : Error := .internal (task ++ ": " ++ f.message)

end Failure

/-- Why a body stopped before its end. -/
inductive Stop
  | failed (failure : Failure)
  /-- It panicked; the text is missing when the payload was none. -/
  | panicked (message : Option String)
  deriving Repr, DecidableEq, Inhabited

namespace Stop

def ofError (e : Error) : Stop := .failed (.host e)

/-- The failure of a method's body as its caller sees it; a panic passes through. -/
def ofMethod (method : String) : Stop → Stop
  | failed f => ofError (f.ofMethod method)
  | panicked m => panicked m

end Stop

end ComponentHost
