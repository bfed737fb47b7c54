import ComponentHost.Invocation.Chain
import ComponentHost.Text.Duration

/-! # The logging filter

  Writes a line when a call starts and one when it ends, with the time that it took. It passes the
  call on once and hands its result back unchanged.
-/

namespace ComponentHost

/-- How important a line of the log is. -/
inductive LogLevel
  | error
  | warn
  | info
  /-- Detail for those who look for a fault. -/
  | debug
  | trace
  deriving Repr, DecidableEq, Inhabited

namespace LogLevel

def all : List LogLevel := [error, warn, info, debug, trace]

def name : LogLevel → String
  | error => "ERROR"
  | warn => "WARN"
  | info => "INFO"
  | debug => "DEBUG"
  | trace => "TRACE"

end LogLevel

structure LogLine where
  level : LogLevel
  message : String
  deriving Repr, DecidableEq

class HasLog (σ : Type) where
  log : LogLine → σ → σ

/-- What a logging filter writes. -/
structure LoggingOptions where
  /-- The level of its lines; that of a line about a failure is always a warning. -/
  level : LogLevel := .debug
  /-- It writes the arguments too. -/
  withArguments : Bool := false
  deriving Repr, DecidableEq, Inhabited

namespace LoggingOptions

def started (o : LoggingOptions) (method : String) (values : List Value) : LogLine :=
  ⟨o.level, "→ " ++ method
    ++ if o.withArguments then " " ++ Value.shownList values else ""⟩

def ended (o : LoggingOptions) (method : String) (elapsed : Nat) : LogLine :=
  ⟨o.level, "← " ++ method ++ " (" ++ Text.duration elapsed ++ ")"⟩

def failed (method : String) (elapsed : Nat) (f : Failure) : LogLine :=
  ⟨.warn, "✗ " ++ method ++ " failed after " ++ Text.duration elapsed ++ ": " ++ f.message⟩

end LoggingOptions

/-- The logging filter. A call that panics has no line about its end. -/
def Filter.logging {σ : Type} [HasWorld σ] [HasLog σ] (o : LoggingOptions) : Filter σ where
  name := "logging"
  invoke signature := do
    let emit (l : LogLine) : Intercept σ Unit := modify (HasLog.log l)
    let clock : Intercept σ Nat := return (HasWorld.world (← get)).clock
    let method := signature.display
    let start ← clock
    let args : Arguments ← Intercept.ask .arguments
    emit (o.started method args.values)
    let result : Except Stop Value ← Intercept.ask .proceed
    let elapsed := (← clock) - start
    match result with
    | .ok _ => emit (o.ended method elapsed)
    | .error (.failed f) => emit (LoggingOptions.failed method elapsed f)
    | .error (.panicked _) => pure ()
    return result

end ComponentHost
