import ComponentHost.Scenario.Perform

/-! # Running scenarios

  A scenario runs in a fresh world. At its top level execution goes on after a failure and after a
  panic. At the end all that labels still name is let go of, the latest first, and the state that is
  left is shown.
-/

namespace ComponentHost.Scenario

/-- How a scenario is set up. -/
structure Settings where
  environment : Variables
  /-- The isolation policy, over that of the environment. -/
  policy : Option IsolationPolicy := none
  /-- What the names of savepoints start with, over that of the environment. -/
  savepointPrefix : Option String := none
  /-- The resources let suspensions and resumptions through. -/
  hooks : Bool := true
  transactions : Bool := true
  filterType : TypeKey
  scanned : List (Blueprint Step) := []

def Settings.coordinator (s : Settings) (on : ResourceId) : Coordinator where
  resource := on
  policy := s.policy.getD s.environment.isolationPolicy
  savepointPrefix := s.savepointPrefix.getD s.environment.savepointPrefix

def Settings.session (s : Settings) : Session where
  setup := {
    environment := s.environment
    container := {
      coordinator? := if s.transactions then some (s.coordinator .main) else none
      filterType := s.filterType }
    coordinator := s.coordinator
    scanned := s.scanned }
  world := { main := { hooks := s.hooks }, other := { hooks := s.hooks } }

structure Ending where
  store : ResourceView
  context : Option ContextView
  transaction : Option TransactionView
  ids : List String
  constructed : Nat
  clock : Nat

def Session.ending (s : Session) : Ending where
  store := Session.resourceView s.world.main
  context := s.world.current.bind (Session.contextView s.world)
  transaction := s.world.currentTransaction.bind (Session.transactionView s.world)
  ids := s.store.ids
  constructed := s.serial
  clock := s.world.clock

def performTop (top : Interpreter) (l : Line Step) : StateM Session Unit := do
  match ← (top.step .plain l).run.finish with
  | .error (.panicked m) => Session.record (.panicked l.step.name m)
  | _ => pure ()

/-- Runs a scenario: its trace, and what is left at its end. -/
def run (s : Settings) (lines : List (Line Step)) : Array TraceEntry × Ending :=
  let top := interpreter Session.nestingLimit
  let act : StateM Session Unit := do
    lines.forM (performTop top)
    Session.releaseAll
  let ((), session) := act s.session
  (session.trace, session.ending)

end ComponentHost.Scenario
