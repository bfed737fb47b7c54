import ComponentHost.Scenario.Session

/-! # Performing steps

  How each step uses the host. A body ends with its first failure that is not caught, with the value
  that it returns, or at its last step; a panic ends everything up to where it is caught. Bodies may
  nest as deeply as a limit allows: an interpreter performs steps by means of the interpreter for
  the bodies one level below.
-/

namespace ComponentHost.Scenario

/-- A computation of a step, which may stop, and which may ask what filters ask. -/
abbrev Act (α : Type) := ExceptT Stop (Intercept Session) α

/-- Where a step stands. -/
inductive Frame
  | plain
  | filter
  /-- In a method of a target, called with arguments. -/
  | method (target : Component) (arguments : Arguments)

/-- How a body goes on after a step. -/
inductive Flow
  /-- With the next step. -/
  | next
  | returned (v : Value)

structure Interpreter where
  step : Frame → Line Step → Act Flow
  task : Line Step → Task Session Flow

/-! ## Lifting -/

namespace Act

variable {α : Type}

def ofSession (act : StateM Session α) : Act α := liftM (m := StateM Session) act

/-- A computation that may fail with an error of the host. -/
def ofAttempt (act : Attempt Session α) : Act α := do
  match ← ofSession act.run with
  | .ok a => return a
  | .error e => throw (.ofError e)

/-- A computation on the world that cannot fail. -/
def ofWorld (act : StateM World α) : Act α := ofSession (HasWorld.onWorld act)

/-- A computation on the world that may fail. -/
def ofHosted (act : Hosted α) : Act α := do
  match ← ofWorld act.run with
  | .ok a => return a
  | .error e => throw (.ofError e)

def ofExcept : Except Error α → Act α
  | .ok a => return a
  | .error e => throw (.ofError e)

def ofBody (act : StateM Session (Except Stop α)) : Act α := do
  match ← ofSession act with
  | .ok a => return a
  | .error stop => throw stop

def world : Act World := return (← get).world

def ask (q : Request) : Act q.Reply := ExceptT.lift (Intercept.ask q)

end Act

open Act

/-! ## Bodies -/

/-- Performs the steps of a body; `atEnd` gives its value at the end. -/
def Interpreter.lines (inner : Interpreter) (frame : Frame) (atEnd : Act Value) :
    List (Line Step) → Act Value
  | [] => atEnd
  | l :: rest => do
    match ← inner.step frame l with
    | .returned v => return v
    | .next => inner.lines frame atEnd rest

/-- The last result of passing the call on, in a filter; nothing elsewhere. -/
def lastResult : Frame → Act Value
  | .filter => return (← get).lastResult
  | .plain | .method _ _ => return .null

/-- Performs a body. A body that does not return has the last result for its value. -/
def Interpreter.body (inner : Interpreter) (frame : Frame) (ls : List (Line Step)) : Act Value :=
  inner.lines frame (lastResult frame) ls

def Interpreter.taskBody (inner : Interpreter) : List (Line Step) → Task Session Value
  | [] => return .null
  | l :: rest => do
    match ← inner.task l with
    | .returned v => return v
    | .next => inner.taskBody rest

/-! ## Filters and methods -/

def Interpreter.method (inner : Interpreter) (target : Component) :
    MethodScript Step → Invoker Session
  | .unwritable => fun _ => return .error (.failed (.application Arguments.unwritable))
  | .steps ls => fun args => (inner.body (.method target args) ls).run.finish

def Interpreter.filter (inner : Interpreter) (setup : Setup) : FilterScript Step → Filter Session
  | .logging options => .logging options
  | .transactional on rules => .transactional (setup.coordinator on) rules
  | .steps name typeName ls => {
      name := name.getD typeName
      invoke _ := do
        let outer := (← get).lastResult
        modify fun s => { s with lastResult := .null }
        let result ← (inner.body .filter ls).run
        modify fun s => { s with lastResult := outer }
        match result with
        | .ok v => return .ok v
        | .error stop => return .error (stop.ofMethod (name.getD "nameless")) }

def argumentsOf : Frame → Act Arguments
  | .plain => return { values := [] }
  | .filter => ask .arguments
  | .method _ args => return args

/-! ## Steps on the world -/

def coordinatorFor : Via → Act Coordinator
  | .coordinator on => return (← get).setup.coordinator on
  | .container => do ofExcept (← get).setup.container.coordinator

/-- Reads and writes from another flow: its stack is empty. -/
def otherFlow (on : ResourceId) (write : Option (String × Value)) (read : Option String) :
    StateM Session Report := do
  let stack := (← get).world.stack
  modify fun s => { s with world := { s.world with stack := [] } }
  let w := (← get).world
  let put ← match write with
    | none => pure none
    | some (key, value) =>
      some <$> HasWorld.onWorld (σ := Session) (World.write on key (some value)).run
  let sees := read.bind (World.read (← get).world on)
  modify fun s => { s with world := { s.world with stack } }
  return .otherFlow w.current.isSome w.currentTransaction.isSome sees put

def endScope (label : String) (finish : Coordinator → TransactionScope → Hosted Unit) :
    Act Report := do
  let use : Handle → Option (Coordinator × TransactionScope)
    | .scope k s => some (k, s)
    | _ => none
  match ← ofSession (Session.take? label use) with
  | none => return .missing
  | some (k, s) =>
    ofHosted (finish k s)
    return .done

def drop (label : String) : StateM Session Report := do
  let use : Handle → Option Handle
    | .transaction _ => none
    | h => some h
  match ← Session.take? label use with
  | none => return .missing
  | some h =>
    Session.release h
    return .done

def pop (label : String) : StateM Session Report := do
  let use : Handle → Option ContextId
    | .installed c => some c
    | _ => none
  match ← Session.take? label use with
  | none => return .missing
  | some c =>
    HasWorld.onWorld (World.uninstall c)
    return .done

def showCurrent (label : Option String) : StateM Session Report := do
  let w := (← get).world
  match label, w.currentTransaction with
  | some l, some t => Session.keep l (.transaction t)
  | _, _ => pure ()
  return .transaction (w.currentTransaction.bind (Session.transactionView w))

def inspect (label : String) : StateM Session Report := do
  let s ← get
  let use : Handle → Option TxId
    | .transaction t => some t
    | _ => none
  match s.look label use with
  | none => return .missing
  | some t => return .transaction (Session.transactionView s.world t)

def showContext (c : Option ContextId) : StateM Session Report := do
  return .context (c.bind (Session.contextView (← get).world))

/-- Performs a step on memory, transactions or contexts that has no body. -/
def performOnWorld : Step → Option (Act Report)
  | .put on key value => some do
    ofHosted (World.write on key (some value))
    return .done
  | .delete on key => some do
    ofHosted (World.write on key none)
    return .done
  | .get on key => some do
    let w ← world
    return .read (w.read on key) ((w.resource on).memory.committed.get? key)
  | .store on => some do return .resource (Session.resourceView ((← world).resource on))
  | .refuseCommits on refuse => some do
    ofWorld (modify fun w =>
      let r := w.resource on
      w.setResource on { r with memory := { r.memory with refusesCommits := refuse } })
    return .done
  | .fault on point schedule => some do
    ofWorld (modify fun w =>
      let r := w.resource on
      w.setResource on { r with schedules := r.schedules.insert point schedule })
    return .done
  | .begin on d label => some do
    let k := (← get).setup.coordinator on
    let s ← ofHosted (k.begin d)
    ofSession (Session.keep label (.scope k s))
    return .scope s.participation (((← world).contexts[s.context.index]?.map (·.depth)).getD 0)
  | .complete label => some (endScope label Coordinator.complete)
  | .failScope label => some (endScope label Coordinator.fail)
  | .drop label => some (ofSession (drop label))
  | .current label => some (ofSession (showCurrent label))
  | .inspect label => some (ofSession (inspect label))
  | .setRollbackOnly => some do
    match (← world).currentTransaction with
    | none => return .applied false
    | some t =>
      ofWorld (World.setRollbackOnly t true)
      return .applied true
  | .checkTimeout => some do
    match (← world).currentTransaction with
    | none => return .done
    | some t =>
      ofHosted (World.checkTimeout t)
      return .done
  | .advance ms => some do
    ofWorld (World.advance ms)
    return .done
  | .policy on => some do
    let s ← get
    return .policy (s.setup.coordinator on).policy (s.world.resource on).name
      (s.setup.container.coordinator.map fun _ => ())
  | .push label values source => some do
    match source.map (← get).contextOf? with
    | some none => return .missing
    | _ =>
      let c ← ofWorld (World.push values)
      ofSession (Session.keep label (.installed c))
      ofSession (showContext (some c))
  | .pop label => some (ofSession (pop label))
  | .derive label parent values => some do
    match parent.map (← get).contextOf? with
    | some none => return .missing
    | p =>
      let c ← ofWorld (World.derive (p.join.join) values none)
      ofSession (Session.keep label (.derived c))
      ofSession (showContext (some c))
  | .insert label values => some do
    match (← get).contextOf? label with
    | none => return .missing
    | some none => return .context none
    | some (some c) =>
      ofWorld (World.insertAttributes c values)
      ofSession (showContext (some c))
  | .context label => some do
    match (← get).contextOf? (label.getD "current") with
    | none => return .missing
    | some c => ofSession (showContext c)
  | .otherFlow on write read => some (ofSession (otherFlow on write read))
  | _ => none

/-! ## Steps on the registry -/

/-- How many different results there are; all failures count as one. -/
def distinctResults (results : List (Except Error (Instance kit))) : Nat :=
  let key : Except Error (Instance kit) → Option (Option Nat)
    | .error _ => none
    | .ok ⟨_, .component c⟩ => some (some c.object)
    | .ok ⟨_, .filter _⟩ => some none
  (results.map key).eraseDups.length

/-- Resolves a name from several flows. Whichever comes first makes a singleton, so their order does
    not matter and they may as well go one after the other; the trace does not show them. -/
def resolveTogether (name : String) (flows : Nat) : StateM Session Report := do
  let before ← get
  let results ← (List.replicate flows ()).mapM fun _ =>
    (Resolution.instantiate Session.factories Session.nestingLimit name).run
  modify fun s => { s with trace := before.trace }
  return .together (distinctResults results) ((← get).serial - before.serial)

def scan : StateM Session (Except Error Nat) := do
  let ready := (← get).setup.scanned
  match ← (ready.forM Session.register).run with
  | .ok () => return .ok ready.length
  | .error e => return .error e

def makeSingletons : StateM Session Resolution.Tally :=
  Resolution.initializeSingletons Session.factories Session.nestingLimit

/-- Starts the container: a scan, and then all singletons unless the environment says otherwise. -/
def start : StateM Session (Except Error Nat × String) := do
  match ← scan with
  | .error e => return (.error e, "")
  | .ok n =>
    if (← get).setup.environment.eagerInit then
      let tally ← makeSingletons
      match tally.result with
      | .error e => return (.error e, tally.report)
      | .ok _ => return (.ok n, tally.report)
    else return (.ok n, "")

def performOnRegistry : Step → Option (Act Report)
  | .register b => some do
    ofAttempt (Session.register b)
    return .done
  | .addAlias new name => some do
    let store ← ofExcept ((← get).store.addAlias new name)
    modify fun s => { s with store }
    return .done
  | .definition name => some do
    return .definition (← ofExcept (Container.definition (← get).store name))
  | .find name => some do
    let st := (← get).store
    return .found ((st.find? name).map (·.id)) (st.canonical? name) (st.canonical? name).isSome
  | .ids => some do return .ids (← get).store.ids
  | .definitionByType key => some do
    return .id (some (← ofExcept (Container.definitionByType (← get).store key)).id)
  | .findByType key => some do
    return .id ((← ofExcept ((← get).store.findByType? key)).map (·.id))
  | .resolve name => some do
    let i ← ofAttempt (Resolution.instantiate Session.factories Session.nestingLimit name)
    return .instance (Session.instanceView i)
  | .resolveAs name key => some do
    let p ← ofAttempt (Resolution.instantiateAs Session.factories Session.nestingLimit name key)
    return .instance (← ofSession (Session.present p))
  | .resolveByType key => some do
    let p ← ofAttempt (Resolution.instantiateByType Session.factories Session.nestingLimit key)
    return .instance (← ofSession (Session.present p))
  | .resolveTogether name flows => some (ofSession (resolveTogether name flows))
  | .makeSingletons => some do
    let tally ← ofSession makeSingletons
    return .started tally.result (some tally.report)
  | .scan => some do return .started (← ofSession scan) none
  | .start => some do
    let (result, output) ← ofSession start
    return .started result (some output)
  | _ => none

/-! ## Steps on proxies and chains -/

def resolveFilters (specs : List (FilterSpec (FilterScript Step))) :
    Act (List (FilterScript Step)) := do
  let c := (← get).setup.container
  ofAttempt (c.resolveFilters Session.factories Session.nestingLimit specs)

def keepProxy (label : String) (p : Proxy Component (FilterScript Step) (MethodScript Step)) :
    Act Report := do
  modify fun s => { s with proxies := s.proxies.insert label p }
  return .proxy (Session.proxyView p)

/-- Passes a call through a chain, several times, each with fresh arguments. -/
def chainResults (filters : List (Filter Session)) (signature : MethodSignature)
    (values : List Value) (last : Invoker Session) : Nat → Act (List ChainResult)
  | 0 => return []
  | n + 1 => do
    let (result, args) ←
      ofSession (Chain.execute filters signature last (.forMethod signature values))
    let result ← match result with
      | .ok v => pure (.ok v)
      | .error (.failed f) => pure (.error f)
      | .error (.panicked m) => throw (.panicked m)
    return ⟨result, args.values⟩ :: (← chainResults filters signature values last n)

def performOnProxies (inner : Interpreter) : Step → Option (Act Report)
  | .resolveProxy name key label => some do
    let c := (← get).setup.container
    let p ← ofAttempt
      (c.resolveProxy Session.factories Session.nestingLimit Session.presentTarget name key)
    keepProxy label p
  | .buildProxy key table specs strategy label => some do
    let target ← ofSession (Session.newComponent key "target")
    let filters ← resolveFilters specs
    keepProxy label (← ofExcept (Proxy.build target table.table filters strategy.join))
  | .cloneProxy proxy label => some do
    match (← get).proxies.get? proxy with
    | none => return .missing
    | some p => keepProxy label p
  | .proxyInfo proxy probe => some do
    let s ← get
    match s.proxies.get? proxy with
    | none => return .missing
    | some p =>
      return .proxyInfo (Session.proxyView p) (probe.map fun m => (m, p.isIntercepted m))
        (s.callsOf p.target)
  | .invoke proxy method values shape => some do
    let s ← get
    match s.proxies.get? proxy with
    | none => return .missing
    | some p =>
      let v ← ofBody (p.invoke (inner.filter s.setup) inner.method method values)
      match shape with
      | none => return .value v
      | some (expected, shape) => return .value (← ofExcept (p.readResult method shape expected v))
  | .chain key specs signature values body times bare => some do
    let filters ← resolveFilters specs
    let filters := if bare then [] else filters
    let target ← ofSession (Session.newComponent key "target")
    let slot : MethodSlot (MethodScript Step) := ⟨signature, body.map .steps⟩
    let last := Proxy.invoker (inner.method target) slot
    let setup := (← get).setup
    let results ← chainResults (filters.map (inner.filter setup)) signature values last times
    return .chain results (filters.map (·.name)) signature ((← get).callsOf target)
  | .definitionFor filter signature => some do
    match filter with
    | .transactional _ rules => return .transactionDefinition (rules.definitionFor signature)
    | _ => return .missing
  | _ => none

/-! ## Steps in filters and methods -/

/-- Performs a step that belongs into a filter or a method. -/
def performInCall (frame : Frame) : Step → Option (Act Report)
  | .proceed => some do
    let result : Except Stop Value ← ask .proceed
    match result with
    | .ok v =>
      modify fun s => { s with lastResult := v }
      return .value v
    | .error stop => throw stop
  | .position => some do
    let l : Link ← ask .link
    let args : Arguments ← ask .arguments
    return .link l args.method
  | .setArgument i v => some do
    let result : Except Error Unit ← ask (.replaceArgument i v)
    ofExcept result
    return .done
  | .argument i shape => some do return .value (← ofExcept ((← argumentsOf frame).get i shape))
  | .arguments => some do return .arguments (← argumentsOf frame).values
  | .bump => some do
    match frame with
    | .method target _ =>
      let n := (← get).callsOf target + 1
      modify fun s => { s with calls := s.calls.insert target.object n }
      return .calls n
    | _ => return .missing
  | _ => none

/-! ## Steps with bodies -/

def iterate (body : Act Value) : Nat → Act Unit
  | 0 => return ()
  | n + 1 => do
    let _ ← body
    iterate body n

def catchPanic (body : Act Value) : Act Report := do
  match ← ExceptT.lift body.run with
  | .ok v => return .value v
  | .error (.panicked m) => return .caught m
  | .error stop => throw stop

def inContext (values : Attributes) (body : Act Value) : Act Value :=
  ExceptT.mk (World.scope values body.run)

def inScope (k : Coordinator) (d : TransactionDefinition) (body : Act Value) : Act Value :=
  ExceptT.mk (k.execute d body.run)

mutual

/-- How many waits the steps of a task contain. -/
def waits : List (Line Step) → Nat
  | [] => 0
  | ⟨step, _⟩ :: rest => stepWaits step + waits rest

/-- How many waits a step of a task contains. -/
def stepWaits : Step → Nat
  | .yield | .sleep _ => 1
  | .transactionTask _ _ body | .contextTask _ body => waits body
  | _ => 0

end

/-- Makes the tasks ready for their turns, in order. -/
def spawn (inner : Interpreter) :
    Nat → List (TaskScript Step) → StateM Session (List (Turn Session Value))
  | _, [] => return []
  | index, t :: rest => do
    let body := inner.taskBody t.lines
    let next ← match t.context with
      | none => pure body
      | some values => do
        let w := (← get).world
        let c ← HasWorld.onWorld (World.derive w.current values none)
        Session.record (.spawned index (Session.contextView (← get).world c))
        pure (body.within c)
    return ⟨index, t.polls, next, id⟩ :: (← spawn inner (index + 1) rest)

def runTasks (inner : Interpreter) (ts : List (TaskScript Step)) : Act Report := do
  let turns ← ofSession (spawn inner 0 ts)
  let limit := ts.foldl (fun n t => n + waits t.lines) 1
  ofBody (rounds (fun how => Session.record (.task how)) limit turns)
  return .done

/-- Performs a step of control, or one with a body. -/
def performControl (inner : Interpreter) (frame : Frame) : Step → Act Report
  | .fail f => throw (.failed f)
  | .panic message => throw (.panicked message)
  | .note text => return .note text
  | .catchPanic body => catchPanic (inner.body frame body)
  | .iterate n body => do
    -- a body without steps does nothing, however often
    iterate (inner.body frame body) (if body.isEmpty then 0 else n)
    return .done
  | .scope values body => return .value (← inContext values (inner.body frame body))
  | .transaction via d body => do
    let k ← coordinatorFor via
    return .value (← inScope k d (inner.body frame body))
  | .async body => return .value (← ofBody (inner.taskBody body).drive)
  | .tasks ts => runTasks inner ts
  | _ => throw (.ofError (.internal "the step belongs into a task"))

/-! ## The interpreter -/

def perform (inner : Interpreter) (frame : Frame) (s : Step) : Act Report :=
  let special := performOnWorld s <|> performOnRegistry s <|> performOnProxies inner s
    <|> performInCall frame s
  special.getD (performControl inner frame s)

def returned (frame : Frame) : Returned → Act Value
  | .value v => return v
  | .argument i => return .ofOption ((← argumentsOf frame).value? i)
  | .wrapped => return .record [("wrapped", ← lastResult frame)]

/-- What follows from the outcome of a step: an entry in the trace, unless the step panicked, and
    the end of the body, unless the failure is caught. -/
def settle (l : Line Step) : Except Stop Report → StateM Session (Except Stop Flow)
  | .ok report => do
    Session.record (.succeeded l.step.name report)
    return .ok .next
  | .error (.failed f) => do
    Session.record (.failed l.step.name f)
    return if l.caught then .ok .next else .error (.failed f)
  | .error (.panicked m) => return .error (.panicked m)

def performLine (inner : Interpreter) (frame : Frame) (l : Line Step) : Act Flow := do
  match l.step with
  | .return r => return .returned (← returned frame r)
  | s =>
    let outcome ← ExceptT.lift (perform inner frame s).run
    ofBody (settle l outcome)

/-- Performs a step of a task. Any step that is no matter of tasks is performed as in a body. -/
def performTask (inner : Interpreter) : Step → Task Session Report
  | .sleep ms => do
    Task.sleep ms
    return .done
  | .yield => do
    Task.yield
    return .done
  | .transactionTask via d body => do
    let k ← Task.now (coordinatorFor via).run.finish
    return .value (← k.executeTask d (inner.taskBody body))
  | .contextTask values body => do
    let c ← Task.now (σ := Session) do
      let w := (← get).world
      return .ok (← HasWorld.onWorld (World.derive w.current values none))
    return .value (← (inner.taskBody body).within c)
  | s => Task.now (perform inner .plain s).run.finish

def performTaskLine (inner : Interpreter) (l : Line Step) : Task Session Flow := do
  match l.step with
  | .return r => return .returned (← Task.now (returned .plain r).run.finish)
  | s =>
    let outcome ← (performTask inner s).attempt
    Task.now (settle l outcome)

def interpreter : Nat → Interpreter
  | 0 =>
    let tooDeep := Stop.ofError (.internal "the steps are nested too deeply")
    ⟨fun _ _ => throw tooDeep, fun _ => Task.now (return .error tooDeep)⟩
  | n + 1 =>
    ⟨fun frame l => performLine (interpreter n) frame l, fun l => performTaskLine (interpreter n) l⟩

end ComponentHost.Scenario
