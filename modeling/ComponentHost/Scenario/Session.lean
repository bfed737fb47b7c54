import ComponentHost.Scenario.Report

/-! # Sessions

  The state of a scenario that is being run: the world, the store, what labels name, how often
  factories and components were called, and the trace.
-/

namespace ComponentHost.Scenario

/-- What a label names. -/
inductive Handle
  | installed (c : ContextId)
  /-- A context that is only kept. -/
  | derived (c : ContextId)
  | scope (k : Coordinator) (s : TransactionScope)
  | transaction (t : TxId)

def Handle.context? : Handle → Option ContextId
  | .installed c | .derived c => some c
  | .scope _ s => some s.context
  | .transaction _ => none

structure Setup where
  environment : Variables
  container : Container
  coordinator : ResourceId → Coordinator
  scanned : List (Blueprint Step)

structure Session where
  setup : Setup
  world : World := {}
  store : Store kit := {}
  /-- What labels name, the latest first. -/
  handles : List (String × Handle) := []
  /-- The proxies, by label. -/
  proxies : Dict String (Proxy Component (FilterScript Step) (MethodScript Step)) := {}
  /-- How often the factory of each definition was called. -/
  attempts : Dict String Nat := {}
  serial : Nat := 0
  /-- How many objects there are, those made by conversion included. -/
  objects : Nat := 0
  calls : Dict Nat Nat := {}
  /-- The last result of passing a call on, in the filter that is running. -/
  lastResult : Value := .null
  trace : Array TraceEntry := #[]

instance : HasWorld Session where
  world := Session.world
  setWorld s w := { s with world := w }
  world_setWorld _ _ := rfl
  setWorld_world _ := rfl
  setWorld_setWorld _ _ _ := rfl

instance : HasStore kit Session where
  store := Session.store
  setStore s st := { s with store := st }

instance : HasLog Session where
  log l s := { s with trace := s.trace.push (.log l) }

namespace Session

/-- How deeply calls and resolutions may nest. -/
def nestingLimit : Nat := 1000000

def record (e : TraceEntry) : StateM Session Unit :=
  modify fun s => { s with trace := s.trace.push e }

/-! ## Views -/

def transactionView (w : World) (t : TxId) : Option TransactionView :=
  (w.transaction? t).map (⟨t, ·, w.clock⟩)

def contextView (w : World) (c : ContextId) : Option ContextView :=
  w.contexts[c.index]?.map fun ctx => {
    id := c
    depth := ctx.depth
    parent := ctx.parent
    found := {
      num := w.contexts.lookup (·.attributes.num) c
      text := w.contexts.lookup (·.attributes.text) c
      flag := w.contexts.lookup (·.attributes.flag) c }
    own := ctx.attributes
    description := w.contexts.description c }

def resourceView (r : Resource) : ResourceView :=
  ⟨r.memory.committed, r.events, r.memory.journals.size⟩

def instanceView (i : Instance kit) : InstanceView :=
  match i.held with
  | .component c => .component c
  | .filter f => .filter f.name

def proxyView (p : Proxy Component (FilterScript Step) (MethodScript Step)) : ProxyView :=
  ⟨p.strategy, p.filters.map (·.name), p.methods, p.target⟩

/-! ## Components -/

def newObject : StateM Session Nat :=
  modifyGet fun s => (s.objects, { s with objects := s.objects + 1 })

def newComponent (type : TypeKey) (id : String) : StateM Session Component := do
  let object ← newObject
  modify fun s => { s with serial := s.serial + 1 }
  return { type, id, serial := (← get).serial, object }

def callsOf (s : Session) (c : Component) : Nat := (s.calls.get? c.object).getD 0

def convert (c : Component) : Cast kit → StateM Session (Component × Option TypeKey)
  | .itself => return (c, none)
  | .converted (.view key) => return (c, some key)
  | .converted (.rebuild key) => do
    return ({ c with type := key, converted := true, object := ← newObject }, none)

def present (p : Presented kit) : StateM Session InstanceView :=
  match p.item.held with
  | .filter f => return .filter f.name
  | .component c => do
    match ← convert c p.cast with
    | (c, none) => return .component c
    | (c, some key) => return .through key c

def presentTarget (p : Presented kit) : StateM Session Component :=
  match p.item.held with
  | .filter _ => return default
  | .component c => return (← convert c p.cast).1

/-! ## Definitions and factories -/

def clauses (b : Blueprint Step) : List (Clause kit) :=
  b.capabilities.map (fun (key, c) => .implements key c)
    ++ b.table.toList.map (fun t => .methods t.table)
    ++ [.scope b.scope]
    ++ b.aliases.map .named
    ++ b.dependencies.map .dependsOn
    ++ b.filters.map fun f => .filter f

def define (b : Blueprint Step) : StateM Session (Definition kit) := do
  let factory : Factory kit ← match b.origin with
    | .registered => pure (.existing (.component (← newComponent b.type b.id)))
    | .filter f => pure (.existing (.filter f))
    | .factory f => pure (.make f)
  return .build b.id b.type factory (clauses b)

def register (b : Blueprint Step) : Attempt Session Unit := do
  let d ← define b
  match (← get).store.register d with
  | .ok store => modify fun s => { s with store }
  | .error e => throw e

def nextAttempt (id : String) : StateM Session Nat := do
  let n := ((← get).attempts.get? id).getD 0 + 1
  modify fun s => { s with attempts := s.attempts.insert id n }
  return n

/-- What a factory does before it makes a component or gives up. -/
def prepare (lookup : String → Attempt Session (Instance kit))
    (f : FactoryScript (Blueprint Step)) (deps : Dependencies kit) : Attempt Session Unit := do
  f.register.forM register
  for name in f.lookup do
    let i ← lookup name
    record (.lookup (instanceView i))
  for (name, type) in f.get do
    let i ← Attempt.ofExcept (deps.get name type)
    record (.dependency (instanceView i))

/-- How an attempt of a factory ends after its preparations. -/
def verdict (f : FactoryScript (Blueprint Step)) (id : String) (attempt : Nat) : Except Stop Unit :=
  if attempt ≤ f.panicFixed then .error (.panicked "static panic")
  else if attempt ≤ f.panicTold then
    .error (.panicked ("panic in " ++ id ++ " attempt " ++ toString attempt))
  else if attempt ≤ f.panicMute then .error (.panicked none)
  else if attempt ≤ f.fail then .error (.failed (.application f.message))
  else .ok ()

/-- Calls a factory; `lookup` resolves names for it. -/
def callFactory (lookup : String → Attempt Session (Instance kit)) : Maker kit Session :=
  fun d f deps => do
    let attempt ← nextAttempt d.id
    let looked := (d.dependencies ++ f.probe).map fun n => (n, (deps.instance? n).map instanceView)
    record (.factory d.id attempt looked deps.size)
    match ← (prepare lookup f deps).run with
    | .error e => return .error (.ofError e)
    | .ok () =>
      match verdict f d.id attempt with
      | .error stop => return .error stop
      | .ok () => return .ok (.component (← newComponent d.type d.id))

/-- Runs factories, which may resolve names themselves as deeply as the limit allows. -/
def maker : Nat → Maker kit Session
  | 0, _, _, _ => return .error (.ofError Resolution.tooDeep)
  | limit + 1, d, f, deps =>
    callFactory (Resolution.instantiate (maker limit) nestingLimit) d f deps

def factories : Maker kit Session := maker nestingLimit

/-! ## Labels -/

def keep (label : String) (h : Handle) : StateM Session Unit :=
  modify fun s => { s with handles := (label, h) :: s.handles }

/-- Takes the latest thing out that has a label and that `use` can use. -/
def takeFrom {α : Type} (label : String) (use : Handle → Option α) :
    List (String × Handle) → Option (α × List (String × Handle))
  | [] => none
  | (l, h) :: rest =>
    match if l = label then use h else none with
    | some a => some (a, rest)
    | none => (takeFrom label use rest).map fun (a, rest) => (a, (l, h) :: rest)

/-- Takes what a label names, if `use` can use it. -/
def take? {α : Type} (label : String) (use : Handle → Option α) : StateM Session (Option α) := do
  match takeFrom label use (← get).handles with
  | none => return none
  | some (a, rest) =>
    modify fun s => { s with handles := rest }
    return some a

def look {α : Type} (s : Session) (label : String) (use : Handle → Option α) : Option α :=
  (takeFrom label use s.handles).map (·.1)

/-- The context that a label names; one label always names the current context. Nothing is found
    where the label is unknown, and no context where there is no current one. -/
def contextOf? (s : Session) (label : String) : Option (Option ContextId) :=
  if label = "current" then some s.world.current
  else (s.look label Handle.context?).map some

/-- Lets go of something: an installed context is taken off, an open scope fails. -/
def release : Handle → StateM Session Unit
  | .installed c => HasWorld.onWorld (World.uninstall c)
  | .scope k s => do
    let _ ← HasWorld.onWorld (σ := Session) (k.fail s).run
  | .derived _ | .transaction _ => pure ()

/-- Lets go of everything that labels name, the latest first. -/
def releaseAll : StateM Session Unit := do
  let handles := (← get).handles
  modify fun s => { s with handles := [] }
  handles.forM fun (_, h) => release h

end Session

end ComponentHost.Scenario
