import ComponentHost.Invocation.Proxy
import ComponentHost.Proofs.Invocation.BuiltIns

/-! # Built-in filters are transparent

  A call through any chain of logging and transaction filters gives what the method gives, unless a
  scope is refused on the way in or the completion of a scope fails on the way out. Lines of the log
  are written and not read, so a state is looked at here together with a book that notes the lines,
  and between them the runs of the method:

  - `Logbook` is a state with such a book, and `MethodBody` a method that cannot read it;
  - `Bracketed` is how the lines of the filters stand around what the method has left in the book;
  - `pass_bodies`, `pass_bracketed` and `pass_scopes` say what a chain adds to the book, and that
    its logging filters do nothing else;
  - `Transparent` is what is known of a call, and `invoke_transparent` proves it of every call of an
    intercepted method of a proxy.
-/

namespace ComponentHost

open HasWorld

/-! ### A book of lines and runs -/

/-- What a book notes of a call. -/
inductive Mark
  /-- A line is written to the log. -/
  | line (l : LogLine)
  /-- A method runs, on these arguments. -/
  | body (arguments : Arguments)

def Mark.arguments? : Mark → Option Arguments
  | line _ => none
  | body args => some args

structure Logbook (ρ : Type) where
  state : ρ
  /-- What is in the book, the latest last. -/
  marks : List Mark

namespace Logbook

variable {ρ : Type}

instance [HasWorld ρ] : HasWorld (Logbook ρ) where
  world b := world b.state
  setWorld b w := { b with state := setWorld b.state w }
  world_setWorld _ _ := world_setWorld _ _
  setWorld_world b := by simp
  setWorld_setWorld _ _ _ := by simp

instance : HasLog (Logbook ρ) where
  log l b := { b with marks := b.marks ++ [.line l] }

theorem log_marks (l : LogLine) (b : Logbook ρ) :
    (HasLog.log l b).marks = b.marks ++ [.line l] := rfl

/-- The runs of methods that are in the book, each by its arguments. -/
def runs (b : Logbook ρ) : List Arguments := b.marks.filterMap Mark.arguments?

end Logbook

/-- A method: it does with the state what it likes, and writes lines to the log. -/
abbrev MethodBody (ρ : Type) := Arguments → ρ → Except Stop Value × List LogLine × ρ

namespace MethodBody

variable {ρ : Type} (body : MethodBody ρ)

/-- The method over a book, which notes that it runs. -/
def noted : Invoker (Logbook ρ) := fun args b =>
  let (r, lines, state) := body args b.state
  (r, ⟨state, b.marks ++ .body args :: lines.map .line⟩)

/-- The method runs once. -/
theorem noted_runs (args : Arguments) (b : Logbook ρ) :
    (body.noted args b).2.runs = b.runs ++ [args] := by
  simp [noted, Logbook.runs, Mark.arguments?, List.filterMap_map, Function.comp_def]

/-- The method with its failures as its callers see them. -/
def reported (m : MethodSignature) : MethodBody ρ := fun args s =>
  let (r, lines, s) := body args s
  (match r with
    | .ok v => .ok v
    | .error stop => .error (stop.ofMethod m.display), lines, s)

end MethodBody

/-! ### Lines around a call -/

def Unpanicked (r : Except Stop Value) : Prop := ∀ message, r ≠ .error (.panicked message)

theorem LoggingOptions.closing_of_unpanicked (o : LoggingOptions) (method : String) (elapsed : Nat)
    {r : Except Stop Value} (h : Unpanicked r) : ∃ l, o.closing method elapsed r = some l := by
  rcases r with (f | p) | v
  · exact ⟨_, rfl⟩
  · exact absurd rfl (h p)
  · exact ⟨_, rfl⟩

/-- What is in a book once a call has passed some filters, the outermost first. Inside them stand
    the marks `inner`, left with the result `r`. Every logging filter adds a line about the start
    before, and a line about the end behind, which is about the result that it passes on; a
    transaction filter adds nothing, and passes on the result, or an error instead of a value. -/
inductive Bracketed (m : MethodSignature) (args : Arguments) (r : Except Stop Value)
    (inner : List Mark) : List BuiltIn → Except Stop Value → List Mark → Prop
  /-- There is no filter. -/
  | inside : Bracketed m args r inner [] r inner
  /-- The outermost filter is a logging filter. -/
  | logging {o : LoggingOptions} {rest : List BuiltIn} {r' : Except Stop Value} {marks : List Mark}
      {elapsed : Nat} {l : LogLine} (within : Bracketed m args r inner rest r' marks)
      (hl : o.closing m.display elapsed r' = some l) :
      Bracketed m args r inner (.logging o :: rest) r'
        (.line (o.started m.display args.values) :: (marks ++ [.line l]))
  /-- The outermost filter is a transaction filter. -/
  | transactional {k : Coordinator} {rules : TransactionRules} {rest : List BuiltIn}
      {r' r'' : Except Stop Value} {marks : List Mark}
      (within : Bracketed m args r inner rest r' marks)
      (hr : r'' = r' ∨ ∃ v e, r' = .ok v ∧ r'' = .error (.ofError e)) :
      Bracketed m args r inner (.transactional k rules :: rest) r'' marks

/-- Filters do not panic. -/
theorem Bracketed.unpanicked {m : MethodSignature} {args : Arguments} {r r' : Except Stop Value}
    {inner marks : List Mark} {chain : List BuiltIn} (h : Bracketed m args r inner chain r' marks)
    (hr : Unpanicked r) : Unpanicked r' := by
  induction h with
  | inside => exact hr
  | logging _ _ ih => exact ih
  | transactional _ hr' ih =>
    rcases hr' with rfl | ⟨v, e, _, rfl⟩
    · exact ih
    · intro message impossible
      cases impossible

namespace BuiltIn

variable {ρ : Type} [HasWorld ρ] (m : MethodSignature) (args : Arguments) (body : MethodBody ρ)

/-! ### What a chain adds to a book -/

/-- The runs of methods are the same after a step of a filter. -/
theorem start_runs (f : BuiltIn) (b : Logbook ρ) : (f.start m args b).2.runs = b.runs := by
  cases f with
  | logging o => simp [start, HasLog.log, Logbook.runs, Mark.arguments?]
  | transactional k rules =>
    dsimp only [start]
    rcases k.begin (rules.definitionFor m) (world b) with ⟨e | scope, w⟩ <;> rfl

theorem close_runs (layer : Layer) (r : Except Stop Value) (b : Logbook ρ) :
    (close m layer r b).2.runs = b.runs := by
  cases layer with
  | line o since =>
    dsimp only [close]
    split
    · simp [HasLog.log, Logbook.runs, Mark.arguments?]
    · rfl
  | scope k scope =>
    rcases r with stop | v
    · rfl
    · dsimp only [close]
      rcases k.complete scope (world b) with ⟨e | _, w⟩ <;> rfl

/-- The method runs exactly once if no filter refuses the call, and never otherwise. -/
theorem pass_runs (chain : List BuiltIn) (b : Logbook ρ) :
    (pass m args body.noted chain b).2.runs
      = b.runs ++ match (descend m args chain b).1.2 with
        | some _ => []
        | none => [args] := by
  induction chain generalizing b with
  | nil => exact body.noted_runs args b
  | cons f rest ih =>
    have started := start_runs m args f b
    rw [pass_cons, descend]
    rcases hs : f.start m args b with ⟨e | layer, b₁⟩
    · rw [hs] at started
      simp [started]
    · rw [hs] at started
      -- Once the filter has let the call through, closing its layer runs nothing.
      dsimp only
      rw [close_runs, ih, started]

/-- What a chain finds at its inner end: the refusal of a filter with nothing in the book, or what
    the method gives with its run and its lines. -/
def inmost (refusal : Option Error) (b : Logbook ρ) : Except Stop Value × List Mark :=
  match refusal with
  | some e => (.error (.ofError e), [])
  | none =>
    let (r, lines, _) := body args b.state
    (r, .body args :: lines.map .line)

/-- Around that stand the lines of the filters that were reached. -/
theorem pass_bracketed {chain : List BuiltIn} {b b₁ : Logbook ρ} {layers : List Layer}
    {refusal : Option Error} {r : Except Stop Value} {inner : List Mark}
    (hd : descend m args chain b = ((layers, refusal), b₁))
    (hi : inmost args body refusal b₁ = (r, inner)) (calm : Unpanicked r) :
    ∃ marks, (pass m args body.noted chain b).2.marks = b.marks ++ marks ∧
      Bracketed m args r inner (chain.take layers.length) (pass m args body.noted chain b).1
        marks := by
  induction chain generalizing b layers with
  | nil =>
    cases hd
    cases hi
    exact ⟨_, rfl, .inside⟩
  | cons f rest ih =>
    rw [pass_cons]
    rw [descend] at hd
    cases f with
    | logging o =>
      dsimp only [start] at hd ⊢
      rcases hd' : descend m args rest (HasLog.log (o.started m.display args.values) b) with
        ⟨⟨layers', refusal'⟩, b₁'⟩
      rw [hd'] at hd
      cases hd
      obtain ⟨marks, hm, within⟩ := ih hd'
      -- The line about the end is written for the result that comes from the filters inside.
      obtain ⟨l, hl⟩ := o.closing_of_unpanicked m.display _ (within.unpanicked calm)
      refine ⟨_, ?_, .logging within hl⟩
      dsimp only [close]
      rw [hl]
      show (HasLog.log l (_ : Logbook ρ)).marks = _
      rw [Logbook.log_marks, hm, Logbook.log_marks]
      simp
    | transactional k rules =>
      dsimp only [start] at hd ⊢
      rcases hb : k.begin (rules.definitionFor m) (world b) with ⟨e | scope, w⟩
      · rw [hb] at hd
        cases hd
        cases hi
        exact ⟨[], (List.append_nil _).symm, .inside⟩
      · rw [hb] at hd
        dsimp only at hd ⊢
        rcases hd' : descend m args rest (setWorld b w) with ⟨⟨layers', refusal'⟩, b₁'⟩
        rw [hd'] at hd
        cases hd
        obtain ⟨marks, hm, within⟩ := ih hd'
        rcases hp : pass m args body.noted rest (setWorld b w) with ⟨stop | v, b₂⟩ <;>
          rw [hp] at hm within
        · exact ⟨marks, hm, .transactional within (.inl rfl)⟩
        · dsimp only [close]
          rcases k.complete scope (world b₂) with ⟨e | _, w'⟩
          · exact ⟨marks, hm, .transactional within (.inr ⟨v, e, rfl, rfl⟩)⟩
          · exact ⟨marks, hm, .transactional within (.inl rfl)⟩

/-! ### What logging filters are to a call -/

/-- Two calls have the same result and lead to the same state, whatever is in their books. -/
def SameOutcome (x y : Except Stop Value × Logbook ρ) : Prop :=
  y.1 = x.1 ∧ y.2.state = x.2.state

/-- The end of a scope only looks at the result and the state. -/
theorem close_scope_sameOutcome (k : Coordinator) (scope : TransactionScope)
    {x y : Except Stop Value × Logbook ρ} (h : SameOutcome x y) :
    SameOutcome (close m (.scope k scope) x.1 x.2) (close m (.scope k scope) y.1 y.2) := by
  obtain ⟨r, s, marks⟩ := x
  obtain ⟨r', s', marks'⟩ := y
  obtain ⟨rfl, rfl⟩ := h
  rcases r' with stop | v
  · exact ⟨rfl, rfl⟩
  · dsimp only [close, world, setWorld]
    rcases k.complete scope (HasWorld.world s') with ⟨e | _, w⟩ <;> exact ⟨rfl, rfl⟩

/-- Without its logging filters a chain gives the same result and the same state. -/
theorem pass_scopes (chain : List BuiltIn) {b b' : Logbook ρ} (h : b'.state = b.state) :
    SameOutcome (pass m args body.noted chain b)
      (pass m args body.noted (chain.filter isTransactional) b') := by
  induction chain generalizing b b' with
  | nil =>
    show SameOutcome (body.noted args b) (body.noted args b')
    simp [SameOutcome, MethodBody.noted, h]
  | cons f rest ih =>
    rw [pass_cons]
    cases f with
    | logging o =>
      show SameOutcome _ (pass m args body.noted (rest.filter isTransactional) b')
      obtain ⟨result, state⟩ := ih (b := HasLog.log (o.started m.display args.values) b) h
      refine ⟨result, state.trans ?_⟩
      dsimp only [start, close]
      split <;> rfl
    | transactional k rules =>
      -- Logging touches no world, so the coordinator answers alike on both sides.
      have same : world b' = world b := by
        show world b'.state = world b.state
        rw [h]
      rw [List.filter_cons_of_pos rfl, pass_cons]
      dsimp only [start]
      rw [same]
      rcases k.begin (rules.definitionFor m) (world b) with ⟨e | scope, w⟩
      · exact ⟨rfl, congrArg (setWorld · w) h⟩
      · exact close_scope_sameOutcome m k scope (ih (congrArg (setWorld · w) h))

/-! ### How far a call gets -/

variable {m args} in
/-- It is the scope of a transaction filter that refuses a call. -/
theorem descend_refused {chain : List BuiltIn} {b b₁ : Logbook ρ} {layers : List Layer} {e : Error}
    (h : descend m args chain b = ((layers, some e), b₁)) :
    ∃ k rules w, chain[layers.length]? = some (.transactional k rules) ∧
      k.begin (rules.definitionFor m) w = (.error e, world b₁) := by
  induction chain generalizing b layers with
  | nil => cases h
  | cons f rest ih =>
    rw [descend] at h
    rcases hs : f.start m args b with ⟨e' | layer, b'⟩
    -- Only a transactional filter refuses.
    · rw [hs] at h
      cases h
      cases f with
      | logging o => cases hs
      | transactional k rules =>
        refine ⟨k, rules, world b, rfl, ?_⟩
        dsimp only [start] at hs
        rcases hb : k.begin (rules.definitionFor m) (world b) with ⟨e' | scope, w⟩
        · rw [hb] at hs
          cases hs
          rw [world_setWorld]
        · rw [hb] at hs
          cases hs
    · rw [hs] at h
      rcases hd : descend m args rest b' with ⟨⟨layers', refusal⟩, b₂⟩
      dsimp only at h
      rw [hd] at h
      cases h
      exact ih hd

variable {m args} in
/-- If no scope is refused, all filters have let the call in. -/
theorem descend_entered {chain : List BuiltIn} {b b₁ : Logbook ρ} {layers : List Layer}
    (h : descend m args chain b = ((layers, none), b₁)) : layers.length = chain.length := by
  induction chain generalizing b layers with
  | nil => cases h; rfl
  | cons f rest ih =>
    rw [descend] at h
    rcases hs : f.start m args b with ⟨e' | layer, b'⟩
    -- No filter has refused, so each one has laid its layer.
    · rw [hs] at h
      cases h
    · rw [hs] at h
      rcases hd : descend m args rest b' with ⟨⟨layers', refusal⟩, b₂⟩
      dsimp only at h
      rw [hd] at h
      cases h
      rw [List.length_cons, ih hd, List.length_cons]

/-! ### Calls of a proxy -/

/-- What is known of a call of a method through a chain of built-in filters. -/
structure Transparent (chain : List BuiltIn) (b : Logbook ρ) (out : Except Stop Value × Logbook ρ) :
    Prop where
  /-- If a scope is refused, the method does not run, and the caller is told why. -/
  refused : ∀ layers e b₁, descend m args chain b = ((layers, some e), b₁) →
    out.1 = .error (.ofError e) ∧ out.2.runs = b.runs ∧
      ∃ k rules w, chain[layers.length]? = some (.transactional k rules) ∧
        k.begin (rules.definitionFor m) w = (.error e, world b₁)
  /-- If all scopes are begun, the method runs once, on the arguments of the caller. -/
  ran : ∀ layers b₁, descend m args chain b = ((layers, none), b₁) →
    out.2.runs = b.runs ++ [args] ∧ layers.length = chain.length
  /-- If it fails then, the caller is told just this, whatever comes of the ends of scopes. -/
  failed : ∀ layers b₁ stop, descend m args chain b = ((layers, none), b₁) →
    (body args b₁.state).1 = .error stop → out.1 = .error (stop.ofMethod m.display)
  /-- If it returns a value, the caller is given this value; or else the first completion that
      fails, from the inside out, is what the caller is told about. -/
  returned : ∀ layers b₁ v, descend m args chain b = ((layers, none), b₁) →
    (body args b₁.state).1 = .ok v →
    (out.1 = .ok v ∨ ∃ k scope e, FailsFirst m layers v (body.noted args b₁).2 k scope e) ∧
      ∀ k scope e, FailsFirst m layers v (body.noted args b₁).2 k scope e →
        out.1 = .error (.ofError e)
  /-- Unless the method panics, the lines of the logging filters that were reached stand around
      its own, in pairs. -/
  lines : ∀ layers refusal b₁ r inner, descend m args chain b = ((layers, refusal), b₁) →
    inmost args (body.reported m) refusal b₁ = (r, inner) → Unpanicked r →
    ∃ marks, out.2.marks = b.marks ++ marks ∧
      Bracketed m args r inner (chain.take layers.length) out.1 marks

theorem pass_transparent (chain : List BuiltIn) (b : Logbook ρ) :
    Transparent m args body chain b (pass m args (body.reported m).noted chain b) := by
  constructor
  case refused =>
    intro layers e b₁ hd
    refine ⟨?_, ?_, descend_refused hd⟩
    · rw [pass, hd]
      exact ascend_error m b₁ layers _
    · rw [pass_runs, hd, List.append_nil]
  case ran =>
    intro layers b₁ hd
    refine ⟨?_, descend_entered hd⟩
    rw [pass_runs, hd]
  case failed =>
    intro layers b₁ stop hd hstop
    rw [pass, hd]
    dsimp only [MethodBody.noted, MethodBody.reported]
    rw [hstop]
    exact ascend_error m _ layers _
  case returned =>
    intro layers b₁ v hd hv
    -- All scopes were begun, so what is left of the call is the way back out with the value.
    have ran : pass m args (body.reported m).noted chain b
        = ascend m layers (.ok v) (body.noted args b₁).2 := by
      rw [pass, hd]
      dsimp only [MethodBody.noted, MethodBody.reported]
      rw [hv]
    rw [ran]
    exact ⟨ascend_value m _ layers v, fun _ _ _ h => h.result⟩
  case lines =>
    intro layers refusal b₁ r inner hd hi calm
    exact pass_bracketed m args _ hd hi calm

end BuiltIn

open BuiltIn

variable {ρ τ β : Type} [HasWorld ρ] {p : Proxy τ BuiltIn β} {method : String}
  {values : List Value} {slot : MethodSlot β} {code : β}

/-- A call of an intercepted method passes the chain, with the method at its end. -/
theorem Proxy.invoke_intercepted (bodies : τ → β → MethodBody ρ)
    (hs : p.select method = .ok (slot, true)) (hc : slot.body = some code)
    (hn : values.length = slot.signature.parameters.length) :
    p.invoke BuiltIn.filter (fun t c => (bodies t c).noted) method values =
      pass slot.signature (.forMethod slot.signature values)
        ((bodies p.target code).reported slot.signature).noted p.filters := by
  -- The last link is the method, whose failures are reported as those of the method.
  have last : Proxy.invoker (fun c => (bodies p.target c).noted) slot
      = ((bodies p.target code).reported slot.signature).noted := by
    funext args b
    unfold Proxy.invoker
    rw [hc]
    dsimp only [MethodBody.noted, MethodBody.reported, bind, StateT.bind]
    rcases bodies p.target code args b.state with ⟨stop | v, lines, s⟩ <;> rfl
  funext b
  unfold Proxy.invoke
  rw [hs]
  dsimp only
  rw [if_neg (by simp [hn]), if_pos rfl, last]
  show ((Chain.execute _ _ _ _ b).1.1, (Chain.execute _ _ _ _ b).2) = _
  rw [execute_eq]

/-- **Built-in filters are transparent.** Take a proxy with any chain of logging and transaction
    filters, of any coordinators and with any rules, any intercepted method, any arguments, and any
    state, with whatever transactions and whatever faults are pending. The method runs exactly once,
    on the arguments of the caller, if every scope on the way in is begun, and otherwise it does not
    run and the caller is told why the first of the others was refused. If the method fails, the
    caller is told its failure, whatever comes of rolling back. If it returns a value, the caller is
    given this value, or the error of the first completion that fails, from the inside out. Unless
    the method panics, every logging filter that was reached writes one line about the start and one
    about the end, around all that is written inside. With any other logging filters in any other
    places, the result is the same, and the state with all calls and transactions. -/
theorem invoke_transparent (bodies : τ → β → MethodBody ρ)
    (hs : p.select method = .ok (slot, true)) (hc : slot.body = some code)
    (hn : values.length = slot.signature.parameters.length) (b : Logbook ρ) :
    let call (p : Proxy τ BuiltIn β) :=
      p.invoke BuiltIn.filter (fun t c => (bodies t c).noted) method values
    Transparent slot.signature (.forMethod slot.signature values) (bodies p.target code) p.filters b
      (call p b) ∧
    ∀ chain b', chain.filter isTransactional = p.filters.filter isTransactional →
      b'.state = b.state → SameOutcome (call p b) (call { p with filters := chain } b') := by
  intro call
  have called (chain : List BuiltIn) : call { p with filters := chain } = _ :=
    Proxy.invoke_intercepted (p := { p with filters := chain }) bodies hs hc hn
  constructor
  · show Transparent _ _ _ _ b (call { p with filters := p.filters } b)
    rw [called]
    exact pass_transparent _ _ _ p.filters b
  · intro chain b' same h
    show SameOutcome (call { p with filters := p.filters } b) _
    rw [called, called]
    -- Both chains give what the transaction filters alone give.
    obtain ⟨result, state⟩ := pass_scopes slot.signature (.forMethod slot.signature values)
      ((bodies p.target code).reported slot.signature) p.filters (b := b) rfl
    obtain ⟨result', state'⟩ := pass_scopes slot.signature (.forMethod slot.signature values)
      ((bodies p.target code).reported slot.signature) chain (b := b') h.symm
    rw [same] at result' state'
    exact ⟨result'.symm.trans result, state'.symm.trans state⟩

def payment : MethodSlot Unit := ⟨{ owner := "Ledger", name := "pay" }, some ()⟩

/-- A proxy whose calls run in a scope that is nested in another one. -/
def Proxy.nested : Proxy Unit BuiltIn Unit where
  target := ()
  table := { typeName := "Ledger", slots := [payment] }
  filters := [.transactional {} {}, .logging {},
    .transactional {} { fallback := { propagation := .nested } }]
  strategy := .subclass
  routes := .ofTable { typeName := "Ledger", slots := [payment] } .subclass

def MethodBody.paid : MethodBody World := fun _ w => (.ok (.bool true), [], w)

/-- A world in which a savepoint cannot be given up. -/
def World.clinging : World :=
  { main := { schedules := ⟨[(.releaseSavepoint, [⟨1, .refuse⟩])]⟩ } }

/-- The method returns a value, and the savepoint cannot be given up then: that is what the caller
    is told, and the transaction is rolled back. The logging filter is in between. -/
theorem invoke_nested_transparent :
    let call (p : Proxy Unit BuiltIn Unit) :=
      p.invoke BuiltIn.filter (fun _ _ => MethodBody.paid.noted) "pay" []
    Proxy.nested.select "pay" = .ok (payment, true) ∧
    (Transparent payment.signature (.forMethod payment.signature []) MethodBody.paid
        Proxy.nested.filters ⟨World.clinging, []⟩ (call Proxy.nested ⟨World.clinging, []⟩) ∧
      ∀ chain b', chain.filter isTransactional = Proxy.nested.filters.filter isTransactional →
        b'.state = World.clinging → SameOutcome (call Proxy.nested ⟨World.clinging, []⟩)
          (call { Proxy.nested with filters := chain } b')) ∧
    (call Proxy.nested ⟨World.clinging, []⟩).1
      = .error (.ofError (Resource.injected .releaseSavepoint)) := by
  intro call
  have selected : Proxy.nested.select "pay" = .ok (payment, true) := rfl
  have noArguments : ([] : List Value).length = payment.signature.parameters.length := rfl
  have transparent := invoke_transparent (fun _ _ => MethodBody.paid) selected rfl noArguments
    ⟨World.clinging, []⟩
  -- The logging filter makes no difference to the result.
  have scopes : (call { Proxy.nested with filters := Proxy.nested.filters.filter isTransactional }
      ⟨World.clinging, []⟩).1 = .error (.ofError (Resource.injected .releaseSavepoint)) := by
    show (Proxy.invoke BuiltIn.filter (fun _ _ => MethodBody.paid.noted)
      { Proxy.nested with filters := Proxy.nested.filters.filter isTransactional } "pay" []
      ⟨World.clinging, []⟩).1 = _
    with_unfolding_all rfl
  have same := transparent.2 (Proxy.nested.filters.filter isTransactional) ⟨World.clinging, []⟩
    rfl rfl
  exact ⟨selected, transparent, same.1.symm.trans scopes⟩

end ComponentHost
