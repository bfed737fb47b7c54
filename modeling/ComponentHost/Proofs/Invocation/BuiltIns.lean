import ComponentHost.Invocation.Logging
import ComponentHost.Invocation.Transactional
import ComponentHost.Proofs.Attempt

/-! # Chains of built-in filters

  The two filters that come with the host are written as computations around one request, that of
  passing the call on. In a chain they nest, and what they do takes place in three phases, which are
  said here one after the other instead of inside each other:

  - `descend` opens the filters from the outside in, up to the first one that refuses the call; an
    open filter is a `Layer`, a line that has been written or a scope that has been begun;
  - the method runs, once, if no filter has refused the call;
  - `ascend` closes the layers from the inside out, each on the result of the one before.

  `pass` puts the phases together, and `execute_eq` says that a chain does just this.
-/

namespace ComponentHost

open HasWorld

/-- A filter that comes with the host. -/
inductive BuiltIn
  /-- It writes lines about the start and the end of a call. -/
  | logging (options : LoggingOptions)
  /-- It runs the rest of a call in a transactional scope. -/
  | transactional (coordinator : Coordinator) (rules : TransactionRules)

namespace BuiltIn

def filter {σ : Type} [HasWorld σ] [HasLog σ] : BuiltIn → Filter σ
  | logging o => .logging o
  | transactional k rules => .transactional k rules

/-- The filter runs the call in a scope. -/
def isTransactional : BuiltIn → Bool
  | logging _ => false
  | transactional _ _ => true

end BuiltIn

/-- The line about the end of a call, if there is one: a call that panics has none. -/
def LoggingOptions.closing (o : LoggingOptions) (method : String) (elapsed : Nat) :
    Except Stop Value → Option LogLine
  | .ok _ => some (o.ended method elapsed)
  | .error (.failed f) => some (failed method elapsed f)
  | .error (.panicked _) => none

/-- What a built-in filter has left open. -/
inductive Layer
  /-- It has written a line about the start of the call, at this time. -/
  | line (options : LoggingOptions) (since : Nat)
  | scope (coordinator : Coordinator) (scope : TransactionScope)

namespace Intercept

variable {σ α β : Type}

theorem bind_apply (t : Intercept σ α) (f : α → Intercept σ β) (s : σ) :
    (t >>= f) s = (t s).bind f := rfl

/-- What a computation on worlds does among what a filter does. -/
theorem lift_eq [HasWorld σ] (act : Hosted α) (s : σ) :
    (liftM act.run : Intercept σ (Except Error α)) s
      = .done (act (world s)).1 (setWorld s (act (world s)).2) := rfl

end Intercept

namespace BuiltIn

variable {σ : Type} [HasWorld σ] [HasLog σ] (m : MethodSignature) (args : Arguments)

/-! ### The phases -/

/-- What a filter does before it passes a call on. -/
def start : BuiltIn → σ → Except Error Layer × σ
  | logging o, s =>
    (.ok (.line o (world s).clock), HasLog.log (o.started m.display args.values) s)
  | transactional k rules, s =>
    match k.begin (rules.definitionFor m) (world s) with
    | (.error e, w) => (.error e, setWorld s w)
    | (.ok scope, w) => (.ok (.scope k scope), setWorld s w)

/-- Opens filters from the outside in, up to the first one that refuses the call. The outermost
    layer comes first. -/
def descend : List BuiltIn → σ → (List Layer × Option Error) × σ
  | [], s => (([], none), s)
  | f :: rest, s =>
    match f.start m args s with
    | (.error e, s) => (([], some e), s)
    | (.ok layer, s) =>
      let ((layers, refusal), s) := descend rest s
      ((layer :: layers, refusal), s)

/-- What a filter does once it knows the result of the rest of the call. -/
def close : Layer → Except Stop Value → σ → Except Stop Value × σ
  | .line o since, r, s =>
    (r, match o.closing m.display ((world s).clock - since) r with
      | some l => HasLog.log l s
      | none => s)
  | .scope k scope, .ok v, s =>
    match k.complete scope (world s) with
    | (.error e, w) => (.error (.ofError e), setWorld s w)
    | (.ok (), w) => (.ok v, setWorld s w)
  | .scope k scope, .error stop, s => (.error stop, setWorld s (k.fail scope (world s)).2)

/-- Closes layers from the inside out, each on the result of the one before. -/
def ascend : List Layer → Except Stop Value → σ → Except Stop Value × σ
  | [], r, s => (r, s)
  | layer :: layers, r, s =>
    let (r, s) := ascend layers r s
    close m layer r s

/-- The three phases, one after the other. -/
def pass (invoker : Invoker σ) (chain : List BuiltIn) (s : σ) : Except Stop Value × σ :=
  let ((layers, refusal), s₁) := descend m args chain s
  let (r, s₂) := match refusal with
    | some e => (.error (.ofError e), s₁)
    | none => invoker args s₁
  ascend m layers r s₂

/-- A filter that has let the call in encloses all that the rest of the chain does. -/
theorem pass_cons (invoker : Invoker σ) (f : BuiltIn) (rest : List BuiltIn) (s : σ) :
    pass m args invoker (f :: rest) s =
      match f.start m args s with
      | (.error e, s₁) => (.error (.ofError e), s₁)
      | (.ok layer, s₁) =>
        let (r, s₂) := pass m args invoker rest s₁
        close m layer r s₂ := by
  unfold pass
  rw [descend]
  rcases f.start m args s with ⟨e | layer, s₁⟩ <;> rfl

/-! ### Filters in a chain -/

variable (link : Link) (next : Continuation σ) (s : σ)

/-- What a logging filter does in a chain. -/
theorem serve_logging (o : LoggingOptions) :
    Chain.serve m link next false args ((Filter.logging o).invoke m s) =
      let ((r, args'), s') := next args (HasLog.log (o.started m.display args.values) s)
      let (r, s') := close m (.line o (world s).clock) r s'
      ((r, args'), s') := by
  show Chain.serve m link next true _ _ = _
  rcases next args (HasLog.log (o.started m.display args.values) s) with
    ⟨⟨(f | p) | v, args'⟩, s'⟩ <;> rfl

/-- What a transaction filter does in a chain. -/
theorem serve_transactional (k : Coordinator) (rules : TransactionRules) :
    Chain.serve m link next false args ((Filter.transactional k rules).invoke m s) =
      match k.begin (rules.definitionFor m) (world s) with
      | (.error e, w) => ((.error (.ofError e), args), setWorld s w)
      | (.ok scope, w) =>
        let ((r, args'), s') := next args (setWorld s w)
        let (r, s') := close m (.scope k scope) r s'
        ((r, args'), s') := by
  show Chain.serve m link next false args (k.execute _ (Intercept.ask .proceed) s) = _
  unfold Coordinator.execute
  rw [Intercept.bind_apply, Intercept.lift_eq]
  rcases k.begin (rules.definitionFor m) (world s) with ⟨e | scope, w⟩
  · rfl
  · -- The scope has been begun, and the rest of the chain runs in it.
    show Chain.serve m link next true _ (Interception.bind _ _) = _
    dsimp only [Interception.bind]
    rcases next args (setWorld s w) with ⟨⟨stop | v, args'⟩, s'⟩
    · rfl
    · dsimp only [close]
      rw [Intercept.bind_apply, Intercept.lift_eq]
      rcases k.complete scope (world s') with ⟨e | _, w'⟩ <;> rfl

/-- **A chain of built-in filters opens its layers, runs the method once unless a filter has refused
    the call, and closes the layers.** The arguments stay what they are. -/
theorem execute_eq (chain : List BuiltIn) (invoker : Invoker σ) :
    Chain.execute (chain.map filter) m invoker args s =
      let (r, s') := pass m args invoker chain s
      ((r, args), s') := by
  -- Filters know their position only by passing on to the next one, so it is generalized.
  suffices passed : ∀ i, Chain.proceed m invoker i (chain.map filter) args s = _ from passed 0
  induction chain generalizing s with
  | nil => exact fun _ => rfl
  | cons f rest ih =>
    intro i
    rw [pass_cons]
    cases f with
    | logging o =>
      show Chain.serve m _ _ false args ((Filter.logging o).invoke m s) = _
      rw [serve_logging, ih]
      rfl
    | transactional k rules =>
      show Chain.serve m _ _ false args ((Filter.transactional k rules).invoke m s) = _
      rw [serve_transactional]
      dsimp only [start]
      rcases k.begin (rules.definitionFor m) (world s) with ⟨e | scope, w⟩
      · rfl
      · dsimp only
        rw [ih]

/-! ### What comes of a result on its way out -/

/-- Outer layers are closed after inner ones. -/
theorem ascend_append (outer inner : List Layer) (r : Except Stop Value) :
    ascend m (outer ++ inner) r s =
      let (r, s') := ascend m inner r s
      ascend m outer r s' := by
  induction outer with
  | nil => rfl
  | cons layer outer ih =>
    rw [List.cons_append, ascend, ih]
    rfl

/-- A failure passes every layer unchanged, whatever comes of the ends of scopes. -/
theorem ascend_error (layers : List Layer) (stop : Stop) :
    (ascend m layers (.error stop) s).1 = .error stop := by
  induction layers with
  | nil => rfl
  | cons layer layers ih =>
    rcases ha : ascend m layers (.error stop) s with ⟨r, s'⟩
    obtain rfl : r = .error stop := by simpa [ha] using ih
    rw [ascend, ha]
    cases layer <;> rfl

/-- When these layers are closed on a value, the completion of a scope fails, and it is the first to
    do so: the layers inside it have passed the value on. -/
def FailsFirst (layers : List Layer) (v : Value) (s : σ) (k : Coordinator)
    (scope : TransactionScope) (e : Error) : Prop :=
  ∃ outer inner s', layers = outer ++ .scope k scope :: inner ∧
    ascend m inner (.ok v) s = (.ok v, s') ∧ (k.complete scope (world s')).1 = .error e

variable {m} {s} in
/-- The failure of the first completion that fails is what comes out. -/
theorem FailsFirst.result {layers : List Layer} {v : Value} {k : Coordinator}
    {scope : TransactionScope} {e : Error} (h : FailsFirst m layers v s k scope e) :
    (ascend m layers (.ok v) s).1 = .error (.ofError e) := by
  obtain ⟨outer, inner, s', rfl, passed, fails⟩ := h
  rw [ascend_append, ascend, passed]
  dsimp only [close]
  rcases hc : k.complete scope (world s') with ⟨e' | _, w⟩
  · obtain rfl : e' = e := by simpa [hc] using fails
    exact ascend_error m _ outer _
  · simp [hc] at fails

/-- Unless a completion fails, a value passes every layer unchanged. -/
theorem ascend_value (layers : List Layer) (v : Value) :
    (ascend m layers (.ok v) s).1 = .ok v ∨ ∃ k scope e, FailsFirst m layers v s k scope e := by
  induction layers with
  | nil => exact .inl rfl
  | cons layer layers ih =>
    rcases ih with passed | ⟨k, scope, e, outer, inner, s', rfl, h⟩
    · rcases ha : ascend m layers (.ok v) s with ⟨r, s'⟩
      obtain rfl : r = .ok v := by simpa [ha] using passed
      rw [ascend, ha]
      -- All further in have passed the value on, so it is this filter's turn.
      cases layer with
      | line o since => exact .inl rfl
      | scope k scope =>
        dsimp only [close]
        rcases hc : k.complete scope (world s') with ⟨e | _, w⟩
        · exact .inr ⟨k, scope, e, [], layers, s', rfl, ha, congrArg Prod.fst hc⟩
        · exact .inl rfl
    -- Somebody further in has failed first.
    · exact .inr ⟨k, scope, e, layer :: outer, inner, s', rfl, h⟩

end BuiltIn

end ComponentHost
