import ComponentHost.Proofs.Registry.Resolution

/-! # Stores at work

  A site is a store with the state of its factories and with a log. Factories are arbitrary, but all
  that is in their reach is their own state, so they do not call back into the store; on each run
  they may succeed, fail or panic. The log tells every run of a factory with what it was given, and
  every instance that was handed out to a caller.

  `Resolves` says what the resolution of a definition or of names can do, with one constructor for
  each way to go on. What commands preserve is shown by `Site.after_preserves`, and what holds of
  all sites by `Site.after_induction`.
-/

namespace ComponentHost

variable {K : Kit} {τ : Type}

/-! ### Sites -/

/-- Factories that keep a state of their own. -/
abbrev Factories (K : Kit) (τ : Type) :=
  Definition K → K.factory → Dependencies K → StateM τ (Except Stop (Held K))

structure FactoryRun (K : Kit) where
  definition : Definition K
  given : List (String × Instance K)
  /-- The instance that it made, or how it stopped. -/
  outcome : Except Stop (Instance K)

/-- Something that happens at a site. -/
inductive Event (K : Kit)
  | ran (run : FactoryRun K)
  /-- A caller got an instance for a name. -/
  | yielded (name : String) (item : Instance K)

/-- A store, what its factories keep, and what has happened. -/
structure Site (K : Kit) (τ : Type) where
  store : Store K := {}
  rest : τ
  log : List (Event K) := []

instance : HasStore K (Site K τ) where
  store := Site.store
  setStore s store := { s with store }

namespace Site

def note (s : Site K τ) (e : Event K) : Site K τ := { s with log := s.log ++ [e] }

/-- Notes a run of a factory, which leaves a state. -/
def ran (s : Site K τ) (run : FactoryRun K) (rest : τ) : Site K τ :=
  { s with rest, log := s.log ++ [.ran run] }

/-- Keeps an instance of a definition, in the slot of a singleton. -/
def keep (s : Site K τ) (d : Definition K) (i : Instance K) : Site K τ :=
  match d.scope with
  | .singleton => { s with store := s.store.fill d.id i }
  | .prototype => s

@[simp] theorem keep_log (s : Site K τ) (d : Definition K) (i : Instance K) :
    (s.keep d i).log = s.log := by
  unfold keep
  split <;> rfl

@[simp] theorem keep_rest (s : Site K τ) (d : Definition K) (i : Instance K) :
    (s.keep d i).rest = s.rest := by
  unfold keep
  split <;> rfl

theorem keep_ran_store (s : Site K τ) (run : FactoryRun K) (rest : τ) (d : Definition K)
    (i : Instance K) : ((s.ran run rest).keep d i).store = (s.keep d i).store := by
  unfold keep
  split <;> rfl

end Site

/-- Runs factories at a site. -/
def Factories.maker (f : Factories K τ) : Maker K (Site K τ) := fun d g deps s =>
  ((f d g deps s.rest).1,
    s.ran ⟨d, deps.resolved, (f d g deps s.rest).1.map (⟨d.type, ·⟩)⟩ (f d g deps s.rest).2)

/-! ### Resolutions -/

/-- What is to be resolved. -/
inductive Goal (K : Kit)
  | definition (d : Definition K)
  | names (names : List String)

/-- What a resolution can do, while the definitions on a path are being resolved. It leads from a
    site to a site, with the instances under their names or with an error. -/
inductive Resolves (f : Factories K τ) : List String → Goal K → Site K τ →
    Except Error (List (String × Instance K)) → Site K τ → Prop
  /-- It goes deeper than its limit. -/
  | tooDeep {path d s} : Resolves f path (.definition d) s (.error Resolution.tooDeep) s
  /-- The definition is on the path. -/
  | cycle {path d s} (hid : d.id ∈ path) : Resolves f path (.definition d) s
      (.error (.circularDependency (path.dropWhile (· ≠ d.id) ++ [d.id]))) s
  /-- The singleton is there. -/
  | found {path d s i} (hid : d.id ∉ path) (hd : d.scope = .singleton)
      (hs : s.store.slot? d.id = some i) : Resolves f path (.definition d) s (.ok [(d.id, i)]) s
  /-- A dependency fails. -/
  | unresolved {path d s e s₁} (hid : d.id ∉ path)
      (hfree : d.scope = .singleton → s.store.slot? d.id = none)
      (deps : Resolves f (path ++ [d.id]) (.names d.dependencies) s (.error e) s₁) :
      Resolves f path (.definition d) s (.error e) s₁
  /-- There is an instance already. -/
  | existing {path d s given s₁ held} (hid : d.id ∉ path)
      (hfree : d.scope = .singleton → s.store.slot? d.id = none)
      (deps : Resolves f (path ++ [d.id]) (.names d.dependencies) s (.ok given) s₁)
      (hf : d.factory = .existing held) :
      Resolves f path (.definition d) s (.ok [(d.id, ⟨d.type, held⟩)]) (s₁.keep d ⟨d.type, held⟩)
  /-- The factory makes an instance. -/
  | made {path d s given s₁ g held rest} (hid : d.id ∉ path)
      (hfree : d.scope = .singleton → s.store.slot? d.id = none)
      (deps : Resolves f (path ++ [d.id]) (.names d.dependencies) s (.ok given) s₁)
      (hf : d.factory = .make g) (hrun : f d g ⟨given⟩ s₁.rest = (.ok held, rest)) :
      Resolves f path (.definition d) s (.ok [(d.id, ⟨d.type, held⟩)])
        ((s₁.ran ⟨d, given, .ok ⟨d.type, held⟩⟩ rest).keep d ⟨d.type, held⟩)
  /-- The factory stops without one. -/
  | stopped {path d s given s₁ g stop rest} (hid : d.id ∉ path)
      (hfree : d.scope = .singleton → s.store.slot? d.id = none)
      (deps : Resolves f (path ++ [d.id]) (.names d.dependencies) s (.ok given) s₁)
      (hf : d.factory = .make g) (hrun : f d g ⟨given⟩ s₁.rest = (.error stop, rest)) :
      Resolves f path (.definition d) s
        (.error (.construction d.id (Resolution.stopMessage stop)))
        (s₁.ran ⟨d, given, .error stop⟩ rest)
  | nil {path s} : Resolves f path (.names []) s (.ok []) s
  /-- The name stands for nothing. -/
  | missing {path s name names} (hl : s.store.lookup? name = none) :
      Resolves f path (.names (name :: names)) s (.error (.definitionNotFound name)) s
  /-- The name stands for a singleton that is there. -/
  | cached {path s name names e i r s'} (hl : s.store.lookup? name = some e)
      (hs : e.slot = some i) (others : Resolves f path (.names names) s r s') :
      Resolves f path (.names (name :: names)) s (r.map ((name, i) :: ·)) s'
  /-- What the name stands for cannot be resolved. -/
  | failed {path s name names e er s₁} (hl : s.store.lookup? name = some e) (hs : e.slot = none)
      (one : Resolves f path (.definition e.definition) s (.error er) s₁) :
      Resolves f path (.names (name :: names)) s (.error er) s₁
  | resolved {path s name names e i s₁ r s'} (hl : s.store.lookup? name = some e)
      (hs : e.slot = none)
      (one : Resolves f path (.definition e.definition) s (.ok [(e.definition.id, i)]) s₁)
      (others : Resolves f path (.names names) s₁ r s') :
      Resolves f path (.names (name :: names)) s (r.map ((name, i) :: ·)) s'

namespace Resolution

variable {f : Factories K τ} {limit : Nat} {path : List String} {d : Definition K}
  {s s' : Site K τ} {name : String}

/-- Resolving names with something that resolves definitions. -/
theorem resolveAll_resolves {one : Definition K → Attempt (Site K τ) (Instance K)}
    (hone : ∀ d s, Resolves f path (.definition d) s ((one d s).1.map fun i => [(d.id, i)])
      (one d s).2) (names : List String) (s : Site K τ) :
    Resolves f path (.names names) s (resolveAll one names s).1 (resolveAll one names s).2 := by
  induction names generalizing s with
  | nil => exact .nil
  | cons name rest ih =>
    cases hl : s.store.lookup? name with
    | none =>
      rw [resolveAll_missing hl]
      exact .missing hl
    | some e =>
      cases hs : e.slot with
      | some i =>
        rw [resolveAll_cached hl hs]
        exact .cached hl hs (ih s)
      | none =>
        have hd := hone e.definition s
        rcases ho : one e.definition s with ⟨er | i, s₁⟩
        · rw [ho] at hd
          rw [resolveAll_failed hl hs ho]
          exact .failed hl hs hd
        · rw [ho] at hd
          rw [resolveAll_resolved hl hs ho]
          exact .resolved hl hs hd (ih s₁)

/-- What a resolution of a definition does once it has to make an instance. -/
theorem construct_resolves {r : Except Error (Instance K)} {s₁ : Site K τ} (hid : d.id ∉ path)
    (hfree : d.scope = .singleton → s.store.slot? d.id = none)
    (hdeps : Resolves f (path ++ [d.id]) (.names d.dependencies) s
      (resolveAll (resolve f.maker limit (path ++ [d.id])) d.dependencies s).1
      (resolveAll (resolve f.maker limit (path ++ [d.id])) d.dependencies s).2)
    (hc : construct f.maker limit path d s = (r, s₁)) :
    Resolves f path (.definition d) s (r.map fun i => [(d.id, i)])
      (match r with | .ok i => s₁.keep d i | .error _ => s₁) := by
  rw [construct_eq] at hc
  rcases hr : resolveAll (resolve f.maker limit (path ++ [d.id])) d.dependencies s with
    ⟨e | given, s'⟩
  · rw [hr] at hdeps hc
    cases hc
    exact .unresolved hid hfree hdeps
  · rw [hr] at hdeps hc
    -- What is left is the factory's part: it holds an instance, it stops or it makes one.
    cases hf : d.factory with
    | existing held =>
      simp only [make, hf] at hc
      cases hc
      exact .existing hid hfree hdeps hf
    | make g =>
      simp only [make, hf, Factories.maker] at hc
      rcases hrun : f d g ⟨given⟩ s'.rest with ⟨stop | held, rest⟩
      · rw [hrun] at hc
        cases hc
        exact .stopped hid hfree hdeps hf hrun
      · rw [hrun] at hc
        cases hc
        exact .made hid hfree hdeps hf hrun

/-- Resolving a definition. -/
theorem resolve_resolves (limit : Nat) (path : List String) (d : Definition K) (s : Site K τ) :
    Resolves f path (.definition d) s ((resolve f.maker limit path d s).1.map fun i => [(d.id, i)])
      (resolve f.maker limit path d s).2 := by
  -- By induction on the depth that is left; what happens on one level is `resolveAll_resolves`.
  induction limit generalizing path d s with
  | zero => exact .tooDeep
  | succ limit ih =>
    by_cases hid : d.id ∈ path
    · rw [resolve_cycle hid]
      exact .cycle hid
    have hdeps := resolveAll_resolves (ih (path ++ [d.id])) d.dependencies s
    rcases hc : construct f.maker limit path d s with ⟨r, s₁⟩
    cases hd : d.scope with
    | prototype =>
      have hres := construct_resolves hid (by simp [hd]) hdeps hc
      rw [resolve_prototype hid hd, hc]
      cases r <;> simp only [Site.keep, hd] at hres <;> exact hres
    | singleton =>
      cases hs : s.store.slot? d.id with
      | some i =>
        rw [resolve_found hid hd hs]
        exact .found hid hd hs
      | none =>
        have hres := construct_resolves hid (fun _ => hs) hdeps hc
        rw [resolve_singleton hid hd hs, hc]
        cases r <;> simp only [Site.keep, hd] at hres <;> exact hres

/-- Resolving a name for a caller, once no cycle has been found. -/
theorem instantiate_resolves (limit : Nat) (name : String) (s : Site K τ) :
    (∃ e, instantiate f.maker limit name s = (.error e, s)) ∨
      Resolves f [] (.names [name]) s
        ((instantiate f.maker limit name s).1.map fun i => [(name, i)])
        (instantiate f.maker limit name s).2 := by
  cases hl : s.store.lookup? name with
  | none => exact .inl ⟨_, instantiate_missing hl⟩
  | some e =>
    cases hs : e.slot with
    | some i =>
      rw [instantiate_found hl hs]
      exact .inr (.cached hl hs .nil)
    | none =>
      -- A check that fails is reported before anything is touched.
      cases hc : s.store.checkAcyclic e.definition.id with
      | error er => exact .inl ⟨_, instantiate_cycle hl hs hc⟩
      | ok u =>
        rw [instantiate_acyclic hl hs hc]
        have hres := resolve_resolves (f := f) limit [] e.definition s
        rcases hr : resolve f.maker limit [] e.definition s with ⟨er | i, s₁⟩
        · rw [hr] at hres
          exact .inr (.failed hl hs hres)
        · rw [hr] at hres
          exact .inr (.resolved hl hs hres .nil)

end Resolution

/-! ### Commands -/

/-- What can be done with a store. -/
inductive Command (K : Kit)
  | register (d : Definition K)
  /-- A name is made an alias of what another name stands for. -/
  | addAlias (new name : String)
  | instantiate (name : String)
  /-- A name is resolved to something of a type. -/
  | instantiateAs (name : String) (key : TypeKey)
  | instantiateByType (key : TypeKey)
  | makeAll

namespace Site

variable {f : Factories K τ} {limit : Nat} {P : Site K τ → Prop}

/-- Notes what a caller gets for a name. -/
def handOut (name : String) : Except Error (Instance K) × Site K τ → Site K τ
  | (.ok i, s) => s.note (.yielded name i)
  | (.error _, s) => s

def typeName (s : Site K τ) (key : TypeKey) : String :=
  match s.store.findByType key with
  | .ok d => d.id
  | .error _ => key.name

theorem typeName_eq {s : Site K τ} {key : TypeKey} {d : Definition K}
    (h : s.store.findByType key = .ok d) : s.typeName key = d.id := by
  rw [typeName, h]

def start (rest : τ) : Site K τ := { rest }

def perform (f : Factories K τ) (limit : Nat) (s : Site K τ) : Command K → Site K τ
  | .register d =>
    match s.store.register d with
    | .ok store => { s with store }
    | .error _ => s
  | .addAlias new name =>
    match s.store.addAlias new name with
    | .ok store => { s with store }
    | .error _ => s
  | .instantiate name => handOut name (Resolution.instantiate f.maker limit name s)
  | .instantiateAs name key =>
    handOut name ((Resolution.instantiateAs f.maker limit name key s).map (·.map (·.item)) id)
  | .instantiateByType key =>
    handOut (s.typeName key)
      ((Resolution.instantiateByType f.maker limit key s).map (·.map (·.item)) id)
  | .makeAll => (Resolution.initializeSingletons f.maker limit s).2

/-- Carries commands out in order. -/
def after (f : Factories K τ) (limit : Nat) (s : Site K τ) (commands : List (Command K)) :
    Site K τ :=
  commands.foldl (perform f limit) s

/-- What registrations, aliases and resolutions of names preserve, with or without a note of what
    was handed out, all commands preserve. -/
theorem after_preserves {s : Site K τ} (init : P s)
    (registered : ∀ s d store, P s → s.store.register d = .ok store → P { s with store })
    (aliased : ∀ s new name store, P s → s.store.addAlias new name = .ok store →
      P { s with store })
    (resolved : ∀ s name, P s → P (Resolution.instantiate f.maker limit name s).2)
    (handed : ∀ s name i, P s → (Resolution.instantiate f.maker limit name s).1 = .ok i →
      P ((Resolution.instantiate f.maker limit name s).2.note (.yielded name i)))
    (commands : List (Command K)) : P (s.after f limit commands) := by
  -- To resolve as a type is to resolve by name, with checks around it that leave the site alone.
  have types (s : Site K τ) (name : String) (key : TypeKey) (h : P s) :
      P (handOut name
        ((Resolution.instantiateAs f.maker limit name key s).map (·.map (·.item)) id)) := by
    rcases Resolution.instantiateAs_spec f.maker limit name key s with ⟨e, he⟩ | ⟨hs, hp⟩
    · rw [he]
      exact h
    · rcases hr : Resolution.instantiateAs f.maker limit name key s with ⟨e | p, s'⟩
      · rw [hr] at hs
        subst hs
        exact resolved s name h
      · rw [hr] at hs hp
        subst hs
        exact handed s name p.item h (hp p rfl)
  have step (s : Site K τ) (c : Command K) (h : P s) : P (s.perform f limit c) := by
    cases c with
    | register d =>
      simp only [perform]
      split
      · next store hr => exact registered s d store h hr
      · exact h
    | addAlias new name =>
      simp only [perform]
      split
      · next store hr => exact aliased s new name store h hr
      · exact h
    | instantiate name =>
      simp only [perform]
      rcases hr : Resolution.instantiate f.maker limit name s with ⟨e | i, s'⟩
      · have hp := resolved s name h
        rwa [hr] at hp
      · have hp := handed s name i h (by rw [hr])
        rwa [hr] at hp
    | instantiateAs name key => exact types s name key h
    | instantiateByType key =>
      -- To resolve by type is to resolve, as that type, the one definition that qualifies.
      rcases Resolution.instantiateByType_spec f.maker limit key s with ⟨e, he⟩ | ⟨d, hd, he⟩
      · simp only [perform, he]
        exact h
      · simp only [perform, he, typeName_eq hd]
        exact types s d.id key h
    | makeAll => exact Resolution.initializeSingletons_preserves (fun name s => resolved s name) h
  have run (commands : List (Command K)) (s : Site K τ) (h : P s) :
      P (s.after f limit commands) := by
    induction commands generalizing s with
    | nil => exact h
    | cons c rest ih => exact ih _ (step s c h)
  exact run commands _ init

/-- What holds of a new store, and is preserved like that, holds of every site. -/
theorem after_induction (rest : τ) (init : P (start rest))
    (registered : ∀ s d store, P s → s.store.register d = .ok store → P { s with store })
    (aliased : ∀ s new name store, P s → s.store.addAlias new name = .ok store →
      P { s with store })
    (resolved : ∀ s name, P s → P (Resolution.instantiate f.maker limit name s).2)
    (handed : ∀ s name i, P s → (Resolution.instantiate f.maker limit name s).1 = .ok i →
      P ((Resolution.instantiate f.maker limit name s).2.note (.yielded name i)))
    (commands : List (Command K)) : P ((start rest).after f limit commands) :=
  after_preserves init registered aliased resolved handed commands

end Site

end ComponentHost
