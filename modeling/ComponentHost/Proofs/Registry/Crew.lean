import ComponentHost.Proofs.Registry.Cycles
import ComponentHost.Proofs.Registry.Ledger

/-! # Crews

  Any number of flows resolve names on one store at the same time, while others register definitions
  and aliases. What a resolution does is cut into the steps between which others may come: looking a
  name up, looking into the slot, searching for a cycle, entering the slot of a singleton, gathering
  one dependency after the other, running the factory, and leaving the slot.

  Of slots it is only taken for granted that at most one flow is inside of each at a time: who comes
  while another one is inside waits until that one has left, and then looks into the slot again.
  Factories do not call back into the store, but may do anything else: their outcomes are part of
  what happens.

  - `Crew.step` does what happens next, if it can happen;
  - `Crew.Step` lists what that can be, with one constructor for each way to enter or leave a slot
    and one for all that concerns a single resolver, which `Turn` takes apart further.

  That one resolver, left alone, does what `Resolution.instantiate` does, is `alone_instantiates`.
-/

namespace ComponentHost

variable {K : Kit}

namespace Crew

/-! ### Resolvers -/

/-- An instance that is being made. -/
structure Job (K : Kit) where
  definition : Definition K
  /-- The dependencies that are there, in order. -/
  gathered : List (String × Instance K) := []
  /-- The names of the dependencies that are not. -/
  missing : List String := definition.dependencies

/-- What a resolver is about to do. -/
inductive Errand (K : Kit)
  /-- Nothing, until it is asked for a name. -/
  | idle
  | lookUp (name : String)
  /-- It looks whether the slot of a definition is filled. -/
  | test (d : Definition K)
  /-- It looks for a cycle below a definition. -/
  | check (d : Definition K)
  /-- It makes an instance of a definition, as soon as nobody else is inside the slot. -/
  | enter (d : Definition K)
  /-- It turns to the next dependency of the innermost job, or, if it has them all, to the
      factory. -/
  | gather
  /-- It runs the factory of the innermost job. -/
  | make
  /-- It is done with the innermost job, and leaves the slot. -/
  | leave (result : Except Error (Instance K))
  /-- It hands an instance of a definition to the innermost job, or to its caller. -/
  | hand (d : Definition K) (i : Instance K)
  /-- It reports an error to the innermost job, or to its caller. -/
  | fail (e : Error)

/-- A flow that resolves names for its caller, one after the other. -/
structure Resolver (K : Kit) where
  /-- What it is about to do. -/
  errand : Errand K := .idle
  /-- The jobs that it has begun, innermost first. -/
  jobs : List (Job K) := []
  /-- The name that its caller has asked for. -/
  asked : String := ""
  /-- The store as it was when the resolver last looked for a cycle. -/
  seen : Store K := {}

end Crew

/-- Resolvers that share a store. -/
structure Crew (K : Kit) where
  store : Store K := {}
  /-- The resolver inside the slot of an id. -/
  inside : String → Option Nat := fun _ => none
  resolvers : Nat → Crew.Resolver K := fun _ => {}
  /-- The factories that ran, and the instances that callers got. -/
  log : List (Event K) := []

namespace Crew

/-- Something that happens. -/
inductive Act (K : Kit)
  | register (d : Definition K)
  /-- A name is made an alias of what another name stands for. -/
  | addAlias (new name : String)
  /-- A resolver is asked for a name. -/
  | call (f : Nat) (name : String)
  /-- A resolver goes one step further. -/
  | go (f : Nat)
  /-- The factory that a resolver runs succeeds, fails or panics. -/
  | finish (f : Nat) (outcome : Except Stop (Held K))

namespace Job

/-- The job is given what it needs next. -/
def receive (j : Job K) (i : Instance K) : Job K :=
  match j.missing with
  | [] => j
  | name :: rest => { j with gathered := j.gathered ++ [(name, i)], missing := rest }

/-- What comes of the job where its factory ends. -/
def result (j : Job K) : Except Stop (Held K) → Except Error (Instance K)
  | .ok held => .ok ⟨j.definition.type, held⟩
  | .error stop => .error (.construction j.definition.id (Resolution.stopMessage stop))

def run (j : Job K) (outcome : Except Stop (Held K)) : FactoryRun K :=
  ⟨j.definition, j.gathered, outcome.map (⟨j.definition.type, ·⟩)⟩

end Job

namespace Resolver

def path (r : Resolver K) : List String := r.jobs.map (·.definition.id)

/-- The ids of the singletons among the jobs. -/
def holds (r : Resolver K) : List String :=
  (r.jobs.filter (·.definition.scope = .singleton)).map (·.definition.id)

def cycle (r : Resolver K) (id : String) : List String :=
  r.path.reverse.dropWhile (· ≠ id) ++ [id]

def begin (r : Resolver K) (d : Definition K) : Resolver K :=
  { r with errand := .gather, jobs := { definition := d } :: r.jobs }

/-- What a resolver is about to do with what has come of a job. -/
def report (d : Definition K) : Except Error (Instance K) → Errand K
  | .ok i => .hand d i
  | .error e => .fail e

end Resolver

/-! ### Steps -/

/-- One resolver changes, and something may be added to the log. -/
def turn (c : Crew K) (f : Nat) (r : Resolver K) (events : List (Event K) := []) : Crew K :=
  { c with
    resolvers := fun g => if g = f then r else c.resolvers g
    log := c.log ++ events }

/-- A resolver enters the slot of a definition. -/
def take (c : Crew K) (f : Nat) (d : Definition K) : Crew K :=
  { c.turn f ((c.resolvers f).begin d) with
    inside := fun id => if id = d.id then some f else c.inside id }

/-- What is kept of a job that has come to an end: an instance of a singleton stays in the slot, and
    the slot is left, whatever has come of the job. -/
def close (c : Crew K) (d : Definition K) (result : Except Error (Instance K)) : Crew K :=
  match d.scope with
  | .prototype => c
  | .singleton =>
    { c with
      store := match result with
        | .ok i => c.store.fill d.id i
        | .error _ => c.store
      inside := fun id => if id = d.id then none else c.inside id }

/-- A resolver goes one step further, if it can. -/
def advance (c : Crew K) (f : Nat) : Option (Crew K) :=
  let r := c.resolvers f
  match r.errand, r.jobs with
  | .idle, _ | .make, _ | .gather, [] | .leave _, [] => none
  | .lookUp name, _ =>
    match c.store.lookup? name with
    | none => some (c.turn f { r with errand := .fail (.definitionNotFound name) })
    | some e => some (c.turn f { r with errand := .test e.definition })
  | .test d, jobs =>
    match c.store.slot? d.id, jobs with
    | some i, _ => some (c.turn f { r with errand := .hand d i })
    | none, [] => some (c.turn f { r with errand := .check d })
    | none, _ :: _ => some (c.turn f { r with errand := .enter d })
  | .check d, _ =>
    match c.store.checkAcyclic d.id with
    | .error e => some (c.turn f { r with errand := .fail e })
    | .ok () => some (c.turn f { r with errand := .enter d, seen := c.store })
  | .enter d, _ =>
    if d.id ∈ r.path then
      some (c.turn f { r with errand := .fail (.circularDependency (r.cycle d.id)) })
    else
      match d.scope with
      | .prototype => some (c.turn f (r.begin d))
      | .singleton =>
        match c.store.slot? d.id, c.inside d.id with
        | some i, _ => some (c.turn f { r with errand := .hand d i })
        | none, some _ => none
        | none, none => some (c.take f d)
  | .gather, j :: _ =>
    match j.missing, j.definition.factory with
    | name :: _, _ => some (c.turn f { r with errand := .lookUp name })
    | [], .existing held =>
      some (c.turn f { r with errand := .leave (.ok ⟨j.definition.type, held⟩) })
    | [], .make _ => some (c.turn f { r with errand := .make })
  | .leave result, j :: jobs =>
    some ((c.close j.definition result).turn f
      { r with errand := Resolver.report j.definition result, jobs })
  | .hand _ i, j :: jobs =>
    some (c.turn f { r with errand := .gather, jobs := j.receive i :: jobs })
  | .hand _ i, [] => some (c.turn f { r with errand := .idle } [.yielded r.asked i])
  | .fail e, _ :: _ => some (c.turn f { r with errand := .leave (.error e) })
  | .fail _, [] => some (c.turn f { r with errand := .idle })

/-- Does what happens next, if it can happen. A registration that fails changes nothing. -/
def step (c : Crew K) : Act K → Option (Crew K)
  | .register d =>
    match c.store.register d with
    | .ok store => some { c with store }
    | .error _ => some c
  | .addAlias new name =>
    match c.store.addAlias new name with
    | .ok store => some { c with store }
    | .error _ => some c
  | .call f name =>
    match (c.resolvers f).errand with
    | .idle => some (c.turn f { c.resolvers f with errand := .lookUp name, asked := name })
    | _ => none
  | .go f => c.advance f
  | .finish f outcome =>
    match (c.resolvers f).errand, (c.resolvers f).jobs with
    | .make, j :: _ => some (c.turn f { c.resolvers f with errand := .leave (j.result outcome) }
        [.ran (j.run outcome)])
    | _, _ => none

def run (c : Crew K) (acts : List (Act K)) : Option (Crew K) := acts.foldlM step c

theorem run_cons (c : Crew K) (a : Act K) (acts : List (Act K)) :
    c.run (a :: acts) = (c.step a).bind (·.run acts) := rfl

/-- What can come of an empty store and resolvers that have nothing to do. -/
def Reachable (c : Crew K) : Prop := ∃ acts, run {} acts = some c

/-! ### What a step can be -/

/-- What a resolver can do that concerns nobody else, and what that adds to the log. -/
inductive Turn (s : Store K) : Resolver K → Resolver K → List (Event K) → Prop
  | called {jobs asked seen} (name : String) :
      Turn s ⟨.idle, jobs, asked, seen⟩ ⟨.lookUp name, jobs, name, seen⟩ []
  /-- The name stands for nothing. -/
  | missed {jobs asked seen name} (h : s.lookup? name = none) : Turn s
      ⟨.lookUp name, jobs, asked, seen⟩ ⟨.fail (.definitionNotFound name), jobs, asked, seen⟩ []
  /-- The name stands for a definition. -/
  | found {jobs asked seen name e} (h : s.lookup? name = some e) : Turn s
      ⟨.lookUp name, jobs, asked, seen⟩ ⟨.test e.definition, jobs, asked, seen⟩ []
  | cached {jobs asked seen d i} (h : s.slot? d.id = some i) : Turn s
      ⟨.test d, jobs, asked, seen⟩ ⟨.hand d i, jobs, asked, seen⟩ []
  /-- The slot of what the caller has asked for is empty. -/
  | first {asked seen d} : Turn s ⟨.test d, [], asked, seen⟩ ⟨.check d, [], asked, seen⟩ []
  /-- The slot of a dependency is empty. -/
  | further {j jobs asked seen d} :
      Turn s ⟨.test d, j :: jobs, asked, seen⟩ ⟨.enter d, j :: jobs, asked, seen⟩ []
  | cyclic {jobs asked seen d e} (h : s.checkAcyclic d.id = .error e) : Turn s
      ⟨.check d, jobs, asked, seen⟩ ⟨.fail e, jobs, asked, seen⟩ []
  /-- There is none. -/
  | acyclic {jobs asked seen d} (h : s.checkAcyclic d.id = .ok ()) : Turn s
      ⟨.check d, jobs, asked, seen⟩ ⟨.enter d, jobs, asked, s⟩ []
  /-- The definition is that of a job already. -/
  | again {jobs asked seen d} (h : d.id ∈ jobs.map (·.definition.id)) : Turn s
      ⟨.enter d, jobs, asked, seen⟩
      ⟨.fail (.circularDependency (Resolver.cycle ⟨.enter d, jobs, asked, seen⟩ d.id)), jobs, asked,
        seen⟩ []
  /-- The slot has been filled in the meantime. -/
  | ready {jobs asked seen d i} (h : s.slot? d.id = some i) : Turn s
      ⟨.enter d, jobs, asked, seen⟩ ⟨.hand d i, jobs, asked, seen⟩ []
  | begun {jobs asked seen d} (hd : d.scope = .prototype) (h : d.id ∉ jobs.map (·.definition.id)) :
      Turn s ⟨.enter d, jobs, asked, seen⟩
        ⟨.gather, ⟨d, [], d.dependencies⟩ :: jobs, asked, seen⟩ []
  | sought {j jobs asked seen name rest} (h : j.missing = name :: rest) : Turn s
      ⟨.gather, j :: jobs, asked, seen⟩ ⟨.lookUp name, j :: jobs, asked, seen⟩ []
  /-- There is an instance already. -/
  | existing {j jobs asked seen held} (h : j.missing = [])
      (hf : j.definition.factory = .existing held) : Turn s ⟨.gather, j :: jobs, asked, seen⟩
        ⟨.leave (.ok ⟨j.definition.type, held⟩), j :: jobs, asked, seen⟩ []
  | started {j jobs asked seen g} (h : j.missing = []) (hf : j.definition.factory = .make g) :
      Turn s ⟨.gather, j :: jobs, asked, seen⟩ ⟨.make, j :: jobs, asked, seen⟩ []
  /-- The factory ends. -/
  | ended {j jobs asked seen} (outcome : Except Stop (Held K)) : Turn s
      ⟨.make, j :: jobs, asked, seen⟩ ⟨.leave (j.result outcome), j :: jobs, asked, seen⟩
      [.ran (j.run outcome)]
  /-- A job for a prototype comes to an end. -/
  | closed {j jobs asked seen result} (hd : j.definition.scope = .prototype) : Turn s
      ⟨.leave result, j :: jobs, asked, seen⟩
      ⟨Resolver.report j.definition result, jobs, asked, seen⟩ []
  /-- A job is given what it needs. -/
  | handed {j jobs asked seen d i} : Turn s
      ⟨.hand d i, j :: jobs, asked, seen⟩ ⟨.gather, j.receive i :: jobs, asked, seen⟩ []
  /-- The caller gets an instance. -/
  | yielded {asked seen d i} : Turn s
      ⟨.hand d i, [], asked, seen⟩ ⟨.idle, [], asked, seen⟩ [.yielded asked i]
  | failed {j jobs asked seen e} : Turn s
      ⟨.fail e, j :: jobs, asked, seen⟩ ⟨.leave (.error e), j :: jobs, asked, seen⟩ []
  /-- The caller gets an error. -/
  | refused {asked seen e} : Turn s ⟨.fail e, [], asked, seen⟩ ⟨.idle, [], asked, seen⟩ []

inductive Step (c : Crew K) : Crew K → Prop
  /-- Names are added to the store. -/
  | named {store : Store K} (grown : c.store.Grown store) (valid : c.store.Valid → store.Valid)
      (slots : ∀ id, store.slot? id = c.store.slot? id) : Step c { c with store }
  /-- A resolver does something that concerns nobody else. -/
  | turned {f : Nat} {r : Resolver K} {events : List (Event K)}
      (h : Turn c.store (c.resolvers f) r events) : Step c (c.turn f r events)
  /-- A resolver enters a slot that is empty and nobody is inside of. -/
  | taken {f : Nat} {d : Definition K} (errand : (c.resolvers f).errand = .enter d)
      (new : d.id ∉ (c.resolvers f).path) (scope : d.scope = .singleton)
      (empty : c.store.slot? d.id = none) (free : c.inside d.id = none) : Step c (c.take f d)
  /-- A resolver leaves a slot. -/
  | left {f : Nat} {j : Job K} {jobs : List (Job K)} {result : Except Error (Instance K)}
      (errand : (c.resolvers f).errand = .leave result) (hj : (c.resolvers f).jobs = j :: jobs)
      (scope : j.definition.scope = .singleton) :
      Step c ((c.close j.definition result).turn f
        { c.resolvers f with errand := Resolver.report j.definition result, jobs })

variable {c c' : Crew K} {f g : Nat} {a : Act K}

theorem advance_step (h : c.advance f = some c') : Step c c' := by
  -- A turn is read off the errand and the jobs that the resolver has.
  have turned {r r' : Resolver K} {events : List (Event K)} (hr : c.resolvers f = r)
      (ht : Turn c.store r r' events) : Step c (c.turn f r' events) := .turned (hr ▸ ht)
  rcases hr : c.resolvers f with ⟨errand, jobs, asked, seen⟩
  unfold advance at h
  simp only [hr] at h
  cases errand with
  | idle | make => cases h
  | lookUp name =>
    cases hl : c.store.lookup? name with
    | none => simp only [hl] at h; cases h; exact turned hr (.missed hl)
    | some e => simp only [hl] at h; cases h; exact turned hr (.found hl)
  | test d =>
    cases hs : c.store.slot? d.id with
    | some i => simp only [hs] at h; cases h; exact turned hr (.cached hs)
    | none =>
      cases jobs with
      | nil => simp only [hs] at h; cases h; exact turned hr .first
      | cons j jobs => simp only [hs] at h; cases h; exact turned hr .further
  | check d =>
    cases hc : c.store.checkAcyclic d.id with
    | error e => simp only [hc] at h; cases h; exact turned hr (.cyclic hc)
    | ok u => simp only [hc] at h; cases h; exact turned hr (.acyclic hc)
  | enter d =>
    simp only at h
    split at h
    · next old => cases h; exact turned hr (.again old)
    · next new =>
      cases hd : d.scope with
      | prototype => simp only [hd] at h; cases h; exact turned hr (.begun hd new)
      | singleton =>
        cases hs : c.store.slot? d.id with
        | some i => simp only [hd, hs] at h; cases h; exact turned hr (.ready hs)
        | none =>
          cases hi : c.inside d.id with
          | some g => simp only [hd, hs, hi] at h; cases h
          | none =>
            simp only [hd, hs, hi] at h
            cases h
            exact .taken (by rw [hr]) (by rw [hr]; exact new) hd hs hi
  | gather =>
    cases jobs with
    | nil => cases h
    | cons j jobs =>
      cases hm : j.missing with
      | cons name rest => simp only [hm] at h; cases h; exact turned hr (.sought hm)
      | nil =>
        cases hf : j.definition.factory with
        | existing held => simp only [hm, hf] at h; cases h; exact turned hr (.existing hm hf)
        | make g => simp only [hm, hf] at h; cases h; exact turned hr (.started hm hf)
  | leave result =>
    cases jobs with
    | nil => cases h
    | cons j jobs =>
      simp only at h
      cases h
      cases hd : j.definition.scope with
      | singleton =>
        have errand : (c.resolvers f).errand = .leave result := by rw [hr]
        have left := Step.left errand (by rw [hr]) hd
        rw [hr] at left
        exact left
      | prototype =>
        have same : c.close j.definition result = c := by unfold close; rw [hd]
        rw [same]
        exact turned hr (.closed hd)
  | hand d i =>
    cases jobs with
    | nil => simp only at h; cases h; exact turned hr .yielded
    | cons j jobs => simp only at h; cases h; exact turned hr .handed
  | fail e =>
    cases jobs with
    | nil => simp only at h; cases h; exact turned hr .refused
    | cons j jobs => simp only at h; cases h; exact turned hr .failed

/-- Whatever happens is one of the steps, or nothing at all. -/
theorem step_cases (h : c.step a = some c') : c' = c ∨ Step c c' := by
  cases a with
  | register d =>
    simp only [step] at h
    split at h
    · next store hr =>
      cases h
      -- The store has grown, and no slot is filled by that.
      exact .inr (.named (Store.register_grown hr) (·.register hr) (Store.register_views hr).2.1)
    · cases h; exact .inl rfl
  | addAlias new name =>
    simp only [step] at h
    split at h
    · next store ha =>
      cases h
      exact .inr (.named (Store.addAlias_grown ha) (·.addAlias ha) (Store.slot?_addAlias ha))
    · cases h; exact .inl rfl
  | call f name =>
    rcases hr : c.resolvers f with ⟨errand, jobs, asked, seen⟩
    simp only [step, hr] at h
    -- Only a resolver that has nothing to do can be called.
    cases errand with
    | idle =>
      cases h
      have called : Turn c.store ⟨.idle, jobs, asked, seen⟩ ⟨.lookUp name, jobs, name, seen⟩ [] :=
        .called name
      exact .inr (.turned (hr ▸ called))
    | lookUp | test | check | enter | gather | make | leave | hand | fail => cases h
  | go f => exact .inr (advance_step h)
  | finish f outcome =>
    rcases hr : c.resolvers f with ⟨errand, jobs, asked, seen⟩
    simp only [step, hr] at h
    -- Only a factory that is running can end.
    split at h
    · next j rest =>
      cases h
      have ended : Turn c.store ⟨.make, j :: rest, asked, seen⟩
          ⟨.leave (j.result outcome), j :: rest, asked, seen⟩ [.ran (j.run outcome)] :=
        .ended outcome
      exact .inr (.turned (hr ▸ ended))
    · cases h

/-- What the start has and every step keeps, every crew that can be reached has. -/
theorem Reachable.induction {P : Crew K → Prop} (h : Reachable c) (start : P {})
    (step : ∀ {c c'}, P c → Step c c' → P c') : P c := by
  obtain ⟨acts, h⟩ := h
  have run (acts : List (Act K)) (c₀ : Crew K) (hp : P c₀) (h : c₀.run acts = some c) : P c := by
    induction acts generalizing c₀ with
    | nil => cases h; exact hp
    | cons a acts ih =>
      rw [run_cons, Option.bind_eq_some_iff] at h
      obtain ⟨c₁, ha, h⟩ := h
      -- An act is a step, or it leaves the crew as it is.
      rcases step_cases ha with rfl | hs
      · exact ih c₁ hp h
      · exact ih c₁ (step hp hs) h
  exact run acts {} start h

end Crew

end ComponentHost
