import ComponentHost.Proofs.Registry.CrewOrder

/-! # Alone

  A resolver that nobody disturbs does what `Resolution.instantiate` does: with the same factories
  it fills the same slots, runs the same factories on the same dependencies in the same order, and
  tells its caller the same. So the steps into which crews cut a resolution are steps of that
  resolution.

  - `At` compares a crew with a site, as far as one resolver can see both;
  - `Leads` says that the resolver alone gets from one point to another, with one lemma for each of
    its steps;
  - `leads_of_resolves` follows a resolution, by induction on what it does, and
    `alone_instantiates` is about a caller that asks for a name.
-/

namespace ComponentHost

variable {K : Kit} {τ : Type}

namespace Crew

open Relation

/-! ### What one resolver does -/

/-- The crew gets from one state to another by what one resolver does. -/
def Moves (f : Nat) (c c' : Crew K) : Prop :=
  c.step (.go f) = some c' ∨ ∃ outcome, c.step (.finish f outcome) = some c'

/-- The same, in any number of steps. -/
def Alone (f : Nat) : Crew K → Crew K → Prop := ReflTransGen (Moves f)

/-- A crew agrees with a site, one of its resolvers is at some point, and no other one is inside a
    slot. -/
structure At (f : Nat) (c : Crew K) (s : Site K τ) (r : Resolver K) : Prop where
  store : c.store = s.store
  log : c.log = s.log
  mine : c.resolvers f = r
  alone : ∀ id g, c.inside id = some g → g = f
  sound : Sound c

/-- From one site and one point, the resolver gets to another site and another point, whatever else
    there is in the crew. -/
def Leads (f : Nat) (p p' : Site K τ × Resolver K) : Prop :=
  ∀ c : Crew K, At f c p.1 p.2 → ∃ c', Alone f c c' ∧ At f c' p'.1 p'.2

variable {c c' : Crew K} {f : Nat} {s s' s₁ : Site K τ} {r r' : Resolver K} {a : Act K}
  {d : Definition K} {i : Instance K} {e : Error} {j : Job K} {jobs : List (Job K)} {asked : String}
  {seen : Store K} {name : String} {result : Except Error (Instance K)}

/-- Whatever happens keeps a crew in order. -/
theorem Sound.act (h : Sound c) (ha : c.step a = some c') : Sound c' := by
  rcases step_cases ha with rfl | hs
  · exact h
  · exact h.step hs

/-- Nobody is inside a slot for which the resolver has no job. -/
theorem At.free (h : At f c s r) (new : d.id ∉ r.path) : c.inside d.id = none := by
  refine Option.eq_none_iff_forall_ne_some.mpr fun g hg => new ?_
  -- Who is inside has a job for the definition, and can only be this resolver.
  obtain rfl := h.alone _ _ hg
  obtain ⟨j, hj, hid, _⟩ := Resolver.mem_holds.mp ((h.sound.inside _ _).mp hg)
  rw [h.mine] at hj
  exact List.mem_map.mpr ⟨j, hj, hid⟩

/-- A turn of the resolver. -/
theorem At.turn {events : List (Event K)} (h : At f c s r)
    (ha : c.step a = some (c.turn f r' events)) :
    At f (c.turn f r' events) { s with log := s.log ++ events } r' where
  store := h.store
  log := congrArg (· ++ events) h.log
  mine := by rw [turn_resolvers, if_pos rfl]
  alone := h.alone
  sound := h.sound.act ha

namespace Leads

theorem refl (p : Site K τ × Resolver K) : Leads f p p := fun c h => ⟨c, .refl, h⟩

theorem trans {p p' p'' : Site K τ × Resolver K} (h : Leads f p p') (h' : Leads f p' p'') :
    Leads f p p'' := by
  intro c hc
  obtain ⟨c', moves, hc'⟩ := h c hc
  obtain ⟨c'', moves', hc''⟩ := h' c' hc'
  exact ⟨c'', moves.trans moves', hc''⟩

instance : Trans (@Leads K τ f) (@Leads K τ f) (@Leads K τ f) := ⟨trans⟩

/-- A step that adds nothing to the log. -/
theorem go (h : ∀ c : Crew K, At f c s r → c.advance f = some (c.turn f r')) :
    Leads f (s, r) (s, r') := by
  intro c hc
  have ha : c.step (.go f) = some (c.turn f r') := h c hc
  have turned := hc.turn ha
  rw [List.append_nil] at turned
  exact ⟨_, .single (.inl ha), turned⟩

/-! ### Names -/

theorem sought {rest : List String} (h : j.missing = name :: rest) :
    Leads f (s, ⟨.gather, j :: jobs, asked, seen⟩) (s, ⟨.lookUp name, j :: jobs, asked, seen⟩) :=
  go fun c hc => by simp only [advance, hc.mine, h]

theorem missed (h : s.store.lookup? name = none) :
    Leads f (s, ⟨.lookUp name, jobs, asked, seen⟩)
      (s, ⟨.fail (.definitionNotFound name), jobs, asked, seen⟩) :=
  go fun c hc => by simp only [advance, hc.mine, hc.store, h]

theorem found {e : Entry K} (h : s.store.lookup? name = some e) :
    Leads f (s, ⟨.lookUp name, jobs, asked, seen⟩) (s, ⟨.test e.definition, jobs, asked, seen⟩) :=
  go fun c hc => by simp only [advance, hc.mine, hc.store, h]

theorem cached (h : s.store.slot? d.id = some i) :
    Leads f (s, ⟨.test d, jobs, asked, seen⟩) (s, ⟨.hand d i, jobs, asked, seen⟩) :=
  go fun c hc => by simp only [advance, hc.mine, hc.store, h]

theorem further (h : s.store.slot? d.id = none) :
    Leads f (s, ⟨.test d, j :: jobs, asked, seen⟩) (s, ⟨.enter d, j :: jobs, asked, seen⟩) :=
  go fun c hc => by simp only [advance, hc.mine, hc.store, h]

theorem handed : Leads f (s, ⟨.hand d i, j :: jobs, asked, seen⟩)
    (s, ⟨.gather, j.receive i :: jobs, asked, seen⟩) :=
  go fun c hc => by simp only [advance, hc.mine]

/-! ### Cycles -/

theorem first (h : s.store.slot? d.id = none) :
    Leads f (s, ⟨.test d, [], asked, seen⟩) (s, ⟨.check d, [], asked, seen⟩) :=
  go fun c hc => by simp only [advance, hc.mine, hc.store, h]

theorem cyclic (h : s.store.checkAcyclic d.id = .error e) :
    Leads f (s, ⟨.check d, jobs, asked, seen⟩) (s, ⟨.fail e, jobs, asked, seen⟩) :=
  go fun c hc => by simp only [advance, hc.mine, hc.store, h]

theorem acyclic (h : s.store.checkAcyclic d.id = .ok ()) :
    Leads f (s, ⟨.check d, jobs, asked, seen⟩) (s, ⟨.enter d, jobs, asked, s.store⟩) :=
  go fun c hc => by simp only [advance, hc.mine, hc.store, h]

/-! ### Jobs -/

theorem again (h : d.id ∈ jobs.map (·.definition.id)) :
    Leads f (s, ⟨.enter d, jobs, asked, seen⟩)
      (s, ⟨.fail (.circularDependency ((jobs.map (·.definition.id)).reverse.dropWhile (· ≠ d.id)
        ++ [d.id])), jobs, asked, seen⟩) :=
  go fun c hc => by
    simp only [advance, hc.mine, Resolver.path, h, if_true, Resolver.cycle]

theorem ready (new : d.id ∉ jobs.map (·.definition.id)) (hd : d.scope = .singleton)
    (h : s.store.slot? d.id = some i) :
    Leads f (s, ⟨.enter d, jobs, asked, seen⟩) (s, ⟨.hand d i, jobs, asked, seen⟩) :=
  go fun c hc => by simp only [advance, hc.mine, hc.store, Resolver.path, new, if_false, hd, h]

/-- A job is begun: nobody else is inside the slot of a singleton. -/
theorem begun (new : d.id ∉ jobs.map (·.definition.id))
    (empty : d.scope = .singleton → s.store.slot? d.id = none) :
    Leads f (s, ⟨.enter d, jobs, asked, seen⟩)
      (s, ⟨.gather, ⟨d, [], d.dependencies⟩ :: jobs, asked, seen⟩) := by
  cases hd : d.scope with
  | prototype =>
    exact go fun c hc => by
      simp only [advance, hc.mine, Resolver.path, new, if_false, hd, Resolver.begin]
  | singleton =>
    intro c hc
    -- The slot is empty, and nobody else can be inside.
    have taken : c.step (.go f) = some (c.take f d) := by
      simp only [step, advance, hc.mine, Resolver.path, new, if_false, hd, hc.store, empty hd,
        hc.free (d := d) new]
    refine ⟨c.take f d, .single (.inl taken), hc.store, ?_, ?_, fun id g hg => ?_,
      hc.sound.act taken⟩
    · exact (List.append_nil _).trans hc.log
    · show (if f = f then (c.resolvers f).begin d else c.resolvers f) = _
      rw [if_pos rfl, hc.mine]
      rfl
    · have inside : (if id = d.id then some f else c.inside id) = some g := hg
      split at inside
      · exact (Option.some.inj inside).symm
      · exact hc.alone id g inside

theorem existing {held : Held K} (h : j.missing = []) (hf : j.definition.factory = .existing held) :
    Leads f (s, ⟨.gather, j :: jobs, asked, seen⟩)
      (s, ⟨.leave (.ok ⟨j.definition.type, held⟩), j :: jobs, asked, seen⟩) :=
  go fun c hc => by simp only [advance, hc.mine, h, hf]

theorem started {g : K.factory} (h : j.missing = []) (hf : j.definition.factory = .make g) :
    Leads f (s, ⟨.gather, j :: jobs, asked, seen⟩) (s, ⟨.make, j :: jobs, asked, seen⟩) :=
  go fun c hc => by simp only [advance, hc.mine, h, hf]

/-- The factory ends, and leaves a state of its own. -/
theorem ended (outcome : Except Stop (Held K)) (rest : τ) :
    Leads f (s, ⟨.make, j :: jobs, asked, seen⟩)
      (s.ran (j.run outcome) rest, ⟨.leave (j.result outcome), j :: jobs, asked, seen⟩) := by
  intro c hc
  have finished : c.step (.finish f outcome) = some (c.turn f
      ⟨.leave (j.result outcome), j :: jobs, asked, seen⟩ [.ran (j.run outcome)]) := by
    simp only [step, hc.mine]
  have turned := hc.turn finished
  exact ⟨_, .single (.inr ⟨outcome, finished⟩), turned.store, turned.log, turned.mine, turned.alone,
    turned.sound⟩

theorem failed : Leads f (s, ⟨.fail e, j :: jobs, asked, seen⟩)
    (s, ⟨.leave (.error e), j :: jobs, asked, seen⟩) :=
  go fun c hc => by simp only [advance, hc.mine]

/-- A job comes to an end: an instance is kept, an error leaves the site as it is. -/
theorem left : Leads f (s, ⟨.leave result, j :: jobs, asked, seen⟩)
    (match result with | .ok i => s.keep j.definition i | .error _ => s,
      ⟨Resolver.report j.definition result, jobs, asked, seen⟩) := by
  intro c hc
  have closed : c.step (.go f) = some ((c.close j.definition result).turn f
      ⟨Resolver.report j.definition result, jobs, asked, seen⟩) := by
    simp only [step, advance, hc.mine]
  -- Left to show: the store, the log, and who is inside the slots.
  refine ⟨_, .single (.inl closed), ?_, ?_, by rw [turn_resolvers, if_pos rfl], ?_,
    hc.sound.act closed⟩
  · show (c.close j.definition result).store = _
    cases hd : j.definition.scope <;> cases result <;> simp [close, Site.keep, hd, hc.store]
  · show (c.close j.definition result).log ++ [] = _
    rw [List.append_nil, close_log, hc.log]
    cases result <;> simp
  · intro id g hg
    have inside : (c.close j.definition result).inside id = some g := hg
    cases hd : j.definition.scope with
    | prototype =>
      simp only [close, hd] at inside
      exact hc.alone id g inside
    | singleton =>
      rw [close_inside hd] at inside
      split at inside
      · cases inside
      · exact hc.alone id g inside

end Leads

/-! ### Resolutions -/

/-- Where a resolver begins to resolve a definition, or the names that its innermost job lacks. -/
inductive Begins : Goal K → Errand K → List (Job K) → Prop
  | definition {d : Definition K} {jobs : List (Job K)} : Begins (.definition d) (.enter d) jobs
  | names {names : List String} {j : Job K} {jobs : List (Job K)} (missing : j.missing = names) :
      Begins (.names names) .gather (j :: jobs)

/-- A job that has just been begun lacks all its dependencies. -/
theorem Begins.fresh (d : Definition K) (jobs : List (Job K)) :
    Begins (.names d.dependencies) .gather (⟨d, [], d.dependencies⟩ :: jobs) := .names rfl

/-- A job that is given the first of what it lacks, lacks the rest. -/
theorem Begins.received {names : List String} (missing : j.missing = name :: names) (i : Instance K)
    (jobs : List (Job K)) : Begins (.names names) .gather (j.receive i :: jobs) :=
  .names (by rw [Job.receive_cons missing])

/-- Where it ends, with a result. -/
inductive Ends : Goal K → List (Job K) → Except Error (List (String × Instance K)) →
    Errand K → List (Job K) → Prop
  /-- An instance of the definition is handed on. -/
  | definition {d : Definition K} {i : Instance K} {jobs : List (Job K)} :
      Ends (.definition d) jobs (.ok [(d.id, i)]) (.hand d i) jobs
  /-- There is none. -/
  | refused {d : Definition K} {jobs : List (Job K)} {e : Error} :
      Ends (.definition d) jobs (.error e) (.fail e) jobs
  /-- The innermost job has what it lacked. -/
  | names {names : List String} {j : Job K} {jobs : List (Job K)}
      {given : List (String × Instance K)} : Ends (.names names) (j :: jobs) (.ok given) .gather
        ({ j with gathered := j.gathered ++ given, missing := [] } :: jobs)
  /-- The innermost job fails, with some of what it lacked. -/
  | failed {names : List String} {j j' : Job K} {jobs : List (Job K)} {e : Error}
      (same : j'.definition = j.definition) :
      Ends (.names names) (j :: jobs) (.error e) (.fail e) (j' :: jobs)

/-- What a job is given first, and then the rest. -/
theorem Ends.cons {names : List String} {r : Except Error (List (String × Instance K))}
    {errand : Errand K} {jobs' : List (Job K)} (missing : j.missing = name :: names)
    (h : Ends (.names names) (j.receive i :: jobs) r errand jobs') :
    Ends (.names (name :: names)) (j :: jobs) (r.map ((name, i) :: ·)) errand jobs' := by
  cases h with
  | @names _ _ _ given =>
    -- What is gathered for the other names comes behind the first one.
    have whole : ({ j.receive i with
        gathered := (j.receive i).gathered ++ given, missing := [] } : Job K)
          = { j with gathered := j.gathered ++ (name, i) :: given, missing := [] } := by
      simp [Job.receive_cons missing]
    rw [whole]
    exact .names
  | failed same => exact .failed (same.trans (Job.receive_definition j i))

/-- The stores of sites that resolvers work at are valid. -/
theorem Leads.of_valid {p : Site K τ × Resolver K} (h : s.store.Valid → Leads f (s, r) p) :
    Leads f (s, r) p :=
  fun c hc => h (hc.store ▸ hc.sound.valid) c hc

/-- The slot of what a name stands for. -/
theorem slot?_of_lookup? {st : Store K} {en : Entry K} (hv : st.Valid)
    (hl : st.lookup? name = some en) : st.slot? en.definition.id = en.slot :=
  Store.slot?_of_get? (hv.canonical?_of_lookup? hl).2

/-- A name whose singleton is there. -/
theorem Leads.given {names : List String} {en : Entry K} (missing : j.missing = name :: names)
    (hl : s.store.lookup? name = some en) (hs : en.slot = some i) :
    Leads f (s, ⟨.gather, j :: jobs, asked, seen⟩)
      (s, ⟨.gather, j.receive i :: jobs, asked, seen⟩) :=
  .of_valid fun hv => calc
    Leads f (s, _) (s, ⟨.lookUp name, j :: jobs, asked, seen⟩) := .sought missing
    Leads f _ (s, ⟨.test en.definition, j :: jobs, asked, seen⟩) := .found hl
    Leads f _ (s, ⟨.hand en.definition i, j :: jobs, asked, seen⟩) :=
      .cached ((slot?_of_lookup? hv hl).trans hs)
    Leads f _ (s, _) := .handed

/-- A name that stands for something to be made. -/
theorem Leads.needed {names : List String} {en : Entry K} (missing : j.missing = name :: names)
    (hl : s.store.lookup? name = some en) (hs : en.slot = none) :
    Leads f (s, ⟨.gather, j :: jobs, asked, seen⟩)
      (s, ⟨.enter en.definition, j :: jobs, asked, seen⟩) :=
  .of_valid fun hv => calc
    Leads f (s, _) (s, ⟨.lookUp name, j :: jobs, asked, seen⟩) := .sought missing
    Leads f _ (s, ⟨.test en.definition, j :: jobs, asked, seen⟩) := .found hl
    Leads f _ (s, _) := .further ((slot?_of_lookup? hv hl).trans hs)

/-- A job is begun, and given all its dependencies. -/
theorem Leads.gathered {given : List (String × Instance K)}
    (new : d.id ∉ jobs.map (·.definition.id))
    (empty : d.scope = .singleton → s.store.slot? d.id = none)
    (deps : ∃ errand' jobs', Ends (.names d.dependencies) (⟨d, [], d.dependencies⟩ :: jobs)
      (.ok given) errand' jobs' ∧
      Leads f (s, ⟨.gather, ⟨d, [], d.dependencies⟩ :: jobs, asked, seen⟩)
        (s₁, ⟨errand', jobs', asked, seen⟩)) :
    Leads f (s, ⟨.enter d, jobs, asked, seen⟩)
      (s₁, ⟨.gather, ⟨d, given, []⟩ :: jobs, asked, seen⟩) := by
  obtain ⟨_, _, ends, way⟩ := deps
  cases ends
  exact (Leads.begun new empty).trans way

variable (f asked seen) in
/-- A resolver that is alone follows a resolution: by induction on what the resolution does, on
    whose path are the jobs of the resolver. -/
theorem leads_of_resolves {fs : Factories K τ} {path : List String} {goal : Goal K}
    {r : Except Error (List (String × Instance K))} (h : Resolves fs path goal s r s')
    (deep : r ≠ .error Resolution.tooDeep) {errand : Errand K} (begins : Begins goal errand jobs)
    (hp : path = (jobs.map (·.definition.id)).reverse) :
    ∃ errand' jobs', Ends goal jobs r errand' jobs' ∧
      Leads f (s, ⟨errand, jobs, asked, seen⟩) (s', ⟨errand', jobs', asked, seen⟩) := by
  induction h generalizing errand jobs with
  | tooDeep => exact absurd rfl deep
  -- The path holds the jobs of the resolver, so it comes upon the same cycle.
  | cycle hid =>
    cases begins
    subst hp
    exact ⟨_, _, .refused, .again (by simpa using hid)⟩
  | found hid hd hs =>
    cases begins
    subst hp
    exact ⟨_, _, .definition, .ready (by simpa using hid) hd hs⟩
  -- A dependency has failed: the job fails with it, and leaves its slot.
  | @unresolved _ d s e s₁ hid hfree deps ih =>
    cases begins
    subst hp
    obtain ⟨_, _, ends, way⟩ := ih deep (.fresh d jobs) (by simp)
    cases ends with
    | @failed _ _ j _ _ same =>
      refine ⟨_, _, .refused, ?_⟩
      calc Leads f (s, ⟨.enter d, jobs, asked, seen⟩) _ := .begun (by simpa using hid) hfree
        Leads f _ (s₁, ⟨.fail e, j :: jobs, asked, seen⟩) := way
        Leads f _ (s₁, ⟨.leave (.error e), j :: jobs, asked, seen⟩) := .failed
        Leads f _ (s₁, ⟨.fail e, jobs, asked, seen⟩) := .left
  -- All dependencies are there. What comes next depends on the definition.
  | @existing _ d s given s₁ held hid hfree deps hf ih =>
    cases begins
    subst hp
    have deps := ih nofun (.fresh d jobs) (by simp)
    refine ⟨_, _, .definition, ?_⟩
    calc Leads f (s, ⟨.enter d, jobs, asked, seen⟩) _ := .gathered (by simpa using hid) hfree deps
      Leads f _ (s₁, ⟨.leave (.ok ⟨d.type, held⟩), ⟨d, given, []⟩ :: jobs, asked, seen⟩) :=
        .existing rfl hf
      Leads f _ (s₁.keep d ⟨d.type, held⟩, ⟨.hand d ⟨d.type, held⟩, jobs, asked, seen⟩) := .left
  | @made _ d s given s₁ g held rest hid hfree deps hf hrun ih =>
    cases begins
    subst hp
    have deps := ih nofun (.fresh d jobs) (by simp)
    refine ⟨_, _, .definition, ?_⟩
    calc Leads f (s, ⟨.enter d, jobs, asked, seen⟩) _ := .gathered (by simpa using hid) hfree deps
      Leads f _ (s₁, ⟨.make, ⟨d, given, []⟩ :: jobs, asked, seen⟩) := .started rfl hf
      Leads f _ (s₁.ran ⟨d, given, .ok ⟨d.type, held⟩⟩ rest,
        ⟨.leave (.ok ⟨d.type, held⟩), ⟨d, given, []⟩ :: jobs, asked, seen⟩) :=
      .ended (.ok held) rest
      Leads f _ (_, ⟨.hand d ⟨d.type, held⟩, jobs, asked, seen⟩) := .left
  | @stopped _ d s given s₁ g stop rest hid hfree deps hf hrun ih =>
    cases begins
    subst hp
    have deps := ih nofun (.fresh d jobs) (by simp)
    refine ⟨_, _, .refused, ?_⟩
    calc Leads f (s, ⟨.enter d, jobs, asked, seen⟩) _ := .gathered (by simpa using hid) hfree deps
      Leads f _ (s₁, ⟨.make, ⟨d, given, []⟩ :: jobs, asked, seen⟩) := .started rfl hf
      Leads f _ (s₁.ran ⟨d, given, .error stop⟩ rest,
        ⟨.leave (.error (.construction d.id (Resolution.stopMessage stop))),
          ⟨d, given, []⟩ :: jobs, asked, seen⟩) := .ended (.error stop) rest
      Leads f _
        (_, ⟨.fail (.construction d.id (Resolution.stopMessage stop)), jobs, asked, seen⟩) :=
        .left
  -- Nothing is missing, so the job goes on as it is.
  | @nil _ s =>
    cases begins with
    | @names _ j jobs missing =>
      refine ⟨_, _, .names, ?_⟩
      have same : ({ j with gathered := j.gathered ++ [], missing := [] } : Job K) = j := by
        rw [List.append_nil, ← missing]
      rw [same]
      exact .refl _
  | missing hl =>
    cases begins with
    | names missing => exact ⟨_, _, .failed rfl, (Leads.sought missing).trans (.missed hl)⟩
  -- One name is settled, and the others follow.
  | @cached _ s name names en i r s' hl hs others ih =>
    cases begins with
    | @names _ j jobs missing =>
      obtain ⟨errand', jobs', ends, way⟩ := ih (fun h => deep (by rw [h]; rfl))
        (.received missing i jobs) (by simpa using hp)
      exact ⟨errand', jobs', ends.cons missing, (Leads.given missing hl hs).trans way⟩
  | @failed _ s name names en e s₁ hl hs one ih =>
    cases begins with
    | @names _ j jobs missing =>
      obtain ⟨_, _, ends, way⟩ := ih deep .definition hp
      cases ends
      exact ⟨_, _, .failed rfl, (Leads.needed missing hl hs).trans way⟩
  -- The instance comes from a job of its own, above this one, which hands it over.
  | @resolved _ s name names en i s₁ r s' hl hs one others ihone ih =>
    cases begins with
    | @names _ j jobs missing =>
      obtain ⟨_, _, ends, first⟩ := ihone nofun .definition hp
      cases ends
      obtain ⟨errand', jobs', ends', way⟩ := ih (fun h => deep (by rw [h]; rfl))
        (.received missing i jobs) (by simpa using hp)
      refine ⟨errand', jobs', ends'.cons missing, ?_⟩
      calc Leads f (s, ⟨.gather, j :: jobs, asked, seen⟩) _ := .needed missing hl hs
        Leads f _ (s₁, ⟨.hand en.definition i, j :: jobs, asked, seen⟩) := first
        Leads f _ (s₁, ⟨.gather, j.receive i :: jobs, asked, seen⟩) := .handed
        Leads f _ _ := way

/-! ### Callers -/

/-- A resolver is about to tell its caller what has come of the name. -/
def Resolver.Tells (r : Resolver K) : Except Error (Instance K) → Prop
  | .ok i => r.jobs = [] ∧ ∃ d, r.errand = .hand d i
  | .error e => r.jobs = [] ∧ r.errand = .fail e

variable (f seen) in
/-- A resolver that is asked for a name comes to tell what the resolution of the name gives. -/
theorem leads_of_instantiate (fs : Factories K τ) (limit : Nat) (s : Site K τ)
    (h : Resolution.instantiate fs.maker limit name s = (result, s'))
    (deep : result ≠ .error Resolution.tooDeep) :
    ∃ r, r.asked = name ∧ r.Tells result ∧ Leads f (s, ⟨.lookUp name, [], name, seen⟩) (s', r) := by
  cases hl : s.store.lookup? name with
  | none =>
    rw [Resolution.instantiate_missing hl] at h
    cases h
    exact ⟨_, rfl, ⟨rfl, rfl⟩, .missed hl⟩
  | some en =>
    have slot (hv : s.store.Valid) := slot?_of_lookup? hv hl
    cases hs : en.slot with
    | some i =>
      rw [Resolution.instantiate_found hl hs] at h
      cases h
      exact ⟨_, rfl, ⟨rfl, _, rfl⟩, .of_valid fun hv =>
        (Leads.found hl).trans (.cached ((slot hv).trans hs))⟩
    -- The slot is empty, so the search for cycles comes first.
    | none =>
      have looked : Leads f (s, ⟨.lookUp name, [], name, seen⟩)
          (s, ⟨.check en.definition, [], name, seen⟩) :=
        .of_valid fun hv => (Leads.found hl).trans (.first ((slot hv).trans hs))
      cases hc : s.store.checkAcyclic en.definition.id with
      | error e =>
        rw [Resolution.instantiate_cycle hl hs hc] at h
        cases h
        exact ⟨_, rfl, ⟨rfl, rfl⟩, looked.trans (.cyclic hc)⟩
      | ok u =>
        rw [Resolution.instantiate_acyclic hl hs hc] at h
        have resolves := Resolution.resolve_resolves (f := fs) limit [] en.definition s
        rw [h] at resolves
        have made := looked.trans (.acyclic hc)
        have none : Begins (.definition en.definition) (.enter en.definition) ([] : List (Job K)) :=
          .definition
        cases result with
        | error e =>
          obtain ⟨_, _, ends, way⟩ := leads_of_resolves f name s.store resolves
            (fun he => deep (by cases he; rfl)) none rfl
          cases ends
          exact ⟨_, rfl, ⟨rfl, rfl⟩, made.trans way⟩
        | ok i =>
          obtain ⟨_, _, ends, way⟩ := leads_of_resolves f name s.store resolves nofun none rfl
          cases ends
          exact ⟨_, rfl, ⟨rfl, _, rfl⟩, made.trans way⟩

/-- **A resolver that is alone does what a resolution does.** Let nobody else be inside a slot, and
    let a resolver that has nothing to do be asked for a name. With any factories it comes, all by
    itself, to tell its caller what `Resolution.instantiate` gives, and then the store and the log
    are those of the resolution. -/
theorem alone_instantiates (hc : Reachable c) (idle : (c.resolvers f).errand = .idle)
    (others : ∀ g, g ≠ f → (c.resolvers g).holds = []) (fs : Factories K τ) (limit : Nat) (rest : τ)
    (h : Resolution.instantiate fs.maker limit name ⟨c.store, rest, c.log⟩ = (result, s'))
    (deep : result ≠ .error Resolution.tooDeep) :
    ∃ c₁ c₂ c₃, c.step (.call f name) = some c₁ ∧ Alone f c₁ c₂ ∧ (c₂.resolvers f).Tells result ∧
      c₂.step (.go f) = some c₃ ∧ (c₃.resolvers f).errand = .idle ∧
      c₃.store = (Site.handOut name (result, s')).store ∧
      c₃.log = (Site.handOut name (result, s')).log := by
  have sound := hc.sound
  have called : c.step (.call f name)
      = some (c.turn f { c.resolvers f with errand := .lookUp name, asked := name }) := by
    simp only [step, idle]
  have start : At f (c.turn f { c.resolvers f with errand := .lookUp name, asked := name })
      (⟨c.store, rest, c.log⟩ : Site K τ) ⟨.lookUp name, [], name, (c.resolvers f).seen⟩ := by
    -- A resolver that has nothing to do has no jobs, and nobody else is inside a slot.
    have noJobs : (c.resolvers f).jobs = [] := by
      have errand := (sound.resolvers f).errand
      rw [idle] at errand
      exact errand
    refine ⟨rfl, List.append_nil _, ?_, fun id g hg => ?_, sound.act called⟩
    · rw [turn_resolvers, if_pos rfl]
      simp only [noJobs]
    · by_contra other
      have held := (sound.inside id g).mp hg
      rw [others g other] at held
      cases held
  obtain ⟨r, rfl, tells, way⟩ := leads_of_instantiate f (c.resolvers f).seen fs limit
    ⟨c.store, rest, c.log⟩ h deep
  obtain ⟨c₂, alone, reached⟩ := way _ start
  have mine := reached.mine
  -- One more step tells the caller.
  cases result with
  | ok i =>
    obtain ⟨noJobs, d, errand⟩ := tells
    refine ⟨_, c₂, c₂.turn f { r with errand := .idle } [.yielded r.asked i], called, alone,
      by rw [mine]; exact ⟨noJobs, d, errand⟩, ?_, by rw [turn_resolvers, if_pos rfl],
      reached.store, congrArg (· ++ _) reached.log⟩
    simp only [step, advance, mine, errand, noJobs]
  | error e =>
    obtain ⟨noJobs, errand⟩ := tells
    refine ⟨_, c₂, c₂.turn f { r with errand := .idle }, called, alone,
      by rw [mine]; exact ⟨noJobs, errand⟩, ?_, by rw [turn_resolvers, if_pos rfl],
      reached.store, (List.append_nil _).trans reached.log⟩
    simp only [step, advance, mine, errand, noJobs]

end Crew

end ComponentHost
