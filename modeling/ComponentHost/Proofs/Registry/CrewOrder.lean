import ComponentHost.Proofs.Registry.Crew

/-! # Crews in order

  What holds of every crew that can be reached. A resolver has its jobs stacked: each waits for the
  definition of the next one inside it, by a name that stands for it, and the outermost one is that
  of the definition below which no cycle was found. A resolver is inside a slot exactly if it has a
  job for the singleton, and then the slot is empty. So the slot is filled at most once, and whoever
  hands a singleton on has it from the slot.

  - `Resolver.Sound` is what holds of a resolver over a store, `Turn.sound` says that its own turns
    keep it, and `Resolver.Sound.grown` that nobody else can break it, since a store only grows;
  - `Crew.Sound` puts resolvers and slots together, and `Crew.Sound.step` is the step lemma.
-/

namespace ComponentHost

variable {K : Kit}

namespace Crew

/-! ### Resolvers in order -/

/-- An instance that was got under a name is from the slot, if the name stands for a singleton. -/
def Given (s : Store K) (p : String × Instance K) : Prop :=
  ∃ d, s.canonical? p.1 = some d.id ∧ s.definition? d.id = some d ∧
    (d.scope = .singleton → s.slot? d.id = some p.2)

/-- The name of what is needed next: by the innermost job, or, if there is none, by the caller. -/
def wanted (asked : String) : List (Job K) → Option String
  | [] => some asked
  | j :: _ => j.missing.head?

structure Job.Sound (s : Store K) (j : Job K) : Prop where
  registered : s.definition? j.definition.id = some j.definition
  declared : j.definition.dependencies = j.gathered.map (·.1) ++ j.missing
  gathered : ∀ p ∈ j.gathered, Given s p

/-- The definition is that of what is needed next. -/
structure Aimed (s : Store K) (asked : String) (jobs : List (Job K)) (d : Definition K) : Prop where
  registered : s.definition? d.id = some d
  name : ∃ name, wanted asked jobs = some name ∧ s.canonical? name = some d.id

/-- Every job is for what is needed next by the one around it, and the outermost one for what the
    caller has asked for. -/
def Stacked (s : Store K) (asked : String) : List (Job K) → Prop
  | [] => True
  | j :: jobs => Aimed s asked jobs j.definition ∧ Stacked s asked jobs

def Errand.Sound (s : Store K) (asked : String) (jobs : List (Job K)) : Errand K → Prop
  | .idle => jobs = []
  | .lookUp name => wanted asked jobs = some name
  | .test d | .enter d => Aimed s asked jobs d
  | .check d => jobs = [] ∧ Aimed s asked jobs d
  | .make => ∀ j ∈ jobs.head?, j.missing = [] ∧ ∃ g, j.definition.factory = .make g
  | .hand d i => Aimed s asked jobs d ∧ (d.scope = .singleton → s.slot? d.id = some i)
  | .gather | .leave _ | .fail _ => True

def Errand.next : Errand K → Option (Definition K)
  | .enter d => some d
  | _ => none

/-- The definitions that are being made, and the one to be made next, innermost first. -/
def Resolver.line (r : Resolver K) : List (Definition K) :=
  r.errand.next.toList ++ r.jobs.map (·.definition)

structure Resolver.Sound (s : Store K) (r : Resolver K) : Prop where
  jobs : ∀ j ∈ r.jobs, j.Sound s
  /-- No definition is being made twice. -/
  once : r.path.Nodup
  stacked : Stacked s r.asked r.jobs
  errand : r.errand.Sound s r.asked r.jobs
  seen : r.seen.Grown s
  valid : r.seen.Valid
  /-- No cycle was below the outermost definition when the resolver looked. -/
  root : ∀ d ∈ r.line.getLast?, r.seen.definition? d.id = some d ∧ ¬ r.seen.Cyclic d.id

variable {s s' : Store K} {r r' : Resolver K} {j : Job K} {d : Definition K}
  {events : List (Event K)} {i : Instance K} {asked : String} {jobs : List (Job K)}

/-! ### Stores that grow -/

theorem Given.grown {p : String × Instance K} (h : Given s p) (g : s.Grown s') : Given s' p := by
  obtain ⟨d, name, registered, slot⟩ := h
  exact ⟨d, g.names name, g.definitions registered, fun hd => g.slots (slot hd)⟩

theorem Job.Sound.grown (h : j.Sound s) (g : s.Grown s') : j.Sound s' where
  registered := g.definitions h.registered
  declared := h.declared
  gathered p hp := (h.gathered p hp).grown g

theorem Aimed.grown (h : Aimed s asked jobs d) (g : s.Grown s') : Aimed s' asked jobs d where
  registered := g.definitions h.registered
  name := by
    obtain ⟨name, wanted, stands⟩ := h.name
    exact ⟨name, wanted, g.names stands⟩

theorem Stacked.grown (h : Stacked s asked jobs) (g : s.Grown s') : Stacked s' asked jobs := by
  induction jobs with
  | nil => trivial
  | cons j jobs ih => exact ⟨h.1.grown g, ih h.2⟩

theorem Errand.Sound.grown {errand : Errand K} (h : errand.Sound s asked jobs)
    (g : s.Grown s') : errand.Sound s' asked jobs := by
  cases errand with
  | idle | lookUp | make | gather | leave | fail => exact h
  | test d | enter d => exact Aimed.grown h g
  | check d => exact ⟨h.1, h.2.grown g⟩
  | hand d i => exact ⟨h.1.grown g, fun hd => g.slots (h.2 hd)⟩

/-- What others do to the store leaves a resolver in order. -/
theorem Resolver.Sound.grown (h : r.Sound s) (g : s.Grown s') : r.Sound s' where
  jobs j hj := (h.jobs j hj).grown g
  once := h.once
  stacked := h.stacked.grown g
  errand := h.errand.grown g
  seen := h.seen.trans g
  valid := h.valid
  root := h.root

/-! ### Turns -/

@[simp] theorem Job.receive_definition (j : Job K) (i : Instance K) :
    (j.receive i).definition = j.definition := by
  unfold receive
  split <;> rfl

theorem Job.receive_cons {name : String} {rest : List String} (h : j.missing = name :: rest)
    (i : Instance K) :
    j.receive i = { j with gathered := j.gathered ++ [(name, i)], missing := rest } := by
  simp only [receive, h]

/-- A job that is given what it needs next. -/
theorem Job.Sound.receive (h : j.Sound s) (aimed : Aimed s asked (j :: jobs) d)
    (slot : d.scope = .singleton → s.slot? d.id = some i) : (j.receive i).Sound s := by
  obtain ⟨name, wanted, stands⟩ := aimed.name
  obtain ⟨rest, missing⟩ := List.head?_eq_some_iff.mp wanted
  rw [Job.receive_cons missing]
  refine ⟨h.registered, ?_, fun p hp => ?_⟩
  · simp [h.declared, missing]
  · rcases List.mem_append.mp hp with old | new
    · exact h.gathered p old
    · rw [List.mem_singleton] at new
      subst new
      exact ⟨d, stands, aimed.registered, slot⟩

/-- What a job needs next is a dependency of its definition. -/
theorem Job.Sound.needs (h : j.Sound s) {name : String} (wanted : j.missing.head? = some name) :
    name ∈ j.definition.dependencies := by
  rw [h.declared]
  exact List.mem_append_right _ (List.mem_of_mem_head? wanted)

/-- A job that has just been begun. -/
theorem Job.sound_new (registered : s.definition? d.id = some d) :
    (⟨d, [], d.dependencies⟩ : Job K).Sound s := ⟨registered, by simp, by simp⟩

section Resolvers

variable {errand errand' : Errand K} {seen : Store K}

/-- Once a job has come to an end, what has come of it is reported to the one around it. -/
theorem Resolver.Sound.pop (h : (⟨errand, j :: jobs, asked, seen⟩ : Resolver K).Sound s)
    (he : Aimed s asked jobs j.definition → errand'.Sound s asked jobs)
    (hn : errand'.next = none) (hn' : errand.next = none) :
    (⟨errand', jobs, asked, seen⟩ : Resolver K).Sound s where
  jobs j' hj' := h.jobs j' (List.mem_cons_of_mem _ hj')
  once := (List.nodup_cons.mp h.once).2
  stacked := h.stacked.2
  errand := he h.stacked.1
  seen := h.seen
  valid := h.valid
  root d hd := by
    -- The line loses its newest name, not the oldest one.
    refine h.root d ?_
    simp only [Resolver.line, hn, hn', Option.toList_none, List.nil_append, List.map_cons] at hd ⊢
    rw [List.getLast?_cons, Option.mem_def.mp hd]
    rfl

/-- A resolver begins what it was about to begin. -/
theorem Resolver.Sound.push (h : (⟨.enter d, jobs, asked, seen⟩ : Resolver K).Sound s)
    (new : d.id ∉ jobs.map (·.definition.id)) :
    (⟨.gather, ⟨d, [], d.dependencies⟩ :: jobs, asked, seen⟩ : Resolver K).Sound s where
  jobs j hj := by
    rcases List.mem_cons.mp hj with rfl | hj
    · exact Job.sound_new h.errand.registered
    · exact h.jobs j hj
  once := List.nodup_cons.mpr ⟨new, h.once⟩
  stacked := ⟨h.errand, h.stacked⟩
  errand := trivial
  seen := h.seen
  valid := h.valid
  root := h.root

/-- A resolver with the same jobs, which is not about to begin another one. -/
theorem Resolver.Sound.errand_changed (h : (⟨errand, jobs, asked, seen⟩ : Resolver K).Sound s)
    (he : errand'.Sound s asked jobs) (hn : errand'.next = none) :
    (⟨errand', jobs, asked, seen⟩ : Resolver K).Sound s where
  jobs := h.jobs
  once := h.once
  stacked := h.stacked
  errand := he
  seen := h.seen
  valid := h.valid
  root d hd := by
    refine h.root d ?_
    simp only [Resolver.line, hn, Option.toList_none, List.nil_append] at hd ⊢
    rw [List.getLast?_append, Option.mem_def.mp hd]
    rfl

/-- A resolver that is asked for a name. -/
theorem Resolver.Sound.called (h : (⟨.idle, jobs, asked, seen⟩ : Resolver K).Sound s)
    (name : String) : (⟨.lookUp name, jobs, name, seen⟩ : Resolver K).Sound s := by
  obtain rfl : jobs = [] := h.errand
  exact ⟨nofun, List.nodup_nil, trivial, rfl, h.seen, h.valid, nofun⟩

/-- A resolver that goes on to a dependency whose slot it found empty. -/
theorem Resolver.Sound.further (h : (⟨.test d, j :: jobs, asked, seen⟩ : Resolver K).Sound s) :
    (⟨.enter d, j :: jobs, asked, seen⟩ : Resolver K).Sound s where
  jobs := h.jobs
  once := h.once
  stacked := h.stacked
  errand := h.errand
  seen := h.seen
  valid := h.valid
  root d' hd' := h.root d' (by
    simpa [Resolver.line, Errand.next, List.getLast?_cons] using hd')

/-- A resolver that hands an instance to its innermost job. -/
theorem Resolver.Sound.handed (h : (⟨.hand d i, j :: jobs, asked, seen⟩ : Resolver K).Sound s) :
    (⟨.gather, j.receive i :: jobs, asked, seen⟩ : Resolver K).Sound s where
  jobs j' hj' := by
    rcases List.mem_cons.mp hj' with rfl | hj'
    · exact (h.jobs j List.mem_cons_self).receive h.errand.1 h.errand.2
    · exact h.jobs j' (List.mem_cons_of_mem _ hj')
  once := by simpa [Resolver.path] using h.once
  stacked := ⟨by rw [Job.receive_definition]; exact h.stacked.1, h.stacked.2⟩
  errand := trivial
  seen := h.seen
  valid := h.valid
  root d' hd' := h.root d' (by simpa [Resolver.line, Errand.next] using hd')

/-- A resolver that has found no cycle below what its caller has asked for. -/
theorem Resolver.Sound.acyclic (h : (⟨.check d, jobs, asked, seen⟩ : Resolver K).Sound s)
    (hv : s.Valid) (hc : s.checkAcyclic d.id = .ok ()) :
    (⟨.enter d, jobs, asked, s⟩ : Resolver K).Sound s := by
  obtain ⟨rfl, aimed⟩ := h.errand
  refine ⟨h.jobs, h.once, h.stacked, aimed, .refl s, hv, fun d' hd' => ?_⟩
  obtain rfl : d = d' := by simpa [Resolver.line, Errand.next] using hd'
  refine ⟨aimed.registered, ?_⟩
  rcases Store.checkAcyclic_spec hv aimed.registered with ⟨_, free⟩ | ⟨path, error, _⟩
  · exact free
  · rw [hc] at error
    cases error

end Resolvers

/-- Every turn of a resolver keeps it in order. -/
theorem Turn.sound (h : Turn s r r' events) (hr : r.Sound s) (hv : s.Valid) : r'.Sound s := by
  cases h with
  | called name => exact hr.called name
  | missed => exact hr.errand_changed trivial rfl
  | @found jobs asked seen name e hl =>
    -- The name stands for the entry, so the resolver has its sights on the definition.
    obtain ⟨stands, entry⟩ := hv.canonical?_of_lookup? hl
    exact hr.errand_changed ⟨Store.definition?_of_get? entry, name, hr.errand, stands⟩ rfl
  | cached hs => exact hr.errand_changed ⟨hr.errand, fun _ => hs⟩ rfl
  | first => exact hr.errand_changed ⟨rfl, hr.errand⟩ rfl
  | further => exact hr.further
  | cyclic => exact hr.errand_changed trivial rfl
  | acyclic hc => exact hr.acyclic hv hc
  | again => exact hr.errand_changed trivial rfl
  | ready hs => exact hr.errand_changed ⟨hr.errand, fun _ => hs⟩ rfl
  | begun _ new => exact hr.push new
  | sought missing => exact hr.errand_changed (congrArg List.head? missing) rfl
  | existing | ended | failed => exact hr.errand_changed trivial rfl
  | started missing factory =>
    refine hr.errand_changed (fun j' hj' => ?_) rfl
    -- The job that starts its factory lacks nothing.
    cases hj'
    exact ⟨missing, _, factory⟩
  | @closed j jobs asked seen result hd =>
    -- A job for a prototype closes no slot.
    cases result with
    | ok i =>
      refine hr.pop (fun aimed => ⟨aimed, fun single => ?_⟩) rfl rfl
      rw [hd] at single
      cases single
    | error e => exact hr.pop (fun _ => trivial) rfl rfl
  | handed => exact hr.handed
  | yielded => exact hr.errand_changed rfl rfl
  | refused => exact hr.errand_changed rfl rfl

/-- A turn enters no slot and leaves none. -/
theorem Turn.holds_eq (h : Turn s r r' events) : r'.holds = r.holds := by
  cases h with
  | begun hd => simp [Resolver.holds, hd]
  | closed hd => simp [Resolver.holds, hd]
  | @handed j jobs asked seen d i =>
    by_cases hd : j.definition.scope = .singleton
    · simp [Resolver.holds, hd]
    · simp [Resolver.holds, hd]
  | _ => rfl

/-- A resolver has seen the store as it is, or nothing new. -/
theorem Turn.seen_eq (h : Turn s r r' events) : r'.seen = r.seen ∨ r'.seen = s := by
  cases h with
  | acyclic => exact .inr rfl
  | _ => exact .inl rfl

/-- A job for a singleton is one slot more to be inside of. -/
theorem Resolver.holds_cons {errand errand' : Errand K} {seen : Store K}
    (scope : j.definition.scope = .singleton) :
    (⟨errand, j :: jobs, asked, seen⟩ : Resolver K).holds
      = j.definition.id :: (⟨errand', jobs, asked, seen⟩ : Resolver K).holds := by
  simp [holds, scope]

theorem Resolver.mem_holds {id : String} :
    id ∈ r.holds ↔ ∃ j ∈ r.jobs, j.definition.id = id ∧ j.definition.scope = .singleton := by
  simp only [holds, List.mem_map, List.mem_filter, decide_eq_true_eq]
  constructor
  · rintro ⟨j, ⟨hj, hd⟩, hid⟩
    exact ⟨j, hj, hid, hd⟩
  · rintro ⟨j, hj, hid, hd⟩
    exact ⟨j, ⟨hj, hd⟩, hid⟩

end Crew

/-! ### Crews in order -/

namespace Crew

variable {c c' : Crew K} {f g : Nat} {r : Resolver K} {j : Job K} {d : Definition K}
  {id : String}

structure Sound (c : Crew K) : Prop where
  valid : c.store.Valid
  resolvers : ∀ f, (c.resolvers f).Sound c.store
  /-- Who is inside a slot has a job for the singleton. -/
  inside : ∀ id f, c.inside id = some f ↔ id ∈ (c.resolvers f).holds
  /-- A slot that somebody is inside of is empty. -/
  vacant : ∀ id f, c.inside id = some f → c.store.slot? id = none
  /-- Of two resolvers one has seen what the other has. -/
  ordered : ∀ f g, (c.resolvers f).seen.Grown (c.resolvers g).seen ∨
    (c.resolvers g).seen.Grown (c.resolvers f).seen

theorem close_inside (scope : d.scope = .singleton) (result : Except Error (Instance K))
    (id : String) : (c.close d result).inside id = if id = d.id then none else c.inside id := by
  unfold close
  rw [scope]

theorem close_resolvers (d : Definition K) (result : Except Error (Instance K)) :
    (c.close d result).resolvers = c.resolvers := by
  unfold close
  split <;> rfl

theorem close_log (d : Definition K) (result : Except Error (Instance K)) :
    (c.close d result).log = c.log := by
  unfold close
  split <;> rfl

theorem turn_resolvers (c : Crew K) (f : Nat) (r : Resolver K) (events : List (Event K)) (g : Nat) :
    (c.turn f r events).resolvers g = if g = f then r else c.resolvers g := rfl

theorem take_resolvers (c : Crew K) (f : Nat) (d : Definition K) (g : Nat) :
    (c.take f d).resolvers g = if g = f then (c.resolvers f).begin d else c.resolvers g := rfl

namespace Sound

theorem start : Sound ({} : Crew K) where
  valid := Store.valid_empty
  resolvers f := by
    exact ⟨nofun, List.nodup_nil, trivial, rfl, .refl _, Store.valid_empty, nofun⟩
  inside id f := by simp [Resolver.holds]
  vacant id f h := by cases h
  ordered f g := .inl (.refl _)

/-- Nobody but one resolver changes, and it has seen what it had seen, or all that there is. -/
theorem ordered_turn (h : Sound c) (f : Nat) (r : Resolver K) (events : List (Event K))
    (seen : r.seen = (c.resolvers f).seen ∨ r.seen = c.store) (g g' : Nat) :
    ((c.turn f r events).resolvers g).seen.Grown ((c.turn f r events).resolvers g').seen ∨
      ((c.turn f r events).resolvers g').seen.Grown ((c.turn f r events).resolvers g).seen := by
  -- What one resolver has checked is as old as before, or as new as the store.
  have other (g : Nat) : r.seen.Grown (c.resolvers g).seen ∨ (c.resolvers g).seen.Grown r.seen := by
    rcases seen with same | all
    · rw [same]
      exact h.ordered f g
    · rw [all]
      exact .inr (h.resolvers g).seen
  rw [turn_resolvers, turn_resolvers]
  by_cases hg : g = f
  · by_cases hg' : g' = f
    · simp only [hg, hg', if_true]
      exact .inl (.refl _)
    · simp only [hg, hg', if_true, if_false]
      exact other g'
  · by_cases hg' : g' = f
    · simp only [hg, hg', if_true, if_false]
      exact (other g).symm
    · simp only [hg, hg', if_false]
      exact h.ordered g g'

theorem turned (h : Sound c) {events : List (Event K)}
    (ht : Turn c.store (c.resolvers f) r events) : Sound (c.turn f r events) where
  valid := h.valid
  resolvers g := by
    rw [turn_resolvers]
    split
    · exact ht.sound (h.resolvers f) h.valid
    · exact h.resolvers g
  inside id g := by
    rw [turn_resolvers]
    split
    · next hg => rw [hg, ht.holds_eq]; exact h.inside id f
    · exact h.inside id g
  vacant := h.vacant
  ordered := h.ordered_turn f r events ht.seen_eq

theorem named {store : Store K} (h : Sound c) (grown : c.store.Grown store)
    (valid : c.store.Valid → store.Valid) (slots : ∀ id, store.slot? id = c.store.slot? id) :
    Sound { c with store } where
  valid := valid h.valid
  resolvers f := (h.resolvers f).grown grown
  inside := h.inside
  vacant id f hf := (slots id).trans (h.vacant id f hf)
  ordered := h.ordered

/-- Who enters a slot that is free, is the only one inside. -/
theorem taken_inside (h : Sound c) (scope : d.scope = .singleton) (free : c.inside d.id = none)
    (id : String) (g : Nat) :
    (c.take f d).inside id = some g ↔ id ∈ ((c.take f d).resolvers g).holds := by
  show (if id = d.id then some f else c.inside id) = some g ↔ _
  rw [take_resolvers]
  -- The resolver that enters holds one slot more; all others hold what they held.
  by_cases hg : g = f
  · subst hg
    have holds : ((c.resolvers g).begin d).holds = d.id :: (c.resolvers g).holds :=
      Resolver.holds_cons scope
    rw [if_pos rfl, holds, List.mem_cons, ← h.inside id g]
    by_cases hid : id = d.id
    · simp [hid]
    · simp [hid]
  · rw [if_neg hg, ← h.inside id g]
    by_cases hid : id = d.id
    · rw [if_pos hid, hid, free]
      simp [Ne.symm hg]
    · rw [if_neg hid]

theorem taken (h : Sound c) (errand : (c.resolvers f).errand = .enter d)
    (new : d.id ∉ (c.resolvers f).path) (scope : d.scope = .singleton)
    (empty : c.store.slot? d.id = none) (free : c.inside d.id = none) : Sound (c.take f d) where
  valid := h.valid
  resolvers g := by
    rw [take_resolvers]
    split
    · have hr := h.resolvers f
      rcases hf : c.resolvers f with ⟨errand', jobs, asked, seen⟩
      rw [hf] at hr errand new
      cases errand
      exact hr.push new
    · exact h.resolvers g
  inside id g := h.taken_inside scope free id g
  -- Somebody is inside a slot: the newcomer, who found it empty, or one who was there before.
  vacant id g hg := by
    have inside : (if id = d.id then some f else c.inside id) = some g := hg
    show c.store.slot? id = none
    split at inside
    · next hid => rw [hid]; exact empty
    · exact h.vacant id g inside
  ordered := h.ordered_turn f _ [] (.inl rfl)

/-- A resolver that is about to leave the slot of a singleton is inside, and nobody else is. -/
theorem inside_top (h : Sound c) {jobs : List (Job K)} (hj : (c.resolvers f).jobs = j :: jobs)
    (scope : j.definition.scope = .singleton) : c.inside j.definition.id = some f :=
  (h.inside _ f).mpr (Resolver.mem_holds.mpr ⟨j, by rw [hj]; exact List.mem_cons_self, rfl, scope⟩)

/-- What a job leaves behind makes the store grow. -/
theorem close_grown (h : Sound c) {jobs : List (Job K)} (hj : (c.resolvers f).jobs = j :: jobs)
    (scope : j.definition.scope = .singleton) (result : Except Error (Instance K)) :
    c.store.Filled (c.close j.definition result).store := by
  unfold close
  rw [scope]
  cases result with
  | error e => exact .refl _
  | ok i =>
    have registered := ((h.resolvers f).jobs j (by rw [hj]; exact List.mem_cons_self)).registered
    exact Store.filled_fill registered (h.vacant _ f (h.inside_top hj scope)) i

/-- The slot is filled by what has come of the job, and the others are as they were. -/
theorem close_slot (h : Sound c) {jobs : List (Job K)} (hj : (c.resolvers f).jobs = j :: jobs)
    (scope : j.definition.scope = .singleton) (result : Except Error (Instance K)) (id : String) :
    (c.close j.definition result).store.slot? id
      = if id = j.definition.id then result.toOption else c.store.slot? id := by
  -- The resolver is inside the slot, and nobody has filled it meanwhile.
  have empty := h.vacant _ f (h.inside_top hj scope)
  unfold close
  rw [scope]
  cases result with
  | error e =>
    show c.store.slot? id = _
    split
    · next hid => rw [hid]; exact empty
    · rfl
  | ok i =>
    have registered := ((h.resolvers f).jobs j (by rw [hj]; exact List.mem_cons_self)).registered
    exact Store.slot?_fill registered i id

/-- A resolver that has left a slot knows what it has left there. -/
theorem left_reports (h : Sound c) {jobs : List (Job K)} {result : Except Error (Instance K)}
    (errand : (c.resolvers f).errand = .leave result) (hj : (c.resolvers f).jobs = j :: jobs)
    (scope : j.definition.scope = .singleton) :
    ({ c.resolvers f with errand := Resolver.report j.definition result, jobs } : Resolver K).Sound
      (c.close j.definition result).store := by
  have slot := h.close_slot hj scope result j.definition.id
  have hr := (h.resolvers f).grown (h.close_grown hj scope result).grown
  rcases hf : c.resolvers f with ⟨errand', jobs', asked, seen⟩
  rw [hf] at errand hj hr
  cases errand
  cases hj
  -- The slot of the job that is left holds what the report says, and no other slot has changed.
  cases result with
  | error e => exact hr.pop (fun _ => trivial) rfl rfl
  | ok i =>
    rw [if_pos rfl] at slot
    exact hr.pop (fun aimed => ⟨aimed, fun _ => slot⟩) rfl rfl

/-- Who leaves a slot is inside of the others that it was in, and nobody is inside of this one. -/
theorem left_inside (h : Sound c) {jobs : List (Job K)} (hj : (c.resolvers f).jobs = j :: jobs)
    (scope : j.definition.scope = .singleton) (result : Except Error (Instance K)) (id : String)
    (g : Nat) : (c.close j.definition result).inside id = some g ↔
      id ∈ (if g = f then
        { c.resolvers f with errand := Resolver.report j.definition result, jobs }
        else c.resolvers g : Resolver K).holds := by
  have mine := h.inside_top hj scope
  rw [close_inside scope]
  by_cases hg : g = f
  · subst hg
    have once := (h.resolvers g).once
    -- What it held before is the slot of the job and what the outer jobs hold.
    have before := h.inside id g
    rcases hf : c.resolvers g with ⟨errand', jobs', asked, seen⟩
    rw [hf] at hj once before
    cases hj
    rw [Resolver.holds_cons scope, List.mem_cons] at before
    rw [if_pos rfl]
    by_cases hid : id = j.definition.id
    · -- No other job of the resolver is for the same singleton.
      have gone : id ∉ (⟨Resolver.report j.definition result, jobs, asked, seen⟩ :
          Resolver K).holds := by
        intro again
        obtain ⟨j', hj', same, _⟩ := Resolver.mem_holds.mp again
        exact (List.nodup_cons.mp once).1 (List.mem_map.mpr ⟨j', hj', same.trans hid⟩)
      simp [hid ▸ gone, hid]
    · rw [if_neg hid, before]
      exact or_iff_right hid
  · rw [if_neg hg, ← h.inside id g]
    -- Another resolver is inside no slot that this one was inside.
    by_cases hid : id = j.definition.id
    · rw [if_pos hid, hid, mine]
      simp [Ne.symm hg]
    · rw [if_neg hid]

theorem left (h : Sound c) {jobs : List (Job K)} {result : Except Error (Instance K)}
    (errand : (c.resolvers f).errand = .leave result) (hj : (c.resolvers f).jobs = j :: jobs)
    (scope : j.definition.scope = .singleton) :
    Sound ((c.close j.definition result).turn f
      { c.resolvers f with errand := Resolver.report j.definition result, jobs }) := by
  have filled := h.close_grown hj scope result
  have same := close_resolvers (c := c) j.definition result
  constructor
  case valid => exact h.valid.of_filled filled
  case resolvers =>
    intro g
    rw [turn_resolvers, same]
    split
    · exact h.left_reports errand hj scope
    · exact (h.resolvers g).grown filled.grown
  case inside =>
    intro id g
    rw [turn_resolvers, same]
    exact h.left_inside hj scope result id g
  case vacant =>
    -- Nobody is inside the closed slot, and all other slots are as they were.
    intro id g hg
    have inside : (c.close j.definition result).inside id = some g := hg
    show (c.close j.definition result).store.slot? id = none
    rw [close_inside scope] at inside
    rw [h.close_slot hj scope]
    split
    · next hid => rw [if_pos hid] at inside; cases inside
    · next hid => rw [if_neg hid] at inside; exact h.vacant id g inside
  case ordered =>
    intro g g'
    have ordered := h.ordered_turn f
      { c.resolvers f with errand := Resolver.report j.definition result, jobs } [] (.inl rfl) g g'
    simp only [turn_resolvers, same] at ordered ⊢
    exact ordered

/-- Every step keeps a crew in order. -/
theorem step (h : Sound c) (hs : Step c c') : Sound c' := by
  cases hs with
  | named grown valid slots => exact h.named grown valid slots
  | turned ht => exact h.turned ht
  | taken errand new scope empty free => exact h.taken errand new scope empty free
  | left errand hj scope => exact h.left errand hj scope

end Sound

/-- Every crew that can be reached is in order. -/
theorem Reachable.sound (h : Reachable c) : Sound c := h.induction .start fun hp hs => hp.step hs

end Crew

end ComponentHost
