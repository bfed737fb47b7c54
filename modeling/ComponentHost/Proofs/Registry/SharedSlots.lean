import ComponentHost.Proofs.Registry.CrewOrder
import ComponentHost.Proofs.Registry.CycleDetection

/-! # Shared slots

  However many flows resolve a singleton at once, its factory succeeds at most once, and all of them
  get what it has made. A run that fails leaves nothing behind: the slot is empty, nobody is inside,
  and whoever waited may try.

  - `Crew.product` is what there is of a singleton: what is in the slot, or what the resolver inside
    is about to put there;
  - `Crew.Booked` says that this is what the factory has made according to the log, and that what
    the log tells is `Warranted`: everything that was handed out came from a slot;
  - `Shared` is what this means for one singleton, and `singletons_shared` that it is so for all.
-/

namespace ComponentHost

variable {K : Kit}

namespace Crew

/-! ### What there is of a singleton -/

/-- The instance that a resolver is about to leave a slot with. -/
def Resolver.leaving (r : Resolver K) (id : String) : Option (Instance K) :=
  match r.errand, r.jobs with
  | .leave (.ok i), j :: _ => if j.definition.id = id then some i else none
  | _, _ => none

/-- What there is of a singleton: in its slot, or on the way there. -/
def product (c : Crew K) (id : String) : Option (Instance K) :=
  (c.store.slot? id).or ((c.inside id).bind fun f => (c.resolvers f).leaving id)

variable {c c' : Crew K} {s s' : Store K} {r r' : Resolver K} {events : List (Event K)}
  {d : Definition K} {f g : Nat} {gf : K.factory} {j : Job K} {jobs : List (Job K)}
  {result : Except Error (Instance K)} {id : String} {i : Instance K}

theorem product_of_slot (h : c.store.slot? id = some i) : c.product id = some i := by
  rw [product, h]
  rfl

/-- While somebody is inside, it is what that resolver leaves with. -/
theorem Sound.product_inside (h : Sound c) (inside : c.inside id = some f) :
    c.product id = (c.resolvers f).leaving id := by
  rw [product, h.vacant id f inside, inside]
  rfl

/-- While nobody is inside, it is what is in the slot. -/
theorem product_free (free : c.inside id = none) : c.product id = c.store.slot? id := by
  rw [product, free, Option.bind_none, Option.or_none]

/-- Jobs are for what is registered. -/
theorem Resolver.Sound.job_eq (h : r.Sound s) (hj : j ∈ r.jobs) (hd : s.definition? d.id = some d)
    (hid : j.definition.id = d.id) : j.definition = d := by
  have registered := (h.jobs j hj).registered
  rw [hid, hd] at registered
  exact (Option.some.inj registered).symm

/-- A resolver that is about to leave a slot is inside. -/
theorem Resolver.Sound.leaving_holds (h : r.Sound s) (hd : s.definition? d.id = some d)
    (scope : d.scope = .singleton) (hi : r.leaving d.id = some i) : d.id ∈ r.holds := by
  unfold leaving at hi
  split at hi
  · next j rest _ hj =>
    split at hi
    · next hid =>
      -- Only the newest job can be left, and it still counts as held.
      have mem : j ∈ r.jobs := by rw [hj]; exact List.mem_cons_self
      refine Resolver.mem_holds.mpr ⟨j, mem, hid, ?_⟩
      rw [h.job_eq mem hd hid]
      exact scope
    · cases hi
  · cases hi

/-! ### What turns add -/

theorem made_ran (run : FactoryRun K) :
    made id [.ran run] = if run.definition.id = id then run.outcome.toOption.toList else [] := by
  unfold made
  rw [runsOf_ran]
  split
  · cases ho : run.outcome <;> simp [ho, Except.toOption]
  · rfl

/-- What the factory of a singleton has made, a resolver is about to leave the slot with, and
    nothing else. -/
theorem Turn.leaving (h : Turn s r r' events) (hr : r.Sound s) (hd : s.definition? d.id = some d)
    (scope : d.scope = .singleton) (factory : d.factory = .make gf) :
    (r'.leaving d.id).toList = (r.leaving d.id).toList ++ made d.id events := by
  cases h with
  | @existing j jobs asked seen held missing hf =>
    -- `d` has a factory, so what is held already is the instance of another definition.
    have other : j.definition.id ≠ d.id := by
      intro hid
      rw [hr.job_eq List.mem_cons_self hd hid, factory] at hf
      cases hf
    simp [Resolver.leaving, other, made, runsOf]
  | @ended j jobs asked seen outcome =>
    -- Here an instance is made and is on its way to its slot, both in the one turn.
    rw [made_ran]
    by_cases hid : j.definition.id = d.id
    · cases outcome <;>
        simp [Resolver.leaving, Job.result, Job.run, hid, Except.map, Except.toOption]
    · cases outcome <;> simp [Resolver.leaving, Job.result, Job.run, hid]
  | @closed j jobs asked seen result hp =>
    -- `d` has a slot, so what is handed on without one is the instance of another definition.
    have other : j.definition.id ≠ d.id := by
      intro hid
      rw [hr.job_eq List.mem_cons_self hd hid, scope] at hp
      cases hp
    cases result <;> simp [Resolver.leaving, Resolver.report, other, made, runsOf]
  | _ => rfl

/-- What an event tells is so: the factory that ran is that of a definition, and was given what the
    definition declares; what a caller got stands for what it has asked for. -/
def Warranted (s : Store K) : Event K → Prop
  | .ran run => s.definition? run.definition.id = some run.definition ∧
      (∃ g, run.definition.factory = .make g) ∧
      run.given.map (·.1) = run.definition.dependencies ∧ ∀ p ∈ run.given, Given s p
  | .yielded name i => Given s (name, i)

theorem Warranted.grown {e : Event K} (h : Warranted s e) (g : s.Grown s') : Warranted s' e := by
  cases e with
  | ran run =>
    obtain ⟨registered, factory, declared, given⟩ := h
    exact ⟨g.definitions registered, factory, declared, fun p hp => (given p hp).grown g⟩
  | yielded name i => exact Given.grown h g

/-- Whatever was handed out came from a slot, if it is a singleton. -/
theorem Warranted.given {e : Event K} (h : Warranted s e) {p : String × Instance K}
    (hp : p ∈ e.handed) : Given s p := by
  cases e with
  | ran run => exact h.2.2.2 p hp
  | yielded name i =>
    obtain rfl : p = (name, i) := by simpa [Event.handed] using hp
    exact h

/-- A turn adds to the log what the factory of the innermost job was given, or what the caller
    gets. -/
theorem Turn.logged (h : Turn s r r' events) (hr : r.Sound s) : ∀ e ∈ events, Warranted s e := by
  intro e he
  cases h with
  | @ended j jobs asked seen outcome =>
    obtain rfl : e = .ran (j.run outcome) := by simpa using he
    have sound := hr.jobs j List.mem_cons_self
    obtain ⟨missing, factory⟩ := hr.errand j rfl
    refine ⟨sound.registered, factory, ?_, sound.gathered⟩
    -- All dependencies have been given by the time the factory runs.
    have declared := sound.declared
    rw [missing, List.append_nil] at declared
    exact declared.symm
  | @yielded asked seen d i =>
    obtain rfl : e = .yielded asked i := by simpa using he
    obtain ⟨⟨registered, name, wanted, stands⟩, slot⟩ := hr.errand
    cases wanted
    exact ⟨d, stands, registered, slot⟩
  | _ => cases he

/-! ### What steps do to it -/

/-- A turn adds to what there is of a singleton what its factory makes in that turn. -/
theorem Sound.product_turned (h : Sound c) (ht : Turn c.store (c.resolvers f) r events)
    (hd : c.store.definition? d.id = some d) (scope : d.scope = .singleton)
    (factory : d.factory = .make gf) :
    ((c.turn f r events).product d.id).toList = (c.product d.id).toList ++ made d.id events := by
  have added := ht.leaving (h.resolvers f) hd scope factory
  -- A turn fills no slot: at most what its own resolver is about to leave one with changes.
  by_cases inside : c.inside d.id = some f
  · have after := (h.turned ht).product_inside inside
    rw [h.product_inside inside, ← added, after, turn_resolvers, if_pos rfl]
  · -- The resolver is not inside, before and after, so it has made nothing of it.
    have nothing (r₁ : Resolver K) (sound : r₁.Sound c.store)
        (holds : r₁.holds = (c.resolvers f).holds) : r₁.leaving d.id = none := by
      refine Option.eq_none_iff_forall_ne_some.mpr fun i hi => inside ?_
      rw [h.inside, ← holds]
      exact sound.leaving_holds hd scope hi
    rw [nothing r (ht.sound (h.resolvers f) h.valid) ht.holds_eq,
      nothing _ (h.resolvers f) rfl] at added
    have none : made d.id events = [] := added.symm
    rw [none, List.append_nil]
    show ((c.store.slot? d.id).or ((c.inside d.id).bind fun g =>
      ((c.turn f r events).resolvers g).leaving d.id)).toList = _
    cases hin : c.inside d.id with
    | none => rw [product, hin]; rfl
    | some g =>
      have other : g ≠ f := fun hg => inside (hg ▸ hin)
      rw [product, hin, Option.bind_some, turn_resolvers, if_neg other]
      rfl

/-- Who enters a slot has made nothing yet. -/
theorem Sound.product_taken (h : Sound c) (errand : (c.resolvers f).errand = .enter d)
    (new : d.id ∉ (c.resolvers f).path) (scope : d.scope = .singleton)
    (empty : c.store.slot? d.id = none) (free : c.inside d.id = none) (id : String) :
    (c.take f d).product id = c.product id := by
  have sound := h.taken errand new scope empty free
  -- The resolver stands inside now, with nothing to leave the slot with.
  have mine : ((c.take f d).resolvers f).leaving id = none := by
    rw [take_resolvers, if_pos rfl]
    rfl
  by_cases hid : id = d.id
  · have inside : (c.take f d).inside id = some f := if_pos hid
    rw [sound.product_inside inside, mine, hid, product_free free, empty]
  · have inside : (c.take f d).inside id = c.inside id := if_neg hid
    cases hin : c.inside id with
    | none => rw [product_free (inside.trans hin), product_free hin]; rfl
    | some g =>
      rw [sound.product_inside (inside.trans hin), h.product_inside hin]
      by_cases hg : g = f
      · have before : (c.resolvers f).leaving id = none := by
          unfold Resolver.leaving
          rw [errand]
        rw [hg, mine, before]
      · rw [take_resolvers, if_neg hg]

/-- Who leaves a slot puts there what it has made. -/
theorem Sound.product_left (h : Sound c) (errand : (c.resolvers f).errand = .leave result)
    (hj : (c.resolvers f).jobs = j :: jobs) (scope : j.definition.scope = .singleton)
    (id : String) :
    ((c.close j.definition result).turn f
      { c.resolvers f with errand := Resolver.report j.definition result, jobs }).product id
        = c.product id := by
  have sound := h.left errand hj scope
  have slot := h.close_slot hj scope result id
  have was : (c.resolvers f).leaving id
      = if j.definition.id = id then result.toOption else none := by
    unfold Resolver.leaving
    rw [errand, hj]
    cases result with
    | ok i => rfl
    | error e => exact (ite_self none).symm
  -- What was to be left is in the slot now, and all other slots are as they were.
  by_cases hid : id = j.definition.id
  · have gone : (c.close j.definition result).inside id = none := by
      rw [close_inside scope, if_pos hid]
    have inside := h.inside_top hj scope
    rw [← hid] at inside
    rw [if_pos hid] at slot
    rw [product_free (c := (c.close j.definition result).turn f _) gone,
      h.product_inside inside, was, if_pos hid.symm]
    exact slot
  · have inside : (c.close j.definition result).inside id = c.inside id := by
      rw [close_inside scope, if_neg hid]
    rw [if_neg hid] at slot
    cases hin : c.inside id with
    | none =>
      rw [product_free hin,
        product_free (c := (c.close j.definition result).turn f _) (inside.trans hin)]
      exact slot
    | some g =>
      rw [h.product_inside hin, sound.product_inside (inside.trans hin), turn_resolvers,
        close_resolvers]
      by_cases hg : g = f
      · rw [hg, was, if_pos rfl, if_neg (Ne.symm hid)]
        cases result <;> rfl
      · rw [if_neg hg]

/-! ### Crews with their books -/

/-- What the log of a crew tells. -/
structure Booked (c : Crew K) : Prop where
  sound : Sound c
  warranted : ∀ e ∈ c.log, Warranted c.store e
  /-- What there is of a singleton was made by its factory, which has made nothing else. -/
  made : ∀ d gf, c.store.definition? d.id = some d → d.scope = .singleton →
    d.factory = .make gf → ComponentHost.made d.id c.log = (c.product d.id).toList

namespace Booked

/-- Nothing was made of what is not registered, and nobody is inside. -/
theorem unknown (h : Booked c) (hd : c.store.definition? id = none) :
    ComponentHost.made id c.log = [] ∧ c.product id = none := by
  -- A run would be of a registered definition, and so would a slot.
  have noRuns : runsOf id c.log = [] := by
    refine List.eq_nil_iff_forall_not_mem.mpr fun run hrun => ?_
    obtain ⟨logged, rfl⟩ := mem_runsOf.mp hrun
    rw [(h.warranted _ logged).1] at hd
    cases hd
  have slot : c.store.slot? id = none := Store.slot?_of_definition?_none hd
  refine ⟨by rw [ComponentHost.made, noRuns]; rfl, ?_⟩
  rw [product_free, slot]
  refine Option.eq_none_iff_forall_ne_some.mpr fun f hf => ?_
  obtain ⟨j, hj, rfl, _⟩ := Resolver.mem_holds.mp ((h.sound.inside id f).mp hf)
  rw [((h.sound.resolvers f).jobs j hj).registered] at hd
  cases hd

theorem named {store : Store K} (h : Booked c) (grown : c.store.Grown store)
    (valid : c.store.Valid → store.Valid) (slots : ∀ id, store.slot? id = c.store.slot? id) :
    Booked { c with store } where
  sound := h.sound.named grown valid slots
  warranted e he := (h.warranted e he).grown grown
  made d gf hd scope factory := by
    have same : ({ c with store } : Crew K).product d.id = c.product d.id := by
      simp only [product, slots]
    rw [same]
    -- What is new has not been made by anybody, and all else is as it was.
    cases hold : c.store.definition? d.id with
    | none =>
      obtain ⟨noRuns, none⟩ := h.unknown hold
      show ComponentHost.made d.id c.log = _
      rw [noRuns, none]
      rfl
    | some d' =>
      obtain rfl : d' = d := Option.some.inj ((grown.definitions hold).symm.trans hd)
      exact h.made d' gf hold scope factory

theorem turned (h : Booked c) (ht : Turn c.store (c.resolvers f) r events) :
    Booked (c.turn f r events) where
  sound := h.sound.turned ht
  warranted e he := by
    rcases List.mem_append.mp he with old | new
    · exact h.warranted e old
    · exact ht.logged (h.sound.resolvers f) e new
  made d gf hd scope factory := by
    show ComponentHost.made d.id (c.log ++ events) = _
    rw [made_append, h.made d gf hd scope factory, h.sound.product_turned ht hd scope factory]

theorem taken (h : Booked c) (errand : (c.resolvers f).errand = .enter d)
    (new : d.id ∉ (c.resolvers f).path) (scope : d.scope = .singleton)
    (empty : c.store.slot? d.id = none) (free : c.inside d.id = none) : Booked (c.take f d) := by
  have log : (c.take f d).log = c.log := List.append_nil _
  refine ⟨h.sound.taken errand new scope empty free, by rw [log]; exact h.warranted,
    fun d' gf hd' scope' factory => ?_⟩
  rw [log, h.sound.product_taken errand new scope empty free]
  exact h.made d' gf hd' scope' factory

theorem left (h : Booked c) (errand : (c.resolvers f).errand = .leave result)
    (hj : (c.resolvers f).jobs = j :: jobs) (scope : j.definition.scope = .singleton) :
    Booked ((c.close j.definition result).turn f
      { c.resolvers f with errand := Resolver.report j.definition result, jobs }) := by
  have filled := h.sound.close_grown hj scope result
  have log : ((c.close j.definition result).turn f
      { c.resolvers f with errand := Resolver.report j.definition result, jobs }).log = c.log :=
    (List.append_nil _).trans (close_log _ _)
  refine ⟨h.sound.left errand hj scope, ?_, fun d gf hd scope' factory => ?_⟩
  · rw [log]
    exact fun e he => (h.warranted e he).grown filled.grown
  -- Filling a slot registers nothing, so the definition was there before.
  · have old : c.store.definition? d.id = some d := by
      rw [← filled.definitions]
      exact hd
    rw [log, h.sound.product_left errand hj scope]
    exact h.made d gf old scope' factory

/-- Every step keeps the books. -/
theorem step (h : Booked c) (hs : Step c c') : Booked c' := by
  cases hs with
  | named grown valid slots => exact h.named grown valid slots
  | turned ht => exact h.turned ht
  | taken errand new scope empty free => exact h.taken errand new scope empty free
  | left errand hj scope => exact h.left errand hj scope

theorem start : Booked ({} : Crew K) where
  sound := .start
  warranted := nofun
  made d gf hd := by cases hd

end Booked

/-- In every crew that can be reached the books are in order. -/
theorem Reachable.booked (h : Reachable c) : Booked c := h.induction .start fun hp hs => hp.step hs

/-! ### One singleton -/

/-- What the log and the resolvers tell of a singleton. -/
structure Shared (c : Crew K) (d : Definition K) : Prop where
  /-- Its factory has succeeded at most once. -/
  once : (ComponentHost.made d.id c.log).length ≤ 1
  /-- What is in its slot is what its factory has made, if it has one. -/
  kept : ∀ gf i, d.factory = .make gf → c.store.slot? d.id = some i →
    ComponentHost.made d.id c.log = [i]
  /-- No two resolvers are making it, so no two runs of its factory overlap. -/
  alone : ∀ f g, d.id ∈ (c.resolvers f).path → d.id ∈ (c.resolvers g).path → f = g
  /-- Nor does a resolver make it within itself. -/
  nested : ∀ f, (c.resolvers f).path.Nodup
  /-- All callers and all factories that ever got it have it from the slot. -/
  handed : ∀ i ∈ c.store.ofId d.id (handedOut c.log), c.store.slot? d.id = some i
  /-- So has every job that is given it, whatever comes of the job. -/
  carried : ∀ f i, (c.resolvers f).errand = .hand d i ∨
    (∃ j ∈ (c.resolvers f).jobs, i ∈ c.store.ofId d.id j.gathered) → c.store.slot? d.id = some i
  /-- A run that fails or panics puts nothing into the slot. -/
  failed : ∀ f stop c', c.step (.finish f (.error stop)) = some c' →
    (c.resolvers f).path.head? = some d.id →
      c'.store.slot? d.id = none ∧ ∃ e, (c'.resolvers f).errand = .leave (.error e)
  /-- A resolver that could not make it leaves the slot empty and free. -/
  freed : ∀ f e, (c.resolvers f).errand = .leave (.error e) →
    (c.resolvers f).path.head? = some d.id → ∃ c', c.step (.go f) = some c' ∧
      c'.store.slot? d.id = none ∧ c'.inside d.id = none
  /-- A resolver that needs it finds it in the slot, or enters the slot, or waits for another one
      that is making it. -/
  retried : ∀ f, (c.resolvers f).errand = .enter d → d.id ∉ (c.resolvers f).path →
    (∃ i c', c.store.slot? d.id = some i ∧ c.step (.go f) = some c' ∧
      (c'.resolvers f).errand = .hand d i) ∨
    (c.store.slot? d.id = none ∧ c.inside d.id = none ∧ ∃ c', c.step (.go f) = some c' ∧
      c'.inside d.id = some f) ∨
    ∃ g, g ≠ f ∧ c.inside d.id = some g ∧ d.id ∈ (c.resolvers g).path

/-- What was got under a name of a singleton is what is in the slot. -/
theorem Given.slot {p : String × Instance K} (h : Given s p) (hn : s.canonical? p.1 = some d.id)
    (hd : s.definition? d.id = some d) (scope : d.scope = .singleton) :
    s.slot? d.id = some p.2 := by
  obtain ⟨d', stands, registered, slot⟩ := h
  have hid : d'.id = d.id := Option.some.inj (stands.symm.trans hn)
  rw [hid, hd] at registered
  cases registered
  exact slot scope

/-- A resolver that is making a singleton is inside its slot. -/
theorem Sound.inside_of_path (h : Sound c) (hd : c.store.definition? d.id = some d)
    (scope : d.scope = .singleton) (hf : d.id ∈ (c.resolvers f).path) :
    c.inside d.id = some f := by
  obtain ⟨j, hj, hid⟩ := List.mem_map.mp hf
  refine (h.inside _ f).mpr (Resolver.mem_holds.mpr ⟨j, hj, hid, ?_⟩)
  rw [(h.resolvers f).job_eq hj hd hid]
  exact scope

/-- The innermost job of a resolver, from the path. -/
theorem Resolver.head_of_path (h : r.path.head? = some id) :
    ∃ j jobs, r.jobs = j :: jobs ∧ j.definition.id = id := by
  unfold path at h
  cases hj : r.jobs with
  | nil => rw [hj] at h; cases h
  | cons j jobs =>
    rw [hj] at h
    exact ⟨j, jobs, rfl, Option.some.inj h⟩

theorem Booked.shared (h : Booked c) (hd : c.store.definition? d.id = some d)
    (scope : d.scope = .singleton) : Shared c d where
  once := by
    -- By the books no more were made than there are now, which is one at most.
    cases hf : d.factory with
    | make gf =>
      rw [h.made d gf hd scope hf]
      cases c.product d.id <;> simp
    -- A definition that holds its instance has no factory that could have run.
    | existing held =>
      have noRuns : runsOf d.id c.log = [] := by
        refine List.eq_nil_iff_forall_not_mem.mpr fun run hrun => ?_
        obtain ⟨logged, hid⟩ := mem_runsOf.mp hrun
        obtain ⟨registered, ⟨gf, factory⟩, _⟩ := h.warranted _ logged
        rw [hid, hd] at registered
        cases registered
        rw [hf] at factory
        cases factory
      rw [ComponentHost.made, noRuns]
      exact Nat.zero_le 1
  kept gf i factory slot := by
    rw [h.made d gf hd scope factory, product_of_slot slot]
    rfl
  alone f g hf hg := by
    -- Both are inside the slot, and only one can be.
    have inside := h.sound.inside_of_path hd scope hf
    rw [h.sound.inside_of_path hd scope hg] at inside
    exact (Option.some.inj inside).symm
  nested f := (h.sound.resolvers f).once
  handed i hi := by
    obtain ⟨name, mem, stands⟩ := Store.mem_ofId.mp hi
    obtain ⟨e, logged, mem⟩ := List.mem_flatMap.mp mem
    exact ((h.warranted e logged).given mem).slot stands hd scope
  carried f i hi := by
    have sound := h.sound.resolvers f
    rcases hi with errand | ⟨j, hj, hi⟩
    · have he := sound.errand
      rw [errand] at he
      exact he.2 scope
    · obtain ⟨name, mem, stands⟩ := Store.mem_ofId.mp hi
      exact ((sound.jobs j hj).gathered _ mem).slot stands hd scope
  failed f stop c' hs head := by
    obtain ⟨j, jobs, hj, hid⟩ := Resolver.head_of_path head
    -- It is inside the slot, which is empty as long as somebody is.
    have mem : d.id ∈ (c.resolvers f).path := List.mem_of_mem_head? head
    have empty := h.sound.vacant _ f (h.sound.inside_of_path hd scope mem)
    simp only [Crew.step, hj] at hs
    split at hs
    · next _ _ errand hjobs =>
      cases hjobs
      cases hs
      refine ⟨empty, .construction j.definition.id (Resolution.stopMessage stop), ?_⟩
      rw [turn_resolvers, if_pos rfl]
      rfl
    · cases hs
  freed f e errand head := by
    obtain ⟨j, jobs, hj, hid⟩ := Resolver.head_of_path head
    have hjd := (h.sound.resolvers f).job_eq (by rw [hj]; exact List.mem_cons_self) hd hid
    subst hjd
    -- Its next step closes the slot: nothing is put there, and nobody is inside any more.
    refine ⟨(c.close j.definition (.error e)).turn f { c.resolvers f with errand := .fail e, jobs },
      by simp only [Crew.step, advance, errand, hj, Resolver.report], ?_, ?_⟩
    · have slot := h.sound.close_slot hj scope (.error e) j.definition.id
      rw [if_pos rfl] at slot
      exact slot
    · have inside := close_inside (c := c) scope (.error e) j.definition.id
      rw [if_pos rfl] at inside
      exact inside
  retried f errand new := by
    -- What its next step does depends on the slot, and on who is inside.
    cases hs : c.store.slot? d.id with
    | some i =>
      refine .inl ⟨i, c.turn f { c.resolvers f with errand := .hand d i }, rfl,
        by simp only [Crew.step, advance, errand, new, scope, hs, if_false], ?_⟩
      rw [turn_resolvers, if_pos rfl]
    | none =>
      cases hin : c.inside d.id with
      | none =>
        refine .inr (.inl ⟨rfl, rfl, c.take f d, ?_, if_pos rfl⟩)
        simp only [Crew.step, advance, errand, new, scope, hs, hin, if_false]
      | some g =>
        obtain ⟨j, hj, hid, _⟩ := Resolver.mem_holds.mp ((h.sound.inside _ g).mp hin)
        have making : d.id ∈ (c.resolvers g).path := List.mem_map.mpr ⟨j, hj, hid⟩
        exact .inr (.inr ⟨g, fun hg => new (hg ▸ making), rfl, making⟩)

/-- **Singletons are shared.** Any number of flows resolve names on one store, step by step and in
    any order, factories succeed, fail and panic as they like, and others register definitions and
    aliases meanwhile. Of every singleton: its factory succeeds at most once, and no two runs of it
    overlap; whoever gets it, as a caller or for a factory, gets what is in the slot; and a run that
    fails fills nothing and holds up nobody. -/
theorem singletons_shared (h : Reachable c) (hd : c.store.definition? d.id = some d)
    (scope : d.scope = .singleton) : Shared c d := h.booked.shared hd scope

/-! ### A run that fails while another resolver waits -/

def solitary : Definition Partners.kit := { id := "a", type := ⟨"A"⟩, factory := .make () }

/-- Two resolvers are asked for the same singleton. One enters the slot, the other one waits; the
    factory fails, the other one enters the slot, and its run succeeds. -/
def relayed : List (Act Partners.kit) :=
  .register solitary :: .call 0 "a" :: List.replicate 5 (.go 0)
    ++ .call 1 "a" :: List.replicate 3 (.go 1)
    ++ [.finish 0 (.error (.panicked none)), .go 0, .go 1, .go 1, .finish 1 (.ok (.component ()))]
    ++ [.go 0, .go 1, .go 1]

theorem singletons_shared_relayed :
    ∃ c : Crew Partners.kit, run {} relayed = some c ∧
      c.store.definition? "a" = some solitary ∧ Shared c solitary ∧
      (runsOf "a" c.log).map (·.outcome.isOk) = [false, true] ∧ handedOut c.log ≠ [] := by
  obtain ⟨c, hc⟩ := Option.isSome_iff_exists.mp
    (show (run {} relayed).isSome by decide +kernel)
  have value : c = (run {} relayed).getD {} := by rw [hc]; rfl
  have registered : c.store.definition? "a" = some solitary := by rw [value]; rfl
  refine ⟨c, hc, registered, singletons_shared ⟨relayed, hc⟩ registered rfl, ?_, ?_⟩
  · rw [value]
    decide +kernel
  · rw [value]
    decide +kernel

end Crew

end ComponentHost
