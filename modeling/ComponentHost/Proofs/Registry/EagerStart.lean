import ComponentHost.Proofs.Registry.Callbacks
import ComponentHost.Proofs.Registry.Failures
import ComponentHost.Proofs.Registry.Ledger

/-! # Making all singletons ahead of time

  The definitions of a store are gone through in the order of their registration. Every singleton is
  attempted, also after others have failed; a prototype is passed over.

  - A `Round` goes from a site to a site by such visits, one for each definition.
  - A tally of visits is what their list tells (`Tally.counting`), so the counts, the first failure
    and the printed lines are read off the list.
  - What a visit has settled stays settled (`Visit.Settled`), since slots keep their instances.
    Where no visit has failed, going through the definitions again finds everything in slots.
-/

namespace ComponentHost

open Relation Resolution

variable {K : Kit} {τ : Type}

/-! ### Visits -/

/-- What becomes of a definition when all singletons are made. -/
inductive Visit (K : Kit)
  /-- It is a prototype, which is passed over. -/
  | passed (d : Definition K)
  /-- It is a singleton, whose resolution is attempted. -/
  | attempted (d : Definition K) (outcome : Except Error (Instance K))

namespace Visit

def definition : Visit K → Definition K
  | passed d | attempted d _ => d

def error? : Visit K → Option Error
  | attempted _ (.error e) => some e
  | attempted _ (.ok _) | passed _ => none

def isMade : Visit K → Bool
  | attempted _ (.ok _) => true
  | attempted _ (.error _) | passed _ => false

def isPassed : Visit K → Bool
  | passed _ => true
  | attempted .. => false

/-- The line that is printed for the definition. -/
def line : Visit K → String
  | passed d => Console.subTask d.id "prototype (created on demand)"
  | attempted d (.ok _) => Console.subTask d.id "✓ Created"
  | attempted d (.error e) => Console.subTask d.id ("✗ " ++ e.message)

def count (t : Tally) : Visit K → Tally
  | passed d => t.addPrototype d.id
  | attempted d (.ok _) => t.addCreated d.id
  | attempted d (.error e) => t.addFailed d.id e

/-- What the visit says of a store: a definition that was attempted is registered, and its instance
    is in its slot if the attempt succeeded. -/
def Settled (st : Store K) : Visit K → Prop
  | passed d => d.scope = .prototype
  | attempted d outcome => d.scope = .singleton ∧ st.definition? d.id = some d ∧
      ∀ i, outcome = .ok i → st.slot? d.id = some i

theorem Settled.filled {st st' : Store K} {v : Visit K} (h : v.Settled st) (hf : st.Filled st') :
    v.Settled st' := by
  cases v with
  | passed d => exact h
  | attempted d outcome =>
    obtain ⟨scope, registered, slot⟩ := h
    exact ⟨scope, hf.grown.definitions registered, fun i hi => hf.slots (slot i hi)⟩

/-- An attempt that has not failed has succeeded. -/
theorem exists_ok {d : Definition K} {outcome : Except Error (Instance K)}
    (h : (attempted d outcome).error? = none) : ∃ i, outcome = .ok i := by
  cases outcome with
  | error e => cases h
  | ok i => exact ⟨i, rfl⟩

end Visit

/-- Definitions are visited one after the other, whatever becomes of those before. -/
inductive Round (f : Factories K τ) (limit : Nat) : Site K τ → List (Visit K) → Site K τ → Prop
  /-- No definition is left. -/
  | done {s} : Round f limit s [] s
  /-- The next one is a prototype: nothing is done. -/
  | passes {s d visits s'} (scope : d.scope = .prototype)
      (others : Round f limit s visits s') : Round f limit s (.passed d :: visits) s'
  /-- The next one is a singleton: it is resolved. -/
  | attempts {s d r s₁ visits s'} (scope : d.scope = .singleton)
      (one : instantiate f.maker limit d.id s = (r, s₁))
      (others : Round f limit s₁ visits s') : Round f limit s (.attempted d r :: visits) s'

/-! ### Tallies -/

namespace Resolution.Tally

def counting (t : Tally) (visits : List (Visit K)) : Tally where
  created := t.created + visits.countP Visit.isMade
  prototypes := t.prototypes + visits.countP Visit.isPassed
  failed := t.failed + visits.countP (·.error?.isSome)
  firstError := t.firstError <|> visits.findSome? Visit.error?
  output := t.output ++ String.join (visits.map Visit.line)

theorem counting_nil (t : Tally) : t.counting ([] : List (Visit K)) = t := by
  simp [counting]

/-- Visits may be counted one by one. -/
theorem counting_cons (t : Tally) (v : Visit K) (visits : List (Visit K)) :
    t.counting (v :: visits) = (v.count t).counting visits := by
  have sum (m n : Nat) : m + 1 + n = m + (n + 1) := by omega
  unfold counting
  simp only [List.countP_cons, List.findSome?_cons, List.map_cons, String.join_cons,
    ← String.append_assoc]
  rcases v with d | ⟨d, e | i⟩
  · simp [Visit.count, Visit.isMade, Visit.isPassed, Visit.error?, Visit.line, addPrototype, sum]
  · cases hfirst : t.firstError <;>
      simp [Visit.count, Visit.isMade, Visit.isPassed, Visit.error?, Visit.line, addFailed, sum,
        hfirst]
  · simp [Visit.count, Visit.isMade, Visit.isPassed, Visit.error?, Visit.line, addCreated, sum]

/-- Every visit is counted once. -/
theorem counting_total (visits : List (Visit K)) :
    let t := counting {} visits
    t.created + t.prototypes + t.failed = visits.length := by
  show 0 + visits.countP Visit.isMade + (0 + visits.countP Visit.isPassed)
    + (0 + visits.countP (·.error?.isSome)) = visits.length
  induction visits with
  | nil => rfl
  | cons v rest ih =>
    -- Each visit is counted exactly once.
    have one : (if v.isMade then 1 else 0) + (if v.isPassed then 1 else 0)
        + (if v.error?.isSome then 1 else 0) = 1 := by
      rcases v with d | ⟨d, e | i⟩ <;> rfl
    simp only [List.countP_cons, List.length_cons]
    omega

end Resolution.Tally

/-! ### Rounds -/

variable {f : Factories K τ} {limit : Nat} {s s' s₁ : Site K τ} {d : Definition K} {i : Instance K}
  {visits : List (Visit K)} {r : Except Error (Instance K)} {name : String}

namespace Resolution

section Steps

variable {σ : Type} [HasStore K σ] {maker : Maker K σ} {ds : List (Definition K)} {s s₁ : σ}

theorem makeSingletons_prototype (t : Tally) (hd : d.scope = .prototype) :
    makeSingletons maker limit t (d :: ds) s
      = makeSingletons maker limit (Visit.count t (.passed d)) ds s := by
  rw [makeSingletons]
  simp only [hd]
  rfl

theorem makeSingletons_singleton (t : Tally) (hd : d.scope = .singleton)
    (h : instantiate maker limit d.id s = (r, s₁)) :
    makeSingletons maker limit t (d :: ds) s
      = makeSingletons maker limit (Visit.count t (.attempted d r)) ds s₁ := by
  rw [makeSingletons]
  simp only [hd, bind, StateT.bind, ExceptT.run, h]
  cases r <;> rfl

end Steps

/-- Making all singletons among some definitions is a round of visits to them, which are counted. -/
theorem makeSingletons_round (f : Factories K τ) (limit : Nat) (t : Tally)
    (ds : List (Definition K)) (s : Site K τ) :
    ∃ visits, visits.map Visit.definition = ds ∧
      Round f limit s visits (makeSingletons f.maker limit t ds s).2 ∧
      (makeSingletons f.maker limit t ds s).1 = t.counting visits := by
  -- Along the definitions, from whatever site and tally the earlier ones have left.
  induction ds generalizing t s with
  | nil => exact ⟨[], rfl, .done, (Tally.counting_nil t).symm⟩
  | cons d rest ih =>
    cases hd : d.scope with
    | prototype =>
      rw [makeSingletons_prototype t hd]
      obtain ⟨visits, hds, round, tally⟩ := ih (Visit.count t (.passed d)) s
      exact ⟨.passed d :: visits, by rw [List.map_cons, hds]; rfl, .passes hd round,
        by rw [tally, Tally.counting_cons]⟩
    | singleton =>
      rcases hi : instantiate f.maker limit d.id s with ⟨r, s₁⟩
      rw [makeSingletons_singleton t hd hi]
      obtain ⟨visits, hds, round, tally⟩ := ih (Visit.count t (.attempted d r)) s₁
      exact ⟨.attempted d r :: visits, by rw [List.map_cons, hds]; rfl, .attempts hd hi round,
        by rw [tally, Tally.counting_cons]⟩

/-- Visits that have settled everything are the same again, and nothing is done. -/
theorem makeSingletons_again (limit : Nat) (t : Tally) (hv : s.store.Valid)
    (settled : ∀ v ∈ visits, v.Settled s.store) (fine : ∀ v ∈ visits, v.error? = none) :
    makeSingletons f.maker limit t (visits.map Visit.definition) s = (t.counting visits, s) := by
  induction visits generalizing t with
  | nil =>
    rw [Tally.counting_nil]
    rfl
  | cons v rest ih =>
    have others (t : Tally) :=
      ih t (fun v hv => settled v (List.mem_cons_of_mem _ hv))
        (fun v hv => fine v (List.mem_cons_of_mem _ hv))
    have here := settled v List.mem_cons_self
    rw [Tally.counting_cons, List.map_cons]
    cases v with
    | passed d =>
      rw [show (Visit.passed d).definition = d from rfl, makeSingletons_prototype t here]
      exact others _
    | attempted d outcome =>
      obtain ⟨i, rfl⟩ := Visit.exists_ok (fine _ List.mem_cons_self)
      obtain ⟨scope, registered, slot⟩ := here
      -- The instance is in the slot, so it is found at once.
      obtain ⟨e, he, hget, -⟩ := hv.lookup?_of_canonical? (Store.canonical?_id registered)
      have hslot : e.slot = some i := (Store.slot?_of_get? hget).symm.trans (slot i rfl)
      have found : instantiate f.maker limit d.id s = (.ok i, s) := instantiate_found he hslot
      rw [show (Visit.attempted d (.ok i)).definition = d from rfl,
        makeSingletons_singleton t scope found]
      exact others _

end Resolution

/-! ### What an attempt leaves -/

/-- The factories that run in a resolution are those of definitions that are reachable from what is
    to be resolved. -/
theorem Resolves.runs {path : List String} {g : Goal K}
    {r : Except Error (List (String × Instance K))} (h : Resolves f path g s r s')
    (hv : s.store.Valid) (hg : g.Registered s.store) :
    ∃ new, s'.log = s.log ++ new ∧ ∀ run, .ran run ∈ new → g.Reaches s.store run.definition.id := by
  -- A definition runs after its dependencies, which are below it.
  have own {d : Definition K} {s s₁ : Site K τ} {outcome : Except Stop (Instance K)}
      {given : List (String × Instance K)} (hg : s.store.definition? d.id = some d)
      (below : ∃ new, s₁.log = s.log ++ new ∧
        ∀ run, .ran run ∈ new → (Goal.names d.dependencies).Reaches s.store run.definition.id) :
      ∃ new, s₁.log ++ [.ran ⟨d, given, outcome⟩] = s.log ++ new ∧
        ∀ run, .ran run ∈ new → (Goal.definition d).Reaches s.store run.definition.id := by
    obtain ⟨new, hnew, reached⟩ := below
    refine ⟨new ++ [.ran ⟨d, given, outcome⟩], by rw [hnew, List.append_assoc], ?_⟩
    intro run hrun
    rcases List.mem_append.mp hrun with hrun | hrun
    · exact (reached run hrun).below hg
    · cases List.mem_singleton.mp hrun
      exact ⟨d.id, rfl, .refl⟩
  induction h with
  | tooDeep | cycle | found | nil | missing => exact ⟨[], by simp⟩
  | unresolved _ _ _ ih | existing _ _ _ _ ih =>
    obtain ⟨new, hnew, reached⟩ := ih hv trivial
    exact ⟨new, by simpa using hnew, fun run hrun => (reached run hrun).below hg⟩
  | made _ _ _ _ _ ih =>
    rw [Site.keep_log]
    exact own hg (ih hv trivial)
  | stopped _ _ _ _ _ ih => exact own hg (ih hv trivial)
  | cached _ _ _ ih =>
    obtain ⟨new, hnew, reached⟩ := ih hv trivial
    exact ⟨new, hnew, fun run hrun => (reached run hrun).cons⟩
  | failed hl _ _ ih =>
    obtain ⟨new, hnew, reached⟩ := ih hv (Site.definition?_of_lookup? hv hl)
    refine ⟨new, hnew, fun run hrun => ?_⟩
    obtain ⟨_, rfl, reached⟩ := reached run hrun
    exact .of_mem List.mem_cons_self (hv.canonical?_of_lookup? hl).1 reached
  | resolved hl _ one _ ihone ih =>
    have hd := Site.definition?_of_lookup? hv hl
    have hf := (one.spares hv hd).filled
    obtain ⟨first, hfirst, reachedone⟩ := ihone hv hd
    obtain ⟨second, hsecond, reached⟩ := ih (hv.of_filled hf) trivial
    refine ⟨first ++ second, by rw [hsecond, hfirst, List.append_assoc], fun run hrun => ?_⟩
    rcases List.mem_append.mp hrun with hrun | hrun
    · obtain ⟨_, rfl, reached⟩ := reachedone run hrun
      exact .of_mem List.mem_cons_self (hv.canonical?_of_lookup? hl).1 reached
    · exact ((reached run hrun).filled hf).cons

/-- From one site to another slots were filled, and factories ran that are reachable from some
    ids. -/
structure Worked (ids : List String) (s s' : Site K τ) : Prop where
  /-- Only slots have changed in the store. -/
  filled : s.store.Filled s'.store
  /-- The definitions are the same, in the same order. -/
  definitions : s'.store.definitions = s.store.definitions
  /-- The factories that ran are those of definitions that are reachable from the ids. -/
  runs : ∃ new, s'.log = s.log ++ new ∧
    ∀ run, .ran run ∈ new → ∃ id ∈ ids, ReflTransGen s.store.Edge id run.definition.id

namespace Worked

theorem refl (s : Site K τ) : Worked [] s s :=
  ⟨.refl _, rfl, [], by simp⟩

theorem trans {ids ids' : List String} (h : Worked ids s s₁) (h' : Worked ids' s₁ s') :
    Worked (ids ++ ids') s s' := by
  obtain ⟨new, hnew, runs⟩ := h.runs
  obtain ⟨new', hnew', runs'⟩ := h'.runs
  refine ⟨h.filled.trans h'.filled, h'.definitions.trans h.definitions, new ++ new',
    by rw [hnew', hnew, List.append_assoc], ?_⟩
  intro run hrun
  rcases List.mem_append.mp hrun with hrun | hrun
  · obtain ⟨id, hid, reached⟩ := runs run hrun
    exact ⟨id, List.mem_append_left _ hid, reached⟩
  · obtain ⟨id, hid, reached⟩ := runs' run hrun
    rw [h.filled.edge_eq] at reached
    exact ⟨id, List.mem_append_right _ hid, reached⟩

/-- Resolving the id of a definition. -/
theorem instantiate (hv : s.store.Valid) (hd : s.store.definition? d.id = some d)
    (h : Resolution.instantiate f.maker limit d.id s = (r, s₁)) : Worked [d.id] s s₁ := by
  rcases instantiate_resolves (f := f) limit d.id s with ⟨e, he⟩ | hres
  · rw [he] at h
    cases h
    exact ⟨.refl _, rfl, [], by simp⟩
  · rw [h] at hres
    obtain ⟨new, hnew, reached⟩ := hres.runs hv trivial
    refine ⟨(hres.spares hv trivial).filled, hres.tables.2, new, hnew, fun run hrun => ?_⟩
    -- The run lies below one of the names that were asked for, and there is only one.
    obtain ⟨a, ⟨n, hn, ha⟩, path⟩ := reached run hrun
    obtain rfl := List.mem_singleton.mp hn
    rw [Store.canonical?_id hd] at ha
    cases ha
    exact ⟨d.id, List.mem_singleton_self _, path⟩

end Worked

/-- The instance that a caller gets of a singleton is the one in its slot. -/
theorem Ledger.slot?_of_instantiate (hl : Ledger s []) (hd : s.store.definition? d.id = some d)
    (hs : d.scope = .singleton) (h : Resolution.instantiate f.maker limit d.id s = (.ok i, s₁)) :
    s₁.store.slot? d.id = some i := by
  have hd₁ : s₁.store.definition? d.id = some d :=
    (Worked.instantiate hl.valid hd h).filled.grown.definitions hd
  -- Handed out to a caller it is on the books, and these say that it is in the slot.
  have books : Ledger (s₁.note (.yielded d.id i)) [] := by
    have yielded : Ledger ((Resolution.instantiate f.maker limit d.id s).2.note
        (.yielded d.id i)) [] := hl.yield (congrArg Prod.fst h)
    rwa [h] at yielded
  refine books.shared hd₁ hs i (Store.mem_ofId.mpr ⟨d.id, ?_, Store.canonical?_id hd₁⟩)
  rw [List.append_nil]
  exact List.mem_flatMap.mpr ⟨.yielded d.id i, by simp [Site.note], by simp [Event.handed]⟩

namespace Round

def attempted (visits : List (Visit K)) : List String :=
  (visits.filter (!·.isPassed)).map (·.definition.id)

/-- A round to registered definitions keeps the books, and settles every visit. -/
theorem settles (h : Round f limit s visits s') (hl : Ledger s [])
    (registered : ∀ v ∈ visits, s.store.definition? v.definition.id = some v.definition) :
    Ledger s' [] ∧ Worked (attempted visits) s s' ∧ ∀ v ∈ visits, v.Settled s'.store := by
  induction h with
  | done => exact ⟨hl, .refl _, by simp⟩
  | passes scope others ih =>
    obtain ⟨hl', worked, settled⟩ := ih hl fun v hv => registered v (List.mem_cons_of_mem _ hv)
    refine ⟨hl', worked, fun v hv => ?_⟩
    rcases List.mem_cons.mp hv with rfl | hv
    · exact scope
    · exact settled v hv
  | @attempts s d r s₁ visits s' scope one others ih =>
    have hd : s.store.definition? d.id = some d := registered _ List.mem_cons_self
    have first : Worked [d.id] s s₁ := .instantiate hl.valid hd one
    have hl₁ : Ledger s₁ [] := by
      have after : Ledger (instantiate f.maker limit d.id s).2 [] := hl.instantiate
      rwa [one] at after
    obtain ⟨hl', worked, settled⟩ := ih hl₁ fun v hv =>
      first.filled.grown.definitions (registered v (List.mem_cons_of_mem _ hv))
    refine ⟨hl', first.trans worked, fun v hv => ?_⟩
    -- What this visit settles stays settled in the others, since they only fill slots.
    rcases List.mem_cons.mp hv with rfl | hv
    · have here : (Visit.attempted d r).Settled s₁.store := by
        refine ⟨scope, first.filled.grown.definitions hd, ?_⟩
        rintro i rfl
        exact hl.slot?_of_instantiate hd scope one
      exact here.filled worked.filled
    · exact settled v hv

end Round

/-! ### The whole round -/

/-- What making all singletons of a site ahead of time does, by visits that are counted in a
    tally. -/
structure EagerStart (f : Factories K τ) (limit : Nat) (s : Site K τ) (visits : List (Visit K))
    (tally : Tally) (s' : Site K τ) : Prop where
  /-- The visits lead from the one site to the other. -/
  round : Round f limit s visits s'
  /-- All definitions are visited, in the order of their registration. -/
  order : visits.map Visit.definition = s.store.definitions
  /-- The store changes in slots alone, which keep their instances. -/
  filled : s.store.Filled s'.store
  /-- A factory runs for a singleton that is attempted: that of a prototype only where one depends
      on it. -/
  onDemand : ∃ new, s'.log = s.log ++ new ∧ ∀ run, .ran run ∈ new →
    ∃ d outcome, .attempted d outcome ∈ visits ∧ ReflTransGen s.store.Edge d.id run.definition.id
  /-- A singleton whose attempt has succeeded is in its slot. -/
  cached : ∀ d i, .attempted d (.ok i) ∈ visits → s'.store.slot? d.id = some i
  /-- It succeeds if and only if no attempt has failed. -/
  succeeds : (∃ n, tally.result = .ok n) ↔ ∀ v ∈ visits, v.error? = none
  /-- If it succeeds, the number is that of the singletons, and all of them are in their slots.
      Doing it again has the same result, and changes nothing: no factory runs and no slot is
      filled. -/
  complete : ∀ n, tally.result = .ok n →
    n = s.store.definitions.countP (·.scope = .singleton) ∧
    (∀ d ∈ s.store.definitions, d.scope = .singleton → ∃ i, s'.store.slot? d.id = some i) ∧
    ∀ limit', initializeSingletons f.maker limit' s' = (tally, s')
  /-- If it fails, the error is that of the first attempt that has failed. -/
  first : ∀ e, tally.result = .error e → ∃ before d after,
    visits = before ++ .attempted d (.error e) :: after ∧ ∀ v ∈ before, v.error? = none
  /-- Every definition is counted once. -/
  counted : tally.created + tally.prototypes + tally.failed = s.store.size
  /-- One line is printed for each definition, between the titles and the summary. -/
  printed : tally.report = Console.boxedTitle "🔄 INITIALIZING CONTAINER"
    ++ Console.stepStart 1 "Creating singleton instances" ++ String.join (visits.map Visit.line)
    ++ Console.stepComplete 1 "Singleton instances created" tally.created
    ++ Console.summary tally.created tally.prototypes tally.failed

/-- The first failure among visits is the one that is reported. -/
theorem result_counting (visits : List (Visit K)) : (Tally.counting {} visits).result
    = match visits.findSome? Visit.error? with
      | some e => .error e
      | none => .ok (visits.countP Visit.isMade) := by
  simp only [Tally.result, Tally.counting, Nat.zero_add]
  rfl

/-- Where no attempt has failed, as many have succeeded as there are singletons. -/
theorem countP_isMade {st : Store K} (settled : ∀ v ∈ visits, v.Settled st)
    (fine : ∀ v ∈ visits, v.error? = none) :
    visits.countP Visit.isMade
      = (visits.map Visit.definition).countP (·.scope = .singleton) := by
  rw [List.countP_map]
  refine List.countP_congr fun v hv => ?_
  have here := settled v hv
  cases v with
  | passed d => simp [Visit.isMade, Visit.definition, show d.scope = .prototype from here]
  | attempted d outcome =>
    obtain ⟨i, rfl⟩ := Visit.exists_ok (fine _ hv)
    simp [Visit.isMade, Visit.definition, here.1]

/-- A round to all definitions of a typed store whose books are in order. -/
theorem Round.eagerStart (h : Round f limit s visits s') (hl : Ledger s []) (ht : s.store.Typed)
    (order : visits.map Visit.definition = s.store.definitions) :
    EagerStart f limit s visits (Tally.counting {} visits) s' := by
  have listed (v : Visit K) (hv : v ∈ visits) : v.definition ∈ s.store.definitions :=
    order ▸ List.mem_map_of_mem hv
  obtain ⟨hl', worked, settled⟩ := h.settles hl fun v hv => ht.definition?_of_mem (listed v hv)
  -- If no attempt has failed then as many were made as there are singletons.
  have fine_of_ok (n : Nat) (hn : (Tally.counting {} visits).result = .ok n) :
      (∀ v ∈ visits, v.error? = none) ∧ n = visits.countP Visit.isMade := by
    rw [result_counting] at hn
    cases hfind : visits.findSome? Visit.error? with
    | some e =>
      rw [hfind] at hn
      cases hn
    | none =>
      rw [hfind] at hn
      cases hn
      exact ⟨List.findSome?_eq_none_iff.mp hfind, rfl⟩
  constructor
  case round => exact h
  case order => exact order
  case filled => exact worked.filled
  case onDemand =>
    obtain ⟨new, hnew, runs⟩ := worked.runs
    refine ⟨new, hnew, fun run hrun => ?_⟩
    obtain ⟨id, hid, reached⟩ := runs run hrun
    -- A factory ran for an id that was attempted, or for something below it.
    obtain ⟨v, hv, rfl⟩ := List.mem_map.mp hid
    obtain ⟨hmem, hturn⟩ := List.mem_filter.mp hv
    cases v with
    | passed d => cases hturn
    | attempted d outcome => exact ⟨d, outcome, hmem, reached⟩
  case cached => exact fun d i hi => (settled _ hi).2.2 i rfl
  case succeeds =>
    constructor
    · rintro ⟨n, hn⟩
      exact (fine_of_ok n hn).1
    · intro fine
      refine ⟨visits.countP Visit.isMade, ?_⟩
      rw [result_counting, List.findSome?_eq_none_iff.mpr fine]
  case complete =>
    intro n hn
    obtain ⟨fine, rfl⟩ := fine_of_ok n hn
    refine ⟨by rw [countP_isMade settled fine, order], ?_, ?_⟩
    · intro d hd hs
      rw [← order] at hd
      obtain ⟨v, hv, rfl⟩ := List.mem_map.mp hd
      have here := settled v hv
      cases v with
      | passed d =>
        cases hs.symm.trans (show d.scope = .prototype from here)
      | attempted d outcome =>
        obtain ⟨i, rfl⟩ := Visit.exists_ok (fine _ hv)
        exact ⟨i, here.2.2 i rfl⟩
    · intro limit'
      -- The definitions are the same, so the second round would be to the same ones.
      show makeSingletons f.maker limit' {} s'.store.definitions s' = _
      rw [worked.definitions, ← order]
      exact makeSingletons_again limit' {} hl'.valid settled fine
  case first =>
    intro e he
    rw [result_counting] at he
    cases hfind : visits.findSome? Visit.error? with
    | none =>
      rw [hfind] at he
      cases he
    | some e' =>
      rw [hfind] at he
      cases he
      obtain ⟨before, v, after, hvisits, hv, fine⟩ := List.findSome?_eq_some_iff.mp hfind
      rcases v with d | ⟨d, e' | i⟩
      · cases hv
      · cases hv
        exact ⟨before, d, after, hvisits, fine⟩
      · cases hv
  case counted =>
    have ids := congrArg List.length ht.valid.map_id_definitions
    have length := congrArg List.length order
    rw [List.length_map] at ids length
    rw [Tally.counting_total, length]
    exact ids
  case printed =>
    show Console.boxedTitle "🔄 INITIALIZING CONTAINER"
      ++ Console.stepStart 1 "Creating singleton instances"
      ++ ("" ++ String.join (visits.map Visit.line)) ++ _ ++ _ = _
    rw [String.empty_append]

namespace Site

/-- At every site the store is typed. -/
theorem typed (f : Factories K τ) (limit : Nat) (rest : τ) (commands : List (Command K)) :
    ((start rest).after f limit commands).store.Typed := by
  -- Factories that cannot call back leave the store alone.
  have tending : Tending f.maker := fun _ _ _ _ ht => .refl ht
  have resolved (s : Site K τ) (name : String) (ht : s.store.Typed) :
      (instantiate f.maker limit name s).2.store.Typed :=
    (instantiate_tended tending limit name s ht).typed
  refine after_induction (P := fun s => s.store.Typed) rest Store.typed_empty ?_ ?_ resolved ?_
    commands
  · intro s d store ht hr
    exact (Store.Tended.register ht hr).typed
  · intro s new name store ht ha
    exact (Store.Tended.addAlias ht ha).typed
  · intro s name i ht _
    exact resolved s name ht

end Site

/-- **Singletons are made ahead of time, completely and once.** Whatever has been done with a store,
    and whatever its factories do: every definition is visited in the order of its registration, and
    what is reported, printed and left in slots is what the visits tell. -/
theorem initializeSingletons_visits (f : Factories K τ) (limit : Nat) (rest : τ)
    (commands : List (Command K)) (limit' : Nat) :
    let s := (Site.start rest).after f limit commands
    let (tally, s') := initializeSingletons f.maker limit' s
    ∃ visits, EagerStart f limit' s visits tally s' := by
  intro s
  obtain ⟨visits, order, round, tally⟩ :=
    makeSingletons_round f limit' {} s.store.definitions s
  have start := round.eagerStart (Site.ledger f limit rest commands)
    (Site.typed f limit rest commands) order
  rw [← tally] at start
  exact ⟨visits, start⟩

end ComponentHost
