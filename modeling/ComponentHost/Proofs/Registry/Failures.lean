import ComponentHost.Proofs.Registry.CycleDetection
import ComponentHost.Proofs.Registry.Ledger

/-! # Resolutions that fail

  A resolution that fails leaves behind what it has made on the way, and nothing else. The failure
  comes from one definition, the culprit, whose own factory has stopped or which depends on a name
  that stands for nothing; it unwinds through all that was being resolved for the sake of it, the
  chain from the definition that was asked for down to the culprit.

  - `Resolves.tables` and `Resolves.fills`: what every resolution leaves alone, and what it may
    fill;
  - `Collapse` is what a failure leaves of its chain: nothing is in a slot on it. `Resolves.fails`
    finds the chain, by induction on the resolution: a definition whose dependency fails comes on
    top of the chain of that dependency;
  - `instantiate_leaves` puts it together for a caller.
-/

namespace ComponentHost

open Relation Resolution

variable {K : Kit} {τ : Type}

variable {f : Factories K τ} {path : List String} {g : Goal K} {s s' s'' : Site K τ}
  {r : Except Error (List (String × Instance K))} {er : Error} {id : String}
  {w : List (String × Instance K)}

namespace Goal

/-- An id is that of a definition that is to be resolved, or that a name stands for. -/
def Starts (st : Store K) (id : String) : Goal K → Prop
  | definition d => id = d.id
  | names ns => ∃ n ∈ ns, st.canonical? n = some id

/-- An id is reachable from what is to be resolved. -/
def Reaches (st : Store K) (id : String) (g : Goal K) : Prop :=
  ∃ a, g.Starts st a ∧ ReflTransGen st.Edge a id

/-- What is reachable from the dependencies of a definition is reachable from the definition. -/
theorem Reaches.below {st : Store K} {d : Definition K} (hd : st.definition? d.id = some d)
    (h : (names d.dependencies).Reaches st id) : (definition d).Reaches st id := by
  obtain ⟨a, ⟨n, hn, ha⟩, reached⟩ := h
  exact ⟨d.id, rfl, .head ⟨d, hd, n, hn, ha⟩ reached⟩

theorem Reaches.of_mem {st : Store K} {n : String} {ns : List String} {a : String} (hn : n ∈ ns)
    (ha : st.canonical? n = some a) (h : ReflTransGen st.Edge a id) : (names ns).Reaches st id :=
  ⟨a, ⟨n, hn, ha⟩, h⟩

theorem Reaches.cons {st : Store K} {n : String} {ns : List String}
    (h : (names ns).Reaches st id) : (names (n :: ns)).Reaches st id := by
  obtain ⟨a, ⟨m, hm, ha⟩, reached⟩ := h
  exact ⟨a, ⟨m, List.mem_cons_of_mem _ hm, ha⟩, reached⟩

theorem Reaches.filled {st st' : Store K} (h : g.Reaches st' id) (hf : st.Filled st') :
    g.Reaches st id := by
  obtain ⟨a, starts, reached⟩ := h
  rw [hf.edge_eq] at reached
  refine ⟨a, ?_, reached⟩
  cases g with
  | definition d => exact starts
  | names ns =>
    show ∃ n ∈ ns, st.canonical? n = some a
    rw [← hf.names]
    exact starts

end Goal

/-! ### What every resolution leaves alone -/

/-- The definitions and the aliases of a store are no matter of resolutions. -/
theorem Resolves.tables (h : Resolves f path g s r s') :
    s'.store.aliases = s.store.aliases ∧ s'.store.definitions = s.store.definitions := by
  -- Only keeping an instance writes to the store.
  have keep (s : Site K τ) (d : Definition K) (i : Instance K) :
      (s.keep d i).store.aliases = s.store.aliases ∧
        (s.keep d i).store.definitions = s.store.definitions := by
    unfold Site.keep
    split
    · exact ⟨Store.aliases_fill .., Store.definitions_fill ..⟩
    · exact ⟨rfl, rfl⟩
  induction h with
  | tooDeep | cycle | found | nil | missing => exact ⟨rfl, rfl⟩
  | unresolved _ _ _ ih | stopped _ _ _ _ _ ih | cached _ _ _ ih | failed _ _ _ ih => exact ih
  | existing _ _ _ _ ih | made _ _ _ _ _ ih =>
    exact ⟨(keep ..).1.trans ih.1, (keep ..).2.trans ih.2⟩
  | resolved _ _ _ _ ihone ih => exact ⟨ih.1.trans ihone.1, ih.2.trans ihone.2⟩

/-- The slot of an id was filled between two sites: it is that of a singleton, and reachable from
    what was to be resolved. -/
def NewlyFilled (g : Goal K) (s : Site K τ) (id : String) : Prop :=
  g.Reaches s.store id ∧ ∃ d, s.store.definition? id = some d ∧ d.scope = .singleton

/-- An instance that is kept fills the slot of the definition that was to be resolved. -/
theorem NewlyFilled.keep {d : Definition K} {i j : Instance K} (hf : s.store.Filled s'.store)
    (hd : s.store.definition? d.id = some d)
    (ih : s'.store.slot? id = some i →
      s.store.slot? id = some i ∨ NewlyFilled (.names d.dependencies) s id)
    (hi : (s'.keep d j).store.slot? id = some i) :
    s.store.slot? id = some i ∨ NewlyFilled (.definition d) s id := by
  have hd' : s'.store.definition? d.id = some d := by rw [hf.definitions, hd]
  rw [Site.slot?_keep hd'] at hi
  -- The slot is that of the definition itself, or one that its dependencies have filled.
  split at hi
  · next own =>
    obtain ⟨rfl, hs⟩ := own
    exact .inr ⟨⟨d.id, rfl, .refl⟩, d, hd, hs⟩
  · rcases ih hi with old | ⟨reached, single⟩
    · exact .inl old
    · exact .inr ⟨reached.below hd, single⟩

/-- A resolution fills slots of singletons that are reachable from what is to be resolved. -/
theorem Resolves.fills (h : Resolves f path g s r s') (hv : s.store.Valid)
    (hg : g.Registered s.store) {i : Instance K} (hi : s'.store.slot? id = some i) :
    s.store.slot? id = some i ∨ NewlyFilled g s id := by
  -- What was resolved on the way filled the slot, or it is that of the definition itself.
  induction h with
  | tooDeep | cycle | found | nil | missing => exact .inl hi
  | unresolved _ _ _ ih | stopped _ _ _ _ _ ih =>
    rcases ih hv trivial hi with old | ⟨reached, single⟩
    · exact .inl old
    · exact .inr ⟨reached.below hg, single⟩
  | existing _ _ deps _ ih =>
    exact NewlyFilled.keep (deps.spares hv trivial).filled hg (ih hv trivial) hi
  | made _ _ deps _ _ ih =>
    rw [Site.keep_ran_store] at hi
    exact NewlyFilled.keep (deps.spares hv trivial).filled hg (ih hv trivial) hi
  | cached _ _ _ ih =>
    rcases ih hv trivial hi with old | ⟨reached, single⟩
    · exact .inl old
    · exact .inr ⟨reached.cons, single⟩
  | failed hl _ _ ih =>
    rcases ih hv (Site.definition?_of_lookup? hv hl) hi with old | ⟨⟨_, rfl, reached⟩, single⟩
    · exact .inl old
    · exact .inr ⟨.of_mem List.mem_cons_self (hv.canonical?_of_lookup? hl).1 reached, single⟩
  | resolved hl _ one _ ihone ih =>
    have hd := Site.definition?_of_lookup? hv hl
    have hf := (one.spares hv hd).filled
    rcases ih (hv.of_filled hf) trivial hi with middle | ⟨reached, single⟩
    · rcases ihone hv hd middle with old | ⟨⟨_, rfl, reached⟩, single⟩
      · exact .inl old
      · exact .inr ⟨.of_mem List.mem_cons_self (hv.canonical?_of_lookup? hl).1 reached, single⟩
    · exact .inr ⟨(reached.filled hf).cons, hf.definitions ▸ single⟩

/-! ### The chain of a failure -/

/-- Why a definition is the culprit of a failure. -/
inductive Blame (s s' : Site K τ) (culprit : Definition K) : Error → Prop
  /-- It depends on a name that stands for nothing. -/
  | missing {n : String} (hn : n ∈ culprit.dependencies) (hl : s.store.canonical? n = none) :
      Blame s s' culprit (.definitionNotFound n)
  /-- Its factory has stopped, as the last thing that has happened. -/
  | stopped {g : K.factory} {given : List (String × Instance K)} {stop : Stop}
      {between : List (Event K)} (hf : culprit.factory = .make g)
      (hlog : s'.log = s.log ++ between ++ [.ran ⟨culprit, given, .error stop⟩]) :
      Blame s s' culprit (.construction culprit.id (stopMessage stop))

/-- What a failure leaves that has come through a chain of definitions, each of which depends on the
    next, down to the culprit: nothing is in their slots. -/
structure Collapse (s s' : Site K τ) (chain : List String) (culprit : Definition K) (er : Error) :
    Prop where
  edges : chain.IsChain s.store.Edge
  nodup : chain.Nodup
  last : chain.getLast? = some culprit.id
  registered : s.store.definition? culprit.id = some culprit
  empty : ∀ id ∈ chain, s'.store.slot? id = none
  blame : Blame s s' culprit er

namespace Collapse

variable {chain : List String} {culprit d : Definition K} {a : String}

theorem single (hd : s.store.definition? d.id = some d) (empty : s'.store.slot? d.id = none)
    (blame : Blame s s' d er) : Collapse s s' [d.id] d er where
  edges := List.isChain_singleton _
  nodup := by simp
  last := rfl
  registered := hd
  empty _ hid := List.mem_singleton.mp hid ▸ empty
  blame := blame

/-- A definition whose dependency has failed is the next one on the chain. -/
theorem above (h : Collapse s s' (a :: chain) culprit er) (edge : s.store.Edge d.id a)
    (hid : d.id ∉ a :: chain) (empty : s'.store.slot? d.id = none) :
    Collapse s s' (d.id :: a :: chain) culprit er where
  edges := List.isChain_cons_cons.mpr ⟨edge, h.edges⟩
  nodup := List.nodup_cons.mpr ⟨hid, h.nodup⟩
  last := by rw [List.getLast?_cons_cons]; exact h.last
  registered := h.registered
  empty _ hid := (List.mem_cons.mp hid).elim (· ▸ empty) (h.empty _)
  blame := h.blame

/-- What was resolved before is no part of a failure. -/
theorem earlier (h : Collapse s' s'' chain culprit er) (spares : Spares path s s') :
    Collapse s s'' chain culprit er where
  edges := spares.filled.edge_eq ▸ h.edges
  nodup := h.nodup
  last := h.last
  registered := spares.filled.definitions ▸ h.registered
  empty := h.empty
  blame := by
    cases h.blame with
    | missing hn hl => exact .missing hn (spares.filled.names ▸ hl)
    | @stopped g given stop between hf hlog =>
      obtain ⟨new, hnew, _⟩ := spares.log
      have hlog' : s''.log = s.log ++ (new ++ between) ++ [.ran ⟨culprit, given, .error stop⟩] := by
        rw [hlog, hnew, List.append_assoc s.log]
      -- The log has only grown in between, so the run that stopped is still its last event.
      exact .stopped hf hlog'

end Collapse

/-- How a goal fails: a name stands for nothing, or there is a chain from what was to be resolved to
    a culprit, apart from what was being resolved already. -/
def Fails (path : List String) (s s' : Site K τ) (er : Error) (g : Goal K) : Prop :=
  (∃ ns n, g = .names ns ∧ n ∈ ns ∧ s.store.canonical? n = none ∧ er = .definitionNotFound n) ∨
    ∃ a chain culprit, g.Starts s.store a ∧ Collapse s s' (a :: chain) culprit er ∧
      ∀ id ∈ a :: chain, id ∉ path

/-- One more name comes before those of which one fails. -/
theorem Fails.cons {n : String} {ns : List String} (h : Fails path s s' er (.names ns)) :
    Fails path s s' er (.names (n :: ns)) := by
  rcases h with ⟨ns', m, hns, hm, missing⟩ | ⟨a, chain, culprit, ⟨m, hm, ha⟩, collapse⟩
  · cases hns
    exact .inl ⟨_, m, rfl, List.mem_cons_of_mem _ hm, missing⟩
  · exact .inr ⟨a, chain, culprit, ⟨m, List.mem_cons_of_mem _ hm, ha⟩, collapse⟩

/-- A dependency fails, and with it the definition. -/
theorem Fails.above {d : Definition K} (h : Fails (path ++ [d.id]) s s' er (.names d.dependencies))
    (hd : s.store.definition? d.id = some d) (hid : d.id ∉ path)
    (empty : s'.store.slot? d.id = none) : Fails path s s' er (.definition d) := by
  right
  -- The failure lies in a dependency's name, or somewhere below a dependency.
  rcases h with ⟨ns, n, hns, hn, hl, rfl⟩ | ⟨a, chain, culprit, ⟨n, hn, ha⟩, collapse, apart⟩
  · cases hns
    refine ⟨d.id, [], d, rfl, .single hd empty (.missing hn hl), ?_⟩
    intro id hmem
    rwa [List.mem_singleton.mp hmem]
  · have new : d.id ∉ a :: chain := fun h => apart d.id h (by simp)
    refine ⟨d.id, a :: chain, culprit, rfl, collapse.above ⟨d, hd, n, hn, ha⟩ new empty, ?_⟩
    intro id hmem
    rcases List.mem_cons.mp hmem with rfl | hmem
    · exact hid
    · exact fun h => apart id hmem (List.mem_append_left _ h)

/-- What a name stands for fails, and with it the names. -/
theorem Fails.of_definition {d : Definition K} {n : String} {ns : List String}
    (h : Fails path s s' er (.definition d)) (hn : s.store.canonical? n = some d.id) :
    Fails path s s' er (.names (n :: ns)) := by
  rcases h with ⟨ns', m, hns, _⟩ | ⟨a, chain, culprit, rfl, collapse⟩
  · cases hns
  · exact .inr ⟨_, chain, culprit, ⟨n, List.mem_cons_self, hn⟩, collapse⟩

theorem Fails.earlier {ns : List String} (h : Fails path s' s'' er (.names ns))
    (spares : Spares path s s') : Fails path s s'' er (.names ns) := by
  unfold Fails Goal.Starts at h ⊢
  rw [spares.filled.names] at h
  rcases h with missing | ⟨a, chain, culprit, starts, collapse, apart⟩
  · exact .inl missing
  · exact .inr ⟨a, chain, culprit, starts, collapse.earlier spares, apart⟩

theorem Store.Valid.canonical?_eq_none {st : Store K} (hv : st.Valid) {n : String}
    (h : st.lookup? n = none) : st.canonical? n = none := by
  cases hn : st.canonical? n with
  | none => rfl
  | some id =>
    obtain ⟨e, he, _⟩ := hv.lookup?_of_canonical? hn
    rw [h] at he
    cases he

/-- The slot of a definition that is about to be made is empty, even if it is a prototype. -/
theorem Ledger.slot?_free {d : Definition K} (hl : Ledger s w)
    (hd : s.store.definition? d.id = some d)
    (hfree : d.scope = .singleton → s.store.slot? d.id = none) : s.store.slot? d.id = none := by
  cases hs : s.store.slot? d.id with
  | none => rfl
  | some i =>
    obtain ⟨d', hd', single, _⟩ := hl.slots hs
    obtain rfl : d = d' := Option.some.inj (hd.symm.trans hd')
    rw [hfree single] at hs
    cases hs

/-- **A resolution fails by a chain.** Unless it comes upon a cycle, a resolution that fails leaves
    a chain of definitions, from what was to be resolved down to a culprit, with nothing in their
    slots. -/
theorem Resolves.fails (h : Resolves f path g s (.error er) s')
    (plain : Plain (.error er : Except Error Unit)) (hl : Ledger s w) (hg : g.Registered s.store) :
    Fails path s s' er g := by
  generalize hr : (.error er : Except Error (List (String × Instance K))) = r at h
  induction h generalizing w with
  | tooDeep => cases hr; exact absurd rfl plain.2
  | cycle => cases hr; exact absurd rfl (plain.1 _)
  | found | existing | made | nil => cases hr
  | unresolved hid hfree deps ih =>
    cases hr
    -- The definition was on the path of its dependencies, so its slot is still empty.
    refine (ih hl trivial rfl).above hg hid ?_
    rw [(deps.spares hl.valid trivial).slots _ (by simp), hl.slot?_free hg hfree]
  | @stopped path d s given s₁ g stop rest hid hfree deps hf hrun ih =>
    cases hr
    -- The chain starts here, with the definition alone.
    have spares := deps.spares hl.valid trivial
    obtain ⟨new, hnew, _⟩ := spares.log
    have hlog : (s₁.ran ⟨d, given, .error stop⟩ rest).log
        = s.log ++ new ++ [.ran ⟨d, given, .error stop⟩] := by
      rw [← hnew]
      rfl
    refine .inr ⟨d.id, [], d, rfl, .single hg ?_ (.stopped hf hlog), ?_⟩
    · show s₁.store.slot? d.id = none
      rw [spares.slots _ (by simp), hl.slot?_free hg hfree]
    · intro id hmem
      rwa [List.mem_singleton.mp hmem]
  | missing hlookup =>
    cases hr
    exact .inl ⟨_, _, rfl, List.mem_cons_self, hl.valid.canonical?_eq_none hlookup, rfl⟩
  | @cached _ _ _ _ _ _ outcome _ hlookup hs others ih =>
    cases outcome with
    | ok given => cases hr
    | error e =>
      cases hr
      exact (ih hl trivial rfl).cons
  | failed hlookup hs one ih =>
    cases hr
    have hd := Site.definition?_of_lookup? hl.valid hlookup
    exact (ih hl hd rfl).of_definition (hl.valid.canonical?_of_lookup? hlookup).1
  | @resolved _ _ _ _ _ _ _ outcome _ hlookup hs one others ihone ih =>
    cases outcome with
    | ok given => cases hr
    | error e =>
      cases hr
      have hd := Site.definition?_of_lookup? hl.valid hlookup
      have hl₁ := one.ledger hd hl
      exact ((ih hl₁ trivial rfl).earlier (one.spares hl.valid hd)).cons

/-! ### Callers -/

/-- Why the resolution of a name has failed. -/
inductive Cause (s s' : Site K τ) (name : String) : Error → Prop
  /-- The name stands for nothing. -/
  | unknown (hn : s.store.canonical? name = none) (same : s' = s) :
      Cause s s' name (.definitionNotFound name)
  /-- A cycle is reachable from what the name stands for. -/
  | cycle {id : String} {path : List String} (hn : s.store.canonical? name = some id)
      (cycle : s.store.CycleBelow id path) (same : s' = s) :
      Cause s s' name (.circularDependency path)
  /-- There is a chain from what the name stands for down to a culprit. -/
  | collapse {id : String} {chain : List String} {culprit : Definition K} {er : Error}
      (hn : s.store.canonical? name = some id) (collapse : Collapse s s' (id :: chain) culprit er) :
      Cause s s' name er

/-- What a resolution of a name that has failed leaves behind. -/
structure Leaves (s : Site K τ) (name : String) (er : Error) (s' : Site K τ) : Prop where
  aliases : s'.store.aliases = s.store.aliases
  /-- The definitions are the same, in the same order. -/
  definitions : s'.store.definitions = s.store.definitions
  /-- Instances stay in their slots. -/
  kept : ∀ {id i}, s.store.slot? id = some i → s'.store.slot? id = some i
  /-- What the name stands for has no instance. -/
  empty : ∀ {id}, s.store.canonical? name = some id → s'.store.slot? id = none
  /-- Slots that were filled are those of singletons that are reachable from what the name stands
      for. None is on the chain of the failure, where all slots are empty. -/
  filled : ∀ {a i}, s'.store.slot? a = some i → s.store.slot? a = some i ∨
    ∃ id, s.store.canonical? name = some id ∧ ReflTransGen s.store.Edge id a ∧
      ∃ d, s.store.definition? a = some d ∧ d.scope = .singleton
  log : ∃ new, s'.log = s.log ++ new
  cause : Cause s s' name er

/-- Where nothing was done, everything is as it was. -/
theorem Leaves.same {name : String} (cause : Cause s s name er)
    (empty : ∀ {id}, s.store.canonical? name = some id → s.store.slot? id = none) :
    Leaves s name er s where
  aliases := rfl
  definitions := rfl
  kept h := h
  empty := empty
  filled h := .inl h
  log := ⟨[], (List.append_nil _).symm⟩
  cause := cause

/-- **What a failure leaves behind.** At a site whose books are in order, this is what a resolution
    of a name that fails leaves behind. -/
theorem instantiate_leaves {limit : Nat} {name : String} (hl : Ledger s [])
    (hlimit : s.store.size ≤ limit)
    (h : instantiate f.maker limit name s = (.error er, s')) : Leaves s name er s' := by
  have hv := hl.valid
  cases he : s.store.lookup? name with
  | none =>
    rw [instantiate_missing he] at h
    cases h
    have hn := hv.canonical?_eq_none he
    exact .same (.unknown hn rfl) (fun hid => by rw [hn] at hid; cases hid)
  | some e =>
    obtain ⟨hn, hget⟩ := hv.canonical?_of_lookup? he
    have hd := Site.definition?_of_lookup? hv he
    -- What is in a slot is handed out without fail.
    have hslot : e.slot = none := by
      cases hslot : e.slot with
      | none => rfl
      | some i =>
        rw [instantiate_found he hslot] at h
        cases h
    have hempty : s.store.slot? e.definition.id = none :=
      (Store.slot?_of_get? hget).trans hslot
    have named {id : String} (hid : s.store.canonical? name = some id) : id = e.definition.id :=
      Option.some.inj (hid.symm.trans hn)
    rcases Store.checkAcyclic_spec hv hd with ⟨hc, hfree⟩ | ⟨path, hc, hcycle⟩
    · -- No cycle is reachable, so this is the resolution of a definition that fails.
      rw [instantiate_acyclic he hslot hc] at h
      have hres := resolve_resolves (f := f) limit [] e.definition s
      -- With room for all definitions, the failure is neither a cycle nor the limit.
      have hplain : Plain (resolve f.maker limit [] e.definition s).1 :=
        (resolve_stable hv hd hfree (.start _ _) hlimit hlimit).2
      rw [h] at hres hplain
      have spares := hres.spares hv hd
      obtain ⟨haliases, hdefinitions⟩ := hres.tables
      obtain ⟨new, hnew, -⟩ := spares.log
      rcases hres.fails ⟨fun path he => hplain.1 path (by cases he; rfl),
        fun he => hplain.2 (by cases he; rfl)⟩ hl hd with
        -- It is a definition that was to be resolved, so a chain of jobs has collapsed.
        ⟨ns, n, hg, _⟩ | ⟨_, chain, culprit, rfl, collapse, -⟩
      · cases hg
      refine ⟨haliases, hdefinitions, spares.filled.slots, ?_, ?_, ⟨new, hnew⟩,
        .collapse hn collapse⟩
      · intro id hid
        rw [named hid]
        exact collapse.empty _ List.mem_cons_self
      · intro a i ha
        rcases hres.fills hv hd ha with old | ⟨⟨_, rfl, reached⟩, single⟩
        · exact .inl old
        · exact .inr ⟨_, hn, reached, single⟩
    -- A cycle was found before anything was made.
    · rw [instantiate_cycle he hslot hc] at h
      cases h
      exact .same (.cycle hn hcycle rfl) (fun hid => named hid ▸ hempty)

end ComponentHost
