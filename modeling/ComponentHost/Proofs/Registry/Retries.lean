import ComponentHost.Proofs.Registry.Failures
import ComponentHost.Proofs.Registry.Instances

/-! # Resolutions that are tried again

  What becomes of resolving a name again that could not be resolved, whatever has been done with the
  store in between.

  - A factory that has stopped leaves a chain of definitions down to its own, with nothing in their
    slots. Such a chain is `Pending`. It is so for as long as the factory has not succeeded
    (`Later.pending`), and nothing on it is resolved before that (`Resolves.spared`).
  - A factory of a singleton that has succeeded does not run again (`Ledger.not_again`).
  - A resolution fails for a cause. Where none of the causes is left it succeeds.

  `failures_poison_nothing` says all this of a name that could not be resolved.
-/

namespace ComponentHost

open Relation Resolution

variable {K : Kit} {τ : Type}

/-! ### What is below a definition -/

namespace Store

variable {st st' : Store K} {a b id : String}

theorem Edge.grown (h : st.Edge a b) (hg : st.Grown st') : st'.Edge a b := by
  obtain ⟨d, hd, n, hn, hb⟩ := h
  exact ⟨d, hg.definitions hd, n, hn, hg.names hb⟩

/-- Every name that is reachable from a definition stands for something, and no cycle is
    reachable. -/
structure Resolvable (st : Store K) (id : String) : Prop where
  names : ∀ a d n, ReflTransGen st.Edge id a → st.definition? a = some d → n ∈ d.dependencies →
    ∃ b, st.canonical? n = some b
  acyclic : ¬ st.Cyclic id

/-- What is complete can be resolved. -/
theorem Complete.resolvable (h : st.Complete id) : st.Resolvable id := by
  refine ⟨?_, h.not_cyclic⟩
  -- What lies below a complete definition is complete itself.
  have below {a : String} (reached : ReflTransGen st.Edge id a) : st.Complete a := by
    induction reached with
    | refl => exact h
    | tail _ edge ih =>
      obtain ⟨d, hd, n, hn, hb⟩ := edge
      obtain ⟨target, hd', names, all⟩ := ih
      obtain rfl := Option.some.inj (hd.symm.trans hd')
      obtain rfl := Option.some.inj (hb.symm.trans (names n hn))
      exact all n hn
  intro a d n reached hd hn
  obtain ⟨target, hd', names, -⟩ := below reached
  obtain rfl := Option.some.inj (hd.symm.trans hd')
  exact ⟨_, names n hn⟩

end Store

section Chains

variable {R : String → String → Prop} {chain : List String} {first id last : String}

/-- An id on a chain is the last one, or depends on another one on the chain. -/
theorem last_or_edge (edges : chain.IsChain R) (hlast : chain.getLast? = some last)
    (hid : id ∈ chain) : id = last ∨ ∃ b ∈ chain, R id b := by
  induction chain with
  | nil => cases hid
  | cons a rest ih =>
    cases rest with
    | nil =>
      left
      rw [List.mem_singleton.mp hid]
      simpa using hlast
    | cons b rest =>
      obtain ⟨hab, hrest⟩ := List.isChain_cons_cons.mp edges
      rcases List.mem_cons.mp hid with rfl | hid
      · exact .inr ⟨b, by simp, hab⟩
      -- It is the head, which has an edge to the next one, or it is further on.
      · rcases ih hrest (by simpa using hlast) hid with h | ⟨c, hc, h⟩
        · exact .inl h
        · exact .inr ⟨c, List.mem_cons_of_mem _ hc, h⟩

/-- An id on a chain is between the first and the last. -/
theorem between_of_mem (edges : (first :: chain).IsChain R)
    (hlast : (first :: chain).getLast? = some last) (hid : id ∈ first :: chain) :
    ReflTransGen R first id ∧ ReflTransGen R id last := by
  induction chain generalizing first id with
  | nil =>
    obtain rfl := List.mem_singleton.mp hid
    obtain rfl : id = last := by simpa using hlast
    exact ⟨.refl, .refl⟩
  | cons b rest ih =>
    obtain ⟨hab, hrest⟩ := List.isChain_cons_cons.mp edges
    have hlast' : (b :: rest).getLast? = some last := by simpa using hlast
    rcases List.mem_cons.mp hid with rfl | hid
    · exact ⟨.refl, .head hab (ih hrest hlast' List.mem_cons_self).2⟩
    · obtain ⟨above, below⟩ := ih hrest hlast' hid
      exact ⟨.head hab above, below⟩

end Chains

variable {f : Factories K τ} {path chain : List String} {g : Goal K} {s s' s'' : Site K τ}
  {r : Except Error (List (String × Instance K))} {er : Error} {c d : Definition K} {id : String}
  {limit : Nat} {name : String}

/-! ### Chains that are pending -/

/-- Between two sites the factory of a definition has succeeded. -/
def Succeeds (id : String) (s s' : Site K τ) : Prop :=
  ∃ new, s'.log = s.log ++ new ∧ made id new ≠ []

theorem Succeeds.before (h : Succeeds id s s') (hlog : ∃ new, s''.log = s'.log ++ new) :
    Succeeds id s s'' := by
  obtain ⟨new, hnew, hm⟩ := h
  obtain ⟨new', hnew'⟩ := hlog
  refine ⟨new ++ new', by rw [hnew', hnew, List.append_assoc], ?_⟩
  rw [made_append]
  exact List.append_ne_nil_of_left_ne_nil hm _

theorem Succeeds.after (hlog : ∃ new, s'.log = s.log ++ new) (h : Succeeds id s' s'') :
    Succeeds id s s'' := by
  obtain ⟨new, hnew⟩ := hlog
  obtain ⟨new', hnew', hm⟩ := h
  refine ⟨new ++ new', by rw [hnew', hnew, List.append_assoc], ?_⟩
  rw [made_append]
  exact List.append_ne_nil_of_right_ne_nil _ hm

/-- A chain of definitions, each of which depends on the next, down to one with a factory: nothing
    is in their slots. -/
structure Pending (s : Site K τ) (chain : List String) (c : Definition K) : Prop where
  /-- Each id depends on the next. -/
  edges : chain.IsChain s.store.Edge
  /-- The last one is that of the definition. -/
  last : chain.getLast? = some c.id
  registered : s.store.definition? c.id = some c
  factory : ∃ g, c.factory = .make g
  empty : ∀ id ∈ chain, s.store.slot? id = none

namespace Pending

theorem grown (h : Pending s chain c) (hg : s.store.Grown s'.store)
    (empty : ∀ id ∈ chain, s'.store.slot? id = none) : Pending s' chain c where
  edges := h.edges.imp fun _ _ edge => edge.grown hg
  last := h.last
  registered := hg.definitions h.registered
  factory := h.factory
  empty := empty

/-- A definition of whose dependencies none is on the chain is not on it, unless it is the last. -/
theorem not_mem (h : Pending s chain c) (hd : s.store.definition? d.id = some d)
    (others : ∀ id ∈ chain, ¬ (Goal.names d.dependencies).Starts s.store id)
    (hne : d.id ≠ c.id) : d.id ∉ chain := by
  intro hid
  rcases last_or_edge h.edges h.last hid with heq | ⟨b, hb, d', hd', n, hn, hnb⟩
  · exact hne heq
  · obtain rfl := Option.some.inj (hd.symm.trans hd')
    exact others b hb ⟨n, hn, hnb⟩

/-- An instance of a definition that is not on the chain is kept. -/
theorem keep {i : Instance K} (h : Pending s chain c) (hd : s.store.definition? d.id = some d)
    (hg : s.store.Grown (s.keep d i).store) (hid : d.id ∉ chain) :
    Pending (s.keep d i) chain c := by
  refine h.grown hg ?_
  intro id hmem
  rw [Site.slot?_keep hd, if_neg]
  · exact h.empty id hmem
  · rintro ⟨rfl, -⟩
    exact hid hmem

end Pending

/-- **A pending chain stays pending.** Unless the factory of its last definition succeeds on the
    way, a resolution leaves a chain pending, and resolves nothing that is on it. -/
theorem Resolves.spared (h : Resolves f path g s r s') (hv : s.store.Valid)
    (hg : g.Registered s.store) (hp : Pending s chain c) :
    Succeeds c.id s s' ∨ Pending s' chain c ∧
      ∀ given, r = .ok given → ∀ id ∈ chain, ¬ g.Starts s.store id := by
  -- The induction is on the resolution. What is on the chain, but for the last, depends on
  -- something that is on it too and would have to be resolved before.
  induction h with
  | tooDeep | cycle | missing => exact .inr ⟨hp, fun given hr => by cases hr⟩
  | found hid hd hs =>
    refine .inr ⟨hp, ?_⟩
    rintro given - id hmem rfl
    rw [hp.empty _ hmem] at hs
    cases hs
  | unresolved hid hfree deps ih =>
    rcases ih hv trivial hp with done | ⟨hp', -⟩
    · exact .inl done
    · exact .inr ⟨hp', fun given hr => by cases hr⟩
  | stopped hid hfree deps hf hrun ih =>
    rcases ih hv trivial hp with done | ⟨hp', -⟩
    · exact .inl (done.before ⟨_, rfl⟩)
    · exact .inr ⟨hp'.grown (.refl _) hp'.empty, fun given hr => by cases hr⟩
  | @existing path d s given s₁ held hid hfree deps hf ih =>
    rcases ih hv trivial hp with done | ⟨hp', others⟩
    · exact .inl (done.before ⟨[], by simp⟩)
    · -- A definition that is there already is not the last, which has a factory.
      have hne : d.id ≠ c.id := by
        intro heq
        obtain ⟨g, hc⟩ := hp.factory
        obtain rfl : d = c := Option.some.inj (hg.symm.trans (heq ▸ hp.registered))
        rw [hf] at hc
        cases hc
      have hmem : d.id ∉ chain := hp.not_mem hg (others given rfl) hne
      have spares := deps.spares hv trivial
      have kept := (spares.keep rfl hg hfree hid ⟨d.type, held⟩).filled.grown
      refine .inr ⟨hp'.keep (spares.registered hg) kept hmem, ?_⟩
      rintro given' - id hid' rfl
      exact hmem hid'
  | @made path d s given s₁ g held rest hid hfree deps hf hrun ih =>
    have spares := deps.spares hv trivial
    obtain ⟨new, hnew, -⟩ := spares.log
    rcases ih hv trivial hp with done | ⟨hp', others⟩
    · exact .inl (done.before ⟨[.ran ⟨d, given, .ok ⟨d.type, held⟩⟩], by simp [Site.ran]⟩)
    · by_cases heq : d.id = c.id
      · left
        refine Succeeds.after ⟨new, hnew⟩ ⟨[.ran ⟨d, given, .ok ⟨d.type, held⟩⟩], ?_, ?_⟩
        · simp [Site.ran]
        · simp [ComponentHost.made, runsOf_ran, heq, Except.toOption]
      have hmem : d.id ∉ chain := hp.not_mem hg (others given rfl) heq
      have hp'' : Pending (s₁.ran ⟨d, given, .ok ⟨d.type, held⟩⟩ rest) chain c :=
        hp'.grown (.refl _) hp'.empty
      have kept : Spares path _
          ((s₁.ran ⟨d, given, .ok ⟨d.type, held⟩⟩ rest).keep d ⟨d.type, held⟩) :=
        spares.keep (by rfl) hg hfree hid _
      refine .inr ⟨hp''.keep (spares.registered hg) kept.filled.grown hmem, ?_⟩
      rintro given' - id hid' rfl
      exact hmem hid'
  | nil =>
    refine .inr ⟨hp, ?_⟩
    rintro given - id - ⟨n, hn, -⟩
    cases hn
  | @cached path s name names e i r s' hl hs others ih =>
    rcases ih hv trivial hp with done | ⟨hp', rest⟩
    · exact .inl done
    refine .inr ⟨hp', ?_⟩
    obtain ⟨hn, hget⟩ := hv.canonical?_of_lookup? hl
    rintro given hr id hmem ⟨n, hin, hid⟩
    rcases List.mem_cons.mp hin with rfl | hin
    · obtain rfl := Option.some.inj (hid.symm.trans hn)
      have hslot := hp.empty _ hmem
      rw [Store.slot?_of_get? hget, hs] at hslot
      cases hslot
    · cases r with
      | error e => cases hr
      | ok given' => exact rest given' rfl id hmem ⟨n, hin, hid⟩
  | failed hl hs one ih =>
    rcases ih hv (Site.definition?_of_lookup? hv hl) hp with done | ⟨hp', -⟩
    · exact .inl done
    · exact .inr ⟨hp', fun given hr => by cases hr⟩
  | @resolved path s name names e i s₁ r s' hl hs one others ihone ih =>
    have hd := Site.definition?_of_lookup? hv hl
    have spares := one.spares hv hd
    have hv₁ := hv.of_filled spares.filled
    rcases ihone hv hd hp with done | ⟨hp₁, first⟩
    · obtain ⟨new, hnew, -⟩ := (others.spares hv₁ trivial).log
      exact .inl (done.before ⟨new, hnew⟩)
    rcases ih hv₁ trivial hp₁ with done | ⟨hp', rest⟩
    · obtain ⟨new, hnew, -⟩ := spares.log
      exact .inl (done.after ⟨new, hnew⟩)
    refine .inr ⟨hp', ?_⟩
    rintro given hr id hmem ⟨n, hin, hid⟩
    rcases List.mem_cons.mp hin with rfl | hin
    · obtain rfl := Option.some.inj (hid.symm.trans (hv.canonical?_of_lookup? hl).1)
      exact first _ rfl _ hmem rfl
    · cases r with
      | error e => cases hr
      | ok given' =>
        refine rest given' rfl id hmem ⟨n, hin, ?_⟩
        rw [spares.filled.names]
        exact hid

/-! ### Later sites -/

/-- A site comes after another: its books are in order, it has grown, and a chain that was pending
    still is, unless the factory at its end has succeeded in between. -/
structure Later (s s' : Site K τ) : Prop where
  ledger : Ledger s' []
  grown : s.store.Grown s'.store
  log : ∃ new, s'.log = s.log ++ new
  /-- Chains that were pending still are, until the factory succeeds. -/
  pending : ∀ {chain c}, Pending s chain c → Succeeds c.id s s' ∨ Pending s' chain c

namespace Later

theorem refl (h : Ledger s []) : Later s s :=
  ⟨h, .refl _, ⟨[], (List.append_nil _).symm⟩, .inr⟩

theorem trans (h : Later s s') (h' : Later s' s'') : Later s s'' where
  ledger := h'.ledger
  grown := h.grown.trans h'.grown
  log := by
    obtain ⟨new, hnew⟩ := h.log
    obtain ⟨new', hnew'⟩ := h'.log
    exact ⟨new ++ new', by rw [hnew', hnew, List.append_assoc]⟩
  pending hp := by
    rcases h.pending hp with done | hp'
    · exact .inl (done.before h'.log)
    · exact (h'.pending hp').imp (·.after h.log) id

/-- The store grows, in other things than slots. -/
theorem of_grown {store : Store K} (hl : Ledger ({ s with store } : Site K τ) [])
    (hg : s.store.Grown store) (hslots : ∀ id, store.slot? id = s.store.slot? id) :
    Later s { s with store } where
  ledger := hl
  grown := hg
  log := ⟨[], (List.append_nil _).symm⟩
  pending hp := .inr (hp.grown hg fun id hid => (hslots id).trans (hp.empty id hid))

theorem instantiate (h : Ledger s []) : Later s (instantiate f.maker limit name s).2 := by
  have hl : Ledger (Resolution.instantiate f.maker limit name s).2 [] := h.instantiate
  rcases instantiate_resolves (f := f) limit name s with ⟨e, he⟩ | hres
  · rw [he]
    exact .refl h
  · have spares := hres.spares h.valid trivial
    obtain ⟨new, hnew, -⟩ := spares.log
    exact ⟨hl, spares.filled.grown, ⟨new, hnew⟩,
      fun hp => (hres.spared h.valid trivial hp).imp id And.left⟩

/-- What is noted changes nothing else. -/
theorem note {e : Event K} (h : Later s s') (hl : Ledger (s'.note e) []) : Later s (s'.note e) where
  ledger := hl
  grown := h.grown
  log := by
    obtain ⟨new, hnew⟩ := h.log
    exact ⟨new ++ [e], by rw [← List.append_assoc, ← hnew]; rfl⟩
  pending hp := (h.pending hp).imp (·.before ⟨[e], rfl⟩) fun hp' => hp'.grown (.refl _) hp'.empty

/-- Whatever is done at a site, it comes after it. -/
theorem after (h : Ledger s []) (commands : List (Command K)) :
    Later s (s.after f limit commands) := by
  refine Site.after_preserves (P := Later s) (.refl h) ?_ ?_ ?_ ?_ commands
  · intro s' d store hs' hr
    exact hs'.trans (.of_grown (hs'.ledger.register hr) (Store.register_grown hr)
      (Store.register_views hr).2.1)
  · intro s' new name store hs' hr
    exact hs'.trans (.of_grown (hs'.ledger.addAlias hr) (Store.addAlias_grown hr)
      (Store.slot?_addAlias hr))
  · intro s' name hs'
    exact hs'.trans (.instantiate hs'.ledger)
  · intro s' name i hs' hi
    exact (hs'.trans (.instantiate hs'.ledger)).note (hs'.ledger.yield hi)

end Later

/-! ### Trying again -/

/-- The factory of a singleton that has succeeded does not run again. -/
theorem Ledger.not_again {before after : List (Event K)} (h : Ledger s [])
    (hd : s.store.definition? d.id = some d) (hs : d.scope = .singleton)
    (hlog : s.log = before ++ after) (hm : made d.id before ≠ []) :
    ∀ run, .ran run ∈ after → run.definition.id ≠ d.id := by
  intro run hrun hid
  obtain ⟨hd', ⟨g, hg⟩, -⟩ := h.runs run (hlog ▸ List.mem_append_right _ hrun)
  rw [hid] at hd'
  obtain rfl := Option.some.inj (hd.symm.trans hd')
  -- All runs have failed, but for one at the end if there is a success.
  obtain ⟨failures, hruns⟩ := h.once hd hs hg
  obtain ⟨i, hi⟩ := List.exists_mem_of_ne_nil _ hm
  obtain ⟨first, hfirst, hok⟩ := List.mem_filterMap.mp hi
  have hmem : (.ok i : Except Stop (Instance K)) ∈
      (runsOf run.definition.id before).map (·.outcome) := by
    refine List.mem_map.mpr ⟨first, hfirst, ?_⟩
    cases hout : first.outcome with
    | error stop => rw [hout] at hok; cases hok
    | ok j => rw [hout] at hok; cases hok; rfl
  obtain ⟨earlier, others, hsplit⟩ := List.append_of_mem hmem
  rw [hlog, runsOf_append, List.map_append, hsplit, List.append_assoc, List.cons_append] at hruns
  have hnil := (last_of_failures hruns.symm).2
  have hnone := List.map_eq_nil_iff.mp (List.append_eq_nil_iff.mp hnil).2
  have hlast := mem_runsOf.mpr ⟨hrun, rfl⟩
  rw [hnone] at hlast
  cases hlast

/-- All factories that have run have succeeded. -/
def AllSucceed (events : List (Event K)) : Prop :=
  ∀ run, .ran run ∈ events → ∃ i, run.outcome = .ok i

/-- Where a factory has stopped, the chain down to it is pending. -/
theorem Collapse.pending {message : String}
    (h : Collapse s s' chain c (.construction id message)) (hg : s.store.Grown s'.store) :
    c.id = id ∧ Pending s' chain c := by
  cases h.blame with
  | stopped hf hlog =>
    refine ⟨rfl, ?_⟩
    exact {
      edges := h.edges.imp fun _ _ edge => edge.grown hg
      last := h.last
      registered := hg.definitions h.registered
      factory := ⟨_, hf⟩
      empty := h.empty }

/-- What can be resolved is resolved, if the factories that run succeed. -/
theorem instantiate_succeeds {e : Entry K} {r : Except Error (Instance K)} {new : List (Event K)}
    (hl : Ledger s []) (hlimit : s.store.size ≤ limit) (he : s.store.lookup? name = some e)
    (resolvable : s.store.Resolvable e.definition.id)
    (h : instantiate f.maker limit name s = (r, s')) (hnew : s'.log = s.log ++ new)
    (all : AllSucceed new) : ∃ i, r = .ok i := by
  cases r with
  | ok i => exact ⟨i, rfl⟩
  | error er =>
    exfalso
    have hn := (hl.valid.canonical?_of_lookup? he).1
    -- None of the causes that a failure can have is there.
    cases (instantiate_leaves hl hlimit h).cause with
    | unknown hnone =>
      rw [hn] at hnone
      cases hnone
    | cycle hn' cycle =>
      obtain rfl := Option.some.inj (hn.symm.trans hn')
      exact resolvable.acyclic cycle.cyclic
    | @collapse _ _ culprit _ hn' collapse =>
      obtain rfl := Option.some.inj (hn.symm.trans hn')
      cases collapse.blame with
      | missing hmem hnone =>
        have reached := (between_of_mem collapse.edges collapse.last List.mem_cons_self).2
        obtain ⟨b, hb⟩ := resolvable.names _ _ _ reached collapse.registered hmem
        rw [hnone] at hb
        cases hb
      | @stopped g given stop between hf hlog =>
        rw [hnew, List.append_assoc] at hlog
        have last : .ran ⟨culprit, given, .error stop⟩ ∈ new := by
          rw [List.append_cancel_left hlog]
          exact List.mem_append_right _ List.mem_cons_self
        obtain ⟨i, hi⟩ := all _ last
        cases hi

/-- What happens when a name that stands for a definition now is resolved again, after it could not
    be resolved at an earlier site. -/
structure Retried (failed : Site K τ) (er : Error) (s : Site K τ) (id : String)
    (r : Except Error (Instance K)) (new : List (Event K)) : Prop where
  /-- No factory of a singleton runs that has succeeded before. -/
  once : ∀ d, s.store.definition? d.id = some d → d.scope = .singleton → made d.id s.log ≠ [] →
    ∀ run, .ran run ∈ new → run.definition.id ≠ d.id
  /-- It succeeds, if all factories that run do. -/
  succeeds : AllSucceed new → ∃ i, r = .ok i
  /-- Then the factory that had stopped has run again, and has succeeded. The only other way is that
      it had succeeded in between already, and that since then there is an instance in a slot on the
      way down to it. -/
  again : AllSucceed new → ∀ culprit message, er = .construction culprit message →
    made culprit new ≠ [] ∨ Succeeds culprit failed s ∧
      ∃ a, ReflTransGen failed.store.Edge id a ∧ ReflTransGen failed.store.Edge a culprit ∧
        failed.store.slot? a = none ∧ ∃ i, s.store.slot? a = some i

/-- A name is resolved again, some time after a failure. -/
theorem instantiate_retried {e : Entry K} {r : Except Error (Instance K)} {s₂ s₃ : Site K τ}
    (cause : Cause s s' name er) (hg : s.store.Grown s'.store) (later : Later s' s₂)
    (hlimit : s₂.store.size ≤ limit) (he : s₂.store.lookup? name = some e)
    (resolvable : s₂.store.Resolvable e.definition.id)
    (h : instantiate f.maker limit name s₂ = (r, s₃)) :
    ∃ new, s₃.log = s₂.log ++ new ∧ Retried s' er s₂ e.definition.id r new := by
  have hl := later.ledger
  have next : Later s₂ (instantiate f.maker limit name s₂).2 := .instantiate hl
  rw [h] at next
  obtain ⟨new, hnew⟩ := next.log
  have succeeds := instantiate_succeeds hl hlimit he resolvable h hnew
  refine ⟨new, hnew, ?_, succeeds, ?_⟩
  -- A singleton that has been made is never made again, whatever this attempt does.
  · intro d hd hs hm
    exact next.ledger.not_again (next.grown.definitions hd) hs hnew hm
  intro all culprit message heq
  obtain ⟨i, rfl⟩ := succeeds all
  subst heq
  -- The failure left a chain of singletons, from the name down to what had failed.
  cases cause with
  | @collapse id chain c _ hn collapse =>
    obtain ⟨rfl, pending⟩ := collapse.pending hg
    have hn₂ := later.grown.names (hg.names hn)
    obtain rfl := Option.some.inj (hn₂.symm.trans (hl.valid.canonical?_of_lookup? he).1)
    by_cases hempty : ∀ a ∈ e.definition.id :: chain, s₂.store.slot? a = none
    · -- The whole chain is still to be resolved, and what the name stands for is on it.
      left
      rcases instantiate_resolves (f := f) limit name s₂ with ⟨er, herr⟩ | hres
      · rw [h] at herr
        cases herr
      rw [h] at hres
      rcases hres.spared hl.valid trivial (pending.grown later.grown hempty) with
        ⟨new', hnew', made⟩ | ⟨-, none⟩
      · rwa [List.append_cancel_left (hnew.symm.trans hnew')]
      · exact absurd ⟨name, List.mem_cons_self, hn₂⟩ (none _ rfl _ List.mem_cons_self)
    -- Something on the chain has its instance by now, so what lies above it is at most still to do.
    · right
      constructor
      · exact (later.pending pending).resolve_right fun hp => hempty hp.empty
      · push Not at hempty
        obtain ⟨a, ha, hslot⟩ := hempty
        obtain ⟨above, below⟩ := between_of_mem pending.edges pending.last ha
        exact ⟨a, above, below, pending.empty a ha, Option.ne_none_iff_exists'.mp hslot⟩

/-- **Failures poison nothing.** When the resolution of a name fails, at any site, only singletons
    below it have been made on the way, and nothing is in the slots on the way to what has failed.
    Whatever is done afterwards, resolving the name again succeeds as soon as all names below it
    stand for something, no cycle is among them, and the factories that still have to run succeed;
    it runs the factory again that had stopped, and none of a singleton that has succeeded
    before. -/
theorem failures_poison_nothing (f : Factories K τ) (limit : Nat) (rest : τ)
    (commands : List (Command K)) (limit' : Nat) (name : String) (er : Error) (s' : Site K τ) :
    let s := (Site.start rest).after f limit commands
    s.store.size ≤ limit' → instantiate f.maker limit' name s = (.error er, s') →
    Leaves s name er s' ∧
    ∀ (more : List (Command K)) (limit'' : Nat) (e : Entry K) (r : Except Error (Instance K))
      (s₃ : Site K τ),
      let s₂ := s'.after f limit more
      s₂.store.lookup? name = some e → s₂.store.Resolvable e.definition.id →
      s₂.store.size ≤ limit'' → instantiate f.maker limit'' name s₂ = (r, s₃) →
      ∃ new, s₃.log = s₂.log ++ new ∧ Retried s' er s₂ e.definition.id r new := by
  intro s hlimit h
  have hl : Ledger s [] := Site.ledger f limit rest commands
  have failed : Later s (instantiate f.maker limit' name s).2 := .instantiate hl
  rw [h] at failed
  -- The retry starts from a later state of the same ledger, whatever was done in between.
  have leaves := instantiate_leaves hl hlimit h
  refine ⟨leaves, ?_⟩
  intro more limit'' e r s₃ s₂ he resolvable hlimit'' h'
  exact instantiate_retried leaves.cause failed.grown (.after failed.ledger more) hlimit'' he
    resolvable h'

/-! ### A factory that fails once -/

namespace Flaky

/-- Factories that panic as long as their state counts down. -/
def factories : Factories Partners.kit Nat := fun _ _ _ attempts =>
  match attempts with
  | 0 => (.ok (.component ()), 0)
  | attempts + 1 => (.error (.panicked "not yet"), attempts)

def lower : Definition Partners.kit := { id := "lower", type := ⟨"L"⟩, factory := .make () }

def upper : Definition Partners.kit :=
  { id := "upper", type := ⟨"U"⟩, dependencies := ["lower"], factory := .make () }

/-- Both are registered, and the first factory to run panics. -/
def site : Site Partners.kit Nat :=
  (Site.start 1).after factories 2 [.register lower, .register upper]

/-- After the upper one could not be resolved. -/
def failed : Site Partners.kit Nat := (instantiate factories.maker 2 "upper" site).2

/-- After it has been resolved again. -/
def settled : Site Partners.kit Nat := (instantiate factories.maker 2 "upper" failed).2

def runs : List (Event Partners.kit) :=
  [.ran ⟨lower, [], .ok ⟨lower.type, .component ()⟩⟩,
    .ran ⟨upper, [("lower", ⟨lower.type, .component ()⟩)], .ok ⟨upper.type, .component ()⟩⟩]

end Flaky

/-- Resolving the upper definition fails with the lower one. The second time both are made. -/
theorem failures_poison_nothing_flaky :
    Leaves Flaky.site "upper" (.construction "lower" "factory panicked: not yet") Flaky.failed ∧
      instantiate Flaky.factories.maker 2 "upper" Flaky.failed
        = (.ok ⟨⟨"U"⟩, .component ()⟩, Flaky.settled) ∧
      Flaky.settled.log = Flaky.failed.log ++ Flaky.runs ∧
      Retried Flaky.failed (.construction "lower" "factory panicked: not yet") Flaky.failed "upper"
        (.ok ⟨⟨"U"⟩, .component ()⟩) Flaky.runs := by
  obtain ⟨leaves, retried⟩ := failures_poison_nothing Flaky.factories 2 1
    [.register Flaky.lower, .register Flaky.upper] 2 "upper"
    (.construction "lower" "factory panicked: not yet") Flaky.failed (Nat.le_refl 2) rfl
  have complete : Flaky.failed.store.Complete "upper" := by
    refine .intro (d := Flaky.upper) (fun _ => "lower") rfl ?_ ?_
    · intro n hn
      obtain rfl := List.mem_singleton.mp hn
      rfl
    · intro n hn
      exact .intro (d := Flaky.lower) id rfl (by simp [Flaky.lower]) (by simp [Flaky.lower])
  obtain ⟨new, hnew, again⟩ := retried [] 2 ⟨Flaky.upper, none⟩ (.ok ⟨⟨"U"⟩, .component ()⟩)
    Flaky.settled rfl complete.resolvable (Nat.le_refl 2) rfl
  have hlog : Flaky.settled.log = Flaky.failed.log ++ Flaky.runs := rfl
  obtain rfl : Flaky.runs = new := List.append_cancel_left (hlog.symm.trans hnew)
  exact ⟨leaves, rfl, hlog, again⟩

end ComponentHost
