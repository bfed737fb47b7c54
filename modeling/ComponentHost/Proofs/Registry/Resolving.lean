import ComponentHost.Proofs.Registry.Cycles
import ComponentHost.Proofs.Registry.Sites

/-! # What resolutions leave alone

  A resolution changes the store in its slots alone, and only adds to the log. The definitions that
  are being resolved around it, those on its path, keep their slots and have no run of their
  factories meanwhile. What succeeds is resolved completely: so is everything that it depends on.
-/

namespace ComponentHost

variable {K : Kit} {τ : Type} {f : Factories K τ} {path path' : List String} {g : Goal K}
  {d : Definition K} {i : Instance K} {s s' s'' : Site K τ}
  {r : Except Error (List (String × Instance K))}
  {given : List (String × Instance K)}

namespace Goal

/-- The names under which the instances are found. -/
def all : Goal K → List String
  | definition d => [d.id]
  | names ns => ns

/-- What is to be resolved is registered, if it is a definition. -/
def Registered (s : Store K) : Goal K → Prop
  | definition d => s.definition? d.id = some d
  | names _ => True

end Goal

/-- The instances come under the names that were to be resolved, in order. -/
theorem Resolves.names_eq (h : Resolves f path g s r s') (hr : r = .ok given) :
    given.map (·.1) = g.all := by
  induction h generalizing given with
  | found | existing | made | nil =>
    cases hr
    rfl
  | cached hl hs others ih | resolved hl hs one others ihone ih =>
    rename_i outcome _
    cases outcome with
    | error e => cases hr
    | ok others =>
      cases hr
      exact congrArg (_ :: ·) (ih rfl)
  | _ => cases hr

/-! ### The path -/

/-- From one site to another only slots have changed and the log has grown, with no change to the
    slots and no run of the factories of the definitions on a path. -/
structure Spares (path : List String) (s s' : Site K τ) : Prop where
  /-- Only slots have changed in the store. -/
  filled : s.store.Filled s'.store
  /-- The slots of the definitions on the path are as they were. -/
  slots : ∀ id ∈ path, s'.store.slot? id = s.store.slot? id
  /-- Their factories have not run. -/
  log : ∃ new, s'.log = s.log ++ new ∧ ∀ run, .ran run ∈ new → run.definition.id ∉ path

namespace Spares

theorem refl (path : List String) (s : Site K τ) : Spares path s s :=
  ⟨.refl _, fun _ _ => rfl, [], by simp⟩

theorem trans (h : Spares path s s') (h' : Spares path s' s'') : Spares path s s'' := by
  obtain ⟨new, hnew, hrun⟩ := h.log
  obtain ⟨new', hnew', hrun'⟩ := h'.log
  refine ⟨h.filled.trans h'.filled, fun id hid => (h'.slots id hid).trans (h.slots id hid),
    new ++ new', by rw [hnew', hnew, List.append_assoc], ?_⟩
  intro run hr
  exact (List.mem_append.mp hr).elim (hrun run) (hrun' run)

theorem mono (h : Spares path' s s') (hp : path ⊆ path') : Spares path s s' := by
  obtain ⟨new, hnew, hrun⟩ := h.log
  exact ⟨h.filled, fun id hid => h.slots id (hp hid), new, hnew,
    fun run hr hid => hrun run hr (hp hid)⟩

theorem registered (h : Spares path s s') (hg : g.Registered s.store) : g.Registered s'.store := by
  cases g with
  | definition d => exact (congrFun h.filled.definitions d.id).trans hg
  | names ns => trivial

theorem ran (hid : d.id ∉ path) (outcome : Except Stop (Instance K)) (rest : τ) :
    Spares path s (s.ran ⟨d, given, outcome⟩ rest) :=
  ⟨.refl _, fun _ _ => rfl, [.ran ⟨d, given, outcome⟩], rfl, by simpa using hid⟩

/-- After the dependencies of a definition have been resolved, with its id on their path, an
    instance of it can be kept: its slot is as it was. -/
theorem keep {s₁ s₂ : Site K τ} (h : Spares (path ++ [d.id]) s s₁) (hstore : s₂.store = s₁.store)
    (hd : s.store.definition? d.id = some d)
    (hfree : d.scope = .singleton → s.store.slot? d.id = none) (hid : d.id ∉ path)
    (i : Instance K) : Spares path s₂ (s₂.keep d i) := by
  cases hs : d.scope with
  | prototype =>
    simp only [Site.keep, hs]
    exact .refl path s₂
  | singleton =>
    have hd₂ : s₂.store.definition? d.id = some d := by rw [hstore, h.filled.definitions, hd]
    have hslot : s₂.store.slot? d.id = none := by rw [hstore, h.slots d.id (by simp), hfree hs]
    simp only [Site.keep, hs]
    refine ⟨Store.filled_fill hd₂ hslot i, fun id hmem => ?_, [], by simp⟩
    exact (Store.slot?_fill hd₂ i id).trans (if_neg fun h : id = d.id => hid (h ▸ hmem))

end Spares

theorem Site.definition?_of_lookup? {e : Entry K} {name : String} (hv : s.store.Valid)
    (hl : s.store.lookup? name = some e) :
    s.store.definition? e.definition.id = some e.definition :=
  Store.definition?_of_get? (hv.canonical?_of_lookup? hl).2

/-- A resolution spares the definitions on its path. -/
theorem Resolves.spares (h : Resolves f path g s r s') (hv : s.store.Valid)
    (hg : g.Registered s.store) : Spares path s s' := by
  -- By the rules: a definition's dependencies spare the longer path, and at last it fills its own
  -- slot, which was empty.
  induction h with
  | tooDeep | cycle | found | nil | missing => exact .refl _ _
  | unresolved hid hfree deps ih => exact (ih hv trivial).mono (List.subset_append_left _ _)
  | existing hid hfree deps hf ih =>
    have hs := ih hv trivial
    exact (hs.mono (List.subset_append_left _ _)).trans (hs.keep rfl hg hfree hid _)
  | made hid hfree deps hf hrun ih =>
    have hs := ih hv trivial
    exact ((hs.mono (List.subset_append_left _ _)).trans (.ran hid _ _)).trans
      (hs.keep (by rfl) hg hfree hid _)
  | stopped hid hfree deps hf hrun ih =>
    exact ((ih hv trivial).mono (List.subset_append_left _ _)).trans (.ran hid _ _)
  | cached hl hs others ih => exact ih hv trivial
  | failed hl hs one ih => exact ih hv (Site.definition?_of_lookup? hv hl)
  | resolved hl hs one others ihone ih =>
    have h₁ := ihone hv (Site.definition?_of_lookup? hv hl)
    exact h₁.trans (ih (hv.of_filled h₁.filled) trivial)

/-! ### Complete definitions -/

namespace Store

variable {st st' : Store K} {id : String}

/-- All that a definition depends on, directly or not, is registered and leads to no cycle. -/
inductive Complete (st : Store K) : String → Prop
  /-- Its dependencies stand for something that is complete. -/
  | intro {id : String} {d : Definition K} (target : String → String)
      (hd : st.definition? id = some d)
      (names : ∀ n ∈ d.dependencies, st.canonical? n = some (target n))
      (all : ∀ n ∈ d.dependencies, Complete st (target n)) : Complete st id

theorem Complete.grown (h : st.Complete id) (hg : st.Grown st') : st'.Complete id := by
  induction h with
  | intro target hd names all ih =>
    exact .intro target (hg.definitions hd) (fun n hn => hg.names (names n hn)) ih

/-- From a complete definition no cycle is reachable. -/
theorem Complete.not_cyclic (h : st.Complete id) : ¬ st.Cyclic id := by
  induction h with
  | intro target hd names all ih =>
    refine not_cyclic_of_edges ?_
    rintro b ⟨d', hd', n, hn, hb⟩
    rw [hd] at hd'
    cases hd'
    rw [names n hn] at hb
    cases hb
    exact ih n hn

theorem Complete.of_dependencies (hd : st.definition? id = some d)
    (h : ∀ n ∈ d.dependencies, ∃ b, st.canonical? n = some b ∧ st.Complete b) :
    st.Complete id := by
  refine .intro (fun n => (st.canonical? n).getD n) hd ?_ ?_
  · intro n hn
    obtain ⟨b, hb, _⟩ := h n hn
    simp [hb]
  · intro n hn
    obtain ⟨b, hb, hc⟩ := h n hn
    simpa [hb] using hc

/-- Only what is complete has an instance in its slot. -/
def Sealed (st : Store K) : Prop := ∀ {id i}, st.slot? id = some i → st.Complete id

end Store

namespace Site

theorem slot?_keep (hd : s.store.definition? d.id = some d) (i : Instance K) (id : String) :
    (s.keep d i).store.slot? id
      = if id = d.id ∧ d.scope = .singleton then some i else s.store.slot? id := by
  cases hs : d.scope with
  | prototype => simp [keep, hs]
  | singleton => simpa [keep, hs] using Store.slot?_fill hd i id

/-- Where the dependencies of a definition are complete, and an instance of it is kept, all that is
    in slots is complete, and so is the definition. -/
theorem complete_keep (hs : s.store.Sealed) (hd : s.store.definition? d.id = some d)
    (hkeep : Spares path s (s.keep d i))
    (hdeps : ∀ n ∈ d.dependencies, ∃ b, s.store.canonical? n = some b ∧ s.store.Complete b) :
    (s.keep d i).store.Sealed ∧ ∀ n ∈ (Goal.definition d).all,
      ∃ id, (s.keep d i).store.canonical? n = some id ∧ (s.keep d i).store.Complete id := by
  have hgrown := hkeep.filled.grown
  -- Its dependencies are complete, and therefore so is it.
  have hc : s.store.Complete d.id := .of_dependencies hd hdeps
  constructor
  · intro id i' hi
    rw [slot?_keep hd] at hi
    split at hi
    · next h => exact h.1 ▸ hc.grown hgrown
    · exact (hs hi).grown hgrown
  · intro n hn
    obtain rfl := List.mem_singleton.mp hn
    exact ⟨d.id, Store.canonical?_id (hgrown.definitions hd), hc.grown hgrown⟩

end Site

/-- What a resolution leaves in slots is complete, and so is what it succeeds on. -/
theorem Resolves.complete (h : Resolves f path g s r s') (hv : s.store.Valid)
    (hg : g.Registered s.store) (hs : s.store.Sealed) :
    s'.store.Sealed ∧ ∀ given, r = .ok given →
      ∀ n ∈ g.all, ∃ id, s'.store.canonical? n = some id ∧ s'.store.Complete id := by
  induction h with
  -- Where nothing was resolved, nothing new is in a slot.
  | tooDeep | cycle | missing => exact ⟨hs, fun given hr => by cases hr⟩
  | found hid hd hslot =>
    refine ⟨hs, fun given hr n hn => ?_⟩
    obtain rfl := List.mem_singleton.mp hn
    exact ⟨_, Store.canonical?_id hg, hs hslot⟩
  | unresolved hid hfree deps ih => exact ⟨(ih hv trivial hs).1, fun given hr => by cases hr⟩
  | stopped hid hfree deps hf hrun ih => exact ⟨(ih hv trivial hs).1, fun given hr => by cases hr⟩
  -- The dependencies are complete by now, so the slot that is filled last is complete too.
  | existing hid hfree deps hf ih =>
    obtain ⟨hsealed, hdeps⟩ := ih hv trivial hs
    have hspares := deps.spares hv trivial
    obtain ⟨hsealed', hall⟩ := Site.complete_keep hsealed (hspares.registered hg)
      (hspares.keep rfl hg hfree hid _) (hdeps _ rfl)
    exact ⟨hsealed', fun _ _ => hall⟩
  | @made path d s given s₁ _ held rest hid hfree deps hf hrun ih =>
    obtain ⟨hsealed, hdeps⟩ := ih hv trivial hs
    have hspares := deps.spares hv trivial
    obtain ⟨hsealed', hall⟩ := Site.complete_keep
      (s := s₁.ran ⟨d, given, .ok ⟨d.type, held⟩⟩ rest) hsealed (hspares.registered hg)
      (hspares.keep (by rfl) hg hfree hid _) (hdeps _ rfl)
    exact ⟨hsealed', fun _ _ => hall⟩
  | nil => exact ⟨hs, fun given hr n hn => by cases hn⟩
  | @cached path s name names e i r s' hl hslot others ih =>
    obtain ⟨hsealed, hall⟩ := ih hv trivial hs
    obtain ⟨hn, he⟩ := hv.canonical?_of_lookup? hl
    have hgrown := (others.spares hv trivial).filled.grown
    refine ⟨hsealed, fun given hr n hmem => ?_⟩
    -- What was in its slot is complete already, and stays so while the others are resolved.
    rcases List.mem_cons.mp hmem with rfl | hmem
    · have hc := hs ((Store.slot?_of_get? he).trans hslot)
      exact ⟨_, hgrown.names hn, hc.grown hgrown⟩
    · cases r with
      | error e => cases hr
      | ok given' => exact hall given' rfl n hmem
  | failed hl hslot one ih =>
    exact ⟨(ih hv (Site.definition?_of_lookup? hv hl) hs).1, fun given hr => by cases hr⟩
  | @resolved path s name names e i s₁ r s' hl hslot one others ihone ih =>
    have hd := Site.definition?_of_lookup? hv hl
    have hspares := one.spares hv hd
    have hv₁ := hv.of_filled hspares.filled
    obtain ⟨hsealed₁, hone⟩ := ihone hv hd hs
    obtain ⟨hsealed, hall⟩ := ih hv₁ trivial hsealed₁
    have hgrown := (others.spares hv₁ trivial).filled.grown
    refine ⟨hsealed, fun given hr n hmem => ?_⟩
    rcases List.mem_cons.mp hmem with rfl | hmem
    -- What is resolved first is complete after that, and stays so while the others are resolved.
    · obtain ⟨id, hid, hc⟩ := hone _ rfl e.definition.id List.mem_cons_self
      rw [Store.canonical?_id (hspares.filled.grown.definitions hd)] at hid
      cases hid
      have hn := hspares.filled.grown.names (hv.canonical?_of_lookup? hl).1
      exact ⟨_, hgrown.names hn, hc.grown hgrown⟩
    · cases r with
      | error e => cases hr
      | ok given' => exact hall given' rfl n hmem

end ComponentHost
