import ComponentHost.Proofs.Registry.Resolving

/-! # Cycles are found

  A caller who resolves a name is told of a cycle exactly if one is reachable, whatever has happened
  to the store before and whatever factories do. Where there is a cycle, nothing runs. Where there
  is none, the recursion ends by itself: the definitions on its path are different ones, so their
  number bounds its depth, and no larger limit makes a difference.

  An instance that is taken from its slot is not searched for cycles. That hides none: only what is
  complete is ever put into a slot, nothing that is registered later changes what its names stand
  for, and from what is complete no cycle is reachable.
-/

namespace ComponentHost

open Relation Resolution

variable {K : Kit} {τ : Type} {f : Factories K τ} {limit : Nat} {path : List String}
  {d : Definition K} {s : Site K τ} {root : String}

/-! ### Where no cycle is reachable -/

/-- A result that tells neither of a cycle nor of a recursion that is too deep. -/
def Plain {α : Type} (r : Except Error α) : Prop :=
  (∀ path, r ≠ .error (.circularDependency path)) ∧ r ≠ .error tooDeep

theorem Plain.ok {α : Type} (a : α) : Plain (.ok a : Except Error α) := ⟨by simp, by simp⟩

theorem Plain.map {α β : Type} {r : Except Error α} (h : Plain r) (g : α → β) :
    Plain (r.map g) := by
  cases r with
  | error e => exact ⟨fun path he => h.1 path (by cases he; rfl), fun he => h.2 (by cases he; rfl)⟩
  | ok a => exact .ok _

theorem make_plain (f : Factories K τ) (d : Definition K) (deps : Dependencies K) (s : Site K τ) :
    Plain (make f.maker d deps s).1 := by
  unfold make
  cases d.factory with
  | existing held => exact .ok _
  | make g =>
    simp only
    rcases f.maker d g deps s with ⟨stop | held, s'⟩
    · exact ⟨by simp, by simp [tooDeep]⟩
    · exact .ok _

/-- Resolving names with two things that do the same for each of them. -/
theorem resolveAll_stable {one one' : Definition K → Attempt (Site K τ) (Instance K)}
    {names : List String}
    (hone : ∀ name ∈ names, ∀ s', s.store.Filled s'.store → ∀ e, s'.store.lookup? name = some e →
      one e.definition s' = one' e.definition s' ∧ Plain (one e.definition s').1 ∧
        s'.store.Filled (one e.definition s').2.store) :
    resolveAll one names s = resolveAll one' names s ∧ Plain (resolveAll one names s).1 := by
  induction names generalizing s with
  | nil => exact ⟨rfl, .ok _⟩
  | cons name rest ih =>
    cases hl : s.store.lookup? name with
    | none =>
      rw [resolveAll_missing hl, resolveAll_missing hl]
      exact ⟨rfl, by simp, by simp [tooDeep]⟩
    | some e =>
      cases hs : e.slot with
      | some i =>
        -- Nothing is resolved here, so only the rest matters.
        obtain ⟨heq, hplain⟩ := ih fun n hn => hone n (List.mem_cons_of_mem _ hn)
        rw [resolveAll_cached hl hs, resolveAll_cached hl hs, heq]
        exact ⟨rfl, heq ▸ hplain.map _⟩
      | none =>
        -- Both ways to resolve one name agree on the store that the names before have left.
        obtain ⟨heq, hplain, hfilled⟩ := hone name List.mem_cons_self s (.refl _) e hl
        rcases ho : one e.definition s with ⟨er | i, s₁⟩
        · rw [ho] at heq hplain
          rw [resolveAll_failed hl hs ho, resolveAll_failed hl hs heq.symm]
          exact ⟨rfl, fun path he => hplain.1 path (by cases he; rfl),
            fun he => hplain.2 (by cases he; rfl)⟩
        · rw [ho] at heq hfilled
          obtain ⟨heq', hplain'⟩ := ih (s := s₁) fun n hn s' hf =>
            hone n (List.mem_cons_of_mem _ hn) s' (hfilled.trans hf)
          rw [resolveAll_resolved hl hs ho, resolveAll_resolved hl hs heq.symm, heq']
          exact ⟨rfl, heq' ▸ hplain'.map _⟩

/-- Where no cycle is reachable, and on a path of different definitions, no limit makes a difference
    that leaves room for all of them. -/
theorem resolve_stable {limit limit' : Nat} (hv : s.store.Valid)
    (hd : s.store.definition? d.id = some d) (hfree : ¬ s.store.Cyclic d.id)
    (way : s.store.Way root path d.id) (h : s.store.size ≤ limit + path.length)
    (h' : s.store.size ≤ limit' + path.length) :
    resolve f.maker limit path d s = resolve f.maker limit' path d s ∧
      Plain (resolve f.maker limit path d s).1 := by
  induction limit generalizing limit' path d s with
  | zero =>
    -- On a path of different definitions this would be one too many.
    have hlt := way.length_lt hv (way.not_mem hfree) hd
    omega
  | succ limit ih =>
    have hid := way.not_mem hfree
    have hlt := way.length_lt hv hid hd
    obtain ⟨limit', rfl⟩ : ∃ n, limit' = n + 1 := ⟨limit' - 1, by omega⟩
    have hdeps : resolveAll (resolve f.maker limit (path ++ [d.id])) d.dependencies s
          = resolveAll (resolve f.maker limit' (path ++ [d.id])) d.dependencies s ∧
        Plain (resolveAll (resolve f.maker limit (path ++ [d.id])) d.dependencies s).1 := by
      -- A dependency is resolved one step further down the path, in a store with more slots filled.
      refine resolveAll_stable fun name hname s' hf e hl => ?_
      have hv' := hv.of_filled hf
      have he := Site.definition?_of_lookup? hv' hl
      have hedge : s.store.Edge d.id e.definition.id :=
        ⟨d, hd, name, hname, hf.names ▸ (hv'.canonical?_of_lookup? hl).1⟩
      have hfree' : ¬ s'.store.Cyclic e.definition.id := by
        rw [hf.cyclic_eq]
        exact Store.not_cyclic_of_edge hfree hedge
      -- The path has grown by one, and the limit has shrunk by one.
      have hroom {l : Nat} (hl : s.store.size ≤ l + 1 + path.length) :
          s'.store.size ≤ l + (path ++ [d.id]).length := by
        rw [hf.size_eq, List.length_append, List.length_singleton]
        omega
      have hstable := ih hv' he hfree' ((way.step hv hid hedge).filled hf) (hroom h) (hroom h')
      exact ⟨hstable.1, hstable.2, ((resolve_resolves _ _ _ s').spares hv' he).filled⟩
    have hconstruct : construct f.maker limit path d s = construct f.maker limit' path d s ∧
        Plain (construct f.maker limit path d s).1 := by
      obtain ⟨heq, hplain⟩ := hdeps
      rw [construct_eq, construct_eq, ← heq]
      refine ⟨rfl, ?_⟩
      split
      · next er s₁ hr =>
        rw [hr] at hplain
        exact ⟨fun path he => hplain.1 path (by cases he; rfl),
          fun he => hplain.2 (by cases he; rfl)⟩
      · exact make_plain f d _ _
    cases hscope : d.scope with
    | prototype =>
      rw [resolve_prototype hid hscope, resolve_prototype hid hscope]
      exact hconstruct
    | singleton =>
      cases hs : s.store.slot? d.id with
      -- The slot is filled, so no limit matters.
      | some i =>
        rw [resolve_found hid hscope hs, resolve_found hid hscope hs]
        exact ⟨rfl, .ok i⟩
      | none =>
        obtain ⟨heq, hplain⟩ := hconstruct
        rw [resolve_singleton hid hscope hs, resolve_singleton hid hscope hs, ← heq]
        refine ⟨rfl, ?_⟩
        split
        · next er s₁ hr =>
          rw [hr] at hplain
          exact ⟨fun path he => hplain.1 path (by cases he; rfl),
            fun he => hplain.2 (by cases he; rfl)⟩
        · exact .ok _

/-! ### All sites -/

namespace Store.Sealed

variable {st st' : Store K} {new name : String}

theorem register (h : st.Sealed) (hr : st.register d = .ok st') : st'.Sealed := by
  intro id i hi
  rw [(register_views hr).2.1] at hi
  exact (h hi).grown (register_grown hr)

theorem addAlias (h : st.Sealed) (hr : st.addAlias new name = .ok st') : st'.Sealed := by
  intro id i hi
  rw [slot?_addAlias hr] at hi
  exact (h hi).grown (addAlias_grown hr)

theorem instantiate (h : s.store.Sealed) (hv : s.store.Valid) :
    (Resolution.instantiate f.maker limit name s).2.store.Sealed := by
  rcases instantiate_resolves (f := f) limit name s with ⟨e, he⟩ | hres
  · rw [he]
    exact h
  · exact (hres.complete hv trivial h).1

end Store.Sealed

/-- At every site names stand for what is registered, and only what is complete is in a slot. -/
theorem Site.valid_sealed (f : Factories K τ) (limit : Nat) (rest : τ)
    (commands : List (Command K)) :
    ((start rest).after f limit commands).store.Valid ∧
      ((start rest).after f limit commands).store.Sealed := by
  -- An instantiation is refused at once, or it does no more than fill slots.
  have resolved (s : Site K τ) (name : String) (h : s.store.Valid ∧ s.store.Sealed) :
      (instantiate f.maker limit name s).2.store.Valid ∧
        (instantiate f.maker limit name s).2.store.Sealed := by
    refine ⟨?_, Store.Sealed.instantiate h.2 h.1⟩
    rcases instantiate_resolves (f := f) limit name s with ⟨e, he⟩ | hres
    · rw [he]
      exact h.1
    · exact h.1.of_filled (hres.spares h.1 trivial).filled
  exact after_induction (P := fun s => s.store.Valid ∧ s.store.Sealed) rest
    ⟨Store.valid_empty, fun h => by cases h⟩
    (fun s d store h hr => ⟨h.1.register hr, Store.Sealed.register h.2 hr⟩)
    (fun s new name store h hr => ⟨h.1.addAlias hr, Store.Sealed.addAlias h.2 hr⟩)
    resolved (fun s name i h _ => resolved s name h) commands

/-- What the resolution of a name does at a site like these. -/
theorem instantiate_cycles {name : String} {e : Entry K} (f : Factories K τ) (hv : s.store.Valid)
    (hsealed : s.store.Sealed) (hl : s.store.lookup? name = some e) :
    ∃ r s', (∀ limit, s.store.size ≤ limit → instantiate f.maker limit name s = (r, s')) ∧
      r ≠ .error tooDeep ∧
      ((∃ path, r = .error (.circularDependency path)) ↔ s.store.Cyclic e.definition.id) ∧
      ∀ path, r = .error (.circularDependency path) →
        s' = s ∧ s.store.CycleBelow e.definition.id path := by
  have hd := Site.definition?_of_lookup? hv hl
  cases hs : e.slot with
  -- What is in a slot was complete, and no cycle lies below what is complete.
  | some i =>
    have hslot := (Store.slot?_of_get? (hv.canonical?_of_lookup? hl).2).trans hs
    have hfree := (hsealed hslot).not_cyclic
    exact ⟨.ok i, s, fun _ _ => instantiate_found hl hs, by simp, by simpa using hfree, by simp⟩
  | none =>
    rcases Store.checkAcyclic_spec hv hd with ⟨hc, hfree⟩ | ⟨path, hc, hcycle⟩
    · rcases hr : resolve f.maker s.store.size [] e.definition s with ⟨r, s'⟩
      -- Below an acyclic definition, all sufficient limits give what the size of the store gives.
      have hstable (limit : Nat) (h : s.store.size ≤ limit) :
          resolve f.maker limit [] e.definition s = (r, s') ∧ Plain r := by
        obtain ⟨heq, hplain⟩ :=
          resolve_stable (f := f) hv hd hfree (.start _ _) h (Nat.le_refl s.store.size)
        have hres : resolve f.maker limit [] e.definition s = (r, s') := heq.trans hr
        rw [hres] at hplain
        exact ⟨hres, hplain⟩
      obtain ⟨-, hcycle, hdeep⟩ := hstable s.store.size (Nat.le_refl _)
      refine ⟨r, s', fun limit h => ?_, hdeep, ?_, fun path hp => absurd hp (hcycle path)⟩
      · rw [instantiate_acyclic hl hs hc]
        exact (hstable limit h).1
      · exact ⟨fun ⟨path, hp⟩ => absurd hp (hcycle path), fun hcyclic => absurd hcyclic hfree⟩
    -- The search has found a cycle, and nothing was resolved.
    · refine ⟨_, s, fun _ _ => instantiate_cycle hl hs hc, by simp [tooDeep], ?_, ?_⟩
      · exact ⟨fun _ => hcycle.cyclic, fun _ => ⟨path, rfl⟩⟩
      · rintro path' hp
        cases hp
        exact ⟨rfl, hcycle⟩

/-- **Cycles are found, and nothing else is taken for one.** At every site and for every name of a
    definition: the resolution has one outcome for all limits that leave room for all definitions,
    which is never that the limit was reached. It tells of a cycle exactly if one is reachable from
    the definition; then nothing has changed and no factory has run, and what it tells is a
    reachable cycle. -/
theorem cycles_found (f : Factories K τ) (limit : Nat) (rest : τ) (commands : List (Command K))
    (name : String) (e : Entry K)
    (h : ((Site.start rest).after f limit commands).store.lookup? name = some e) :
    let s := (Site.start rest).after f limit commands
    ∃ r s', (∀ limit', s.store.size ≤ limit' → instantiate f.maker limit' name s = (r, s')) ∧
      r ≠ .error tooDeep ∧
      ((∃ path, r = .error (.circularDependency path)) ↔ s.store.Cyclic e.definition.id) ∧
      ∀ path, r = .error (.circularDependency path) →
        s' = s ∧ s.store.CycleBelow e.definition.id path := by
  intro s
  obtain ⟨hv, hsealed⟩ := Site.valid_sealed f limit rest commands
  exact instantiate_cycles f hv hsealed h

/-! ### Two definitions that depend on each other -/

namespace Partners

def kit : Kit := ⟨Unit, Unit, Unit, Unit, Unit⟩

def factories : Factories kit Unit := fun _ _ _ => return .ok (.component ())

/-- A definition that depends on the other by an alias. -/
def first : Definition kit :=
  { id := "a", type := ⟨"A"⟩, dependencies := ["beta"], factory := .make () }

/-- A definition that depends on the first by its id. -/
def second : Definition kit :=
  { id := "b", type := ⟨"B"⟩, aliases := ["beta"], dependencies := ["a"], factory := .make () }

def site : Site kit Unit := (Site.start ()).after factories 2 [.register first, .register second]

end Partners

/-- Resolving either of them tells of the cycle. -/
theorem cycles_found_partners :
    Partners.site.store.lookup? "a" = some ⟨Partners.first, none⟩ ∧
      instantiate Partners.factories.maker 2 "a" Partners.site
        = (.error (.circularDependency ["a", "b", "a"]), Partners.site) ∧
      Partners.site.store.CycleBelow "a" ["a", "b", "a"] := by
  have hl : Partners.site.store.lookup? "a" = some ⟨Partners.first, none⟩ := rfl
  obtain ⟨r, s', hall, -, -, hcycle⟩ := cycles_found Partners.factories 2 ()
    [.register Partners.first, .register Partners.second] "a" ⟨Partners.first, none⟩ hl
  have hrun : instantiate Partners.factories.maker 2 "a" Partners.site
      = (.error (.circularDependency ["a", "b", "a"]), Partners.site) := rfl
  obtain rfl : r = .error (.circularDependency ["a", "b", "a"]) := by
    have := hall 2 (Nat.le_refl 2)
    exact congrArg Prod.fst (this.symm.trans hrun)
  exact ⟨hl, hrun, (hcycle _ rfl).2⟩

end ComponentHost
