import ComponentHost.Proofs.Attempt
import ComponentHost.Proofs.Registry.Names
import ComponentHost.Registry.Resolution

/-! # Steps of a resolution

  What the resolution of names, of a definition, and of a name or a type by a caller does next, as
  equations: one for each way to go on.
-/

namespace ComponentHost

namespace Resolution

variable {K : Kit} {σ : Type} [HasStore K σ] {maker : Maker K σ}
  {one : Definition K → Attempt σ (Instance K)} {limit : Nat} {path : List String}
  {d : Definition K} {s : σ} {name : String} {rest : List String}

open HasStore

/-! ### Names in order -/

theorem entry_ok {e : Entry K} (h : (store s).lookup? name = some e) :
    entry name s = (.ok e, s) := by
  unfold entry
  rw [Attempt.bind_get, h]
  rfl

theorem entry_error (h : (store s).lookup? name = none) :
    entry (K := K) name s = (.error (.definitionNotFound name), s) := by
  unfold entry
  rw [Attempt.bind_get, h]
  rfl

theorem resolveAll_missing (h : (store s).lookup? name = none) :
    resolveAll one (name :: rest) s = (.error (.definitionNotFound name), s) := by
  unfold resolveAll
  rw [Attempt.bind_error (entry_error h)]

theorem resolveAll_cached {e : Entry K} {i : Instance K}
    (h : (store s).lookup? name = some e) (hs : e.slot = some i) :
    resolveAll one (name :: rest) s
      = ((resolveAll one rest s).1.map ((name, i) :: ·), (resolveAll one rest s).2) := by
  conv => lhs; unfold resolveAll
  rw [Attempt.bind_ok (entry_ok h)]
  simp only [hs]
  rw [Attempt.bind_ok (x := pure i) rfl]
  exact Attempt.bind_pure_map _ _ s

theorem resolveAll_failed {e : Entry K} {er : Error} {s₁ : σ}
    (h : (store s).lookup? name = some e) (hs : e.slot = none)
    (hone : one e.definition s = (.error er, s₁)) :
    resolveAll one (name :: rest) s = (.error er, s₁) := by
  unfold resolveAll
  rw [Attempt.bind_ok (entry_ok h)]
  simp only [hs]
  exact Attempt.bind_error hone

theorem resolveAll_resolved {e : Entry K} {i : Instance K} {s₁ : σ}
    (h : (store s).lookup? name = some e) (hs : e.slot = none)
    (hone : one e.definition s = (.ok i, s₁)) :
    resolveAll one (name :: rest) s
      = ((resolveAll one rest s₁).1.map ((name, i) :: ·), (resolveAll one rest s₁).2) := by
  conv => lhs; unfold resolveAll
  rw [Attempt.bind_ok (entry_ok h)]
  simp only [hs]
  rw [Attempt.bind_ok hone]
  exact Attempt.bind_pure_map _ _ s₁

/-! ### Definitions -/

/-- Makes an instance of a definition, with its dependencies. -/
def construct (maker : Maker K σ) (limit : Nat) (path : List String) (d : Definition K) :
    Attempt σ (Instance K) := do
  make maker d ⟨← resolveAll (resolve maker limit (path ++ [d.id])) d.dependencies⟩

theorem construct_eq (maker : Maker K σ) (limit : Nat) (path : List String) (d : Definition K)
    (s : σ) :
    construct maker limit path d s =
      match resolveAll (resolve maker limit (path ++ [d.id])) d.dependencies s with
      | (.error e, s₁) => (.error e, s₁)
      | (.ok given, s₁) => make maker d ⟨given⟩ s₁ := by
  unfold construct
  rcases hr : resolveAll (resolve maker limit (path ++ [d.id])) d.dependencies s with
    ⟨e | given, s₁⟩
  · rw [Attempt.bind_error hr]
  · rw [Attempt.bind_ok hr]

theorem resolve_cycle (hid : d.id ∈ path) :
    resolve maker (limit + 1) path d s
      = (.error (.circularDependency (path.dropWhile (· ≠ d.id) ++ [d.id])), s) := by
  unfold resolve
  rw [if_pos hid]
  rfl

theorem resolve_prototype (hid : d.id ∉ path) (hd : d.scope = .prototype) :
    resolve maker (limit + 1) path d s = construct maker limit path d s := by
  unfold resolve
  rw [if_neg hid]
  simp only [hd]
  rfl

theorem resolve_found {i : Instance K} (hid : d.id ∉ path) (hd : d.scope = .singleton)
    (hs : (store s).slot? d.id = some i) :
    resolve maker (limit + 1) path d s = (.ok i, s) := by
  unfold resolve
  rw [if_neg hid]
  simp only [hd]
  rw [Attempt.bind_get]
  rw [Store.slot?] at hs
  rw [hs]
  rfl

theorem resolve_singleton (hid : d.id ∉ path) (hd : d.scope = .singleton)
    (hs : (store s).slot? d.id = none) :
    resolve maker (limit + 1) path d s =
      match construct maker limit path d s with
      | (.error e, s') => (.error e, s')
      | (.ok i, s') => (.ok i, setStore s' ((store s').fill d.id i)) := by
  unfold resolve
  rw [if_neg hid]
  simp only [hd]
  rw [Attempt.bind_get]
  rw [Store.slot?] at hs
  rw [hs]
  rcases hc : construct maker limit path d s with ⟨e | i, s'⟩
  · exact Attempt.bind_error hc
  · exact Attempt.bind_ok hc

/-! ### Callers -/

theorem instantiate_missing (h : (store s).lookup? name = none) :
    instantiate maker limit name s = (.error (.definitionNotFound name), s) := by
  unfold instantiate
  rw [Attempt.bind_error (entry_error h)]

theorem instantiate_found {e : Entry K} {i : Instance K} (h : (store s).lookup? name = some e)
    (hs : e.slot = some i) : instantiate maker limit name s = (.ok i, s) := by
  unfold instantiate
  rw [Attempt.bind_ok (entry_ok h)]
  simp only [hs]
  rfl

theorem instantiate_cycle {e : Entry K} {er : Error} (h : (store s).lookup? name = some e)
    (hs : e.slot = none) (hc : (store s).checkAcyclic e.definition.id = .error er) :
    instantiate maker limit name s = (.error er, s) := by
  unfold instantiate
  rw [Attempt.bind_ok (entry_ok h)]
  simp only [hs]
  rw [Attempt.bind_get, hc]
  rfl

theorem instantiate_acyclic {e : Entry K} (h : (store s).lookup? name = some e)
    (hs : e.slot = none) (hc : (store s).checkAcyclic e.definition.id = .ok ()) :
    instantiate maker limit name s = resolve maker limit [] e.definition s := by
  unfold instantiate
  rw [Attempt.bind_ok (entry_ok h)]
  simp only [hs]
  rw [Attempt.bind_get, hc]

theorem instantiateAs_missing {key : TypeKey} (h : (store s).lookup? name = none) :
    instantiateAs maker limit name key s = (.error (.definitionNotFound name), s) := by
  unfold instantiateAs
  rw [Attempt.bind_error (entry_error h)]

/-- Where a definition has no way to be handed out under a type, nothing else is done. -/
theorem instantiateAs_refused {e : Entry K} {key : TypeKey} (h : (store s).lookup? name = some e)
    (hc : e.definition.cast? key = none) :
    instantiateAs maker limit name key s
      = (.error (.typeMismatch e.definition.id key.name), s) := by
  unfold instantiateAs
  rw [Attempt.bind_ok (entry_ok h)]
  simp only [hc]
  rfl

theorem instantiateAs_cast {e : Entry K} {key : TypeKey} {cast : Cast K}
    (h : (store s).lookup? name = some e) (hc : e.definition.cast? key = some cast) :
    instantiateAs maker limit name key s =
      match instantiate maker limit name s with
      | (.error er, s') => (.error er, s')
      | (.ok i, s') =>
        if i.type = e.definition.type then (.ok ⟨i, cast⟩, s')
        else (.error (.typeMismatch e.definition.id key.name), s') := by
  unfold instantiateAs
  rw [Attempt.bind_ok (entry_ok h)]
  simp only [hc]
  rcases hi : instantiate maker limit name s with ⟨er | i, s'⟩
  · rw [Attempt.bind_error hi]
  · rw [Attempt.bind_ok hi]
    by_cases ht : i.type = e.definition.type
    · simp only [ht, if_true]
      rfl
    · simp only [ht, if_false]
      rfl

/-- A resolution to a type is refused, or it is the resolution of the name. -/
theorem instantiateAs_spec (maker : Maker K σ) (limit : Nat) (name : String) (key : TypeKey)
    (s : σ) :
    (∃ e, instantiateAs maker limit name key s = (.error e, s)) ∨
      (instantiateAs maker limit name key s).2 = (instantiate maker limit name s).2 ∧
        ∀ p, (instantiateAs maker limit name key s).1 = .ok p →
          (instantiate maker limit name s).1 = .ok p.item := by
  -- Name and view are looked up before anything is resolved.
  cases hl : (store s).lookup? name with
  | none => exact .inl ⟨_, instantiateAs_missing hl⟩
  | some e =>
    cases hc : e.definition.cast? key with
    | none => exact .inl ⟨_, instantiateAs_refused hl hc⟩
    | some cast =>
      right
      rw [instantiateAs_cast hl hc]
      rcases instantiate maker limit name s with ⟨er | i, s'⟩
      · exact ⟨rfl, fun p hp => by cases hp⟩
      · simp only
        split
        · exact ⟨rfl, fun p hp => by cases hp; rfl⟩
        · exact ⟨rfl, fun p hp => by cases hp⟩

theorem instantiateByType_error {key : TypeKey} {e : Error}
    (h : (store s).findByType key = .error e) :
    instantiateByType maker limit key s = (.error e, s) := by
  unfold instantiateByType
  rw [Attempt.bind_get, h]
  rfl

theorem instantiateByType_ok {key : TypeKey} (h : (store s).findByType key = .ok d) :
    instantiateByType maker limit key s = instantiateAs maker limit d.id key s := by
  unfold instantiateByType
  rw [Attempt.bind_get, h]

/-- A resolution by type is that of the id of the only definition that qualifies. -/
theorem instantiateByType_spec (maker : Maker K σ) (limit : Nat) (key : TypeKey) (s : σ) :
    (∃ e, instantiateByType maker limit key s = (.error e, s)) ∨
      ∃ d, (store s).findByType key = .ok d ∧
        instantiateByType maker limit key s = instantiateAs maker limit d.id key s := by
  cases h : (store s).findByType key with
  | error e => exact .inl ⟨e, instantiateByType_error h⟩
  | ok d => exact .inr ⟨d, rfl, instantiateByType_ok h⟩

/-- What every resolution of a name preserves, the attempt to make all singletons preserves. -/
theorem initializeSingletons_preserves {P : σ → Prop}
    (step : ∀ name s, P s → P (instantiate maker limit name s).2) (h : P s) :
    P (initializeSingletons maker limit s).2 := by
  -- By induction on the definitions still to be attempted; what was counted does not matter.
  have all (ds : List (Definition K)) (t : Tally) (s : σ) (h : P s) :
      P (makeSingletons maker limit t ds s).2 := by
    induction ds generalizing t s with
    | nil => exact h
    | cons d rest ih =>
      unfold makeSingletons
      cases d.scope with
      | prototype => exact ih _ s h
      | singleton =>
        have hstep := step d.id s h
        simp only [bind, StateT.bind, ExceptT.run]
        rcases hi : instantiate maker limit d.id s with ⟨er | i, s'⟩
        · rw [hi] at hstep
          exact ih _ s' hstep
        · rw [hi] at hstep
          exact ih _ s' hstep
  exact all _ _ s h

end Resolution

end ComponentHost
