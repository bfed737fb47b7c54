import ComponentHost.Proofs.Registry.Resolving

/-! # Factories that call back

  A factory may use the store while it runs: it may register definitions and aliases, look at all
  that is there, and resolve names and types, which runs other factories in turn. Here a factory is
  a script of such calls, which goes on with their answers; how deeply calls may nest is bounded by
  a number, which is arbitrary.

  Whatever scripts do, a store stays `Typed`: ids are registered once, names stand for what is
  registered, and an instance in a slot has the concrete type of the definition. `Store.Tended` is
  what every single step preserves; it goes from steps to resolutions, from these to commands, from
  commands to scripts, and from scripts to factories that nest one level deeper.
-/

namespace ComponentHost

open Resolution

variable {K : Kit} {τ : Type}

/-! ### Scripts -/

/-- What a command is answered with. -/
inductive Reply (K : Kit)
  /-- Something was registered, or was not. -/
  | done (r : Except Error Unit)
  | item (r : Except Error (Instance K))
  /-- An instance under a type. -/
  | presented (r : Except Error (Presented K))
  /-- How the attempt to make all singletons went. -/
  | tally (t : Tally)

/-- What a factory does. -/
inductive Script (K : Kit) (τ : Type)
  /-- It has made an instance, or stops without one. -/
  | ends (outcome : Except Stop (Held K))
  /-- It changes what factories keep. -/
  | keeps (rest : τ) (next : Script K τ)
  /-- It calls the store, and goes on with the answer and with all that it sees then. -/
  | calls (command : Command K) (next : Reply K → Site K τ → Script K τ)

/-- Factories that call back. -/
abbrev Callers (K : Kit) (τ : Type) :=
  Definition K → K.factory → Dependencies K → Site K τ → Script K τ

namespace Site

/-- Carries a command out, with any way to run factories. -/
def carryOut (maker : Maker K (Site K τ)) (limit : Nat) (c : Command K) (s : Site K τ) :
    Reply K × Site K τ :=
  match c with
  | .register d =>
    match s.store.register d with
    | .ok store => (.done (.ok ()), { s with store })
    | .error e => (.done (.error e), s)
  | .addAlias new name =>
    match s.store.addAlias new name with
    | .ok store => (.done (.ok ()), { s with store })
    | .error e => (.done (.error e), s)
  | .instantiate name => (instantiate maker limit name s).map .item id
  | .instantiateAs name key => (instantiateAs maker limit name key s).map .presented id
  | .instantiateByType key => (instantiateByType maker limit key s).map .presented id
  | .makeAll => (initializeSingletons maker limit s).map .tally id

/-- Carries commands out in order. -/
def through (maker : Maker K (Site K τ)) (limit : Nat) (s : Site K τ)
    (commands : List (Command K)) : Site K τ :=
  commands.foldl (fun s c => (s.carryOut maker limit c).2) s

end Site

def Script.run (op : Command K → Site K τ → Reply K × Site K τ) :
    Script K τ → Site K τ → Except Stop (Held K) × Site K τ
  | ends outcome, s => (outcome, s)
  | keeps rest next, s => next.run op { s with rest }
  | calls c next, s => (next (op c s).1 (op c s).2).run op (op c s).2

namespace Callers

/-- Notes how a run of a factory went. -/
def noted (d : Definition K) (deps : Dependencies K) (run : Except Stop (Held K) × Site K τ) :
    Except Stop (Held K) × Site K τ :=
  (run.1, run.2.note (.ran ⟨d, deps.resolved, run.1.map (⟨d.type, ·⟩)⟩))

/-- Runs factories, whose calls may nest as deeply as a number says. -/
def maker (f : Callers K τ) (limit : Nat) : Nat → Maker K (Site K τ)
  | 0 => fun d _ deps s => noted d deps (.error (.ofError tooDeep), s)
  | depth + 1 => fun d g deps s =>
    noted d deps ((f d g deps s).run (fun c s => s.carryOut (f.maker limit depth) limit c) s)

end Callers

/-! ### Typed stores -/

namespace Store

variable {st st' st'' : Store K} {d : Definition K} {new name : String}

/-- A store in which names stand for what is registered, and instances are of the concrete types of
    their definitions. -/
structure Typed (st : Store K) : Prop where
  /-- Names stand for what is registered. -/
  valid : st.Valid
  /-- An instance in a slot is of the type of the definition. -/
  slots : ∀ {id d i}, st.definition? id = some d → st.slot? id = some i → i.type = d.type

/-- What becomes of a typed store: it is typed, and its definitions are what they were. -/
structure Tended (st st' : Store K) : Prop where
  typed : st'.Typed
  definitions : ∀ {id d}, st.definition? id = some d → st'.definition? id = some d

theorem typed_empty : ({} : Store K).Typed where
  valid := valid_empty
  slots hd := by cases hd

/-- What is listed is found under its id. -/
theorem Typed.definition?_of_mem (h : st.Typed) (hd : d ∈ st.definitions) :
    st.definition? d.id = some d := by
  obtain ⟨id, -, found⟩ : ∃ id ∈ st.ids, st.definition? id = some d := List.mem_filterMap.mp hd
  rwa [h.valid.ids found]

theorem Typed.find?_of_mem (h : st.Typed) (hd : d ∈ st.definitions) : st.find? d.id = some d := by
  have hd' := h.definition?_of_mem hd
  obtain ⟨e, he, hget, -⟩ := h.valid.lookup?_of_canonical? (canonical?_id hd')
  rw [find?, he, Option.map_some, ← hd', definition?_of_get? hget]

namespace Tended

theorem refl (h : st.Typed) : st.Tended st := ⟨h, id⟩

theorem trans (h : st.Tended st') (h' : st'.Tended st'') : st.Tended st'' :=
  ⟨h'.typed, fun hd => h'.definitions (h.definitions hd)⟩

theorem register (h : st.Typed) (hr : st.register d = .ok st') : st.Tended st' where
  definitions hd := (register_grown hr).definitions hd
  typed := by
    obtain ⟨hid, -⟩ := register_ok hr
    obtain ⟨hdefinition, hslot, -⟩ := register_views hr
    refine ⟨h.valid.register hr, fun {id d' i} hd hi => ?_⟩
    rw [hslot] at hi
    rw [hdefinition] at hd
    split at hd
    · -- The id was free, so nothing was in its slot.
      next heq =>
      rw [heq, slot?_of_definition?_none (definition?_of_canonical?_none hid)] at hi
      cases hi
    · exact h.slots hd hi

theorem addAlias (h : st.Typed) (ha : st.addAlias new name = .ok st') : st.Tended st' := by
  have hv := h.valid.addAlias ha
  rcases addAlias_ok ha with rfl | ⟨id, -, -, rfl⟩
  · exact .refl h
  · exact ⟨⟨hv, h.slots⟩, fun hd => hd⟩

/-- An instance of a definition is put into its slot. -/
theorem fill (h : st.Typed) (hd : st.definition? d.id = some d) {i : Instance K}
    (hi : i.type = d.type) : st.Tended (st.fill d.id i) where
  definitions hd := by rwa [definition?_fill]
  typed := by
    have valid := h.valid.congr (ids_fill st d.id i) (canonical?_fill st d.id i)
      (definition?_fill st d.id i)
    refine ⟨valid, fun hd' hi' => ?_⟩
    rw [definition?_fill] at hd'
    rw [slot?_fill hd] at hi'
    -- The slot is that of the definition, or it is as it was.
    split at hi'
    · next heq =>
      cases hi'
      obtain rfl := Option.some.inj (hd.symm.trans (heq ▸ hd'))
      exact hi
    · exact h.slots hd' hi'

end Tended

end Store

/-! ### Instances have the types of their definitions -/

namespace Resolution

section Types

variable {σ : Type} [HasStore K σ] {maker : Maker K σ} {limit : Nat} {path : List String}
  {d : Definition K} {s : σ} {i : Instance K} {name : String}

open HasStore

omit [HasStore K σ] in
theorem make_type {deps : Dependencies K} (h : (make maker d deps s).1 = .ok i) :
    i.type = d.type := by
  unfold make at h
  cases hf : d.factory with
  | existing held =>
    rw [hf] at h
    cases h
    rfl
  | make g =>
    simp only [hf] at h
    split at h
    · cases h
      rfl
    · cases h

theorem construct_type (h : (construct maker limit path d s).1 = .ok i) : i.type = d.type := by
  rw [construct_eq] at h
  split at h
  · cases h
  · exact make_type h

/-- What is resolved is of the concrete type of the definition. -/
theorem resolve_type (ht : (store s).Typed) (hd : (store s).definition? d.id = some d)
    (h : (resolve maker limit path d s).1 = .ok i) : i.type = d.type := by
  cases limit with
  | zero => cases h
  | succ limit =>
    by_cases hid : d.id ∈ path
    · rw [resolve_cycle hid] at h
      cases h
    cases hscope : d.scope with
    | prototype =>
      rw [resolve_prototype hid hscope] at h
      exact construct_type h
    | singleton =>
      cases hs : (store s).slot? d.id with
      | some j =>
        rw [resolve_found hid hscope hs] at h
        cases h
        -- What is in a slot was typed before; anything else comes from the factory.
        exact ht.slots hd hs
      | none =>
        rw [resolve_singleton hid hscope hs] at h
        split at h
        · cases h
        · next j s' hc =>
          cases h
          exact construct_type (congrArg Prod.fst hc)

/-- What a name is resolved to is of the concrete type of the definition. -/
theorem instantiate_type {e : Entry K} (ht : (store s).Typed)
    (he : (store s).lookup? name = some e) (h : (instantiate maker limit name s).1 = .ok i) :
    i.type = e.definition.type := by
  -- It is cached with the type of its definition, or made with it.
  have hget := (ht.valid.canonical?_of_lookup? he).2
  have hd := Store.definition?_of_get? hget
  cases hs : e.slot with
  | some j =>
    rw [instantiate_found he hs] at h
    cases h
    exact ht.slots hd ((Store.slot?_of_get? hget).trans hs)
  | none =>
    cases hc : (store s).checkAcyclic e.definition.id with
    | error er =>
      rw [instantiate_cycle he hs hc] at h
      cases h
    | ok u =>
      rw [instantiate_acyclic he hs hc] at h
      exact resolve_type ht hd h

end Types

/-! ### Stores stay typed -/

section Tended

variable {maker : Maker K (Site K τ)} {limit : Nat} {path : List String} {d : Definition K}
  {s : Site K τ} {name : String}

/-- A way to run factories that tends the store. -/
def Tending (maker : Maker K (Site K τ)) : Prop :=
  ∀ d g deps (s : Site K τ), s.store.Typed → s.store.Tended (maker d g deps s).2.store

theorem make_tended (hm : Tending maker) (deps : Dependencies K) (ht : s.store.Typed) :
    s.store.Tended (make maker d deps s).2.store := by
  unfold make
  cases d.factory with
  | existing held => exact .refl ht
  | make g =>
    have ran := hm d g deps s ht
    simp only
    rcases hrun : maker d g deps s with ⟨stop | held, s'⟩
    · rwa [hrun] at ran
    · rwa [hrun] at ran

/-- Resolving names with something that tends the store. -/
theorem resolveAll_tended {one : Definition K → Attempt (Site K τ) (Instance K)}
    (hone : ∀ d (s : Site K τ), s.store.Typed → s.store.definition? d.id = some d →
      s.store.Tended (one d s).2.store)
    (names : List String) (ht : s.store.Typed) :
    s.store.Tended (resolveAll one names s).2.store := by
  -- By induction on the names: every step leaves a typed store for the next one.
  induction names generalizing s with
  | nil => exact .refl ht
  | cons name rest ih =>
    cases hl : s.store.lookup? name with
    | none =>
      rw [resolveAll_missing hl]
      exact .refl ht
    | some e =>
      cases hs : e.slot with
      | some i =>
        rw [resolveAll_cached hl hs]
        exact ih ht
      | none =>
        have first := hone e.definition s ht (Site.definition?_of_lookup? ht.valid hl)
        rcases ho : one e.definition s with ⟨er | i, s₁⟩
        · rw [ho] at first
          rw [resolveAll_failed hl hs ho]
          exact first
        · rw [ho] at first
          rw [resolveAll_resolved hl hs ho]
          exact first.trans (ih first.typed)

theorem construct_tended (hm : Tending maker)
    (hdeps : s.store.Tended
      (resolveAll (resolve maker limit (path ++ [d.id])) d.dependencies s).2.store) :
    s.store.Tended (construct maker limit path d s).2.store := by
  rw [construct_eq]
  rcases hr : resolveAll (resolve maker limit (path ++ [d.id])) d.dependencies s with
    ⟨e | given, s₁⟩
  · rw [hr] at hdeps
    exact hdeps
  · rw [hr] at hdeps
    exact hdeps.trans (make_tended hm ⟨given⟩ hdeps.typed)

theorem resolve_tended (hm : Tending maker) (limit : Nat) (path : List String) (d : Definition K)
    (s : Site K τ) (ht : s.store.Typed) (hd : s.store.definition? d.id = some d) :
    s.store.Tended (resolve maker limit path d s).2.store := by
  induction limit generalizing path d s with
  | zero => exact .refl ht
  | succ limit ih =>
    by_cases hid : d.id ∈ path
    · rw [resolve_cycle hid]
      exact .refl ht
    have hc : s.store.Tended (construct maker limit path d s).2.store :=
      construct_tended hm (resolveAll_tended (ih (path ++ [d.id])) d.dependencies ht)
    cases hscope : d.scope with
    | prototype =>
      rw [resolve_prototype hid hscope]
      exact hc
    | singleton =>
      cases hs : s.store.slot? d.id with
      | some i =>
        rw [resolve_found hid hscope hs]
        exact .refl ht
      | none =>
        rw [resolve_singleton hid hscope hs]
        rcases hrun : construct maker limit path d s with ⟨e | i, s'⟩
        · rwa [hrun] at hc
        · rw [hrun] at hc
          -- Whatever was called back meanwhile, the id still stands for this definition.
          exact hc.trans (.fill hc.typed (hc.definitions hd)
            (construct_type (congrArg Prod.fst hrun)))

theorem instantiate_tended (hm : Tending maker) (limit : Nat) (name : String) (s : Site K τ)
    (ht : s.store.Typed) : s.store.Tended (instantiate maker limit name s).2.store := by
  -- Nothing happens to the store unless the slot is empty and the check passes.
  cases hl : s.store.lookup? name with
  | none =>
    rw [instantiate_missing hl]
    exact .refl ht
  | some e =>
    cases hs : e.slot with
    | some i =>
      rw [instantiate_found hl hs]
      exact .refl ht
    | none =>
      cases hc : s.store.checkAcyclic e.definition.id with
      | error er =>
        rw [instantiate_cycle hl hs hc]
        exact .refl ht
      | ok u =>
        rw [instantiate_acyclic hl hs hc]
        exact resolve_tended hm limit [] _ s ht (Site.definition?_of_lookup? ht.valid hl)

theorem instantiateAs_tended (hm : Tending maker) (limit : Nat) (name : String) (key : TypeKey)
    (s : Site K τ) (ht : s.store.Typed) :
    s.store.Tended (instantiateAs maker limit name key s).2.store := by
  rcases instantiateAs_spec maker limit name key s with ⟨e, he⟩ | ⟨hs, -⟩
  · rw [he]
    exact .refl ht
  · rw [hs]
    exact instantiate_tended hm limit name s ht

end Tended

end Resolution

namespace Site

/-- Every command tends the store, if running factories does. -/
theorem carryOut_tended {maker : Maker K (Site K τ)} (hm : Tending maker) (limit : Nat)
    (c : Command K) (s : Site K τ) (ht : s.store.Typed) :
    s.store.Tended (s.carryOut maker limit c).2.store := by
  cases c with
  | register d =>
    unfold carryOut
    simp only
    -- A registration that fails leaves the store alone.
    split
    · next store hr => exact .register ht hr
    · exact .refl ht
  | addAlias new name =>
    unfold carryOut
    simp only
    split
    · next store ha => exact .addAlias ht ha
    · exact .refl ht
  | instantiate name => exact instantiate_tended hm limit name s ht
  | instantiateAs name key => exact instantiateAs_tended hm limit name key s ht
  | instantiateByType key =>
    show s.store.Tended (instantiateByType maker limit key s).2.store
    rcases instantiateByType_spec maker limit key s with ⟨e, he⟩ | ⟨d, -, he⟩
    · rw [he]
      exact .refl ht
    · rw [he]
      exact instantiateAs_tended hm limit d.id key s ht
  | makeAll =>
    refine initializeSingletons_preserves (P := fun s' : Site K τ => s.store.Tended s'.store) ?_
      (.refl ht)
    intro name s' h
    exact h.trans (instantiate_tended hm limit name s' h.typed)

/-- Scripts tend the store, if what answers their calls does. -/
theorem run_tended {op : Command K → Site K τ → Reply K × Site K τ}
    (hop : ∀ c (s : Site K τ), s.store.Typed → s.store.Tended (op c s).2.store)
    (script : Script K τ)
    (s : Site K τ) (ht : s.store.Typed) : s.store.Tended (script.run op s).2.store := by
  induction script generalizing s with
  | ends outcome => exact .refl ht
  | keeps rest next ih => exact ih { s with rest } ht
  | calls c next ih =>
    have answered := hop c s ht
    exact answered.trans (ih _ _ _ answered.typed)

/-- However deeply their calls may nest, running factories tends the store. -/
theorem maker_tending (f : Callers K τ) (limit depth : Nat) : Tending (f.maker limit depth) := by
  intro d g deps s ht
  -- Calls of a script run factories whose calls nest one level less.
  induction depth generalizing d g deps s with
  | zero => exact .refl ht
  | succ depth ih =>
    have hop (c : Command K) (s : Site K τ) (ht : s.store.Typed) :
        s.store.Tended (s.carryOut (f.maker limit depth) limit c).2.store :=
      carryOut_tended ih limit c s ht
    exact run_tended hop (f d g deps s) s ht

/-- **Stores stay typed.** Whatever is done with a new store, and whatever factories do with it
    while they run, the store is typed. -/
theorem through_typed (f : Callers K τ) (limit depth : Nat) (rest : τ)
    (commands : List (Command K)) :
    ((start rest).through (f.maker limit depth) limit commands).store.Typed := by
  have all (commands : List (Command K)) (s : Site K τ) (ht : s.store.Typed) :
      (s.through (f.maker limit depth) limit commands).store.Typed := by
    induction commands generalizing s with
    | nil => exact ht
    | cons c rest ih =>
      exact ih _ (carryOut_tended (maker_tending f limit depth) limit c s ht).typed
  exact all commands _ Store.typed_empty

end Site

end ComponentHost
