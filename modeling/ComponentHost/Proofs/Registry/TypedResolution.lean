import Mathlib.Data.List.Induction
import ComponentHost.Proofs.Registry.Callbacks
import ComponentHost.Proofs.Registry.Integrity

/-! # Resolution by type

  What a definition is looked up by and how its instances are handed out are two tables, which are
  written by clauses. They agree for every list of clauses, and a caller who asks for a type is told
  the same by both.

  - `Definition.mem_implements_build` and `Definition.cast?_build` read the tables off the clauses;
    so `Definition.Built.cast?_isSome`: there is a way to hand an instance out exactly if the type
    is the concrete one or was declared.
  - No resolution of a name tells of types (`Resolution.instantiate_tells_no_types`), and what it
    gives is of the concrete type of the definition (`Resolution.instantiate_type`).
  - `types_agree` puts it together, for every store that was reached.
-/

namespace ComponentHost

open Resolution

variable {K : Kit} {τ : Type}

/-! ### What clauses write -/

def Clause.conversion? (key : TypeKey) : Clause K → Option K.conversion
  | .implements k c => if k = key then some c else none
  | _ => none

theorem Clause.conversion?_eq_some {c : Clause K} {key : TypeKey} {conversion : K.conversion} :
    c.conversion? key = some conversion ↔ c = .implements key conversion := by
  cases c with
  | implements k c =>
    by_cases hk : k = key <;> simp [conversion?, hk]
  | scope _ | named _ | dependsOn _ | filter _ | methods _ => simp [conversion?]

/-- How instances are handed out under a type, by the clauses of their definition: by the conversion
    that was declared last, or as they are if the type is the concrete one. -/
def Clause.wayTo (type : TypeKey) (clauses : List (Clause K)) (key : TypeKey) : Option (Cast K) :=
  match (clauses.filterMap (conversion? key)).getLast? with
  | some c => some (.converted c)
  | none => if key = type then some .itself else none

namespace Definition

variable {d : Definition K} {c : Clause K} {clauses : List (Clause K)} {id : String}
  {type key : TypeKey} {factory : Factory K}

theorem add_type : (d.add c).type = d.type := by
  cases c <;> rfl

/-- A clause declares the capability that it has a conversion to, and no other. -/
theorem mem_implements_add :
    key ∈ (d.add c).implements ↔ key ∈ d.implements ∨ ∃ v, c = .implements key v := by
  cases c with
  | implements k v =>
    show key ∈ (if k ∈ d.implements then d.implements else d.implements ++ [k]) ↔ _
    by_cases hk : k = key
    · subst hk
      by_cases hmem : k ∈ d.implements <;> simp [hmem]
    · have hne : key ≠ k := Ne.symm hk
      by_cases hmem : k ∈ d.implements <;> simp [hmem, hk, hne]
  | scope _ | named _ | dependsOn _ | filter _ | methods _ => simp [add]

theorem cast?_add :
    (d.add c).cast? key = match c.conversion? key with
      | some v => some (.converted v)
      | none => d.cast? key := by
  cases c with
  | implements k v =>
    show (d.casters.insert k (.converted v)).get? key = _
    rw [Dict.get?_insert]
    by_cases hk : k = key
    · simp [Clause.conversion?, hk]
    · simp [Clause.conversion?, hk, Ne.symm hk, cast?]
  | scope _ | named _ | dependsOn _ | filter _ | methods _ => rfl

theorem build_concat :
    build id type factory (clauses ++ [c]) = (build id type factory clauses).add c := by
  unfold build
  rw [List.foldl_append]
  rfl

theorem build_type : (build id type factory clauses).type = type := by
  induction clauses using List.reverseRecOn with
  | nil => rfl
  | append_singleton clauses c ih => rw [build_concat, add_type, ih]

/-- The declared capabilities are those that some clause declares. -/
theorem mem_implements_build :
    key ∈ (build id type factory clauses).implements ↔ ∃ v, .implements key v ∈ clauses := by
  induction clauses using List.reverseRecOn with
  | nil => simp [build]
  | append_singleton clauses c ih =>
    rw [build_concat, mem_implements_add, ih]
    simp only [List.mem_append, List.mem_singleton, exists_or]
    exact or_congr_right (exists_congr fun v => eq_comm)

/-- The casters are what the clauses say. -/
theorem cast?_build :
    (build id type factory clauses).cast? key = Clause.wayTo type clauses key := by
  induction clauses using List.reverseRecOn with
  | nil =>
    show (({} : Dict TypeKey (Cast K)).insert type .itself).get? key = _
    rw [Dict.get?_insert]
    rfl
  | append_singleton clauses c ih =>
    -- The last clause decides if it has a conversion to the type, and else those before it.
    rw [build_concat, cast?_add, ih]
    unfold Clause.wayTo
    rw [List.filterMap_append]
    cases hc : c.conversion? key with
    | none => simp [hc]
    | some v => simp [hc]

/-- There is a way to hand instances out under a type exactly if it is the concrete one or was
    declared. -/
theorem wayTo_isSome :
    (Clause.wayTo type clauses key).isSome ↔ key = type ∨ ∃ v, .implements key v ∈ clauses := by
  have declared : (∃ v, .implements key v ∈ clauses) ↔
      clauses.filterMap (Clause.conversion? key) ≠ [] := by
    constructor
    · rintro ⟨v, hv⟩
      refine List.ne_nil_of_mem (a := v) (List.mem_filterMap.mpr ⟨_, hv, ?_⟩)
      exact Clause.conversion?_eq_some.mpr rfl
    · intro hne
      obtain ⟨v, hv⟩ := List.exists_mem_of_ne_nil _ hne
      obtain ⟨c, hmem, hc⟩ := List.mem_filterMap.mp hv
      exact ⟨v, Clause.conversion?_eq_some.mp hc ▸ hmem⟩
  rw [declared]
  unfold Clause.wayTo
  -- Without a declaration the concrete type alone has a way.
  cases hl : (clauses.filterMap (Clause.conversion? key)).getLast? with
  | none =>
    have hnil := List.getLast?_eq_none_iff.mp hl
    by_cases hk : key = type <;> simp [hk, hnil]
  | some v =>
    have hne : clauses.filterMap (Clause.conversion? key) ≠ [] := by
      intro hnil
      rw [hnil] at hl
      cases hl
    simp [hne]

/-- It was built by clauses. -/
def Built (d : Definition K) : Prop := ∃ id type factory clauses, d = build id type factory clauses

/-- A capability was declared by a clause that it was built by. -/
def Declares (d : Definition K) (key : TypeKey) : Prop :=
  ∃ id type factory clauses v, d = build id type factory clauses ∧ .implements key v ∈ clauses

/-- A type is the concrete one, or was declared. -/
def Offers (d : Definition K) (key : TypeKey) : Prop := key = d.type ∨ d.Declares key

/-- By the clauses that it was built by, its instances are handed out in some way under a type. -/
def HandsOut (d : Definition K) (key : TypeKey) (cast : Cast K) : Prop :=
  ∃ id type factory clauses, d = build id type factory clauses ∧
    Clause.wayTo type clauses key = some cast

namespace Built

/-- What is listed is what was declared. -/
theorem mem_implements (h : d.Built) : key ∈ d.implements ↔ d.Declares key := by
  constructor
  · intro hk
    obtain ⟨id, type, factory, clauses, rfl⟩ := h
    obtain ⟨v, hv⟩ := mem_implements_build.mp hk
    exact ⟨id, type, factory, clauses, v, rfl, hv⟩
  · rintro ⟨id, type, factory, clauses, v, rfl, hv⟩
    exact mem_implements_build.mpr ⟨v, hv⟩

/-- **The two tables agree.** -/
theorem cast?_isSome (h : d.Built) : (d.cast? key).isSome ↔ d.Offers key := by
  unfold Offers
  rw [← h.mem_implements]
  obtain ⟨id, type, factory, clauses, rfl⟩ := h
  rw [cast?_build, wayTo_isSome, build_type, mem_implements_build]

theorem handsOut {cast : Cast K} (h : d.Built) (hc : d.cast? key = some cast) :
    d.HandsOut key cast := by
  obtain ⟨id, type, factory, clauses, rfl⟩ := h
  exact ⟨id, type, factory, clauses, rfl, cast?_build.symm.trans hc⟩

end Built

end Definition

/-! ### No resolution of a name tells of types -/

/-- A result that is no error about types. -/
def TellsNoTypes {α : Type} (r : Except Error α) : Prop :=
  ∀ id expected, r ≠ .error (.typeMismatch id expected)

namespace TellsNoTypes

variable {α β : Type}

theorem ok (a : α) : TellsNoTypes (.ok a : Except Error α) := by
  intro id expected h
  cases h

theorem map {r : Except Error α} (h : TellsNoTypes r) (g : α → β) : TellsNoTypes (r.map g) := by
  intro id expected he
  cases r with
  | error e =>
    cases he
    exact h id expected rfl
  | ok a => cases he

theorem error {e : Error} (h : TellsNoTypes (.error e : Except Error α)) :
    TellsNoTypes (.error e : Except Error β) := by
  intro id expected he
  cases he
  exact h id expected rfl

end TellsNoTypes

namespace Resolution

variable {σ : Type} [HasStore K σ] {maker : Maker K σ} {limit : Nat} {path : List String}
  {d : Definition K} {s : σ} {name : String}

open HasStore

omit [HasStore K σ] in
theorem make_tells_no_types (deps : Dependencies K) : TellsNoTypes (make maker d deps s).1 := by
  unfold make
  cases d.factory with
  | existing held => exact .ok _
  | make g =>
    simp only
    split
    · exact .ok _
    · intro id expected h
      cases h

theorem resolveAll_tells_no_types {one : Definition K → Attempt σ (Instance K)}
    (hone : ∀ d s, TellsNoTypes (one d s).1) (names : List String) :
    TellsNoTypes (resolveAll one names s).1 := by
  induction names generalizing s with
  | nil => exact .ok _
  | cons name rest ih =>
    cases hl : (store s).lookup? name with
    | none =>
      rw [resolveAll_missing hl]
      intro id expected h
      cases h
    | some e =>
      cases hs : e.slot with
      | some i =>
        rw [resolveAll_cached hl hs]
        exact ih.map _
      | none =>
        have first := hone e.definition s
        rcases ho : one e.definition s with ⟨er | i, s₁⟩
        · rw [ho] at first
          rw [resolveAll_failed hl hs ho]
          exact first.error
        · rw [resolveAll_resolved hl hs ho]
          exact ih.map _

theorem resolve_tells_no_types (limit : Nat) (path : List String) (d : Definition K) (s : σ) :
    TellsNoTypes (resolve maker limit path d s).1 := by
  induction limit generalizing path d s with
  | zero =>
    intro id expected h
    cases h
  | succ limit ih =>
    by_cases hid : d.id ∈ path
    · rw [resolve_cycle hid]
      intro id expected h
      cases h
    have hdeps := resolveAll_tells_no_types (s := s) (ih (path ++ [d.id])) d.dependencies
    -- Neither a dependency nor the factory complains of a type.
    have hc : TellsNoTypes (construct maker limit path d s).1 := by
      rw [construct_eq]
      split
      · next e s₁ hr =>
        rw [hr] at hdeps
        exact hdeps.error
      · exact make_tells_no_types _
    cases hscope : d.scope with
    | prototype =>
      rw [resolve_prototype hid hscope]
      exact hc
    | singleton =>
      cases hs : (store s).slot? d.id with
      | some i =>
        rw [resolve_found hid hscope hs]
        exact .ok _
      | none =>
        rw [resolve_singleton hid hscope hs]
        split
        · next e s' hrun =>
          rw [hrun] at hc
          exact hc
        · exact .ok _

theorem instantiate_tells_no_types (limit : Nat) (name : String) (s : σ) :
    TellsNoTypes (instantiate maker limit name s).1 := by
  cases hl : (store s).lookup? name with
  | none =>
    rw [instantiate_missing hl]
    intro id expected h
    cases h
  | some e =>
    cases hs : e.slot with
    | some i =>
      rw [instantiate_found hl hs]
      exact .ok _
    | none =>
      cases hc : (store s).checkAcyclic e.definition.id with
      -- A cycle is an error of its own.
      | error er =>
        rw [instantiate_cycle hl hs hc]
        unfold Store.checkAcyclic at hc
        split at hc
        · cases hc
        · cases hc
          intro id expected h
          cases h
      | ok u =>
        rw [instantiate_acyclic hl hs hc]
        exact resolve_tells_no_types limit [] e.definition s

/-- In a typed store, what is handed out under a type is what the name is resolved to. -/
theorem instantiateAs_offered {e : Entry K} {key : TypeKey} {cast : Cast K}
    (ht : (store s).Typed) (he : (store s).lookup? name = some e)
    (hc : e.definition.cast? key = some cast) :
    instantiateAs maker limit name key s
      = ((instantiate maker limit name s).1.map (⟨·, cast⟩),
        (instantiate maker limit name s).2) := by
  have type (i : Instance K) (hi : (instantiate maker limit name s).1 = .ok i) :
      i.type = e.definition.type := instantiate_type ht he hi
  -- The instance has its definition's type, so the last check of the view passes.
  rw [instantiateAs_cast he hc]
  rcases hr : instantiate maker limit name s with ⟨er | i, s'⟩
  · rfl
  · simp only [type i (by rw [hr]), if_true]
    rfl

end Resolution

/-! ### Definitions that qualify for a type -/

/-- The definitions of that concrete type, in the order of registration, or if there are none those
    for which it was declared. -/
def Store.qualified (st : Store K) (key : TypeKey) : List (Definition K) :=
  match st.definitions.filter (·.type = key) with
  | [] => st.definitions.filter (key ∈ ·.implements)
  | exact => exact

theorem Store.candidates_eq (st : Store K) (key : TypeKey) :
    st.candidates key = st.qualified key := by
  have exact : st.definitions.filter (·.isExact key) = st.definitions.filter (·.type = key) := by
    exact List.filter_congr fun d _ => rfl
  unfold candidates qualified
  simp only [exact]
  cases hl : st.definitions.filter (·.type = key) with
  | cons d ds => rfl
  | nil =>
    -- None has the concrete type, so those that satisfy it are those that declare it.
    refine List.filter_congr fun d hd => ?_
    have hne := List.filter_eq_nil_iff.mp hl d hd
    simp only [decide_eq_true_eq] at hne
    simp [Definition.satisfies, Definition.isExact, hne]

/-- What qualifies alone is registered, and offers the type. -/
theorem Store.qualified_offers {st : Store K} {key : TypeKey} {d : Definition K}
    (built : ∀ d ∈ st.definitions, d.Built) (h : d ∈ st.qualified key) :
    d ∈ st.definitions ∧ d.Offers key := by
  unfold qualified at h
  split at h
  · obtain ⟨hd, hk⟩ := List.mem_filter.mp h
    exact ⟨hd, .inr ((built d hd).mem_implements.mp (by simpa using hk))⟩
  · obtain ⟨hd, hk⟩ := List.mem_filter.mp h
    exact ⟨hd, .inl (by simpa [eq_comm] using hk)⟩

/-! ### All stores -/

variable {maker : Maker K (Site K τ)} {limit : Nat} {s : Site K τ} {name : String} {key : TypeKey}

/-- How the resolution of a name to a type goes, at a site. -/
structure NameAgrees (maker : Maker K (Site K τ)) (limit : Nat) (s : Site K τ) (name : String)
    (key : TypeKey) : Prop where
  /-- There is an error about types exactly if the name stands for a definition that does not offer
      the type. -/
  mismatch : (∃ id expected,
      (instantiateAs maker limit name key s).1 = .error (.typeMismatch id expected)) ↔
    ∃ d, s.store.find? name = some d ∧ ¬ d.Offers key
  /-- Then the error names the definition and the type. No factory has run and no slot has changed:
      the site is as it was. -/
  refused : ∀ {d}, s.store.find? name = some d → ¬ d.Offers key →
    instantiateAs maker limit name key s = (.error (.typeMismatch d.id key.name), s)
  /-- Where the definition offers the type, this is the resolution of the name, converted by what
      was declared for the type. -/
  offered : ∀ {d}, s.store.find? name = some d → d.Offers key → ∃ cast, d.HandsOut key cast ∧
    instantiateAs maker limit name key s
      = ((instantiate maker limit name s).1.map (⟨·, cast⟩), (instantiate maker limit name s).2)
  /-- Where the name stands for nothing, both say so. -/
  unknown : s.store.find? name = none →
    instantiateAs maker limit name key s = (.error (.definitionNotFound name), s) ∧
      instantiate maker limit name s = (.error (.definitionNotFound name), s)

/-- How the resolution of a type goes, at a site. -/
structure TypeAgrees (maker : Maker K (Site K τ)) (limit : Nat) (s : Site K τ) (key : TypeKey) :
    Prop where
  declared : ∀ d ∈ s.store.definitions, key ∈ d.implements ↔ d.Declares key
  /-- Nothing qualifies, and nothing has changed. -/
  nothing : s.store.qualified key = [] →
    instantiateByType maker limit key s = (.error (.definitionNotFound key.name), s)
  /-- Several definitions qualify: they are named, and nothing has changed. -/
  several : 2 ≤ (s.store.qualified key).length → instantiateByType maker limit key s
    = (.error (.ambiguousType key.name ((s.store.qualified key).map (·.id))), s)
  /-- One qualifies: this is the resolution of its id to the type. -/
  alone : ∀ {d}, s.store.qualified key = [d] →
    instantiateByType maker limit key s = instantiateAs maker limit d.id key s
  /-- There is no error about types. -/
  never : TellsNoTypes (instantiateByType maker limit key s).1

/-- Names agree with types in a typed store whose definitions were built by clauses. -/
theorem nameAgrees (ht : s.store.Typed) (built : ∀ d ∈ s.store.definitions, d.Built) :
    NameAgrees maker limit s name key := by
  -- What a name stands for was built from clauses, so it casts to just the types it offers.
  have builtAt {e : Entry K} (he : s.store.lookup? name = some e) : e.definition.Built := by
    have hget := (ht.valid.canonical?_of_lookup? he).2
    exact built _ (ht.valid.mem_definitions (Store.definition?_of_get? hget))
  have entryOf {d : Definition K} (hd : s.store.find? name = some d) :
      ∃ e, s.store.lookup? name = some e ∧ e.definition = d := Option.map_eq_some_iff.mp hd
  have refused {d : Definition K} (hd : s.store.find? name = some d) (ho : ¬ d.Offers key) :
      instantiateAs maker limit name key s = (.error (.typeMismatch d.id key.name), s) := by
    obtain ⟨e, he, rfl⟩ := entryOf hd
    refine instantiateAs_refused he ?_
    rwa [← (builtAt he).cast?_isSome, Option.not_isSome_iff_eq_none] at ho
  have offered {d : Definition K} (hd : s.store.find? name = some d) (ho : d.Offers key) :
      ∃ cast, d.HandsOut key cast ∧ instantiateAs maker limit name key s
        = ((instantiate maker limit name s).1.map (⟨·, cast⟩),
          (instantiate maker limit name s).2) := by
    obtain ⟨e, he, rfl⟩ := entryOf hd
    obtain ⟨cast, hc⟩ := Option.isSome_iff_exists.mp ((builtAt he).cast?_isSome.mpr ho)
    exact ⟨cast, (builtAt he).handsOut hc, instantiateAs_offered ht he hc⟩
  have unknown (hn : s.store.find? name = none) :
      instantiateAs maker limit name key s = (.error (.definitionNotFound name), s) ∧
        instantiate maker limit name s = (.error (.definitionNotFound name), s) := by
    have hl : s.store.lookup? name = none := Option.map_eq_none_iff.mp hn
    exact ⟨instantiateAs_missing hl, instantiate_missing hl⟩
  refine ⟨⟨?_, ?_⟩, refused, offered, unknown⟩
  -- A type is complained of only where the definition does not offer it.
  · rintro ⟨id, expected, h⟩
    cases hd : s.store.find? name with
    | none =>
      rw [(unknown hd).1] at h
      cases h
    | some d =>
      refine ⟨d, rfl, fun ho => ?_⟩
      obtain ⟨cast, -, heq⟩ := offered hd ho
      rw [heq] at h
      exact (instantiate_tells_no_types limit name s).map _ id expected h
  · rintro ⟨d, hd, ho⟩
    exact ⟨d.id, key.name, by rw [refused hd ho]⟩

/-- So do types. -/
theorem typeAgrees (ht : s.store.Typed) (built : ∀ d ∈ s.store.definitions, d.Built) :
    TypeAgrees maker limit s key := by
  -- The three answers are read off the list of those that qualify: none, one alone, or several.
  have nothing (h : s.store.qualified key = []) :
      instantiateByType maker limit key s = (.error (.definitionNotFound key.name), s) := by
    apply instantiateByType_error
    show s.store.findByType key = _
    rw [Store.findByType, Store.findByType?, Store.candidates_eq, h]
  have alone {d : Definition K} (h : s.store.qualified key = [d]) :
      instantiateByType maker limit key s = instantiateAs maker limit d.id key s := by
    apply instantiateByType_ok
    show s.store.findByType key = _
    rw [Store.findByType, Store.findByType?, Store.candidates_eq, h]
  have several (h : 2 ≤ (s.store.qualified key).length) :
      instantiateByType maker limit key s
        = (.error (.ambiguousType key.name ((s.store.qualified key).map (·.id))), s) := by
    apply instantiateByType_error
    show s.store.findByType key = _
    rw [Store.findByType, Store.findByType?, Store.candidates_eq]
    rcases hq : s.store.qualified key with _ | ⟨d, _ | ⟨d', ds⟩⟩
    · simp [hq] at h
    · simp [hq] at h
    · rfl
  refine ⟨fun d hd => (built d hd).mem_implements, nothing, several, alone, ?_⟩
  intro id expected h
  rcases hq : s.store.qualified key with _ | ⟨d, _ | ⟨d', ds⟩⟩
  · rw [nothing hq] at h
    cases h
  · -- What qualifies alone offers the type, so its id is not refused.
    rw [alone hq] at h
    obtain ⟨hd, ho⟩ := Store.qualified_offers built (hq ▸ List.mem_cons_self)
    obtain ⟨d', hd', hno⟩ := (nameAgrees ht built).mismatch.mp ⟨id, expected, h⟩
    obtain rfl := Option.some.inj ((ht.find?_of_mem hd).symm.trans hd')
    exact hno ho
  · rw [several (by simp [hq])] at h
    cases h

/-- **Typed resolution agrees with declared types.** Whatever is done with a store, and whatever its
    factories do and call while they run: if its definitions were built by clauses, then names and
    types are resolved as the clauses declare. -/
theorem types_agree (f : Callers K τ) (limit depth : Nat) (rest : τ) (commands : List (Command K))
    (limit' : Nat) :
    let s := (Site.start rest).through (f.maker limit depth) limit commands
    (∀ d ∈ s.store.definitions, d.Built) →
    (∀ name key, NameAgrees (f.maker limit depth) limit' s name key) ∧
      ∀ key, TypeAgrees (f.maker limit depth) limit' s key := by
  intro s built
  have ht : s.store.Typed := Site.through_typed f limit depth rest commands
  exact ⟨fun name key => nameAgrees ht built, fun key => typeAgrees ht built⟩

/-! ### A hammer and a nail -/

namespace Toolbox

/-- A kit whose conversions have names. -/
def kit : Kit := ⟨Unit, Unit, Unit, Unit, String⟩

/-- A definition that declares a capability twice, and in between its own type. -/
def hammer : Definition kit :=
  .build "hammer" ⟨"Hammer"⟩ (.make ())
    [.implements ⟨"Tool"⟩ "first", .named "mallet", .implements ⟨"Hammer"⟩ "own",
      .implements ⟨"Tool"⟩ "second"]

/-- A definition that declares the same capability. -/
def nail : Definition kit :=
  .build "nail" ⟨"Nail"⟩ (.make ()) [.implements ⟨"Tool"⟩ "third"]

/-- Factories that register the nail before they make something. -/
def callers : Callers kit Unit := fun _ _ _ _ =>
  .calls (.register nail) fun _ _ => .ends (.ok (.component ()))

/-- The hammer is registered and resolved, so the nail is registered too. -/
def site : Site kit Unit :=
  (Site.start ()).through (callers.maker 2 1) 2 [.register hammer, .instantiate "hammer"]

end Toolbox

/-- The hammer is handed out as a tool by the later conversion, and as a hammer by the one that was
    declared for that. The nail is no hammer. Both are tools, so that type alone is ambiguous. -/
theorem types_agree_toolbox :
    let maker := Toolbox.callers.maker 2 1
    (∀ d ∈ Toolbox.site.store.definitions, d.Built) ∧
    ((∀ name key, NameAgrees maker 2 Toolbox.site name key) ∧
      ∀ key, TypeAgrees maker 2 Toolbox.site key) ∧
    (instantiateAs maker 2 "mallet" ⟨"Tool"⟩ Toolbox.site).1
      = .ok ⟨⟨⟨"Hammer"⟩, .component ()⟩, .converted "second"⟩ ∧
    (instantiateByType maker 2 ⟨"Hammer"⟩ Toolbox.site).1
      = .ok ⟨⟨⟨"Hammer"⟩, .component ()⟩, .converted "own"⟩ ∧
    instantiateAs maker 2 "nail" ⟨"Hammer"⟩ Toolbox.site
      = (.error (.typeMismatch "nail" "Hammer"), Toolbox.site) ∧
    instantiateByType maker 2 ⟨"Tool"⟩ Toolbox.site
      = (.error (.ambiguousType "Tool" ["hammer", "nail"]), Toolbox.site) := by
  intro maker
  have listed : Toolbox.site.store.definitions = [Toolbox.hammer, Toolbox.nail] := rfl
  have built : ∀ d ∈ Toolbox.site.store.definitions, d.Built := by
    intro d hd
    rw [listed] at hd
    rcases List.mem_pair.mp hd with rfl | rfl
    · exact ⟨_, _, _, _, rfl⟩
    · exact ⟨_, _, _, _, rfl⟩
  have agree := types_agree Toolbox.callers 2 1 () [.register Toolbox.hammer, .instantiate "hammer"]
    2 built
  exact ⟨built, agree, rfl, rfl, rfl, rfl⟩

end ComponentHost
