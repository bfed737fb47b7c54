import ComponentHost.Proofs.Data.Dict
import ComponentHost.Proofs.Invocation.MethodTables
import Mathlib.Data.List.Induction

/-! # Routing

  A proxy keeps names of two kinds in one dictionary: every exposed method stands in it under its
  qualified name, and under its name, which becomes ambiguous when another exposed method has it
  too. In a regular table the two kinds never meet, and a call goes where its name leads.

  - `Routes.leads` says where a name leads among methods that come with their routes, and
    `get?_foldl_add` that the dictionary built from them leads there;
  - `select_eq` says that a proxy selects what a name means;
  - `routing_exact` says so of every table, strategy, name and call.
-/

namespace ComponentHost

variable {τ φ β : Type} {t : MethodTable β} {strategy : ProxyStrategy} {slot : MethodSlot β}
  {key : String}

/-! ### Where names lead -/

namespace Routes

/-- The route to the method at a place, if it is exposed. -/
def routeOf (t : MethodTable β) (strategy : ProxyStrategy) (i : Nat) (slot : MethodSlot β) :
    Route :=
  if t.Intercepts strategy slot then .intercepted i else .direct i

theorem routeTo?_eq (t : MethodTable β) (strategy : ProxyStrategy) (i : Nat)
    (slot : MethodSlot β) :
    routeTo? t strategy i slot
      = if t.Exposes strategy slot then some (routeOf t strategy i slot) else none := by
  cases strategy with
  | interface =>
    by_cases h : slot.signature.owner ∈ t.interfaces <;>
      simp [routeTo?, routeOf, MethodTable.Exposes, MethodTable.Intercepts, h]
  | subclass =>
    by_cases h : slot.signature.isSealed = true <;>
      simp [routeTo?, routeOf, MethodTable.Exposes, MethodTable.Intercepts, h]

/-- The exposed methods from a place on, each with its route. -/
def exposures (t : MethodTable β) (strategy : ProxyStrategy) :
    Nat → List (MethodSlot β) → List (MethodSlot β × Route)
  | _, [] => []
  | i, slot :: rest =>
    if t.Exposes strategy slot then
      (slot, routeOf t strategy i slot) :: exposures t strategy (i + 1) rest
    else exposures t strategy (i + 1) rest

theorem addAll_eq (t : MethodTable β) (strategy : ProxyStrategy) (i : Nat)
    (slots : List (MethodSlot β)) (routes : Routes) :
    addAll t strategy i slots routes
      = (exposures t strategy i slots).foldl (fun r e => r.add e.1.signature e.2) routes := by
  induction slots generalizing i routes with
  | nil => rfl
  | cons slot rest ih =>
    rw [addAll, routeTo?_eq, exposures]
    by_cases h : t.Exposes strategy slot
    · rw [if_pos h, if_pos h]
      exact ih _ _
    · rw [if_neg h, if_neg h]
      exact ih _ _

theorem map_fst_exposures (t : MethodTable β) (strategy : ProxyStrategy) (i : Nat)
    (slots : List (MethodSlot β)) :
    (exposures t strategy i slots).map (·.1) = slots.filter (t.Exposes strategy ·) := by
  induction slots generalizing i with
  | nil => rfl
  | cons slot rest ih =>
    rw [exposures]
    by_cases h : t.Exposes strategy slot
    · rw [if_pos h, List.map_cons, ih, List.filter_cons_of_pos (by simpa using h)]
    · rw [if_neg h, ih, List.filter_cons_of_neg (by simpa using h)]

/-- The route of an exposed method is the one to its place. -/
theorem mem_exposures {i : Nat} {slots : List (MethodSlot β)} {e : MethodSlot β × Route}
    (h : e ∈ exposures t strategy i slots) :
    ∃ j, slots[j]? = some e.1 ∧ e.2 = routeOf t strategy (i + j) e.1 := by
  induction slots generalizing i with
  | nil => cases h
  | cons slot rest ih =>
    have later (h : e ∈ exposures t strategy (i + 1) rest) :
        ∃ j, (slot :: rest)[j]? = some e.1 ∧ e.2 = routeOf t strategy (i + j) e.1 := by
      obtain ⟨j, hj, he⟩ := ih h
      exact ⟨j + 1, hj, by rw [he, Nat.add_assoc, Nat.add_comm 1 j]⟩
    rw [exposures] at h
    split at h
    · rcases List.mem_cons.mp h with rfl | h
      · exact ⟨0, rfl, rfl⟩
      · exact later h
    · exact later h

/-- Where a name leads among methods with their routes: to the method of that qualified name, or
    else to the only one of that name. -/
def leads (es : List (MethodSlot β × Route)) (key : String) : Option Route :=
  match es.find? (·.1.signature.qualifiedName = key) with
  | some e => some e.2
  | none =>
    match es.filter (·.1.signature.name = key) with
    | [] => none
    | [e] => some e.2
    | _ => some .ambiguous

/-- What adding a route does to the dictionary. -/
theorem get?_add (routes : Routes) {m : MethodSignature} (hm : m.IsPlain) (route : Route)
    (key : String) :
    (routes.add m route).get? key
      = if key = m.name then
          some (if (routes.get? key).isSome then .ambiguous else route)
        else if key = m.qualifiedName then some route
        else routes.get? key := by
  have hne : m.name ≠ m.qualifiedName := hm.ne_qualifiedName m
  rw [add, Dict.get?_insert]
  split
  · next h => simp only [Dict.contains, Dict.get?_insert, if_neg hne, h]
  · rw [Dict.get?_insert]

/-- The dictionary that is built from methods with their routes leads where the names lead. -/
theorem get?_foldl_add {es : List (MethodSlot β × Route)}
    (hplain : ∀ e ∈ es, e.1.signature.IsPlain)
    (hdistinct : (es.map (·.1.signature.qualifiedName)).Nodup) (key : String) :
    (es.foldl (fun r e => r.add e.1.signature e.2) ({} : Routes)).get? key = leads es key := by
  induction es using List.reverseRecOn with
  | nil => rfl
  | append_singleton es e ih =>
    have plain := hplain e (by simp)
    have others : ∀ e' ∈ es, e'.1.signature.IsPlain := fun e' h => hplain e' (by simp [h])
    rw [List.map_append, List.nodup_append] at hdistinct
    obtain ⟨distinct, _, apart⟩ := hdistinct
    rw [List.foldl_append, List.foldl_cons, List.foldl_nil, get?_add _ plain, ih others distinct]
    by_cases hname : key = e.1.signature.name
    · -- A name of a method is no qualified name, so only the namesakes count.
      have unqualified (es' : List (MethodSlot β × Route)) :
          es'.find? (·.1.signature.qualifiedName = key) = none := by
        rw [List.find?_eq_none]
        intro e' _ h
        exact plain.ne_qualifiedName e'.1.signature (hname ▸ (of_decide_eq_true h).symm)
      rw [if_pos hname, leads, leads, unqualified, unqualified, List.filter_append]
      simp only [List.filter_cons, hname, decide_true, if_true, List.filter_nil]
      cases es.filter (·.1.signature.name = e.1.signature.name) with
      | nil => rfl
      | cons e₁ rest =>
        cases rest with
        | nil => rfl
        | cons e₂ rest => rfl
    · rw [if_neg hname]
      have namesakes : (es ++ [e]).filter (·.1.signature.name = key)
          = es.filter (·.1.signature.name = key) := by
        simp [List.filter_append, Ne.symm hname]
      by_cases hq : key = e.1.signature.qualifiedName
      · have first : es.find? (·.1.signature.qualifiedName = key) = none := by
          rw [List.find?_eq_none]
          intro e' he' h
          refine apart e'.1.signature.qualifiedName (List.mem_map.mpr ⟨e', he', rfl⟩)
            e.1.signature.qualifiedName (by simp) ?_
          rw [of_decide_eq_true h, hq]
        rw [if_pos hq, leads, List.find?_append, first]
        simp [hq]
      -- It is neither name of the new method, which therefore changes nothing for it.
      · rw [if_neg hq, leads, leads, List.find?_append, namesakes]
        simp [Ne.symm hq]

/-- A name that leads somewhere, and not to several methods, leads to one of the methods. -/
theorem leads_eq_some {es : List (MethodSlot β × Route)} {route : Route}
    (h : leads es key = some route) : route = .ambiguous ∨ ∃ e ∈ es, e.2 = route := by
  unfold leads at h
  -- A key is the qualified name of a slot, or the plain name of one slot or of several.
  split at h
  · next e he =>
    cases h
    exact .inr ⟨e, List.mem_of_find?_eq_some he, rfl⟩
  · split at h
    · cases h
    · next e he =>
      cases h
      exact .inr ⟨e, (List.mem_filter.mp (he ▸ List.mem_singleton_self e)).1, rfl⟩
    · cases h
      exact .inl rfl

theorem nodup_keys_add (routes : Routes) (m : MethodSignature) (route : Route)
    (h : routes.keys.Nodup) : (routes.add m route).keys.Nodup :=
  Dict.nodup_keys_insert (Dict.nodup_keys_insert h)

/-! ### Routes of a table -/

theorem ofTable_eq (t : MethodTable β) (strategy : ProxyStrategy) :
    ofTable t strategy
      = (exposures t strategy 0 t.slots).foldl (fun r e => r.add e.1.signature e.2) {} :=
  addAll_eq t strategy 0 t.slots {}

theorem nodup_keys_ofTable (t : MethodTable β) (strategy : ProxyStrategy) :
    (ofTable t strategy).keys.Nodup := by
  have along (es : List (MethodSlot β × Route)) (routes : Routes) (h : routes.keys.Nodup) :
      (es.foldl (fun r e => r.add e.1.signature e.2) routes).keys.Nodup := by
    induction es generalizing routes with
    | nil => exact h
    | cons e es ih => exact ih _ (nodup_keys_add routes e.1.signature e.2 h)
  rw [ofTable_eq]
  exact along _ _ Dict.nodup_keys_empty

section Regular

variable (h : t.Regular)
include h

/-- The routes of a regular table lead where the names lead. -/
theorem get?_ofTable (strategy : ProxyStrategy) (key : String) :
    (ofTable t strategy).get? key = leads (exposures t strategy 0 t.slots) key := by
  have among {e : MethodSlot β × Route} (he : e ∈ exposures t strategy 0 t.slots) :
      e.1 ∈ t.exposed strategy := by
    rw [MethodTable.exposed, ← map_fst_exposures t strategy 0]
    exact List.mem_map.mpr ⟨e, he, rfl⟩
  rw [ofTable_eq]
  -- Exposed slots are slots of the table: plain names, and qualified names that are distinct.
  refine get?_foldl_add (fun e he => h.plain _ (List.mem_filter.mp (among he)).1) ?_ key
  have names : (exposures t strategy 0 t.slots).map (·.1.signature.qualifiedName)
      = (t.exposed strategy).map (·.signature.qualifiedName) := by
    rw [MethodTable.exposed, ← map_fst_exposures t strategy 0, List.map_map]
    rfl
  rw [names]
  exact h.distinct.sublist (List.filter_sublist.map _)

/-- An exposed method is reached by its qualified name. -/
theorem get?_qualifiedName (hs : slot ∈ t.exposed strategy) :
    ∃ j, t.slots[j]? = some slot ∧
      (ofTable t strategy).get? slot.signature.qualifiedName
        = some (routeOf t strategy j slot) := by
  have first := h.find?_exposed hs
  rw [MethodTable.exposed, ← map_fst_exposures t strategy 0, List.find?_map,
    Option.map_eq_some_iff] at first
  obtain ⟨e, he, rfl⟩ := first
  obtain ⟨j, hj, hr⟩ := mem_exposures (List.mem_of_find?_eq_some he)
  rw [Nat.zero_add] at hr
  refine ⟨j, hj, ?_⟩
  have he : (exposures t strategy 0 t.slots).find?
      (·.1.signature.qualifiedName = e.1.signature.qualifiedName) = some e := he
  simp only [get?_ofTable h, leads, he, hr]

/-- The qualified name of a method leads somewhere exactly if the method is exposed. -/
theorem contains_qualifiedName (hs : slot ∈ t.slots) :
    (ofTable t strategy).contains slot.signature.qualifiedName
      = decide (t.Exposes strategy slot) := by
  by_cases he : t.Exposes strategy slot
  -- Its qualified name leads to it, for no other method has that name and no name is qualified.
  · obtain ⟨j, _, hr⟩ := get?_qualifiedName h
      (List.mem_filter.mpr ⟨hs, decide_eq_true he⟩ : slot ∈ t.exposed strategy)
    rw [Dict.contains, hr, decide_eq_true he]
    rfl
  -- A method that is not exposed gives its qualified name to no route.
  · have unknown : leads (exposures t strategy 0 t.slots) slot.signature.qualifiedName = none := by
      have among {e : MethodSlot β × Route} (hm : e ∈ exposures t strategy 0 t.slots) :
          e.1 ∈ t.slots ∧ t.Exposes strategy e.1 := by
        have hm : e.1 ∈ t.slots.filter (t.Exposes strategy ·) := by
          rw [← map_fst_exposures t strategy 0]
          exact List.mem_map.mpr ⟨e, hm, rfl⟩
        simpa using hm
      have qualified : (exposures t strategy 0 t.slots).find?
          (·.1.signature.qualifiedName = slot.signature.qualifiedName) = none := by
        rw [List.find?_eq_none]
        intro e hm hq
        obtain ⟨hm, hx⟩ := among hm
        rw [h.eq_of_qualifiedName hm hs (of_decide_eq_true hq)] at hx
        exact he hx
      have named : (exposures t strategy 0 t.slots).filter
          (·.1.signature.name = slot.signature.qualifiedName) = [] := by
        rw [List.filter_eq_nil_iff]
        intro e hm hn
        exact (h.plain _ (among hm).1).ne_qualifiedName slot.signature (of_decide_eq_true hn)
      rw [leads, qualified, named]
    rw [Dict.contains, get?_ofTable h, unknown, decide_eq_false he]
    rfl

/-- A name that means a method leads to it, a name of no exposed method leads nowhere, and a name
    that several exposed methods have is ambiguous. -/
theorem get?_meaning (strategy : ProxyStrategy) (name : String) :
    (∃ j slot, t.meaning strategy name = .ok slot ∧ t.slots[j]? = some slot ∧
        (ofTable t strategy).get? name = some (routeOf t strategy j slot)) ∨
      (t.meaning strategy name = .error (.methodNotFound t.typeName name) ∧
        (ofTable t strategy).get? name = none) ∨
      (t.meaning strategy name = .error (.invalidArgument name ("ambiguous method name, use one of "
          ++ Text.quotedList ((t.namesakes strategy name).map (·.signature.qualifiedName)))) ∧
        (ofTable t strategy).get? name = some .ambiguous) := by
  have route := get?_ofTable h strategy name
  have exposed : t.exposed strategy = (exposures t strategy 0 t.slots).map (·.1) :=
    (map_fst_exposures t strategy 0 t.slots).symm
  have namesakes : t.namesakes strategy name
      = ((exposures t strategy 0 t.slots).filter (·.1.signature.name = name)).map (·.1) := by
    rw [MethodTable.namesakes, exposed, List.filter_map]
    rfl
  have to_method {e : MethodSlot β × Route} (he : e ∈ exposures t strategy 0 t.slots)
      (hr : (ofTable t strategy).get? name = some e.2) :
      ∃ j, t.slots[j]? = some e.1 ∧
        (ofTable t strategy).get? name = some (routeOf t strategy j e.1) := by
    obtain ⟨j, hj, hroute⟩ := mem_exposures he
    exact ⟨j, hj, by rw [hr, hroute, Nat.zero_add]⟩
  rw [leads] at route
  rw [MethodTable.meaning, namesakes, exposed, List.find?_map]
  -- A qualified name comes first; a plain one counts its namesakes.
  cases hq : (exposures t strategy 0 t.slots).find? (·.1.signature.qualifiedName = name) with
  | some e =>
    rw [hq] at route
    obtain ⟨j, hj, hr⟩ := to_method (List.mem_of_find?_eq_some hq) route
    refine .inl ⟨j, e.1, ?_, hj, hr⟩
    simp only [Function.comp_def, hq]
    rfl
  | none =>
    rw [hq] at route
    simp only [Function.comp_def, hq, Option.map_none]
    cases hn : (exposures t strategy 0 t.slots).filter (·.1.signature.name = name) with
    | nil =>
      rw [hn] at route
      exact .inr (.inl ⟨rfl, route⟩)
    | cons e rest =>
      rw [hn] at route
      cases rest with
      | nil =>
        obtain ⟨j, hj, hr⟩ :=
          to_method (List.mem_filter.mp (hn ▸ List.mem_singleton_self e)).1 route
        exact .inl ⟨j, e.1, rfl, hj, hr⟩
      | cons e' rest => exact .inr (.inr ⟨rfl, route⟩)

end Regular

/-- Some route goes through the filters exactly if some method is to be intercepted. -/
theorem any_isIntercepted (h : t.Regular) (strategy : ProxyStrategy) :
    (ofTable t strategy).entries.any (·.2.isIntercepted) = true
      ↔ ∃ slot ∈ t.slots, t.Intercepts strategy slot := by
  rw [List.any_eq_true]
  constructor
  · rintro ⟨⟨key, route⟩, hm, hi⟩
    have hr := (Dict.mem_entries (nodup_keys_ofTable t strategy)).mp hm
    rw [get?_ofTable h] at hr
    rcases leads_eq_some hr with rfl | ⟨e, he, rfl⟩
    · cases hi
    · obtain ⟨j, hj, hr⟩ := mem_exposures he
      refine ⟨e.1, List.mem_of_getElem? hj, ?_⟩
      -- Only the route of a method that is intercepted says so, not that of an ambiguous name.
      by_contra hn
      simp only [hr, routeOf, if_neg hn] at hi
      cases hi
  · rintro ⟨slot, hs, hi⟩
    obtain ⟨j, _, hr⟩ := get?_qualifiedName h
      (List.mem_filter.mpr ⟨hs, decide_eq_true hi.exposes⟩ : slot ∈ t.exposed strategy)
    rw [routeOf, if_pos hi] at hr
    exact ⟨_, Dict.mem_of_find? hr, rfl⟩

end Routes

/-! ### Proxies -/

namespace Proxy

variable {name : String}

/-- The proxy that stands in front of a target once it is built. -/
def inFront (target : τ) (t : MethodTable β) (filters : List φ) (strategy : ProxyStrategy) :
    Proxy τ φ β :=
  ⟨target, t, filters, strategy, Routes.ofTable t strategy⟩

section Regular

variable (h : t.Regular) (target : τ) (filters : List φ) (strategy : ProxyStrategy)
include h

theorem build_eq (asked : Option ProxyStrategy) :
    build target t filters asked
      = if ∃ slot ∈ t.slots, t.Intercepts (t.strategy asked) slot then
          .ok (inFront target t filters (t.strategy asked))
        else .error (.nonProxyable t.typeName (obstacle t (t.strategy asked))) := by
  rw [build]
  simp only [Routes.any_isIntercepted h]
  split <;> rfl

theorem methods_eq :
    (inFront target t filters strategy).methods
      = (t.exposed strategy).map (·.signature.name) := by
  rw [methods, MethodTable.exposed]
  refine congrArg _ (List.filter_congr fun slot hs => ?_)
  exact Routes.contains_qualifiedName h hs

/-- The names that a caller is offered are those of the exposed methods. -/
theorem candidates_eq (name : String) :
    (inFront target t filters strategy).candidates name
      = (t.namesakes strategy name).map (·.signature.qualifiedName) := by
  rw [candidates, MethodTable.namesakes, MethodTable.exposed, List.filter_map,
    List.filter_filter, List.filter_filter]
  refine congrArg _ (List.filter_congr fun slot hs => ?_)
  rw [Function.comp_apply, inFront, Routes.contains_qualifiedName h hs, Bool.and_comm]
  rfl

end Regular

/-- A route to a method is followed to that method. -/
theorem select_route (target : τ) (filters : List φ) {name : String} {slot : MethodSlot β} {j : Nat}
    (hr : (Routes.ofTable t strategy).get? name = some (Routes.routeOf t strategy j slot))
    (hj : t.slots[j]? = some slot) :
    (inFront target t filters strategy).select name
      = .ok (slot, decide (t.Intercepts strategy slot)) := by
  unfold select
  simp only [inFront, hr, Routes.routeOf]
  by_cases hi : t.Intercepts strategy slot
  · simp only [hi, if_true, hj, decide_true]
  · simp only [hi, if_false, hj, decide_false]

/-- A proxy selects what a name means. -/
theorem select_eq (h : t.Regular) (target : τ) (filters : List φ) (strategy : ProxyStrategy)
    (name : String) :
    (inFront target t filters strategy).select name
      = (t.meaning strategy name).map fun slot => (slot, decide (t.Intercepts strategy slot)) := by
  -- One slot, none, or several; only then the text of the error needs the candidates.
  rcases Routes.get?_meaning h strategy name with ⟨j, slot, hm, hj, hr⟩ | ⟨hm, hr⟩ | ⟨hm, hr⟩
  · rw [hm]
    exact select_route target filters hr hj
  · rw [hm]
    simp only [select, inFront, hr]
    rfl
  · have offered := candidates_eq h target filters strategy name
    simp only [inFront] at offered
    rw [hm]
    simp only [select, inFront, hr, offered]
    rfl

/-- Calls by a name pass the filters exactly if it means a method that is to be intercepted. -/
theorem isIntercepted_iff (h : t.Regular) (target : τ) (filters : List φ)
    (strategy : ProxyStrategy) (name : String) :
    (inFront target t filters strategy).isIntercepted name = true
      ↔ ∃ slot, t.meaning strategy name = .ok slot ∧ t.Intercepts strategy slot := by
  rw [isIntercepted, inFront]
  rcases Routes.get?_meaning h strategy name with ⟨j, slot, hm, _, hr⟩ | ⟨hm, hr⟩ | ⟨hm, hr⟩
  · rw [hm, hr, Routes.routeOf]
    by_cases hi : t.Intercepts strategy slot <;> simp [hi, Route.isIntercepted]
  · rw [hm, hr]
    simp
  · rw [hm, hr]
    simp [Route.isIntercepted]

/-- A call by a name that means no method fails, and nothing runs. -/
theorem invoke_error (h : t.Regular) (target : τ) (filters : List φ) {strategy : ProxyStrategy}
    {name : String} {e : Error} (hm : t.meaning strategy name = .error e) {σ : Type}
    (filter : φ → Filter σ) (run : τ → β → Invoker σ) (values : List Value) (s : σ) :
    (inFront target t filters strategy).invoke filter run name values s
      = (.error (.ofError e), s) := by
  rw [invoke, select_eq h, hm]
  rfl

/-- A call by a name that means a method is one of that method: with a wrong number of arguments it
    fails, and nothing runs; calls that are intercepted go through the chain of all filters, and
    others straight to the method. -/
theorem invoke_ok (h : t.Regular) (target : τ) (filters : List φ) {strategy : ProxyStrategy}
    {name : String} {slot : MethodSlot β} (hm : t.meaning strategy name = .ok slot) {σ : Type}
    (filter : φ → Filter σ) (run : τ → β → Invoker σ) (values : List Value) (s : σ) :
    (inFront target t filters strategy).invoke filter run name values s
      = if values.length ≠ slot.signature.parameters.length then
          (.error (.ofError (.invalidArgument slot.signature.display
            ("expected " ++ toString slot.signature.parameters.length ++ " arguments, got "
              ++ toString values.length))), s)
        else if t.Intercepts strategy slot then
          (Chain.execute (filters.map filter) slot.signature (invoker (run target) slot)
            (.forMethod slot.signature values) s).map Prod.fst id
        else invoker (run target) slot (.forMethod slot.signature values) s := by
  rw [invoke, select_eq h, hm]
  simp only [Except.map]
  split
  · rfl
  · by_cases hi : t.Intercepts strategy slot
    · simp only [hi, decide_true, if_true]
      rfl
    · simp only [hi, decide_false, if_false]
      rfl

/-- **Routing is exact.** In front of every table that is built from methods of plain names, for
    every strategy and all filters: no two methods share a qualified name, and a proxy can be built
    exactly if some method is to be intercepted. It offers the exposed methods, and goes by what
    names mean among them: a call by a name without a meaning fails with the error that `meaning`
    tells, a call with a wrong number of arguments fails, too, and in both cases nothing runs;
    every other call runs the method that its name means, inside the chain of all filters exactly if
    this method is to be intercepted. -/
theorem routing_exact (typeName : String) {calls : List (TableCall β)}
    (h : ∀ c ∈ calls, c.IsPlain) (asked : Option ProxyStrategy) (target : τ) (filters : List φ) :
    let t := MethodTable.ofCalls typeName calls
    let strategy := t.strategy asked
    (t.slots.map (·.signature.qualifiedName)).Nodup ∧
    ((∃ p, build target t filters asked = .ok p) ↔ ∃ slot ∈ t.slots, t.Intercepts strategy slot) ∧
    ∀ p, build target t filters asked = .ok p →
      p.methods = (t.exposed strategy).map (·.signature.name) ∧
      ∀ name,
        (p.isIntercepted name = true
          ↔ ∃ slot, t.meaning strategy name = .ok slot ∧ t.Intercepts strategy slot) ∧
        ∀ (σ : Type) (filter : φ → Filter σ) (run : τ → β → Invoker σ) (values : List Value)
            (s : σ),
          p.invoke filter run name values s
            = match t.meaning strategy name with
              | .error e => (.error (.ofError e), s)
              | .ok slot =>
                if values.length ≠ slot.signature.parameters.length then
                  (.error (.ofError (.invalidArgument slot.signature.display
                    ("expected " ++ toString slot.signature.parameters.length ++ " arguments, got "
                      ++ toString values.length))), s)
                else if t.Intercepts strategy slot then
                  (Chain.execute (filters.map filter) slot.signature (invoker (run target) slot)
                    (.forMethod slot.signature values) s).map Prod.fst id
                else invoker (run target) slot (.forMethod slot.signature values) s := by
  intro t strategy
  have regular : t.Regular := MethodTable.regular_ofCalls h typeName
  have built := build_eq regular target filters asked
  refine ⟨regular.distinct, ?_, fun p hp => ?_⟩
  · rw [built]
    split
    · next hi => exact ⟨fun _ => hi, fun _ => ⟨_, rfl⟩⟩
    · next hi => exact ⟨fun ⟨_, hp⟩ => (nomatch hp), fun hi' => absurd hi' hi⟩
  · have hp : p = inFront target t filters strategy := by
      rw [built] at hp
      split at hp
      · exact (Except.ok.inj hp).symm
      · cases hp
    subst hp
    refine ⟨methods_eq regular target filters strategy, fun name =>
      ⟨isIntercepted_iff regular target filters strategy name, fun σ filter run values s => ?_⟩⟩
    cases hm : t.meaning strategy name with
    | error e => exact invoke_error regular target filters hm filter run values s
    | ok slot => exact invoke_ok regular target filters hm filter run values s

namespace Counter

/-- Two interfaces that share a name, and a method that stands on neither. The state is what has
    run. -/
def calls : List (TableCall (Invoker (List String))) :=
  [.implement "Adder", .implement "Resettable",
    .method { owner := "Adder", name := "apply", parameters := ["i64"] }
      fun _ log => (.ok (.bool true), log ++ ["Adder::apply"]),
    .method { owner := "Counter", name := "reset" }
      fun _ log => (.ok .null, log ++ ["Counter::reset"]),
    .abstractMethod { owner := "Resettable", name := "apply" }]

def filter (name : String) : Filter (List String) where
  name := name
  invoke _ := fun log => .ask .proceed (log ++ [name]) fun r log => .done r log

end Counter

/-- A name of two exposed methods is refused with both qualified names, the qualified name leads
    through the filter to the body, and the method that stands on no interface cannot be called. -/
theorem routing_exact_namesakes :
    (∀ c ∈ Counter.calls, c.IsPlain) ∧
    ∃ p, build () (MethodTable.ofCalls "Counter" Counter.calls) ["audit"] none = .ok p ∧
      p.methods = ["apply", "apply"] ∧
      p.invoke Counter.filter (fun _ body => body) "apply" [.null] []
        = (.error (.ofError (.invalidArgument "apply"
            "ambiguous method name, use one of [\"Adder::apply\", \"Resettable::apply\"]")), []) ∧
      p.invoke Counter.filter (fun _ body => body) "Adder::apply" [.null] []
        = (.ok (.bool true), ["audit", "Adder::apply"]) ∧
      p.invoke Counter.filter (fun _ body => body) "reset" [] []
        = (.error (.ofError (.methodNotFound "Counter" "reset")), []) := by
  have plain : ∀ c ∈ Counter.calls, c.IsPlain := by
    intro c hc slot hs
    simp only [Counter.calls, List.mem_cons, List.not_mem_nil, or_false] at hc
    rcases hc with rfl | rfl | rfl | rfl | rfl <;> cases hs <;> decide
  obtain ⟨-, built, exact⟩ := routing_exact "Counter" plain none () ["audit"]
  obtain ⟨p, hp⟩ := built.mpr ⟨_, List.mem_cons_self, by decide⟩
  obtain ⟨methods, calls⟩ := exact p hp
  refine ⟨plain, p, hp, ?_, ?_, ?_, ?_⟩
  · rw [methods]
    rfl
  · rw [(calls "apply").2]
    rfl
  · rw [(calls "Adder::apply").2]
    rfl
  · rw [(calls "reset").2]
    rfl

end Proxy

end ComponentHost
