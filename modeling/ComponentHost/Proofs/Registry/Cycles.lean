import Mathlib.Data.List.Chain
import Mathlib.Data.List.Perm.Subperm
import Mathlib.Logic.Relation
import ComponentHost.Proofs.Registry.Names

/-! # Cycles in stores

  The definitions of a store are the nodes of a graph; an edge leads from a definition to what a
  name among its dependencies stands for. Names that stand for nothing are no edges.

  The depth-first search keeps the way on which it has come and the ids that it has finished. The
  invariant is that no cycle is reachable from a finished id and that the way is one of edges with
  no id twice. So the search finds nothing exactly if no cycle is reachable, its fuel never runs
  out, and what it reports is a cycle.
-/

namespace ComponentHost

namespace Store

open Relation

variable {K : Kit} {s s' : Store K} {root a b c id name : String} {path finished : List String}

/-! ### The graph -/

/-- A definition depends on another, by a name that stands for it. -/
def Edge (s : Store K) (a b : String) : Prop :=
  ∃ d, s.definition? a = some d ∧ ∃ name ∈ d.dependencies, s.canonical? name = some b

/-- A cycle is reachable from an id. -/
def Cyclic (s : Store K) (id : String) : Prop :=
  ∃ c, ReflTransGen s.Edge id c ∧ TransGen s.Edge c c

/-- A cycle as it is reported for an id: it starts and ends with the same id, has no other
    repetition, goes along edges, and is reachable. -/
structure CycleBelow (s : Store K) (root : String) (path : List String) : Prop where
  /-- Only the first id is repeated, as the last. -/
  ends : ∃ c rest, path = c :: (rest ++ [c]) ∧ (c :: rest).Nodup
  /-- Each id depends on the next. -/
  edges : path.IsChain s.Edge
  reached : ∀ c ∈ path, ReflTransGen s.Edge root c

theorem Filled.edge_eq (h : s.Filled s') : s'.Edge = s.Edge := by
  funext a b
  rw [Edge, Edge, h.definitions, h.names]

theorem Filled.cyclic_eq (h : s.Filled s') : s'.Cyclic = s.Cyclic := by
  funext id
  rw [Cyclic, Cyclic, h.edge_eq]

/-- Where no cycle is reachable from what a definition depends on, none is from the definition. -/
theorem not_cyclic_of_edges (h : ∀ b, s.Edge a b → ¬ s.Cyclic b) : ¬ s.Cyclic a := by
  rintro ⟨c, hc, hcycle⟩
  rcases ReflTransGen.cases_head hc with rfl | ⟨b, hb, hbc⟩
  · obtain ⟨b, hb, hba⟩ := TransGen.head'_iff.mp hcycle
    exact h b hb ⟨a, hba, hcycle⟩
  · exact h b hb ⟨c, hbc, hcycle⟩

theorem not_cyclic_of_edge (h : ¬ s.Cyclic a) (he : s.Edge a b) : ¬ s.Cyclic b :=
  fun ⟨c, hc, hcycle⟩ => h ⟨c, .head he hc, hcycle⟩

/-- Going along a list of edges leads from its first id to its last. -/
theorem transGen_of_isChain {rest : List String} (h : (a :: (rest ++ [b])).IsChain s.Edge) :
    TransGen s.Edge a b := by
  induction rest generalizing a with
  | nil => exact .single (by simpa using h)
  | cons c rest ih =>
    obtain ⟨hac, hc⟩ := List.isChain_cons_cons.mp h
    exact .head hac (ih hc)

/-- Where a cycle is reported one is reachable. -/
theorem CycleBelow.cyclic (h : s.CycleBelow root path) : s.Cyclic root := by
  obtain ⟨c, rest, rfl, _⟩ := h.ends
  exact ⟨c, h.reached c List.mem_cons_self, transGen_of_isChain h.edges⟩

/-! ### Ways -/

/-- A way along edges, all of it below the root and with no id twice, that leads to an id. -/
structure Way (s : Store K) (root : String) (path : List String) (id : String) : Prop where
  /-- Each id depends on the next. -/
  edges : (path ++ [id]).IsChain s.Edge
  /-- No id is on the way twice. -/
  nodup : path.Nodup
  reached : ∀ c ∈ path ++ [id], ReflTransGen s.Edge root c
  registered : path ⊆ s.ids

namespace Way

theorem start (s : Store K) (root : String) : s.Way root [] root where
  edges := List.isChain_singleton root
  nodup := List.nodup_nil
  reached := by simp [ReflTransGen.refl]
  registered := List.nil_subset _

/-- A way goes on along an edge from a new id. -/
theorem step (h : s.Way root path id) (hv : s.Valid) (hid : id ∉ path) (he : s.Edge id b) :
    s.Way root (path ++ [id]) b where
  edges := by
    refine List.isChain_append.mpr ⟨h.edges, List.isChain_singleton b, ?_⟩
    simpa using he
  nodup := List.nodup_append.mpr ⟨h.nodup, by simp, by rintro a ha b hb rfl; simp_all⟩
  reached := by
    intro c hc
    rcases List.mem_append.mp hc with hc | hc
    · exact h.reached c hc
    · rw [List.mem_singleton] at hc
      subst hc
      exact (h.reached id (by simp)).tail he
  registered := by
    obtain ⟨d, hd, _⟩ := he
    exact List.append_subset.mpr ⟨h.registered, by simpa using hv.listed.mpr ⟨d, hd⟩⟩

/-- A way to a new id is shorter than the store is large. -/
theorem length_lt {d : Definition K} (h : s.Way root path id) (hv : s.Valid) (hid : id ∉ path)
    (hd : s.definition? id = some d) : path.length < s.size := by
  have hnodup : (path ++ [id]).Nodup :=
    List.nodup_append.mpr ⟨h.nodup, by simp, by rintro a ha b hb rfl; simp_all⟩
  have hids : path ++ [id] ⊆ s.ids :=
    List.append_subset.mpr ⟨h.registered, by simpa using hv.listed.mpr ⟨d, hd⟩⟩
  have hle := (List.subperm_of_subset hnodup hids).length_le
  rwa [List.length_append, List.length_singleton] at hle

/-- A way that comes back to one of its ids holds a cycle from there on. -/
theorem cycleBelow (h : s.Way root path id) (hid : id ∈ path) :
    s.CycleBelow root (path.dropWhile (· ≠ id) ++ [id]) := by
  have hsuffix : path.dropWhile (· ≠ id) <:+ path := List.dropWhile_suffix _
  obtain ⟨rest, hrest⟩ : ∃ rest, path.dropWhile (· ≠ id) = id :: rest := by
    clear h hsuffix
    -- The cycle is what the path has from the id on.
    induction path with
    | nil => cases hid
    | cons a path ih =>
      by_cases ha : a = id
      · exact ⟨path, by simp [ha]⟩
      · rw [List.dropWhile_cons_of_pos (by simpa using ha)]
        exact ih ((List.mem_cons.mp hid).resolve_left (Ne.symm ha))
  have hall : path.dropWhile (· ≠ id) ++ [id] <:+ path ++ [id] := by
    obtain ⟨before, hb⟩ := hsuffix
    exact ⟨before, by rw [← List.append_assoc, hb]⟩
  exact {
    ends := ⟨id, rest, by rw [hrest, List.cons_append], hrest ▸ h.nodup.sublist hsuffix.sublist⟩
    edges := h.edges.suffix hall
    reached := fun c hc => h.reached c (hall.subset hc) }

/-- A way to an id from which no cycle is reachable has not come through it. -/
theorem not_mem (h : s.Way root path id) (hfree : ¬ s.Cyclic id) : id ∉ path := by
  intro hid
  obtain ⟨c, rest, hc, _⟩ := (h.cycleBelow hid).ends
  have hedges := (h.cycleBelow hid).edges
  rw [← List.cons_append] at hc
  have hlast := congrArg List.getLast? hc
  simp only [List.getLast?_concat, Option.some.injEq] at hlast
  subst hlast
  rw [hc, List.cons_append] at hedges
  exact hfree ⟨id, .refl, transGen_of_isChain hedges⟩

theorem filled (h : s.Way root path id) (hf : s.Filled s') : s'.Way root path id where
  edges := hf.edge_eq ▸ h.edges
  nodup := h.nodup
  reached := hf.edge_eq ▸ h.reached
  registered := hf.ids ▸ h.registered

end Way

/-! ### The search -/

/-- What a search below some names yields: more finished ids, among them all that the names stand
    for, or a cycle. -/
def Searched (s : Store K) (root : String) (finished names : List String) :
    Except (List String) (List String) → Prop
  | .ok finished' => finished ⊆ finished' ∧
      (∀ name ∈ names, ∀ id, s.canonical? name = some id → id ∈ finished') ∧
      ∀ id ∈ finished', ¬ s.Cyclic id
  | .error path => s.CycleBelow root path

/-- One name after the other. -/
theorem searched_foldlM {search : List String → String → Except (List String) (List String)}
    {names : List String} (hf : ∀ id ∈ finished, ¬ s.Cyclic id)
    (h : ∀ name ∈ names, ∀ finished, (∀ id ∈ finished, ¬ s.Cyclic id) →
      s.Searched root finished [name] (search finished name)) :
    s.Searched root finished names (names.foldlM search finished) := by
  induction names generalizing finished with
  | nil => exact ⟨List.Subset.refl _, by simp, hf⟩
  | cons name rest ih =>
    rw [List.foldlM_cons]
    have hname := h name List.mem_cons_self finished hf
    cases hs : search finished name with
    | error path =>
      rw [hs] at hname
      exact hname
    | ok finished₁ =>
      rw [hs] at hname
      obtain ⟨hsub, hmem, hfree⟩ := hname
      have hrest := ih hfree fun n hn => h n (List.mem_cons_of_mem _ hn)
      show s.Searched root finished (name :: rest) (rest.foldlM search finished₁)
      -- The ids that were finished first stay finished.
      cases hr : rest.foldlM search finished₁ with
      | error path =>
        rw [hr] at hrest
        exact hrest
      | ok finished₂ =>
        rw [hr] at hrest
        obtain ⟨hsub', hmem', hfree'⟩ := hrest
        refine ⟨List.Subset.trans hsub hsub', ?_, hfree'⟩
        intro n hn id hid
        rcases List.mem_cons.mp hn with rfl | hn
        · exact hsub' (hmem n List.mem_cons_self id hid)
        · exact hmem' n hn id hid

/-- A name that stands for nothing new needs no search: at most a cycle is closed. -/
theorem searched_visit_known (fuel : Nat)
    (way : ∀ id, s.canonical? name = some id → s.Way root path id)
    (hf : ∀ id ∈ finished, ¬ s.Cyclic id)
    (hknown : ∀ id, s.canonical? name = some id → id ∉ finished → id ∈ path) :
    s.Searched root finished [name] (s.visit fuel path finished name) := by
  unfold visit
  cases hn : s.canonical? name with
  | none => exact ⟨List.Subset.refl _, by simp [hn], hf⟩
  | some id =>
    simp only
    split
    -- Finished ids lie on no cycle; another id that is known is on the path, which closes a cycle.
    · next hfin => exact ⟨List.Subset.refl _, by simpa [hn] using hfin, hf⟩
    · next hfin =>
      rw [if_pos (hknown id hn hfin)]
      exact (way id hn).cycleBelow (hknown id hn hfin)

/-- The search below a new definition goes through its dependencies, on the way with its id. -/
theorem visit_new {fuel : Nat} {e : Entry K} (hn : s.canonical? name = some id)
    (hfin : id ∉ finished) (hid : id ∉ path) (he : s.entries.get? id = some e) :
    s.visit (fuel + 1) path finished name = (do
      let finished ← e.definition.dependencies.foldlM (s.visit fuel (path ++ [id])) finished
      return id :: finished) := by
  conv => lhs; unfold visit
  simp only [hn, if_neg hfin, if_neg hid, he]

/-- The search below a name, on a way that leads to it, with fuel for all that may still come. -/
theorem searched_visit (hv : s.Valid) (fuel : Nat) (hfuel : s.size < fuel + path.length)
    (way : ∀ id, s.canonical? name = some id → s.Way root path id)
    (hf : ∀ id ∈ finished, ¬ s.Cyclic id) :
    s.Searched root finished [name] (s.visit fuel path finished name) := by
  induction fuel generalizing path finished name with
  | zero =>
    -- The way cannot become longer than the store is large, so the id is on it already.
    refine searched_visit_known 0 way hf fun id hn _ => ?_
    by_contra hid
    obtain ⟨d, hd⟩ := hv.registered hn
    have hlt := (way id hn).length_lt hv hid hd
    omega
  | succ fuel ih =>
    by_cases hknown : ∀ id, s.canonical? name = some id → id ∉ finished → id ∈ path
    · exact searched_visit_known _ way hf hknown
    simp only [not_forall] at hknown
    obtain ⟨id, hn, hfin, hid⟩ := hknown
    obtain ⟨e, _, he, _⟩ := hv.lookup?_of_canonical? hn
    have hd := definition?_of_get? he
    rw [visit_new hn hfin hid he]
    -- Each dependency is searched on the way that goes on through the new definition.
    have hdeps : s.Searched root finished e.definition.dependencies
        (e.definition.dependencies.foldlM (s.visit fuel (path ++ [id])) finished) := by
      refine searched_foldlM hf fun dep hdep finished' hf' => ih ?_ ?_ hf'
      · rw [List.length_append, List.length_singleton]
        omega
      · exact fun b hb => (way id hn).step hv hid ⟨_, hd, dep, hdep, hb⟩
    cases hs : e.definition.dependencies.foldlM (s.visit fuel (path ++ [id])) finished with
    | error cycle =>
      rw [hs] at hdeps
      exact hdeps
    | ok finished' =>
      rw [hs] at hdeps
      obtain ⟨hsub, hmem, hfree⟩ := hdeps
      -- A cycle below it would lie below one of its dependencies.
      have hacyclic : ¬ s.Cyclic id := by
        refine not_cyclic_of_edges ?_
        rintro b ⟨d, hd', dep, hdep, hb⟩
        rw [hd] at hd'
        cases hd'
        exact hfree b (hmem dep hdep b hb)
      refine ⟨fun x hx => List.mem_cons_of_mem _ (hsub hx), ?_, ?_⟩
      · simp [hn]
      · intro x hx
        rcases List.mem_cons.mp hx with rfl | hx
        · exact hacyclic
        · exact hfree x hx

/-- The search from a registered definition fails exactly if a cycle is reachable from it, and then
    it reports one. -/
theorem checkAcyclic_spec {d : Definition K} (hv : s.Valid) (hd : s.definition? id = some d) :
    (s.checkAcyclic id = .ok () ∧ ¬ s.Cyclic id) ∨
      ∃ path, s.checkAcyclic id = .error (.circularDependency path) ∧ s.CycleBelow id path := by
  have hn := canonical?_id hd
  -- The search starts on the id itself, with room for every definition of the store.
  have hsearch : s.Searched id [] [id] (s.visit (s.size + 1) [] [] id) := by
    refine searched_visit hv (s.size + 1) (by simp) ?_ (by simp)
    intro id' hid'
    rw [hn] at hid'
    cases hid'
    exact .start s id
  unfold checkAcyclic
  cases hs : s.visit (s.size + 1) [] [] id with
  | ok finished =>
    rw [hs] at hsearch
    exact .inl ⟨rfl, hsearch.2.2 id (hsearch.2.1 id List.mem_cons_self id hn)⟩
  | error path =>
    rw [hs] at hsearch
    exact .inr ⟨path, rfl, hsearch⟩

end Store

end ComponentHost
