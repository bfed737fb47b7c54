import ComponentHost.Proofs.Registry.Names

/-! # Integrity of stores

  Names come into a store by two calls: a definition is registered together with its aliases, or a
  name is made an alias of what another name stands for. Both check everything before they change
  anything. So through all calls the tables of a store fit together, and a name that stands for a
  definition stands for it for good.

  - `Naming` are the calls, and `Store.call` is what a call does;
  - `Store.Admits` says, without the checks, which calls succeed;
  - `Store.Integral` says how the tables fit together.
-/

namespace ComponentHost

variable {K : Kit}

/-- A call that is to add names to a store. -/
inductive Naming (K : Kit)
  | register (d : Definition K)
  /-- A name is made an alias of what another name stands for. -/
  | addAlias (new name : String)

namespace Naming

def id? : Naming K → Option String
  | register d => some d.id
  | addAlias _ _ => none

def names : Naming K → List String
  | register d => d.id :: d.aliases
  | addAlias new _ => [new]

/-- The id that the names of a call are to stand for. -/
def target? (s : Store K) : Naming K → Option String
  | register d => some d.id
  | addAlias _ name => s.canonical? name

end Naming

namespace Store

variable {s s' : Store K} {c : Naming K} {d : Definition K} {e : Error} {order : List String}
  {id name new : String}

/-! ### Calls -/

/-- What a call comes to: the store with more names, or an error. -/
def request (s : Store K) : Naming K → Except Error (Store K)
  | .register d => s.register d
  | .addAlias new name => s.addAlias new name

/-- What the caller is told, and the store after the call. -/
def call (s : Store K) (c : Naming K) : Except Error Unit × Store K :=
  match s.request c with
  | .ok s' => (.ok (), s')
  | .error e => (.error e, s)

def afterCalls (s : Store K) (calls : List (Naming K)) : Store K :=
  calls.foldl (fun s c => (s.call c).2) s

/-- The ids that calls register, in the order of the registrations that succeed. -/
def registered : Store K → List (Naming K) → List String
  | _, [] => []
  | s, c :: calls =>
    (if (s.call c).1.isOk then c.id?.toList else []) ++ (s.call c).2.registered calls

/-- The names that a call brings are new; but an alias may be given again to the id that it stands
    for. -/
def Admits (s : Store K) : Naming K → Prop
  | .register d =>
    s.canonical? d.id = none ∧ ∀ a ∈ d.aliases, s.canonical? a = none ∧ a ≠ d.id
  | .addAlias new name => ∃ id, s.canonical? name = some id ∧
      (s.canonical? new = none ∨ s.canonical? new = some id ∧ new ≠ id)

/-! ### Which calls succeed -/

theorem call_error (h : s.request c = .error e) : s.call c = (.error e, s) := by
  rw [call, h]

theorem call_ok (h : s.request c = .ok s') : s.call c = (.ok (), s') := by
  rw [call, h]

/-- A name that stands for nothing is neither an id nor an alias. -/
theorem canonical?_eq_none :
    s.canonical? name = none ↔ s.entries.contains name = false ∧ s.aliases.get? name = none := by
  unfold canonical?
  split <;> simp_all

theorem checkAliases_eq_ok {aliases : List String} :
    s.checkAliases id aliases = .ok () ↔ ∀ a ∈ aliases, s.canonical? a = none ∧ a ≠ id := by
  constructor
  · intro h a ha
    exact canonical?_of_checkAliases h ha
  · intro h
    induction aliases with
    | nil => rfl
    | cons a rest ih =>
      obtain ⟨hfree, hid⟩ := h a List.mem_cons_self
      rw [checkAliases, hfree]
      simp only [if_neg hid]
      exact ih fun b hb => h b (List.mem_cons_of_mem a hb)

theorem register_of_admits (h : s.Admits (.register d)) : ∃ s', s.register d = .ok s' := by
  obtain ⟨hid, ha⟩ := h
  obtain ⟨hc, hn⟩ := canonical?_eq_none.mp hid
  have hn : s.aliases.contains d.id = false := by rw [Dict.contains, hn]; rfl
  rw [register, if_neg (by simp [hc, hn]), checkAliases_eq_ok.mpr ha]
  exact ⟨_, rfl⟩

theorem addAlias_new (hname : s.canonical? name = some id) (hnew : s.canonical? new = none) :
    s.addAlias new name = .ok { s with aliases := s.aliases.insert new id } := by
  simp only [addAlias, hname, hnew]

theorem addAlias_again (hname : s.canonical? name = some id) (hnew : s.canonical? new = some id)
    (hne : new ≠ id) : s.addAlias new name = .ok s := by
  simp [addAlias, hname, hnew, hne]

theorem admits_of_addAlias (h : s.addAlias new name = .ok s') : s.Admits (.addAlias new name) := by
  unfold addAlias at h
  split at h
  · cases h
  · next id hname =>
    refine ⟨id, hname, ?_⟩
    split at h
    · next hnew => exact .inl hnew
    · next existing hnew =>
      split at h
      · next hc =>
        obtain ⟨rfl, hne⟩ : existing = id ∧ new ≠ id := by simpa using hc
        exact .inr ⟨hnew, hne⟩
      · cases h

/-- Which calls succeed can be told from the names alone. -/
theorem call_isOk : (s.call c).1 = .ok () ↔ s.Admits c := by
  have told : (s.call c).1 = .ok () ↔ ∃ s', s.request c = .ok s' := by
    cases hr : s.request c with
    | ok s' => simp [call_ok hr]
    | error e => simp [call_error hr]
  rw [told]
  cases c with
  | register d =>
    constructor
    -- What a registration checks is that its names are new.
    · rintro ⟨s', h⟩
      obtain ⟨hid, ha, _⟩ := register_ok h
      exact ⟨hid, ha⟩
    · exact register_of_admits
  | addAlias new name =>
    constructor
    · rintro ⟨s', h⟩
      exact admits_of_addAlias h
    · rintro ⟨id, hname, hnew | ⟨hnew, hne⟩⟩
      · exact ⟨_, addAlias_new hname hnew⟩
      · exact ⟨s, addAlias_again hname hnew hne⟩

/-! ### How the tables fit together -/

/-- The tables of a store fit together; `order` are the ids in the order of their registration. -/
structure Integral (s : Store K) (order : List String) : Prop where
  /-- No id is registered twice. -/
  once : order.Nodup
  /-- The ids are listed in the order of their registration. -/
  inOrder : s.ids = order
  /-- The ids that are listed are those under which a definition stands. -/
  listed : ∀ id, id ∈ order ↔ ∃ d, s.definition? id = some d
  /-- What stands under an id has that id. -/
  named : ∀ id d, s.definition? id = some d → d.id = id
  /-- No alias is an id. -/
  apart : ∀ a id, s.aliases.get? a = some id → a ∉ order
  /-- Every alias stands for an id. -/
  target : ∀ a id, s.aliases.get? a = some id → id ∈ order

namespace Integral

theorem empty : ({} : Store K).Integral [] where
  once := List.nodup_nil
  inOrder := rfl
  listed id := by simp [definition?]
  named id d h := by cases h
  apart a id h := by cases h
  target a id h := by cases h

theorem not_mem (h : s.Integral order) (hn : s.canonical? id = none) : id ∉ order := by
  intro hm
  obtain ⟨d, hd⟩ := (h.listed id).mp hm
  rw [canonical?_id hd] at hn
  cases hn

/-- A name stands for an id. -/
theorem canonical_mem (h : s.Integral order) (hn : s.canonical? name = some id) : id ∈ order := by
  rcases canonical?_eq_some.mp hn with ⟨rfl, registered⟩ | ⟨_, ha⟩
  · exact (h.listed name).mpr registered
  · exact h.target name id ha

/-- What a name stands for stands for itself. -/
theorem canonical_idem (h : s.Integral order) (hn : s.canonical? name = some id) :
    s.canonical? id = some id := by
  obtain ⟨d, hd⟩ := (h.listed id).mp (h.canonical_mem hn)
  exact canonical?_id hd

theorem register (h : s.Integral order) (hr : s.register d = .ok s') :
    s'.Integral (order ++ [d.id]) := by
  obtain ⟨hid, halias, _, haliases, hids⟩ := register_ok hr
  obtain ⟨hdefinition, _, _⟩ := register_views hr
  have hnew : d.id ∉ order := h.not_mem hid
  constructor
  case once => exact List.nodup_append.mpr ⟨h.once, by simp, by rintro a ha _ hb rfl; simp_all⟩
  case inOrder => rw [hids, h.inOrder]
  case listed =>
    intro id
    rw [hdefinition, List.mem_append, List.mem_singleton, h.listed]
    by_cases he : id = d.id
    · simp [he]
    · simp [he]
  case named =>
    intro id d' hd
    rw [hdefinition] at hd
    split at hd
    · next he =>
      cases hd
      exact he.symm
    · exact h.named id d' hd
  case apart =>
    intro a id ha
    rw [haliases] at ha
    rw [List.mem_append, List.mem_singleton]
    -- New aliases were free, so they are no ids; the new id was free, so it is no older alias.
    rintro (hm | rfl)
    · split at ha
      · next hd => exact h.not_mem (halias a hd).1 hm
      · exact h.apart a id ha hm
    · split at ha
      · next hd => exact (halias _ hd).2 rfl
      · rw [(canonical?_eq_none.mp hid).2] at ha
        cases ha
  case target =>
    intro a id ha
    rw [haliases] at ha
    rw [List.mem_append, List.mem_singleton]
    split at ha
    · cases ha
      exact .inr rfl
    · exact .inl (h.target a id ha)

theorem addAlias (h : s.Integral order) (ha : s.addAlias new name = .ok s') :
    s'.Integral order := by
  -- An alias that is given again changes nothing, and any other was free.
  rcases addAlias_ok ha with rfl | ⟨id, hname, hnew, rfl⟩
  · exact h
  · refine ⟨h.once, h.inOrder, h.listed, h.named, ?_, ?_⟩
    · intro a id' ha'
      rw [Dict.get?_insert] at ha'
      split at ha'
      · next he => exact he ▸ h.not_mem hnew
      · exact h.apart a id' ha'
    · intro a id' ha'
      rw [Dict.get?_insert] at ha'
      split at ha'
      · cases ha'
        exact h.canonical_mem hname
      · exact h.target a id' ha'

/-- Whatever becomes of a call, the tables fit together afterwards. -/
theorem call (h : s.Integral order) (c : Naming K) :
    (s.call c).2.Integral (order ++ if (s.call c).1.isOk then c.id?.toList else []) := by
  cases hr : s.request c with
  | error e =>
    rw [call_error hr]
    simpa [Except.isOk, Except.toBool] using h
  | ok s' =>
    rw [call_ok hr]
    cases c with
    | register d => exact h.register hr
    | addAlias new name => simpa [Naming.id?, Except.isOk, Except.toBool] using h.addAlias hr

theorem afterCalls (h : s.Integral order) (calls : List (Naming K)) :
    (s.afterCalls calls).Integral (order ++ s.registered calls) := by
  induction calls generalizing s order with
  | nil => simpa [registered, Store.afterCalls] using h
  | cons c calls ih =>
    rw [registered, ← List.append_assoc]
    exact ih (h.call c)

end Integral

/-! ### Names are kept -/

theorem call_grown (s : Store K) (c : Naming K) : s.Grown (s.call c).2 := by
  cases hr : s.request c with
  | error e => rw [call_error hr]; exact .refl s
  | ok s' =>
    rw [call_ok hr]
    cases c with
    | register d => exact register_grown hr
    | addAlias new name => exact addAlias_grown hr

theorem afterCalls_grown (s : Store K) (calls : List (Naming K)) :
    s.Grown (s.afterCalls calls) := by
  induction calls generalizing s with
  | nil => exact .refl s
  | cons c calls ih => exact (call_grown s c).trans (ih _)

theorem find?_eq_some :
    s.find? name = some d ↔
      ∃ id, s.canonical? name = some id ∧ s.definition? id = some d := by
  simp only [find?, lookup?, definition?, Option.map_eq_some_iff, Option.bind_eq_some_iff]
  constructor
  · rintro ⟨e, ⟨id, hn, he⟩, rfl⟩
    exact ⟨id, hn, e, he, rfl⟩
  · rintro ⟨id, hn, e, he, rfl⟩
    exact ⟨e, ⟨id, hn, he⟩, rfl⟩

/-- The names that a successful call brings stand for its id from then on. -/
theorem call_named (h : (s.call c).1 = .ok ()) :
    ∀ n ∈ c.names, (s.call c).2.canonical? n = c.target? s := by
  have admits : s.Admits c := call_isOk.mp h
  cases c with
  | register d =>
    obtain ⟨s', hr⟩ := register_of_admits admits
    obtain ⟨_, _, hcanonical⟩ := register_views hr
    intro n hn
    rw [call_ok (c := .register d) hr, hcanonical, if_pos (by simpa [Naming.names] using hn)]
    rfl
  | addAlias new name =>
    intro n hn
    obtain rfl : n = new := by simpa [Naming.names] using hn
    obtain ⟨id, hname, hnew | ⟨hnew, hne⟩⟩ := admits
    · rw [call_ok (c := .addAlias n name) (addAlias_new hname hnew),
        canonical?_addAlias hnew, if_pos rfl]
      exact hname.symm
    · rw [call_ok (c := .addAlias n name) (addAlias_again hname hnew hne), hnew]
      exact hname.symm

/-- What a successful registration registers is found. -/
theorem call_registered (h : (s.call (.register d)).1 = .ok ()) :
    (s.call (.register d)).2.find? d.id = some d := by
  obtain ⟨s', hr⟩ := register_of_admits (call_isOk.mp h)
  obtain ⟨hdefinition, _, hcanonical⟩ := register_views hr
  rw [call_ok (c := .register d) hr]
  exact find?_eq_some.mpr ⟨d.id, by rw [hcanonical, if_pos (.inl rfl)],
    by rw [hdefinition, if_pos rfl]⟩

/-- **Integrity of stores.** After any calls on an empty store its tables fit together, and what a
    name stands for stands for itself. A call succeeds exactly if the names that it brings are new,
    and then they stand for its id; a call that fails changes nothing. A name that stands for an id
    stands for that id, and finds the same definition, after all later calls. -/
theorem integrity_kept (calls : List (Naming K)) :
    let s := ({} : Store K).afterCalls calls
    s.Integral (({} : Store K).registered calls) ∧
      (∀ name id, s.canonical? name = some id → s.canonical? id = some id) ∧
      (∀ c, ((s.call c).1 = .ok () ↔ s.Admits c) ∧
        ∀ e, (s.call c).1 = .error e → (s.call c).2 = s) ∧
      (∀ c, (s.call c).1 = .ok () →
        ∀ n ∈ c.names, (s.call c).2.canonical? n = c.target? s) ∧
      (∀ d, (s.call (.register d)).1 = .ok () →
        (s.call (.register d)).2.find? d.id = some d) ∧
      ∀ later name id, s.canonical? name = some id →
        (s.afterCalls later).canonical? name = some id ∧
          ∃ d, s.find? name = some d ∧ (s.afterCalls later).find? name = some d := by
  intro s
  have fits : s.Integral (({} : Store K).registered calls) := by
    have := Integral.empty.afterCalls (K := K) calls
    rwa [List.nil_append] at this
  refine ⟨fits, fun name id => fits.canonical_idem, fun c => ⟨call_isOk, ?_⟩,
    fun c => call_named, fun d => call_registered, ?_⟩
  -- Only a request that succeeds replaces the store.
  · intro e he
    cases hr : s.request c with
    | ok s' => rw [call_ok hr] at he; cases he
    | error e' => rw [call_error hr]
  -- The name stands for an id, so something stands under the id, and stays.
  · intro later name id hn
    have grown := afterCalls_grown s later
    obtain ⟨d, hd⟩ := (fits.listed id).mp (fits.canonical_mem hn)
    exact ⟨grown.names hn, d, find?_eq_some.mpr ⟨id, hn, hd⟩,
      find?_eq_some.mpr ⟨id, grown.names hn, grown.definitions hd⟩⟩

end Store

end ComponentHost
