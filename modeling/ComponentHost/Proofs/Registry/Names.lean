import ComponentHost.Proofs.Data.Dict
import ComponentHost.Registry.Store

/-! # Names in stores

  A store only grows: what a name stands for, what is registered under an id and what is in a slot
  stay for good. `Grown` says so, and every operation that succeeds makes the store grow. While
  names are resolved the store changes in its slots alone; `Filled` says that.
-/

namespace ComponentHost

namespace Store

variable {K : Kit} {s s' s'' : Store K} {d : Definition K} {e : Entry K} {i : Instance K}
  {id name new : String}

/-! ### Views -/

def definition? (s : Store K) (id : String) : Option (Definition K) :=
  (s.entries.get? id).map (·.definition)

def slot? (s : Store K) (id : String) : Option (Instance K) :=
  (s.entries.get? id).bind (·.slot)

theorem definition?_of_get? (h : s.entries.get? id = some e) :
    s.definition? id = some e.definition := by
  rw [definition?, h]
  rfl

theorem slot?_of_get? (h : s.entries.get? id = some e) : s.slot? id = e.slot := by
  rw [slot?, h]
  rfl

theorem exists_get?_of_definition? (h : s.definition? id = some d) :
    ∃ e, s.entries.get? id = some e ∧ e.definition = d := by
  simpa [definition?] using h

theorem contains_iff : s.entries.contains id = true ↔ ∃ d, s.definition? id = some d := by
  rw [Dict.contains, ← Option.isSome_iff_exists, definition?, Option.isSome_map]

/-- An id stands for itself. -/
theorem canonical?_id (h : s.definition? id = some d) : s.canonical? id = some id := by
  rw [canonical?, if_pos (contains_iff.mpr ⟨d, h⟩)]

/-- What stands for nothing is no id. -/
theorem definition?_of_canonical?_none (h : s.canonical? id = none) : s.definition? id = none := by
  refine Option.eq_none_iff_forall_ne_some.mpr fun d hd => ?_
  rw [canonical?_id hd] at h
  cases h

theorem slot?_of_definition?_none (h : s.definition? id = none) : s.slot? id = none := by
  rw [definition?, Option.map_eq_none_iff] at h
  rw [slot?, h]
  rfl

/-- A name stands for itself if it is an id, and otherwise for what it is an alias of. -/
theorem canonical?_eq_some :
    s.canonical? name = some id ↔
      (name = id ∧ ∃ d, s.definition? name = some d) ∨
        s.definition? name = none ∧ s.aliases.get? name = some id := by
  unfold canonical?
  split
  · next h =>
    obtain ⟨d, hd⟩ := contains_iff.mp h
    simp [hd]
  · next h =>
    have hd : s.definition? name = none := by
      rw [contains_iff, not_exists] at h
      exact Option.eq_none_iff_forall_not_mem.mpr h
    simp [hd]

theorem lookup?_eq_some :
    s.lookup? name = some e ↔ ∃ id, s.canonical? name = some id ∧ s.entries.get? id = some e := by
  rw [lookup?, Option.bind_eq_some_iff]

/-- A definition stands under its own id, which is listed, and every name stands for one. -/
structure Valid (s : Store K) : Prop where
  /-- The ids that are listed are those under which a definition stands. -/
  listed : ∀ {id}, id ∈ s.ids ↔ ∃ d, s.definition? id = some d
  /-- What is registered under an id has that id. -/
  ids : ∀ {id d}, s.definition? id = some d → d.id = id
  registered : ∀ {name id}, s.canonical? name = some id → ∃ d, s.definition? id = some d

theorem Valid.lookup?_of_canonical? (h : s.Valid) (hn : s.canonical? name = some id) :
    ∃ e, s.lookup? name = some e ∧ s.entries.get? id = some e ∧ e.definition.id = id := by
  obtain ⟨d, hd⟩ := h.registered hn
  obtain ⟨e, he, rfl⟩ := exists_get?_of_definition? hd
  exact ⟨e, lookup?_eq_some.mpr ⟨id, hn, he⟩, he, h.ids hd⟩

/-- A name stands for a definition exactly if it stands for its id. -/
theorem Valid.canonical?_of_lookup? (h : s.Valid) (hl : s.lookup? name = some e) :
    s.canonical? name = some e.definition.id ∧ s.entries.get? e.definition.id = some e := by
  obtain ⟨id, hn, he⟩ := lookup?_eq_some.mp hl
  rw [h.ids (definition?_of_get? he)]
  exact ⟨hn, he⟩

theorem Valid.mem_definitions (h : s.Valid) (hd : s.definition? id = some d) :
    d ∈ s.definitions :=
  List.mem_filterMap.mpr ⟨id, h.listed.mpr ⟨d, hd⟩, hd⟩

/-- Every id that is listed is that of one definition. -/
theorem Valid.map_id_definitions (h : s.Valid) : s.definitions.map (·.id) = s.ids := by
  have listed : ∀ id ∈ s.ids, ∃ d, s.definition? id = some d := fun _ => h.listed.mp
  show (s.ids.filterMap s.definition?).map (·.id) = s.ids
  generalize s.ids = ids at listed
  induction ids with
  | nil => rfl
  | cons id ids ih =>
    obtain ⟨d, hd⟩ := listed id List.mem_cons_self
    rw [List.filterMap_cons_some hd, List.map_cons, h.ids hd,
      ih fun id hid => listed id (List.mem_cons_of_mem _ hid)]

theorem valid_empty : ({} : Store K).Valid where
  listed := by simp [definition?]
  ids h := by cases h
  registered h := by cases h

/-! ### Growth -/

/-- What a store holds, a later one holds too. -/
structure Grown (s s' : Store K) : Prop where
  /-- Names stand for what they stood for. -/
  names : ∀ {name id}, s.canonical? name = some id → s'.canonical? name = some id
  definitions : ∀ {id d}, s.definition? id = some d → s'.definition? id = some d
  /-- Instances stay in their slots. -/
  slots : ∀ {id i}, s.slot? id = some i → s'.slot? id = some i

theorem Grown.refl (s : Store K) : s.Grown s := ⟨id, id, id⟩

theorem Grown.trans (h : s.Grown s') (h' : s'.Grown s'') : s.Grown s'' :=
  ⟨fun hn => h'.names (h.names hn), fun hd => h'.definitions (h.definitions hd),
    fun hs => h'.slots (h.slots hs)⟩

/-- One store is another with more instances in its slots. -/
structure Filled (s s' : Store K) : Prop where
  ids : s'.ids = s.ids
  names : s'.canonical? = s.canonical?
  definitions : s'.definition? = s.definition?
  /-- Instances stay in their slots. -/
  slots : ∀ {id i}, s.slot? id = some i → s'.slot? id = some i

namespace Filled

theorem refl (s : Store K) : s.Filled s := ⟨rfl, rfl, rfl, id⟩

theorem trans (h : s.Filled s') (h' : s'.Filled s'') : s.Filled s'' :=
  ⟨h'.ids.trans h.ids, h'.names.trans h.names, h'.definitions.trans h.definitions,
    fun hs => h'.slots (h.slots hs)⟩

theorem grown (h : s.Filled s') : s.Grown s' :=
  ⟨fun hn => h.names ▸ hn, fun hd => h.definitions ▸ hd, h.slots⟩

theorem size_eq (h : s.Filled s') : s'.size = s.size := congrArg List.length h.ids

end Filled

/-! ### Slots -/

theorem definition?_fill (s : Store K) (id : String) (i : Instance K) :
    (s.fill id i).definition? = s.definition? := by
  funext id'
  unfold fill
  split
  · next e he =>
    rw [definition?, definition?, Dict.get?_insert]
    split
    · next h => rw [h, he]; rfl
    · rfl
  · rfl

theorem aliases_fill (s : Store K) (id : String) (i : Instance K) :
    (s.fill id i).aliases = s.aliases := by
  unfold fill
  split <;> rfl

theorem canonical?_fill (s : Store K) (id : String) (i : Instance K) :
    (s.fill id i).canonical? = s.canonical? := by
  funext name
  refine Option.ext fun id' => ?_
  rw [canonical?_eq_some, canonical?_eq_some, definition?_fill, aliases_fill]

theorem slot?_fill (hd : s.definition? id = some d) (i : Instance K) (id' : String) :
    (s.fill id i).slot? id' = if id' = id then some i else s.slot? id' := by
  obtain ⟨e, he, _⟩ := exists_get?_of_definition? hd
  simp only [fill, he, slot?, Dict.get?_insert]
  split <;> rfl

theorem ids_fill (s : Store K) (id : String) (i : Instance K) : (s.fill id i).ids = s.ids := by
  unfold fill
  split <;> rfl

theorem definitions_fill (s : Store K) (id : String) (i : Instance K) :
    (s.fill id i).definitions = s.definitions := by
  show (s.fill id i).ids.filterMap (s.fill id i).definition? = s.ids.filterMap s.definition?
  rw [ids_fill, definition?_fill]

/-- Putting an instance into an empty slot fills it, and nothing else changes. -/
theorem filled_fill (hd : s.definition? id = some d) (hs : s.slot? id = none) (i : Instance K) :
    s.Filled (s.fill id i) where
  ids := ids_fill s id i
  names := canonical?_fill s id i
  definitions := definition?_fill s id i
  slots := by
    intro id' i' h
    rw [slot?_fill hd, if_neg]
    · exact h
    · rintro rfl
      rw [hs] at h
      cases h

/-- Only what is listed, the names and the definitions make a store valid. -/
theorem Valid.congr (h : s.Valid) (ids : s'.ids = s.ids) (names : s'.canonical? = s.canonical?)
    (definitions : s'.definition? = s.definition?) : s'.Valid where
  listed := by
    rw [ids, definitions]
    exact h.listed
  ids hd := h.ids (definitions ▸ hd)
  registered hn := by
    rw [names] at hn
    rw [definitions]
    exact h.registered hn

theorem Valid.of_filled (h : s.Valid) (hf : s.Filled s') : s'.Valid :=
  h.congr hf.ids hf.names hf.definitions

/-! ### Registration -/

theorem canonical?_of_checkAliases {aliases : List String}
    (h : s.checkAliases id aliases = .ok ()) {a : String} (ha : a ∈ aliases) :
    s.canonical? a = none ∧ a ≠ id := by
  induction aliases with
  | nil => cases ha
  | cons b rest ih =>
    unfold checkAliases at h
    cases hb : s.canonical? b with
    | some existing => rw [hb] at h; cases h
    | none =>
      rw [hb] at h
      by_cases hid : b = id
      · simp [hid] at h
      · rw [if_neg hid] at h
        rcases List.mem_cons.mp ha with rfl | ha
        · exact ⟨hb, hid⟩
        · exact ih h ha

theorem get?_foldl_insert (m : Dict String String) (id : String) (aliases : List String)
    (a : String) :
    (aliases.foldl (fun m a => m.insert a id) m).get? a
      = if a ∈ aliases then some id else m.get? a := by
  induction aliases generalizing m with
  | nil => rfl
  | cons b rest ih =>
    rw [List.foldl_cons, ih, Dict.get?_insert]
    by_cases hr : a ∈ rest <;> by_cases hb : a = b <;> simp [hr, hb]

/-- What a registration checks, and what it adds. -/
theorem register_ok (h : s.register d = .ok s') :
    s.canonical? d.id = none ∧ (∀ a ∈ d.aliases, s.canonical? a = none ∧ a ≠ d.id) ∧
      s'.entries = s.entries.insert d.id { definition := d } ∧
      (∀ a, s'.aliases.get? a = if a ∈ d.aliases then some d.id else s.aliases.get? a) ∧
      s'.ids = s.ids ++ [d.id] := by
  unfold register at h
  split at h
  · cases h
  · next hid =>
    cases hc : s.checkAliases d.id d.aliases with
    | error e => rw [hc] at h; cases h
    | ok u =>
      rw [hc] at h
      cases h
      refine ⟨?_, fun a ha => canonical?_of_checkAliases hc ha, rfl,
        fun a => get?_foldl_insert s.aliases d.id d.aliases a, rfl⟩
      -- The id was free on both sides: it is neither registered nor an alias.
      simp only [Bool.or_eq_true, not_or, Bool.not_eq_true] at hid
      unfold canonical?
      rw [if_neg (by simp [hid.1])]
      simpa [Dict.contains] using hid.2

/-- After a registration the id stands for the definition, its names stand for the id, and
    everything else is as it was. -/
theorem register_views (h : s.register d = .ok s') :
    (∀ id, s'.definition? id = if id = d.id then some d else s.definition? id) ∧
      (∀ id, s'.slot? id = s.slot? id) ∧
      ∀ name, s'.canonical? name
        = if name = d.id ∨ name ∈ d.aliases then some d.id else s.canonical? name := by
  obtain ⟨hid, ha, hentries, haliases, _⟩ := register_ok h
  have hdefinition (id : String) :
      s'.definition? id = if id = d.id then some d else s.definition? id := by
    rw [definition?, hentries, Dict.get?_insert]
    split <;> rfl
  refine ⟨hdefinition, ?_, ?_⟩
  -- A new entry has an empty slot, and there was none under its id.
  · intro id
    rw [slot?, hentries, Dict.get?_insert]
    split
    · next hi =>
      rw [hi, slot?_of_definition?_none (definition?_of_canonical?_none hid)]
      rfl
    · rfl
  -- The id and its aliases were free, so no older name is shadowed.
  · intro name
    have hcontains :
        s'.entries.contains name = (decide (name = d.id) || s.entries.contains name) := by
      rw [Dict.contains, hentries, Dict.get?_insert]
      by_cases hn : name = d.id <;> simp [hn, Dict.contains]
    rw [canonical?, hcontains, haliases]
    by_cases hn : name = d.id
    · simp [hn]
    · by_cases hal : name ∈ d.aliases
      · have hfree := (ha name hal).1
        rw [canonical?] at hfree
        split at hfree
        · cases hfree
        · next hc => simp [hn, hal, hc]
      · simp [hn, hal, canonical?]

theorem register_grown (h : s.register d = .ok s') : s.Grown s' := by
  obtain ⟨hid, ha, _, _⟩ := register_ok h
  obtain ⟨hdefinition, hslot, hcanonical⟩ := register_views h
  constructor
  case names =>
    intro name id hn
    rw [hcanonical, if_neg]
    · exact hn
    · -- What stood for something before is none of the new names.
      rintro (rfl | hal)
      · rw [hid] at hn
        cases hn
      · rw [(ha name hal).1] at hn
        cases hn
  case definitions =>
    intro id d' hd
    rw [hdefinition, if_neg]
    · exact hd
    · -- The id was free, so this is another one.
      rintro rfl
      rw [definition?_of_canonical?_none hid] at hd
      cases hd
  case slots =>
    intro id i hs
    rw [hslot]
    exact hs

theorem Valid.register (hv : s.Valid) (h : s.register d = .ok s') : s'.Valid := by
  obtain ⟨_, _, _, _, hids⟩ := register_ok h
  obtain ⟨hdefinition, _, hcanonical⟩ := register_views h
  constructor
  case listed =>
    intro id
    rw [hids, List.mem_append, List.mem_singleton, hv.listed, hdefinition]
    by_cases he : id = d.id <;> simp [he]
  case ids =>
    intro id d' hd
    rw [hdefinition] at hd
    split at hd
    · next hid =>
      cases hd
      exact hid.symm
    · exact hv.ids hd
  case registered =>
    intro name id hn
    rw [hcanonical] at hn
    split at hn
    · cases hn
      exact ⟨d, by rw [hdefinition, if_pos rfl]⟩
    · obtain ⟨d', hd'⟩ := hv.registered hn
      exact ⟨d', (register_grown h).definitions hd'⟩

/-- What a new alias needs, and what it adds. -/
theorem addAlias_ok (h : s.addAlias new name = .ok s') :
    s' = s ∨ ∃ id, s.canonical? name = some id ∧ s.canonical? new = none ∧
      s' = { s with aliases := s.aliases.insert new id } := by
  unfold addAlias at h
  split at h
  · cases h
  · next target ht =>
    split at h
    · next hnew =>
      cases h
      exact .inr ⟨target, ht, hnew, rfl⟩
    · split at h
      · cases h
        exact .inl rfl
      · cases h

/-- After an alias has been added it stands for its id, and everything else is as it was. -/
theorem canonical?_addAlias (hnew : s.canonical? new = none) (n : String) :
    ({ s with aliases := s.aliases.insert new id } : Store K).canonical? n
      = if n = new then some id else s.canonical? n := by
  unfold canonical? at hnew
  split at hnew
  · cases hnew
  · next hc =>
    rw [canonical?, Dict.get?_insert]
    by_cases hn : n = new
    · simp [hn, hc]
    · simp [hn, canonical?]

theorem addAlias_grown (h : s.addAlias new name = .ok s') : s.Grown s' := by
  rcases addAlias_ok h with rfl | ⟨id, _, hnew, rfl⟩
  · exact .refl _
  · refine ⟨?_, fun hd => hd, fun hs => hs⟩
    intro n id' hn
    rw [canonical?_addAlias hnew, if_neg]
    · exact hn
    · rintro rfl
      rw [hnew] at hn
      cases hn

theorem slot?_addAlias (h : s.addAlias new name = .ok s') (id : String) :
    s'.slot? id = s.slot? id := by
  rcases addAlias_ok h with rfl | ⟨_, _, _, rfl⟩ <;> rfl

theorem Valid.addAlias (hv : s.Valid) (h : s.addAlias new name = .ok s') : s'.Valid := by
  rcases addAlias_ok h with rfl | ⟨id, hid, hnew, rfl⟩
  · exact hv
  · refine ⟨hv.listed, fun hd => hv.ids hd, ?_⟩
    intro n id' hn
    rw [canonical?_addAlias hnew] at hn
    split at hn
    · cases hn
      exact hv.registered hid
    · exact hv.registered hn

end Store

end ComponentHost
