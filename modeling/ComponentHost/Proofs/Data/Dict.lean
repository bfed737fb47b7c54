import ComponentHost.Transaction.Memory

/-! # Keys of dictionaries

  Which keys a dictionary has, and that it has each of them once. Every dictionary that is built by
  insertions has its keys once; then going through its entries is the same as looking its keys up,
  and this is what a commit does with pending writes.
-/

namespace ComponentHost

namespace Dict

variable {κ ν : Type} [DecidableEq κ] {d : Dict κ ν} {k : κ} {v : ν}

/-! ### Keys and values -/

theorem find?_isSome_iff (k : κ) (es : List (κ × ν)) :
    (find? k es).isSome ↔ k ∈ es.map (·.1) := by
  induction es with
  | nil => simp [find?]
  | cons e rest ih =>
    obtain ⟨q, w⟩ := e
    by_cases h : q = k
    · simp [find?, h]
    · simp [find?, h, ih, Ne.symm h]

/-- The keys are those that have a value. -/
theorem mem_keys : k ∈ d.keys ↔ (d.get? k).isSome := (find?_isSome_iff k d.entries).symm

/-- What is looked up stands among the entries. -/
theorem mem_of_find? {es : List (κ × ν)} (h : find? k es = some v) : (k, v) ∈ es := by
  induction es with
  | nil => cases h
  | cons e rest ih =>
    obtain ⟨q, w⟩ := e
    by_cases hq : q = k
    · simp only [find?, hq, if_true, Option.some.injEq] at h
      simp [hq, h]
    · rw [find?, if_neg hq] at h
      exact List.mem_cons_of_mem _ (ih h)

/-! ### Each key once -/

theorem map_fst_put (k : κ) (v : ν) (es : List (κ × ν)) :
    (put k v es).map (·.1) = if k ∈ es.map (·.1) then es.map (·.1) else es.map (·.1) ++ [k] := by
  induction es with
  | nil => simp [put]
  | cons e rest ih =>
    obtain ⟨q, w⟩ := e
    by_cases h : q = k
    · simp [put, h]
    · have hk : (k ∈ ((q, w) :: rest).map (·.1)) ↔ k ∈ rest.map (·.1) := by simp [Ne.symm h]
      simp only [put, h, if_false, List.map_cons, ih]
      split
      · next hm => rw [if_pos (by simpa using .inr (by simpa using hm))]
      · next hm => rw [if_neg (by simpa [Ne.symm h] using hm), List.cons_append]

theorem map_fst_remove_sublist (k : κ) (es : List (κ × ν)) :
    ((remove k es).map (·.1)).Sublist (es.map (·.1)) := by
  induction es with
  | nil => exact .slnil
  | cons e rest ih =>
    obtain ⟨q, w⟩ := e
    by_cases h : q = k
    · simpa [remove, h] using ih.cons k
    · simpa [remove, h] using ih

omit [DecidableEq κ] in
theorem nodup_keys_empty : ({} : Dict κ ν).keys.Nodup := List.nodup_nil

theorem nodup_keys_insert (h : d.keys.Nodup) : (d.insert k v).keys.Nodup := by
  rw [keys, insert, map_fst_put]
  split
  · exact h
  · next hk => exact List.nodup_append.mpr ⟨h, by simp, by rintro a ha b hb rfl; simp_all [keys]⟩

/-- Where each key stands once, every entry is found. -/
theorem find?_of_mem {es : List (κ × ν)} (hn : (es.map (·.1)).Nodup) (h : (k, v) ∈ es) :
    find? k es = some v := by
  induction es with
  | nil => cases h
  | cons e rest ih =>
    obtain ⟨q, w⟩ := e
    obtain ⟨hq, hn⟩ := List.nodup_cons.mp hn
    rcases List.mem_cons.mp h with he | h
    · cases he
      simp [find?]
    · have hne : q ≠ k := by
        rintro rfl
        exact hq (List.mem_map.mpr ⟨_, h, rfl⟩)
      rw [find?, if_neg hne]
      exact ih hn h

/-- Where each key stands once, the entries are what is looked up. -/
theorem mem_entries (h : d.keys.Nodup) : (k, v) ∈ d.entries ↔ d.get? k = some v :=
  ⟨find?_of_mem h, mem_of_find?⟩

theorem nodup_keys_erase (h : d.keys.Nodup) : (d.erase k).keys.Nodup :=
  (map_fst_remove_sublist k d.entries).nodup h

end Dict

/-! ### Applying writes -/

namespace Memory

/-- Where each key is written once, going through the writes leaves under every key its pending
    value, or the committed one where nothing is pending. -/
theorem get?_apply {writes : Writes} (h : writes.keys.Nodup) (committed : Dict String Value)
    (key : String) :
    (apply committed writes).get? key = (writes.get? key).getD (committed.get? key) := by
  obtain ⟨es⟩ := writes
  unfold apply
  induction es generalizing committed with
  | nil => rfl
  | cons e rest ih =>
    obtain ⟨q, v⟩ := e
    have hq : q ∉ rest.map (·.1) := (List.nodup_cons.mp h).1
    rw [List.foldl_cons, ih (committed.set q v) (List.nodup_cons.mp h).2, Dict.get?_set]
    by_cases hk : key = q
    · subst hk
      have hn : Dict.find? key rest = none := by
        simpa using mt (Dict.find?_isSome_iff key rest).mp hq
      simp [Dict.get?, Dict.find?, hn]
    · simp [Dict.get?, Dict.find?, hk, Ne.symm hk]

end Memory

end ComponentHost
