/-! # Places in appended lists

  A statement about every place of a log speaks of the ways to write the log as what came before, an
  entry, and what came after. Where the log is made of parts, the entry stands in one of them.
-/

namespace ComponentHost

variable {α : Type} {x y : α} {xs ys before after : List α}

/-- An entry of two appended lists stands in the first or in the second. -/
theorem append_eq_split (h : xs ++ ys = before ++ x :: after) :
    (∃ mid, xs = before ++ x :: mid ∧ after = mid ++ ys) ∨
      ∃ mid, before = xs ++ mid ∧ ys = mid ++ x :: after := by
  rcases List.append_eq_append_iff.mp h with ⟨mid, hb, hy⟩ | ⟨mid, hx, hy⟩
  · exact .inr ⟨mid, hb, hy⟩
  · cases mid with
    | nil => exact .inr ⟨[], by simp [hx], by simpa using hy.symm⟩
    | cons z mid =>
      obtain ⟨rfl, rfl⟩ := List.cons.inj hy
      exact .inl ⟨mid, hx, rfl⟩

/-- An entry of a list is its first one, or stands in the rest. -/
theorem cons_eq_split (h : y :: ys = before ++ x :: after) :
    (before = [] ∧ y = x ∧ ys = after) ∨ ∃ mid, before = y :: mid ∧ ys = mid ++ x :: after := by
  cases before with
  | nil =>
    obtain ⟨rfl, rfl⟩ := List.cons.inj h
    exact .inl ⟨rfl, rfl, rfl⟩
  | cons z mid =>
    obtain ⟨rfl, rfl⟩ := List.cons.inj h
    exact .inr ⟨mid, rfl, rfl⟩

end ComponentHost
