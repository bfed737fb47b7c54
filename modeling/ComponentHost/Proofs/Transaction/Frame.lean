import ComponentHost.Proofs.Transaction.Program

/-! # What programs leave alone

  A program runs between its worlds like a bracket: it leaves the stack of contexts as it was, and
  of all transactions that there were it touches at most the current one. Of that one it may change
  the mark and the pending writes; it uses up savepoint names, and it may leave savepoints behind
  whose release or rollback failed, but those that were set before are still there.

  `Sound` is what a world must satisfy for this, and `Frame` relates the worlds before and after.
-/

namespace ComponentHost

open World Attempt

/-! ### Savepoints of a journal -/

namespace Journal

variable {j : Journal} {earlier later : List (String × Writes)} {name : String} {writes : Writes}

/-- No key is written twice, in the pending writes or in what a savepoint remembers of them. -/
def Distinct (j : Journal) : Prop :=
  j.writes.keys.Nodup ∧ ∀ sp ∈ j.savepoints, sp.2.keys.Nodup

theorem distinct_empty : Distinct {} := ⟨Dict.nodup_keys_empty, by simp⟩

theorem Distinct.write (h : j.Distinct) (key : String) (value : Option Value) :
    (j.write key value).Distinct :=
  ⟨Dict.nodup_keys_insert h.1, h.2⟩

theorem Distinct.setSavepoint (h : j.Distinct) (name : String) :
    (j.setSavepoint name).Distinct := by
  refine ⟨h.1, ?_⟩
  intro sp hsp
  rcases List.mem_append.mp hsp with hsp | hsp
  · exact h.2 sp hsp
  · rw [List.mem_singleton.mp hsp]
    exact h.1

theorem position?_eq (h : j.savepoints = earlier ++ (name, writes) :: later)
    (hn : ∀ sp ∈ earlier, sp.1 ≠ name) : j.position? name = some earlier.length := by
  have hf : earlier.findIdx? (·.1 == name) = none :=
    List.findIdx?_eq_none_iff.mpr fun sp hsp => by simpa using hn sp hsp
  simp [position?, h, List.findIdx?_append, hf, List.findIdx?_cons]

/-- Going back to a savepoint undoes all that came after it. -/
theorem rollbackTo?_eq (h : j.savepoints = earlier ++ (name, writes) :: later)
    (hn : ∀ sp ∈ earlier, sp.1 ≠ name) : j.rollbackTo? name = some ⟨writes, earlier⟩ := by
  simp [rollbackTo?, position?_eq h hn, h]

/-- Giving a savepoint up forgets the later ones too. -/
theorem release?_eq (h : j.savepoints = earlier ++ (name, writes) :: later)
    (hn : ∀ sp ∈ earlier, sp.1 ≠ name) : j.release? name = some ⟨j.writes, earlier⟩ := by
  simp [release?, position?_eq h hn, h]

end Journal

/-! ### Looking up contexts -/

/-- A lookup only reads contexts that were made before. -/
theorem Contexts.lookup_congr {α : Type} {cs cs' : Contexts} {n : Nat}
    (h : ∀ i < n, cs'[i]? = cs[i]?) (g : Context → Option α) (c : ContextId) (hc : c.index < n) :
    cs'.lookup g c = cs.lookup g c := by
  obtain ⟨i⟩ := c
  -- A lookup goes on with a parent only if that was made earlier.
  induction i using Nat.strongRecOn with
  | ind i ih =>
    unfold Contexts.lookup
    rw [h i hc]
    cases cs[i]? with
    | none => rfl
    | some ctx =>
      cases hg : g ctx with
      | some a => simp [hg]
      | none =>
        simp only [hg]
        cases hp : ctx.parent with
        | none => rfl
        | some p =>
          simp only
          by_cases hlt : p.index < i
          · rw [if_pos hlt, if_pos hlt]
            exact ih p.index hlt (Nat.lt_trans hlt hc)
          · rw [if_neg hlt, if_neg hlt]

/-! ### Names of savepoints -/

/-- The digits tell numbers apart. -/
theorem toDigits_injective {i n : Nat} (h : Nat.toDigits 10 i = Nat.toDigits 10 n) : i = n := by
  simpa using congrArg (Nat.ofDigitChars 10 · 0) h

namespace Coordinator

variable {k : Coordinator} {d : TransactionDefinition} {w w' w₁ w₂ : World} {t u : TxId}

/-- The name that a coordinator gives to a savepoint of a number. -/
def savepointName (k : Coordinator) (n : Nat) : String := k.savepointPrefix ++ toString n

theorem savepointName_injective {i n : Nat} (h : k.savepointName i = k.savepointName n) :
    i = n := by
  have h : toString i = toString n := (String.append_right_inj _).mp h
  apply toDigits_injective
  rw [← Nat.toList_repr, ← Nat.toList_repr]
  exact congrArg String.toList h

/-- The names of all these savepoints have numbers after one number and up to another. -/
def Numbered (k : Coordinator) (lo hi : Nat) (sps : List (String × Writes)) : Prop :=
  ∀ sp ∈ sps, ∃ i, lo < i ∧ i ≤ hi ∧ sp.1 = k.savepointName i

namespace Numbered

variable {lo lo' hi hi' : Nat} {sps sps' : List (String × Writes)}

theorem nil : k.Numbered lo hi [] := by simp [Numbered]

theorem mono (h : k.Numbered lo hi sps) (hl : lo' ≤ lo) (hh : hi ≤ hi') :
    k.Numbered lo' hi' sps := by
  intro sp hsp
  obtain ⟨i, h₁, h₂, h₃⟩ := h sp hsp
  exact ⟨i, by omega, by omega, h₃⟩

theorem append (h : k.Numbered lo hi sps) (h' : k.Numbered lo hi sps') :
    k.Numbered lo hi (sps ++ sps') := by
  intro sp hsp
  rcases List.mem_append.mp hsp with hsp | hsp
  · exact h sp hsp
  · exact h' sp hsp

theorem singleton {n : Nat} (writes : Writes) (hl : lo < n) (hh : n ≤ hi) :
    k.Numbered lo hi [(k.savepointName n, writes)] := by
  intro sp hsp
  rw [List.mem_singleton.mp hsp]
  exact ⟨n, hl, hh, rfl⟩

/-- A later name is none of these. -/
theorem ne {n : Nat} (h : k.Numbered lo hi sps) (hn : hi < n) :
    ∀ sp ∈ sps, sp.1 ≠ k.savepointName n := by
  intro sp hsp he
  obtain ⟨i, _, h₂, h₃⟩ := h sp hsp
  have := savepointName_injective (h₃.symm.trans he)
  omega

end Numbered

/-! ### Sound worlds and frames -/

def journal (k : Coordinator) (w : World) (t : TxId) : Option Journal :=
  (w.resource k.resource).memory.journals.get? t

/-- The context on top of the stack exists, and its transaction is on record and has a journal,
    whose savepoints have names that it has used up. -/
structure Sound (k : Coordinator) (w : World) : Prop where
  clean : (w.resource k.resource).FailsCleanly
  top : ∀ c, w.current = some c → c.index < w.contexts.size
  enlisted : ∀ t, w.currentTransaction = some t → ∃ tx j, w.transaction? t = some tx ∧
    k.journal w t = some j ∧ k.Numbered 0 tx.savepoints j.savepoints ∧ j.Distinct

/-- No transaction is current. -/
structure Idle (k : Coordinator) (w : World) : Prop where
  clean : (w.resource k.resource).FailsCleanly
  top : ∀ c, w.current = some c → c.index < w.contexts.size
  none : w.currentTransaction = none

theorem Idle.sound (h : Idle k w) : Sound k w :=
  ⟨h.clean, h.top, fun t ht => by rw [h.none] at ht; cases ht⟩

/-- Nothing is changed of a transaction. -/
def Untouched (k : Coordinator) (w w' : World) (u : TxId) : Prop :=
  w'.transaction? u = w.transaction? u ∧ k.journal w' u = k.journal w u

/-- What a program may change of its own transaction: the mark, the pending writes, and the
    savepoints after those that there were. -/
structure Continues (k : Coordinator) (tx : Transaction) (j : Journal) (tx' : Transaction)
    (j' : Journal) : Prop where
  record : tx' = { tx with rollbackOnly := tx'.rollbackOnly, savepoints := tx'.savepoints }
  more : tx.savepoints ≤ tx'.savepoints
  savepoints : ∃ rest, j'.savepoints = j.savepoints ++ rest ∧
    k.Numbered tx.savepoints tx'.savepoints rest
  distinct : j.Distinct → j'.Distinct

/-- What a program may change of its world. -/
structure Frame (k : Coordinator) (w w' : World) : Prop where
  clean : (w'.resource k.resource).FailsCleanly
  stack : w'.stack = w.stack
  contexts : ∀ i < w.contexts.size, w'.contexts[i]? = w.contexts[i]?
  size : w.transactions.size ≤ w'.transactions.size
  others : ∀ u, u.index < w.transactions.size → w.currentTransaction ≠ some u →
    k.Untouched w w' u
  own : ∀ t tx j, w.currentTransaction = some t → w.transaction? t = some tx →
    k.journal w t = some j → ∃ tx' j', w'.transaction? t = some tx' ∧
      k.journal w' t = some j' ∧ k.Continues tx j tx' j'

namespace Untouched

theorem refl (k : Coordinator) (w : World) (u : TxId) : k.Untouched w w u := ⟨rfl, rfl⟩

theorem trans (h : k.Untouched w w₁ u) (h' : k.Untouched w₁ w₂ u) : k.Untouched w w₂ u :=
  ⟨h'.1.trans h.1, h'.2.trans h.2⟩

/-- Where neither records nor the resource change nothing is touched. -/
theorem of_eq (ht : w'.transactions = w.transactions)
    (hr : w'.resource k.resource = w.resource k.resource) (u : TxId) : k.Untouched w w' u :=
  ⟨by simp only [transaction?, ht], by simp only [journal, hr]⟩

theorem inScope (k : Coordinator) (p : Participation) (w : World) (u : TxId) :
    k.Untouched w (w.inScope p) u :=
  .of_eq (inScope_transactions _ _) (inScope_resource _ _ _) u

theorem uninstall (k : Coordinator) (c : ContextId) (w : World) (u : TxId) :
    k.Untouched w (uninstall c w).2 u :=
  .of_eq (uninstall_transactions _ _) (uninstall_resource _ _ _) u

end Untouched

namespace Continues

variable {tx tx' tx'' : Transaction} {j j' j'' : Journal}

theorem refl (k : Coordinator) (tx : Transaction) (j : Journal) : k.Continues tx j tx j :=
  ⟨rfl, Nat.le_refl _, ⟨[], by simp, .nil⟩, id⟩

theorem trans (h : k.Continues tx j tx' j') (h' : k.Continues tx' j' tx'' j'') :
    k.Continues tx j tx'' j'' := by
  obtain ⟨rest, hs, hn⟩ := h.savepoints
  obtain ⟨rest', hs', hn'⟩ := h'.savepoints
  refine ⟨by rw [h'.record, h.record], Nat.le_trans h.more h'.more, ⟨rest ++ rest', ?_, ?_⟩,
    fun hd => h'.distinct (h.distinct hd)⟩
  · rw [hs', hs, List.append_assoc]
  · exact (hn.mono (Nat.le_refl _) h'.more).append (hn'.mono h.more (Nat.le_refl _))

end Continues

theorem Sound.lt_size (hs : Sound k w) (ht : w.currentTransaction = some t) :
    t.index < w.transactions.size := by
  obtain ⟨tx, j, htx, _, _, _⟩ := hs.enlisted t ht
  exact transaction?_isSome.mp (by rw [htx]; rfl)

namespace Frame

theorem refl (hs : Sound k w) : Frame k w w where
  clean := hs.clean
  stack := rfl
  contexts _ _ := rfl
  size := Nat.le_refl _
  others u _ _ := .refl k w u
  own _ tx j _ htx hj := ⟨tx, j, htx, hj, .refl k tx j⟩

theorem current (h : Frame k w w') : w'.current = w.current := by
  rw [World.current, h.stack, World.current]

/-- The code after a program runs in the same transaction as the code before it. -/
theorem currentTransaction (h : Frame k w w') (hs : Sound k w) :
    w'.currentTransaction = w.currentTransaction := by
  rw [World.currentTransaction, World.currentTransaction, h.current]
  cases hc : w.current with
  | none => rfl
  | some c =>
    have := Contexts.lookup_congr h.contexts (·.binding) c (hs.top c hc)
    simp [this]

theorem contexts_size (h : Frame k w w') : w.contexts.size ≤ w'.contexts.size := by
  refine Nat.le_of_not_lt ?_
  intro hlt
  have hc := h.contexts w'.contexts.size (by omega)
  rw [Array.getElem?_eq_none (by omega)] at hc
  have := Array.getElem?_eq_none_iff.mp hc.symm
  omega

theorem sound (h : Frame k w w') (hs : Sound k w) : Sound k w' where
  clean := h.clean
  top c hc := Nat.lt_of_lt_of_le (hs.top c (h.current ▸ hc)) h.contexts_size
  enlisted t ht := by
    rw [h.currentTransaction hs] at ht
    obtain ⟨tx, j, htx, hj, hn, hd⟩ := hs.enlisted t ht
    obtain ⟨tx', j', htx', hj', hc⟩ := h.own t tx j ht htx hj
    obtain ⟨rest, hr, hn'⟩ := hc.savepoints
    refine ⟨tx', j', htx', hj', ?_, hc.distinct hd⟩
    rw [hr]
    exact (hn.mono (Nat.le_refl _) hc.more).append (hn'.mono (Nat.zero_le _) (Nat.le_refl _))

theorem trans (hs : Sound k w) (h : Frame k w w₁) (h' : Frame k w₁ w₂) : Frame k w w₂ where
  clean := h'.clean
  stack := h'.stack.trans h.stack
  contexts i hi :=
    (h'.contexts i (Nat.lt_of_lt_of_le hi h.contexts_size)).trans (h.contexts i hi)
  size := Nat.le_trans h.size h'.size
  others u hu hn := by
    have hn' : w₁.currentTransaction ≠ some u := by rwa [h.currentTransaction hs]
    exact (h.others u hu hn).trans (h'.others u (Nat.lt_of_lt_of_le hu h.size) hn')
  own t tx j ht htx hj := by
    obtain ⟨tx₁, j₁, htx₁, hj₁, hc₁⟩ := h.own t tx j ht htx hj
    have ht₁ : w₁.currentTransaction = some t := by rw [h.currentTransaction hs, ht]
    obtain ⟨tx₂, j₂, htx₂, hj₂, hc₂⟩ := h'.own t tx₁ j₁ ht₁ htx₁ hj₁
    exact ⟨tx₂, j₂, htx₂, hj₂, hc₁.trans hc₂⟩

/-- A change to which the flow is blind, that touches no transaction that there was. -/
theorem of_untouched (hf : SameFlow w w') (hc : (w'.resource k.resource).FailsCleanly)
    (hs : w.transactions.size ≤ w'.transactions.size)
    (hu : ∀ u, u.index < w.transactions.size → k.Untouched w w' u) : Frame k w w' where
  clean := hc
  stack := hf.stack
  contexts i _ := by rw [hf.contexts]
  size := hs
  others u hlt _ := hu u hlt
  own t tx j _ htx hj := by
    have hlt : t.index < w.transactions.size := transaction?_isSome.mp (by rw [htx]; rfl)
    exact ⟨tx, j, by rw [(hu t hlt).1, htx], by rw [(hu t hlt).2, hj], .refl k tx j⟩

end Frame

end Coordinator

end ComponentHost
