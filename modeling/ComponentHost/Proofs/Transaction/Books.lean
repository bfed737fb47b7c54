import ComponentHost.Proofs.Transaction.Account

/-! # The books of a coordinator

  The invariant of the life of transactions: with a list of the transactions that scopes own, each
  of these is running and every other one is settled. Entering a scope adds what it begins to the
  list, and the end of a scope takes it off. Apart from that one transaction no account changes.
-/

namespace ComponentHost

open World Attempt

namespace Participation

/-- The transaction that a scope ends. -/
def owned : Participation → Option TxId
  | owner t _ => some t
  | _ => none

end Participation

namespace Coordinator

variable {k : Coordinator} {d : TransactionDefinition} {w w' : World} {t u : TxId} {c : Call}
  {o : List TxId}

/-- Which transactions are running and which are settled. -/
structure Books (k : Coordinator) (w : World) (o : List TxId) : Prop where
  orderly : (w.resource k.resource).Orderly
  /-- No transaction has two owners. -/
  once : o.Nodup
  running : ∀ t ∈ o, k.account w t = .running t
  settled : ∀ t, t ∉ o → (k.account w t).Settled t

namespace Books

/-- Where no account changes the books stay as they are. -/
theorem congr (hb : Books k w o) (hr : (w'.resource k.resource).Orderly)
    (ha : ∀ u, k.account w' u = k.account w u) : Books k w' o where
  orderly := hr
  once := hb.once
  running u hu := by rw [ha]; exact hb.running u hu
  settled u hu := by rw [ha]; exact hb.settled u hu

theorem perm {o' : List TxId} (hb : Books k w o) (hp : o.Perm o') : Books k w o' where
  orderly := hb.orderly
  once := hp.nodup_iff.mp hb.once
  running u hu := hb.running u (hp.mem_iff.mpr hu)
  settled u hu := hb.settled u (mt hp.mem_iff.mp hu)

/-- A transaction without a record is not known to the resource either. -/
theorem account_of_size_le (hb : Books k w o) (ht : w.transactions.size ≤ t.index) :
    t ∉ o ∧ k.account w t = ⟨[], none, false⟩ := by
  have hn : w.transaction? t = none := by simpa [transaction?] using ht
  have state : (k.account w t).state = none := by rw [account, hn]; rfl
  have ho : t ∉ o := by
    intro ho
    rw [hb.running t ho] at state
    cases state
  -- Of the accounts of transactions that nobody owns, only one has no state.
  have hs := hb.settled t ho
  generalize k.account w t = a at hs state
  cases hs with
  | unknown => exact ⟨ho, rfl⟩
  | refused | committed | rolledBack | rolledBackInstead | stuck | stuckInstead => cases state

/-- A call that neither begins nor ends a transaction touches no account. -/
theorem call (hb : Books k w o) (hc : c.isVital = false) {res : Except Error Unit}
    (h : World.call k.resource c w = (res, w')) :
    Books k w' o ∧ ∀ u, k.account w' u = k.account w u := by
  have same (u : TxId) : k.account w' u = k.account w u :=
    account_call_ne h hb.orderly (.inl hc)
  exact ⟨hb.congr (call_orderly h hb.orderly) same, same⟩

/-- A change to a record that leaves its state alone touches no account. -/
theorem changeTransaction (hb : Books k w o) (t : TxId) {f : Transaction → Transaction}
    (hf : ∀ tx, (f tx).state = tx.state) :
    Books k (World.changeTransaction t f w).2 o ∧
      ∀ u, k.account (World.changeTransaction t f w).2 u = k.account w u := by
  have same := account_changeTransaction_same (k := k) (t := t) (w := w) hf
  exact ⟨hb.congr (by rw [changeTransaction_resource]; exact hb.orderly) same, same⟩

theorem setRollbackOnly (hb : Books k w o) (t : TxId) (mark : Bool) :
    Books k (World.setRollbackOnly t mark w).2 o ∧
      ∀ u, k.account (World.setRollbackOnly t mark w).2 u = k.account w u :=
  hb.changeTransaction t fun _ => rfl

theorem nextSavepoint (hb : Books k w o) (t : TxId) (start : String) :
    Books k (World.nextSavepoint t start w).2 o ∧
      ∀ u, k.account (World.nextSavepoint t start w).2 u = k.account w u :=
  hb.changeTransaction t fun _ => rfl

/-! ### Beginning a transaction -/

/-- Where the resource begins a transaction it is running, and otherwise it is settled. -/
theorem start (hb : Books k w o) {res : Except Error Unit}
    (h : World.call k.resource (.begin w.nextTx) (addTransaction d w).2 = (res, w')) :
    Books k w' (if res.isOk then w.nextTx :: o else o) ∧
      ∀ u, u ≠ w.nextTx → k.account w' u = k.account w u := by
  have hr : ((addTransaction d w).2.resource k.resource).Orderly := by
    rw [addTransaction_resource]; exact hb.orderly
  obtain ⟨hn, hq⟩ := hb.account_of_size_le (t := w.nextTx) (Nat.le_refl _)
  have other (u : TxId) (hu : u ≠ w.nextTx) : k.account w' u = k.account w u := by
    rw [account_call_ne h hr (.inr hu), account_addTransaction, if_neg hu]
  have this : k.account w' w.nextTx
      = ⟨[(.begin w.nextTx, res.isOk)], some .active, res.isOk⟩ := by
    have ha := account_call h hr rfl
    rw [Call.transaction, account_addTransaction, if_pos rfl, hq] at ha
    rw [ha]
    cases res <;> rfl
  -- The new transaction is on the list if it was begun, and is settled if it was refused.
  refine ⟨?_, other⟩
  constructor
  case orderly => exact call_orderly h hr
  case once =>
    split
    · exact List.nodup_cons.mpr ⟨hn, hb.once⟩
    · exact hb.once
  case running =>
    intro u hu
    cases res with
    | error e =>
      have hu : u ∈ o := hu
      have hne : u ≠ w.nextTx := fun he => hn (he ▸ hu)
      rw [other u hne]
      exact hb.running u hu
    | ok x =>
      rcases List.mem_cons.mp hu with rfl | hu
      · exact this
      · have hne : u ≠ w.nextTx := fun he => hn (he ▸ hu)
        rw [other u hne]
        exact hb.running u hu
  case settled =>
    intro u hu
    cases res with
    | error e =>
      have hu : u ∉ o := hu
      by_cases hne : u = w.nextTx
      · subst hne; rw [this]; exact .refused
      · rw [other u hne]; exact hb.settled u hu
    | ok x =>
      obtain ⟨hne, hu⟩ := not_or.mp (mt List.mem_cons.mpr hu)
      rw [other u hne]
      exact hb.settled u hu

/-! ### Ending a transaction -/

/-- Once what happened to the first transaction of the list has settled it, it is taken off. -/
theorem close (hb : Books k w (t :: o)) (hr : (w'.resource k.resource).Orderly)
    (this : (k.account w' t).Settled t)
    (other : ∀ u, u ≠ t → k.account w' u = k.account w u) : Books k w' o where
  orderly := hr
  once := (List.nodup_cons.mp hb.once).2
  running u hu := by
    have hne : u ≠ t := fun he => (List.nodup_cons.mp hb.once).1 (he ▸ hu)
    rw [other u hne]
    exact hb.running u (List.mem_cons_of_mem t hu)
  settled u hu := by
    by_cases hne : u = t
    · subst hne; exact this
    · rw [other u hne]
      exact hb.settled u (by simp [hne, hu])

end Books

/-- What a rollback does to the account of an open transaction. -/
theorem account_rollback {calls : List (Call × Bool)} {r : Except Error Unit}
    (hr : (w.resource k.resource).Orderly) (ha : k.account w t = ⟨calls, some .active, true⟩)
    (h : k.rollback t w = (r, w')) :
    (w'.resource k.resource).Orderly ∧
      k.account w' t = ⟨(.rollback t, r.isOk) :: calls,
        some (if r.isOk then .rolledBack else .active), !r.isOk⟩ ∧
      ∀ u, u ≠ t → k.account w' u = k.account w u := by
  -- A rollback that is refused leaves the transaction active, and one more call on record.
  cases r with
  | error e =>
    have hc := rollback_error h
    refine ⟨call_orderly hc hr, ?_, fun u hu => account_call_ne hc hr (.inr hu)⟩
    have := account_call hc hr rfl
    rw [Call.transaction, ha] at this
    rw [this]
    rfl
  | ok x =>
    obtain ⟨w₁, hc, rfl⟩ := rollback_ok h
    have this := account_call hc hr rfl
    rw [Call.transaction, ha] at this
    refine ⟨by rw [setState, changeTransaction_resource]; exact call_orderly hc hr, ?_, ?_⟩
    · rw [account_setState_self, this]
      rfl
    · intro u hu
      rw [account_setState_ne hu, account_call_ne hc hr (.inr hu)]

/-! ### Entry and end of scopes -/

/-- A scope that is entered owns the transaction that it began, if it began one; the accounts of
    all earlier transactions stay as they are. -/
theorem Entry.books {r : Except Error Participation} (h : Entry k d w r w') (hb : Books k w o) :
    Books k w' ((match r with
      | .ok p => p.owned.toList
      | .error _ => []) ++ o) ∧
      ∀ u, u ≠ w.nextTx → k.account w' u = k.account w u := by
  -- A refusal before the resource is asked leaves the books alone.
  have nothing (u : TxId) (_ : u ≠ w.nextTx) : k.account w u = k.account w u := rfl
  cases h with
  | mandatory | without | never | expired | conflict | joined => exact ⟨hb, nothing⟩
  | opened _ _ hs | notOpened _ _ hs => exact hb.start hs
  | notSuspended _ _ hs | suspended _ _ hs =>
    obtain ⟨hb, same⟩ := hb.call rfl hs
    exact ⟨hb, fun u _ => same u⟩
  -- The outer transaction is told before the new one gets its number, so the number is the same.
  | @openedApart t w₁ w₂ _ _ hs hq =>
    obtain ⟨hb, same⟩ := hb.call rfl hs
    obtain ⟨hb, other⟩ := hb.start hq
    have hn : w₁.nextTx = w.nextTx := by rw [nextTx, call_transactions hs, nextTx]
    exact ⟨hb, fun u hu => (other u (by rwa [hn])).trans (same u)⟩
  | @notOpenedApart t e res w₁ w₂ w₃ _ _ hs hq hr =>
    obtain ⟨hb, same⟩ := hb.call rfl hs
    obtain ⟨hb, other⟩ := hb.start hq
    obtain ⟨hb, same'⟩ := hb.call rfl hr
    have hn : w₁.nextTx = w.nextTx := by rw [nextTx, call_transactions hs, nextTx]
    exact ⟨hb, fun u hu => (same' u).trans ((other u (by rwa [hn])).trans (same u))⟩
  | nested _ _ _ hs | notNested _ _ _ hs =>
    obtain ⟨hb, same⟩ := hb.nextSavepoint _ _
    obtain ⟨hb, same'⟩ := hb.call rfl hs
    exact ⟨hb, fun u _ => (same' u).trans (same u)⟩

/-- When the part of a scope ends, the transaction that it owned is settled; no other account
    changes. -/
theorem Settlement.books {p : Participation} {success : Bool} {r : Except Error Unit}
    (h : Settlement k w p success r w') (hb : Books k w (p.owned.toList ++ o)) :
    Books k w' o ∧ ∀ u, p.owned ≠ some u → k.account w' u = k.account w u := by
  -- An owner ends with a rollback in all cases but one, so these are told apart by what the
  -- resource had been asked before.
  cases h with
  | @committed t s w₁ he hm hk =>
    have hb : Books k w (t :: o) := hb
    have ha := account_call hk hb.orderly rfl
    rw [Call.transaction, hb.running t (by simp)] at ha
    have this : k.account (setState t .committed w₁).2 t
        = ⟨[(.commit t, true), (.begin t, true)], some .committed, false⟩ := by
      rw [account_setState_self, ha]
      rfl
    have other (u : TxId) (hu : u ≠ t) :
        k.account (setState t .committed w₁).2 u = k.account w u := by
      rw [account_setState_ne hu, account_call_ne hk hb.orderly (.inr hu)]
    have hr : ((setState t .committed w₁).2.resource k.resource).Orderly := by
      rw [setState, changeTransaction_resource]
      exact call_orderly hk hb.orderly
    refine ⟨hb.close hr (by rw [this]; exact .committed) other, fun u hu => other u ?_⟩
    exact fun he => hu (by rw [he]; rfl)
  | @notCommitted t s e r w₁ w₂ he hm hk hr =>
    have hb : Books k w (t :: o) := hb
    have ha := account_call hk hb.orderly rfl
    rw [Call.transaction, hb.running t (by simp)] at ha
    obtain ⟨ho, this, other⟩ := account_rollback (call_orderly hk hb.orderly) ha hr
    have other (u : TxId) (hu : u ≠ t) : k.account w' u = k.account w u := by
      rw [other u hu, account_call_ne hk hb.orderly (.inr hu)]
    refine ⟨hb.close ho ?_ other, fun u hu => other u fun he => hu (by rw [he]; rfl)⟩
    rw [this]
    cases r with
    | ok => exact .rolledBackInstead
    | error => exact .stuckInstead
  | @overdue t s r w₁ _ hr | @marked t s r w₁ _ _ hr | @rolledBack t s r w₁ hr =>
    have hb : Books k w (t :: o) := hb
    obtain ⟨ho, this, other⟩ := account_rollback hb.orderly (hb.running t (by simp)) hr
    refine ⟨hb.close ho ?_ other, fun u hu => other u fun he => hu (by rw [he]; rfl)⟩
    rw [this]
    cases r with
    | ok => exact .rolledBack
    | error => exact .stuck
  | left | apart => exact ⟨hb, fun _ _ => rfl⟩
  | late | failed =>
    obtain ⟨hb, same⟩ := Books.setRollbackOnly hb _ true
    exact ⟨hb, fun u _ => same u⟩
  | released hr | notUndone hr =>
    obtain ⟨hb, same⟩ := Books.call hb rfl hr
    exact ⟨hb, fun u _ => same u⟩
  | undone hr =>
    obtain ⟨hb, same⟩ := Books.call hb rfl hr
    obtain ⟨hb, same'⟩ := hb.setRollbackOnly _ _
    exact ⟨hb, fun u _ => (same' u).trans (same u)⟩

/-- The same for the end of a scope as a whole. -/
theorem finish_books {p : Participation} {success : Bool} {r : Except Error Unit}
    (h : k.finish p success w = (r, w')) (hb : Books k w (p.owned.toList ++ o)) :
    Books k w' o ∧ ∀ u, p.owned ≠ some u → k.account w' u = k.account w u := by
  obtain ⟨r₁, w₁, hs, ⟨_, _, rfl⟩ | ⟨t, r₂, _, hr, _⟩⟩ := finish_eq h
  · exact hs.books hb
  · obtain ⟨hb, other⟩ := hs.books hb
    obtain ⟨hb, same⟩ := hb.call rfl hr
    exact ⟨hb, fun u hu => (same u).trans (other u hu)⟩

end Coordinator

end ComponentHost
