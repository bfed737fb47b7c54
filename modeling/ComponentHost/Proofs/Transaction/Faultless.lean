import ComponentHost.Proofs.Transaction.Durability

/-! # Where nothing fails

  Over a resource that injects no faults, a call succeeds if the memory can carry it out. So a
  rollback always succeeds, and a nested scope ends well or not with success, as long as its
  savepoint is there.
-/

namespace ComponentHost

open World Attempt

namespace Coordinator

variable {k : Coordinator} {d : TransactionDefinition} {w w' : World} {t : TxId}

/-! ### Calls that do not fail -/

theorem call_faultless {c : Call} {res : Except Error Unit} (h : call k.resource c w = (res, w'))
    (hf : (w.resource k.resource).Faultless) : (w'.resource k.resource).Faultless :=
  hf.call (call_resource_eq h)

/-- Where nothing fails, a call that the memory can carry out succeeds. -/
theorem faultless_call_ok {c : Call} {res : Except Error Unit} {m : Memory}
    (h : call k.resource c w = (res, w')) (hf : (w.resource k.resource).Faultless)
    (hm : (w.resource k.resource).memory.perform c = .ok m) : res = .ok () := by
  obtain ⟨r', hr, _⟩ := hf.call_eq hm
  have hq := call_resource_eq h
  rw [hr] at hq
  exact (Prod.mk.inj hq).1.symm

theorem changeTransaction_faultless (g : Transaction → Transaction)
    (hf : (w.resource k.resource).Faultless) :
    ((changeTransaction t g w).2.resource k.resource).Faultless := by
  rwa [changeTransaction_resource]

theorem addTransaction_faultless (hf : (w.resource k.resource).Faultless) :
    ((addTransaction d w).2.resource k.resource).Faultless := by
  rwa [addTransaction_resource]

theorem Entry.faultless {r : Except Error Participation} (h : Entry k d w r w')
    (hf : (w.resource k.resource).Faultless) : (w'.resource k.resource).Faultless := by
  cases h with
  | mandatory | without | never | expired | conflict | joined => exact hf
  | opened _ _ hb | notOpened _ _ hb => exact call_faultless hb (addTransaction_faultless hf)
  | notSuspended _ _ hs | suspended _ _ hs => exact call_faultless hs hf
  | openedApart _ _ hs hb =>
    exact call_faultless hb (addTransaction_faultless (call_faultless hs hf))
  | notOpenedApart _ _ hs hb hr =>
    exact call_faultless hr
      (call_faultless hb (addTransaction_faultless (call_faultless hs hf)))
  | nested _ _ _ hs | notNested _ _ _ hs =>
    exact call_faultless hs (changeTransaction_faultless _ hf)

/-! ### The end of a scope -/

theorem rollback_faultless {r : Except Error Unit} (h : k.rollback t w = (r, w'))
    (hf : (w.resource k.resource).Faultless) :
    r = .ok () ∧ (w'.resource k.resource).Faultless ∧ k.store w' = k.store w := by
  cases r with
  | error e => cases faultless_call_ok (rollback_error h) hf rfl
  | ok =>
    obtain ⟨w₁, hq, rfl⟩ := rollback_ok h
    refine ⟨rfl, changeTransaction_faultless _ (call_faultless hq hf), ?_⟩
    rw [store_setState]
    exact store_call hq hf.failsCleanly (by simp)

theorem Settlement.faultless {p : Participation} {success : Bool} {r : Except Error Unit}
    (h : Settlement k w p success r w') (hf : (w.resource k.resource).Faultless) :
    (w'.resource k.resource).Faultless := by
  cases h with
  | committed _ _ hk => exact changeTransaction_faultless _ (call_faultless hk hf)
  | notCommitted _ _ hk hr => exact (rollback_faultless hr (call_faultless hk hf)).2.1
  | overdue _ hr | marked _ _ hr | rolledBack hr => exact (rollback_faultless hr hf).2.1
  | left | apart => exact hf
  | late | failed => exact changeTransaction_faultless _ hf
  | released hr | notUndone hr => exact call_faultless hr hf
  | undone hr => exact changeTransaction_faultless _ (call_faultless hr hf)

/-- Without faults, the end of a nested scope succeeds, as its savepoint is there. -/
theorem Settlement.nested_faultless {name : String} {mark success : Bool}
    {r : Except Error Unit} {j : Journal} {earlier later : List (String × Writes)}
    {writes : Writes} (h : Settlement k w (.nested t name mark) success r w')
    (hf : (w.resource k.resource).Faultless) (hj : k.journal w t = some j)
    (hs : j.savepoints = earlier ++ (name, writes) :: later)
    (hn : ∀ sp ∈ earlier, sp.1 ≠ name) : r = .ok () := by
  -- The savepoint is there, so a resource without faults performs the call.
  cases h with
  | undone => rfl
  | released hr =>
    exact faultless_call_ok hr hf
      (Memory.changeJournal_of_get? hj (by rw [Journal.release?_eq hs hn]))
  | notUndone hr =>
    cases faultless_call_ok hr hf
      (Memory.changeJournal_of_get? hj (by rw [Journal.rollbackTo?_eq hs hn]))

/-- Taking up again what was laid aside goes well, too, and changes nothing of the store. -/
theorem finish_faultless {p : Participation} {success : Bool} {r : Except Error Unit}
    (h : k.finish p success w = (r, w')) (hf : (w.resource k.resource).Faultless) :
    (w'.resource k.resource).Faultless ∧
      ∃ w₁, Settlement k w p success r w₁ ∧ k.store w' = k.store w₁ := by
  obtain ⟨r₁, w₁, settled, ⟨_, rfl, rfl⟩ | ⟨t, r₂, _, hr, rfl⟩⟩ := finish_eq h
  · exact ⟨settled.faultless hf, w', settled, rfl⟩
  · have hf₁ := settled.faultless hf
    obtain rfl := faultless_call_ok hr hf₁ rfl
    refine ⟨call_faultless hr hf₁, w₁, ?_, store_call hr hf₁.failsCleanly (by simp)⟩
    cases r₁ <;> exact settled

end Coordinator

end ComponentHost
