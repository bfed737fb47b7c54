import ComponentHost.Proofs.Transaction.Outlived

/-! # What becomes of a journal

  A resource keeps a journal for every transaction that was begun on it. Whatever code does, to the
  one journal that a resource has of a transaction only few things can happen:

  - `Journal.Change` names them, and `Journal.Becomes` says what each of them makes of a journal,
    under a condition on which of them may happen;
  - every operation has its lemma that gives this condition: a call (`call_becomes`), the entry of a
    scope (`begin_becomes`), the end of a guard (`Guard.leave_becomes`), and what code does besides
    (`Aside.perform_becomes`);
  - beside each of them stands what the operation does to the records of transactions. A record
    keeps its terms, and an entry that asks for a savepoint uses up one name.

  No fault of a resource leads out of these lists: a call that is failed was carried out or not.
-/

namespace ComponentHost

open World

/-! ### Changes of a journal -/

namespace Journal

/-- Something that can happen to a journal. -/
inductive Change
  | begun
  /-- Its transaction is committed or rolled back. -/
  | ended
  | saved (name : String)
  /-- The transaction goes back to a savepoint, or gives it up. -/
  | cut (name : String)
  | written

/-- A journal goes back to a savepoint, or gives it up. -/
def Cut (name : String) (j j' : Journal) : Prop :=
  j.rollbackTo? name = some j' ∨ j.release? name = some j'

/-- What becomes of a journal, or of none, where some changes may happen and at most one does. -/
inductive Becomes (may : Change → Prop) : Option Journal → Option Journal → Prop
  /-- Nothing happens. -/
  | same {j? : Option Journal} : Becomes may j? j?
  /-- A new journal is opened. -/
  | begun {j? : Option Journal} (h : may .begun) : Becomes may j? (some {})
  | ended {j? : Option Journal} (h : may .ended) : Becomes may j? none
  | saved {j : Journal} {name : String} (h : may (.saved name)) :
      Becomes may (some j) (some (j.setSavepoint name))
  /-- The savepoints from one on are gone. -/
  | cut {j j' : Journal} {name : String} (h : may (.cut name)) (hc : j.Cut name j') :
      Becomes may (some j) (some j')
  | written {j : Journal} {key : String} {value : Option Value} (h : may .written) :
      Becomes may (some j) (some (j.write key value))

namespace Becomes

variable {may may' : Change → Prop} {j? j₁ j₂ : Option Journal}

theorem mono (h : Becomes may j? j₁) (hm : ∀ x, may x → may' x) : Becomes may' j? j₁ := by
  cases h with
  | same => exact .same
  | begun h => exact .begun (hm _ h)
  | ended h => exact .ended (hm _ h)
  | saved h => exact .saved (hm _ h)
  | cut h hc => exact .cut (hm _ h) hc
  | written h => exact .written (hm _ h)

/-- Where nothing may happen, nothing does. -/
theorem eq_of_none (h : Becomes may j? j₁) (hm : ∀ x, ¬ may x) : j₁ = j? := by
  cases h with
  | same => rfl
  | begun h | ended h | saved h | cut h | written h => exact absurd h (hm _)

/-- A journal that is closed at most may be closed again. -/
theorem ended_trans (h : Becomes may j? j₁) (h' : Becomes may j₁ j₂)
    (hm : ∀ x, may x → x = .ended) : Becomes may j? j₂ := by
  cases h' with
  | same => exact h
  | ended h' => exact .ended h'
  | begun h' | saved h' | cut h' | written h' => cases hm _ h'

end Becomes

variable {j j' : Journal} {name : String}

/-- A savepoint that is cut is the first of its name, and what was set before it is left. -/
theorem Cut.savepoints (h : Cut name j j') :
    ∃ n, j.position? name = some n ∧ j'.savepoints = j.savepoints.take n := by
  rcases h with back | given
  · unfold rollbackTo? at back
    obtain ⟨n, hn, back⟩ := Option.bind_eq_some_iff.mp back
    obtain ⟨⟨_, writes⟩, -, back⟩ := Option.bind_eq_some_iff.mp back
    cases back
    exact ⟨n, hn, rfl⟩
  · unfold release? at given
    obtain ⟨n, hn, given⟩ := Option.bind_eq_some_iff.mp given
    cases given
    exact ⟨n, hn, rfl⟩

/-- Pending is then what was pending before, or what some savepoint remembers. -/
theorem Cut.writes (h : Cut name j j') :
    j'.writes = j.writes ∨ ∃ sp ∈ j.savepoints, j'.writes = sp.2 := by
  rcases h with back | given
  · right
    unfold rollbackTo? at back
    obtain ⟨n, -, back⟩ := Option.bind_eq_some_iff.mp back
    obtain ⟨sp, hsp, back⟩ := Option.bind_eq_some_iff.mp back
    cases back
    exact ⟨sp, List.mem_of_getElem? hsp, rfl⟩
  · left
    unfold release? at given
    obtain ⟨n, -, given⟩ := Option.bind_eq_some_iff.mp given
    cases given
    rfl

end Journal

/-! ### Calls -/

/-- What a call is to do to the journal of its transaction. -/
def Call.change? : Call → Option Journal.Change
  | begin _ => some .begun
  | commit _ | rollback _ => some .ended
  | createSavepoint _ name => some (.saved name)
  | rollbackToSavepoint _ name | releaseSavepoint _ name => some (.cut name)
  | suspend _ | resume _ => none

/-- A call that a memory carries out does to the journal of its transaction what it is to do, and
    nothing to others. -/
theorem Memory.perform_becomes {m m' : Memory} {c : Call} (h : m.perform c = .ok m') (t : TxId) :
    Journal.Becomes (fun x => t = c.transaction ∧ c.change? = some x) (m.journals.get? t)
      (m'.journals.get? t) := by
  -- A call is about one transaction, and touches no other journal.
  by_cases ht : t = c.transaction
  · subst ht
    cases c with
    | begin t =>
      cases h
      rw [Call.transaction, Dict.get?_insert_self]
      exact .begun ⟨rfl, rfl⟩
    | commit t =>
      obtain ⟨j, hj, rfl⟩ := perform_commit h
      rw [Call.transaction, Dict.get?_erase_self]
      exact .ended ⟨rfl, rfl⟩
    | rollback t =>
      cases h
      rw [Call.transaction, Dict.get?_erase_self]
      exact .ended ⟨rfl, rfl⟩
    | createSavepoint t name =>
      obtain ⟨j, j', hj, hc, rfl⟩ := changeJournal_ok h
      cases hc
      rw [Call.transaction, hj, Dict.get?_insert_self]
      exact .saved ⟨rfl, rfl⟩
    | rollbackToSavepoint t name =>
      obtain ⟨j, j', hj, hc, rfl⟩ := changeJournal_ok h
      rw [Call.transaction, hj, Dict.get?_insert_self]
      split at hc
      · next back =>
        cases hc
        exact .cut ⟨rfl, rfl⟩ (.inl back)
      · cases hc
    | releaseSavepoint t name =>
      obtain ⟨j, j', hj, hc, rfl⟩ := changeJournal_ok h
      rw [Call.transaction, hj, Dict.get?_insert_self]
      split at hc
      · next given =>
        cases hc
        exact .cut ⟨rfl, rfl⟩ (.inr given)
      · cases hc
    | suspend t | resume t =>
      cases h
      exact .same
  · rw [perform_journals_ne h ht]
    exact .same

namespace World

variable {w w' : World} {i k : ResourceId} {t : TxId} {c : Call} {res : Except Error Unit}

def journalOf (w : World) (i : ResourceId) (t : TxId) : Option Journal :=
  (w.resource i).memory.journals.get? t

theorem journalOf_congr (h : w'.resource i = w.resource i) :
    w'.journalOf i t = w.journalOf i t := by
  rw [journalOf, h, journalOf]

theorem hasJournal_eq : w.hasJournal i t = (w.journalOf i t).isSome := rfl

/-- What a call on a resource makes of a journal, whatever the caller is told. -/
theorem call_becomes (h : call k c w = (res, w')) (i : ResourceId) (t : TxId) :
    Journal.Becomes (fun x => i = k ∧ t = c.transaction ∧ c.change? = some x)
      (w.journalOf i t) (w'.journalOf i t) := by
  by_cases hi : i = k
  · subst hi
    rcases Resource.call_memory (call_resource_eq h) with same | performed
    · rw [journalOf, journalOf, same]
      exact .same
    · exact (Memory.perform_becomes performed t).mono fun x hx => ⟨rfl, hx⟩
  · have other : w'.resource i = w.resource i := by
      rw [call_eq_setResource h, resource_setResource, if_neg hi]
    rw [journalOf_congr other]
    exact .same

/-- Laying a transaction aside and taking it up again do nothing to journals. -/
theorem call_journalOf (h : call k c w = (res, w')) (hc : c.change? = none) :
    w'.journalOf i t = w.journalOf i t :=
  (call_becomes h i t).eq_of_none fun x hx => by
    rw [hc] at hx
    cases hx.2.2

@[simp] theorem journalOf_changeTransaction (u : TxId) (f : Transaction → Transaction) (w : World)
    (i : ResourceId) (t : TxId) : (changeTransaction u f w).2.journalOf i t = w.journalOf i t :=
  journalOf_congr (Coordinator.changeTransaction_resource f i)

@[simp] theorem journalOf_addTransaction (d : TransactionDefinition) (w : World) (i : ResourceId)
    (t : TxId) : (addTransaction d w).2.journalOf i t = w.journalOf i t :=
  journalOf_congr (Coordinator.addTransaction_resource i)

/-- The transaction that is begun next is unknown. -/
theorem transaction?_nextTx (w : World) : w.transaction? w.nextTx = none :=
  Array.getElem?_eq_none (Nat.le_refl _)

theorem transaction?_addTransaction_self (d : TransactionDefinition) (w : World) :
    (addTransaction d w).2.transaction? w.nextTx = some (.ofDefinition d w.clock) := by
  rw [transaction?_addTransaction]
  exact if_pos rfl

/-- What is known stays so when another transaction is added. -/
theorem transaction?_addTransaction_ne (d : TransactionDefinition) (h : t ≠ w.nextTx) :
    (addTransaction d w).2.transaction? t = w.transaction? t := by
  rw [transaction?_addTransaction]
  refine if_neg fun size => h ?_
  obtain ⟨t⟩ := t
  exact congrArg TxId.mk size

/-! ### Terms of records -/

/-- What a record says but for its mark and its state. -/
def terms (w : World) (t : TxId) : Option Transaction :=
  (w.transaction? t).map ({ · with rollbackOnly := false, state := .active })

theorem terms_congr (h : w'.transactions = w.transactions) : w'.terms t = w.terms t := by
  rw [terms, transaction?, h]
  rfl

theorem terms_setState (u : TxId) (state : TransactionState) (w : World) (t : TxId) :
    (setState u state w).2.terms t = w.terms t := by
  unfold terms setState
  rw [transaction?_changeTransaction]
  split
  · rw [Option.map_map]
    rfl
  · rfl

theorem terms_setRollbackOnly (u : TxId) (mark : Bool) (w : World) (t : TxId) :
    (setRollbackOnly u mark w).2.terms t = w.terms t := by
  unfold terms setRollbackOnly
  rw [transaction?_changeTransaction]
  split
  · rw [Option.map_map]
    rfl
  · rfl

/-- A transaction that refuses writes says so in its terms. -/
theorem refusesWrites_eq : w.refusesWrites t = (w.terms t).any (·.readOnly) := by
  unfold refusesWrites terms
  cases w.transaction? t <;> rfl

end World

/-! ### Entries -/

namespace Coordinator

variable {k : Coordinator} {d : TransactionDefinition} {w w' : World} {p : Participation}
  {i : ResourceId} {t : TxId}

/-- The name of a savepoint that is asked for in a transaction when a scope is begun. -/
def asked (k : Coordinator) (d : TransactionDefinition) (w : World) (t : TxId) : Option String :=
  if w.currentTransaction = some t ∧ d.propagation = .nested ∧ w.isExpired t = false then
    some (nextSavepoint t k.savepointPrefix w).1
  else none

/-- What may happen to the journals of a transaction when a scope is begun. -/
def MayBegin (k : Coordinator) (d : TransactionDefinition) (w : World) (t : TxId) :
    Journal.Change → Prop
  | .begun => w.transaction? t = none
  | .saved name => k.asked d w t = some name
  | .ended | .cut _ | .written => False

theorem begin_new_becomes {r : Except Error Unit}
    (hb : call k.resource (.begin w.nextTx) (addTransaction d w).2 = (r, w')) (i : ResourceId)
    (t : TxId) {may : Journal.Change → Prop} (hm : t = w.nextTx → may .begun) :
    Journal.Becomes may (w.journalOf i t) (w'.journalOf i t) := by
  have called := call_becomes hb i t
  rw [journalOf_addTransaction] at called
  refine called.mono ?_
  rintro x ⟨-, rfl, hx⟩
  cases hx
  exact hm rfl

/-- What the entry of a scope makes of a journal. -/
theorem Entry.becomes {r : Except Error Participation} (h : Entry k d w r w') (i : ResourceId)
    (t : TxId) : Journal.Becomes (k.MayBegin d w t) (w.journalOf i t) (w'.journalOf i t) := by
  have unknown {w₁ : World} (hs : w₁.transactions = w.transactions) (ht : t = w₁.nextTx) :
      k.MayBegin d w t .begun := by
    show w.transaction? t = none
    rw [ht, ← transaction?_nextTx w₁, transaction?, transaction?, hs]
  -- Both ways to a savepoint ask for it by the next name.
  have saves {u : TxId} {w₁ : World} {r : Except Error Unit} (hc : w.currentTransaction = some u)
      (hd : d.propagation = .nested) (he : w.isExpired u = false)
      (hs : call k.resource (.createSavepoint u (nextSavepoint u k.savepointPrefix w).1)
        (nextSavepoint u k.savepointPrefix w).2 = (r, w₁)) :
      Journal.Becomes (k.MayBegin d w t) (w.journalOf i t) (w₁.journalOf i t) := by
    have called := call_becomes hs i t
    have before : (nextSavepoint u k.savepointPrefix w).2.journalOf i t = w.journalOf i t :=
      journalOf_changeTransaction _ _ _ _ _
    rw [before] at called
    refine called.mono ?_
    rintro x ⟨-, rfl, hx⟩
    cases hx
    exact if_pos ⟨hc, hd, he⟩
  cases h with
  | mandatory | without | never | expired | conflict | joined => exact .same
  | opened _ _ hb | notOpened _ _ hb => exact begin_new_becomes hb i t (unknown rfl)
  | notSuspended _ _ hs | suspended _ _ hs =>
    rw [call_journalOf hs rfl]
    exact .same
  | openedApart _ _ hs hb =>
    rw [← call_journalOf hs rfl]
    exact begin_new_becomes hb i t (unknown (call_transactions hs))
  | notOpenedApart _ _ hs hb hr =>
    rw [← call_journalOf hs rfl, call_journalOf hr rfl]
    exact begin_new_becomes hb i t (unknown (call_transactions hs))
  | nested hc hd he hs | notNested hc hd he hs => exact saves hc hd he hs

/-- What the entry of a scope makes of a record: where a savepoint is asked for, a name of one is
    used up. -/
theorem Entry.record {r : Except Error Participation} (h : Entry k d w r w') {tx : Transaction}
    (htx : w.transaction? t = some tx) : w'.transaction? t
      = some { tx with savepoints := tx.savepoints + (k.asked d w t).toList.length } := by
  have none_asked (h : ¬ (w.currentTransaction = some t ∧ d.propagation = .nested ∧
      w.isExpired t = false)) : (k.asked d w t).toList.length = 0 := by
    rw [asked, if_neg h]
    rfl
  have added {w w' : World} {r : Except Error Unit} (htx : w.transaction? t = some tx)
      (hb : call k.resource (.begin w.nextTx) (addTransaction d w).2 = (r, w')) :
      w'.transaction? t = some tx := by
    rw [call_transaction? hb, transaction?_addTransaction_ne, htx]
    rintro rfl
    rw [transaction?_nextTx] at htx
    cases htx
  have used {u : TxId} {w₁ : World} {r : Except Error Unit} (hc : w.currentTransaction = some u)
      (hd : d.propagation = .nested) (he : w.isExpired u = false)
      (hs : call k.resource (.createSavepoint u (nextSavepoint u k.savepointPrefix w).1)
        (nextSavepoint u k.savepointPrefix w).2 = (r, w₁)) : w₁.transaction? t
          = some { tx with savepoints := tx.savepoints + (k.asked d w t).toList.length } := by
    have record : w₁.transaction? t = if t = u then (w.transaction? t).map
        fun tx => { tx with savepoints := tx.savepoints + 1 } else w.transaction? t :=
      (call_transaction? hs t).trans (transaction?_changeTransaction _ _ _ _)
    rw [record]
    split
    · next ht =>
      subst ht
      rw [htx, asked, if_pos ⟨hc, hd, he⟩]
      rfl
    · next ht =>
      rw [htx, none_asked]
      · rfl
      · rintro ⟨hc', -, -⟩
        rw [hc] at hc'
        exact ht (Option.some.inj hc').symm
  have kept (h : w'.transaction? t = some tx) (hn : ¬ (w.currentTransaction = some t ∧
      d.propagation = .nested ∧ w.isExpired t = false)) : w'.transaction? t
        = some { tx with savepoints := tx.savepoints + (k.asked d w t).toList.length } := by
    rw [h, none_asked hn]
    rfl
  -- A name is used up only by an entry that nests in this very transaction.
  cases h with
  | mandatory hc hd | never hc hd => exact kept htx (by simp [hd])
  | without hc => exact kept htx (by simp [hc])
  | expired hc hd he => exact kept htx (by rintro ⟨hc', -, he'⟩; simp_all)
  | conflict hc hd | joined hc hd => exact kept htx (by rintro ⟨-, hd', -⟩; simp_all)
  | opened hc _ hb | notOpened hc _ hb => exact kept (added htx hb) (by simp [hc])
  | notSuspended _ hd hs | suspended _ hd hs =>
    exact kept ((call_transaction? hs t).trans htx) (by rintro ⟨-, hd', -⟩; simp_all)
  | openedApart _ hd hs hb =>
    exact kept (added ((call_transaction? hs t).trans htx) hb) (by simp [hd])
  | notOpenedApart _ hd hs hb hr =>
    exact kept ((call_transaction? hr t).trans (added ((call_transaction? hs t).trans htx) hb))
      (by simp [hd])
  | nested hc hd he hs | notNested hc hd he hs => exact used hc hd he hs

/-- A record that an entry adds is that of a transaction as the definition asks for. -/
theorem Entry.record_new {r : Except Error Participation} (h : Entry k d w r w') {tx : Transaction}
    (unknown : w.transaction? t = none) (htx : w'.transaction? t = some tx) :
    tx = .ofDefinition d w.clock := by
  have added {w w' : World} {r : Except Error Unit} (unknown : w.transaction? t = none)
      (hb : call k.resource (.begin w.nextTx) (addTransaction d w).2 = (r, w'))
      (htx : w'.transaction? t = some tx) : tx = .ofDefinition d w.clock := by
    rw [call_transaction? hb, transaction?_addTransaction, unknown] at htx
    split at htx
    · exact (Option.some.inj htx).symm
    · cases htx
  -- In every other case there is no new record, so there would be none.
  have same {P : Prop} (h : w'.transaction? t = w.transaction? t) : P := by
    rw [h, unknown] at htx
    cases htx
  cases h with
  | mandatory | without | never | expired | conflict | joined => exact same rfl
  | opened _ _ hb | notOpened _ _ hb => exact added unknown hb htx
  | notSuspended _ _ hs | suspended _ _ hs => exact same (call_transaction? hs t)
  | openedApart _ _ hs hb =>
    rw [← (call_sameFlow hs).clock]
    exact added ((call_transaction? hs t).trans unknown) hb htx
  | notOpenedApart _ _ hs hb hr =>
    rw [← (call_sameFlow hs).clock]
    exact added ((call_transaction? hs t).trans unknown) hb
      ((call_transaction? hr t).symm.trans htx)
  | nested _ _ _ hs | notNested _ _ _ hs =>
    refine same ((call_transaction? hs t).trans ((transaction?_changeTransaction _ _ _ _).trans ?_))
    rw [unknown]
    exact ite_self none

section Begin

variable {r : Except Error TransactionScope} (h : k.begin d w = (r, w'))
include h

/-- A scope was entered or refused, and everything else that is done is to contexts. -/
theorem begin_entry : ∃ (r₁ : Except Error Participation) (w₁ : World), Entry k d w r₁ w₁ ∧
    (∀ i, w'.resource i = w₁.resource i) ∧ w'.transactions = w₁.transactions := by
  cases r with
  | error e => exact ⟨.error e, w', begin_error h, fun _ => rfl, rfl⟩
  | ok s =>
    obtain ⟨w₁, entry, -, rfl⟩ := begin_ok h
    exact ⟨_, w₁, entry, fun i => inScope_resource w₁ _ i, rfl⟩

theorem begin_becomes (i : ResourceId) (t : TxId) :
    Journal.Becomes (k.MayBegin d w t) (w.journalOf i t) (w'.journalOf i t) := by
  obtain ⟨r₁, w₁, entry, resources, -⟩ := begin_entry h
  rw [journalOf_congr (resources i)]
  exact entry.becomes i t

theorem begin_record {tx : Transaction} (htx : w.transaction? t = some tx) : w'.transaction? t
    = some { tx with savepoints := tx.savepoints + (k.asked d w t).toList.length } := by
  obtain ⟨r₁, w₁, entry, -, records⟩ := begin_entry h
  rw [transaction?, records]
  exact entry.record htx

theorem begin_record_new {tx : Transaction} (unknown : w.transaction? t = none)
    (htx : w'.transaction? t = some tx) : tx = .ofDefinition d w.clock := by
  obtain ⟨r₁, w₁, entry, -, records⟩ := begin_entry h
  rw [transaction?, records] at htx
  exact entry.record_new unknown htx

end Begin

/-! ### Ends -/

end Coordinator

/-- What may happen to the journals of a transaction when a scope ends. -/
def Participation.MayEnd (p : Participation) (t : TxId) : Journal.Change → Prop
  | .ended => p.owned = some t
  | .cut name => ∃ mark, p = .nested t name mark
  | .begun | .saved _ | .written => False

namespace Coordinator

variable {k : Coordinator} {w w' : World} {p : Participation} {i : ResourceId} {t u : TxId}

theorem rollback_becomes {r : Except Error Unit} (h : k.rollback u w = (r, w')) (i : ResourceId)
    (t : TxId) : Journal.Becomes (fun x => i = k.resource ∧ t = u ∧ x = .ended) (w.journalOf i t)
      (w'.journalOf i t) := by
  have called {r : Except Error Unit} {w₁ : World} (h : call k.resource (.rollback u) w = (r, w₁)) :
      Journal.Becomes (fun x => i = k.resource ∧ t = u ∧ x = .ended) (w.journalOf i t)
        (w₁.journalOf i t) := by
    refine (call_becomes h i t).mono ?_
    rintro x ⟨hi, ht, hx⟩
    cases hx
    exact ⟨hi, ht, rfl⟩
  rcases r with e | _
  · exact called (rollback_error h)
  · obtain ⟨w₁, hc, rfl⟩ := rollback_ok h
    rw [setState, journalOf_changeTransaction]
    exact called hc

/-- What the end of a scope makes of a journal. -/
theorem Settlement.becomes {success : Bool} {r : Except Error Unit}
    (h : Settlement k w p success r w') (i : ResourceId) (t : TxId) :
    Journal.Becomes (fun x => i = k.resource ∧ p.MayEnd t x) (w.journalOf i t)
      (w'.journalOf i t) := by
  have own {u : TxId} {s : Option TxId} (x : Journal.Change)
      (hx : i = k.resource ∧ t = u ∧ x = .ended) :
      i = k.resource ∧ (Participation.owner u s).MayEnd t x := by
    obtain ⟨hi, rfl, rfl⟩ := hx
    exact ⟨hi, rfl⟩
  have nested {c : Call} {u : TxId} {name : String} {mark : Bool} {r : Except Error Unit}
      {w₁ : World} (hr : call k.resource c w = (r, w₁)) (hu : c.transaction = u)
      (hc : c.change? = some (.cut name)) :
      Journal.Becomes (fun x => i = k.resource ∧ (Participation.nested u name mark).MayEnd t x)
        (w.journalOf i t) (w₁.journalOf i t) := by
    refine (call_becomes hr i t).mono ?_
    rintro x ⟨hi, rfl, hx⟩
    rw [hc] at hx
    cases hx
    exact ⟨hi, mark, by rw [hu]⟩
  cases h with
  | committed _ _ hk =>
    rw [setState, journalOf_changeTransaction]
    refine (call_becomes hk i t).mono ?_
    rintro x ⟨hi, ht, hx⟩
    cases hx
    exact own _ ⟨hi, ht, rfl⟩
  | @notCommitted u _ _ _ w₁ _ _ _ hk hr =>
    -- The journal may be closed by the commit already, whatever was reported of it.
    have first : Journal.Becomes (fun x => i = k.resource ∧ t = u ∧ x = .ended)
        (w.journalOf i t) (w₁.journalOf i t) := by
      refine (call_becomes hk i t).mono ?_
      rintro x ⟨hi, ht, hx⟩
      cases hx
      exact ⟨hi, ht, rfl⟩
    exact (first.ended_trans (rollback_becomes hr i t) fun _ hx => hx.2.2).mono own
  | overdue _ hr | marked _ _ hr | rolledBack hr => exact (rollback_becomes hr i t).mono own
  | left | apart => exact .same
  | late | failed =>
    rw [setRollbackOnly, journalOf_changeTransaction]
    exact .same
  | released hr => exact nested hr rfl rfl
  | undone hr =>
    rw [setRollbackOnly, journalOf_changeTransaction]
    exact nested hr rfl rfl
  | notUndone hr => exact nested hr rfl rfl

theorem rollback_terms {r : Except Error Unit} (h : k.rollback u w = (r, w')) :
    w'.terms t = w.terms t := by
  rcases r with e | _
  · exact terms_congr (call_transactions (rollback_error h))
  · obtain ⟨w₁, hc, rfl⟩ := rollback_ok h
    exact (terms_setState _ _ _ t).trans (terms_congr (call_transactions hc))

/-- Records keep their terms when a scope ends. -/
theorem Settlement.terms {success : Bool} {r : Except Error Unit}
    (h : Settlement k w p success r w') : w'.terms t = w.terms t := by
  cases h with
  | committed _ _ hk =>
    exact (terms_setState _ _ _ t).trans (terms_congr (call_transactions hk))
  | notCommitted _ _ hk hr => exact (rollback_terms hr).trans (terms_congr (call_transactions hk))
  | overdue _ hr | marked _ _ hr | rolledBack hr => exact rollback_terms hr
  | left | apart => rfl
  | late | failed => exact terms_setRollbackOnly _ _ _ t
  | released hr | notUndone hr => exact terms_congr (call_transactions hr)
  | undone hr =>
    exact (terms_setRollbackOnly _ _ _ t).trans (terms_congr (call_transactions hr))

section Finish

variable {success : Bool} {r : Except Error Unit} (h : k.finish p success w = (r, w'))
include h

theorem finish_becomes (i : ResourceId) (t : TxId) :
    Journal.Becomes (fun x => i = k.resource ∧ p.MayEnd t x) (w.journalOf i t)
      (w'.journalOf i t) := by
  obtain ⟨r₁, w₁, hs, ⟨_, _, rfl⟩ | ⟨u, r₂, _, hr, _⟩⟩ := finish_eq h
  · exact hs.becomes i t
  · rw [call_journalOf hr rfl]
    exact hs.becomes i t

theorem finish_terms : w'.terms t = w.terms t := by
  obtain ⟨r₁, w₁, hs, ⟨_, _, rfl⟩ | ⟨u, r₂, _, hr, _⟩⟩ := finish_eq h
  · exact hs.terms
  · exact (terms_congr (call_transactions hr)).trans hs.terms

end Finish

end Coordinator

namespace Guard

variable {g : Guard} {success : Bool} {r : Except Error Unit} {w w' : World}

/-- What may happen to the journal that a resource has of a transaction when a guard ends. -/
def MayEnd (g : Guard) (i : ResourceId) (t : TxId) (x : Journal.Change) : Prop :=
  ∃ k p, g.scope = some (k, p) ∧ i = k.resource ∧ p.MayEnd t x

variable (h : g.leave success w = (r, w'))
include h

theorem leave_becomes (i : ResourceId) (t : TxId) :
    Journal.Becomes (g.MayEnd i t) (w.journalOf i t) (w'.journalOf i t) := by
  have before : (uninstall g.context w).2.journalOf i t = w.journalOf i t :=
    journalOf_congr (uninstall_resource g.context w i)
  rcases leave_finish h with ⟨-, rfl⟩ | ⟨k, p, hs, finished⟩
  · rw [before]
    exact .same
  · rw [← before]
    exact (Coordinator.finish_becomes finished i t).mono fun x hx => ⟨k, p, hs, hx⟩

theorem leave_terms (t : TxId) : w'.terms t = w.terms t := by
  rcases leave_finish h with ⟨-, rfl⟩ | ⟨k, p, -, finished⟩
  · rfl
  · have before : (uninstall g.context w).2.terms t = w.terms t := rfl
    rw [← before]
    exact Coordinator.finish_terms finished

end Guard

/-! ### What code does besides -/

namespace Aside

variable {a : Aside} {r : Except Error Unit} {w w' : World} (h : a.perform w = (r, w'))
include h

theorem perform_becomes (i : ResourceId) (t : TxId) :
    Journal.Becomes (fun x => x = .written ∧ w.currentTransaction = some t ∧
      w.refusesWrites t = false) (w.journalOf i t) (w'.journalOf i t) := by
  have elsewhere {w' : World} (same : w'.resource i = w.resource i) :
      Journal.Becomes (fun x => x = .written ∧ w.currentTransaction = some t ∧
        w.refusesWrites t = false) (w.journalOf i t) (w'.journalOf i t) := by
    rw [journalOf_congr same]
    exact .same
  cases a with
  | write k key value =>
    by_cases hi : i = k
    · subst hi
      cases write_eq h with
      | readOnly | notEnlisted => exact .same
      | atOnce =>
        simp only [journalOf, setMemory_resource]
        exact .same
      -- A pending write goes to the journal of the current transaction and to no other one.
      | @pending u j hc hr hj =>
        simp only [journalOf, setMemory_resource, Dict.get?_insert]
        split
        · next ht =>
          subst ht
          rw [hj]
          exact .written ⟨rfl, hc, hr⟩
        · exact .same
    · refine elsewhere ?_
      cases write_eq h with
      | readOnly | notEnlisted => rfl
      | atOnce | pending => rw [setMemory, resource_setResource, if_neg hi]
  | insert c attributes => cases h; exact elsewhere (by cases i <;> rfl)
  | derive parent attributes binding => cases h; exact elsewhere (by cases i <;> rfl)
  | mark u => cases h; exact elsewhere (Coordinator.changeTransaction_resource _ i)
  | wait ms => cases h; exact elsewhere (by cases i <;> rfl)

theorem perform_terms (t : TxId) : w'.terms t = w.terms t := by
  cases a with
  | write k key value => exact terms_congr (write_eq h).transactions
  | insert c attributes => cases h; rfl
  | derive parent attributes binding => cases h; rfl
  | mark u => cases h; exact terms_setRollbackOnly _ _ _ t
  | wait ms => cases h; rfl

end Aside

end ComponentHost
