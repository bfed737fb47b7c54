import ComponentHost.Proofs.Data.Dict
import ComponentHost.Proofs.Transaction.Scopes

/-! # Accounts of transactions

  Two places know how a transaction stands: its record, which its scopes share, and the memory,
  which holds its journal. The log of the resource tells how both came about. The account of a
  transaction puts the three side by side:

  - the calls that began it and ended it, each with what the coordinator was told;
  - the state on its record;
  - whether the memory has a journal of it.

  Only few accounts are possible. A transaction is running while a scope owns it, and settled from
  then on; the invariant `Books` says so for every transaction at once. Entries and ends of scopes
  keep it, and each of them touches the account of at most one transaction.
-/

namespace ComponentHost

open World Attempt

/-! ### Vital calls -/

/-- The call begins or ends its transaction. -/
def Call.isVital : Call → Bool
  | begin _ | commit _ | rollback _ => true
  | _ => false

/-- A vital call leaves a journal behind: beginning does, ending does not. -/
def Call.leavesOpen : Call → Bool
  | begin _ => true
  | _ => false

namespace Memory

variable {m m' : Memory} {c : Call} {t : TxId}

/-- A vital call makes or removes the journal of its transaction. -/
theorem perform_vital (h : m.perform c = .ok m') (hc : c.isVital = true) :
    m'.journals.contains c.transaction = c.leavesOpen := by
  cases c with
  | begin t => cases h; simp [Dict.contains, Call.transaction, Call.leavesOpen]
  | rollback t => cases h; simp [Dict.contains, Call.transaction, Call.leavesOpen]
  | commit t =>
    obtain ⟨j, _, rfl⟩ := perform_commit h
    simp [Dict.contains, Call.transaction, Call.leavesOpen]
  | createSavepoint | rollbackToSavepoint | releaseSavepoint | suspend | resume => cases hc

/-- Any other call keeps the journals that there are. -/
theorem perform_contains (h : m.perform c = .ok m') (hc : c.isVital = false) (u : TxId) :
    m'.journals.contains u = m.journals.contains u := by
  cases c with
  | begin t | commit t | rollback t => cases hc
  | suspend t | resume t => cases h; rfl
  | createSavepoint t name | rollbackToSavepoint t name | releaseSavepoint t name =>
    obtain ⟨j, j', hj, _, rfl⟩ := changeJournal_ok h
    by_cases hu : u = t
    · subst hu; simp [Dict.contains, hj]
    · simp [Dict.contains, Dict.get?_insert, hu]

/-- Journals are kept one to a transaction. -/
theorem perform_once (h : m.perform c = .ok m') (hm : m.journals.keys.Nodup) :
    m'.journals.keys.Nodup := by
  cases c with
  | begin t => cases h; exact Dict.nodup_keys_insert hm
  | rollback t => cases h; exact Dict.nodup_keys_erase hm
  | suspend t | resume t => cases h; exact hm
  | commit t =>
    obtain ⟨j, _, rfl⟩ := perform_commit h
    exact Dict.nodup_keys_erase hm
  | createSavepoint t name | rollbackToSavepoint t name | releaseSavepoint t name =>
    obtain ⟨j, j', _, _, rfl⟩ := changeJournal_ok h
    exact Dict.nodup_keys_insert hm

end Memory

/-! ### Histories -/

namespace Resource

variable {r r' : Resource} {c : Call} {res : Except Error Unit}

/-- The vital calls on a transaction, the latest first, each with whether it succeeded. -/
def history (r : Resource) (t : TxId) : List (Call × Bool) :=
  (r.log.filter fun e => e.call.isVital && e.call.transaction == t).map
    fun e => (e.call, e.succeeded)

theorem call_history (h : r.call c = (res, r')) (t : TxId) :
    r'.history t
      = if c.isVital && c.transaction == t then (c, res.isOk) :: r.history t
        else r.history t := by
  obtain ⟨performed, hl⟩ := call_log h
  simp only [history, hl, List.filter_cons]
  split <;> rfl

theorem mem_history {t : TxId} {succeeded : Bool} (hc : c.isVital = true)
    (ht : c.transaction = t) :
    (c, succeeded) ∈ r.history t ↔ ∃ performed, ⟨c, performed, succeeded⟩ ∈ r.log := by
  simp only [history, List.mem_map, List.mem_filter]
  constructor
  · rintro ⟨⟨c', performed, s'⟩, ⟨hm, _⟩, he⟩
    obtain ⟨rfl, rfl⟩ := Prod.mk.inj he
    exact ⟨performed, hm⟩
  · rintro ⟨performed, hm⟩
    exact ⟨⟨c, performed, succeeded⟩, ⟨hm, by simp [hc, ht]⟩, rfl⟩

/-- Calls fail cleanly and journals are kept one to a transaction. -/
structure Orderly (r : Resource) : Prop where
  clean : r.FailsCleanly
  once : r.memory.journals.keys.Nodup

theorem Orderly.call (hr : r.Orderly) (h : r.call c = (res, r')) : r'.Orderly := by
  refine ⟨hr.clean.call h, ?_⟩
  cases res with
  | ok u => exact Memory.perform_once (call_ok h) hr.once
  | error e => rw [call_error hr.clean h]; exact hr.once

end Resource

/-! ### Accounts -/

/-- How a transaction stands. -/
structure Account where
  /-- The vital calls on it, the latest first, each with whether it succeeded. -/
  history : List (Call × Bool)
  /-- The state on its record, if it has one. -/
  state : Option TransactionState
  hasJournal : Bool
  deriving Repr, DecidableEq

namespace Account

/-- The account of a transaction that a scope owns. -/
def running (t : TxId) : Account := ⟨[(.begin t, true)], some .active, true⟩

/-- The accounts of transactions that no scope owns. -/
inductive Settled (t : TxId) : Account → Prop
  /-- It was never heard of. -/
  | unknown : Settled t ⟨[], none, false⟩
  /-- The resource refused to begin it. -/
  | refused : Settled t ⟨[(.begin t, false)], some .active, false⟩
  | committed : Settled t ⟨[(.commit t, true), (.begin t, true)], some .committed, false⟩
  | rolledBack : Settled t ⟨[(.rollback t, true), (.begin t, true)], some .rolledBack, false⟩
  /-- It was to be committed, and was rolled back when that failed. -/
  | rolledBackInstead :
      Settled t ⟨[(.rollback t, true), (.commit t, false), (.begin t, true)],
        some .rolledBack, false⟩
  /-- It could not be rolled back. -/
  | stuck : Settled t ⟨[(.rollback t, false), (.begin t, true)], some .active, true⟩
  /-- It could neither be committed nor rolled back. -/
  | stuckInstead :
      Settled t ⟨[(.rollback t, false), (.commit t, false), (.begin t, true)],
        some .active, true⟩

end Account

namespace Coordinator

variable {k : Coordinator} {d : TransactionDefinition} {w w' : World} {t u : TxId} {c : Call}
  {res : Except Error Unit}

def account (k : Coordinator) (w : World) (t : TxId) : Account where
  history := (w.resource k.resource).history t
  state := (w.transaction? t).map (·.state)
  hasJournal := (w.resource k.resource).memory.journals.contains t

/-! ### What operations do to accounts -/

theorem call_orderly (h : call k.resource c w = (res, w'))
    (hr : (w.resource k.resource).Orderly) : (w'.resource k.resource).Orderly :=
  hr.call (call_resource_eq h)

/-- A call touches the account of its own transaction only, and none at all if it is not vital. -/
theorem account_call_ne (h : call k.resource c w = (res, w'))
    (hr : (w.resource k.resource).Orderly) (hu : c.isVital = false ∨ u ≠ c.transaction) :
    k.account w' u = k.account w u := by
  have hc := call_resource_eq h
  -- The call is not in the history of the transaction, and the journal is not that of the call.
  have history : (w'.resource k.resource).history u = (w.resource k.resource).history u := by
    rw [Resource.call_history hc, if_neg]
    rintro hv
    simp only [Bool.and_eq_true, beq_iff_eq] at hv
    rcases hu with hu | hu
    · rw [hu] at hv; exact absurd hv.1 (by simp)
    · exact hu hv.2.symm
  have journal : (w'.resource k.resource).memory.journals.contains u
      = (w.resource k.resource).memory.journals.contains u := by
    cases res with
    | error e => rw [Resource.call_error hr.clean hc]
    | ok =>
      rcases hu with hu | hu
      · exact Memory.perform_contains (Resource.call_ok hc) hu u
      · simp only [Dict.contains, Memory.perform_journals_ne (Resource.call_ok hc) hu]
  rw [account, account, history, journal, call_transaction? h]

/-- What a vital call does to the account of its transaction. -/
theorem account_call (h : call k.resource c w = (res, w'))
    (hr : (w.resource k.resource).Orderly) (hc : c.isVital = true) :
    k.account w' c.transaction
      = ⟨(c, res.isOk) :: (k.account w c.transaction).history, (k.account w c.transaction).state,
          if res.isOk then c.leavesOpen else (k.account w c.transaction).hasJournal⟩ := by
  have hq := call_resource_eq h
  have history := Resource.call_history hq c.transaction
  rw [if_pos (by simp [hc])] at history
  -- The call decides alone whether there is a journal from now on.
  have journal : (w'.resource k.resource).memory.journals.contains c.transaction
      = if res.isOk then c.leavesOpen
        else (w.resource k.resource).memory.journals.contains c.transaction := by
    cases res with
    | ok u => exact Memory.perform_vital (Resource.call_ok hq) hc
    | error e => rw [Resource.call_error hr.clean hq]; rfl
  rw [account, account, history, journal, call_transaction? h]

/-- What a change to the record of a transaction does to accounts. -/
theorem account_changeTransaction (f : Transaction → Transaction) :
    k.account (changeTransaction t f w).2 u
      = { k.account w u with
          state := ((changeTransaction t f w).2.transaction? u).map (·.state) } := by
  cases hk : k.resource <;> simp only [account, hk] <;> rfl

/-- A change to a record that leaves its state alone touches no account. -/
theorem account_changeTransaction_same {f : Transaction → Transaction}
    (hf : ∀ tx, (f tx).state = tx.state) (u : TxId) :
    k.account (changeTransaction t f w).2 u = k.account w u := by
  have state : ((changeTransaction t f w).2.transaction? u).map (·.state)
      = (w.transaction? u).map (·.state) := by
    rw [transaction?_changeTransaction]
    split
    · simp [Option.map_map, Function.comp_def, hf]
    · rfl
  rw [account_changeTransaction, state]
  rfl

theorem account_setState_self (x : TransactionState) :
    k.account (setState t x w).2 t
      = { k.account w t with state := (k.account w t).state.map fun _ => x } := by
  rw [setState, account_changeTransaction, transaction?_changeTransaction, if_pos rfl]
  simp [account, Option.map_map, Function.comp_def]

theorem account_setState_ne {x : TransactionState} (hu : u ≠ t) :
    k.account (setState t x w).2 u = k.account w u := by
  rw [setState, account_changeTransaction, transaction?_changeTransaction, if_neg hu]
  rfl

/-- The record of a new transaction is added to its account. -/
theorem account_addTransaction :
    k.account (addTransaction d w).2 u
      = if u = w.nextTx then { k.account w u with state := some .active } else k.account w u := by
  have resource : (addTransaction d w).2.resource k.resource = w.resource k.resource := by
    cases k.resource <;> rfl
  have hu : u.index = w.transactions.size ↔ u = w.nextTx := by
    cases u; simp [nextTx]
  simp only [account, resource, transaction?_addTransaction, hu]
  split <;> rfl

theorem changeTransaction_resource (f : Transaction → Transaction) (i : ResourceId) :
    (changeTransaction t f w).2.resource i = w.resource i := by cases i <;> rfl

theorem addTransaction_resource (i : ResourceId) :
    (addTransaction d w).2.resource i = w.resource i := by cases i <;> rfl

end Coordinator

end ComponentHost
