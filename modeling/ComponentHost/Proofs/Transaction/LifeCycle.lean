import ComponentHost.Proofs.Transaction.Books
import Mathlib.Logic.Relation

/-! # The life of transactions

  A flow begins scopes, reads and writes, and ends scopes in any order; the resource may fail any
  call on the way. Whatever it does, every transaction is active at first and ends at most once,
  the resource is asked at most once to commit it and at most once to roll it back, never to commit
  it after a rollback, and the memory holds its journal exactly as long as it is active.
-/

namespace ComponentHost

open World Attempt

/-! ### Flows -/

/-- A flow of execution under a coordinator. -/
structure Flow where
  /-- What its code shares. -/
  world : World
  /-- The scopes that were begun and have not ended. -/
  live : List TransactionScope

namespace Flow

/-- The transactions that live scopes own. -/
def owned (live : List TransactionScope) : List TxId := live.filterMap (·.participation.owned)

theorem owned_cons (s : TransactionScope) (live : List TransactionScope) :
    owned (s :: live) = s.participation.owned.toList ++ owned live := by
  cases h : s.participation.owned with
  | none => simp [owned, h]
  | some t => simp [owned, h]

theorem owned_erase {s : TransactionScope} {live : List TransactionScope} (hs : s ∈ live) :
    (owned live).Perm (s.participation.owned.toList ++ owned (live.erase s)) := by
  rw [← owned_cons]
  exact (List.perm_cons_erase hs).filterMap _

end Flow

namespace World

def stateOf (w : World) (t : TxId) : Option TransactionState := (w.transaction? t).map (·.state)

end World

namespace Coordinator

variable {k : Coordinator} {d : TransactionDefinition} {w w' w₀ : World} {t u : TxId}
  {f f' : Flow} {o : List TxId}

/-- What the code of a flow can do next. Any live scope may end, in whatever order, and a scope that
    is merely dropped fails, with nobody to hear of its error. -/
inductive Step (k : Coordinator) : Flow → Flow → Prop
  | begun {d : TransactionDefinition} {w w' : World} {live : List TransactionScope}
      {s : TransactionScope} (h : k.begin d w = (.ok s, w')) : Step k ⟨w, live⟩ ⟨w', s :: live⟩
  | refused {d : TransactionDefinition} {w w' : World} {live : List TransactionScope} {e : Error}
      (h : k.begin d w = (.error e, w')) : Step k ⟨w, live⟩ ⟨w', live⟩
  /-- The work of a live scope succeeded. -/
  | completed {w w' : World} {live : List TransactionScope} {s : TransactionScope}
      {r : Except Error Unit} (hs : s ∈ live) (h : k.complete s w = (r, w')) :
      Step k ⟨w, live⟩ ⟨w', live.erase s⟩
  /-- The work of a live scope failed, or the scope is dropped. -/
  | failed {w w' : World} {live : List TransactionScope} {s : TransactionScope}
      {r : Except Error Unit} (hs : s ∈ live) (h : k.fail s w = (r, w')) :
      Step k ⟨w, live⟩ ⟨w', live.erase s⟩
  /-- Something is written or deleted, or may not be. -/
  | wrote {w w' : World} {live : List TransactionScope} {key : String} {value : Option Value}
      {r : Except Error Unit} (h : World.write k.resource key value w = (r, w')) :
      Step k ⟨w, live⟩ ⟨w', live⟩
  /-- A transaction is marked for rollback, or its mark is taken away. -/
  | marked {w : World} {live : List TransactionScope} (t : TxId) (mark : Bool) :
      Step k ⟨w, live⟩ ⟨(setRollbackOnly t mark w).2, live⟩
  /-- Something is read, time passes, a context is installed or taken off, or the other resource
      is used: neither the transactions nor the coordinated resource change. -/
  | elsewhere {w w' : World} {live : List TransactionScope}
      (ht : w'.transactions = w.transactions)
      (hr : w'.resource k.resource = w.resource k.resource) : Step k ⟨w, live⟩ ⟨w', live⟩

/-- What the code of a flow can do in any number of steps. -/
abbrev Runs (k : Coordinator) : Flow → Flow → Prop := Relation.ReflTransGen (Step k)

/-- Running a body in a scope is a run: the scope is begun, the body runs, and the scope ends if the
    body has not ended it. -/
theorem runs_execute {α : Type} {body : StateM World (Except Stop α)} {w₁ : World}
    {s : TransactionScope} {live live' : List TransactionScope}
    (hb : k.begin d w = (.ok s, w₁)) (hr : Runs k ⟨w₁, s :: live⟩ ⟨(body w₁).2, live'⟩)
    (hs : s ∈ live') : Runs k ⟨w, live⟩ ⟨(k.execute d body w).2, live'.erase s⟩ := by
  have inside : Runs k ⟨w, live⟩ ⟨(body w₁).2, live'⟩ := .head (.begun hb) hr
  rcases hw : body w₁ with ⟨stop | a, w₂⟩
  · rw [hw] at inside
    simp only [execute_eq, hb, hw]
    exact inside.tail (.failed hs rfl)
  · rw [hw] at inside
    rcases hc : k.complete s w₂ with ⟨e | _, w₃⟩ <;> simp only [execute_eq, hb, hw, hc] <;>
      exact inside.tail (.completed hs hc)

/-- A scope that is refused is a run too. -/
theorem runs_execute_refused {α : Type} {body : StateM World (Except Stop α)} {w₁ : World}
    {e : Error} {live : List TransactionScope} (hb : k.begin d w = (.error e, w₁)) :
    Runs k ⟨w, live⟩ ⟨(k.execute d body w).2, live⟩ := by
  rw [execute_eq, hb]
  exact .single (.refused hb)

/-! ### The books are kept -/

theorem books_congr (hb : Books k w o) (ht : w'.transactions = w.transactions)
    (hr : w'.resource k.resource = w.resource k.resource) : Books k w' o :=
  hb.congr (by rw [hr]; exact hb.orderly) fun u => by
    rw [account, account, hr, transaction?, ht, transaction?]

theorem begin_books {s : TransactionScope} (h : k.begin d w = (.ok s, w')) (hb : Books k w o) :
    Books k w' (s.participation.owned.toList ++ o) := by
  obtain ⟨w₁, he, _, rfl⟩ := begin_ok h
  exact books_congr (he.books hb).1 (by simp) (by simp)

/-- When a live scope ends, well or not, its context is taken off first. -/
theorem uninstall_books {s : TransactionScope} {live : List TransactionScope} (hs : s ∈ live)
    (hb : Books k w (Flow.owned live)) :
    Books k (uninstall s.context w).2
      (s.participation.owned.toList ++ Flow.owned (live.erase s)) :=
  books_congr (hb.perm (Flow.owned_erase hs)) (uninstall_transactions _ _)
    (uninstall_resource _ _ _)

/-- A write goes into a journal that is there, or into no journal. -/
theorem Written.books {key : String} {value : Option Value} {r : Except Error Unit}
    (h : Written k.resource key value w r w') (hb : Books k w o) : Books k w' o := by
  have clean (m : Memory) : ({ w.resource k.resource with memory := m }).FailsCleanly :=
    hb.orderly.clean
  cases h with
  -- A write changes what a journal holds, never which journals there are.
  | readOnly | notEnlisted => exact hb
  | atOnce hc =>
    refine hb.congr ?_ ?_
    · rw [setMemory_resource]
      exact ⟨clean _, hb.orderly.once⟩
    · intro u
      simp only [account, setMemory_resource, setMemory_transaction?]
      rfl
  | @pending t j hc hr hj =>
    refine hb.congr ?_ ?_
    · rw [setMemory_resource]
      exact ⟨clean _, Dict.nodup_keys_insert hb.orderly.once⟩
    · intro u
      have journal :
          ((w.resource k.resource).memory.journals.insert t (j.write key value)).contains u
          = (w.resource k.resource).memory.journals.contains u := by
        by_cases hu : u = t
        · subst hu; simp [Dict.contains, hj]
        · simp [Dict.contains, Dict.get?_insert, hu]
      simp only [account, setMemory_resource, setMemory_transaction?, journal]
      rfl

/-- Every step keeps the books. -/
theorem Step.books (h : Step k f f') (hb : Books k f.world (Flow.owned f.live)) :
    Books k f'.world (Flow.owned f'.live) := by
  cases h with
  | begun h =>
    rw [Flow.owned_cons]
    exact begin_books h hb
  | refused h => exact ((begin_error h).books hb).1
  | completed hs h | failed hs h => exact (finish_books h (uninstall_books hs hb)).1
  | wrote h => exact Written.books (write_eq h) hb
  | marked t mark => exact (hb.setRollbackOnly t mark).1
  | elsewhere ht hr => exact books_congr hb ht hr

/-- Every run keeps the books. -/
theorem Runs.books (h : Runs k f f') (hb : Books k f.world (Flow.owned f.live)) :
    Books k f'.world (Flow.owned f'.live) := by
  induction h with
  | refl => exact hb
  | tail _ hs ih => exact hs.books ih

/-- Nothing has happened yet: there are no transactions, and the resource was not called. -/
structure Fresh (k : Coordinator) (w : World) : Prop where
  transactions : w.transactions = #[]
  journals : (w.resource k.resource).memory.journals = {}
  log : (w.resource k.resource).log = []
  clean : (w.resource k.resource).FailsCleanly

/-- At first all books are empty. -/
theorem Fresh.books (h : Fresh k w) : Books k w [] where
  orderly := ⟨h.clean, by rw [h.journals]; exact Dict.nodup_keys_empty⟩
  once := List.nodup_nil
  running := by simp
  settled t _ := by
    have this : k.account w t = ⟨[], none, false⟩ := by
      simp [account, Resource.history, transaction?, h.log, h.transactions, h.journals,
        Dict.contains]
    rw [this]
    exact .unknown

/-! ### States only advance -/

/-- How the state of a transaction may change at one time. -/
inductive Advances : Option TransactionState → Option TransactionState → Prop
  /-- Not at all. -/
  | stays (x : Option TransactionState) : Advances x x
  /-- A new transaction is active. -/
  | begun : Advances none (some .active)
  | committed : Advances (some .active) (some .committed)
  | rolledBack : Advances (some .active) (some .rolledBack)

theorem stateOf_call {c : Call} {res : Except Error Unit} (h : call k.resource c w = (res, w')) :
    w'.stateOf u = w.stateOf u := by
  rw [stateOf, call_transaction? h, stateOf]

theorem stateOf_changeTransaction {g : Transaction → Transaction}
    (hg : ∀ tx, (g tx).state = tx.state) :
    (changeTransaction t g w).2.stateOf u = w.stateOf u := by
  rw [stateOf, transaction?_changeTransaction, stateOf]
  split
  · simp [Option.map_map, Function.comp_def, hg]
  · rfl

theorem stateOf_setRollbackOnly (t : TxId) (mark : Bool) (w : World) (u : TxId) :
    (setRollbackOnly t mark w).2.stateOf u = w.stateOf u :=
  stateOf_changeTransaction fun _ => rfl

theorem stateOf_nextSavepoint (t : TxId) (start : String) (w : World) (u : TxId) :
    (nextSavepoint t start w).2.stateOf u = w.stateOf u :=
  stateOf_changeTransaction fun _ => rfl

theorem stateOf_setState (x : TransactionState) :
    (setState t x w).2.stateOf u
      = if u = t then (w.stateOf u).map fun _ => x else w.stateOf u := by
  rw [stateOf, setState, transaction?_changeTransaction, stateOf]
  split
  · simp [Option.map_map, Function.comp_def]
  · rfl

theorem stateOf_addTransaction :
    (addTransaction d w).2.stateOf u
      = if u = w.nextTx then some .active else w.stateOf u := by
  have hu : u.index = w.transactions.size ↔ u = w.nextTx := by cases u; simp [nextTx]
  simp only [stateOf, transaction?_addTransaction, hu]
  split <;> rfl

theorem stateOf_nextTx (w : World) : w.stateOf w.nextTx = none := by
  simp [stateOf, transaction?, nextTx]

/-- A scope that is entered, or refused, adds at most one record, of a transaction that is
    active. -/
theorem Entry.advances {r : Except Error Participation} (h : Entry k d w r w') (u : TxId) :
    Advances (w.stateOf u) (w'.stateOf u) := by
  -- Only a record that is added is new; it is of the next id, and active.
  have added {w w' : World} {c : Call} {res : Except Error Unit}
      (h : call k.resource c (addTransaction d w).2 = (res, w')) :
      Advances (w.stateOf u) (w'.stateOf u) := by
    rw [stateOf_call h, stateOf_addTransaction]
    split
    · next hu => rw [hu, stateOf_nextTx]; exact .begun
    · exact .stays _
  cases h with
  | mandatory | without | never | expired | conflict | joined => exact .stays _
  | opened _ _ hb | notOpened _ _ hb => exact added hb
  | notSuspended _ _ hs | suspended _ _ hs => rw [stateOf_call hs]; exact .stays _
  | openedApart _ _ hs hb => rw [← stateOf_call hs]; exact added hb
  | notOpenedApart _ _ hs hb hr =>
    rw [stateOf_call hr, ← stateOf_call hs]
    exact added hb
  | nested _ _ _ hs | notNested _ _ _ hs =>
    rw [stateOf_call hs, stateOf_nextSavepoint]
    exact .stays _

theorem rollback_stateOf {r : Except Error Unit} (h : k.rollback t w = (r, w')) (u : TxId) :
    w'.stateOf u = w.stateOf u ∨
      u = t ∧ w'.stateOf u = (w.stateOf u).map fun _ => .rolledBack := by
  cases r with
  | error e => exact .inl (stateOf_call (rollback_error h))
  | ok =>
    obtain ⟨w₁, hc, rfl⟩ := rollback_ok h
    rw [stateOf_setState, stateOf_call hc]
    split
    · next hu => exact .inr ⟨hu, rfl⟩
    · exact .inl rfl

/-- The end of a scope changes at most the state of the transaction that the scope owns. -/
theorem Settlement.stateOf {p : Participation} {success : Bool} {r : Except Error Unit}
    (h : Settlement k w p success r w') (u : TxId) :
    w'.stateOf u = w.stateOf u ∨
      p.owned = some u ∧ ∃ x, (x = .committed ∨ x = .rolledBack) ∧
        w'.stateOf u = (w.stateOf u).map fun _ => x := by
  -- Every end of an owner that is not a commit is a rollback, which may fail.
  have rolled {t : TxId} {s : Option TxId} {w w' : World} {r : Except Error Unit}
      (hr : k.rollback t w = (r, w')) :
      w'.stateOf u = w.stateOf u ∨
        (Participation.owner t s).owned = some u ∧
          ∃ x, (x = .committed ∨ x = .rolledBack) ∧
            w'.stateOf u = (w.stateOf u).map fun _ => x := by
    rcases rollback_stateOf hr u with hs | ⟨rfl, hs⟩
    · exact .inl hs
    · exact .inr ⟨rfl, _, .inr rfl, hs⟩
  cases h with
  | committed _ _ hk =>
    rw [stateOf_setState, stateOf_call hk]
    split
    · next hu => exact .inr ⟨by rw [hu]; rfl, _, .inl rfl, rfl⟩
    · exact .inl rfl
  | notCommitted _ _ hk hr => rw [← stateOf_call hk]; exact rolled hr
  | overdue _ hr | marked _ _ hr | rolledBack hr => exact rolled hr
  | left | apart => exact .inl rfl
  | late | failed => exact .inl (stateOf_setRollbackOnly _ _ _ _)
  | released hr | notUndone hr => exact .inl (stateOf_call hr)
  | undone hr => exact .inl ((stateOf_setRollbackOnly _ _ _ _).trans (stateOf_call hr))

/-- When a scope ends, only a transaction that it owns, and that is active, changes its state. -/
theorem finish_advances {p : Participation} {success : Bool} {r : Except Error Unit}
    (h : k.finish p success w = (r, w')) (hb : Books k w (p.owned.toList ++ o)) (u : TxId) :
    Advances (w.stateOf u) (w'.stateOf u) := by
  obtain ⟨r₁, w₁, hs, hr⟩ := finish_eq h
  have resumed : w'.stateOf u = w₁.stateOf u := by
    rcases hr with ⟨_, _, rfl⟩ | ⟨t, r₂, _, hr, _⟩
    · rfl
    · exact stateOf_call hr
  rw [resumed]
  rcases hs.stateOf u with hu | ⟨ho, x, hx, hu⟩
  · rw [hu]; exact .stays _
  -- Whose state has changed was owned, and therefore active.
  · have active : w.stateOf u = some .active :=
      congrArg Account.state (hb.running u (by simp [ho]))
    rw [hu, active]
    rcases hx with rfl | rfl
    · exact .committed
    · exact .rolledBack

/-- In every step, states advance. -/
theorem Step.advances (h : Step k f f') (hb : Books k f.world (Flow.owned f.live)) (u : TxId) :
    Advances (f.world.stateOf u) (f'.world.stateOf u) := by
  -- Steps that change no record change no state.
  have same {w w' : World} (ht : w'.transactions = w.transactions) :
      Advances (w.stateOf u) (w'.stateOf u) := by
    have hs : w'.stateOf u = w.stateOf u := by simp only [stateOf, transaction?, ht]
    rw [hs]
    exact .stays _
  cases h with
  | begun h =>
    obtain ⟨w₁, he, _, rfl⟩ := begin_ok h
    exact he.advances u
  | refused h => exact (begin_error h).advances u
  | completed hs h | failed hs h => exact finish_advances h (uninstall_books hs hb) u
  | wrote h => exact same (write_eq h).transactions
  | marked t mark =>
    rw [stateOf_setRollbackOnly]
    exact .stays _
  | elsewhere ht _ => exact same ht

/-- Whatever a transaction ended as, it stays. -/
theorem Runs.stateOf (h : Runs k f f') (hb : Books k f.world (Flow.owned f.live))
    {x : TransactionState} (hx : x ≠ .active) (hu : f.world.stateOf u = some x) :
    f'.world.stateOf u = some x := by
  -- The run is taken apart at its last step, before which the books are kept.
  induction h with
  | refl => exact hu
  | @tail g g' hr hs ih =>
    have ha := hs.advances (Runs.books hr hb) u
    rw [ih] at ha
    generalize g'.world.stateOf u = y at ha
    cases ha with
    | stays => rfl
    | committed | rolledBack => exact absurd rfl hx

end Coordinator

/-! ### What accounts tell -/

namespace Resource

/-- The calls that are to end a transaction, the latest first. -/
def endings (r : Resource) (t : TxId) : List Call :=
  (r.log.map (·.call)).filter fun c => c = .commit t || c = .rollback t

theorem endings_eq (r : Resource) (t : TxId) :
    r.endings t
      = ((r.history t).map (·.1)).filter fun c => c = .commit t || c = .rollback t := by
  unfold endings history
  -- A call that ends the transaction is vital and on it, so the history has it.
  induction r.log with
  | nil => rfl
  | cons e log ih =>
    obtain ⟨c, performed, succeeded⟩ := e
    rw [List.map_cons, List.filter_cons, List.filter_cons, ih]
    by_cases hc : c = .commit t ∨ c = .rollback t
    · rcases hc with rfl | rfl <;> simp [Call.isVital, Call.transaction]
    · have hc' : (decide (c = .commit t) || decide (c = .rollback t)) = false := by simpa using hc
      simp only [hc', Bool.false_eq_true, if_false]
      split <;> simp [hc']

end Resource

namespace Account

variable {t : TxId} {a : Account}

theorem endings_sublist (h : a = running t ∨ Settled t a) :
    ((a.history.map (·.1)).filter fun c => c = .commit t || c = .rollback t).Sublist
      [.rollback t, .commit t] := by
  rcases h with rfl | h
  · simp [running]
  · cases h <;> simp

theorem hasJournal_iff (h : a = running t ∨ Settled t a) :
    a.hasJournal = true ↔ (.begin t, true) ∈ a.history ∧ a.state = some .active := by
  rcases h with rfl | h
  · simp [running]
  · cases h <;> simp

theorem state_committed_iff (h : a = running t ∨ Settled t a) :
    a.state = some .committed ↔ (.commit t, true) ∈ a.history := by
  rcases h with rfl | h
  · simp [running]
  · cases h <;> simp

theorem Settled.hasJournal (h : Settled t a) (hr : (.rollback t, false) ∉ a.history) :
    a.hasJournal = false := by
  cases h with
  | unknown | refused | committed | rolledBack | rolledBackInstead => rfl
  | stuck | stuckInstead => exact absurd (by simp) hr

end Account

namespace Coordinator

variable {k : Coordinator} {w w₀ : World} {f : Flow} {o : List TxId}

/-! ### The life cycle -/

/-- How transactions stand between their records, the resource's journals and its log. -/
structure LifeCycle (k : Coordinator) (w : World) : Prop where
  /-- The resource was asked at most once to commit a transaction and at most once to roll it back,
      and not to commit it after that; its log has the latest call first. -/
  endings : ∀ t, ((w.resource k.resource).endings t).Sublist [.rollback t, .commit t]
  /-- Journals are kept one to a transaction, so that their number is the number of
      transactions that have one. -/
  once : (w.resource k.resource).memory.journals.keys.Nodup
  /-- The transactions with a journal are those that the resource was told to begin, and did, and
      that are active. -/
  journals : ∀ t, t ∈ (w.resource k.resource).memory.journals.keys ↔
    (∃ performed, ⟨.begin t, performed, true⟩ ∈ (w.resource k.resource).log) ∧
      w.stateOf t = some .active
  /-- The transactions that are committed are those whose commit the resource reported as done. -/
  committed : ∀ t, w.stateOf t = some .committed ↔
    ∃ performed, ⟨.commit t, performed, true⟩ ∈ (w.resource k.resource).log

theorem Books.lifeCycle (hb : Books k w o) : LifeCycle k w := by
  -- What there is to show of a transaction can be read off its account.
  have each (t : TxId) : k.account w t = .running t ∨ (k.account w t).Settled t := by
    by_cases ht : t ∈ o
    · exact .inl (hb.running t ht)
    · exact .inr (hb.settled t ht)
  refine ⟨?_, hb.orderly.once, ?_, ?_⟩
  · intro t
    rw [Resource.endings_eq]
    exact Account.endings_sublist (each t)
  · intro t
    rw [Dict.mem_keys, ← Resource.mem_history (c := .begin t) rfl rfl]
    exact Account.hasJournal_iff (each t)
  · intro t
    rw [← Resource.mem_history (c := .commit t) rfl rfl]
    exact Account.state_committed_iff (each t)

/-- Where nothing is owned and no rollback failed, no journal is left. -/
theorem Books.no_journals (hb : Books k w [])
    (hr : ∀ t performed, ⟨.rollback t, performed, false⟩ ∉ (w.resource k.resource).log) :
    (w.resource k.resource).memory.journals.size = 0 := by
  -- A journal that is left would be that of a transaction whose rollback was refused.
  have none (t : TxId) : t ∉ (w.resource k.resource).memory.journals.keys := by
    have hn : (.rollback t, false) ∉ (w.resource k.resource).history t := by
      rw [Resource.mem_history (t := t) rfl rfl]
      rintro ⟨performed, hm⟩
      exact hr t performed hm
    have := (hb.settled t (by simp)).hasJournal hn
    rw [Dict.mem_keys]
    intro hj
    exact absurd (this.symm.trans hj) (by simp)
  have keys : (w.resource k.resource).memory.journals.keys = [] :=
    List.eq_nil_iff_forall_not_mem.mpr none
  simpa [Dict.size, Dict.keys] using keys

/-- **Life cycle of transactions.** In every state that a run reaches, records, journals and log
    agree; from then on states advance step by step, and what has ended stays as it is; and once no
    live scope owns a transaction and no rollback has failed, no journal is left. -/
theorem transactions_live_once (h₀ : Fresh k w₀) (h : Runs k ⟨w₀, []⟩ f) :
    LifeCycle k f.world ∧
      (∀ f', Step k f f' → ∀ t, Advances (f.world.stateOf t) (f'.world.stateOf t)) ∧
      (∀ f', Runs k f f' → ∀ t x, x ≠ .active → f.world.stateOf t = some x →
        f'.world.stateOf t = some x) ∧
      ((∀ s ∈ f.live, s.participation.owned = none) →
        (∀ t performed, ⟨.rollback t, performed, false⟩ ∉ (f.world.resource k.resource).log) →
        (f.world.resource k.resource).memory.journals.size = 0) := by
  have hb : Books k f.world (Flow.owned f.live) := Runs.books h h₀.books
  refine ⟨hb.lifeCycle, ?_, ?_, ?_⟩
  · intro f' hs t
    exact hs.advances hb t
  · intro f' hr t x hx ht
    exact Runs.stateOf hr hb hx ht
  · intro ho hr
    -- With no owner left the books have no open transaction.
    have ho : Flow.owned f.live = [] := List.filterMap_eq_nil_iff.mpr ho
    rw [ho] at hb
    exact hb.no_journals hr

/-- A flow begins a scope and completes it, but the resource refuses the commit: the transaction is
    rolled back, and no journal is left. -/
theorem transactions_live_once_refused_commit :
    ∃ w, Runs {} ⟨{ main := { schedules := ⟨[(.commit, [⟨1, .refuse⟩])]⟩ } }, []⟩ ⟨w, []⟩ ∧
      LifeCycle {} w ∧ w.stateOf ⟨0⟩ = some .rolledBack ∧ w.main.memory.journals.size = 0 := by
  let w₀ : World := { main := { schedules := ⟨[(.commit, [⟨1, .refuse⟩])]⟩ } }
  let s : TransactionScope := ⟨.owner ⟨0⟩ none, ⟨0⟩⟩
  let w₁ := (Coordinator.begin {} {} w₀).2
  let w₂ := (Coordinator.complete {} s w₁).2
  have fresh : Fresh {} w₀ := ⟨rfl, rfl, rfl, by
    intro p
    cases p <;> decide⟩
  have begun : Step {} ⟨w₀, []⟩ ⟨w₁, [s]⟩ := .begun (d := {}) rfl
  have completed : Step {} ⟨w₁, [s]⟩ ⟨w₂, []⟩ := .completed (s := s) (by decide) rfl
  have runs : Runs {} ⟨w₀, []⟩ ⟨w₂, []⟩ := .tail (.single begun) completed
  have log : w₂.main.log = [⟨.rollback ⟨0⟩, true, true⟩, ⟨.commit ⟨0⟩, false, false⟩,
      ⟨.begin ⟨0⟩, true, true⟩] := by decide
  obtain ⟨cycle, _, _, none⟩ := transactions_live_once fresh runs
  refine ⟨w₂, runs, cycle, by decide, none (by simp) ?_⟩
  intro t performed hm
  have hm : ⟨.rollback t, performed, false⟩ ∈ w₂.main.log := hm
  rw [log] at hm
  simp at hm

end Coordinator

end ComponentHost
