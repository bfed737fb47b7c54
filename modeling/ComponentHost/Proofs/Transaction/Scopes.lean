import ComponentHost.Proofs.Transaction.Calls

/-! # Entry and end of scopes

  All that a coordinator can do when a scope is entered and when it ends, said once:

  - `Entry` lists the ways in which a scope takes part or is refused, each with its calls;
  - `Settlement` lists the ways in which the part of a scope in its own transaction ends.

  Later proofs are case analyses over these lists and do not open the operations again.
-/

namespace ComponentHost

open World Attempt

/-! ### The world inside a scope -/

namespace World

/-- The identity of the transaction that is begun next. -/
def nextTx (w : World) : TxId := ⟨w.transactions.size⟩

/-- The identity of the context that is made next. -/
def nextContext (w : World) : ContextId := ⟨w.contexts.size⟩

/-- A context that is derived is there afterwards. -/
theorem nextContext_lt_derive (parent : Option ContextId) (attributes : Attributes)
    (binding : Option (Option TxId)) (w : World) :
    w.nextContext.index < (derive parent attributes binding w).2.contexts.size := by
  show w.contexts.size < (w.contexts.push _).size
  rw [Array.size_push]
  exact Nat.lt_succ_self _

/-- The world in which the code of a scope starts: its context is made and installed. -/
def inScope (w : World) (p : Participation) : World :=
  (install w.nextContext (derive w.current {} (some p.transaction) w).2).2

variable (w : World) (p : Participation)

@[simp] theorem inScope_stack : (w.inScope p).stack = w.nextContext :: w.stack := rfl

@[simp] theorem inScope_contexts :
    (w.inScope p).contexts
      = w.contexts.push ⟨w.current, w.contexts.depthBelow w.current, {}, some p.transaction⟩ := rfl

@[simp] theorem inScope_transactions : (w.inScope p).transactions = w.transactions := rfl

@[simp] theorem inScope_resource (i : ResourceId) : (w.inScope p).resource i = w.resource i := by
  cases i <;> rfl

@[simp] theorem inScope_current : (w.inScope p).current = some w.nextContext := rfl

/-- The code of a scope runs in the transaction that the scope takes part in. -/
@[simp] theorem inScope_currentTransaction :
    (w.inScope p).currentTransaction = p.transaction := by
  show (Contexts.lookup (w.inScope p).contexts (·.binding) w.nextContext).bind id = p.transaction
  unfold Contexts.lookup
  simp [nextContext]

@[simp] theorem uninstall_resource (c : ContextId) (w : World) (i : ResourceId) :
    (uninstall c w).2.resource i = w.resource i := by cases i <;> rfl

@[simp] theorem uninstall_transactions (c : ContextId) (w : World) :
    (uninstall c w).2.transactions = w.transactions := rfl

@[simp] theorem uninstall_contexts (c : ContextId) (w : World) :
    (uninstall c w).2.contexts = w.contexts := rfl

/-- The context on top of the stack is taken off, whatever else is on it. -/
theorem uninstall_stack {c : ContextId} {w : World} {rest : List ContextId}
    (h : w.stack = c :: rest) : (uninstall c w).2.stack = rest := by
  show w.stack.erase c = rest
  rw [h, List.erase_cons_head]

end World

namespace Coordinator

variable {k : Coordinator} {d : TransactionDefinition} {t : TxId} {w w' : World}
  {res : Except Error TransactionScope}

/-! ### Entry -/

/-- The scope asks for another isolation than the transaction has, and that matters. -/
def Conflicts (k : Coordinator) (d : TransactionDefinition) (w : World) (t : TxId) : Prop :=
  d.isolation ≠ .default ∧ d.isolation ≠ isolationOf w t ∧ k.policy = .strict

instance : Decidable (k.Conflicts d w t) := by unfold Conflicts; infer_instance

/-- How a scope takes part on its entry, or why it is refused, and the world after that. -/
inductive Entry (k : Coordinator) (d : TransactionDefinition) (w : World) :
    Except Error Participation → World → Prop
  /-- There is no transaction and one is required. -/
  | mandatory (hc : w.currentTransaction = none) (hd : d.propagation = .mandatory) :
      Entry k d w (.error .noTransaction) w
  /-- There is no transaction and none is begun. -/
  | without (hc : w.currentTransaction = none)
      (hd : d.propagation = .supports ∨ d.propagation = .notSupported ∨ d.propagation = .never) :
      Entry k d w (.ok (.apart none)) w
  /-- There is no transaction and one is begun. -/
  | opened {w₁ : World} (hc : w.currentTransaction = none)
      (hd : d.propagation = .required ∨ d.propagation = .requiresNew ∨ d.propagation = .nested)
      (hb : call k.resource (.begin w.nextTx) (addTransaction d w).2 = (.ok (), w₁)) :
      Entry k d w (.ok (.owner w.nextTx none)) w₁
  /-- There is no transaction and none can be begun. -/
  | notOpened {e : Error} {w₁ : World} (hc : w.currentTransaction = none)
      (hd : d.propagation = .required ∨ d.propagation = .requiresNew ∨ d.propagation = .nested)
      (hb : call k.resource (.begin w.nextTx) (addTransaction d w).2 = (.error e, w₁)) :
      Entry k d w (.error e) w₁
  /-- There is a transaction and none is allowed. -/
  | never {t : TxId} (hc : w.currentTransaction = some t) (hd : d.propagation = .never) :
      Entry k d w (.error (.unexpectedTransaction t.label)) w
  /-- The time of the transaction is up. -/
  | expired {t : TxId} (hc : w.currentTransaction = some t)
      (hd : d.propagation = .required ∨ d.propagation = .supports ∨ d.propagation = .mandatory ∨
        d.propagation = .nested)
      (he : w.isExpired t = true) :
      Entry k d w (.error (w.timeoutError t)) w
  /-- The transaction has another isolation. -/
  | conflict {t : TxId} (hc : w.currentTransaction = some t)
      (hd : d.propagation = .required ∨ d.propagation = .supports ∨ d.propagation = .mandatory)
      (he : w.isExpired t = false) (hi : k.Conflicts d w t) :
      Entry k d w (.error (.isolationConflict d.isolation.label (isolationOf w t).label)) w
  | joined {t : TxId} (hc : w.currentTransaction = some t)
      (hd : d.propagation = .required ∨ d.propagation = .supports ∨ d.propagation = .mandatory)
      (he : w.isExpired t = false) (hi : ¬ k.Conflicts d w t) :
      Entry k d w (.ok (.joined t)) w
  /-- The transaction cannot be laid aside. -/
  | notSuspended {t : TxId} {e : Error} {w₁ : World} (hc : w.currentTransaction = some t)
      (hd : d.propagation = .requiresNew ∨ d.propagation = .notSupported)
      (hs : call k.resource (.suspend t) w = (.error e, w₁)) :
      Entry k d w (.error e) w₁
  /-- The transaction is laid aside and another is begun. -/
  | openedApart {t : TxId} {w₁ w₂ : World} (hc : w.currentTransaction = some t)
      (hd : d.propagation = .requiresNew)
      (hs : call k.resource (.suspend t) w = (.ok (), w₁))
      (hb : call k.resource (.begin w₁.nextTx) (addTransaction d w₁).2 = (.ok (), w₂)) :
      Entry k d w (.ok (.owner w₁.nextTx (some t))) w₂
  /-- The transaction is laid aside, no other can be begun, and it is taken up again. -/
  | notOpenedApart {t : TxId} {e : Error} {res : Except Error Unit} {w₁ w₂ w₃ : World}
      (hc : w.currentTransaction = some t) (hd : d.propagation = .requiresNew)
      (hs : call k.resource (.suspend t) w = (.ok (), w₁))
      (hb : call k.resource (.begin w₁.nextTx) (addTransaction d w₁).2 = (.error e, w₂))
      (hr : call k.resource (.resume t) w₂ = (res, w₃)) :
      Entry k d w (.error e) w₃
  /-- A savepoint is set in the transaction. -/
  | nested {t : TxId} {w₁ : World} (hc : w.currentTransaction = some t)
      (hd : d.propagation = .nested) (he : w.isExpired t = false)
      (hs : call k.resource (.createSavepoint t (nextSavepoint t k.savepointPrefix w).1)
        (nextSavepoint t k.savepointPrefix w).2 = (.ok (), w₁)) :
      Entry k d w
        (.ok (.nested t (nextSavepoint t k.savepointPrefix w).1 (w₁.isRollbackOnly t))) w₁
  /-- No savepoint can be set in the transaction. -/
  | notNested {t : TxId} {e : Error} {w₁ : World} (hc : w.currentTransaction = some t)
      (hd : d.propagation = .nested) (he : w.isExpired t = false)
      (hs : call k.resource (.createSavepoint t (nextSavepoint t k.savepointPrefix w).1)
        (nextSavepoint t k.savepointPrefix w).2 = (.error e, w₁)) :
      Entry k d w (.error e) w₁
  /-- The transaction is laid aside and none is begun. -/
  | suspended {t : TxId} {w₁ : World} (hc : w.currentTransaction = some t)
      (hd : d.propagation = .notSupported)
      (hs : call k.resource (.suspend t) w = (.ok (), w₁)) :
      Entry k d w (.ok (.apart (some t))) w₁

/-- What beginning a transaction does. -/
theorem start_eq (k : Coordinator) (d : TransactionDefinition) (w : World) :
    k.start d w =
      match call k.resource (.begin w.nextTx) (addTransaction d w).2 with
      | (.ok (), w') => (.ok w.nextTx, w')
      | (.error e, w') => (.error e, w') := by
  unfold start
  rw [bind_lift]
  rcases h : call k.resource (.begin w.nextTx) (addTransaction d w).2 with ⟨e | _, w'⟩
  · exact bind_error h
  · exact bind_ok h

theorem checkTimeout_eq (t : TxId) (w : World) :
    checkTimeout t w = if w.isExpired t then (.error (w.timeoutError t), w) else (.ok (), w) := by
  unfold checkTimeout
  rw [bind_get]
  split <;> rfl

/-- What checking whether a transaction may be joined does. -/
theorem checkJoin_eq (k : Coordinator) (d : TransactionDefinition) (t : TxId) (w : World) :
    k.checkJoin d t w =
      if w.isExpired t then (.error (w.timeoutError t), w)
      else if k.Conflicts d w t then
        (.error (.isolationConflict d.isolation.label (isolationOf w t).label), w)
      else (.ok (), w) := by
  unfold checkJoin
  by_cases he : w.isExpired t
  · rw [bind_error (by rw [checkTimeout_eq, if_pos he]), if_pos he]
  · rw [bind_ok (by rw [checkTimeout_eq, if_neg he]), if_neg he, bind_get]
    by_cases hi : k.Conflicts d w t
    · rw [if_pos hi, if_pos (by obtain ⟨h₁, h₂, h₃⟩ := hi; simp [h₁, h₂, h₃])]
      rfl
    · rw [if_neg hi, if_neg (by simpa [Conflicts] using hi)]
      rfl

theorem entry_fresh {r : Except Error Participation} (hc : w.currentTransaction = none)
    (h : k.participateFresh d w = (r, w')) : Entry k d w r w' := by
  -- Three of the propagations do the same here: they begin a transaction.
  have opens (hd : d.propagation = .required ∨ d.propagation = .requiresNew ∨
        d.propagation = .nested)
      (h : (do return .owner (← k.start d) none : Hosted Participation) w = (r, w')) :
      Entry k d w r w' := by
    have hs := start_eq k d w
    rcases hb : call k.resource (.begin w.nextTx) (addTransaction d w).2 with ⟨e | _, w₁⟩
    · rw [hb] at hs
      rw [bind_error hs] at h
      cases h
      exact .notOpened hc hd hb
    · rw [hb] at hs
      rw [bind_ok hs] at h
      cases h
      exact .opened hc hd hb
  unfold participateFresh at h
  cases hd : d.propagation <;> simp only [hd] at h
  case mandatory => cases h; exact .mandatory hc hd
  case required => exact opens (.inl hd) h
  case requiresNew => exact opens (.inr (.inl hd)) h
  case nested => exact opens (.inr (.inr hd)) h
  case supports => cases h; exact .without hc (.inl hd)
  case notSupported => cases h; exact .without hc (.inr (.inl hd))
  case never => cases h; exact .without hc (.inr (.inr hd))

theorem entry_within {r : Except Error Participation} (hc : w.currentTransaction = some t)
    (h : k.participateWithin d t w = (r, w')) : Entry k d w r w' := by
  -- Three of the propagations join, after the time and the isolation have been checked.
  have joins (hd : d.propagation = .required ∨ d.propagation = .supports ∨
        d.propagation = .mandatory)
      (h : (do k.checkJoin d t; return .joined t : Hosted Participation) w = (r, w')) :
      Entry k d w r w' := by
    have hj := checkJoin_eq k d t w
    by_cases he : w.isExpired t
    · rw [if_pos he] at hj
      rw [bind_error hj] at h
      cases h
      exact .expired hc (by grind) he
    · rw [if_neg he] at hj
      have he := Bool.eq_false_iff.mpr he
      by_cases hi : k.Conflicts d w t
      · rw [if_pos hi] at hj
        rw [bind_error hj] at h
        cases h
        exact .conflict hc hd he hi
      · rw [if_neg hi] at hj
        rw [bind_ok hj] at h
        cases h
        exact .joined hc hd he hi
  unfold participateWithin at h
  cases hd : d.propagation <;> simp only [hd] at h
  case never => cases h; exact .never hc hd
  case required => exact joins (.inl hd) h
  case supports => exact joins (.inr (.inl hd)) h
  case mandatory => exact joins (.inr (.inr hd)) h
  case requiresNew =>
    -- The outer transaction is laid aside before the new one is begun.
    unfold startApart at h
    rcases hs : call k.resource (.suspend t) w with ⟨e | _, w₁⟩
    · rw [bind_error (bind_error hs)] at h
      cases h
      exact .notSuspended hc (.inl hd) hs
    · have hb := start_eq k d w₁
      rcases hq : call k.resource (.begin w₁.nextTx) (addTransaction d w₁).2 with ⟨e | _, w₂⟩
      · rw [hq] at hb
        rcases hr : call k.resource (.resume t) w₂ with ⟨res, w₃⟩
        rw [bind_error ((bind_ok hs).trans ((tryCatch_error hb).trans
          (bind_tryCatch_pure (by rw [hr] : (call k.resource (.resume t) w₂).2 = w₃))))] at h
        cases h
        exact .notOpenedApart hc hd hs hq hr
      · rw [hq] at hb
        rw [bind_ok ((bind_ok hs).trans (tryCatch_ok hb))] at h
        cases h
        exact .openedApart hc hd hs hq
  case nested =>
    -- A name is used up even where the savepoint cannot be set then.
    unfold startNested at h
    by_cases he : w.isExpired t
    · rw [bind_error (by rw [checkTimeout_eq, if_pos he])] at h
      cases h
      exact .expired hc (by simp [hd]) he
    · rw [bind_ok (by rw [checkTimeout_eq, if_neg he]), bind_lift] at h
      have he := Bool.eq_false_iff.mpr he
      rcases hs : call k.resource (.createSavepoint t (nextSavepoint t k.savepointPrefix w).1)
        (nextSavepoint t k.savepointPrefix w).2 with ⟨e | _, w₁⟩
      · rw [bind_error hs] at h
        cases h
        exact .notNested hc hd he hs
      · rw [bind_ok hs, bind_get] at h
        cases h
        exact .nested hc hd he hs
  case notSupported =>
    rcases hs : call k.resource (.suspend t) w with ⟨e | _, w₁⟩
    · rw [bind_error hs] at h
      cases h
      exact .notSuspended hc (.inr hd) hs
    · rw [bind_ok hs] at h
      cases h
      exact .suspended hc hd hs

/-! ### What an entry leaves alone -/

theorem Entry.sameFlow {r : Except Error Participation} (h : Entry k d w r w') :
    SameFlow w w' := by
  cases h with
  | mandatory | without | never | expired | conflict | joined => exact .refl w
  | opened _ _ hb | notOpened _ _ hb => exact (SameFlow.addTransaction d w).trans (call_sameFlow hb)
  | notSuspended _ _ hs | suspended _ _ hs => exact call_sameFlow hs
  | openedApart _ _ hs hb =>
    exact ((call_sameFlow hs).trans (.addTransaction d _)).trans (call_sameFlow hb)
  | notOpenedApart _ _ hs hb hr =>
    exact (((call_sameFlow hs).trans (.addTransaction d _)).trans (call_sameFlow hb)).trans
      (call_sameFlow hr)
  | nested _ _ _ hs | notNested _ _ _ hs =>
    exact (SameFlow.changeTransaction _ _ w).trans (call_sameFlow hs)

/-! ### Beginning a scope -/

theorem enter_eq (h : k.enter d w = (res, w')) :
    (∃ e, res = .error e ∧ Entry k d w (.error e) w') ∨
    (∃ p w₁, Entry k d w (.ok p) w₁ ∧ res = .ok ⟨p, w₁.nextContext⟩ ∧
      w' = (derive w₁.current {} (some p.transaction) w₁).2) := by
  unfold enter at h
  rw [bind_get, bind_get] at h
  -- Whatever way in there is, the context for the scope is derived after it.
  have derives (x : Hosted Participation) (entry : ∀ r w₁, x w = (r, w₁) → Entry k d w r w₁)
      (h : (x >>= fun p => do
        return ⟨p, ← derive w.current {} (some p.transaction)⟩ : Hosted TransactionScope) w
          = (res, w')) :
      (∃ e, res = .error e ∧ Entry k d w (.error e) w') ∨
      (∃ p w₁, Entry k d w (.ok p) w₁ ∧ res = .ok ⟨p, w₁.nextContext⟩ ∧
        w' = (derive w₁.current {} (some p.transaction) w₁).2) := by
    rcases hp : x w with ⟨e | p, w₁⟩
    · rw [bind_error hp] at h
      cases h
      exact .inl ⟨e, rfl, entry _ _ hp⟩
    · have hi := entry _ _ hp
      rw [bind_ok hp, ← hi.sameFlow.current] at h
      cases h
      exact .inr ⟨p, w₁, hi, rfl, rfl⟩
  cases hc : w.currentTransaction with
  | none => rw [hc] at h; exact derives _ (fun _ _ => entry_fresh hc) h
  | some t => rw [hc] at h; exact derives _ (fun _ _ => entry_within hc) h

/-- A scope that was begun was entered, and its context is on top of the stack. -/
theorem begin_ok {s : TransactionScope} (h : k.begin d w = (.ok s, w')) :
    ∃ w₁, Entry k d w (.ok s.participation) w₁ ∧ s.context = w.nextContext ∧
      w' = w₁.inScope s.participation := by
  unfold begin at h
  rcases he : k.enter d w with ⟨e | s', w₂⟩
  · rw [bind_error he] at h
    cases h
  · rw [bind_ok he] at h
    cases h
    obtain ⟨e, he', _⟩ | ⟨p, w₁, hp, hs, rfl⟩ := enter_eq he
    · cases he'
    · cases hs
      exact ⟨w₁, hp, by rw [nextContext, hp.sameFlow.contexts, nextContext], rfl⟩

/-- A scope that could not be begun was refused on its entry. -/
theorem begin_error {e : Error} (h : k.begin d w = (.error e, w')) :
    Entry k d w (.error e) w' := by
  unfold begin at h
  rcases he : k.enter d w with ⟨e' | s', w₂⟩
  · rw [bind_error he] at h
    cases h
    obtain ⟨e, he', hp⟩ | ⟨p, w₁, hp, hs, rfl⟩ := enter_eq he
    · cases he'; exact hp
    · cases hs
  · rw [bind_ok he] at h
    cases h

/-! ### The end of a scope -/

/-- What rolling back a transaction does. -/
theorem rollback_eq (k : Coordinator) (t : TxId) (w : World) :
    k.rollback t w =
      match call k.resource (.rollback t) w with
      | (.ok (), w') => (.ok (), (setState t .rolledBack w').2)
      | (.error e, w') => (.error e, w') := by
  unfold rollback
  rcases h : call k.resource (.rollback t) w with ⟨e | _, w'⟩
  · exact bind_error h
  · exact bind_ok h

theorem rollback_ok (h : k.rollback t w = (.ok (), w')) :
    ∃ w₁, call k.resource (.rollback t) w = (.ok (), w₁) ∧ w' = (setState t .rolledBack w₁).2 := by
  rw [rollback_eq] at h
  split at h
  · next hc => cases h; exact ⟨_, hc, rfl⟩
  · cases h

theorem rollback_error {e : Error} (h : k.rollback t w = (.error e, w')) :
    call k.resource (.rollback t) w = (.error e, w') := by
  rw [rollback_eq] at h
  split at h
  · cases h
  · next hc => cases h; exact hc

/-- The reason that an owner is given whose transaction is rolled back instead of committed: that
    the rollback failed, if it did. -/
def reason (rolledBack : Except Error Unit) (e : Error) : Error :=
  match rolledBack with
  | .ok () => e
  | .error e => e

/-- How the part of a scope in its own transaction ends, well or not, and the world after that. -/
inductive Settlement (k : Coordinator) (w : World) :
    Participation → Bool → Except Error Unit → World → Prop
  | committed {t : TxId} {s : Option TxId} {w₁ : World} (he : w.isExpired t = false)
      (hm : w.isRollbackOnly t = false) (hk : call k.resource (.commit t) w = (.ok (), w₁)) :
      Settlement k w (.owner t s) true (.ok ()) (setState t .committed w₁).2
  /-- The resource does not commit the owner's transaction, which is rolled back. -/
  | notCommitted {t : TxId} {s : Option TxId} {e : Error} {r : Except Error Unit} {w₁ w₂ : World}
      (he : w.isExpired t = false) (hm : w.isRollbackOnly t = false)
      (hk : call k.resource (.commit t) w = (.error e, w₁)) (hr : k.rollback t w₁ = (r, w₂)) :
      Settlement k w (.owner t s) true (.error e) w₂
  /-- The time of the owner's transaction is up, so it is rolled back. -/
  | overdue {t : TxId} {s : Option TxId} {r : Except Error Unit} {w₁ : World}
      (he : w.isExpired t = true) (hr : k.rollback t w = (r, w₁)) :
      Settlement k w (.owner t s) true (.error (reason r (w.timeoutError t))) w₁
  /-- The owner's transaction is marked, so it is rolled back. -/
  | marked {t : TxId} {s : Option TxId} {r : Except Error Unit} {w₁ : World}
      (he : w.isExpired t = false) (hm : w.isRollbackOnly t = true)
      (hr : k.rollback t w = (r, w₁)) :
      Settlement k w (.owner t s) true (.error (reason r (.unexpectedRollback t.label))) w₁
  /-- The owner failed, so its transaction is rolled back. -/
  | rolledBack {t : TxId} {s : Option TxId} {r : Except Error Unit} {w₁ : World}
      (hr : k.rollback t w = (r, w₁)) :
      Settlement k w (.owner t s) false r w₁
  /-- A joined transaction is left to its owner. -/
  | left {t : TxId} (he : w.isExpired t = false) : Settlement k w (.joined t) true (.ok ()) w
  /-- The time of a joined transaction is up, so it is marked. -/
  | late {t : TxId} (he : w.isExpired t = true) :
      Settlement k w (.joined t) true (.error (w.timeoutError t)) (setRollbackOnly t true w).2
  /-- The scope that joined a transaction failed, so it is marked. -/
  | failed {t : TxId} : Settlement k w (.joined t) false (.ok ()) (setRollbackOnly t true w).2
  /-- A savepoint is given up. -/
  | released {t : TxId} {name : String} {m : Bool} {r : Except Error Unit} {w₁ : World}
      (hr : call k.resource (.releaseSavepoint t name) w = (r, w₁)) :
      Settlement k w (.nested t name m) true r w₁
  /-- The nested scope failed, so the transaction goes back to its savepoint. -/
  | undone {t : TxId} {name : String} {m : Bool} {w₁ : World}
      (hr : call k.resource (.rollbackToSavepoint t name) w = (.ok (), w₁)) :
      Settlement k w (.nested t name m) false (.ok ()) (setRollbackOnly t m w₁).2
  /-- The transaction cannot go back to the savepoint of a nested scope that failed. -/
  | notUndone {t : TxId} {name : String} {m : Bool} {e : Error} {w₁ : World}
      (hr : call k.resource (.rollbackToSavepoint t name) w = (.error e, w₁)) :
      Settlement k w (.nested t name m) false (.error e) w₁
  /-- There is nothing to end. -/
  | apart {s : Option TxId} {success : Bool} : Settlement k w (.apart s) success (.ok ()) w

/-- The end of an owner's part, once its work succeeded. -/
theorem settlement_commit {r : Except Error Unit} (s : Option TxId)
    (h : k.commit t w = (r, w')) : Settlement k w (.owner t s) true r w' := by
  unfold commit at h
  rw [bind_get] at h
  split at h
  -- Past the deadline: the transaction is rolled back, whether or not this succeeds.
  · next he =>
    rcases hr : k.rollback t w with ⟨e | _, w₁⟩
    · rw [bind_error hr] at h
      cases h
      exact .overdue he hr
    · rw [bind_ok hr] at h
      cases h
      exact .overdue he hr
  -- In time, but marked: the same, with another error.
  · next he =>
    have he := Bool.eq_false_iff.mpr he
    split at h
    · next hm =>
      rcases hr : k.rollback t w with ⟨e | _, w₁⟩
      · rw [bind_error hr] at h
        cases h
        exact .marked he hm hr
      · rw [bind_ok hr] at h
        cases h
        exact .marked he hm hr
    · next hm =>
      have hm := Bool.eq_false_iff.mpr hm
      rcases hk : call k.resource (.commit t) w with ⟨e | _, w₁⟩
      -- The commit was refused, so a rollback is tried, whose result is dropped.
      · rcases hr : k.rollback t w₁ with ⟨r', w₂⟩
        have hc : (do call k.resource (.commit t); setState t .committed : Hosted Unit) w
            = (.error e, w₁) := bind_error hk
        rw [tryCatch_error hc, bind_tryCatch_pure (by rw [hr] : (k.rollback t w₁).2 = w₂)] at h
        cases h
        exact .notCommitted he hm hk hr
      · have hc : (do call k.resource (.commit t); setState t .committed : Hosted Unit) w
            = (.ok (), (setState t .committed w₁).2) := bind_ok hk
        rw [tryCatch_ok hc] at h
        cases h
        exact .committed he hm hk

theorem settle_eq {p : Participation} {success : Bool} {r : Except Error Unit}
    (h : k.settle p success w = (r, w')) : Settlement k w p success r w' := by
  cases p with
  | owner t s =>
    cases success with
    | true => exact settlement_commit s h
    | false => exact .rolledBack h
  | joined t =>
    cases success with
    | true =>
      unfold settle at h
      simp only [Bool.not_true, Bool.false_eq_true, if_false] at h
      rw [bind_get] at h
      split at h
      · next he => cases h; exact .late he
      · next he => cases h; exact .left (Bool.eq_false_iff.mpr he)
    | false => cases h; exact .failed
  | nested t name m =>
    cases success with
    | true => exact .released h
    | false =>
      unfold settle at h
      simp only [Bool.false_eq_true, if_false] at h
      -- The mark is set back only after the savepoint is restored.
      rcases hr : call k.resource (.rollbackToSavepoint t name) w with ⟨e | _, w₁⟩
      · rw [bind_error hr] at h
        cases h
        exact .notUndone hr
      · rw [bind_ok hr] at h
        cases h
        exact .undone hr
  | apart s => cases h; exact .apart

/-- A scope's own part ends first, then what it laid aside is taken up. -/
theorem finish_eq {p : Participation} {success : Bool} {r : Except Error Unit}
    (h : k.finish p success w = (r, w')) :
    ∃ r₁ w₁, Settlement k w p success r₁ w₁ ∧
      ((p.suspended = none ∧ r = r₁ ∧ w' = w₁) ∨
        ∃ t r₂, p.suspended = some t ∧ call k.resource (.resume t) w₁ = (r₂, w') ∧
          r = match r₁ with
            | .error e => .error e
            | .ok () => r₂) := by
  rcases hs : k.settle p success w with ⟨r₁, w₁⟩
  simp only [finish, hs] at h
  refine ⟨r₁, w₁, settle_eq hs, ?_⟩
  cases hp : p.suspended with
  | none =>
    rw [hp] at h
    left
    rcases r₁ with e | u <;> (cases h; exact ⟨rfl, rfl, rfl⟩)
  | some t =>
    rw [hp] at h
    right
    rcases hr : call k.resource (.resume t) w₁ with ⟨r₂, w₂⟩
    simp only [takeUp, hr] at h
    obtain ⟨h₁, rfl⟩ := Prod.mk.inj h
    exact ⟨t, r₂, rfl, hr, h₁.symm⟩

theorem rollback_sameFlow {r : Except Error Unit} (h : k.rollback t w = (r, w')) :
    SameFlow w w' := by
  rcases r with e | _
  · exact call_sameFlow (rollback_error h)
  · obtain ⟨w₁, hc, rfl⟩ := rollback_ok h
    exact (call_sameFlow hc).trans (.changeTransaction _ _ _)

theorem Settlement.sameFlow {p : Participation} {success : Bool} {r : Except Error Unit}
    (h : Settlement k w p success r w') : SameFlow w w' := by
  cases h with
  | committed _ _ hk => exact (call_sameFlow hk).trans (.changeTransaction _ _ _)
  | notCommitted _ _ hk hr => exact (call_sameFlow hk).trans (rollback_sameFlow hr)
  | overdue _ hr | marked _ _ hr | rolledBack hr => exact rollback_sameFlow hr
  | left | apart => exact .refl w
  | late | failed => exact .changeTransaction _ _ _
  | released hr | notUndone hr => exact call_sameFlow hr
  | undone hr => exact (call_sameFlow hr).trans (.changeTransaction _ _ _)

theorem finish_sameFlow {p : Participation} {success : Bool} {r : Except Error Unit}
    (h : k.finish p success w = (r, w')) : SameFlow w w' := by
  obtain ⟨r₁, w₁, hs, ⟨_, _, rfl⟩ | ⟨t, r₂, _, hr, _⟩⟩ := finish_eq h
  · exact hs.sameFlow
  · exact hs.sameFlow.trans (call_sameFlow hr)

/-! ### Running a body in a scope -/

/-- What running a body in a scope does: the scope is begun, and completed or failed as the body
    ends. -/
theorem execute_eq {α : Type} (k : Coordinator) (d : TransactionDefinition)
    (body : StateM World (Except Stop α)) (w : World) :
    k.execute d body w =
      match k.begin d w with
      | (.error e, w₁) => (.error (.ofError e), w₁)
      | (.ok s, w₁) =>
        match body w₁ with
        | (.error stop, w₂) => (.error stop, (k.fail s w₂).2)
        | (.ok a, w₂) =>
          match k.complete s w₂ with
          | (.error e, w₃) => (.error (.ofError e), w₃)
          | (.ok (), w₃) => (.ok a, w₃) := by
  rcases hb : k.begin d w with ⟨e | s, w₁⟩
  · simp only [execute, bind, StateT.bind, ExceptT.run, liftM, monadLift, hb]
    rfl
  · rcases hw : body w₁ with ⟨stop | a, w₂⟩
    · simp only [execute, bind, StateT.bind, ExceptT.run, liftM, monadLift, hb, hw]
      rfl
    · rcases hc : k.complete s w₂ with ⟨e | _, w₃⟩ <;>
        simp only [execute, bind, StateT.bind, ExceptT.run, liftM, monadLift, hb, hw, hc] <;> rfl

end Coordinator

end ComponentHost
