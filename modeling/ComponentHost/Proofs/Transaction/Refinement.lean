import ComponentHost.Proofs.Transaction.Faultless
import ComponentHost.Proofs.Transaction.Kept
import ComponentHost.Proofs.Transaction.Overlay

/-! # Scopes refine nested overlays

  Over a resource whose calls do not fail, and without timeouts, a program that runs with the
  coordinator sees what it sees when it runs on nested overlays, gets the same result, and leaves
  the same committed values.

  The relation `Agrees` ties a world to a state of overlays: the store to the committed values, and
  the record and the journal of the current transaction to the current layer. That transactions
  which lie suspended are still as they were when their scope is left, and that the savepoint of a
  nested scope is still there, is what programs leave alone and was shown before.
-/

namespace ComponentHost

open World Attempt

namespace Coordinator

variable {k : Coordinator} {d : TransactionDefinition} {w w' : World} {t : TxId}
  {s : Overlay.State} {l : Overlay.Layer}

/-- A transaction without a timeout never expires. -/
theorem isExpired_eq_false {tx : Transaction} (htx : w.transaction? t = some tx)
    (hx : tx.timeout = none) : w.isExpired t = false := by
  simp [isExpired, htx, Transaction.isExpired, Transaction.limit, hx]

theorem isRollbackOnly_eq {tx : Transaction} (htx : w.transaction? t = some tx) :
    w.isRollbackOnly t = tx.rollbackOnly := by
  simp [isRollbackOnly, htx]

/-! ### Agreement -/

/-- A record and a journal stand for a layer. -/
structure StandsFor (tx : Transaction) (j : Journal) (l : Overlay.Layer) : Prop where
  isolation : tx.isolation = l.isolation
  readOnly : tx.readOnly = l.readOnly
  timeout : tx.timeout = none
  doomed : tx.rollbackOnly = l.doomed
  writes : ∀ key, j.writes.get? key = l.writes key

/-- A world agrees with a state of overlays. -/
structure Agrees (k : Coordinator) (w : World) (s : Overlay.State) : Prop where
  faultless : (w.resource k.resource).Faultless
  committed : ∀ key, (k.store w).get? key = s.committed key
  opened : w.transactions.size = s.opened
  current : w.currentTransaction = s.layer.map (·.id)
  layer : ∀ l, s.layer = some l → ∃ tx j, w.transaction? l.id = some tx ∧
    k.journal w l.id = some j ∧ StandsFor tx j l

namespace Agrees

theorem current_some (h : Agrees k w s) (hl : s.layer = some l) :
    w.currentTransaction = some l.id := by
  rw [h.current, hl]
  rfl

theorem layer_of_current (h : Agrees k w s) (ht : w.currentTransaction = some t) :
    ∃ l, s.layer = some l ∧ l.id = t := by
  rw [h.current] at ht
  obtain ⟨l, hl, hid⟩ := Option.map_eq_some_iff.mp ht
  exact ⟨l, hl, hid⟩

theorem layer_none (h : Agrees k w s) (ht : w.currentTransaction = none) : s.layer = none := by
  rw [h.current] at ht
  exact Option.map_eq_none_iff.mp ht

/-! ### Small steps -/

theorem read (h : Agrees k w s) (key : String) : w.read k.resource key = s.read key := by
  unfold World.read Memory.read Overlay.State.read
  cases hl : s.layer with
  | none =>
    rw [h.current, hl]
    exact h.committed key
  | some l =>
    obtain ⟨tx, j, htx, hj, stands⟩ := h.layer l hl
    have hj : (w.resource k.resource).memory.journals.get? l.id = some j := hj
    -- Inside a transaction, what is pending hides what is committed.
    rw [h.current_some hl, Option.bind_some, hj, Option.bind_some, stands.writes key]
    cases hw : l.writes key with
    | none =>
      show (k.store w).get? key = l.merge s.committed key
      rw [h.committed key, Overlay.Layer.merge, hw]
      rfl
    | some v => simp [Overlay.Layer.merge, hw]

theorem write (h : Agrees k w s) (key : String) (value : Option Value) {r : Except Error Unit}
    (hw : World.write k.resource key value w = (r, w')) :
    (s.write key value).1 = r ∧ Agrees k w' (s.write key value).2 := by
  have hf (m : Memory) (hm : m.refusesCommits = (w.resource k.resource).memory.refusesCommits) :
      ((w.setMemory k.resource m).resource k.resource).Faultless := by
    rw [setMemory_resource]
    exact ⟨h.faultless.1, hm.trans h.faultless.2⟩
  have same := (write_eq hw).sameFlow.currentTransaction
  -- A write is refused or taken in the layer as it is in the journal, or is made in both stores.
  cases write_eq hw with
  | atOnce hc =>
    rw [Overlay.State.write_of_none (h.layer_none hc)]
    refine ⟨rfl, hf _ rfl, ?_, ?_, ?_, ?_⟩
    · intro k'
      rw [store, setMemory_resource, Dict.get?_set]
      show _ = if k' = key then value else s.committed k'
      by_cases hk : k' = key
      · rw [if_pos hk, if_pos hk]
      · rw [if_neg hk, if_neg hk]
        exact h.committed k'
    · rw [setMemory_transactions]
      exact h.opened
    · rw [same]
      exact h.current
    · intro l hl
      have hl : s.layer = some l := hl
      rw [h.layer_none hc] at hl
      cases hl
  | @pending t j hc hr hj =>
    obtain ⟨l, hl, rfl⟩ := h.layer_of_current hc
    obtain ⟨tx, j', htx, hj', stands⟩ := h.layer l hl
    obtain rfl : j = j' := Option.some.inj (hj.symm.trans hj')
    have hro : l.readOnly = false := by
      rw [← stands.readOnly, ← hr, refusesWrites, htx]
      rfl
    rw [Overlay.State.write_of_some hl hro]
    refine ⟨rfl, hf _ rfl, ?_, ?_, ?_, ?_⟩
    · intro k'
      rw [store, setMemory_resource]
      exact h.committed k'
    · rw [setMemory_transactions]
      exact h.opened
    · rw [same, hc]
      rfl
    · intro l' hl'
      cases hl'
      refine ⟨tx, j.write key value, by rw [setMemory_transaction?, htx], ?_, stands.isolation,
        stands.readOnly, stands.timeout, stands.doomed, ?_⟩
      · rw [journal, setMemory_resource, Dict.get?_insert_self]
      · intro k'
        rw [Journal.write, Dict.get?_insert, stands.writes k']
  | @readOnly t hc hr =>
    obtain ⟨l, hl, rfl⟩ := h.layer_of_current hc
    obtain ⟨tx, j, htx, _, stands⟩ := h.layer l hl
    have hro : l.readOnly = true := by
      rw [← stands.readOnly, ← hr, refusesWrites, htx]
      rfl
    rw [Overlay.State.write_of_readOnly hl hro]
    exact ⟨rfl, h⟩
  | @notEnlisted t hc hr hj =>
    -- The current transaction has a journal, since it has a layer.
    obtain ⟨l, hl, rfl⟩ := h.layer_of_current hc
    obtain ⟨_, j, _, hj', _⟩ := h.layer l hl
    have hj' : (w.resource k.resource).memory.journals.get? l.id = some j := hj'
    rw [hj] at hj'
    cases hj'

/-- The current transaction is marked where the current layer is doomed. -/
theorem marked (h : Agrees k w s) (ht : w.currentTransaction = some t) :
    Agrees k (setRollbackOnly t true w).2 s.doom := by
  obtain ⟨l, hl, rfl⟩ := h.layer_of_current ht
  obtain ⟨tx, j, htx, hj, stands⟩ := h.layer l hl
  have same : (setRollbackOnly l.id true w).2.currentTransaction = w.currentTransaction :=
    (SameFlow.changeTransaction _ _ w).currentTransaction
  rw [Overlay.State.doom_of_some hl]
  constructor
  case faultless => exact changeTransaction_faultless _ h.faultless
  case committed =>
    intro key
    rw [store, setRollbackOnly, changeTransaction_resource]
    exact h.committed key
  case opened =>
    rw [setRollbackOnly_size]
    exact h.opened
  case current =>
    rw [same, ht]
    rfl
  case layer =>
    intro l' hl'
    cases hl'
    exact ⟨_, j, setRollbackOnly_transaction? true htx, by rw [setRollbackOnly_journal, hj],
      stands.isolation, stands.readOnly, stands.timeout, rfl, stands.writes⟩

theorem markCurrent (h : Agrees k w s) : Agrees k w.markCurrent s.doom := by
  unfold World.markCurrent
  cases ht : w.currentTransaction with
  | some t => exact h.marked ht
  | none =>
    rw [Overlay.State.doom_of_none (h.layer_none ht)]
    exact h

theorem advance (h : Agrees k w s) (ms : Nat) : Agrees k (World.advance ms w).2 s := by
  have resource : (World.advance ms w).2.resource k.resource = w.resource k.resource := by
    cases k.resource <;> rfl
  refine ⟨by rw [resource]; exact h.faultless, ?_, h.opened, h.current,
    ?_⟩
  · intro key
    rw [store, resource]
    exact h.committed key
  · intro l hl
    obtain ⟨tx, j, htx, hj, stands⟩ := h.layer l hl
    exact ⟨tx, j, htx, by rw [journal, resource, ← journal, hj], stands⟩

end Agrees

/-! ### Entering a scope -/

/-- A scope that is entered or refused leaves the store alone. -/
theorem Entry.store {r : Except Error Participation} (h : Entry k d w r w')
    (hc : (w.resource k.resource).FailsCleanly) : k.store w' = k.store w := by
  -- A new record is nothing the store knows, and no call on the way is a commit.
  have started {w w' : World} {c : Call} {res : Except Error Unit}
      (h : call k.resource c (addTransaction d w).2 = (res, w'))
      (hc : (w.resource k.resource).FailsCleanly) (hn : ∀ t, c ≠ .commit t) :
      (w'.resource k.resource).FailsCleanly ∧ k.store w' = k.store w := by
    have hc' := addTransaction_clean (d := d) hc
    refine ⟨call_clean h hc', (store_call h hc' hn).trans ?_⟩
    rw [Coordinator.store, addTransaction_resource, Coordinator.store]
  cases h with
  | mandatory | without | never | expired | conflict | joined => rfl
  | opened _ _ hb | notOpened _ _ hb => exact (started hb hc (by simp)).2
  | notSuspended _ _ hs | suspended _ _ hs => exact store_call hs hc (by simp)
  | openedApart _ _ hs hb =>
    exact (started hb (call_clean hs hc) (by simp)).2.trans (store_call hs hc (by simp))
  | notOpenedApart _ _ hs hb hr =>
    obtain ⟨hc', hstore⟩ := started hb (call_clean hs hc) (by simp)
    exact ((store_call hr hc' (by simp)).trans hstore).trans (store_call hs hc (by simp))
  | @nested t w₁ _ _ _ hs | @notNested t e w₁ _ _ _ hs =>
    refine (store_call hs (nextSavepoint_clean hc) (by simp)).trans ?_
    show ((changeTransaction t _ w).2.resource k.resource).memory.committed = _
    rw [changeTransaction_resource, Coordinator.store]

/-- The body of a scope starts in agreement, where nothing of the store changed. -/
theorem Agrees.entered {w₁ : World} {p : Participation} {s' : Overlay.State} (h : Agrees k w s)
    (hf : (w₁.resource k.resource).Faultless) (hstore : k.store w₁ = k.store w)
    (hc : s'.committed = s.committed) (hopened : w₁.transactions.size = s'.opened)
    (ht : p.transaction = s'.layer.map (·.id))
    (hl : ∀ l, s'.layer = some l → ∃ tx j, w₁.transaction? l.id = some tx ∧
      k.journal w₁ l.id = some j ∧ StandsFor tx j l) : Agrees k (w₁.inScope p) s' := by
  constructor
  case faultless =>
    rw [inScope_resource]
    exact hf
  case committed =>
    intro key
    rw [store, inScope_resource, ← store, hstore, hc]
    exact h.committed key
  case opened =>
    rw [inScope_transactions]
    exact hopened
  case current => rw [inScope_currentTransaction, ht]
  case layer =>
    intro l hl'
    obtain ⟨tx, j, htx, hj, stands⟩ := hl l hl'
    exact ⟨tx, j, htx, by rw [journal, inScope_resource, ← journal, hj], stands⟩

theorem start_opened_agrees {w₁ : World} {outer : Option TxId} (h : Agrees k w s)
    (hf : (w₁.resource k.resource).Faultless) (hstore : k.store w₁ = k.store w)
    (hd : d.timeout = none) {t : TxId} (ho : Opened k d w t w₁) :
    Agrees k (w₁.inScope (.owner t outer)) (Overlay.enter d s .opens) := by
  have hid : t = ⟨s.opened⟩ := by rw [ho.fresh, nextTx, h.opened]
  refine h.entered hf hstore rfl ?_ ?_ ?_
  · rw [ho.size, h.opened]
    rfl
  · rw [hid]
    rfl
  · intro l hl
    cases hl
    refine ⟨_, _, by rw [← ho.record, hid]; rfl, by rw [← ho.journal, hid]; rfl, rfl, rfl, hd, rfl,
      fun key => rfl⟩

/-- The isolations that conflict are the same. -/
theorem conflicts_iff {tx : Transaction} {j : Journal} (htx : w.transaction? t = some tx)
    (stands : StandsFor tx j l) : k.Conflicts d w t ↔
      d.isolation ≠ .default ∧ d.isolation ≠ l.isolation ∧ k.policy = .strict := by
  have hi : isolationOf w t = l.isolation := by
    rw [isolationOf, htx, ← stands.isolation]
    rfl
  rw [Conflicts, hi]

end Coordinator

namespace Participation

/-- How a scope that takes part in some way uses layers. -/
def role : Participation → Overlay.Role
  | owner _ _ => .opens
  | joined _ => .joins
  | nested _ _ _ => .nests
  | apart _ => .apart

end Participation

namespace Coordinator

variable {k : Coordinator} {d : TransactionDefinition} {w w' : World} {t : TxId}
  {s : Overlay.State} {l : Overlay.Layer}

/-- A scope is refused where overlays refuse it, and for the same reason; otherwise it takes part in
    the way in which it uses layers, and its body starts in agreement. -/
theorem Entry.agrees {r : Except Error Participation} (he : Entry k d w r w') (hs : Sound k w)
    (h : Agrees k w s) (hd : d.timeout = none) :
    (∃ e, r = .error e ∧ Overlay.role k.policy d s.layer = .error e ∧ w' = w) ∨
      ∃ p, r = .ok p ∧ Overlay.role k.policy d s.layer = .ok p.role ∧
        Agrees k (w'.inScope p) (Overlay.enter d s p.role) := by
  have hf := he.faultless h.faultless
  have hstore := he.store hs.clean
  -- None of the calls fails, so the entries that report such a failure do not occur.
  have apart {outer : Option TxId} (hsize : w'.transactions.size = w.transactions.size) :
      Agrees k (w'.inScope (.apart outer)) (Overlay.enter d s .apart) :=
    h.entered hf hstore rfl (hsize.trans h.opened) rfl fun l hl => by cases hl
  have layer {t : TxId} (hc : w.currentTransaction = some t) :
      ∃ l tx j, s.layer = some l ∧ l.id = t ∧ w.transaction? t = some tx ∧
        k.journal w t = some j ∧ StandsFor tx j l := by
    obtain ⟨l, hl, rfl⟩ := h.layer_of_current hc
    obtain ⟨tx, j, htx, hj, stands⟩ := h.layer l hl
    exact ⟨l, tx, j, hl, rfl, htx, hj, stands⟩
  cases he with
  | mandatory hc hp =>
    left
    exact ⟨_, rfl, by simp [Overlay.role, h.layer_none hc, hp], rfl⟩
  | without hc hp =>
    right
    refine ⟨_, rfl, ?_, apart rfl⟩
    rcases hp with hp | hp | hp <;> simp [Overlay.role, h.layer_none hc, hp, Participation.role]
  | opened hc hp hb =>
    right
    refine ⟨_, rfl, ?_, start_opened_agrees h hf hstore hd (call_begin_opened hb hs.clean)⟩
    rcases hp with hp | hp | hp <;> simp [Overlay.role, h.layer_none hc, hp, Participation.role]
  | notOpened _ _ hb => cases faultless_call_ok hb (addTransaction_faultless h.faultless) rfl
  | never hc hp =>
    left
    obtain ⟨l, tx, j, hl, rfl, _⟩ := layer hc
    exact ⟨_, rfl, by simp [Overlay.role, hl, hp], rfl⟩
  | expired hc _ hx =>
    obtain ⟨l, tx, j, hl, rfl, htx, _, stands⟩ := layer hc
    rw [isExpired_eq_false htx stands.timeout] at hx
    cases hx
  | conflict hc hp _ hi =>
    left
    obtain ⟨l, tx, j, hl, rfl, htx, _, stands⟩ := layer hc
    have hiso : isolationOf w l.id = l.isolation := by
      rw [isolationOf, htx, ← stands.isolation]
      rfl
    have hi := (conflicts_iff htx stands).mp hi
    refine ⟨_, rfl, ?_, rfl⟩
    rw [hiso]
    rcases hp with hp | hp | hp <;> simp only [Overlay.role, hl, hp, if_pos hi]
  | joined hc hp _ hi =>
    right
    obtain ⟨l, tx, j, hl, rfl, htx, hj, stands⟩ := layer hc
    have hi := mt (conflicts_iff htx stands).mpr hi
    refine ⟨_, rfl, ?_, h.entered hf hstore rfl h.opened ?_ h.layer⟩
    · rcases hp with hp | hp | hp <;>
        simp only [Overlay.role, hl, hp, if_neg hi, Participation.role]
    · show some l.id = s.layer.map (·.id)
      rw [hl]
      rfl
  | notSuspended _ _ hq => cases faultless_call_ok hq h.faultless rfl
  | @openedApart t w₁ w₂ hc hp hq hb =>
    right
    obtain ⟨l, tx, j, hl, rfl, _⟩ := layer hc
    have ho := (Entry.openedApart hc hp hq hb).owner hs.clean
    refine ⟨_, rfl, ?_, start_opened_agrees h hf hstore hd ho.2⟩
    simp [Overlay.role, hl, hp, Participation.role]
  | notOpenedApart _ _ hq hb hr =>
    cases faultless_call_ok hb (addTransaction_faultless (call_faultless hq h.faultless)) rfl
  | @nested t w₁ hc hp hx hq =>
    right
    obtain ⟨l, tx, j, hl, rfl, htx, hj, stands⟩ := layer hc
    obtain ⟨_, _, _, forked⟩ := (Entry.nested hc hp hx hq).nested_forked hs.clean htx hj
    refine ⟨_, rfl, by simp [Overlay.role, hl, hp, Participation.role],
      h.entered hf hstore rfl (forked.size.trans h.opened) ?_ ?_⟩
    · show some l.id = s.layer.map (·.id)
      rw [hl]
      rfl
    · intro l' hl'
      obtain rfl : l = l' := Option.some.inj (hl.symm.trans hl')
      exact ⟨_, _, forked.record, forked.journal, stands.isolation, stands.readOnly,
        stands.timeout, stands.doomed, stands.writes⟩
  | notNested hc _ _ hq =>
    obtain ⟨l, tx, j, hl, rfl, htx, hj, stands⟩ := layer hc
    have hj : k.journal (nextSavepoint l.id k.savepointPrefix w).2 l.id = some j := by
      rw [nextSavepoint_journal, hj]
    cases faultless_call_ok hq (changeTransaction_faultless _ h.faultless)
      (Memory.changeJournal_of_get? hj rfl)
  | suspended hc hp hq =>
    right
    obtain ⟨l, tx, j, hl, rfl, _⟩ := layer hc
    exact ⟨_, rfl, by simp [Overlay.role, hl, hp, Participation.role], apart (call_size hq)⟩

/-! ### Leaving a scope -/

theorem Agrees.congr (h : Agrees k w s) (ht : w'.transactions = w.transactions)
    (hr : w'.resource k.resource = w.resource k.resource)
    (hc : w'.currentTransaction = w.currentTransaction) : Agrees k w' s := by
  refine ⟨by rw [hr]; exact h.faultless, ?_, by rw [ht]; exact h.opened,
    by rw [hc]; exact h.current, ?_⟩
  · intro key
    rw [Coordinator.store, hr]
    exact h.committed key
  · intro l hl
    obtain ⟨tx, j, htx, hj, stands⟩ := h.layer l hl
    exact ⟨tx, j, by rw [transaction?, ht, ← transaction?, htx],
      by rw [journal, hr, ← journal, hj], stands⟩

/-- Only the end of an owner's part touches the store. -/
theorem Settlement.store_eq {p : Participation} {success : Bool} {r : Except Error Unit}
    (h : Settlement k w p success r w') (hc : (w.resource k.resource).FailsCleanly)
    (hp : p.owned = none) : k.store w' = k.store w := by
  have marks (t : TxId) (mark : Bool) (w : World) :
      k.store (setRollbackOnly t mark w).2 = k.store w := by
    rw [store, setRollbackOnly, changeTransaction_resource, store]
  cases h with
  | committed | notCommitted | overdue | marked | rolledBack => cases hp
  | left | apart => rfl
  | late | failed => exact marks _ true w
  | released hr | notUndone hr => exact store_call hr hc (by simp)
  | undone hr => exact (marks _ _ _).trans (store_call hr hc (by simp))

/-- Without faults and timeouts, an owner's transaction is committed unless it is marked or the work
    failed. -/
theorem Settlement.owner_faultless {outer : Option TxId} {success : Bool} {r : Except Error Unit}
    {tx : Transaction} {j : Journal} (h : Settlement k w (.owner t outer) success r w')
    (hf : (w.resource k.resource).Faultless) (htx : w.transaction? t = some tx)
    (hx : tx.timeout = none) (hj : k.journal w t = some j) :
    (r, k.store w') = if success then
        if tx.rollbackOnly then (.error (.unexpectedRollback t.label), k.store w)
        else (.ok (), Memory.apply (k.store w) j.writes)
      else (.ok (), k.store w) := by
  have hm := isRollbackOnly_eq htx
  cases h with
  | @committed _ _ w₁ _ hm' hk =>
    -- A commit carries the whole journal over.
    obtain ⟨j', hj', hq⟩ := Memory.perform_commit (Resource.call_ok (call_resource_eq hk))
    obtain rfl : j = j' := Option.some.inj (hj.symm.trans hj')
    rw [hm] at hm'
    rw [store_setState, store, hq, if_pos rfl, hm']
    rfl
  | notCommitted _ _ hk _ =>
    have hj : (w.resource k.resource).memory.journals.get? t = some j := hj
    have hp : (w.resource k.resource).memory.perform (.commit t) = .ok
        { (w.resource k.resource).memory with
          committed := Memory.apply (w.resource k.resource).memory.committed j.writes,
          journals := (w.resource k.resource).memory.journals.erase t } := by
      simp [Memory.perform, hf.2, hj]
    cases faultless_call_ok hk hf hp
  | overdue he _ =>
    rw [isExpired_eq_false htx hx] at he
    cases he
  | marked _ hm' hr =>
    obtain ⟨rfl, _, hstore⟩ := rollback_faultless hr hf
    rw [hm] at hm'
    rw [hstore, if_pos rfl, hm']
    rfl
  | rolledBack hr =>
    obtain ⟨rfl, _, hstore⟩ := rollback_faultless hr hf
    rw [hstore]
    rfl

namespace Proper

variable {run : ScopeRun} {left : Overlay.State}

/-- When the context of a scope is taken off, the code around it is in its own transaction again. -/
theorem uninstalled_current (h : Proper k run) :
    (uninstall run.scope.context run.left).2.currentTransaction
      = run.before.currentTransaction := by
  rw [← h.frame.currentTransaction h.sound, h.ended.2.currentTransaction]

theorem after_size (h : Proper k run) :
    run.after.transactions.size = run.left.transactions.size := by
  rw [h.ended.1.size, uninstall_transactions]

theorem left_current (h : Proper k run) :
    run.left.currentTransaction = run.scope.participation.transaction := by
  rw [h.body.currentTransaction h.entered_sound, h.entered_current]

/-- Without faults, the end of a scope is that of its own part. -/
theorem settled (h : Proper k run) (hf : (run.left.resource k.resource).Faultless) :
    (run.after.resource k.resource).Faultless ∧
      ∃ w₁, Settlement k (uninstall run.scope.context run.left).2 run.scope.participation
        run.result.isOk run.told w₁ ∧ k.store run.after = k.store w₁ :=
  finish_faultless h.finish (by rwa [uninstall_resource])

/-- A scope that owns no transaction leaves the store as its body left it. -/
theorem store_eq (h : Proper k run) (hf : (run.left.resource k.resource).Faultless)
    (hp : run.scope.participation.owned = none) : k.store run.after = k.store run.left := by
  obtain ⟨_, w₁, settled, hstore⟩ := h.settled hf
  rw [hstore, settled.store_eq (uninstalled_clean _ h.body) hp, store_uninstall]

/-- What lay suspended while the scope ran still agrees with the layer from before. -/
theorem agrees_outer (h : Proper k run) (hb : Agrees k run.before s) (hs : run.shares = false)
    {s' : Overlay.State} (hf : (run.after.resource k.resource).Faultless)
    (hc : ∀ key, (k.store run.after).get? key = s'.committed key)
    (ho : run.left.transactions.size = s'.opened) (hl : s'.layer = s.layer) :
    Agrees k run.after s' := by
  have same := h.frame.currentTransaction h.sound
  refine ⟨hf, hc, h.after_size.trans ho, by rw [same, hb.current, hl], ?_⟩
  intro l hl'
  rw [hl] at hl'
  obtain ⟨tx, j, htx, hj, stands⟩ := hb.layer l hl'
  have untouched := h.untouched (hb.current_some hl') hs
  exact ⟨tx, j, by rw [untouched.1, htx], by rw [untouched.2, hj], stands⟩

/-- An owner's layer is merged, if it is not doomed and the work succeeded. -/
theorem agrees_owner (h : Proper k run) (hb : Agrees k run.before s) (hl : Agrees k run.left left)
    {outer : Option TxId} (hp : run.scope.participation = .owner t outer) :
    ∃ s', Overlay.leave s run.result left .opens = (run.outcome, s') ∧ Agrees k run.after s' := by
  obtain ⟨hf, w₁, settled, hstore⟩ := h.settled hl.faultless
  have current : run.left.currentTransaction = some t := by rw [h.left_current, hp]; rfl
  obtain ⟨l, hlayer, rfl⟩ := hl.layer_of_current current
  obtain ⟨tx, j, htx, hj, stands⟩ := hl.layer l hlayer
  have distinct : j.Distinct := by
    obtain ⟨_, j', _, hj', _, hd⟩ := (h.body.sound h.entered_sound).enlisted _ current
    obtain rfl : j = j' := Option.some.inj (hj.symm.trans hj')
    exact hd
  have shares : run.shares = false := by rw [ScopeRun.shares, hp]
  -- Applying the journal is merging the layer, since each key is pending once.
  have merged (key : String) : (Memory.apply (k.store run.left) j.writes).get? key
      = l.merge left.committed key := by
    rw [Memory.get?_apply distinct.1, stands.writes, hl.committed, Overlay.Layer.merge]
  rw [hp] at settled
  have ended := settled.owner_faultless (by rw [uninstall_resource]; exact hl.faultless) htx
    stands.timeout (by rw [(Untouched.uninstall k _ run.left l.id).2, hj])
  rw [← hstore, store_uninstall, stands.doomed] at ended
  unfold ScopeRun.outcome
  cases hres : run.result with
  | error stop =>
    rw [hres] at ended
    obtain ⟨-, hstore⟩ := Prod.mk.inj ended
    refine ⟨_, rfl, h.agrees_outer hb shares hf (?_) hl.opened rfl⟩
    intro key
    rw [hstore]
    exact hl.committed key
  | ok v =>
    rw [hres] at ended
    cases hd : l.doomed with
    | true =>
      rw [hd] at ended
      obtain ⟨htold, hstore⟩ := Prod.mk.inj ended
      refine ⟨{ left with layer := s.layer }, ?_, h.agrees_outer hb shares hf (?_)
        hl.opened rfl⟩
      · rw [htold]
        simp only [Overlay.leave, hlayer, hd, if_true]
      · intro key
        rw [hstore]
        exact hl.committed key
    | false =>
      rw [hd] at ended
      obtain ⟨htold, hstore⟩ := Prod.mk.inj ended
      refine ⟨{ left with committed := l.merge left.committed, layer := s.layer }, ?_,
        h.agrees_outer hb shares hf (?_) hl.opened rfl⟩
      · rw [htold]
        simp only [Overlay.leave, hlayer, hd, Bool.false_eq_true, if_false]
      · intro key
        rw [hstore]
        exact merged key

/-- A scope apart leaves the layer from before alone. -/
theorem agrees_apart (h : Proper k run) (hb : Agrees k run.before s) (hl : Agrees k run.left left)
    {outer : Option TxId} (hp : run.scope.participation = .apart outer) :
    ∃ s', Overlay.leave s run.result left .apart = (run.outcome, s') ∧ Agrees k run.after s' := by
  obtain ⟨hf, w₁, settled, _⟩ := h.settled hl.faultless
  have shares : run.shares = false := by rw [ScopeRun.shares, hp]
  -- A scope that runs apart has nothing to settle.
  have told : run.told = .ok () := by
    rw [hp] at settled
    generalize run.told = told at settled
    cases settled with
    | apart => rfl
  refine ⟨{ left with layer := s.layer }, ?_, h.agrees_outer hb shares hf (?_) hl.opened rfl⟩
  · rw [ScopeRun.outcome, told]
    cases run.result <;> rfl
  · intro key
    rw [h.store_eq hl.faultless (by rw [hp]; rfl)]
    exact hl.committed key

/-- A scope that joined dooms the current layer if its work failed. -/
theorem agrees_joined (h : Proper k run) (hl : Agrees k run.left left)
    (hp : run.scope.participation = .joined t) :
    ∃ s', Overlay.leave s run.result left .joins = (run.outcome, s') ∧ Agrees k run.after s' := by
  have shared := h.shares_current (by rw [ScopeRun.shares, hp])
  have uninstalled : Agrees k (uninstall run.scope.context run.left).2 left := by
    refine hl.congr (uninstall_transactions _ _) (uninstall_resource _ _ _) ?_
    rw [h.uninstalled_current, h.left_current, shared]
  have current : (uninstall run.scope.context run.left).2.currentTransaction = some t := by
    rw [h.uninstalled_current, ← shared, hp]
    rfl
  have hf := h.finish
  rw [hp] at hf
  have settled := finish_settlement hf rfl
  unfold ScopeRun.outcome
  generalize run.told = told at settled
  generalize run.after = after at settled
  cases hres : run.result with
  | ok v =>
    rw [hres] at settled
    cases settled with
    | left => exact ⟨left, rfl, uninstalled⟩
    | late he =>
      -- No transaction that a layer stands for has a timeout.
      obtain ⟨l, hlayer, rfl⟩ := uninstalled.layer_of_current current
      obtain ⟨tx, _, htx, _, stands⟩ := uninstalled.layer l hlayer
      rw [isExpired_eq_false htx stands.timeout] at he
      cases he
  | error stop =>
    rw [hres] at settled
    cases settled with
    | failed => exact ⟨left.doom, rfl, uninstalled.marked current⟩

/-- Without faults, a nested scope leaves what its body left if the work succeeded, and what there
    was before if it failed. -/
theorem nested_left (h : Proper k run) (hf : (run.left.resource k.resource).Faultless)
    {name : String} {mark : Bool} (hp : run.scope.participation = .nested t name mark)
    {tx : Transaction} {j : Journal} (htx : run.before.transaction? t = some tx)
    (hj : k.journal run.before t = some j) :
    ∃ tx₂ j₂, run.left.transaction? t = some tx₂ ∧ k.journal run.left t = some j₂ ∧
      tx₂ = { tx with rollbackOnly := tx₂.rollbackOnly, savepoints := tx₂.savepoints } ∧
      run.told = .ok () ∧
      run.after.transaction? t = some
        (if run.result.isOk then tx₂ else { tx₂ with rollbackOnly := tx.rollbackOnly }) ∧
      k.journal run.after t = some
        ⟨if run.result.isOk then j₂.writes else j.writes, j.savepoints⟩ := by
  obtain ⟨_, _, settled, _⟩ := h.settled hf
  obtain ⟨w₁, he, hw⟩ := h.entry
  have body := h.body
  have finish := h.finish
  rw [hp] at he hw finish settled
  rw [hw] at body
  rw [h.context] at finish
  -- The savepoint is there, so the end succeeds.
  obtain ⟨tx₂, j₂, _, htx₂, hj₂, _, stack, distinct⟩ :=
    scope_nested_stack he h.sound body htx hj
  have told : run.told = .ok () :=
    settled.nested_faultless (by rw [uninstall_resource]; exact hf)
      (by rw [(Untouched.uninstall k _ run.left t).2, hj₂]) stack distinct
  obtain ⟨tx', j', htx', hj', continues, htx₃, hj₃⟩ :=
    scope_nested_eq he h.sound body finish htx hj
  obtain rfl : tx₂ = tx' := Option.some.inj (htx₂.symm.trans htx')
  obtain rfl : j₂ = j' := Option.some.inj (hj₂.symm.trans hj')
  rw [told] at htx₃ hj₃
  refine ⟨tx₂, j₂, htx₂, hj₂, continues.record, told, ?_, hj₃⟩
  rw [htx₃]
  cases run.result <;> rfl

/-- After a scope that owns no transaction, the committed values are those that its body left. -/
theorem agrees_after (h : Proper k run) (hl : Agrees k run.left left)
    (hp : run.scope.participation.owned = none) {s' : Overlay.State}
    (hc : s'.committed = left.committed) (ho : s'.opened = left.opened)
    (hcurrent : run.before.currentTransaction = s'.layer.map (·.id))
    (hlayer : ∀ l, s'.layer = some l → ∃ tx j, run.after.transaction? l.id = some tx ∧
      k.journal run.after l.id = some j ∧ StandsFor tx j l) : Agrees k run.after s' := by
  refine ⟨(h.settled hl.faultless).1, ?_, ?_, ?_, hlayer⟩
  · intro key
    rw [h.store_eq hl.faultless hp, hc]
    exact hl.committed key
  · rw [h.after_size, ho]
    exact hl.opened
  · rw [h.frame.currentTransaction h.sound, hcurrent]

/-- A nested scope puts the layer from before back if its work failed. -/
theorem agrees_nested (h : Proper k run) (hb : Agrees k run.before s) (hl : Agrees k run.left left)
    {name : String} {mark : Bool} (hp : run.scope.participation = .nested t name mark) :
    ∃ s', Overlay.leave s run.result left .nests = (run.outcome, s') ∧ Agrees k run.after s' := by
  have owned : run.scope.participation.owned = none := by rw [hp]; rfl
  have current : run.before.currentTransaction = some t := by
    rw [← h.shares_current (by rw [ScopeRun.shares, hp]), hp]
    rfl
  have left_current : run.left.currentTransaction = some t := by rw [h.left_current, hp]; rfl
  -- The layers from before and after the body stand for the same transaction.
  obtain ⟨l, hlayer, rfl⟩ := hb.layer_of_current current
  obtain ⟨tx, j, htx, hj, stands⟩ := hb.layer l hlayer
  obtain ⟨l₂, hlayer₂, hid⟩ := hl.layer_of_current left_current
  obtain ⟨tx₂, j₂, htx₂, hj₂, stands₂⟩ := hl.layer l₂ hlayer₂
  rw [hid] at htx₂ hj₂
  obtain ⟨tx', j', htx', hj', record, told, htx₃, hj₃⟩ := h.nested_left hl.faultless hp htx hj
  obtain rfl : tx₂ = tx' := Option.some.inj (htx₂.symm.trans htx')
  obtain rfl : j₂ = j' := Option.some.inj (hj₂.symm.trans hj')
  unfold ScopeRun.outcome
  rw [told]
  cases hres : run.result with
  | ok v =>
    rw [hres] at htx₃ hj₃
    refine ⟨left, rfl, h.agrees_after hl owned rfl rfl (by rw [current, hlayer₂, ← hid]; rfl) ?_⟩
    intro l' hl'
    obtain rfl : l₂ = l' := Option.some.inj (hlayer₂.symm.trans hl')
    rw [hid]
    exact ⟨_, _, htx₃, hj₃, stands₂.isolation, stands₂.readOnly, stands₂.timeout, stands₂.doomed,
      stands₂.writes⟩
  | error stop =>
    rw [hres] at htx₃ hj₃
    refine ⟨{ left with layer := s.layer }, rfl,
      h.agrees_after hl owned rfl rfl (by rw [current, hlayer]; rfl) ?_⟩
    intro l' hl'
    obtain rfl : l = l' := Option.some.inj (hlayer.symm.trans hl')
    rw [record] at htx₃
    exact ⟨_, _, htx₃, hj₃, stands.isolation, stands.readOnly, stands.timeout, stands.doomed,
      stands.writes⟩

/-- A scope is left as overlays are left, with the same outcome. -/
theorem agrees (h : Proper k run) (hb : Agrees k run.before s) (hl : Agrees k run.left left) :
    ∃ s', Overlay.leave s run.result left run.scope.participation.role = (run.outcome, s') ∧
      Agrees k run.after s' := by
  cases hp : run.scope.participation with
  | owner t outer => exact h.agrees_owner hb hl hp
  | joined t => exact h.agrees_joined hl hp
  | nested t name mark => exact h.agrees_nested hb hl hp
  | apart outer => exact h.agrees_apart hb hl hp

end Proper

/-! ### Runs -/

def overlays (k : Coordinator) (w : World) : Overlay.State where
  committed key := (k.store w).get? key
  opened := w.transactions.size
  layer := none

/-- A scope is refused, and nothing happens, or is begun as overlays are entered. -/
theorem begin_agrees (hs : Sound k w) (h : Agrees k w s) (hd : d.timeout = none) :
    (∃ e, k.begin d w = (.error e, w) ∧ Overlay.role k.policy d s.layer = .error e) ∨
      ∃ scope w₁, k.begin d w = (.ok scope, w₁) ∧
        Overlay.role k.policy d s.layer = .ok scope.participation.role ∧
        Sound k w₁ ∧ Agrees k w₁ (Overlay.enter d s scope.participation.role) := by
  rcases hb : k.begin d w with ⟨e | scope, w₁⟩
  · left
    rcases (begin_error hb).agrees hs h hd with ⟨e', he, hrole, rfl⟩ | ⟨_, he, _⟩
    · cases he
      exact ⟨e, rfl, hrole⟩
    · cases he
  · right
    obtain ⟨w₂, entry, _, rfl⟩ := begin_ok hb
    rcases entry.agrees hs h hd with ⟨_, he, _⟩ | ⟨p, he, hrole, hagrees⟩
    · cases he
    · obtain rfl : scope.participation = p := Except.ok.inj he
      exact ⟨scope, _, rfl, hrole, entry.sound hs, hagrees⟩

/-- If a body refines what it does on overlays, so does a scope around it. -/
theorem execute_agrees {body : StateM World (Except Stop Value)}
    {eval : Overlay.State → Except Stop Value × Overlay.State} (hs : Sound k w)
    (h : Agrees k w s) (hd : d.timeout = none)
    (hframe : ∀ w, Sound k w → Frame k w (body w).2)
    (hbody : ∀ w s, Sound k w → Agrees k w s →
      (body w).1 = (eval s).1 ∧ Agrees k (body w).2 (eval s).2) :
    (k.execute d body w).1 = (Overlay.scope k.policy d eval s).1 ∧
      Agrees k (k.execute d body w).2 (Overlay.scope k.policy d eval s).2 := by
  have execute := k.execute_eq_scopeRun d body w
  cases hrun : k.scopeRun d body w with
  | error ew =>
    obtain ⟨e, w₁⟩ := ew
    have refused := scopeRun_error hrun
    rw [hrun] at execute
    -- Whether a scope is refused is read off its role, alike on both sides.
    rcases begin_agrees hs h hd with ⟨e', hb, hrole⟩ | ⟨_, _, hb, _⟩
    · obtain ⟨he, rfl⟩ := Prod.mk.inj (refused.symm.trans hb)
      cases he
      rw [execute, Overlay.scope_refused hrole]
      exact ⟨rfl, h⟩
    · cases refused.symm.trans hb
  | ok run =>
    have proper := scopeRun_proper hrun hs hframe
    obtain ⟨_, rfl, began, hb, _⟩ := scopeRun_ok hrun
    rw [hrun] at execute
    rcases begin_agrees hs h hd with ⟨_, refused, _⟩ | ⟨scope, w₁, hb', hrole, hs₁, h₁⟩
    · cases began.symm.trans refused
    · obtain ⟨hscope, rfl⟩ := Prod.mk.inj (began.symm.trans hb')
      cases hscope
      -- The body is evaluated in worlds that agree, and so is the end of the scope.
      obtain ⟨hresult, hleft⟩ := hbody _ _ hs₁ h₁
      rw [hb] at hresult hleft
      obtain ⟨s', hleave, hafter⟩ := proper.agrees h hleft
      rw [execute, Overlay.scope_entered hrole, ← hresult, hleave]
      exact ⟨rfl, hafter⟩

end Coordinator

open Coordinator

namespace Program

variable {k : Coordinator} {w : World} {s : Overlay.State}

/-- From agreement on, a program ends as it does on overlays, sees what it sees there, and leaves
    agreement behind. -/
theorem agrees (p : Program) (hu : p.Untimed) (hs : Sound k w) (h : Agrees k w s) :
    (p.run k w).1 = (p.eval k.policy s).1 ∧ p.observations k w = p.glimpses k.policy s ∧
      Agrees k (p.run k w).2 (p.eval k.policy s).2 := by
  -- Each step keeps the world sound and in agreement; for a scope, the induction hypothesis is
  -- about its body.
  induction p generalizing w s with
  | done result => exact ⟨rfl, rfl, h⟩
  | get key next ih =>
    obtain ⟨hresult, hseen, hafter⟩ := ih (w.read k.resource key) (hu _) hs h
    simp only [observations, glimpses, run, eval]
    rw [← h.read key]
    exact ⟨hresult, congrArg _ hseen, hafter⟩
  | write key value next ih =>
    rcases hw : World.write k.resource key value w with ⟨r, w₁⟩
    have step : Frame k w w₁ := Coordinator.Written.frame (write_eq hw) hs
    obtain ⟨hr, h₁⟩ := h.write key value hw
    obtain ⟨hresult, hseen, hafter⟩ := ih r (hu r) (step.sound hs) h₁
    simp only [observations, glimpses, run, eval, hw, hr]
    exact ⟨hresult, congrArg _ hseen, hafter⟩
  | mark next ih => exact ih hu ((markCurrent_frame hs).sound hs) h.markCurrent
  | wait ms next ih => exact ih hu ((advance_frame ms hs).sound hs) (h.advance ms)
  | execute d body next ihb ihn =>
    obtain ⟨hd, hub, hun⟩ := hu
    have refined : (k.execute d (body.run k) w).1
          = (Overlay.scope k.policy d (body.eval k.policy) s).1 ∧
        Agrees k (k.execute d (body.run k) w).2
          (Overlay.scope k.policy d (body.eval k.policy) s).2 :=
      execute_agrees hs h hd (fun w => body.frame) fun w s hs h =>
        ⟨(ihb hub hs h).1, (ihb hub hs h).2.2⟩
    have step : Frame k w (k.execute d (body.run k) w).2 :=
      (Program.execute d body .done).frame hs
    rcases hx : k.execute d (body.run k) w with ⟨r, w₁⟩
    rcases hy : Overlay.scope k.policy d (body.eval k.policy) s with ⟨r', s₁⟩
    rw [hx, hy] at refined
    rw [hx] at step
    obtain ⟨rfl, h₁⟩ : r = r' ∧ Agrees k w₁ s₁ := refined
    obtain ⟨hresult, hseen, hafter⟩ := ihn r (hun r) (step.sound hs) h₁
    have inside : (Program.execute d body next).observations k w
        = (Program.execute d body next).glimpses k.policy s := by
      simp only [observations, glimpses, hx, hy, hseen]
      -- The body is seen only if the scope is entered, which it is on both sides or on none.
      rcases begin_agrees hs h hd with ⟨e, hb, hrole⟩ | ⟨scope, w₂, hb, hrole, hs₂, h₂⟩
      · rw [hb, hrole]
      · rw [hb, hrole]
        simp only [(ihb hub hs₂ h₂).2.1]
    simp only [run, eval, hx, hy]
    exact ⟨hresult, inside, hafter⟩

/-- **Scopes refine nested overlays.** Without timeouts and faults of the resource, a program that
    is run while no transaction is current sees what it sees on overlays, ends as it does there, and
    leaves the same committed values, starting from those that there are. -/
theorem refines_overlays (p : Program) (hu : p.Untimed) (hw : Idle k w)
    (hf : (w.resource k.resource).Faultless) :
    p.observations k w = p.glimpses k.policy (k.overlays w) ∧
      (p.run k w).1 = (p.eval k.policy (k.overlays w)).1 ∧
      ∀ key, (k.store (p.run k w).2).get? key
        = (p.eval k.policy (k.overlays w)).2.committed key := by
  have start : Agrees k w (k.overlays w) :=
    ⟨hf, fun _ => rfl, rfl, hw.none, fun l hl => by cases hl⟩
  obtain ⟨hresult, hseen, hafter⟩ := p.agrees hu hw.sound start
  exact ⟨hseen, hresult, hafter.committed⟩

/-- An attempt in a nested scope fails, and the code around it reads what is left. -/
def attempt : Program :=
  .execute {} (.write "key" (some (.bool false)) fun _ =>
    .execute { propagation := .nested } (.write "key" (some (.bool true)) fun _ =>
      .done (.error (.failed (.application "attempt failed")))) fun _ =>
    .get "key" fun answer => .done (.ok (answer.getD .null))) .done

theorem attempt_untimed : attempt.Untimed :=
  ⟨rfl, fun _ => ⟨rfl, fun _ => trivial, fun _ _ => trivial⟩, fun _ => trivial⟩

theorem refines_overlays_attempt :
    (attempt.run {} {}).1 = .ok (.bool false) ∧
      (store {} (attempt.run {} {}).2).get? "key" = some (.bool false) := by
  have hw : Idle {} {} :=
    ⟨by intro p; cases p <;> decide, by simp [World.current], rfl⟩
  have hf : (({} : World).resource ({} : Coordinator).resource).Faultless :=
    ⟨by intro p; cases p <;> decide, rfl⟩
  obtain ⟨_, hresult, hstore⟩ := refines_overlays attempt attempt_untimed hw hf
  exact ⟨hresult, hstore "key"⟩

end Program

end ComponentHost
