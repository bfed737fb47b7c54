import ComponentHost.Proofs.Transaction.Bracket

/-! # What callers are told about durability

  A scope that began a transaction of its own ends it, and its caller hears one answer. Whatever
  calls the resource fails on the way, the store then holds all that was pending if the transaction
  was committed, and nothing of it otherwise; and the caller hears of success exactly when the
  transaction was committed and what had been laid aside for it was taken up again.

  So a failure does not mean that nothing was stored. Where another transaction lay suspended, its
  resumption may fail after the commit, and this failure is reported.
-/

namespace ComponentHost

open World Attempt

namespace Coordinator

variable {k : Coordinator} {w w' : World} {t u : TxId} {run : ScopeRun}

/-- The committed values of the coordinated resource. -/
def store (k : Coordinator) (w : World) : Dict String Value :=
  (w.resource k.resource).memory.committed

theorem store_setState (x : TransactionState) : k.store (setState t x w).2 = k.store w := by
  show ((changeTransaction t _ w).2.resource k.resource).memory.committed = _
  rw [changeTransaction_resource, store]

theorem store_uninstall (c : ContextId) : k.store (uninstall c w).2 = k.store w := by
  rw [store, uninstall_resource, store]

theorem store_call {c : Call} {res : Except Error Unit} (h : call k.resource c w = (res, w'))
    (hc : (w.resource k.resource).FailsCleanly) (hn : ∀ t, c ≠ .commit t) :
    k.store w' = k.store w :=
  call_committed h hc hn

/-! ### The end of an owner's part -/

theorem rollback_stored {r : Except Error Unit} (h : k.rollback t w = (r, w'))
    (hc : (w.resource k.resource).FailsCleanly) (hx : w.stateOf t = some .active) :
    w'.stateOf t ≠ some .committed ∧ k.store w' = k.store w := by
  constructor
  -- The state stays active or becomes rolled back.
  · rcases rollback_stateOf h t with hs | ⟨_, hs⟩
    · simp [hs, hx]
    · simp [hs, hx]
  · cases r with
    | error e => exact store_call (rollback_error h) hc (by simp)
    | ok =>
      obtain ⟨w₁, hq, rfl⟩ := rollback_ok h
      rw [store_setState]
      exact store_call hq hc (by simp)

/-- An owner's part ends with a commit, which stores all that was pending and is reported as a
    success, or without one, which stores nothing and is not reported as the success of a scope
    whose work succeeded. -/
theorem Settlement.owner_stored {s : Option TxId} {success : Bool} {r : Except Error Unit}
    {j : Journal} (h : Settlement k w (.owner t s) success r w')
    (hc : (w.resource k.resource).FailsCleanly) (hx : w.stateOf t = some .active)
    (hj : k.journal w t = some j) :
    (success = true ∧ r = .ok () ∧ w'.stateOf t = some .committed ∧
        k.store w' = Memory.apply (k.store w) j.writes) ∨
      ((success = true → r.isOk = false) ∧ w'.stateOf t ≠ some .committed ∧
        k.store w' = k.store w) := by
  cases h with
  | @committed _ _ w₁ _ _ hk =>
    left
    refine ⟨rfl, rfl, ?_, ?_⟩
    · rw [stateOf_setState, if_pos rfl, stateOf_call hk, hx]
      rfl
    · obtain ⟨j', hj', hm⟩ := Memory.perform_commit (Resource.call_ok (call_resource_eq hk))
      obtain rfl : j = j' := Option.some.inj (hj.symm.trans hj')
      rw [store_setState, store, hm, store]
  | @notCommitted _ _ e r w₁ w₂ _ _ hk hr =>
    -- The failed commit changed nothing, and the rollback does not touch the store.
    right
    have hx₁ : w₁.stateOf t = some .active := by rw [stateOf_call hk, hx]
    obtain ⟨hn, hs⟩ := rollback_stored hr (call_clean hk hc) hx₁
    have same : k.store w₁ = k.store w := by
      rw [store, Resource.call_error hc (call_resource_eq hk), store]
    exact ⟨fun _ => rfl, hn, hs.trans same⟩
  | overdue _ hr | marked _ _ hr =>
    right
    obtain ⟨hn, hs⟩ := rollback_stored hr hc hx
    exact ⟨fun _ => rfl, hn, hs⟩
  | rolledBack hr =>
    right
    obtain ⟨hn, hs⟩ := rollback_stored hr hc hx
    exact ⟨fun hf => absurd hf (by simp), hn, hs⟩

/-- The latest call on the resource took a transaction up again, and succeeded. -/
def Resumed (k : Coordinator) (w : World) (t : TxId) : Prop :=
  ∃ e, (w.resource k.resource).log.head? = some e ∧ e.call = .resume t ∧ e.succeeded = true

theorem call_resumed {r : Except Error Unit} (h : call k.resource (.resume t) w = (r, w')) :
    k.Resumed w' t ↔ r.isOk = true := by
  obtain ⟨performed, hl⟩ := Resource.call_log (call_resource_eq h)
  simp [Resumed, hl]

/-! ### What the caller of an owner is told -/

/-- The transaction of a scope is active, with a journal, until the scope ends it. -/
theorem Proper.owner_left (h : Proper k run) {s : Option TxId}
    (hp : run.scope.participation = .owner t s) :
    run.left.stateOf t = some .active ∧ ∃ j, k.journal run.left t = some j ∧ j.Distinct := by
  obtain ⟨w₁, he, hw⟩ := h.entry
  rw [hp] at he hw
  obtain ⟨_, opened⟩ := he.owner h.sound.clean
  have current : run.entered.currentTransaction = some t := by
    rw [hw, inScope_currentTransaction]
    rfl
  have untouched : k.Untouched w₁ run.entered t := by
    rw [hw]
    exact .inScope k _ w₁ t
  -- The body leaves the transaction as it found it, but for what is pending.
  obtain ⟨tx, j, htx, hj, hc⟩ := h.body.own t _ _ current (by rw [untouched.1, opened.record])
    (by rw [untouched.2, opened.journal])
  refine ⟨?_, j, hj, hc.distinct Journal.distinct_empty⟩
  rw [stateOf, htx, hc.record]
  rfl

/-- What there is to be told about the end of an owner. -/
theorem Proper.owner_told (h : Proper k run) {s : Option TxId} {j : Journal}
    (hp : run.scope.participation = .owner t s) (hj : k.journal run.left t = some j) :
    (run.result.isOk = true ∧ run.after.stateOf t = some .committed ∧
        k.store run.after = Memory.apply (k.store run.left) j.writes ∧
        (run.told.isOk = true ↔ ∀ outer, s = some outer → k.Resumed run.after outer)) ∨
      ((run.result.isOk = true → run.told.isOk = false) ∧
        run.after.stateOf t ≠ some .committed ∧ k.store run.after = k.store run.left) := by
  have hx : (uninstall run.scope.context run.left).2.stateOf t = some .active :=
    (h.owner_left hp).1
  have hj' : k.journal (uninstall run.scope.context run.left).2 t = some j := by
    rw [(Untouched.uninstall k _ run.left t).2, hj]
  have hc := uninstalled_clean run.scope.context h.body
  have hf := h.finish
  rw [hp] at hf
  obtain ⟨r₁, w₁, hs, hr⟩ := finish_eq hf
  have hclean := (hs.ended hc).clean
  -- Taking up what lay suspended changes neither the state nor the store.
  have resumed : run.after.stateOf t = w₁.stateOf t ∧ k.store run.after = k.store w₁ := by
    rcases hr with ⟨_, _, rfl⟩ | ⟨outer, r₂, _, hr, _⟩
    · exact ⟨rfl, rfl⟩
    · exact ⟨stateOf_call hr, store_call hr hclean (by simp)⟩
  rw [resumed.1, resumed.2, ← store_uninstall run.scope.context]
  -- The caller hears of the commit, and after it of the resumption.
  rcases hs.owner_stored hc hx hj' with ⟨hsucc, rfl, hstate, hstore⟩ | ⟨hfail, hstate, hstore⟩
  · left
    refine ⟨hsucc, hstate, hstore, ?_⟩
    rcases hr with ⟨hnone, htold, _⟩ | ⟨outer, r₂, hsome, hr, htold⟩
    · have hnone : s = none := hnone
      rw [htold, hnone]
      simp [Except.isOk, Except.toBool]
    · have hsome : s = some outer := hsome
      rw [htold, hsome]
      show r₂.isOk = true ↔ _
      rw [← call_resumed hr]
      exact ⟨fun hq o ho => Option.some.inj ho ▸ hq, fun hq => hq outer rfl⟩
  · right
    refine ⟨?_, hstate, hstore⟩
    intro hok
    have hr₁ := hfail hok
    rcases hr with ⟨_, rfl, _⟩ | ⟨outer, r₂, _, _, htold⟩
    · exact hr₁
    · rw [htold]
      cases r₁ with
      | ok => cases hr₁
      | error e => rfl

end Coordinator

open Coordinator

variable {k : Coordinator} {w : World}

theorem ScopeRun.outcome_isOk (run : ScopeRun) :
    run.outcome.isOk = true ↔ run.result.isOk = true ∧ run.told.isOk = true := by
  unfold outcome
  cases run.result <;> cases run.told <;> simp [Except.isOk, Except.toBool]

/-- **Callers are told the truth about durability.** In every run of a program, for every scope that
    began a transaction: the caller hears of success exactly when the transaction was committed and
    what lay suspended was taken up again; if it was committed, every key has its pending value in
    the store, and all other keys are as they were; if not, the store is as the body left it. -/
theorem Program.owners_tell_the_truth (p : Program) (hw : Idle k w) {o : Occurrence}
    (ho : o ∈ (p.record k w).scopes) {t : TxId} {s : Option TxId}
    (hp : o.run.scope.participation = .owner t s) :
    ∃ j, k.journal o.run.left t = some j ∧
      (o.run.outcome.isOk = true ↔ o.run.after.stateOf t = some .committed ∧
        ∀ outer, s = some outer → k.Resumed o.run.after outer) ∧
      (o.run.after.stateOf t = some .committed → ∀ key, (k.store o.run.after).get? key
        = (j.writes.get? key).getD ((k.store o.run.left).get? key)) ∧
      (o.run.after.stateOf t ≠ some .committed → k.store o.run.after = k.store o.run.left) := by
  have proper := (p.scopes_proper hw.sound o ho).1
  obtain ⟨_, j, hj, hd⟩ := proper.owner_left hp
  refine ⟨j, hj, ?_⟩
  rw [o.run.outcome_isOk]
  -- The owner has committed or it has not, and there is no third outcome.
  rcases proper.owner_told hp hj with ⟨hok, hstate, hstore, htold⟩ | ⟨hfail, hstate, hstore⟩
  · refine ⟨by simp [hok, hstate, htold], ?_, fun hn => absurd hstate hn⟩
    intro _ key
    rw [hstore, Memory.get?_apply hd.1]
  · refine ⟨?_, fun hc => absurd hc hstate, fun _ => hstore⟩
    constructor
    · rintro ⟨hok, htold⟩
      rw [hfail hok] at htold
      cases htold
    · rintro ⟨hc, _⟩
      exact absurd hc hstate

/-! ### A failure after a commit -/

/-- An audit entry is written in a transaction of its own, within another one. -/
def Program.audit : Program :=
  .execute {} (.execute { propagation := .requiresNew }
    (.write "audit" (some (.bool true)) fun _ => .done (.ok .null)) .done) .done

/-- A world whose resource refuses to take a transaction up again, once. -/
def World.refusingResume : World := { main := { schedules := ⟨[(.resume, [⟨1, .refuse⟩])]⟩ } }

theorem World.refusingResume_idle : Idle {} refusingResume :=
  ⟨by intro p; cases p <;> decide, by simp [refusingResume, World.current], rfl⟩

/-- The audit's own transaction is committed, and its caller is told that it failed. -/
theorem Program.audit_failed :
    ∃ o ∈ (audit.record {} World.refusingResume).scopes,
      o.run.scope.participation = .owner ⟨1⟩ (some ⟨0⟩) ∧ o.run.outcome.isOk = false ∧
        o.run.after.stateOf ⟨1⟩ = some .committed := by
  decide +kernel

theorem Program.owners_tell_the_truth_audit :
    ∃ o ∈ (audit.record {} World.refusingResume).scopes, ∃ j,
      journal {} o.run.left ⟨1⟩ = some j ∧ o.run.outcome.isOk = false ∧
        (store {} o.run.after).get? "audit"
          = (j.writes.get? "audit").getD ((store {} o.run.left).get? "audit") := by
  obtain ⟨o, ho, hp, hfailed, hcommitted⟩ := audit_failed
  obtain ⟨j, hj, _, hstored, _⟩ := owners_tell_the_truth audit World.refusingResume_idle ho hp
  exact ⟨o, ho, j, hj, hfailed, hstored hcommitted "audit"⟩

/-- So it is not so that callers hear of success exactly when their transaction was committed. -/
theorem Program.not_ok_iff_committed :
    ¬ ∀ (k : Coordinator) (p : Program) (w : World), Idle k w →
      ∀ o ∈ (p.record k w).scopes, ∀ t s, o.run.scope.participation = .owner t s →
        (o.run.outcome.isOk = true ↔ o.run.after.stateOf t = some .committed) := by
  intro h
  obtain ⟨o, ho, hp, hfailed, hcommitted⟩ := audit_failed
  have ok := (h {} audit World.refusingResume World.refusingResume_idle o ho _ _ hp).mpr hcommitted
  rw [hfailed] at ok
  cases ok

end ComponentHost
