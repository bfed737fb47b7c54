import ComponentHost.Proofs.Transaction.Kept
import Mathlib.Data.List.Nodup

/-! # Failed nested scopes

  When the work of a nested scope fails, its transaction goes back to the savepoint that was set on
  entry, and none of the work is committed. But the resource may refuse to go back. Then the error
  is dropped, the transaction is not marked, and the work is committed with the rest of the
  transaction, unless that goes back behind an outer nested scope, or is not committed at all.

  So the writes of a failed nested scope are committed in exactly one case, which is spelled out
  here. Writes are told apart by the contexts in which they were issued, of which each scope has its
  own.
-/

namespace ComponentHost

open World Attempt Coordinator

/-! ### Each scope has its own context -/

namespace Coordinator.Proper

variable {k : Coordinator} {run : ScopeRun}

theorem after_contexts (h : Proper k run) : run.after.contexts = run.left.contexts := by
  rw [h.ended.2.contexts, uninstall_contexts]

/-- The context of a scope is the first that is made for it. -/
theorem entered_contexts (h : Proper k run) :
    run.scope.context.index = run.before.contexts.size ∧
      run.entered.contexts.size = run.before.contexts.size + 1 ∧
      run.entered.current = some run.scope.context := by
  obtain ⟨w₁, he, hw⟩ := h.entry
  have same : w₁.nextContext = run.before.nextContext := by
    rw [nextContext, he.sameFlow.contexts, nextContext]
  refine ⟨by rw [h.context]; rfl, ?_, ?_⟩
  · rw [hw, inScope_contexts, Array.size_push, he.sameFlow.contexts]
  · rw [hw, inScope_current, h.context, same]

end Coordinator.Proper

namespace ScopeRun

variable {run : ScopeRun}

theorem shares_transaction (hs : run.shares = true) :
    run.scope.participation.transaction.isSome = true := by
  unfold shares at hs
  cases hp : run.scope.participation with
  | owner | apart => rw [hp] at hs; cases hs
  | joined | nested => rfl

/-- A scope that has a transaction and does not share it owns it. -/
theorem owned_eq (hs : run.shares = false)
    (ht : run.scope.participation.transaction.isSome = true) :
    run.owned = run.scope.participation.transaction := by
  unfold shares at hs
  cases hp : run.scope.participation with
  | owner t s => rw [owned, hp]; rfl
  | apart s => rw [hp] at ht; cases ht
  | joined | nested => rw [hp] at hs; cases hs

end ScopeRun

namespace Program

variable {k : Coordinator} {w : World}

/-- What code writes itself it writes in the context that is current around it. -/
theorem issued_context (p : Program) (hs : Sound k w) {wr : WriteRecord}
    (h : wr ∈ (p.record k w).issued) : wr.context = w.current := by
  -- Every scope takes its context off again, so what follows it runs under the same one.
  induction p, w, hs using record_induction with
  | done result w hs => cases h
  | quiet p p' w w₁ hs step hrun hrecord ih =>
    rw [hrecord] at h
    rw [ih h, step.frame.current]
  | wrote p p' key value w w₁ hs step hw hrun hrecord ih =>
    rw [hrecord, Record.issued] at h
    rcases List.mem_cons.mp h with rfl | h
    · rfl
    · rw [ih h, step.current]
  | scope p body p' run proper hbody hrun hrecord ihb ihn =>
    rw [hrecord, Record.issued] at h
    rw [ihn h, proper.frame.current]

/-- The scopes of a program have contexts that are made while it runs, later ones later. -/
theorem scopes_contexts (p : Program) (hs : Sound k w) :
    (∀ o ∈ (p.record k w).scopes, w.contexts.size ≤ o.run.scope.context.index ∧
      o.run.scope.context.index < (p.run k w).2.contexts.size) ∧
      (p.record k w).scopes.Pairwise
        (·.run.scope.context.index < ·.run.scope.context.index) := by
  induction p, w, hs using record_induction with
  | done result w hs => simp [record, Record.scopes]
  | quiet p p' w w₁ hs step hrun hrecord ih =>
    obtain ⟨bounds, sorted⟩ := ih
    have hsize := step.frame.contexts_size
    rw [hrun, hrecord]
    refine ⟨?_, sorted⟩
    intro o ho
    have := bounds o ho
    omega
  | wrote p p' key value w w₁ hs step hw hrun hrecord ih =>
    obtain ⟨bounds, sorted⟩ := ih
    have hsize := step.contexts_size
    rw [hrun, hrecord]
    refine ⟨?_, sorted⟩
    intro o ho
    have := bounds o ho
    omega
  | scope p body p' run proper hbody hrun hrecord ihb ihn =>
    obtain ⟨hcontext, hentered, _⟩ := proper.entered_contexts
    have hafter := congrArg Array.size proper.after_contexts
    have hsize := proper.body.contexts_size
    have hend := (p'.frame (proper.frame.sound proper.sound)).contexts_size
    obtain ⟨inner, innerSorted⟩ := ihb
    obtain ⟨later, laterSorted⟩ := ihn
    simp only [hbody] at inner
    rw [hrun, hrecord]
    -- The scope's own context comes first, then those of the scopes in it, then those of later
    -- ones.
    have innerBounds : ∀ o ∈ (body.record k run.entered).scopes.map (·.under run),
        run.before.contexts.size < o.run.scope.context.index ∧
          o.run.scope.context.index < run.after.contexts.size := by
      intro o ho
      obtain ⟨o', ho', rfl⟩ := List.mem_map.mp ho
      have := inner o' ho'
      simp only [Occurrence.under]
      omega
    constructor
    · intro o ho
      rcases List.mem_cons.mp ho with rfl | ho
      · simp only
        omega
      · rcases List.mem_append.mp ho with ho | ho
        · have := innerBounds o ho
          omega
        · have := later o ho
          omega
    · refine List.pairwise_cons.mpr ⟨?_, List.pairwise_append.mpr
        ⟨List.pairwise_map.mpr innerSorted, laterSorted, ?_⟩⟩
      · intro o ho
        rcases List.mem_append.mp ho with ho | ho
        · have := innerBounds o ho
          simp only
          omega
        · have := later o ho
          simp only
          omega
      · intro o ho o' ho'
        have := innerBounds o ho
        have := later o' ho'
        omega

/-- No two scopes on record have one context. -/
theorem scope_eq_of_context (p : Program) (hs : Sound k w) {o o' : Occurrence}
    (ho : o ∈ (p.record k w).scopes) (ho' : o' ∈ (p.record k w).scopes)
    (hc : o.run.scope.context = o'.run.scope.context) : o = o' := by
  have distinct : ((p.record k w).scopes.map (·.run.scope.context)).Nodup := by
    refine List.pairwise_map.mpr ((p.scopes_contexts hs).2.imp ?_)
    intro o o' hlt he
    rw [he] at hlt
    exact Nat.lt_irrefl _ hlt
  exact List.inj_on_of_nodup_map distinct ho ho' hc

/-! ### The owner around a scope -/

/-- A scope that shares a transaction shares that of the code around the program, as do all scopes
    around it; or it lies in a scope that owns the transaction, with only such scopes between. -/
theorem scopes_enclosed (p : Program) (hs : Sound k w) {n : Occurrence}
    (hn : n ∈ (p.record k w).scopes) (hshares : n.run.shares = true) :
    (n.run.scope.participation.transaction = w.currentTransaction ∧
        ∀ m ∈ n.path, m.shares = true) ∨
      ∃ o ∈ (p.record k w).scopes, o.run.owned = n.run.scope.participation.transaction ∧
        ∃ n' ∈ o.inside.scopes, n'.run = n.run ∧ n'.inside = n.inside ∧
          n.path = o.path ++ o.run :: n'.path ∧ ∀ m ∈ n'.path, m.shares = true := by
  induction p, w, hs using record_induction generalizing n with
  | done result w hs => simp [record, Record.scopes] at hn
  | quiet p p' w w₁ hs step hrun hrecord ih =>
    rw [hrecord] at hn ⊢
    rw [← step.frame.currentTransaction hs]
    exact ih hn hshares
  | wrote p p' key value w w₁ hs step hw hrun hrecord ih =>
    rw [hrecord, Record.scopes] at hn ⊢
    rw [← step.currentTransaction hs]
    exact ih hn hshares
  | scope p body p' run proper hbody hrun hrecord ihb ihn =>
    rw [hrecord, Record.scopes] at hn ⊢
    rcases List.mem_cons.mp hn with rfl | hn
    · exact .inl ⟨proper.shares_current hshares, by simp⟩
    · rcases List.mem_append.mp hn with hn | hn
      · obtain ⟨n₁, hn₁, rfl⟩ := List.mem_map.mp hn
        rcases ihb hn₁ hshares with ⟨ht, hpath⟩ | ⟨o, ho, hown, n', hn', he⟩
        · -- The scopes between share the transaction of this scope, which the code around it
          -- has, too, or which it owns.
          rw [proper.entered_current] at ht
          cases hp : run.shares with
          | true =>
            left
            refine ⟨ht.trans (proper.shares_current hp), ?_⟩
            intro m hm
            rcases List.mem_cons.mp hm with rfl | hm
            · exact hp
            · exact hpath m hm
          | false =>
            right
            refine ⟨_, List.mem_cons_self, ?_, n₁, hn₁, rfl, rfl, rfl, hpath⟩
            exact (ScopeRun.owned_eq hp (ht ▸ ScopeRun.shares_transaction hshares)).trans ht.symm
        · right
          obtain ⟨hrun, hinside, hpath, hbetween⟩ := he
          refine ⟨o.under run, List.mem_cons_of_mem _ (List.mem_append_left _
            (List.mem_map_of_mem ho)), hown, n', hn', hrun, hinside, ?_, hbetween⟩
          simp only [Occurrence.under, hpath, List.cons_append]
      · rw [← proper.frame.currentTransaction proper.sound]
        rcases ihn hn hshares with hl | ⟨o, ho, hr⟩
        · exact .inl hl
        · exact .inr ⟨o, List.mem_cons_of_mem _ (List.mem_append_right _ ho), hr⟩

/-- What a program writes in a scope itself it writes in the context of the scope. -/
theorem scope_issued_context (p : Program) (hs : Sound k w) {o : Occurrence}
    (ho : o ∈ (p.record k w).scopes) {wr : WriteRecord} (h : wr ∈ o.inside.issued) :
    wr.context = some o.run.scope.context := by
  obtain ⟨proper, body, _, hrecord⟩ := p.scopes_proper hs o ho
  rw [← hrecord] at h
  rw [body.issued_context proper.entered_sound h, proper.entered_contexts.2.2]

end Program

/-! ### What is kept until a commit -/

/-- The writes that are made durable at the end of a scope: those that its transaction has kept, if
    the scope owns one and it is committed. A write is among them even where a later one has
    overwritten its value. -/
def Occurrence.keptAtCommit (o : Occurrence) : List WriteRecord :=
  match o.run.owned with
  | some t => if o.run.after.stateOf t = some .committed then o.inside.kept else []
  | none => []

theorem Occurrence.mem_keptAtCommit {o : Occurrence} {t : TxId} (ho : o.run.owned = some t)
    {wr : WriteRecord} :
    wr ∈ o.keptAtCommit ↔ o.run.after.stateOf t = some .committed ∧ wr ∈ o.inside.kept := by
  simp only [keptAtCommit, ho]
  split
  · next hc => simp [hc]
  · next hc => simp [hc]

namespace Program

variable {k : Coordinator} {w : World} {t : TxId}

/-- At the end of an owner, the writes that were kept until the commit are made in the store one
    after the other, and nothing else is. -/
theorem keptAtCommit_stored (p : Program) (hs : Sound k w) {o : Occurrence}
    (ho : o ∈ (p.record k w).scopes) (howned : o.run.owned = some t) (key : String) :
    (k.store o.run.after).get? key = (replayOn (k.store o.run.left) o.keptAtCommit).get? key := by
  obtain ⟨proper, body, hbody, hrecord⟩ := p.scopes_proper hs o ho
  obtain ⟨s, hp⟩ : ∃ s, o.run.scope.participation = .owner t s := by
    unfold ScopeRun.owned at howned
    cases hp : o.run.scope.participation with
    | owner t' s => rw [hp] at howned; cases howned; exact ⟨s, rfl⟩
    | joined | nested | apart => rw [hp] at howned; cases howned
  have current : o.run.entered.currentTransaction = some t := by
    rw [proper.entered_current, hp]
    rfl
  -- The owner has opened the transaction, so its journal was empty as the body began.
  have journal : k.journal o.run.entered t = some {} := by
    obtain ⟨w₁, he, hw⟩ := proper.entry
    rw [(Proper.entered_untouched hw t).2]
    rw [hp] at he
    exact (he.owner proper.sound.clean).2.journal
  obtain ⟨j, hj, hwrites⟩ := body.kept_pending proper.entered_sound current journal
  rw [hbody] at hj
  rw [hrecord] at hwrites
  simp only [Occurrence.keptAtCommit, howned]
  -- The journal has the writes that were kept, and they are stored by the commit only.
  rcases proper.owner_told hp hj with ⟨_, hstate, hstore, _⟩ | ⟨_, hstate, hstore⟩
  · rw [if_pos hstate, hstore, hwrites]
    exact Writes.get?_apply_replay _ _ key
  · rw [if_neg hstate, hstore]
    rfl

end Program

/-! ### When failed nested work is kept -/

namespace Coordinator.Proper

variable {k : Coordinator} {run : ScopeRun} {t : TxId} {name : String} {mark : Bool}

/-- At the end of a nested scope whose work failed, the resource is asked to go back to the
    savepoint that was set for it; whether it did is what the end of the scope is told. -/
theorem nested_failed_call (h : Proper k run)
    (hp : run.scope.participation = .nested t name mark) (hfail : run.result.isOk = false) :
    ∃ e, (run.after.resource k.resource).log.head? = some e ∧
      e.call = .rollbackToSavepoint t name ∧ e.succeeded = run.told.isOk := by
  have hf := h.finish
  rw [hp, hfail] at hf
  -- The call about the savepoint is the last thing that the resource has logged.
  have logged {w w' : World} {r : Except Error Unit}
      (hq : call k.resource (.rollbackToSavepoint t name) w = (r, w')) :
      ∃ e, (w'.resource k.resource).log.head? = some e ∧
        e.call = .rollbackToSavepoint t name ∧ e.succeeded = r.isOk := by
    obtain ⟨performed, hl⟩ := Resource.call_log (call_resource_eq hq)
    exact ⟨_, by rw [hl]; rfl, rfl, rfl⟩
  generalize run.told = r at hf
  generalize run.after = w' at hf
  cases finish_settlement hf rfl with
  | undone hr =>
    rw [setRollbackOnly, changeTransaction_resource]
    exact logged hr
  | notUndone hr => exact logged hr

theorem nested_undone_iff (hp : run.scope.participation = .nested t name mark)
    (hfail : run.result.isOk = false) : run.undone = run.told.isOk := by
  rw [ScopeRun.undone, hp, hfail]
  rfl

end Coordinator.Proper

namespace Program

variable {k : Coordinator} {w : World} {t : TxId} {name : String} {mark : Bool}

/-- A scope within an owner's has its writes kept until the commit exactly if the owner's
    transaction is committed and did not go back behind the scope or one of those between. -/
theorem mem_keptAtCommit_iff (p : Program) (hs : Sound k w) {o n : Occurrence}
    (ho : o ∈ (p.record k w).scopes) (howned : o.run.owned = some t)
    (hn : n ∈ o.inside.scopes) :
    (∃ wr ∈ o.keptAtCommit, wr.context = some n.run.scope.context) ↔
      o.run.after.stateOf t = some .committed ∧ n.survives = true ∧ n.inside.issued ≠ [] := by
  obtain ⟨proper, body, _, hrecord⟩ := p.scopes_proper hs o ho
  have hsound := proper.entered_sound
  rw [← hrecord] at hn
  constructor
  · rintro ⟨wr, hwr, hcontext⟩
    obtain ⟨hcommitted, hkept⟩ := (Occurrence.mem_keptAtCommit howned).mp hwr
    rw [← hrecord] at hkept
    rcases (Record.mem_kept _).mp hkept with hissued | ⟨b, hb, hsurvives, hissued⟩
    · -- The owner's own writes were issued in its own context, which came earlier.
      have hc := (body.issued_context hsound hissued).symm.trans hcontext
      obtain ⟨hindex, hsize, hcurrent⟩ := proper.entered_contexts
      have hc : o.run.scope.context = n.run.scope.context :=
        Option.some.inj (hcurrent.symm.trans hc)
      have hbound := ((body.scopes_contexts hsound).1 n hn).1
      rw [← hc] at hbound
      omega
    · -- The write was issued in a scope that survives, and its context says in which.
      have hc : b.run.scope.context = n.run.scope.context :=
        Option.some.inj ((body.scope_issued_context hsound hb hissued).symm.trans hcontext)
      obtain rfl : b = n := body.scope_eq_of_context hsound hb hn hc
      exact ⟨hcommitted, hsurvives, List.ne_nil_of_mem hissued⟩
  · rintro ⟨hcommitted, hsurvives, hissued⟩
    obtain ⟨wr, hwr⟩ := List.exists_mem_of_ne_nil _ hissued
    refine ⟨wr, (Occurrence.mem_keptAtCommit howned).mpr ⟨hcommitted, ?_⟩,
      body.scope_issued_context hsound hn hwr⟩
    rw [← hrecord]
    exact (Record.mem_kept _).mpr (.inr ⟨n, hn, hsurvives, hwr⟩)

/-- **When failed nested work is kept.** In every run of a program, every nested scope whose work
    failed lies in a scope that owns its transaction, and at whose end the writes that were kept
    until the commit, and nothing else, are made in the store, one after the other. Its end asks the
    resource to go back to its savepoint. None of the writes that it issued itself is kept until the
    commit if and only if the resource did go back, or the transaction was not committed, or it went
    back behind a nested scope in between, or there are no such writes. -/
theorem failed_nested_not_kept_iff (p : Program) (hw : Idle k w) {n : Occurrence}
    (hn : n ∈ (p.record k w).scopes) (hp : n.run.scope.participation = .nested t name mark)
    (hfail : n.run.result.isOk = false) :
    ∃ o ∈ (p.record k w).scopes, ∃ between, o.run.owned = some t ∧
      n.path = o.path ++ o.run :: between ∧
      (∀ key, (k.store o.run.after).get? key
        = (replayOn (k.store o.run.left) o.keptAtCommit).get? key) ∧
      (∃ e, (n.run.after.resource k.resource).log.head? = some e ∧
        e.call = .rollbackToSavepoint t name ∧ e.succeeded = n.run.told.isOk) ∧
      ((∀ wr ∈ o.keptAtCommit, wr.context ≠ some n.run.scope.context) ↔
        n.run.told.isOk = true ∨ o.run.after.stateOf t ≠ some .committed ∨
          (∃ m ∈ between, m.undone = true) ∨ n.inside.issued = []) := by
  have hs := hw.sound
  have hshares : n.run.shares = true := by rw [ScopeRun.shares, hp]
  rcases p.scopes_enclosed hs hn hshares with ⟨ht, _⟩ | ⟨o, ho, hown, n', hn', hrun, hinside,
    hpath, hbetween⟩
  · rw [hp, hw.none] at ht
    cases ht
  have howned : o.run.owned = some t := by rw [hown, hp]; rfl
  have proper := (p.scopes_proper hs n hn).1
  refine ⟨o, ho, n'.path, howned, hpath, p.keptAtCommit_stored hs ho howned,
    proper.nested_failed_call hp hfail, ?_⟩
  have hiff := p.mem_keptAtCommit_iff hs ho howned hn'
  rw [hrun, hinside] at hiff
  have hsurvives : n'.survives = true ↔
      (∀ m ∈ n'.path, m.undone = false) ∧ n.run.told.isOk = false := by
    have undone := Proper.nested_undone_iff hp hfail
    simp only [Occurrence.survives, List.all_append, List.all_cons, List.all_nil, Bool.and_true,
      Bool.and_eq_true, List.all_eq_true, Bool.not_eq_true', hrun, hshares, undone, true_and]
    constructor
    · rintro ⟨hall, htold⟩
      exact ⟨fun m hm => (hall m hm).2, htold⟩
    · rintro ⟨hall, htold⟩
      exact ⟨fun m hm => ⟨hbetween m hm, hall m hm⟩, htold⟩
  rw [hsurvives] at hiff
  -- The reasons are gone through one by one; without any of them the writes are kept.
  constructor
  · intro hnone
    by_cases htold : n.run.told.isOk = true
    · exact .inl htold
    by_cases hc : o.run.after.stateOf t = some .committed
    · by_cases hm : ∃ m ∈ n'.path, m.undone = true
      · exact .inr (.inr (.inl hm))
      by_cases hi : n.inside.issued = []
      · exact .inr (.inr (.inr hi))
      have hm (m : ScopeRun) (hmem : m ∈ n'.path) : m.undone = false :=
        Bool.eq_false_iff.mpr fun h => hm ⟨m, hmem, h⟩
      obtain ⟨wr, hwr, hcontext⟩ :=
        hiff.mpr ⟨hc, ⟨hm, Bool.eq_false_iff.mpr htold⟩, hi⟩
      exact absurd hcontext (hnone wr hwr)
    · exact .inr (.inl hc)
  · intro hreason wr hwr hcontext
    obtain ⟨hc, ⟨hm, htold⟩, hi⟩ := hiff.mp ⟨wr, hwr, hcontext⟩
    rcases hreason with h | h | ⟨m, hmem, h⟩ | h
    · rw [htold] at h; cases h
    · exact h hc
    · rw [hm m hmem] at h; cases h
    · exact hi h

/-! ### Failed nested work that is committed -/

/-- A nested scope writes and fails, and the code around it goes on. -/
def caughtFailure : Program :=
  .execute {} (.execute { propagation := .nested }
    (.write "inside" (some (.bool true)) fun _ =>
      .done (.error (.failed (.application "nested work failed"))))
    fun _ => .done (.ok .null)) .done

end Program

/-- A world whose resource refuses to go back to a savepoint, once. -/
def World.refusingRollback : World :=
  { main := { schedules := ⟨[(.rollbackToSavepoint, [⟨1, .refuse⟩])]⟩ } }

theorem World.refusingRollback_idle : Idle {} refusingRollback :=
  ⟨by intro p; cases p <;> decide, by simp [refusingRollback, World.current], rfl⟩

namespace Program

/-- The nested scope fails, and its write is in the store afterwards. -/
theorem caughtFailure_stored :
    (store {} (caughtFailure.run {} World.refusingRollback).2).get? "inside" = some (.bool true) ∧
      ∃ n ∈ (caughtFailure.record {} World.refusingRollback).scopes,
        n.run.scope.participation = .nested ⟨0⟩ "SAVEPOINT_1" false ∧ n.run.result.isOk = false ∧
          ∃ o ∈ (caughtFailure.record {} World.refusingRollback).scopes,
            o.run.owned = some ⟨0⟩ ∧
            ∃ wr ∈ o.keptAtCommit, wr.context = some n.run.scope.context := by
  decide +kernel

theorem failed_nested_not_kept_iff_caughtFailure :
    ∃ n ∈ (caughtFailure.record {} World.refusingRollback).scopes,
      n.run.scope.participation = .nested ⟨0⟩ "SAVEPOINT_1" false ∧ n.run.result.isOk = false ∧
        ∃ o ∈ (caughtFailure.record {} World.refusingRollback).scopes, ∃ between,
          o.run.owned = some ⟨0⟩ ∧ n.path = o.path ++ o.run :: between ∧
          ((∀ wr ∈ o.keptAtCommit, wr.context ≠ some n.run.scope.context) ↔
            n.run.told.isOk = true ∨ o.run.after.stateOf ⟨0⟩ ≠ some .committed ∨
              (∃ m ∈ between, m.undone = true) ∨ n.inside.issued = []) := by
  obtain ⟨_, n, hn, hp, hfail, _⟩ := caughtFailure_stored
  obtain ⟨o, ho, between, howned, hpath, _, _, hiff⟩ :=
    failed_nested_not_kept_iff caughtFailure World.refusingRollback_idle hn hp hfail
  exact ⟨n, hn, hp, hfail, o, ho, between, howned, hpath, hiff⟩

/-- So it is not so that the work of a failed nested scope is never kept until the commit. -/
theorem failed_nested_kept :
    ¬ ∀ (k : Coordinator) (p : Program) (w : World), Idle k w →
      ∀ n ∈ (p.record k w).scopes, ∀ t name mark,
        n.run.scope.participation = .nested t name mark → n.run.result.isOk = false →
        ∀ o ∈ (p.record k w).scopes, o.run.owned = some t →
          ∀ wr ∈ o.keptAtCommit, wr.context ≠ some n.run.scope.context := by
  intro h
  obtain ⟨_, n, hn, hp, hfail, o, ho, howned, wr, hwr, hcontext⟩ := caughtFailure_stored
  exact h {} caughtFailure World.refusingRollback World.refusingRollback_idle n hn _ _ _ hp hfail
    o ho howned wr hwr hcontext

end Program

end ComponentHost
