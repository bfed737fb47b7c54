import ComponentHost.Proofs.Transaction.Durability

/-! # What a transaction keeps

  Every write that is taken was issued in some context, that of the innermost scope around it. A
  transaction keeps the writes that were issued in its own scopes, joined and nested ones included,
  apart from those in nested scopes that it went back behind. What is pending in its journal is the
  writes that it keeps, one after the other, and a commit replays them on the store.
-/

namespace ComponentHost

open World Attempt

/-- A write that was taken. -/
structure WriteRecord where
  /-- The context that was current. -/
  context : Option ContextId
  key : String
  /-- The new value; none where the key was deleted. -/
  value : Option Value
  deriving DecidableEq

namespace ScopeRun

/-- The scope runs in the transaction of the code around it. -/
def shares (run : ScopeRun) : Bool :=
  match run.scope.participation with
  | .joined _ | .nested _ _ _ => true
  | .owner _ _ | .apart _ => false

/-- The scope is nested, its work failed, and the transaction went back behind it. -/
def undone (run : ScopeRun) : Bool :=
  match run.scope.participation with
  | .nested _ _ _ => !run.result.isOk && run.told.isOk
  | .joined _ | .owner _ _ | .apart _ => false

end ScopeRun

/-- The scope and all scopes around it, as far as they are on record, share one transaction, and it
    went back behind none of them. -/
def Occurrence.survives (o : Occurrence) : Bool :=
  (o.path ++ [o.run]).all fun run => run.shares && !run.undone

namespace Record

/-- The writes that code issued itself, and not in an inner scope. -/
def issued : Record → List WriteRecord
  | done => []
  | wrote context key value rest => ⟨context, key, value⟩ :: rest.issued
  | scope _ _ rest => rest.issued

/-- The writes that are pending in the transaction of the code when it is through. -/
def kept : Record → List WriteRecord
  | done => []
  | wrote context key value rest => ⟨context, key, value⟩ :: rest.kept
  | scope run inside rest => (if run.shares && !run.undone then inside.kept else []) ++ rest.kept

/-- The scopes on record come one by one: a scope, those in it, and those after it. -/
theorem exists_mem_scopes {P : Occurrence → Prop} {run : ScopeRun} {inside rest : Record} :
    (∃ o ∈ (scope run inside rest).scopes, P o) ↔
      P ⟨run, inside, []⟩ ∨ (∃ o ∈ inside.scopes, P (o.under run)) ∨ ∃ o ∈ rest.scopes, P o := by
  simp only [scopes, List.mem_cons, List.mem_append, List.mem_map]
  constructor
  · rintro ⟨o, rfl | ⟨o', ho', rfl⟩ | ho, hP⟩
    · exact .inl hP
    · exact .inr (.inl ⟨o', ho', hP⟩)
    · exact .inr (.inr ⟨o, ho, hP⟩)
  · rintro (hP | ⟨o, ho, hP⟩ | ⟨o, ho, hP⟩)
    · exact ⟨_, .inl rfl, hP⟩
    · exact ⟨_, .inr (.inl ⟨o, ho, rfl⟩), hP⟩
    · exact ⟨o, .inr (.inr ho), hP⟩

/-- A write is kept if the code issued it itself, or if it was issued in a scope that survives. -/
theorem mem_kept {wr : WriteRecord} (r : Record) :
    wr ∈ r.kept ↔ wr ∈ r.issued ∨ ∃ o ∈ r.scopes, o.survives = true ∧ wr ∈ o.inside.issued := by
  induction r with
  | done => simp [kept, issued, scopes]
  | wrote context key value rest ih =>
    rw [kept, issued, List.mem_cons, List.mem_cons, ih, or_assoc]
    rfl
  | scope run inside rest ihi ihr =>
    have here : (⟨run, inside, []⟩ : Occurrence).survives = (run.shares && !run.undone) := by
      simp [Occurrence.survives]
    have under (o : Occurrence) :
        (o.under run).survives = (run.shares && !run.undone && o.survives) := by
      simp only [Occurrence.survives, Occurrence.under, List.cons_append, List.all_cons]
    -- What is kept of a scope is what it issued itself, and what scopes in it did, if they survive.
    have inner : wr ∈ (if run.shares && !run.undone then inside.kept else []) ↔
        (⟨run, inside, []⟩ : Occurrence).survives = true ∧ wr ∈ inside.issued ∨
          ∃ o ∈ inside.scopes, (o.under run).survives = true ∧ wr ∈ o.inside.issued := by
      simp only [here, under]
      cases run.shares && !run.undone with
      | false => simp
      | true => simp [ihi]
    rw [kept, issued, List.mem_append, inner, ihr, exists_mem_scopes]
    constructor
    · rintro ((hi | ho) | hi | ho)
      · exact .inr (.inl hi)
      · exact .inr (.inr (.inl ho))
      · exact .inl hi
      · exact .inr (.inr (.inr ho))
    · rintro (hi | hi | ho | ho)
      · exact .inr (.inl hi)
      · exact .inl (.inl hi)
      · exact .inl (.inr ho)
      · exact .inr (.inr ho)

end Record

/-! ### Replaying writes -/

/-- Pending writes with more writes added one after the other. -/
def Writes.replay (writes : Writes) (ws : List WriteRecord) : Writes :=
  ws.foldl (fun writes wr => writes.insert wr.key wr.value) writes

/-- A store in which writes are made one after the other. -/
def replayOn (store : Dict String Value) (ws : List WriteRecord) : Dict String Value :=
  ws.foldl (fun store wr => store.set wr.key wr.value) store

namespace Writes

theorem replay_append (writes : Writes) (ws ws' : List WriteRecord) :
    writes.replay (ws ++ ws') = (writes.replay ws).replay ws' := List.foldl_append

theorem nodup_keys_replay {writes : Writes} (h : writes.keys.Nodup) (ws : List WriteRecord) :
    (writes.replay ws).keys.Nodup := by
  induction ws generalizing writes with
  | nil => exact h
  | cons wr ws ih => exact ih (Dict.nodup_keys_insert h)

/-- Under every key, the last write to it decides, both in the journal and in the store. -/
theorem getD_get?_replay {writes : Writes} {store store' : Dict String Value} {key : String}
    (h : store'.get? key = (writes.get? key).getD (store.get? key)) (ws : List WriteRecord) :
    ((writes.replay ws).get? key).getD (store.get? key) = (replayOn store' ws).get? key := by
  -- Journal and store are written in step, so that they agree under each key all along.
  induction ws generalizing writes store' with
  | nil => exact h.symm
  | cons wr ws ih =>
    apply ih
    rw [Dict.get?_set, Dict.get?_insert]
    by_cases hk : key = wr.key
    · simp [hk]
    · rw [if_neg hk, if_neg hk, h]

/-- Committing writes that were made one after the other is making them one after the other. -/
theorem get?_apply_replay (store : Dict String Value) (ws : List WriteRecord) (key : String) :
    (Memory.apply store (Writes.replay {} ws)).get? key = (replayOn store ws).get? key := by
  rw [Memory.get?_apply (nodup_keys_replay Dict.nodup_keys_empty ws)]
  exact getD_get?_replay rfl ws

end Writes

/-! ### Journals hold what is kept -/

namespace Coordinator

variable {k : Coordinator} {w : World} {t u : TxId} {run : ScopeRun}

namespace Proper

theorem entered_untouched {w₁ : World} (hw : run.entered = w₁.inScope run.scope.participation)
    (u : TxId) : k.Untouched w₁ run.entered u := by
  rw [hw]
  exact .inScope k _ w₁ u

/-- The code of a scope runs in the scope's transaction. -/
theorem entered_current (h : Proper k run) :
    run.entered.currentTransaction = run.scope.participation.transaction := by
  obtain ⟨w₁, _, hw⟩ := h.entry
  rw [hw, inScope_currentTransaction]

/-- A scope that shares a transaction shares that of the code around it. -/
theorem shares_current (h : Proper k run) (hs : run.shares = true) :
    run.scope.participation.transaction = run.before.currentTransaction := by
  obtain ⟨w₁, he, _⟩ := h.entry
  unfold ScopeRun.shares at hs
  cases hp : run.scope.participation with
  | owner | apart => rw [hp] at hs; cases hs
  | joined t => rw [hp] at he; exact he.joined_eq.1.symm
  | nested t name mark => rw [hp] at he; exact he.nested_current.symm

/-- A scope that does not share the current transaction leaves it alone. -/
theorem untouched (h : Proper k run) (hc : run.before.currentTransaction = some t)
    (hs : run.shares = false) : k.Untouched run.before run.after t := by
  obtain ⟨w₁, he, hw⟩ := h.entry
  have hb := h.body
  have hf := h.finish
  rw [hw] at hb
  rw [h.context] at hf
  -- A transaction that the scope opened is another one, for this one was known before.
  have hlt := h.sound.lt_size hc
  cases hp : run.scope.participation with
  | joined | nested => rw [ScopeRun.shares, hp] at hs; cases hs
  | owner t' s =>
    rw [hp] at he hb hf
    obtain ⟨_, opened⟩ := he.owner h.sound.clean
    have hne : t ≠ t' := by rw [opened.fresh]; exact ne_nextTx hlt
    exact scope_untouched hb hf (opened.others t hne) (by rw [opened.size]; omega)
      fun he => hne (Option.some.inj he).symm
  | apart s =>
    rw [hp] at he hb hf
    obtain ⟨_, hsize, hu⟩ := he.apart h.sound.clean
    exact scope_untouched hb hf (hu t) (by rw [hsize]; exact hlt)
      (by simp [Participation.transaction])

/-- What a scope leaves pending in the current transaction, given what its body adds to what is
    pending. -/
theorem kept (h : Proper k run) {j : Journal} (hc : run.before.currentTransaction = some t)
    (hj : k.journal run.before t = some j) {ws : List WriteRecord}
    (hb : ∀ t j, run.entered.currentTransaction = some t → k.journal run.entered t = some j →
      ∃ j', k.journal run.left t = some j' ∧ j'.writes = j.writes.replay ws) :
    ∃ j', k.journal run.after t = some j' ∧
      j'.writes = j.writes.replay (if run.shares && !run.undone then ws else []) := by
  obtain ⟨w₁, he, hw⟩ := h.entry
  have body := h.body
  have hf := h.finish
  rw [hw] at body
  rw [h.context] at hf
  obtain ⟨tx, _, htx, _⟩ := h.sound.enlisted t hc
  have current := h.entered_current
  cases hp : run.scope.participation with
  | owner t' s =>
    have hs : run.shares = false := by rw [ScopeRun.shares, hp]
    exact ⟨j, by rw [(h.untouched hc hs).2, hj], by rw [hs]; rfl⟩
  | apart s =>
    have hs : run.shares = false := by rw [ScopeRun.shares, hp]
    exact ⟨j, by rw [(h.untouched hc hs).2, hj], by rw [hs]; rfl⟩
  -- What the body has written has gone to the journal of the transaction it joined.
  | joined t' =>
    rw [hp] at he body hf current
    obtain ⟨hc', rfl⟩ := he.joined_eq
    obtain rfl : t = t' := Option.some.inj (hc.symm.trans hc')
    have hs : (run.shares && !run.undone) = true := by simp [ScopeRun.shares, ScopeRun.undone, hp]
    obtain ⟨j', hj', hw'⟩ := hb t j current (by rw [(entered_untouched hw t).2, hj])
    obtain ⟨_, j₂, _, _, hj₂, _, _, hj₃⟩ := scope_joined_eq body hf htx hj
    obtain rfl : j' = j₂ := Option.some.inj (hj'.symm.trans hj₂)
    exact ⟨j', hj₃, by rw [hs]; exact hw'⟩
  -- The body's writes are on top of the savepoint; they stay, or the savepoint is restored.
  | nested t' name mark =>
    have htold : run.undone = (!run.result.isOk && run.told.isOk) := by simp [ScopeRun.undone, hp]
    have hs : run.shares = true := by simp [ScopeRun.shares, hp]
    rw [hp] at he body hf current
    obtain rfl : t = t' := Option.some.inj (hc.symm.trans he.nested_current)
    obtain ⟨_, _, _, forked⟩ := he.nested_forked h.sound.clean htx hj
    obtain ⟨j', hj', hw'⟩ := hb t _ current (by rw [(entered_untouched hw t).2, forked.journal])
    have hw' : j'.writes = j.writes.replay ws := hw'
    obtain ⟨_, j₂, _, hj₂, _, _, hj₃⟩ := scope_nested_eq he h.sound body hf htx hj
    obtain rfl : j' = j₂ := Option.some.inj (hj'.symm.trans hj₂)
    refine ⟨_, hj₃, ?_⟩
    rw [hs, htold]
    cases run.told with
    | error e => simpa [Except.isOk, Except.toBool] using hw'
    | ok =>
      cases run.result with
      | ok v => simpa [Except.isOk, Except.toBool] using hw'
      | error stop => simp [Except.isOk, Except.toBool, Writes.replay]

end Proper

end Coordinator

open Coordinator

namespace Program

variable {k : Coordinator} {w : World} {t : TxId}

/-- After a program, the writes that it keeps are pending in its transaction, on top of those that
    were pending before. -/
theorem kept_pending (p : Program) (hs : Sound k w) {j : Journal}
    (ht : w.currentTransaction = some t) (hj : k.journal w t = some j) :
    ∃ j', k.journal (p.run k w).2 t = some j' ∧
      j'.writes = j.writes.replay (p.record k w).kept := by
  induction p, w, hs using record_induction generalizing t j with
  | done result w hs => exact ⟨j, hj, rfl⟩
  | quiet p p' w w₁ hs step hrun hrecord ih =>
    rw [hrun, hrecord]
    exact ih (by rw [step.frame.currentTransaction hs, ht]) (step.pending t j ht hj)
  | wrote p p' key value w w₁ hs step hw hrun hrecord ih =>
    have hj₁ : k.journal w₁ t = some (j.write key value) := by
      cases write_eq hw with
      | atOnce hn =>
        rw [hn] at ht
        cases ht
      | @pending t' j' hc _ hj' =>
        obtain rfl : t = t' := Option.some.inj (ht.symm.trans hc)
        obtain rfl : j = j' := Option.some.inj (hj.symm.trans hj')
        rw [journal, setMemory_resource, Dict.get?_insert_self]
    obtain ⟨j', hj', hw'⟩ := ih (by rw [step.currentTransaction hs, ht]) hj₁
    rw [hrun, hrecord]
    exact ⟨j', hj', hw'⟩
  | scope p body p' run proper hbody hrun hrecord ihb ihn =>
    -- The body adds to what is pending in its own transaction, and the scope keeps that or not.
    obtain ⟨j₁, hj₁, hw₁⟩ := proper.kept ht hj fun t j ht hj => by
      have := ihb ht hj
      rwa [hbody] at this
    have ht₁ : run.after.currentTransaction = some t := by
      rw [proper.frame.currentTransaction proper.sound, ht]
    obtain ⟨j₂, hj₂, hw₂⟩ := ihn ht₁ hj₁
    rw [hrun, hrecord, Record.kept]
    exact ⟨j₂, hj₂, by rw [hw₂, hw₁, Writes.replay_append]⟩

end Program

end ComponentHost
