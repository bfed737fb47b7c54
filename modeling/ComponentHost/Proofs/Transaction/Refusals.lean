import ComponentHost.Proofs.Task.Immediate
import ComponentHost.Proofs.Transaction.Course
import ComponentHost.Proofs.Transaction.Suspensions

/-! # Scopes that are refused

  A scope can be refused for many reasons: there is no transaction or there is one, its time is up,
  its isolation is another one, or a call on the resource fails, be it the first one or after others
  have succeeded. Whatever the reason, the refusal leaves no trace but the calls themselves and at
  most one name of a savepoint:

  - `Futile` says of some calls in a row that they led nowhere; calls that fail, and calls that lay
    a transaction aside or take it up, are of this kind, and they can be put together;
  - `Entry.refused_futile` goes through the refusals, each with its own sequence of calls;
  - `Untroubled` is what a refusal leaves of a world, and `refused_untroubled` proves it for each of
    the ways to run code in a scope.
-/

namespace ComponentHost

open World Attempt HasWorld

namespace Coordinator

variable {k : Coordinator} {d : TransactionDefinition} {w w' w₁ w₂ : World} {t u : TxId}
  {c : Call} {e : Error} {calls calls' : List CallRecord}

/-! ### Calls that lead nowhere -/

/-- Between two worlds these calls were made on the resource of a coordinator, the latest first, and
    apart from that both resources are as they were. -/
structure Futile (k : Coordinator) (w : World) (calls : List CallRecord) (w' : World) : Prop where
  clean : (w'.resource k.resource).FailsCleanly
  memory : ∀ i, (w'.resource i).memory = (w.resource i).memory
  others : ∀ i, i ≠ k.resource → w'.resource i = w.resource i
  log : (w'.resource k.resource).log = calls ++ (w.resource k.resource).log

namespace Futile

/-- Code that leaves the resources alone makes no call. -/
theorem none (hc : (w.resource k.resource).FailsCleanly)
    (h : ∀ i, w'.resource i = w.resource i) : Futile k w [] w' :=
  ⟨by rwa [h], fun i => by rw [h], fun i _ => h i, by rw [h]; rfl⟩

theorem trans (h : Futile k w calls w₁) (h' : Futile k w₁ calls' w') :
    Futile k w (calls' ++ calls) w' where
  clean := h'.clean
  memory i := (h'.memory i).trans (h.memory i)
  others i hi := (h'.others i hi).trans (h.others i hi)
  log := by rw [h'.log, h.log, List.append_assoc]

/-- A call leads nowhere if the memory is as it was. -/
theorem of_call {res : Except Error Unit} (hc : (w.resource k.resource).FailsCleanly)
    (h : call k.resource c w = (res, w'))
    (same : (w'.resource k.resource).memory = (w.resource k.resource).memory) :
    ∃ performed, Futile k w [⟨c, performed, res.isOk⟩] w' := by
  obtain ⟨performed, log⟩ := Resource.call_log (call_resource_eq h)
  have others (i : ResourceId) (hi : i ≠ k.resource) : w'.resource i = w.resource i := by
    rw [call_eq_setResource h, resource_setResource, if_neg hi]
  refine ⟨performed, call_clean h hc, ?_, others, log⟩
  intro i
  by_cases hi : i = k.resource
  · rw [hi, same]
  · rw [others i hi]

/-- A call that fails leads nowhere. -/
theorem of_error (hc : (w.resource k.resource).FailsCleanly)
    (h : call k.resource c w = (.error e, w')) :
    ∃ performed, Futile k w [⟨c, performed, false⟩] w' :=
  of_call hc h (Resource.call_error hc (call_resource_eq h))

/-- A call that lays a transaction aside or takes it up leads nowhere, whatever becomes of it. -/
theorem of_hook {res : Except Error Unit} (hk : c.isHook = true)
    (hc : (w.resource k.resource).FailsCleanly) (h : call k.resource c w = (res, w')) :
    ∃ performed, Futile k w [⟨c, performed, res.isOk⟩] w' := by
  apply of_call hc h
  cases res with
  | error e => exact Resource.call_error hc (call_resource_eq h)
  | ok _ =>
    have performed := Resource.call_ok (call_resource_eq h)
    cases c with
    | suspend t | resume t => exact (Except.ok.inj performed).symm
    | begin | commit | rollback | createSavepoint | rollbackToSavepoint | releaseSavepoint =>
      cases hk

end Futile

/-! ### The calls of a refusal -/

/-- An attempt to begin a transaction that fails leaves a record behind, and nothing else. -/
theorem notBegun_futile (hc : (w.resource k.resource).FailsCleanly)
    (h : call k.resource (.begin w.nextTx) (addTransaction d w).2 = (.error e, w')) :
    ∃ performed, Futile k w [⟨.begin w.nextTx, performed, false⟩] w' := by
  have added : Futile k w [] (addTransaction d w).2 := .none hc fun _ => addTransaction_resource _
  obtain ⟨performed, failed⟩ := Futile.of_error added.clean h
  exact ⟨performed, added.trans failed⟩

/-- The calls for a scope that is refused lead nowhere, and a record is made only of a transaction
    whose begin failed. -/
theorem Entry.refused_futile (h : Entry k d w (.error e) w')
    (hc : (w.resource k.resource).FailsCleanly) :
    ∃ calls, Futile k w calls w' ∧
      (w'.transactions.size = w.transactions.size ∨
        w'.transactions.size = w.transactions.size + 1 ∧
          ∃ performed, ⟨.begin w.nextTx, performed, false⟩ ∈ calls) := by
  cases h with
  | mandatory | never | expired | conflict => exact ⟨[], .none hc fun _ => rfl, .inl rfl⟩
  | notOpened _ _ hb =>
    obtain ⟨performed, notBegun⟩ := notBegun_futile hc hb
    refine ⟨_, notBegun, .inr ⟨?_, performed, List.mem_singleton_self _⟩⟩
    rw [call_size hb, addTransaction_size]
  | notSuspended _ _ hs =>
    obtain ⟨_, notLaidAside⟩ := Futile.of_error hc hs
    exact ⟨_, notLaidAside, .inl (call_size hs)⟩
  | notOpenedApart _ _ hs hb hr =>
    -- The one refusal that comes after a call has succeeded.
    obtain ⟨_, laidAside⟩ := Futile.of_hook rfl hc hs
    obtain ⟨performed, notBegun⟩ := notBegun_futile laidAside.clean hb
    obtain ⟨_, takenUp⟩ := Futile.of_hook rfl notBegun.clean hr
    refine ⟨_, (laidAside.trans notBegun).trans takenUp, .inr ⟨?_, performed, ?_⟩⟩
    · rw [call_size hr, call_size hb, addTransaction_size, call_size hs]
    · simp [nextTx, call_transactions hs]
  | @notNested outer _ _ _ _ _ hs =>
    have named : Futile k w [] (nextSavepoint outer k.savepointPrefix w).2 :=
      .none hc fun _ => changeTransaction_resource _ _
    obtain ⟨_, notSet⟩ := Futile.of_error named.clean hs
    refine ⟨_, named.trans notSet, .inl ?_⟩
    rw [call_size hs, nextSavepoint_size]

/-! ### What a refusal leaves -/

/-- What the refusal of a scope leaves of a world. -/
structure Untroubled (k : Coordinator) (d : TransactionDefinition) (w w' : World) : Prop where
  /-- Clock, contexts and stack are the same: no context was made or installed. -/
  flow : SameFlow w w'
  current : w'.currentTransaction = w.currentTransaction
  /-- The committed values and all journals are the same, in both resources. -/
  memory : ∀ i, (w'.resource i).memory = (w.resource i).memory
  /-- The resource that the coordinator has nothing to do with is the same altogether. -/
  others : ∀ i, i ≠ k.resource → w'.resource i = w.resource i
  /-- All records are the same, with one exception: where the scope was to be nested, the current
      transaction may have used up the name of a savepoint. -/
  records : ∀ t tx, w.transaction? t = some tx →
    w'.transaction? t = some tx ∨ d.propagation = .nested ∧ w.currentTransaction = some t ∧
      w'.transaction? t = some { tx with savepoints := tx.savepoints + 1 }
  /-- There is no further record, unless of a transaction whose begin failed just now. -/
  begun : ∀ t, w.transaction? t = none → (w'.transaction? t).isSome →
    ∃ calls performed, (w'.resource k.resource).log = calls ++ (w.resource k.resource).log ∧
      ⟨.begin t, performed, false⟩ ∈ calls
  /-- If a transaction was laid aside then its resource was asked after that to take it up again. -/
  pauses : ∀ i t, w'.pauses i t = w.pauses i t ∨
    w'.pauses i t = .resume t :: .suspend t :: w.pauses i t

theorem Entry.untroubled (h : Entry k d w (.error e) w')
    (hc : (w.resource k.resource).FailsCleanly) : Untroubled k d w w' := by
  obtain ⟨calls, futile, size⟩ := h.refused_futile hc
  constructor
  case flow => exact h.sameFlow
  case current => exact h.sameFlow.currentTransaction
  case memory => exact futile.memory
  case others => exact futile.others
  case records =>
    intro t tx htx
    exact h.refused_record htx
  case begun =>
    intro t absent present
    have old : ¬ t.index < w.transactions.size := by
      rw [← transaction?_isSome, absent]
      exact Bool.false_ne_true
    have new : t.index < w'.transactions.size := transaction?_isSome.mp present
    -- A record that was not there before belongs to the transaction that could not be begun.
    rcases size with size | ⟨size, performed, failed⟩
    · exact absurd (size ▸ new) old
    · -- There is one more record than before, so this is the place of the last one.
      have last : t = w.nextTx := congrArg TxId.mk (by omega)
      exact ⟨calls, performed, futile.log, last ▸ failed⟩
  case pauses =>
    intro i t
    rcases h.pauses_error with same | ⟨u, _, paused⟩
    · exact .inl (same i t)
    · rw [paused i t]
      split
      · exact .inr rfl
      · exact .inl rfl

/-- **A scope that is refused leaves everything as it was.** Take any world, any definition and any
    coordinator, with either policy, whose resource is not touched by calls that fail. If a scope
    cannot be begun, for whatever reason, then clock, contexts, stack, current transaction,
    committed values and journals are as they were; so are all records, but for the counter of
    savepoints of the current transaction where the scope was to be nested; and a transaction that
    was laid aside was taken up again, or its resource was asked to. Code that was to run in the
    scope has not run, neither directly nor as a task, in whatever state the world is a part of: the
    result is the reason of the refusal, and the state is the one that the refusal left, whatever
    the code would have done. -/
theorem refused_untroubled (hc : (w.resource k.resource).FailsCleanly)
    (h : k.begin d w = (.error e, w')) :
    Untroubled k d w w' ∧
    ∀ {σ α : Type} [HasWorld σ] (s : σ), world s = w →
      (∀ body : StateM σ (Except Stop α),
        k.executeIn d body s = (.error (.ofError e), setWorld s w')) ∧
      ∀ body : Task σ α, k.executeTask d body s = .done (.error (.ofError e)) (setWorld s w') := by
  have entry := begin_error h
  refine ⟨entry.untroubled hc, ?_⟩
  intro σ α _ s hs
  constructor
  · intro body
    rw [executeIn_eq, hs, h]
  · intro body
    -- A task only enters its scope, and that is where the scope was refused.
    have entered : k.enter d (world s) = (.error e, w') := by
      rw [begin_eq] at h
      rw [hs]
      split at h
      · next he => rw [he]; cases h; rfl
      · cases h
    rw [executeTask, onWorld_eq, ExceptT.run, entered]

/-- A world in which the current transaction has a pending write, and no other can be begun. -/
def besieged : World where
  contexts := #[⟨none, 0, {}, some (some ⟨0⟩)⟩]
  stack := [⟨0⟩]
  transactions := #[.ofDefinition {} 0]
  main :=
    { memory := { journals := ⟨[(⟨0⟩, { writes := ⟨[("a", some (.string "1"))]⟩ })]⟩ }
      schedules := ⟨[(.begin, [⟨1, .refuse⟩])]⟩ }

/-- The current transaction is laid aside, no other can be begun, and it is taken up again: its
    pending write is still there. -/
theorem besieged_untroubled :
    let d : TransactionDefinition := { propagation := .requiresNew }
    let after := (Coordinator.begin {} d besieged).2
    (besieged.resource .main).FailsCleanly ∧
    Coordinator.begin {} d besieged = (.error (Resource.injected .begin), after) ∧
    (Untroubled {} d besieged after ∧
      ∀ {σ α : Type} [HasWorld σ] (s : σ), world s = besieged →
        (∀ body : StateM σ (Except Stop α),
          Coordinator.executeIn {} d body s
            = (.error (.ofError (Resource.injected .begin)), setWorld s after)) ∧
        ∀ body : Task σ α, Coordinator.executeTask {} d body s
          = .done (.error (.ofError (Resource.injected .begin))) (setWorld s after)) ∧
    after.main.log.map (·.call) = [.resume ⟨0⟩, .begin ⟨1⟩, .suspend ⟨0⟩] ∧
    after.read .main "a" = some (.string "1") := by
  intro d after
  have clean : (besieged.resource .main).FailsCleanly := by
    intro p
    cases p <;> decide
  have refused : Coordinator.begin {} d besieged = (.error (Resource.injected .begin), after) :=
    Prod.ext (by decide +kernel) rfl
  exact ⟨clean, refused, refused_untroubled clean refused, by decide +kernel, by decide +kernel⟩

end Coordinator

end ComponentHost
