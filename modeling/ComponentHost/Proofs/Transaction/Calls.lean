import ComponentHost.Proofs.Attempt
import ComponentHost.Transaction.Coordinator

/-! # Calls on resources

  What a call on a resource does, from the memory outwards. A call that succeeds was carried out by
  the memory; a call that fails leaves the memory alone as long as the gate spoils nothing; every
  call is logged with what its caller was told; and a call that code in a world makes changes
  nothing of the world but the resource that it is made on.
-/

namespace ComponentHost

/-! ### Calls on a memory -/

namespace Memory

variable {m m' : Memory} {c : Call} {t u : TxId}

theorem changeJournal_ok {change : Journal → Except Error Journal}
    (h : m.changeJournal t change = .ok m') :
    ∃ j j', m.journals.get? t = some j ∧ change j = .ok j' ∧
      m' = { m with journals := m.journals.insert t j' } := by
  unfold changeJournal at h
  cases hj : m.journals.get? t with
  | none => simp [hj] at h
  | some j =>
    rw [hj] at h
    cases hc : change j with
    | error e => simp [hc, bind, Except.bind] at h
    | ok j' =>
      simp only [hc, bind, Except.bind, pure, Except.pure, Except.ok.injEq] at h
      exact ⟨j, j', rfl, hc, h.symm⟩

theorem changeJournal_of_get? {change : Journal → Except Error Journal} {j j' : Journal}
    (hj : m.journals.get? t = some j) (hc : change j = .ok j') :
    m.changeJournal t change = .ok { m with journals := m.journals.insert t j' } := by
  simp [changeJournal, hj, hc, bind, Except.bind, pure, Except.pure]

/-- Whether commits are refused is not a matter of calls. -/
theorem perform_refusesCommits (h : m.perform c = .ok m') :
    m'.refusesCommits = m.refusesCommits := by
  cases c with
  | begin t | rollback t => cases h; rfl
  | suspend t | resume t => cases h; rfl
  | commit t =>
    simp only [perform] at h
    split at h
    · cases h
    · split at h
      · cases h
      · cases h; rfl
  | createSavepoint t name | rollbackToSavepoint t name | releaseSavepoint t name =>
    obtain ⟨j, j', _, _, rfl⟩ := changeJournal_ok h
    rfl

/-- A call touches the journal of its own transaction only. -/
theorem perform_journals_ne (h : m.perform c = .ok m') (hu : u ≠ c.transaction) :
    m'.journals.get? u = m.journals.get? u := by
  cases c with
  | begin t => cases h; simp_all [Dict.get?_insert, Call.transaction]
  | rollback t => cases h; simp_all [Dict.get?_erase, Call.transaction]
  | suspend t | resume t => cases h; rfl
  | commit t =>
    simp only [perform] at h
    split at h
    · cases h
    · split at h
      · cases h
      · cases h; simp_all [Dict.get?_erase, Call.transaction]
  | createSavepoint t name | rollbackToSavepoint t name | releaseSavepoint t name =>
    obtain ⟨j, j', _, _, rfl⟩ := changeJournal_ok h
    simp_all [Dict.get?_insert, Call.transaction]

/-- Only a commit touches the committed values. -/
theorem perform_committed (h : m.perform c = .ok m') (hc : ∀ t, c ≠ .commit t) :
    m'.committed = m.committed := by
  cases c with
  | begin t | rollback t => cases h; rfl
  | suspend t | resume t => cases h; rfl
  | commit t => exact absurd rfl (hc t)
  | createSavepoint t name | rollbackToSavepoint t name | releaseSavepoint t name =>
    obtain ⟨j, j', _, _, rfl⟩ := changeJournal_ok h
    rfl

/-- A commit that succeeds carries the whole journal over, which is gone then. -/
theorem perform_commit (h : m.perform (.commit t) = .ok m') :
    ∃ j, m.journals.get? t = some j ∧
      m' = { m with committed := apply m.committed j.writes, journals := m.journals.erase t } := by
  simp only [perform] at h
  split at h
  · cases h
  · split at h
    · cases h
    · next j hj => cases h; exact ⟨j, hj, rfl⟩

end Memory

/-! ### Calls on a resource -/

namespace Resource

variable {r r' : Resource} {c : Call} {res : Except Error Unit}

/-- A call that fails leaves the memory as it was: none is failed after it was carried out. -/
def FailsCleanly (r : Resource) : Prop := ∀ p, Verdict.spoil ∉ (r.schedule p).verdicts

/-- No fault is injected. -/
def Faultless (r : Resource) : Prop :=
  (∀ p, ∀ v ∈ (r.schedule p).verdicts, v = .pass) ∧ r.memory.refusesCommits = false

theorem schedule_judged (r : Resource) (p q : Point) :
    (r.judged p).schedule q = if q = p then (r.schedule p).rest else r.schedule q := by
  unfold judged schedule
  cases hs : r.schedules.get? p with
  | none =>
    by_cases hq : q = p
    · subst hq; simp [hs, Schedule.rest]
    · simp [hq]
  | some s =>
    by_cases hq : q = p
    · subst hq; simp
    · simp [Dict.get?_insert, hq]

/-- What the gate has yet to say after a call was among what it had to say before. -/
theorem verdicts_judged {p q : Point} {v : Verdict}
    (h : v ∈ ((r.judged p).schedule q).verdicts) : v ∈ (r.schedule q).verdicts := by
  rw [schedule_judged] at h
  split at h
  · next hq =>
    subst hq
    rw [Schedule.verdicts_rest] at h
    exact List.mem_of_mem_tail h
  · exact h

/-- The verdict on a call was the next one of its schedule, or there was none left. -/
theorem next_mem (r : Resource) (p : Point) :
    (r.schedule p).next = .pass ∨ (r.schedule p).next ∈ (r.schedule p).verdicts := by
  rw [Schedule.next_eq_headD]
  cases (r.schedule p).verdicts with
  | nil => exact .inl rfl
  | cons v vs => exact .inr (by simp)

/-- Whatever becomes of a call, the gate has no new verdicts afterwards, and hooks stay what they
    are. -/
theorem call_schedule (h : r.call c = (res, r')) :
    (∀ p v, v ∈ (r'.schedule p).verdicts → v ∈ (r.schedule p).verdicts) ∧ r'.hooks = r.hooks := by
  unfold call at h
  have hooks : (r.judged c.point).hooks = r.hooks := by unfold judged; split <;> rfl
  have judged : ∀ p v, v ∈ ((r.judged c.point).schedule p).verdicts →
      v ∈ (r.schedule p).verdicts := fun p v => verdicts_judged
  split at h
  · cases h; exact ⟨fun _ _ hv => hv, rfl⟩
  · simp only at h
    split at h
    · cases h; exact ⟨judged, hooks⟩
    · split at h <;> (cases h; exact ⟨judged, hooks⟩)
    · split at h <;> (cases h; exact ⟨judged, hooks⟩)

theorem FailsCleanly.call (hr : r.FailsCleanly) (h : r.call c = (res, r')) : r'.FailsCleanly :=
  fun p hv => hr p ((call_schedule h).1 p _ hv)

/-- Every call is logged with what its caller was told. -/
theorem call_log (h : r.call c = (res, r')) :
    ∃ performed, r'.log = ⟨c, performed, res.isOk⟩ :: r.log := by
  unfold call at h
  have log : (r.judged c.point).log = r.log := by unfold judged; split <;> rfl
  split at h
  · cases h; exact ⟨_, rfl⟩
  · simp only at h
    split at h
    · cases h; exact ⟨_, congrArg _ log⟩
    · split at h <;> (cases h; exact ⟨_, congrArg _ log⟩)
    · split at h <;> (cases h; exact ⟨_, congrArg _ log⟩)

/-- A call that succeeded was carried out by the memory. -/
theorem call_ok (h : r.call c = (.ok (), r')) : r.memory.perform c = .ok r'.memory := by
  unfold call at h
  split at h
  · next hc =>
    cases h
    cases c <;> simp_all [Call.isHook, Memory.perform, logged]
  · simp only at h
    split at h
    · cases h
    · split at h
      · next hm => cases h; exact hm
      · cases h
    · split at h <;> cases h

/-- A call that failed left the memory alone, if calls fail cleanly. -/
theorem call_error {e : Error} (hr : r.FailsCleanly) (h : r.call c = (.error e, r')) :
    r'.memory = r.memory := by
  unfold call at h
  have memory : (r.judged c.point).memory = r.memory := by unfold judged; split <;> rfl
  split at h
  · cases h
  · simp only at h
    split at h
    · cases h; exact memory
    · split at h
      · cases h
      · cases h; exact memory
    -- The verdict that is left fails a call after it was carried out, and none is such.
    · next hv =>
      rcases next_mem r c.point with hn | hn
      · rw [hn] at hv; cases hv
      · rw [hv] at hn; exact absurd hn (hr c.point)

/-- Without injected faults, a call succeeds if the memory can carry it out. -/
theorem Faultless.call_eq {m : Memory} (hr : r.Faultless) (hm : r.memory.perform c = .ok m) :
    ∃ r', r.call c = (.ok (), r') ∧ r'.memory = m := by
  have hv : (r.schedule c.point).next = .pass := by
    rcases next_mem r c.point with hn | hn
    · exact hn
    · exact hr.1 _ _ hn
  unfold Resource.call
  split
  · next hc =>
    refine ⟨_, rfl, ?_⟩
    cases c <;> simp_all [Call.isHook, Memory.perform, logged]
  · simp only [hv, hm]
    exact ⟨_, rfl, rfl⟩

theorem Faultless.failsCleanly (hr : r.Faultless) : r.FailsCleanly := by
  intro p hv
  cases hr.1 p _ hv

theorem Faultless.call (hr : r.Faultless) (h : r.call c = (res, r')) : r'.Faultless := by
  refine ⟨fun p v hv => hr.1 p v ((call_schedule h).1 p v hv), ?_⟩
  cases res with
  | ok u => rw [Memory.perform_refusesCommits (call_ok h)]; exact hr.2
  | error e => rw [call_error hr.failsCleanly h]; exact hr.2

end Resource

/-! ### Calls in a world -/

namespace World

variable {i j : ResourceId} {c : Call} {res : Except Error Unit} {w w' : World}

/-- Clock, contexts and stack are the same: only transactions and resources may differ. -/
structure SameFlow (w w' : World) : Prop where
  clock : w'.clock = w.clock
  contexts : w'.contexts = w.contexts
  stack : w'.stack = w.stack

namespace SameFlow

theorem refl (w : World) : SameFlow w w := ⟨rfl, rfl, rfl⟩

theorem trans {w₁ w₂ w₃ : World} (h : SameFlow w₁ w₂) (h' : SameFlow w₂ w₃) : SameFlow w₁ w₃ :=
  ⟨h'.clock.trans h.clock, h'.contexts.trans h.contexts, h'.stack.trans h.stack⟩

theorem current (h : SameFlow w w') : w'.current = w.current := by
  rw [World.current, h.stack, World.current]

theorem currentTransaction (h : SameFlow w w') : w'.currentTransaction = w.currentTransaction := by
  rw [World.currentTransaction, h.current, h.contexts, World.currentTransaction]

theorem changeTransaction (t : TxId) (f : Transaction → Transaction) (w : World) :
    SameFlow w (changeTransaction t f w).2 := ⟨rfl, rfl, rfl⟩

theorem addTransaction (d : TransactionDefinition) (w : World) :
    SameFlow w (addTransaction d w).2 := ⟨rfl, rfl, rfl⟩

end SameFlow

/-- What code in a world changes of the records of transactions, and nothing else. -/
theorem changeTransaction_eq (t : TxId) (f : Transaction → Transaction) (w : World) :
    changeTransaction t f w = ((), { w with transactions := w.transactions.modify t.index f }) :=
  rfl

theorem transaction?_changeTransaction (t u : TxId) (f : Transaction → Transaction) (w : World) :
    (changeTransaction t f w).2.transaction? u
      = if u = t then (w.transaction? u).map f else w.transaction? u := by
  obtain ⟨t⟩ := t
  obtain ⟨u⟩ := u
  by_cases h : u = t
  · subst h
    simp only [changeTransaction_eq, transaction?, Array.getElem?_modify, if_true]
  · simp [changeTransaction_eq, transaction?, h, Array.getElem?_modify, Ne.symm h]

theorem transaction?_addTransaction (d : TransactionDefinition) (t : TxId) (w : World) :
    (addTransaction d w).2.transaction? t
      = if t.index = w.transactions.size then some (.ofDefinition d w.clock)
        else w.transaction? t := by
  simp only [addTransaction, transaction?, Array.getElem?_push]

theorem transaction?_isSome {t : TxId} :
    (w.transaction? t).isSome ↔ t.index < w.transactions.size := by
  simp [transaction?]

theorem call_eq (i : ResourceId) (c : Call) (w : World) :
    call i c w = (((w.resource i).call c).1, w.setResource i ((w.resource i).call c).2) := rfl

section Call

variable (h : call i c w = (res, w'))
include h

theorem call_resource_eq : (w.resource i).call c = (res, w'.resource i) := by
  rw [call_eq] at h
  obtain ⟨rfl, rfl⟩ := Prod.mk.inj h
  simp

theorem call_eq_setResource : w' = w.setResource i (w'.resource i) := by
  rw [call_eq] at h
  obtain ⟨rfl, rfl⟩ := Prod.mk.inj h
  simp

theorem call_sameFlow : SameFlow w w' := by
  rw [call_eq_setResource h]
  exact ⟨by simp, by simp, by simp⟩

theorem call_transactions : w'.transactions = w.transactions := by
  rw [call_eq_setResource h, setResource_transactions]

theorem call_transaction? (t : TxId) : w'.transaction? t = w.transaction? t := by
  rw [transaction?, call_transactions h, transaction?]

end Call

/-! ### Writes in a world -/

/-- The current transaction refuses writes. -/
def refusesWrites (w : World) (t : TxId) : Bool := (w.transaction? t).any (·.readOnly)

/-- The world with another memory in one of its resources. -/
def setMemory (w : World) (i : ResourceId) (m : Memory) : World :=
  w.setResource i { w.resource i with memory := m }

/-- How a write ends, and the world after it. -/
inductive Written (i : ResourceId) (key : String) (value : Option Value) (w : World) :
    Except Error Unit → World → Prop
  /-- There is no transaction, so the value is committed at once. -/
  | atOnce (hc : w.currentTransaction = none) :
      Written i key value w (.ok ()) (w.setMemory i { (w.resource i).memory with
        committed := (w.resource i).memory.committed.set key value })
  /-- The write is pending in the journal of the current transaction. -/
  | pending {t : TxId} {j : Journal} (hc : w.currentTransaction = some t)
      (hr : w.refusesWrites t = false)
      (hj : (w.resource i).memory.journals.get? t = some j) :
      Written i key value w (.ok ()) (w.setMemory i { (w.resource i).memory with
        journals := (w.resource i).memory.journals.insert t (j.write key value) })
  | readOnly {t : TxId} (hc : w.currentTransaction = some t) (hr : w.refusesWrites t = true) :
      Written i key value w
        (.error (.resource ("cannot write '" ++ key ++ "' in read-only transaction " ++ t.label))) w
  /-- The current transaction has no journal here. -/
  | notEnlisted {t : TxId} (hc : w.currentTransaction = some t)
      (hr : w.refusesWrites t = false)
      (hj : (w.resource i).memory.journals.get? t = none) :
      Written i key value w
        (.error (.resource ("transaction " ++ t.label ++ " is not enlisted in memory resource"))) w

theorem write_eq {key : String} {value : Option Value} (h : write i key value w = (res, w')) :
    Written i key value w res w' := by
  unfold write at h
  cases hc : w.currentTransaction with
  | none =>
    simp only [hc, Option.map_none, Memory.write] at h
    obtain ⟨rfl, rfl⟩ := Prod.mk.inj h
    exact .atOnce hc
  -- Inside a transaction the write is pending, if the transaction takes it.
  | some t =>
    simp only [hc, Option.map_some, Memory.write] at h
    cases hr : w.refusesWrites t with
    | true =>
      have hr' : (w.transaction? t).any (·.readOnly) = true := hr
      simp only [hr', if_true] at h
      obtain ⟨rfl, rfl⟩ := Prod.mk.inj h
      exact .readOnly hc hr
    | false =>
      have hr' : (w.transaction? t).any (·.readOnly) = false := hr
      simp only [hr', Bool.false_eq_true, if_false] at h
      cases hj : (w.resource i).memory.journals.get? t with
      | none =>
        simp only [hj] at h
        obtain ⟨rfl, rfl⟩ := Prod.mk.inj h
        exact .notEnlisted hc hr hj
      | some j =>
        simp only [hj] at h
        obtain ⟨rfl, rfl⟩ := Prod.mk.inj h
        exact .pending hc hr hj

section SetMemory

variable (w : World) (i : ResourceId) (m : Memory)

@[simp] theorem setMemory_resource :
    (w.setMemory i m).resource i = { w.resource i with memory := m } := by
  simp [setMemory]

@[simp] theorem setMemory_transactions : (w.setMemory i m).transactions = w.transactions := by
  simp [setMemory]

@[simp] theorem setMemory_transaction? (t : TxId) :
    (w.setMemory i m).transaction? t = w.transaction? t := by
  simp [transaction?]

theorem setMemory_sameFlow : SameFlow w (w.setMemory i m) :=
  ⟨by simp [setMemory], by simp [setMemory], by simp [setMemory]⟩

end SetMemory

/-- A write changes nothing but the memory that it is made on. -/
theorem Written.sameFlow {key : String} {value : Option Value}
    (h : Written i key value w res w') : SameFlow w w' := by
  cases h with
  | atOnce | pending => exact setMemory_sameFlow _ _ _
  | readOnly | notEnlisted => exact .refl w

theorem Written.transactions {key : String} {value : Option Value}
    (h : Written i key value w res w') : w'.transactions = w.transactions := by
  cases h with
  | atOnce | pending => simp
  | readOnly | notEnlisted => rfl

end World

end ComponentHost
