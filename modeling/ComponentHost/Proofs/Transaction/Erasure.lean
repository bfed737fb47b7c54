import ComponentHost.Proofs.Transaction.Calls

/-! # Work that is given up

  A memory is shared by any number of transactions, whose reads, writes and calls come in any order.
  A transaction that is never committed might as well not have been there: who erases all that was
  done in it finds the same committed values, the same journals of all others, and the same answers
  to everything that was not done in it.

  - `Deed` is something that is done to a memory, in a transaction or outside of any;
  - `Memory.run` does one deed after the other, and keeps what each was answered;
  - `Memory.AgreesBut` says of two memories that they differ at most in the journal of one
    transaction. Deeds of that transaction do not lead out of this relation, unless they commit it,
    and nobody else can tell the two memories apart.
-/

namespace ComponentHost

/-! ### Deeds -/

/-- Something that is done to a memory. -/
inductive Deed
  /-- A key is read, in a transaction or outside of any. -/
  | read (within : Option TxId) (key : String)
  /-- A key is written or deleted, in a transaction, which may refuse writes, or outside of any. -/
  | write (within : Option (TxId × Bool)) (key : String) (value : Option Value)
  /-- A transaction is begun or ended, or something is done with its savepoints. -/
  | call (c : Call)
  /-- Commits are refused from now on, or are not. -/
  | refuseCommits (refuse : Bool)
  deriving DecidableEq

def Deed.transaction : Deed → Option TxId
  | read t _ => t
  | write t _ _ => t.map (·.1)
  | call c => some c.transaction
  | refuseCommits _ => none

/-- What is answered to a deed. -/
inductive Answer
  | found (value : Option Value)
  /-- The deed was done, or was not. -/
  | told (result : Except Error Unit)

namespace Memory

/-- The answer to something that may have failed, and then has changed nothing. -/
def told (m : Memory) : Except Error Memory → Answer × Memory
  | .ok m' => (.told (.ok ()), m')
  | .error e => (.told (.error e), m)

def serve (m : Memory) : Deed → Answer × Memory
  | .read t key => (.found (m.read t key), m)
  | .write t key value => m.told (m.write t key value)
  | .call c => m.told (m.perform c)
  | .refuseCommits refuse => (.told (.ok ()), { m with refusesCommits := refuse })

def run (m : Memory) : List Deed → List (Deed × Answer) × Memory
  | [] => ([], m)
  | d :: rest =>
    let (a, m₁) := m.serve d
    let (answers, m') := m₁.run rest
    ((d, a) :: answers, m')

@[simp] theorem run_nil (m : Memory) : m.run [] = ([], m) := rfl

theorem run_cons (m : Memory) (d : Deed) (rest : List Deed) :
    m.run (d :: rest)
      = ((d, (m.serve d).1) :: ((m.serve d).2.run rest).1, ((m.serve d).2.run rest).2) := rfl

variable {m m' m₁ : Memory} {t u : TxId} {d : Deed} {c : Call} {key : String}

/-! ### Memories that differ in one journal -/

/-- Two memories differ at most in the journal of a transaction. -/
structure AgreesBut (t : TxId) (m m' : Memory) : Prop where
  committed : m'.committed = m.committed
  refusesCommits : m'.refusesCommits = m.refusesCommits
  journals : ∀ u, u ≠ t → m'.journals.get? u = m.journals.get? u

namespace AgreesBut

theorem refl (t : TxId) (m : Memory) : AgreesBut t m m := ⟨rfl, rfl, fun _ _ => rfl⟩

theorem symm (h : AgreesBut t m m') : AgreesBut t m' m :=
  ⟨h.committed.symm, h.refusesCommits.symm, fun u hu => (h.journals u hu).symm⟩

theorem trans (h : AgreesBut t m m') (h' : AgreesBut t m' m₁) : AgreesBut t m m₁ :=
  ⟨h'.committed.trans h.committed, h'.refusesCommits.trans h.refusesCommits,
    fun u hu => (h'.journals u hu).trans (h.journals u hu)⟩

/-- The same change to the journal of another transaction. -/
theorem insert (h : AgreesBut t m m') (u : TxId) (j : Journal) :
    AgreesBut t { m with journals := m.journals.insert u j }
      { m' with journals := m'.journals.insert u j } := by
  refine ⟨h.committed, h.refusesCommits, fun v hv => ?_⟩
  simp only [Dict.get?_insert, h.journals v hv]

/-- The journal of another transaction is gone in both. -/
theorem erase (h : AgreesBut t m m') (u : TxId) (committed : Dict String Value) :
    AgreesBut t { m with committed, journals := m.journals.erase u }
      { m' with committed, journals := m'.journals.erase u } := by
  refine ⟨rfl, h.refusesCommits, fun v hv => ?_⟩
  simp only [Dict.get?_erase, h.journals v hv]

end AgreesBut

/-- Two attempts that fail alike, or both succeed and leave memories that agree. -/
inductive Alike (t : TxId) : Except Error Memory → Except Error Memory → Prop
  | failed (e : Error) : Alike t (.error e) (.error e)
  | done {m m' : Memory} (h : AgreesBut t m m') : Alike t (.ok m) (.ok m')

theorem Alike.told {r r' : Except Error Memory} (h : Alike t r r') (hm : AgreesBut t m m') :
    (m'.told r').1 = (m.told r).1 ∧ AgreesBut t (m.told r).2 (m'.told r').2 := by
  cases h with
  | failed e => exact ⟨rfl, hm⟩
  | done h => exact ⟨rfl, h⟩

/-! ### Deeds of others -/

/-- Outside of a transaction its journal is not read. -/
theorem AgreesBut.read (h : AgreesBut t m m') {within : Option TxId} (hw : within ≠ some t) :
    m'.read within key = m.read within key := by
  have journal : within.bind m'.journals.get? = within.bind m.journals.get? := by
    cases within with
    | none => rfl
    | some u => exact h.journals u fun hu => hw (congrArg some hu)
  rw [Memory.read, Memory.read, journal, h.committed]

theorem AgreesBut.write (h : AgreesBut t m m') {within : Option (TxId × Bool)}
    (hw : within.map (·.1) ≠ some t) (key : String) (value : Option Value) :
    Alike t (m.write within key value) (m'.write within key value) := by
  cases within with
  | none =>
    refine .done ⟨?_, h.refusesCommits, h.journals⟩
    show m'.committed.set key value = m.committed.set key value
    rw [h.committed]
  | some within =>
    obtain ⟨u, readOnly⟩ := within
    have hu : u ≠ t := fun hu => hw (congrArg some hu)
    cases readOnly with
    | true => exact .failed _
    | false =>
      simp only [Memory.write, Bool.false_eq_true, if_false, h.journals u hu]
      cases m.journals.get? u with
      | none => exact .failed _
      | some j => exact .done (h.insert u _)

theorem AgreesBut.changeJournal (h : AgreesBut t m m') (hu : u ≠ t)
    (change : Journal → Except Error Journal) :
    Alike t (m.changeJournal u change) (m'.changeJournal u change) := by
  unfold Memory.changeJournal
  rw [h.journals u hu]
  cases m.journals.get? u with
  | none => exact .failed _
  | some j =>
    cases hj : change j with
    | error e => simp only [hj]; exact .failed e
    | ok j' => simp only [hj]; exact .done (h.insert u j')

theorem AgreesBut.perform (h : AgreesBut t m m') (hc : c.transaction ≠ t) :
    Alike t (m.perform c) (m'.perform c) := by
  cases c with
  | begin u => exact .done (h.insert u _)
  | rollback u =>
    have agree := h.erase u m.committed
    rw [← h.committed] at agree
    simp only [Memory.perform]
    refine .done ⟨h.committed, h.refusesCommits, agree.journals⟩
  | suspend u | resume u => exact .done h
  | createSavepoint u name | rollbackToSavepoint u name | releaseSavepoint u name =>
    exact h.changeJournal hc _
  -- A commit reads the journal of its own transaction, which is the same on both sides.
  | commit u =>
    simp only [Memory.perform, h.refusesCommits, h.journals u hc]
    split
    · exact .failed _
    · cases m.journals.get? u with
      | none => exact .failed _
      | some j =>
        refine .done ⟨congrArg (apply · j.writes) h.committed, rfl, fun v hv => ?_⟩
        simp only [Dict.get?_erase, h.journals v hv]

/-- A deed that is not done in a transaction finds nothing of its journal, and leaves it alone. -/
theorem AgreesBut.serve (h : AgreesBut t m m') (hd : d.transaction ≠ some t) :
    (m'.serve d).1 = (m.serve d).1 ∧ AgreesBut t (m.serve d).2 (m'.serve d).2 := by
  cases d with
  | read within key => exact ⟨congrArg Answer.found (h.read hd), h⟩
  | write within key value => exact (h.write hd key value).told h
  | call c => exact (h.perform fun hc => hd (congrArg some hc)).told h
  | refuseCommits refuse => exact ⟨rfl, h.committed, rfl, h.journals⟩

/-! ### Deeds of a transaction -/

/-- A transaction writes into its own journal, if at all. -/
theorem write_agrees {readOnly : Bool} {value : Option Value}
    (h : m.write (some (t, readOnly)) key value = .ok m₁) : AgreesBut t m m₁ := by
  unfold write at h
  split at h
  · next hw => cases hw
  · next hw =>
    cases hw
    split at h
    · cases h
    · split at h
      · cases h
      · cases h
        refine ⟨rfl, rfl, fun u hu => ?_⟩
        rw [Dict.get?_insert, if_neg hu]

/-- A call on a transaction that does not commit it concerns nothing but its journal. -/
theorem perform_agrees (h : m.perform c = .ok m₁) (hc : c ≠ .commit c.transaction) :
    AgreesBut c.transaction m m₁ where
  committed := by
    refine perform_committed h ?_
    rintro u rfl
    exact hc rfl
  refusesCommits := perform_refusesCommits h
  journals _ hu := perform_journals_ne h hu

/-- Whatever is done in a transaction, if it is not committed by that, concerns nothing but its
    journal. -/
theorem serve_agrees (hd : d.transaction = some t)
    (hc : (d, (m.serve d).1) ≠ (.call (.commit t), .told (.ok ()))) :
    AgreesBut t m (m.serve d).2 := by
  cases d with
  | read within key => exact .refl t m
  | refuseCommits refuse => cases hd
  | write within key value =>
    obtain ⟨⟨t, readOnly⟩, rfl, rfl⟩ := Option.map_eq_some_iff.mp hd
    simp only [serve]
    cases hw : m.write (some (t, readOnly)) key value with
    | error e => exact .refl t m
    | ok m₁ => exact write_agrees hw
  | call c =>
    -- A call that succeeds concerns this transaction alone, unless it commits.
    obtain rfl : c.transaction = t := Option.some.inj hd
    simp only [serve] at hc ⊢
    cases hp : m.perform c with
    | error e => exact .refl _ m
    | ok m₁ =>
      refine perform_agrees hp fun hcommit => hc ?_
      rw [hp, ← hcommit]
      rfl

/-! ### Erasing a transaction -/

/-- Two runs, one of them without the deeds of a transaction, from memories that agree. -/
theorem AgreesBut.run (h : AgreesBut t m m') (deeds : List Deed)
    (hc : (.call (.commit t), .told (.ok ())) ∉ (m.run deeds).1) :
    (m'.run (deeds.filter (·.transaction ≠ some t))).1
        = (m.run deeds).1.filter (·.1.transaction ≠ some t) ∧
      AgreesBut t (m.run deeds).2 (m'.run (deeds.filter (·.transaction ≠ some t))).2 := by
  induction deeds generalizing m m' with
  | nil => exact ⟨rfl, h⟩
  | cons d rest ih =>
    rw [run_cons] at hc ⊢
    obtain ⟨first, later⟩ := not_or.mp (mt List.mem_cons.mpr hc)
    by_cases hd : d.transaction = some t
    · -- Only the full run does the deed, and stays near the other one by it.
      obtain ⟨answers, agree⟩ := ih ((serve_agrees hd (Ne.symm first)).symm.trans h) later
      have skipped : (d :: rest).filter (·.transaction ≠ some t)
          = rest.filter (·.transaction ≠ some t) := List.filter_cons_of_neg (by simpa using hd)
      rw [skipped]
      refine ⟨answers.trans ?_, agree⟩
      exact (List.filter_cons_of_neg (by simpa using hd)).symm
    -- Both runs do the deed, and get the same answer.
    · obtain ⟨same, agree⟩ := h.serve hd
      obtain ⟨answers, agree⟩ := ih agree later
      have kept : (d :: rest).filter (·.transaction ≠ some t)
          = d :: rest.filter (·.transaction ≠ some t) := List.filter_cons_of_pos (by simpa using hd)
      rw [kept, run_cons, answers, same]
      exact ⟨(List.filter_cons_of_pos (by simpa using hd)).symm, agree⟩

/-- **What is not committed leaves no trace, and nobody else has seen it.** Any number of
    transactions read, write, set and use savepoints, begin, commit and roll back in any order on
    one memory, commits may be refused, and one transaction is never committed on the way. Without
    all that was done in it, everything else is answered as it was, and leaves the same committed
    values and the same journals of all other transactions. -/
theorem uncommitted_work_erased (m : Memory) (deeds : List Deed) (t : TxId)
    (h : (.call (.commit t), .told (.ok ())) ∉ (m.run deeds).1) :
    (m.run (deeds.filter (·.transaction ≠ some t))).1
        = (m.run deeds).1.filter (·.1.transaction ≠ some t) ∧
      (m.run (deeds.filter (·.transaction ≠ some t))).2.committed = (m.run deeds).2.committed ∧
      ∀ u, u ≠ t → (m.run (deeds.filter (·.transaction ≠ some t))).2.journals.get? u
        = (m.run deeds).2.journals.get? u := by
  obtain ⟨answers, agree⟩ := (AgreesBut.refl t m).run deeds h
  exact ⟨answers, agree.committed, agree.journals⟩

/-- Two transactions write under the same key. One goes back to a savepoint, is refused its commit
    and is rolled back; the other one is committed, and a reader outside of both sees its value. -/
def interleaved : List Deed :=
  [.call (.begin ⟨0⟩), .call (.begin ⟨1⟩),
    .write (some (⟨0⟩, false)) "stock" (some (.string "one")), .read (some ⟨1⟩) "stock",
    .call (.createSavepoint ⟨0⟩ "s"), .write (some (⟨0⟩, false)) "stock" none,
    .write (some (⟨1⟩, false)) "stock" (some (.string "two")), .call (.rollbackToSavepoint ⟨0⟩ "s"),
    .refuseCommits true, .call (.commit ⟨0⟩), .refuseCommits false,
    .call (.commit ⟨1⟩), .call (.rollback ⟨0⟩), .read none "stock"]

theorem uncommitted_work_erased_interleaved :
    (.call (.commit ⟨0⟩), .told (.ok ())) ∉ (({} : Memory).run interleaved).1 ∧
      (({} : Memory).run (interleaved.filter (·.transaction ≠ some ⟨0⟩))).1
        = (({} : Memory).run interleaved).1.filter (·.1.transaction ≠ some ⟨0⟩) ∧
      (({} : Memory).run (interleaved.filter (·.transaction ≠ some ⟨0⟩))).2.committed
        = (({} : Memory).run interleaved).2.committed := by
  have never : (.call (.commit ⟨0⟩), .told (.ok ())) ∉ (({} : Memory).run interleaved).1 := by
    simp [interleaved, run_cons, serve, told, perform]
  obtain ⟨answers, committed, -⟩ := uncommitted_work_erased {} interleaved ⟨0⟩ never
  exact ⟨never, answers, committed⟩

end Memory

end ComponentHost
