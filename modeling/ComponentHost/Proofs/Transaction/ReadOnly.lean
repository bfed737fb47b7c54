import ComponentHost.Proofs.Transaction.Journals

/-! # Transactions that only read

  Whether a transaction refuses writes is settled when it is begun. Scopes that join it later or
  nest in it have settings of their own, which are not asked. So in a transaction that was begun to
  read only, nothing is ever pending, whatever happens: scopes may be begun in it and end in any
  order, it may go back to savepoints, and calls on its resource may fail.

  - `Journal.Blank` says that nothing is pending in a journal, and that no savepoint would bring
    anything back; every change but a write leaves a journal blank (`Becomes.blank`).
  - `World.OnlyReads` says of a transaction that it refuses writes and that its journals are blank.
    No step leads out of this.
  - `World.WritesNothing` is what follows at every moment: for writes, for commits and for the ends
    of scopes. Scopes inside that run in another transaction, or in none, may write as ever.
-/

namespace ComponentHost

open World

/-! ### Blank journals -/

namespace Journal

variable {j j' : Journal} {name : String}

/-- Nothing is pending, and nothing was when a savepoint was set. -/
structure Blank (j : Journal) : Prop where
  /-- Nothing is pending. -/
  writes : j.writes = {}
  /-- No savepoint remembers anything pending. -/
  savepoints : ∀ sp ∈ j.savepoints, sp.2 = {}

theorem blank_empty : Blank {} := ⟨rfl, by simp⟩

theorem Blank.setSavepoint (h : j.Blank) (name : String) : (j.setSavepoint name).Blank := by
  refine ⟨h.writes, ?_⟩
  intro sp hsp
  rcases List.mem_append.mp hsp with old | new
  · exact h.savepoints sp old
  · rw [List.mem_singleton.mp new]
    exact h.writes

theorem Blank.cut (h : j.Blank) (hc : j.Cut name j') : j'.Blank := by
  constructor
  · rcases hc.writes with same | ⟨sp, hsp, back⟩
    · rw [same, h.writes]
    · rw [back, h.savepoints sp hsp]
  · intro sp hsp
    obtain ⟨n, -, left⟩ := hc.savepoints
    rw [left] at hsp
    exact h.savepoints sp (List.mem_of_mem_take hsp)

/-- Where nothing may be written, a journal stays blank, and a new one is. -/
theorem Becomes.blank {may : Change → Prop} {j? j?' : Option Journal} (h : Becomes may j? j?')
    (unwritten : ¬ may .written) (hj : ∀ j, j? = some j → j.Blank) :
    ∀ j, j?' = some j → j.Blank := by
  intro j' hj'
  -- Savepoints of a journal without writes are without writes, too.
  cases h with
  | same => exact hj j' hj'
  | begun =>
    cases hj'
    exact blank_empty
  | ended => cases hj'
  | saved =>
    cases hj'
    exact (hj _ rfl).setSavepoint _
  | cut _ hc =>
    cases hj'
    exact (hj _ rfl).cut hc
  | written may => exact absurd may unwritten

end Journal

/-! ### Transactions that refuse writes -/

/-- A transaction refuses writes, and wherever it has a journal this is blank. -/
structure World.OnlyReads (w : World) (t : TxId) : Prop where
  refuses : w.refusesWrites t = true
  blank : ∀ i j, w.journalOf i t = some j → j.Blank

namespace Moment

variable {m m' : Moment} {t : TxId}

/-- A transaction that only reads goes on to, whatever is done. -/
theorem Step.onlyReads (hs : Step m m') (h : m.world.OnlyReads t) : m'.world.OnlyReads t := by
  have kept {w' : World} (terms : w'.terms t = m.world.terms t) : w'.refusesWrites t = true := by
    rw [refusesWrites_eq, terms, ← refusesWrites_eq]
    exact h.refuses
  -- What is begun uses up names of savepoints at most, and writes nothing.
  have entered {k : Coordinator} {d : TransactionDefinition} {r : Except Error TransactionScope}
      {w' : World} (hb : k.begin d m.world = (r, w')) : w'.OnlyReads t := by
    constructor
    · obtain ⟨tx, record, readOnly⟩ := (Option.any_eq_true _ _).mp h.refuses
      rw [refusesWrites, Coordinator.begin_record hb record]
      exact readOnly
    · intro i
      exact (Coordinator.begin_becomes hb i t).blank id (h.blank i)
  cases hs with
  | pushed attributes => exact ⟨kept rfl, fun i j hj => h.blank i j (by cases i <;> exact hj)⟩
  | begun hb => exact entered hb
  | refused hb => exact entered hb
  | left mem hl =>
    refine ⟨kept (Guard.leave_terms hl t), fun i => ?_⟩
    refine (Guard.leave_becomes hl i t).blank ?_ (h.blank i)
    rintro ⟨k, p, -, -, impossible⟩
    exact impossible
  | beside ha =>
    refine ⟨kept (Aside.perform_terms ha t), fun i => ?_⟩
    refine (Aside.perform_becomes ha i t).blank ?_ (h.blank i)
    rintro ⟨-, -, writable⟩
    rw [h.refuses] at writable
    cases writable

/-- In any number of steps. -/
theorem Runs.onlyReads (run : Runs m m') (h : m.world.OnlyReads t) : m'.world.OnlyReads t := by
  induction run with
  | refl => exact h
  | tail _ hs ih => exact hs.onlyReads ih

/-! ### Journals of known transactions -/

/-- What has a journal has a record. -/
def Filed (m : Moment) : Prop :=
  ∀ i t, m.world.hasJournal i t = true → (m.world.transaction? t).isSome = true

/-- No record is lost. -/
theorem Step.recorded (hs : Step m m') (h : (m.world.transaction? t).isSome = true) :
    (m'.world.transaction? t).isSome = true := by
  obtain ⟨tx, record⟩ := Option.isSome_iff_exists.mp h
  have kept {w' : World} (terms : w'.terms t = m.world.terms t) :
      (w'.transaction? t).isSome = true := by
    have same := congrArg Option.isSome terms
    rwa [World.terms, World.terms, Option.isSome_map, Option.isSome_map, h] at same
  cases hs with
  | pushed attributes => exact h
  | begun hb | refused hb =>
    rw [Coordinator.begin_record hb record]
    rfl
  | left _ hl => exact kept (Guard.leave_terms hl t)
  | beside ha => exact kept (Aside.perform_terms ha t)

theorem Step.filed (hs : Step m m') (h : Filed m) : Filed m' := by
  intro i t ht
  rcases hs.journals ht with journal | ⟨-, active, -⟩
  · exact hs.recorded (h i t journal)
  · exact transaction?_isSome.mpr (known_of_stateOf active)

/-- On a flow that starts without journals, what has a journal has a record. -/
theorem Runs.filed {w : World} (journals : ∀ i, (w.resource i).memory.journals = {})
    (run : Runs (Thread.start w).toMoment m) : Filed m := by
  induction run with
  | refl =>
    intro i t ht
    rw [hasJournal, Thread.start_resource, journals i] at ht
    cases ht
  | tail _ hs ih => exact hs.filed ih

end Moment

namespace Coordinator

variable {k : Coordinator} {d : TransactionDefinition} {m : Moment} {s : TransactionScope}
  {w w' : World} {t : TxId}

/-- A transaction that is begun to read only does. -/
theorem begin_onlyReads (filed : m.Filed) (h : k.begin d m.world = (.ok s, w))
    (own : s.participation.owned = some t) (readOnly : d.readOnly = true) : w.OnlyReads t := by
  obtain ⟨w₁, entry, -, rfl⟩ := begin_ok h
  obtain ⟨unknown, tx, record, -⟩ := entry.owned_new own
  constructor
  · obtain rfl := begin_record_new h unknown record
    have same : (w₁.inScope s.participation).transaction? t = w₁.transaction? t := rfl
    rw [refusesWrites, same, record]
    exact readOnly
  · intro i
    -- There was no journal, so that if there is one now it is new.
    have none : m.world.journalOf i t = none := by
      cases hj : m.world.journalOf i t with
      | none => rfl
      | some j =>
        have known := filed i t (by rw [hasJournal_eq, hj]; rfl)
        rw [unknown] at known
        cases known
    refine (begin_becomes h i t).blank id ?_
    rw [none]
    intro j hj
    cases hj

end Coordinator

/-! ### Committed values -/

namespace World

variable {w w' w'' : World} {t : TxId} {i : ResourceId} {c : Call} {r : Except Error Unit}

/-- The resources have the same committed values. -/
def SameValues (w w' : World) : Prop :=
  ∀ i, (w'.resource i).memory.committed = (w.resource i).memory.committed

theorem SameValues.trans (h : SameValues w w') (h' : SameValues w' w'') : SameValues w w'' :=
  fun i => (h' i).trans (h i)

theorem SameValues.of_resources (h : ∀ i, w'.resource i = w.resource i) : SameValues w w' :=
  fun i => by rw [h i]

/-- A call does not touch the committed values, unless it commits what was pending. -/
theorem call_sameValues (h : call i c w = (r, w'))
    (hc : ∀ t, c = .commit t → ∀ j, w.journalOf i t = some j → j.writes = {}) :
    SameValues w w' := by
  intro k
  by_cases hk : k = i
  · subst hk
    rcases Resource.call_memory (call_resource_eq h) with same | performed
    · rw [same]
    -- A commit is the only call that changes the committed values, and here it applies no writes.
    · by_cases commit : ∃ t, c = .commit t
      · obtain ⟨t, rfl⟩ := commit
        obtain ⟨j, hj, memory⟩ := Memory.perform_commit performed
        rw [memory, hc t rfl j hj]
        rfl
      · exact Memory.perform_committed performed fun t ht => commit ⟨t, ht⟩
  · rw [call_eq_setResource h, resource_setResource, if_neg hk]

theorem call_sameValues_of_ne (h : call i c w = (r, w')) (hc : ∀ t, c ≠ .commit t) :
    SameValues w w' :=
  call_sameValues h fun t ht => absurd ht (hc t)

theorem changeTransaction_sameValues (u : TxId) (f : Transaction → Transaction) (w : World) :
    SameValues w (changeTransaction u f w).2 :=
  .of_resources (Coordinator.changeTransaction_resource f)

/-- Committing what only reads changes no value. -/
theorem OnlyReads.commit (h : w.OnlyReads t) (hc : call i (.commit t) w = (r, w')) :
    SameValues w w' := by
  refine call_sameValues hc ?_
  rintro u ⟨⟩ j hj
  exact (h.blank i j hj).writes

end World

namespace Coordinator

variable {k : Coordinator} {w w' : World} {t : TxId} {p : Participation}

theorem rollback_sameValues {r : Except Error Unit} (h : k.rollback t w = (r, w')) :
    SameValues w w' := by
  rcases r with e | _
  · exact call_sameValues_of_ne (rollback_error h) (by simp)
  · obtain ⟨w₁, hc, rfl⟩ := rollback_ok h
    exact (call_sameValues_of_ne hc (by simp)).trans (changeTransaction_sameValues _ _ _)

/-- However a scope in a transaction ends that only reads, it changes no value. -/
theorem Settlement.sameValues {success : Bool} {r : Except Error Unit}
    (h : Settlement k w p success r w') (ht : p.transaction = some t) (only : w.OnlyReads t) :
    SameValues w w' := by
  cases h with
  | committed _ _ hk =>
    cases ht
    exact (only.commit hk).trans (changeTransaction_sameValues _ _ _)
  | notCommitted _ _ hk hr =>
    cases ht
    exact (only.commit hk).trans (rollback_sameValues hr)
  | overdue _ hr | marked _ _ hr | rolledBack hr => exact rollback_sameValues hr
  | left => exact fun _ => rfl
  | late | failed => exact changeTransaction_sameValues _ _ _
  | released hr | notUndone hr => exact call_sameValues_of_ne hr (by simp)
  | undone hr =>
    exact (call_sameValues_of_ne hr (by simp)).trans (changeTransaction_sameValues _ _ _)
  | apart => cases ht

theorem finish_sameValues {success : Bool} {r : Except Error Unit}
    (h : k.finish p success w = (r, w')) (ht : p.transaction = some t) (only : w.OnlyReads t) :
    SameValues w w' := by
  obtain ⟨r₁, w₁, hs, ⟨_, _, rfl⟩ | ⟨u, r₂, _, hr, _⟩⟩ := finish_eq h
  · exact hs.sameValues ht only
  · exact (hs.sameValues ht only).trans (call_sameValues_of_ne hr (by simp))

end Coordinator

/-! ### Nothing is written -/

namespace World

/-- The world in which a transaction takes writes. -/
def lifting (w : World) (t : TxId) : World :=
  (changeTransaction t ({ · with readOnly := false }) w).2

/-- A transaction writes nothing, whatever happens next. -/
structure WritesNothing (w : World) (t : TxId) : Prop where
  /-- Nothing is pending in it, and no savepoint would bring anything back. -/
  blank : ∀ i j, w.journalOf i t = some j → j.writes = {} ∧ ∀ sp ∈ j.savepoints, sp.2 = {}
  /-- Whatever its code writes or deletes is refused, and nothing changes. -/
  refused : w.currentTransaction = some t → ∀ i key value, write i key value w
    = (.error (.resource ("cannot write '" ++ key ++ "' in read-only transaction " ++ t.label)), w)
  /-- A commit of it changes no value. -/
  committed : ∀ i r w', call i (.commit t) w = (r, w') → SameValues w w'
  /-- However a scope in it ends, no value changes. -/
  ended : ∀ g : Guard, ∀ k p, g.scope = some (k, p) → p.transaction = some t →
    ∀ success r w', g.leave success w = (r, w') → SameValues w w'
  /-- A scope inside that begins another transaction, which takes writes, can write in it. -/
  another : w.currentTransaction = some t → ∀ (k : Coordinator) d s w',
    k.begin d w = (.ok s, w') → d.propagation = .requiresNew → d.readOnly = false →
    ∃ u, u ≠ t ∧ w'.currentTransaction = some u ∧ ∀ key value, ∃ w'' j,
      write k.resource key value w' = (.ok (), w'') ∧ w''.journalOf k.resource u = some j ∧
        j.writes.get? key = some value
  /-- A scope inside that runs without a transaction can write, for good. -/
  without : w.currentTransaction = some t → ∀ (k : Coordinator) d s w',
    k.begin d w = (.ok s, w') → d.propagation = .notSupported →
    ∀ i key value, ∃ w'', write i key value w' = (.ok (), w'') ∧
      (w''.resource i).memory.committed.get? key = value
  /-- To code in other transactions, or in none, it makes no difference that this one only reads. -/
  others : w.currentTransaction ≠ some t → ∀ i key value, write i key value (w.lifting t)
    = ((write i key value w).1, (write i key value w).2.lifting t)

variable {w : World} {t : TxId}

theorem OnlyReads.write_refused (h : w.OnlyReads t) (hc : w.currentTransaction = some t)
    (i : ResourceId) (key : String) (value : Option Value) :
    World.write i key value w
      = (.error (.resource
          ("cannot write '" ++ key ++ "' in read-only transaction " ++ t.label)), w) := by
  rcases hw : World.write i key value w with ⟨r, w'⟩
  -- A write in a transaction that refuses writes is refused, whatever the resource holds.
  cases write_eq hw with
  | readOnly hc' =>
    rw [hc] at hc'
    cases hc'
    rfl
  | atOnce hc' =>
    rw [hc] at hc'
    cases hc'
  | pending hc' taken | notEnlisted hc' taken =>
    rw [hc] at hc'
    cases hc'
    rw [h.refuses] at taken
    cases taken

/-- A write asks for the current transaction only. -/
theorem write_lifting (hc : w.currentTransaction ≠ some t) (i : ResourceId) (key : String)
    (value : Option Value) : World.write i key value (w.lifting t)
      = ((World.write i key value w).1, (World.write i key value w).2.lifting t) := by
  have current : (w.lifting t).currentTransaction = w.currentTransaction :=
    (SameFlow.changeTransaction t _ w).currentTransaction
  have resource : (w.lifting t).resource i = w.resource i :=
    Coordinator.changeTransaction_resource _ i
  -- The settings that are asked for are those of another transaction, if any.
  have asked : (w.lifting t).currentTransaction.map
        (fun u => (u, ((w.lifting t).transaction? u).any (·.readOnly)))
      = w.currentTransaction.map fun u => (u, (w.transaction? u).any (·.readOnly)) := by
    rw [current]
    cases hu : w.currentTransaction with
    | none => rfl
    | some u =>
      have ne : u ≠ t := fun same => hc (by rw [hu, same])
      have record : (w.lifting t).transaction? u = w.transaction? u := by
        rw [lifting, transaction?_changeTransaction, if_neg ne]
      rw [Option.map_some, Option.map_some, record]
  have setResource (r : Resource) :
      (w.lifting t).setResource i r = (w.setResource i r).lifting t := by
    cases i <;> rfl
  unfold World.write
  rw [asked]
  simp only [resource]
  split
  · rw [setResource]
  · rfl

end World

namespace Coordinator

variable {k : Coordinator} {d : TransactionDefinition} {w w' : World} {s : TransactionScope}
  {t : TxId}

/-- A scope that begins another transaction has a journal for its writes. -/
theorem begin_another (h : k.begin d w = (.ok s, w')) (hc : w.currentTransaction = some t)
    (known : (w.transaction? t).isSome = true) (hd : d.propagation = .requiresNew) :
    ∃ u, u ≠ t ∧ w'.currentTransaction = some u ∧ w'.refusesWrites u = d.readOnly ∧
      w'.journalOf k.resource u = some {} := by
  obtain ⟨w₁, entry, -, rfl⟩ := begin_ok h
  generalize s.participation = p at entry
  -- Of all ways to enter, only a new transaction of its own fits the definition.
  cases entry with
  | @openedApart _ w₂ _ _ _ hs hb =>
    refine ⟨w₂.nextTx, ?_, inScope_currentTransaction _ _, ?_, ?_⟩
    · rintro rfl
      rw [← call_transaction? hs, transaction?_nextTx] at known
      cases known
    · have record : w₁.transaction? w₂.nextTx = some (.ofDefinition d w₂.clock) :=
        (call_transaction? hb _).trans (transaction?_addTransaction_self d w₂)
      show (w₁.transaction? w₂.nextTx).any (·.readOnly) = d.readOnly
      rw [record]
      rfl
    · rw [journalOf_congr (inScope_resource w₁ _ _)]
      have begun := Resource.call_ok (call_resource_eq hb)
      have memory := (Except.ok.inj begun).symm
      rw [journalOf, memory]
      exact Dict.get?_insert_self _ _ _
  | without hc' | opened hc' =>
    rw [hc] at hc'
    cases hc'
  | joined _ hd' | nested _ hd' | suspended _ hd' => simp [hd] at hd'

/-- A scope that runs without a transaction has none. -/
theorem begin_without (h : k.begin d w = (.ok s, w')) (hd : d.propagation = .notSupported) :
    w'.currentTransaction = none := by
  obtain ⟨w₁, entry, -, rfl⟩ := begin_ok h
  rw [inScope_currentTransaction]
  generalize s.participation = p at entry
  cases entry with
  | without | suspended => rfl
  | opened _ hd' | openedApart _ hd' | joined _ hd' | nested _ hd' => simp [hd] at hd'

end Coordinator

/-- A transaction that only reads writes nothing. -/
theorem World.OnlyReads.writesNothing {w : World} {t : TxId} (h : w.OnlyReads t) :
    w.WritesNothing t := by
  constructor
  case blank => exact fun i j hj => ⟨(h.blank i j hj).writes, (h.blank i j hj).savepoints⟩
  case refused => exact h.write_refused
  case committed => exact fun i r w' hc => h.commit hc
  case ended =>
    intro g k p hs ht success r w' hl
    rcases Guard.leave_finish hl with ⟨none, -⟩ | ⟨k', p', hs', finished⟩
    · rw [hs] at none
      cases none
    · rw [hs] at hs'
      cases hs'
      -- Taking the context off leaves records and resources as they are.
      have below : (uninstall g.context w).2.OnlyReads t :=
        ⟨h.refuses, fun i j hj => h.blank i j
          (by rwa [journalOf_congr (uninstall_resource g.context w i)] at hj)⟩
      exact (SameValues.of_resources (uninstall_resource g.context w)).trans
        (Coordinator.finish_sameValues finished ht below)
  case another =>
    intro hc k d s w' hb hd takes
    obtain ⟨tx, record, -⟩ := (Option.any_eq_true _ _).mp h.refuses
    obtain ⟨u, other, current, refuses, journal⟩ :=
      Coordinator.begin_another hb hc (by rw [record]; rfl) hd
    refine ⟨u, other, current, fun key value => ?_⟩
    rcases hw : write k.resource key value w' with ⟨r, w''⟩
    cases write_eq hw with
    | atOnce hc' =>
      rw [current] at hc'
      cases hc'
    | @pending _ j hc' _ hj =>
      rw [current] at hc'
      cases hc'
      refine ⟨_, j.write key value, rfl, ?_, Dict.get?_insert_self _ _ _⟩
      simp [journalOf]
    | readOnly hc' refused =>
      rw [current] at hc'
      cases hc'
      rw [refuses, takes] at refused
      cases refused
    | notEnlisted hc' _ none =>
      rw [current] at hc'
      cases hc'
      rw [journalOf, none] at journal
      cases journal
  case without =>
    intro _ k d s w' hb hd i key value
    have current := Coordinator.begin_without hb hd
    rcases hw : write i key value w' with ⟨r, w''⟩
    cases write_eq hw with
    | atOnce =>
      refine ⟨_, rfl, ?_⟩
      simp [Dict.get?_set]
    | pending hc' | readOnly hc' | notEnlisted hc' =>
      rw [current] at hc'
      cases hc'
  case others => exact write_lifting

open Moment

/-- **Transactions that only read write nothing.** On a flow that starts without journals, a scope
    begins a transaction that is to read only. Then whatever is done, scopes being begun inside and
    ended in any order, well or not, while any call on a resource may fail: the transaction writes
    nothing, and does not keep scopes in other transactions, or in none, from writing. -/
theorem readOnly_writes_nothing {w : World} {m m' : Moment}
    (journals : ∀ i, (w.resource i).memory.journals = {})
    (before : Runs (Thread.start w).toMoment m) {k : Coordinator} {d : TransactionDefinition}
    {s : TransactionScope} {w₁ : World} {t : TxId} (begun : k.begin d m.world = (.ok s, w₁))
    (own : s.participation.owned = some t) (readOnly : d.readOnly = true)
    (after : Runs ⟨w₁, k.guard s :: m.live⟩ m') : m'.world.WritesNothing t :=
  (after.onlyReads (Coordinator.begin_onlyReads (before.filed journals) begun own
    readOnly)).writesNothing

/-! ### A scope that nests in a transaction that only reads -/

/-- A transaction is begun that only reads. -/
def Moment.reading : Moment where
  world := (Coordinator.begin {} { readOnly := true } (Thread.start {}).world).2
  live := [Coordinator.guard {} ⟨.owner ⟨0⟩ none, ⟨0⟩⟩]

/-- In it a nested scope is begun that asks for nothing of the kind. -/
def Moment.nesting : Moment where
  world := (Coordinator.begin {} { propagation := .nested } reading.world).2
  live := Coordinator.guard {} ⟨.nested ⟨0⟩ "SAVEPOINT_1" false, ⟨1⟩⟩ :: reading.live

/-- The nested scope is refused a write, and neither the journal nor its savepoint has one. -/
theorem readOnly_writes_nothing_nesting :
    Moment.nesting.world.WritesNothing ⟨0⟩ ∧
      Moment.nesting.world.currentTransaction = some ⟨0⟩ ∧
      Moment.nesting.world.journalOf .main ⟨0⟩ = some ⟨{}, [("SAVEPOINT_1", {})]⟩ := by
  have nested : Step Moment.reading Moment.nesting :=
    .begun (k := {}) (d := { propagation := .nested })
      (s := ⟨.nested ⟨0⟩ "SAVEPOINT_1" false, ⟨1⟩⟩) (Prod.ext (by decide +kernel) rfl)
  refine ⟨?_, by decide +kernel, by decide +kernel⟩
  exact readOnly_writes_nothing (w := {}) (fun i => by cases i <;> rfl) .refl
    (k := {}) (d := { readOnly := true }) (s := ⟨.owner ⟨0⟩ none, ⟨0⟩⟩) rfl rfl rfl (.single nested)

end ComponentHost
