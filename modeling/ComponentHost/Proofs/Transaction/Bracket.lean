import ComponentHost.Proofs.Transaction.Frame

/-! # Scopes as brackets

  What the entry of a scope makes for each way of taking part, and what the end of the scope makes
  of it again. Put together, a scope around a program changes no more of its world than a program
  does, so that by induction every program stays within its frame.
-/

namespace ComponentHost

open World Attempt

namespace Coordinator

variable {k : Coordinator} {d : TransactionDefinition} {w w' w₁ w₂ : World} {t u : TxId}
  {c : Call} {res : Except Error Unit}

/-! ### Calls and changes of records -/

theorem call_clean (h : call k.resource c w = (res, w'))
    (hc : (w.resource k.resource).FailsCleanly) : (w'.resource k.resource).FailsCleanly :=
  hc.call (call_resource_eq h)

/-- A failed call leaves all journals as they were. -/
theorem call_error_journal {e : Error} (h : call k.resource c w = (.error e, w'))
    (hc : (w.resource k.resource).FailsCleanly) (u : TxId) : k.journal w' u = k.journal w u := by
  rw [journal, Resource.call_error hc (call_resource_eq h), journal]

/-- A call that concerns a savepoint finds a journal, and changes it in its own way. -/
theorem call_changed {change : Journal → Except Error Journal}
    (h : call k.resource c w = (.ok (), w'))
    (hc : ∀ m : Memory, m.perform c = m.changeJournal t change) :
    ∃ j j', k.journal w t = some j ∧ change j = .ok j' ∧ k.journal w' t = some j' := by
  have performed := Resource.call_ok (call_resource_eq h)
  rw [hc] at performed
  obtain ⟨j, j', hj, changed, memory⟩ := Memory.changeJournal_ok performed
  exact ⟨j, j', hj, changed, by rw [journal, memory, Dict.get?_insert_self]⟩

theorem call_saved {name : String}
    (h : call k.resource (.createSavepoint t name) w = (.ok (), w')) :
    ∃ j, k.journal w t = some j ∧ k.journal w' t = some (j.setSavepoint name) := by
  obtain ⟨j, j', hj, changed, hj'⟩ := call_changed h fun _ => rfl
  cases changed
  exact ⟨j, hj, hj'⟩

theorem call_released {name : String}
    (h : call k.resource (.releaseSavepoint t name) w = (.ok (), w')) :
    ∃ j j', k.journal w t = some j ∧ j.release? name = some j' ∧ k.journal w' t = some j' := by
  obtain ⟨j, j', hj, changed, hj'⟩ := call_changed h fun _ => rfl
  cases found : j.release? name with
  | none => simp [found] at changed
  | some j₁ =>
    simp only [found, Except.ok.injEq] at changed
    exact ⟨j, j₁, hj, found, changed ▸ hj'⟩

theorem call_rolledBackTo {name : String}
    (h : call k.resource (.rollbackToSavepoint t name) w = (.ok (), w')) :
    ∃ j j', k.journal w t = some j ∧ j.rollbackTo? name = some j' ∧ k.journal w' t = some j' := by
  obtain ⟨j, j', hj, changed, hj'⟩ := call_changed h fun _ => rfl
  cases found : j.rollbackTo? name with
  | none => simp [found] at changed
  | some j₁ =>
    simp only [found, Except.ok.injEq] at changed
    exact ⟨j, j₁, hj, found, changed ▸ hj'⟩

/-- A call touches its own transaction only, and none when it is about laying one aside. -/
theorem call_untouched (h : call k.resource c w = (res, w'))
    (hc : (w.resource k.resource).FailsCleanly) (hu : c.isHook = true ∨ u ≠ c.transaction) :
    k.Untouched w w' u := by
  refine ⟨call_transaction? h u, ?_⟩
  cases res with
  | error e => exact call_error_journal h hc u
  | ok =>
    have hp := Resource.call_ok (call_resource_eq h)
    -- A hook does nothing to the journals; any other call only to that of its own transaction.
    rcases hu with hk | hu
    · cases c with
      | suspend t | resume t =>
        simp only [Memory.perform, Except.ok.injEq] at hp
        rw [journal, ← hp, journal]
      | begin | commit | rollback | createSavepoint | rollbackToSavepoint | releaseSavepoint =>
        cases hk
    · exact Memory.perform_journals_ne hp hu

/-- Only a commit touches the committed values. -/
theorem call_committed (h : call k.resource c w = (res, w'))
    (hc : (w.resource k.resource).FailsCleanly) (hn : ∀ t, c ≠ .commit t) :
    (w'.resource k.resource).memory.committed = (w.resource k.resource).memory.committed := by
  have hq := call_resource_eq h
  cases res with
  | error e => rw [Resource.call_error hc hq]
  | ok => exact Memory.perform_committed (Resource.call_ok hq) hn

theorem call_size (h : call k.resource c w = (res, w')) :
    w'.transactions.size = w.transactions.size := by rw [call_transactions h]

theorem changeTransaction_size (f : Transaction → Transaction) :
    (changeTransaction t f w).2.transactions.size = w.transactions.size := by
  simp [changeTransaction_eq]

theorem changeTransaction_journal (f : Transaction → Transaction) :
    k.journal (changeTransaction t f w).2 u = k.journal w u := by
  rw [journal, changeTransaction_resource, journal]

theorem changeTransaction_untouched (f : Transaction → Transaction) (hu : u ≠ t) :
    k.Untouched w (changeTransaction t f w).2 u :=
  ⟨by rw [transaction?_changeTransaction, if_neg hu], changeTransaction_journal f⟩

theorem addTransaction_untouched (hu : u ≠ w.nextTx) :
    k.Untouched w (addTransaction d w).2 u := by
  refine ⟨?_, by rw [journal, addTransaction_resource, journal]⟩
  -- The new record is behind all that there are.
  rw [transaction?_addTransaction, if_neg]
  intro he
  exact hu (by cases u; simpa [nextTx] using he)

theorem addTransaction_clean (hc : (w.resource k.resource).FailsCleanly) :
    ((addTransaction d w).2.resource k.resource).FailsCleanly := by
  rwa [addTransaction_resource]

theorem addTransaction_transaction? :
    (addTransaction d w).2.transaction? w.nextTx = some (.ofDefinition d w.clock) := by
  have hn : w.nextTx.index = w.transactions.size := rfl
  rw [transaction?_addTransaction, if_pos hn]

theorem addTransaction_size :
    (addTransaction d w).2.transactions.size = w.transactions.size + 1 := by
  simp [addTransaction]

/-- The name of the next savepoint has the next number. -/
theorem nextSavepoint_name {tx : Transaction} (htx : w.transaction? t = some tx) :
    (nextSavepoint t k.savepointPrefix w).1 = k.savepointName (tx.savepoints + 1) := by
  show ((w.transaction? t).map (·.nextSavepoint k.savepointPrefix)).getD k.savepointPrefix = _
  rw [htx]
  rfl

theorem ne_nextTx (hu : u.index < w.transactions.size) : u ≠ w.nextTx := by
  rintro rfl
  exact absurd hu (Nat.lt_irrefl _)

/-! ### What an entry makes -/

/-- A transaction has been begun: it is new, its record is as its definition asks for, its journal
    is empty, and no other transaction is touched. -/
structure Opened (k : Coordinator) (d : TransactionDefinition) (w : World) (t : TxId)
    (w' : World) : Prop where
  fresh : t = w.nextTx
  record : w'.transaction? t = some (.ofDefinition d w.clock)
  journal : k.journal w' t = some {}
  size : w'.transactions.size = w.transactions.size + 1
  others : ∀ u, u ≠ t → k.Untouched w w' u

theorem call_begin_opened
    (h : call k.resource (.begin w.nextTx) (addTransaction d w).2 = (.ok (), w'))
    (hc : (w.resource k.resource).FailsCleanly) : Opened k d w w.nextTx w' := by
  have hc := addTransaction_clean (d := d) hc
  constructor
  case fresh => exact rfl
  case record => rw [call_transaction? h, addTransaction_transaction?]
  case journal =>
    have hp := Resource.call_ok (call_resource_eq h)
    simp only [Memory.perform, Except.ok.injEq] at hp
    rw [Coordinator.journal, ← hp, Dict.get?_insert_self]
  case size => rw [call_size h, addTransaction_size]
  case others =>
    intro u hu
    exact (addTransaction_untouched hu).trans (call_untouched h hc (.inr hu))

/-- An owner's transaction has been begun, and what was current before lies suspended. -/
theorem Entry.owner {s : Option TxId} (h : Entry k d w (.ok (.owner t s)) w')
    (hc : (w.resource k.resource).FailsCleanly) :
    s = w.currentTransaction ∧ Opened k d w t w' := by
  cases h with
  | opened hn _ hb => exact ⟨hn.symm, call_begin_opened hb hc⟩
  | @openedApart outer w₁ _ ho _ hs hb =>
    obtain ⟨_, record, journal, size, others⟩ := call_begin_opened hb (call_clean hs hc)
    -- Suspending the outer transaction adds no transaction.
    have fresh : w₁.nextTx = w.nextTx := by rw [nextTx, call_transactions hs, nextTx]
    refine ⟨ho.symm, ⟨fresh, ?_, journal, ?_, ?_⟩⟩
    · rw [record, (call_sameFlow hs).clock]
    · rw [size, call_size hs]
    · intro u hu
      exact (call_untouched hs hc (.inl rfl)).trans (others u hu)

theorem Entry.joined_eq (h : Entry k d w (.ok (.joined t)) w') :
    w.currentTransaction = some t ∧ w' = w := by
  cases h with
  | joined hc => exact ⟨hc, rfl⟩

/-- A scope without a transaction touches none; what was current before lies suspended. -/
theorem Entry.apart {s : Option TxId} (h : Entry k d w (.ok (.apart s)) w')
    (hc : (w.resource k.resource).FailsCleanly) :
    s = w.currentTransaction ∧ w'.transactions.size = w.transactions.size ∧
      ∀ u, k.Untouched w w' u := by
  cases h with
  | without hn => exact ⟨hn.symm, rfl, .refl k w⟩
  | suspended ho _ hs => exact ⟨ho.symm, call_size hs, fun u => call_untouched hs hc (.inl rfl)⟩

/-- A savepoint has been set in the current transaction, under the next name. -/
structure Forked (k : Coordinator) (w : World) (t : TxId) (tx : Transaction) (j : Journal)
    (w' : World) : Prop where
  record : w'.transaction? t = some { tx with savepoints := tx.savepoints + 1 }
  journal : k.journal w' t = some (j.setSavepoint (k.savepointName (tx.savepoints + 1)))
  size : w'.transactions.size = w.transactions.size
  others : ∀ u, u ≠ t → k.Untouched w w' u

theorem nextSavepoint_transaction? {tx : Transaction} (htx : w.transaction? t = some tx) :
    (nextSavepoint t k.savepointPrefix w).2.transaction? t
      = some { tx with savepoints := tx.savepoints + 1 } := by
  show (changeTransaction t _ w).2.transaction? t = _
  rw [transaction?_changeTransaction, if_pos rfl, htx]
  rfl

theorem nextSavepoint_clean (hc : (w.resource k.resource).FailsCleanly) :
    ((nextSavepoint t k.savepointPrefix w).2.resource k.resource).FailsCleanly := by
  show ((changeTransaction t _ w).2.resource k.resource).FailsCleanly
  rwa [changeTransaction_resource]

theorem nextSavepoint_journal :
    k.journal (nextSavepoint t k.savepointPrefix w).2 u = k.journal w u :=
  changeTransaction_journal _

theorem nextSavepoint_untouched (hu : u ≠ t) :
    k.Untouched w (nextSavepoint t k.savepointPrefix w).2 u :=
  changeTransaction_untouched _ hu

theorem nextSavepoint_size :
    (nextSavepoint t k.savepointPrefix w).2.transactions.size = w.transactions.size :=
  changeTransaction_size _

theorem Entry.nested_current {name : String} {mark : Bool}
    (h : Entry k d w (.ok (.nested t name mark)) w') : w.currentTransaction = some t := by
  generalize hp : Participation.nested t name mark = p at h
  cases h with
  | without | opened | joined | openedApart | suspended => cases hp
  | nested ho => cases hp; exact ho

theorem Entry.nested_forked {name : String} {mark : Bool} {tx : Transaction} {j : Journal}
    (h : Entry k d w (.ok (.nested t name mark)) w') (hc : (w.resource k.resource).FailsCleanly)
    (htx : w.transaction? t = some tx) (hj : k.journal w t = some j) :
    w.currentTransaction = some t ∧ name = k.savepointName (tx.savepoints + 1) ∧
      mark = tx.rollbackOnly ∧ Forked k w t tx j w' := by
  -- The name and the mark of the scope come from the world, so `cases` needs them as variables.
  generalize hp : Participation.nested t name mark = p at h
  cases h with
  | without | opened | joined | openedApart | suspended => cases hp
  | @nested t w₁ ho _ _ hs =>
    obtain ⟨rfl, rfl, rfl⟩ := Participation.nested.inj hp
    rw [nextSavepoint_name htx] at hs ⊢
    have hr := nextSavepoint_transaction? (k := k) htx
    have hcn := nextSavepoint_clean (t := t) hc
    have record : w'.transaction? t = some { tx with savepoints := tx.savepoints + 1 } := by
      rw [call_transaction? hs, hr]
    refine ⟨ho, rfl, ?_, record, ?_, ?_, ?_⟩
    · rw [isRollbackOnly, record]
      rfl
    · obtain ⟨j₁, hj₁, hj₂⟩ := call_saved hs
      rw [nextSavepoint_journal, hj] at hj₁
      cases hj₁
      exact hj₂
    · rw [call_size hs, nextSavepoint_size]
    · intro u hu
      exact (nextSavepoint_untouched hu).trans (call_untouched hs hcn (.inr hu))

/-- A scope that is refused leaves its world within the frame of a program: at most a name for a
    savepoint is used up. -/
theorem Entry.refused_frame {e : Error} (h : Entry k d w (.error e) w') (hs : Sound k w) :
    Frame k w w' := by
  have hf := h.sameFlow
  cases h with
  | mandatory | never | expired | conflict => exact .refl hs
  -- The transaction that was not begun is new, so no one has seen it.
  | notOpened _ _ hb =>
    have hc := addTransaction_clean (d := d) hs.clean
    refine .of_untouched hf (call_clean hb hc) ?_ ?_
    · rw [call_size hb, addTransaction_size]; omega
    · intro u hu
      exact (addTransaction_untouched (ne_nextTx hu)).trans
        (call_untouched hb hc (.inr (ne_nextTx hu)))
  | notSuspended _ _ hq =>
    exact .of_untouched hf (call_clean hq hs.clean) (Nat.le_of_eq (call_size hq).symm)
      fun u _ => call_untouched hq hs.clean (.inl rfl)
  | @notOpenedApart t e res w₁ w₂ w₃ _ _ hq hb hr =>
    have hc₁ := call_clean hq hs.clean
    have hc := addTransaction_clean (d := d) hc₁
    have hc₂ := call_clean hb hc
    refine .of_untouched hf (call_clean hr hc₂) ?_ ?_
    · rw [call_size hr, call_size hb, addTransaction_size, call_size hq]; omega
    · intro u hu
      have hu : u ≠ w₁.nextTx := by
        rw [nextTx, call_transactions hq]; exact ne_nextTx hu
      exact (((call_untouched hq hs.clean (.inl rfl)).trans (addTransaction_untouched hu)).trans
        (call_untouched hb hc (.inr hu))).trans (call_untouched hr hc₂ (.inl rfl))
  -- Only the count of names has moved, in the record of the transaction that is current.
  | @notNested t e w₁ ho _ _ hq =>
    have hc := nextSavepoint_clean (k := k) (t := t) hs.clean
    constructor
    case clean => exact call_clean hq hc
    case stack => exact hf.stack
    case contexts => exact fun i _ => by rw [hf.contexts]
    case size => exact Nat.le_of_eq (by rw [call_size hq, nextSavepoint_size])
    case others =>
      intro u _ hn
      have hu : u ≠ t := fun he => hn (by rw [he, ho])
      exact (nextSavepoint_untouched hu).trans (call_untouched hq hc (.inr hu))
    case own =>
      intro t' tx j ht htx hj
      obtain rfl : t = t' := Option.some.inj (ho.symm.trans ht)
      refine ⟨{ tx with savepoints := tx.savepoints + 1 }, j, ?_, ?_, rfl, Nat.le_succ _,
        ⟨[], by simp, .nil⟩, id⟩
      · rw [call_transaction? hq, nextSavepoint_transaction? htx]
      · rw [call_error_journal hq hc, nextSavepoint_journal, hj]

/-- A scope that is refused leaves all journals as they were. -/
theorem Entry.refused_journal {e : Error} (h : Entry k d w (.error e) w')
    (hc : (w.resource k.resource).FailsCleanly) (u : TxId) : k.journal w' u = k.journal w u := by
  cases h with
  | mandatory | never | expired | conflict => rfl
  | notOpened _ _ hb =>
    rw [call_error_journal hb (addTransaction_clean hc), journal, addTransaction_resource,
      ← journal]
  | notSuspended _ _ hq => exact call_error_journal hq hc u
  | @notOpenedApart t e res w₁ w₂ w₃ _ _ hq hb hr =>
    -- Suspended, not begun, resumed: none of the three calls changes a journal.
    have hc₁ := addTransaction_clean (d := d) (call_clean hq hc)
    rw [(call_untouched hr (call_clean hb hc₁) (.inl rfl)).2, call_error_journal hb hc₁, journal,
      addTransaction_resource, ← journal, (call_untouched hq hc (.inl rfl)).2]
  | notNested _ _ _ hq => rw [call_error_journal hq (nextSavepoint_clean hc), nextSavepoint_journal]

/-! ### What an end makes -/

theorem setRollbackOnly_transaction? (mark : Bool) {tx : Transaction}
    (htx : w.transaction? t = some tx) :
    (setRollbackOnly t mark w).2.transaction? t = some { tx with rollbackOnly := mark } := by
  rw [setRollbackOnly, transaction?_changeTransaction, if_pos rfl, htx]
  rfl

theorem setRollbackOnly_untouched (mark : Bool) (hu : u ≠ t) :
    k.Untouched w (setRollbackOnly t mark w).2 u :=
  changeTransaction_untouched _ hu

theorem setRollbackOnly_journal (mark : Bool) :
    k.journal (setRollbackOnly t mark w).2 u = k.journal w u :=
  changeTransaction_journal _

theorem setRollbackOnly_size (mark : Bool) :
    (setRollbackOnly t mark w).2.transactions.size = w.transactions.size :=
  changeTransaction_size _

theorem setRollbackOnly_clean (mark : Bool) (hc : (w.resource k.resource).FailsCleanly) :
    ((setRollbackOnly t mark w).2.resource k.resource).FailsCleanly := by
  show ((changeTransaction t _ w).2.resource k.resource).FailsCleanly
  rwa [changeTransaction_resource]

theorem setState_untouched (x : TransactionState) (hu : u ≠ t) :
    k.Untouched w (setState t x w).2 u :=
  changeTransaction_untouched _ hu

theorem setState_size (x : TransactionState) :
    (setState t x w).2.transactions.size = w.transactions.size :=
  changeTransaction_size _

theorem setState_clean (x : TransactionState) (hc : (w.resource k.resource).FailsCleanly) :
    ((setState t x w).2.resource k.resource).FailsCleanly := by
  show ((changeTransaction t _ w).2.resource k.resource).FailsCleanly
  rwa [changeTransaction_resource]

/-- What an end does apart from its own transaction. -/
structure Ended (k : Coordinator) (w : World) (t : Option TxId) (w' : World) : Prop where
  clean : (w'.resource k.resource).FailsCleanly
  size : w'.transactions.size = w.transactions.size
  others : ∀ u, t ≠ some u → k.Untouched w w' u

theorem call_ended (h : call k.resource c w = (res, w'))
    (hc : (w.resource k.resource).FailsCleanly) : Ended k w (some c.transaction) w' where
  clean := call_clean h hc
  size := call_size h
  others u hu := call_untouched h hc (.inr fun he => hu (by rw [he]))

theorem Ended.changed {w w₁ w₂ : World} (h : Ended k w (some t) w₁)
    (hc : (w₂.resource k.resource).FailsCleanly)
    (hs : w₂.transactions.size = w₁.transactions.size)
    (hu : ∀ u, u ≠ t → k.Untouched w₁ w₂ u) : Ended k w (some t) w₂ where
  clean := hc
  size := hs.trans h.size
  others u hn := (h.others u hn).trans (hu u fun he => hn (by rw [he]))

theorem rollback_ended {r : Except Error Unit} (h : k.rollback t w = (r, w'))
    (hc : (w.resource k.resource).FailsCleanly) : Ended k w (some t) w' := by
  cases r with
  | error e => exact call_ended (rollback_error h) hc
  | ok =>
    obtain ⟨w₁, hq, rfl⟩ := rollback_ok h
    have he := call_ended hq hc
    exact he.changed (setState_clean _ he.clean) (setState_size _) fun u => setState_untouched _

/-- The part of a scope ends without touching any other transaction. -/
theorem Settlement.ended {p : Participation} {success : Bool} {r : Except Error Unit}
    (h : Settlement k w p success r w') (hc : (w.resource k.resource).FailsCleanly) :
    Ended k w p.transaction w' := by
  -- A mark touches the record of its own transaction only.
  have marks (t : TxId) (mark : Bool) : Ended k w (some t) (setRollbackOnly t mark w).2 :=
    ⟨setRollbackOnly_clean mark hc, setRollbackOnly_size mark,
      fun u hu => setRollbackOnly_untouched mark fun he => hu (by rw [he])⟩
  cases h with
  | committed _ _ hk =>
    have he := call_ended hk hc
    exact he.changed (setState_clean _ he.clean) (setState_size _) fun u => setState_untouched _
  | notCommitted _ _ hk hr =>
    have he := call_ended hk hc
    have hr := rollback_ended hr he.clean
    exact he.changed hr.clean hr.size fun u hu => hr.others u fun h => hu (Option.some.inj h).symm
  | overdue _ hr | marked _ _ hr | rolledBack hr => exact rollback_ended hr hc
  | left | apart => exact ⟨hc, rfl, fun u _ => .refl k w u⟩
  | late | failed => exact marks _ true
  | released hr | notUndone hr => exact call_ended hr hc
  | undone hr =>
    have he := call_ended hr hc
    exact he.changed (setRollbackOnly_clean _ he.clean) (setRollbackOnly_size _)
      fun u => setRollbackOnly_untouched _

/-- A joined transaction keeps its journal, and may be marked. -/
theorem Settlement.joined_own {success : Bool} {r : Except Error Unit} {tx : Transaction}
    (h : Settlement k w (.joined t) success r w') (htx : w.transaction? t = some tx) :
    (∃ mark, w'.transaction? t = some { tx with rollbackOnly := mark }) ∧
      k.journal w' t = k.journal w t := by
  cases h with
  | left => exact ⟨⟨tx.rollbackOnly, htx⟩, rfl⟩
  | late | failed =>
    exact ⟨⟨true, setRollbackOnly_transaction? true htx⟩, setRollbackOnly_journal true⟩

/-- A savepoint that is given up is gone with all later ones, and nothing else changes; one that
    cannot be given up stays. -/
theorem Settlement.nested_released {name : String} {mark : Bool} {r : Except Error Unit}
    {tx : Transaction} {j : Journal} {earlier later : List (String × Writes)} {writes : Writes}
    (h : Settlement k w (.nested t name mark) true r w')
    (hc : (w.resource k.resource).FailsCleanly) (htx : w.transaction? t = some tx)
    (hj : k.journal w t = some j) (hs : j.savepoints = earlier ++ (name, writes) :: later)
    (hn : ∀ sp ∈ earlier, sp.1 ≠ name) :
    w'.transaction? t = some tx ∧
      k.journal w' t = some (if r.isOk then ⟨j.writes, earlier⟩ else j) := by
  cases h with
  | released hr =>
    refine ⟨by rw [call_transaction? hr, htx], ?_⟩
    cases r with
    -- A refused release leaves the savepoint where it was.
    | error e => rw [call_error_journal hr hc, hj]; rfl
    | ok =>
      obtain ⟨j₁, j₂, hj₁, released, hj₂⟩ := call_released hr
      obtain rfl : j = j₁ := Option.some.inj (hj.symm.trans hj₁)
      rw [Journal.release?_eq hs hn] at released
      cases released
      exact hj₂

/-- Going back to a savepoint restores the writes that were pending when it was set, and the mark;
    if that fails, both stay as the scope leaves them. -/
theorem Settlement.nested_undone {name : String} {mark : Bool} {r : Except Error Unit}
    {tx : Transaction} {j : Journal} {earlier later : List (String × Writes)} {writes : Writes}
    (h : Settlement k w (.nested t name mark) false r w')
    (hc : (w.resource k.resource).FailsCleanly) (htx : w.transaction? t = some tx)
    (hj : k.journal w t = some j) (hs : j.savepoints = earlier ++ (name, writes) :: later)
    (hn : ∀ sp ∈ earlier, sp.1 ≠ name) :
    w'.transaction? t = some (if r.isOk then { tx with rollbackOnly := mark } else tx) ∧
      k.journal w' t = some (if r.isOk then ⟨writes, earlier⟩ else j) := by
  cases h with
  | notUndone hr =>
    exact ⟨by rw [call_transaction? hr, htx]; rfl, by rw [call_error_journal hr hc, hj]; rfl⟩
  -- The pending writes are those of the savepoint, which goes with all later ones.
  | @undone _ _ _ w₁ hr =>
    have htx₁ : w₁.transaction? t = some tx := by rw [call_transaction? hr, htx]
    refine ⟨setRollbackOnly_transaction? mark htx₁, ?_⟩
    obtain ⟨j₁, j₂, hj₁, restored, hj₂⟩ := call_rolledBackTo hr
    obtain rfl : j = j₁ := Option.some.inj (hj.symm.trans hj₁)
    rw [Journal.rollbackTo?_eq hs hn] at restored
    cases restored
    rw [setRollbackOnly_journal, hj₂]
    rfl

theorem finish_ended {p : Participation} {success : Bool} {r : Except Error Unit}
    (h : k.finish p success w = (r, w')) (hc : (w.resource k.resource).FailsCleanly) :
    Ended k w p.transaction w' ∧ SameFlow w w' := by
  obtain ⟨r₁, w₁, hs, ⟨_, _, rfl⟩ | ⟨t, r₂, _, hr, _⟩⟩ := finish_eq h
  · exact ⟨hs.ended hc, hs.sameFlow⟩
  · have he := hs.ended hc
    refine ⟨⟨call_clean hr he.clean, (call_size hr).trans he.size, ?_⟩,
      hs.sameFlow.trans (call_sameFlow hr)⟩
    intro u hu
    exact (he.others u hu).trans (call_untouched hr he.clean (.inl rfl))

/-- A scope that leaves nothing suspended ends with its own part. -/
theorem finish_settlement {p : Participation} {success : Bool} {r : Except Error Unit}
    (h : k.finish p success w = (r, w')) (hp : p.suspended = none) :
    Settlement k w p success r w' := by
  obtain ⟨r₁, w₁, hs, ⟨_, rfl, rfl⟩ | ⟨t, r₂, ht, _, _⟩⟩ := finish_eq h
  · exact hs
  · rw [hp] at ht
    cases ht

/-! ### A scope as a whole -/

theorem Entry.clean {r : Except Error Participation} (h : Entry k d w r w')
    (hc : (w.resource k.resource).FailsCleanly) : (w'.resource k.resource).FailsCleanly := by
  cases h with
  | mandatory | without | never | expired | conflict | joined => exact hc
  | opened _ _ hb | notOpened _ _ hb => exact call_clean hb (addTransaction_clean hc)
  | notSuspended _ _ hs | suspended _ _ hs => exact call_clean hs hc
  | openedApart _ _ hs hb => exact call_clean hb (addTransaction_clean (call_clean hs hc))
  | notOpenedApart _ _ hs hb hr =>
    exact call_clean hr (call_clean hb (addTransaction_clean (call_clean hs hc)))
  | nested _ _ _ hs | notNested _ _ _ hs => exact call_clean hs (nextSavepoint_clean hc)

/-- The world in which the body of a scope starts is sound. -/
theorem Entry.sound {p : Participation} (h : Entry k d w (.ok p) w₁) (hs : Sound k w) :
    Sound k (w₁.inScope p) where
  clean := by rw [inScope_resource]; exact h.clean hs.clean
  top c hc := by
    rw [inScope_current] at hc
    cases hc
    simp [nextContext]
  enlisted t ht := by
    rw [inScope_currentTransaction] at ht
    rw [(Untouched.inScope k p w₁ t).1, (Untouched.inScope k p w₁ t).2]
    -- What is current inside depends on how the scope takes part.
    cases p with
    | owner t' s =>
      cases ht
      have ho := (h.owner hs.clean).2
      exact ⟨_, _, ho.record, ho.journal, .nil, Journal.distinct_empty⟩
    | joined t' =>
      cases ht
      obtain ⟨hc, rfl⟩ := h.joined_eq
      exact hs.enlisted t hc
    | nested t' name mark =>
      cases ht
      obtain ⟨tx, j, htx, hj, hn, hd⟩ := hs.enlisted t h.nested_current
      obtain ⟨_, _, _, hf⟩ := h.nested_forked hs.clean htx hj
      refine ⟨_, _, hf.record, hf.journal, ?_, hd.setSavepoint _⟩
      exact (hn.mono (Nat.le_refl _) (Nat.le_succ _)).append
        (.singleton j.writes (Nat.succ_pos _) (Nat.le_refl _))
    | apart s => cases ht

section Scope

variable {p : Participation} {w₃ : World} {success : Bool} {r : Except Error Unit}

/-- What the body of a scope leaves, when its context has been taken off. -/
theorem uninstalled_clean (c : ContextId) (hb : Frame k w₁ w₂) :
    ((uninstall c w₂).2.resource k.resource).FailsCleanly := by
  rw [uninstall_resource]
  exact hb.clean

/-- A scope touches no other transaction than the one that it takes part in. -/
theorem scope_untouched (hb : Frame k (w₁.inScope p) w₂)
    (hf : k.finish p success (uninstall w.nextContext w₂).2 = (r, w₃))
    (hu : k.Untouched w w₁ u) (hlt : u.index < w₁.transactions.size)
    (hp : p.transaction ≠ some u) : k.Untouched w w₃ u := by
  -- Entry, body and end leave it alone, and so does what happens to the stack of contexts.
  have entered : k.Untouched w₁ (w₁.inScope p) u := .inScope k p w₁ u
  have inside : k.Untouched (w₁.inScope p) w₂ u :=
    hb.others u hlt (by rwa [inScope_currentTransaction])
  have uninstalled : k.Untouched w₂ (uninstall w.nextContext w₂).2 u := .uninstall k _ w₂ u
  have ended := (finish_ended hf (uninstalled_clean _ hb)).1.others u hp
  exact (((hu.trans entered).trans inside).trans uninstalled).trans ended

/-- What a scope that joined a transaction makes of it: the journal is what its body left, and the
    transaction may be marked. -/
theorem scope_joined_eq {tx : Transaction} {j : Journal}
    (hb : Frame k (w.inScope (.joined t)) w₂)
    (hf : k.finish (.joined t) success (uninstall w.nextContext w₂).2 = (r, w₃))
    (htx : w.transaction? t = some tx) (hj : k.journal w t = some j) :
    ∃ tx₂ j₂ mark, w₂.transaction? t = some tx₂ ∧ k.journal w₂ t = some j₂ ∧
      k.Continues tx j tx₂ j₂ ∧ w₃.transaction? t = some { tx₂ with rollbackOnly := mark } ∧
      k.journal w₃ t = some j₂ := by
  have entered : k.Untouched w (w.inScope (.joined t)) t := .inScope k _ w t
  have uninstalled : k.Untouched w₂ (uninstall w.nextContext w₂).2 t := .uninstall k _ w₂ t
  -- The body is framed by installing and uninstalling the context, which touch neither record nor
  -- journal.
  obtain ⟨tx₂, j₂, htx₂, hj₂, hc⟩ := hb.own t tx j (inScope_currentTransaction _ _)
    (by rw [entered.1, htx]) (by rw [entered.2, hj])
  have hs := finish_settlement hf rfl
  obtain ⟨⟨mark, htx₃⟩, hj₃⟩ := hs.joined_own (by rw [uninstalled.1, htx₂])
  rw [uninstalled.2, hj₂] at hj₃
  exact ⟨tx₂, j₂, mark, htx₂, hj₂, hc, htx₃, hj₃⟩

theorem scope_joined_own {tx : Transaction} {j : Journal} (hb : Frame k (w.inScope (.joined t)) w₂)
    (hf : k.finish (.joined t) success (uninstall w.nextContext w₂).2 = (r, w₃))
    (htx : w.transaction? t = some tx) (hj : k.journal w t = some j) :
    ∃ tx' j', w₃.transaction? t = some tx' ∧ k.journal w₃ t = some j' ∧
      k.Continues tx j tx' j' := by
  obtain ⟨tx₂, j₂, mark, _, _, hc, htx₃, hj₃⟩ := scope_joined_eq hb hf htx hj
  have marked : k.Continues tx₂ j₂ { tx₂ with rollbackOnly := mark } j₂ :=
    ⟨rfl, Nat.le_refl _, ⟨[], by simp, .nil⟩, id⟩
  exact ⟨_, _, htx₃, hj₃, hc.trans marked⟩

/-- When the body of a nested scope is through, the savepoint of the scope is still in its place,
    and is the first of its name. -/
theorem scope_nested_stack {name : String} {mark : Bool} {tx : Transaction} {j : Journal}
    (he : Entry k d w (.ok (.nested t name mark)) w₁) (hs : Sound k w)
    (hb : Frame k (w₁.inScope (.nested t name mark)) w₂)
    (htx : w.transaction? t = some tx) (hj : k.journal w t = some j) :
    ∃ tx₂ j₂ rest, w₂.transaction? t = some tx₂ ∧ k.journal w₂ t = some j₂ ∧
      k.Continues { tx with savepoints := tx.savepoints + 1 }
        (j.setSavepoint (k.savepointName (tx.savepoints + 1))) tx₂ j₂ ∧
      j₂.savepoints = j.savepoints ++ (name, j.writes) :: rest ∧
      ∀ sp ∈ j.savepoints, sp.1 ≠ name := by
  obtain ⟨ho, rfl, rfl, forked⟩ := he.nested_forked hs.clean htx hj
  -- The savepoints that were there have smaller numbers, so the new name is none of theirs.
  obtain ⟨_, _, htx', hj', numbered, _⟩ := hs.enlisted t ho
  cases htx.symm.trans htx'
  cases hj.symm.trans hj'
  have entered : k.Untouched w₁ (w₁.inScope (.nested t (k.savepointName (tx.savepoints + 1))
      tx.rollbackOnly)) t := .inScope k _ w₁ t
  obtain ⟨tx₂, j₂, htx₂, hj₂, hc⟩ := hb.own t _ _ (inScope_currentTransaction _ _)
    (by rw [entered.1, forked.record]) (by rw [entered.2, forked.journal])
  obtain ⟨rest, hr, _⟩ := hc.savepoints
  refine ⟨tx₂, j₂, rest, htx₂, hj₂, hc, ?_, numbered.ne (Nat.lt_succ_self tx.savepoints)⟩
  rw [hr]
  simp [Journal.setSavepoint]

/-- What a nested scope makes of its transaction. If its end succeeds the savepoint is gone with all
    later ones; the writes are those that its body left, or those from before if the body failed.
    If its end fails, all is as the body left it. -/
theorem scope_nested_eq {name : String} {mark : Bool} {tx : Transaction} {j : Journal}
    (he : Entry k d w (.ok (.nested t name mark)) w₁) (hs : Sound k w)
    (hb : Frame k (w₁.inScope (.nested t name mark)) w₂)
    (hf : k.finish (.nested t name mark) success (uninstall w.nextContext w₂).2 = (r, w₃))
    (htx : w.transaction? t = some tx) (hj : k.journal w t = some j) :
    ∃ tx₂ j₂, w₂.transaction? t = some tx₂ ∧ k.journal w₂ t = some j₂ ∧
      k.Continues { tx with savepoints := tx.savepoints + 1 }
        (j.setSavepoint (k.savepointName (tx.savepoints + 1))) tx₂ j₂ ∧
      w₃.transaction? t = some
        (if !success && r.isOk then { tx₂ with rollbackOnly := tx.rollbackOnly } else tx₂) ∧
      k.journal w₃ t = some
        (if r.isOk then ⟨if success then j₂.writes else j.writes, j.savepoints⟩ else j₂) := by
  obtain ⟨tx₂, j₂, rest, htx₂, hj₂, hc, stack, distinct⟩ := scope_nested_stack he hs hb htx hj
  refine ⟨tx₂, j₂, htx₂, hj₂, hc, ?_⟩
  obtain ⟨_, rfl, rfl, _⟩ := he.nested_forked hs.clean htx hj
  have uninstalled : k.Untouched w₂ (uninstall w.nextContext w₂).2 t := .uninstall k _ w₂ t
  have settled := finish_settlement hf rfl
  have hcl := uninstalled_clean w.nextContext hb
  have htx₂ : (uninstall w.nextContext w₂).2.transaction? t = some tx₂ := by
    rw [uninstalled.1, htx₂]
  have hj₂ : k.journal (uninstall w.nextContext w₂).2 t = some j₂ := by rw [uninstalled.2, hj₂]
  -- The savepoint is there, and nothing of its name lies below it: the end finds this one.
  cases success with
  | true => exact settled.nested_released hcl htx₂ hj₂ stack distinct
  | false => exact settled.nested_undone hcl htx₂ hj₂ stack distinct

/-- Whether the savepoint of a nested scope is gone afterwards or was left behind, those that were
    set before are there. -/
theorem scope_nested_own {name : String} {mark : Bool} {tx : Transaction} {j : Journal}
    (he : Entry k d w (.ok (.nested t name mark)) w₁) (hs : Sound k w)
    (hb : Frame k (w₁.inScope (.nested t name mark)) w₂)
    (hf : k.finish (.nested t name mark) success (uninstall w.nextContext w₂).2 = (r, w₃))
    (htx : w.transaction? t = some tx) (hj : k.journal w t = some j) :
    ∃ tx' j', w₃.transaction? t = some tx' ∧ k.journal w₃ t = some j' ∧
      k.Continues tx j tx' j' := by
  obtain ⟨tx₂, j₂, _, _, hc, htx₃, hj₃⟩ := scope_nested_eq he hs hb hf htx hj
  refine ⟨_, _, htx₃, hj₃, ?_⟩
  obtain ⟨rest, hr, hn⟩ := hc.savepoints
  have more : tx.savepoints + 1 ≤ tx₂.savepoints := hc.more
  have record : tx₂ = { tx with
      rollbackOnly := tx₂.rollbackOnly, savepoints := tx₂.savepoints } := hc.record
  -- Either all savepoints from this one on are gone, or this one and those after it stay behind.
  have distinct (hd : j.Distinct) : j₂.Distinct := hc.distinct (hd.setSavepoint _)
  have gone (writes : Writes) (mark : Bool) (hw : j.Distinct → writes.keys.Nodup) :
      k.Continues tx j { tx₂ with rollbackOnly := mark } ⟨writes, j.savepoints⟩ :=
    ⟨by rw [record], by show tx.savepoints ≤ tx₂.savepoints; omega, ⟨[], by simp, .nil⟩,
      fun hd => ⟨hw hd, hd.2⟩⟩
  have kept : k.Continues tx j tx₂ j₂ := by
    have top : k.Numbered tx.savepoints tx₂.savepoints
        [(k.savepointName (tx.savepoints + 1), j.writes)] :=
      .singleton j.writes (Nat.lt_succ_self _) more
    have hn : k.Numbered tx.savepoints tx₂.savepoints rest :=
      hn.mono (Nat.le_succ _) (Nat.le_refl _)
    refine ⟨record, by omega, ⟨_, ?_, top.append hn⟩, distinct⟩
    rw [hr]
    simp [Journal.setSavepoint]
  rcases r with e | _
  · cases success <;> exact kept
  · cases success with
    | true => exact gone j₂.writes tx₂.rollbackOnly fun hd => (distinct hd).1
    | false => exact gone j.writes tx.rollbackOnly fun hd => hd.1

/-- A scope around a program changes no more of its world than a program does. -/
theorem scope_frame (he : Entry k d w (.ok p) w₁) (hs : Sound k w)
    (hb : Frame k (w₁.inScope p) w₂)
    (hf : k.finish p success (uninstall w.nextContext w₂).2 = (r, w₃)) : Frame k w w₃ := by
  obtain ⟨ended, flow⟩ := finish_ended hf (uninstalled_clean _ hb)
  -- The scope's context was put on top of the stack, and is there again after the body.
  have stack : w₃.stack = w.stack := by
    have hw₂ : w₂.stack = w.nextContext :: w.stack := by
      rw [hb.stack, inScope_stack, nextContext, he.sameFlow.contexts, he.sameFlow.stack,
        nextContext]
    rw [flow.stack, uninstall_stack hw₂]
  have contexts (i : Nat) (hi : i < w.contexts.size) : w₃.contexts[i]? = w.contexts[i]? := by
    have hlt : i < w₁.contexts.size := by rwa [he.sameFlow.contexts]
    have hb := hb.contexts i (by simp only [inScope_contexts, Array.size_push]; omega)
    rw [flow.contexts, uninstall_contexts, hb, inScope_contexts, Array.getElem?_push_lt hlt,
      ← Array.getElem?_eq_getElem hlt, he.sameFlow.contexts]
  have size : w₁.transactions.size ≤ w₃.transactions.size := by
    rw [ended.size, uninstall_transactions]
    exact hb.size
  -- Where the entry touched nothing that there was, and the scope's transaction is a new one or
  -- none at all, nothing that there was is touched.
  have apart (hsize : w.transactions.size ≤ w₁.transactions.size)
      (hu : ∀ u, u.index < w.transactions.size → k.Untouched w w₁ u)
      (hp : ∀ u, u.index < w.transactions.size → p.transaction ≠ some u) : Frame k w w₃ := by
    have untouched (u : TxId) (hlt : u.index < w.transactions.size) : k.Untouched w w₃ u :=
      scope_untouched hb hf (hu u hlt) (by omega) (hp u hlt)
    refine ⟨ended.clean, stack, contexts, by omega, fun u hlt _ => untouched u hlt, ?_⟩
    intro t tx j _ htx hj
    have hlt : t.index < w.transactions.size := transaction?_isSome.mp (by rw [htx]; rfl)
    exact ⟨tx, j, by rw [(untouched t hlt).1, htx], by rw [(untouched t hlt).2, hj],
      .refl k tx j⟩
  cases p with
  | owner t s =>
    obtain ⟨_, opened⟩ := he.owner hs.clean
    refine apart (by rw [opened.size]; omega) (fun u hu => opened.others u ?_) ?_
    · rw [opened.fresh]
      exact ne_nextTx hu
    · intro u hu hp
      exact ne_nextTx hu ((Option.some.inj hp).symm.trans opened.fresh)
  | apart s =>
    obtain ⟨_, hsize, hu⟩ := he.apart hs.clean
    exact apart (by omega) (fun u _ => hu u) fun u _ hp => by cases hp
  | joined t =>
    obtain ⟨ho, rfl⟩ := he.joined_eq
    refine ⟨ended.clean, stack, contexts, size, ?_, ?_⟩
    · intro u hlt hn
      exact scope_untouched hb hf (.refl k w₁ u) hlt fun h => hn (by rw [ho]; exact h)
    · intro t' tx j ht htx hj
      obtain rfl : t = t' := Option.some.inj (ho.symm.trans ht)
      exact scope_joined_own hb hf htx hj
  | nested t name mark =>
    have ho : w.currentTransaction = some t := he.nested_current
    obtain ⟨tx, j, htx, hj, _, _⟩ := hs.enlisted t ho
    obtain ⟨_, _, _, forked⟩ := he.nested_forked hs.clean htx hj
    refine ⟨ended.clean, stack, contexts, by rw [← forked.size]; exact size, ?_, ?_⟩
    · intro u hlt hn
      have hne : u ≠ t := fun h => hn (by rw [ho, h])
      exact scope_untouched hb hf (forked.others u hne) (by rw [forked.size]; exact hlt)
        fun h => hne (Option.some.inj h).symm
    · intro t' tx j ht htx hj
      obtain rfl : t = t' := Option.some.inj (ho.symm.trans ht)
      exact scope_nested_own he hs hb hf htx hj

end Scope

/-! ### Small steps -/

theorem Written.frame {key : String} {value : Option Value}
    (h : Written k.resource key value w res w') (hs : Sound k w) : Frame k w w' := by
  have clean (m : Memory) : ({ w.resource k.resource with memory := m }).FailsCleanly := hs.clean
  cases h with
  | readOnly | notEnlisted => exact .refl hs
  | atOnce hc =>
    -- Only committed values change, and nothing is said about these.
    refine .of_untouched (setMemory_sameFlow _ _ _) ?_ ?_ fun u _ => ⟨?_, ?_⟩
    · rw [setMemory_resource]; exact clean _
    · exact Nat.le_of_eq (by rw [setMemory_transactions])
    · rw [setMemory_transaction?]
    · rw [journal, setMemory_resource, journal]
  | @pending t j hc hr hj =>
    have hf := setMemory_sameFlow w k.resource { (w.resource k.resource).memory with
      journals := (w.resource k.resource).memory.journals.insert t (j.write key value) }
    constructor
    case clean => rw [setMemory_resource]; exact clean _
    case stack => exact hf.stack
    case contexts => exact fun i _ => by rw [hf.contexts]
    case size => exact Nat.le_of_eq (by rw [setMemory_transactions])
    case others =>
      intro u _ hn
      have hne : u ≠ t := fun h => hn (by rw [hc, h])
      refine ⟨by rw [setMemory_transaction?], ?_⟩
      rw [journal, setMemory_resource, Dict.get?_insert, if_neg hne, journal]
    case own =>
      intro t' tx j' ht htx hj'
      obtain rfl : t = t' := Option.some.inj (hc.symm.trans ht)
      obtain rfl : j = j' := Option.some.inj (hj.symm.trans hj')
      refine ⟨tx, j.write key value, by rw [setMemory_transaction?, htx], ?_, rfl,
        Nat.le_refl _, ⟨[], by simp [Journal.write], .nil⟩, fun hd => hd.write key value⟩
      rw [journal, setMemory_resource, Dict.get?_insert_self]

theorem markCurrent_frame (hs : Sound k w) : Frame k w w.markCurrent := by
  unfold markCurrent
  cases hc : w.currentTransaction with
  | none => exact .refl hs
  | some t =>
    constructor
    case clean => exact setRollbackOnly_clean true hs.clean
    case stack => exact rfl
    case contexts => exact fun _ _ => rfl
    case size => exact Nat.le_of_eq (by rw [setRollbackOnly_size])
    case others =>
      intro u _ hn
      exact setRollbackOnly_untouched true fun h => hn (by rw [hc, h])
    case own =>
      intro t' tx j ht htx hj
      obtain rfl : t = t' := Option.some.inj (hc.symm.trans ht)
      exact ⟨_, j, setRollbackOnly_transaction? true htx, by rw [setRollbackOnly_journal, hj],
        rfl, Nat.le_refl _, ⟨[], by simp, .nil⟩, id⟩

theorem advance_frame (ms : Nat) (hs : Sound k w) : Frame k w (advance ms w).2 := by
  have resource : (advance ms w).2.resource k.resource = w.resource k.resource := by
    cases k.resource <;> rfl
  have untouched (u : TxId) : k.Untouched w (advance ms w).2 u := .of_eq rfl resource u
  refine ⟨by rw [resource]; exact hs.clean, rfl, fun _ _ => rfl, Nat.le_refl _,
    fun u _ _ => untouched u, ?_⟩
  intro t tx j _ htx hj
  exact ⟨tx, j, by rw [(untouched t).1, htx], by rw [(untouched t).2, hj], .refl k tx j⟩

/-! ### Runs of scopes -/

/-- A scope's run is one in a sound world, whose body stays within its frame. -/
structure Proper (k : Coordinator) (run : ScopeRun) : Prop where
  sound : Sound k run.before
  entry : ∃ w₁, Entry k run.definition run.before (.ok run.scope.participation) w₁ ∧
    run.entered = w₁.inScope run.scope.participation
  context : run.scope.context = run.before.nextContext
  body : Frame k run.entered run.left
  finish : k.finish run.scope.participation run.result.isOk
    (uninstall run.scope.context run.left).2 = (run.told, run.after)

namespace Proper

variable {run : ScopeRun}

theorem frame (h : Proper k run) : Frame k run.before run.after := by
  obtain ⟨w₁, he, hw⟩ := h.entry
  have hf := h.finish
  rw [h.context] at hf
  exact scope_frame he h.sound (hw ▸ h.body) hf

theorem entered_sound (h : Proper k run) : Sound k run.entered := by
  obtain ⟨w₁, he, hw⟩ := h.entry
  rw [hw]
  exact he.sound h.sound

/-- The end of a scope, seen from when its context has been taken off. -/
theorem ended (h : Proper k run) :
    Ended k (uninstall run.scope.context run.left).2 run.scope.participation.transaction
        run.after ∧
      SameFlow (uninstall run.scope.context run.left).2 run.after :=
  finish_ended h.finish (uninstalled_clean _ h.body)

end Proper

theorem scopeRun_proper {body : StateM World (Except Stop Value)} {run : ScopeRun}
    (h : k.scopeRun d body w = .ok run) (hs : Sound k w)
    (hb : ∀ w, Sound k w → Frame k w (body w).2) : Proper k run := by
  obtain ⟨rfl, rfl, hbegin, hbody, hfinish⟩ := scopeRun_ok h
  obtain ⟨w₁, he, hcontext, hw⟩ := begin_ok hbegin
  refine ⟨hs, ⟨w₁, he, hw⟩, hcontext, ?_, hfinish⟩
  have := hb run.entered (hw ▸ he.sound hs)
  rwa [hbody] at this

/-! ### Steps that leave no trace -/

/-- A step that leaves no trace on record: nothing that is pending is changed. -/
structure Quiet (k : Coordinator) (w w' : World) : Prop where
  frame : Frame k w w'
  pending : ∀ t j, w.currentTransaction = some t → k.journal w t = some j →
    k.journal w' t = some j

namespace Quiet

theorem refl (hs : Sound k w) : Quiet k w w := ⟨.refl hs, fun _ _ _ hj => hj⟩

theorem markCurrent (hs : Sound k w) : Quiet k w w.markCurrent := by
  refine ⟨markCurrent_frame hs, ?_⟩
  intro t j ht hj
  rw [World.markCurrent, ht, setRollbackOnly_journal, hj]

theorem advance (ms : Nat) (hs : Sound k w) : Quiet k w (advance ms w).2 := by
  refine ⟨advance_frame ms hs, ?_⟩
  intro t j _ hj
  rw [← hj, journal, journal]
  cases k.resource <;> rfl

/-- A write that is refused changes nothing. -/
theorem write {key : String} {value : Option Value} {e : Error} (hs : Sound k w)
    (hw : World.write k.resource key value w = (.error e, w')) : Quiet k w w' := by
  cases write_eq hw with
  | readOnly | notEnlisted => exact .refl hs

/-- A scope that is refused uses up a name at most. -/
theorem refused {d : TransactionDefinition} {e : Error} (hs : Sound k w)
    (hb : k.begin d w = (.error e, w')) : Quiet k w w' := by
  have entry := begin_error hb
  refine ⟨entry.refused_frame hs, ?_⟩
  intro t j ht hj
  rw [entry.refused_journal hs.clean, hj]

end Quiet

end Coordinator

namespace Program

variable {k : Coordinator} {w : World}

open Coordinator

/-- Every program stays within its frame. -/
theorem frame (p : Program) (hs : Sound k w) : Frame k w (p.run k w).2 := by
  -- Each step stays within the frame and leaves a sound world to the steps that follow; for a
  -- scope, the induction hypothesis is about its body.
  induction p generalizing w with
  | done result => exact .refl hs
  | get key next ih => exact ih _ hs
  | write key value next ih =>
    rcases hw : World.write k.resource key value w with ⟨r, w₁⟩
    have step : Frame k w w₁ := Coordinator.Written.frame (write_eq hw) hs
    simp only [run, hw]
    exact step.trans hs (ih r (step.sound hs))
  | mark next ih =>
    have step := markCurrent_frame hs
    exact step.trans hs (ih (step.sound hs))
  | wait ms next ih =>
    have step := advance_frame ms hs
    exact step.trans hs (ih (step.sound hs))
  | execute d body next ihb ihn =>
    cases h : k.scopeRun d (body.run k) w with
    | error ew =>
      obtain ⟨e, w₁⟩ := ew
      have step : Frame k w w₁ := (begin_error (scopeRun_error h)).refused_frame hs
      rw [run_execute_refused h]
      exact step.trans hs (ihn _ (step.sound hs))
    | ok r =>
      have proper := scopeRun_proper h hs fun w => ihb
      have step : Frame k w r.after := (scopeRun_ok h).2.1 ▸ proper.frame
      rw [run_execute h]
      exact step.trans hs (ihn _ (step.sound hs))

/-! ### Induction over what happens -/

/-- Induction over what is on the record of a run in a sound world: quiet steps, writes that are
    taken, and scopes, each of which leaves a sound world to the steps that follow. -/
theorem record_induction {motive : (p : Program) → (w : World) → Sound k w → Prop}
    (done : ∀ result w hs, motive (.done result) w hs)
    (quiet : ∀ p p' w w₁ hs (step : Quiet k w w₁), p.run k w = p'.run k w₁ →
      p.record k w = p'.record k w₁ → motive p' w₁ (step.frame.sound hs) → motive p w hs)
    (wrote : ∀ p p' key value w w₁ hs (step : Frame k w w₁),
      World.write k.resource key value w = (.ok (), w₁) → p.run k w = p'.run k w₁ →
      p.record k w = .wrote w.current key value (p'.record k w₁) →
      motive p' w₁ (step.sound hs) → motive p w hs)
    (scope : ∀ p body p' run (proper : Proper k run),
      body.run k run.entered = (run.result, run.left) →
      p.run k run.before = p'.run k run.after →
      p.record k run.before = .scope run (body.record k run.entered) (p'.record k run.after) →
      motive body run.entered proper.entered_sound →
      motive p' run.after (proper.frame.sound proper.sound) → motive p run.before proper.sound)
    (p : Program) (w : World) (hs : Sound k w) : motive p w hs := by
  -- The tree gives the cases; what a step needs besides is that the world stays sound.
  induction p generalizing w with
  | done result => exact done result w hs
  | get key next ih =>
    exact quiet _ (next (w.read k.resource key)) w w hs (.refl hs) rfl rfl (ih _ w hs)
  | write key value next ih =>
    rcases hw : World.write k.resource key value w with ⟨e | u, w₁⟩
    · have step : Quiet k w w₁ := .write hs hw
      exact quiet _ (next (.error e)) w w₁ hs step (by simp only [run, hw])
        (by simp only [record, hw]) (ih _ w₁ (step.frame.sound hs))
    · have step : Frame k w w₁ := Coordinator.Written.frame (write_eq hw) hs
      exact wrote _ (next (.ok ())) key value w w₁ hs step hw (by simp only [run, hw])
        (by simp only [record, hw]) (ih _ w₁ (step.sound hs))
  | mark next ih =>
    have step : Quiet k w w.markCurrent := .markCurrent hs
    exact quiet _ next w _ hs step rfl rfl (ih _ (step.frame.sound hs))
  | wait ms next ih =>
    have step : Quiet k w (World.advance ms w).2 := .advance ms hs
    exact quiet _ next w _ hs step rfl rfl (ih _ (step.frame.sound hs))
  -- A scope is one step for those outside, and a run of its own inside.
  | execute d body next ihb ihn =>
    cases h : k.scopeRun d (body.run k) w with
    | error ew =>
      obtain ⟨e, w₁⟩ := ew
      have step : Quiet k w w₁ := .refused hs (scopeRun_error h)
      exact quiet _ (next (.error (.ofError e))) w w₁ hs step (run_execute_refused h)
        (by simp only [record, h]) (ihn _ w₁ (step.frame.sound hs))
    | ok r =>
      have proper := scopeRun_proper h hs fun w => body.frame
      obtain ⟨_, rfl, _, hbody, _⟩ := scopeRun_ok h
      exact scope _ body (next r.outcome) r proper hbody (run_execute h)
        (by simp only [record, h]) (ihb _ proper.entered_sound)
        (ihn _ _ (proper.frame.sound proper.sound))

/-- Every scope on the record of a program ran properly, and had a program for its body. -/
theorem scopes_proper (p : Program) (hs : Sound k w) : ∀ o ∈ (p.record k w).scopes,
    Proper k o.run ∧ ∃ body : Program,
      body.run k o.run.entered = (o.run.result, o.run.left) ∧
        body.record k o.run.entered = o.inside := by
  induction p, w, hs using record_induction with
  | done result w hs => simp [record, Record.scopes]
  | quiet p p' w w₁ hs step hrun hrecord ih =>
    rw [hrecord]
    exact ih
  | wrote p p' key value w w₁ hs step hw hrun hrecord ih =>
    rw [hrecord]
    exact ih
  | scope p body p' run proper hbody hrun hrecord ihb ihn =>
    rw [hrecord]
    intro o ho
    -- It is this scope, one inside its body, or one after it.
    rcases List.mem_cons.mp ho with rfl | ho
    · exact ⟨proper, body, hbody, rfl⟩
    · rcases List.mem_append.mp ho with ho | ho
      · obtain ⟨o', ho', rfl⟩ := List.mem_map.mp ho
        exact ihb o' ho'
      · exact ihn o ho

end Program

end ComponentHost
