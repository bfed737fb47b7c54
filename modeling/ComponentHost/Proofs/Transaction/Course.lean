import ComponentHost.Proofs.Transaction.Trail

/-! # The course of a transaction

  What happens on a flow concerns one transaction now and then. As long as the transaction has a
  journal, `Effect` lists all that an event can do to its record and its journal. Whatever is to be
  shown about a single transaction along a trail follows from this list, and does not look at flows
  again.

  Nothing else makes a journal but the begin of its transaction, and no owner's end leaves it.
-/

namespace ComponentHost

open World Attempt

namespace Coordinator

open ComponentHost.Flow

variable {k : Coordinator} {d : TransactionDefinition} {w w' w₀ : World} {t u : TxId}
  {f f' : Flow} {e : Flow.Event} {es : List Flow.Event} {tx tx' : Transaction} {j j' : Journal}

/-- What an event does to the record and the journal of a transaction that has a journal before and
    after it. -/
inductive Effect (k : Coordinator) (t : TxId) (tx : Transaction) (j : Journal) :
    Flow.Event → Transaction → Journal → Prop
  /-- The event is about another transaction, or about none. -/
  | elsewhere {e : Flow.Event} (he : e.transaction ≠ some t) : Effect k t tx j e tx j
  | joined {s : TransactionScope} (hs : s.participation = .joined t) :
      Effect k t tx j (.begun s) tx j
  /-- The name of a savepoint is used up that cannot be set. -/
  | named : Effect k t tx j .nothing { tx with savepoints := tx.savepoints + 1 } j
  /-- A savepoint is set for a nested scope, which remembers the mark. -/
  | forked {s : TransactionScope}
      (hs : s.participation = .nested t (k.savepointName (tx.savepoints + 1)) tx.rollbackOnly) :
      Effect k t tx j (.begun s) { tx with savepoints := tx.savepoints + 1 }
        (j.setSavepoint (k.savepointName (tx.savepoints + 1)))
  | wrote {wr : WriteRecord} : Effect k t tx j (.wrote wr (some t)) tx (j.write wr.key wr.value)
  /-- A scope that joined it ends well. If its time is up it is marked. -/
  | left {s : TransactionScope} {told mark : Bool} (hs : s.participation = .joined t)
      (hm : tx.rollbackOnly = true → mark = true) :
      Effect k t tx j (.ended s true told) { tx with rollbackOnly := mark } j
  /-- A scope that joined it failed. -/
  | failed {s : TransactionScope} {told : Bool} (hs : s.participation = .joined t) :
      Effect k t tx j (.ended s false told) { tx with rollbackOnly := true } j
  /-- A nested scope gives up its savepoint, and with it all later ones. -/
  | released {s : TransactionScope} {name : String} {mark : Bool} {writes : Writes}
      {sps sps' : List (String × Writes)} (hs : s.participation = .nested t name mark)
      (hj : j.savepoints = sps ++ (name, writes) :: sps') (hn : ∀ sp ∈ sps, sp.1 ≠ name) :
      Effect k t tx j (.ended s true true) tx ⟨j.writes, sps⟩
  /-- A nested scope failed and the transaction goes back behind it. -/
  | undone {s : TransactionScope} {name : String} {mark : Bool} {writes : Writes}
      {sps sps' : List (String × Writes)} (hs : s.participation = .nested t name mark)
      (hj : j.savepoints = sps ++ (name, writes) :: sps') (hn : ∀ sp ∈ sps, sp.1 ≠ name) :
      Effect k t tx j (.ended s false true) { tx with rollbackOnly := mark } ⟨writes, sps⟩
  /-- A nested scope ends, well or not, but its savepoint is gone. -/
  | missing {s : TransactionScope} {success : Bool} {name : String} {mark : Bool}
      (hs : s.participation = .nested t name mark) (hj : ∀ sp ∈ j.savepoints, sp.1 ≠ name) :
      Effect k t tx j (.ended s success false) tx j

/-! ### Journals and records -/

/-- A transaction with a journal has a record. -/
theorem Books.record {o : List TxId} (hb : Books k w o) (hj : k.journal w t = some j) :
    ∃ tx, w.transaction? t = some tx := by
  have hk : t ∈ (w.resource k.resource).memory.journals.keys := by
    rw [Dict.mem_keys]
    exact Option.isSome_of_eq_some hj
  have active := ((hb.lifeCycle.journals t).mp hk).2
  obtain ⟨tx, htx, _⟩ := Option.map_eq_some_iff.mp active
  exact ⟨tx, htx⟩

/-- What a scope owns has a record and a journal. -/
theorem Books.owned_journal {o : List TxId} (hb : Books k w o) (ht : t ∈ o) :
    ∃ tx j, w.transaction? t = some tx ∧ k.journal w t = some j := by
  have running := congrArg Account.hasJournal (hb.running t ht)
  obtain ⟨j, hj⟩ := Option.isSome_iff_exists.mp running
  obtain ⟨tx, htx⟩ := hb.record hj
  exact ⟨tx, j, htx, hj⟩

/-! ### Scopes that are begun or refused -/

/-- The savepoint of a nested scope was set in a journal. -/
theorem Entry.nested_journal {name : String} {mark : Bool}
    (h : Entry k d w (.ok (.nested t name mark)) w') : ∃ j, k.journal w t = some j := by
  generalize hp : Participation.nested t name mark = p at h
  cases h with
  | without | opened | joined | openedApart | suspended => cases hp
  | nested _ _ _ hs =>
    obtain ⟨rfl, rfl, rfl⟩ := Participation.nested.inj hp
    obtain ⟨j, hj, _⟩ := call_saved hs
    exact ⟨j, nextSavepoint_journal.symm.trans hj⟩

/-- A scope that is refused leaves a record alone, or uses up the name of a savepoint in the
    transaction that it was to be nested in. -/
theorem Entry.refused_record {e : Error} (h : Entry k d w (.error e) w')
    (htx : w.transaction? t = some tx) :
    w'.transaction? t = some tx ∨ d.propagation = .nested ∧ w.currentTransaction = some t ∧
      w'.transaction? t = some { tx with savepoints := tx.savepoints + 1 } := by
  -- What has a record is older than what is being opened.
  have older : t ≠ w.nextTx := ne_nextTx (transaction?_isSome.mp (by rw [htx]; rfl))
  cases h with
  | mandatory | never | expired | conflict => exact .inl htx
  | notOpened _ _ hb =>
    left
    rw [call_transaction? hb, (addTransaction_untouched (k := k) older).1, htx]
  | notSuspended _ _ hs => exact .inl (by rw [call_transaction? hs, htx])
  | notOpenedApart _ _ hs hb hr =>
    left
    rw [nextTx, ← call_transactions hs] at older
    rw [call_transaction? hr, call_transaction? hb, (addTransaction_untouched (k := k) older).1,
      call_transaction? hs, htx]
  | @notNested t' e w₁ hc hd _ hs =>
    rw [call_transaction? hs]
    -- Asking for a savepoint uses up a name, even where it is then refused.
    by_cases ht : t = t'
    · subst ht
      exact .inr ⟨hd, hc, nextSavepoint_transaction? htx⟩
    · exact .inl ((nextSavepoint_untouched (k := k) ht).1.trans htx)

/-! ### Scopes that end -/

/-- Where the savepoints have a name, they have it first in some place. -/
theorem exists_first_savepoint {sps : List (String × Writes)} {name : String}
    (h : ∃ sp ∈ sps, sp.1 = name) : ∃ before writes after,
      sps = before ++ (name, writes) :: after ∧ ∀ sp ∈ before, sp.1 ≠ name := by
  induction sps with
  | nil => simp at h
  | cons sp sps ih =>
    by_cases hsp : sp.1 = name
    · exact ⟨[], sp.2, sps, by rw [← hsp]; rfl, by simp⟩
    · obtain ⟨before, writes, after, rfl, hn⟩ := ih (by simpa [hsp] using h)
      exact ⟨sp :: before, writes, after, rfl, by simpa [hsp] using hn⟩

/-- Where no savepoint has the name, none can be given up or gone back to. -/
theorem Journal.position?_eq_none {name : String} (h : ∀ sp ∈ j.savepoints, sp.1 ≠ name) :
    j.position? name = none :=
  List.findIdx?_eq_none_iff.mpr fun sp hsp => by simpa using h sp hsp

theorem Settlement.joined_journal {success : Bool} {r : Except Error Unit}
    (h : Settlement k w (.joined t) success r w') : k.journal w' t = k.journal w t := by
  cases h with
  | left => rfl
  | late | failed => exact setRollbackOnly_journal true

theorem Settlement.joined_effect {s : TransactionScope} {success told : Bool}
    {r : Except Error Unit} (h : Settlement k w (.joined t) success r w')
    (hs : s.participation = .joined t) (htx : w.transaction? t = some tx) :
    ∃ tx', w'.transaction? t = some tx' ∧ ∀ j, Effect k t tx j (.ended s success told) tx' j := by
  cases h with
  | left =>
    have same (j : Journal) : Effect k t tx j (.ended s true told) tx j := .left hs id
    exact ⟨tx, htx, same⟩
  | late =>
    exact ⟨_, setRollbackOnly_transaction? true htx, fun j => .left hs fun _ => rfl⟩
  | failed => exact ⟨_, setRollbackOnly_transaction? true htx, fun j => .failed hs⟩

theorem Settlement.nested_journal {name : String} {mark success : Bool} {r : Except Error Unit}
    (h : Settlement k w (.nested t name mark) success r w')
    (hc : (w.resource k.resource).FailsCleanly) (hj : k.journal w' t = some j') :
    ∃ j, k.journal w t = some j := by
  -- A call that fails leaves the journal there, and one that succeeds has found it.
  cases h with
  | @released _ _ _ r _ hr =>
    cases r with
    | error e => exact ⟨j', (call_error_journal hr hc t).symm.trans hj⟩
    | ok =>
      obtain ⟨j, _, hj, _⟩ := call_released hr
      exact ⟨j, hj⟩
  | notUndone hr => exact ⟨j', (call_error_journal hr hc t).symm.trans hj⟩
  | undone hr =>
    obtain ⟨j, _, hj, _⟩ := call_rolledBackTo hr
    exact ⟨j, hj⟩

/-- A savepoint that is gone can neither be given up nor gone back to. -/
theorem Settlement.nested_missing {name : String} {mark success : Bool} {r : Except Error Unit}
    (h : Settlement k w (.nested t name mark) success r w')
    (hc : (w.resource k.resource).FailsCleanly) (hj : k.journal w t = some j)
    (hn : ∀ sp ∈ j.savepoints, sp.1 ≠ name) : r.isOk = false ∧ k.Untouched w w' t := by
  -- Release and rollback look the name up first, and both fail without it.
  have hp := Journal.position?_eq_none hn
  have failed {e : Error} {c : Call} {w₁ : World} (hq : call k.resource c w = (.error e, w₁)) :
      k.Untouched w w₁ t := ⟨call_transaction? hq t, call_error_journal hq hc t⟩
  cases h with
  | @released _ _ _ r w₁ hr =>
    cases r with
    | error e => exact ⟨rfl, failed hr⟩
    | ok =>
      obtain ⟨j₁, j₂, hj₁, released, _⟩ := call_released hr
      obtain rfl : j = j₁ := Option.some.inj (hj.symm.trans hj₁)
      simp [Journal.release?, hp] at released
  | undone hr =>
    obtain ⟨j₁, j₂, hj₁, restored, _⟩ := call_rolledBackTo hr
    obtain rfl : j = j₁ := Option.some.inj (hj.symm.trans hj₁)
    simp [Journal.rollbackTo?, hp] at restored
  | notUndone hr => exact ⟨rfl, failed hr⟩

theorem Settlement.nested_effect {s : TransactionScope} {name : String} {mark success : Bool}
    {r : Except Error Unit} (h : Settlement k w (.nested t name mark) success r w')
    (hs : s.participation = .nested t name mark) (hf : (w.resource k.resource).Faultless)
    (htx : w.transaction? t = some tx) (hj : k.journal w t = some j) :
    ∃ tx' j', w'.transaction? t = some tx' ∧ k.journal w' t = some j' ∧
      Effect k t tx j (.ended s success r.isOk) tx' j' := by
  have hc := hf.failsCleanly
  -- Scopes that end out of order can have taken the savepoint away.
  by_cases hn : ∃ sp ∈ j.savepoints, sp.1 = name
  · obtain ⟨sps, writes, sps', hsps, hfirst⟩ := exists_first_savepoint hn
    obtain rfl := h.nested_faultless hf hj hsps hfirst
    cases success with
    | true =>
      obtain ⟨htx', hj'⟩ := h.nested_released hc htx hj hsps hfirst
      exact ⟨_, _, htx', hj', .released hs hsps hfirst⟩
    | false =>
      obtain ⟨htx', hj'⟩ := h.nested_undone hc htx hj hsps hfirst
      exact ⟨_, _, htx', hj', .undone hs hsps hfirst⟩
  · have hn : ∀ sp ∈ j.savepoints, sp.1 ≠ name := fun sp hsp he => hn ⟨sp, hsp, he⟩
    obtain ⟨hr, hu⟩ := h.nested_missing hc hj hn
    rw [hr]
    exact ⟨tx, j, hu.1.trans htx, hu.2.trans hj, .missing hs hn⟩

/-- Without faults, the end of an owner leaves no journal. -/
theorem Settlement.owner_journal {outer : Option TxId} {success : Bool} {r : Except Error Unit}
    (h : Settlement k w (.owner t outer) success r w') (hf : (w.resource k.resource).Faultless) :
    k.journal w' t = none := by
  -- However it ends, the owner leaves no journal of its transaction.
  have rolled {w w' : World} {r : Except Error Unit} (hr : k.rollback t w = (r, w'))
      (hf : (w.resource k.resource).Faultless) : k.journal w' t = none := by
    obtain rfl := (rollback_faultless hr hf).1
    obtain ⟨w₁, hq, rfl⟩ := rollback_ok hr
    have hm := Resource.call_ok (call_resource_eq hq)
    simp only [Memory.perform, Except.ok.injEq] at hm
    rw [setState, changeTransaction_journal, journal, ← hm, Dict.get?_erase_self]
  cases h with
  | @committed _ _ w₁ _ _ hk =>
    obtain ⟨j, _, hm⟩ := Memory.perform_commit (Resource.call_ok (call_resource_eq hk))
    rw [setState, changeTransaction_journal, journal, hm, Dict.get?_erase_self]
  | notCommitted _ _ hk hr => exact rolled hr (call_faultless hk hf)
  | overdue _ hr | marked _ _ hr | rolledBack hr => exact rolled hr hf

/-! ### Moves -/

/-- The transaction has a record and a journal before and after an event, which the event turns into
    each other. -/
def Affects (k : Coordinator) (t : TxId) (w : World) (e : Flow.Event) (w' : World) : Prop :=
  ∃ tx j tx' j', w.transaction? t = some tx ∧ k.journal w t = some j ∧
    w'.transaction? t = some tx' ∧ k.journal w' t = some j' ∧ Effect k t tx j e tx' j'

section Affects

variable {o : List TxId}

/-- Where a transaction is not touched the event was about another one. -/
theorem Untouched.affects (hu : k.Untouched w w' t) (hb : Books k w o)
    (hj : k.journal w' t = some j) (he : e.transaction ≠ some t) : Affects k t w e w' := by
  have hj₀ := hu.2.symm.trans hj
  obtain ⟨tx, htx⟩ := hb.record hj₀
  exact ⟨tx, j, tx, j, htx, hj₀, hu.1.trans htx, hj, .elsewhere he⟩

/-- A scope that is begun sets at most a savepoint in a transaction that there was. -/
theorem Entry.begun_affects {p : Participation} {c : ContextId} (h : Entry k d w (.ok p) w')
    (hb : Books k w o) (hc : (w.resource k.resource).FailsCleanly)
    (hn : ∀ outer, p ≠ .owner t outer) (hj : k.journal (w'.inScope p) t = some j) :
    Affects k t w (.begun ⟨p, c⟩) (w'.inScope p) := by
  have inside : k.Untouched w' (w'.inScope p) t := .inScope k p w' t
  -- Only the transaction the scope takes part in is affected, and it in its own way.
  cases p with
  | owner u outer =>
    have hu : t ≠ u := fun he => hn outer (he ▸ rfl)
    exact (((h.owner hc).2.others t hu).trans inside).affects hb hj
      fun he => hu (Option.some.inj he).symm
  | joined u =>
    obtain ⟨_, rfl⟩ := h.joined_eq
    by_cases hu : t = u
    · subst hu
      have hj₀ := inside.2.symm.trans hj
      obtain ⟨tx, htx⟩ := hb.record hj₀
      exact ⟨tx, j, tx, j, htx, hj₀, inside.1.trans htx, hj, .joined rfl⟩
    · exact inside.affects hb hj fun he => hu (Option.some.inj he).symm
  | nested u name mark =>
    obtain ⟨j₀, hj₀⟩ := h.nested_journal
    obtain ⟨tx, htx⟩ := hb.record hj₀
    obtain ⟨_, rfl, rfl, forked⟩ := h.nested_forked hc htx hj₀
    by_cases hu : t = u
    · subst hu
      exact ⟨tx, j₀, _, _, htx, hj₀, inside.1.trans forked.record, inside.2.trans forked.journal,
        .forked rfl⟩
    · exact ((forked.others t hu).trans inside).affects hb hj
        fun he => hu (Option.some.inj he).symm
  | apart outer =>
    exact (((h.apart hc).2.2 t).trans inside).affects hb hj
      (by simp [Flow.Event.transaction, Participation.transaction])

theorem Entry.refused_affects {e : Error} (h : Entry k d w (.error e) w') (hb : Books k w o)
    (hc : (w.resource k.resource).FailsCleanly) (hj : k.journal w' t = some j) :
    Affects k t w .nothing w' := by
  have hj₀ := (h.refused_journal hc t).symm.trans hj
  obtain ⟨tx, htx⟩ := hb.record hj₀
  rcases h.refused_record htx with htx' | ⟨_, _, htx'⟩
  · exact ⟨tx, j, tx, j, htx, hj₀, htx', hj, .elsewhere (by simp [Flow.Event.transaction])⟩
  · exact ⟨tx, j, _, j, htx, hj₀, htx', hj, .named⟩

theorem Written.affects {key : String} {value : Option Value}
    (h : Written k.resource key value w (.ok ()) w') (hb : Books k w o)
    (hj : k.journal w' t = some j) :
    Affects k t w (.wrote ⟨w.current, key, value⟩ w.currentTransaction) w' := by
  have same : w'.transaction? t = w.transaction? t := by
    rw [transaction?, h.transactions, transaction?]
  cases h with
  | atOnce hn =>
    refine Untouched.affects ⟨same, ?_⟩ hb hj (by rw [Flow.Event.transaction, hn]; simp)
    rw [journal, setMemory_resource, journal]
  | @pending u j₀ hu hr hj₀ =>
    rw [hu]
    -- Only the journal of the current transaction gets the write.
    by_cases ht : t = u
    · subst ht
      obtain ⟨tx, htx⟩ := hb.record hj₀
      refine ⟨tx, j₀, tx, j₀.write key value, htx, hj₀, same.trans htx, ?_, .wrote⟩
      rw [journal, setMemory_resource, Dict.get?_insert_self]
    · refine Untouched.affects ⟨same, ?_⟩ hb hj fun he => ht (Option.some.inj he).symm
      rw [journal, setMemory_resource, Dict.get?_insert, if_neg ht, journal]

/-- The end of a scope touches the transaction of the scope only, and leaves no journal of it if the
    scope owns it. -/
theorem finish_affects {s : TransactionScope} {success : Bool} {r : Except Error Unit}
    (h : k.finish s.participation success w = (r, w')) (hb : Books k w o)
    (hf : (w.resource k.resource).Faultless) (hj : k.journal w' t = some j) :
    Affects k t w (.ended s success r.isOk) w' := by
  have ended := (finish_ended h hf.failsCleanly).1
  by_cases ht : s.participation.transaction = some t
  · cases hp : s.participation with
    | apart outer => rw [hp] at ht; cases ht
    | owner u outer =>
      -- Taking up another transaction makes no journal either.
      rw [hp] at h ht
      cases ht
      obtain ⟨r₁, w₁, settled, ⟨_, _, rfl⟩ | ⟨u, r₂, _, hr, _⟩⟩ := finish_eq h
      · rw [settled.owner_journal hf] at hj
        cases hj
      · rw [(call_untouched hr (settled.faultless hf).failsCleanly (.inl rfl)).2,
          settled.owner_journal hf] at hj
        cases hj
    | joined u =>
      rw [hp] at h ht
      cases ht
      have settled := finish_settlement h rfl
      have hj₀ := settled.joined_journal.symm.trans hj
      obtain ⟨tx, htx⟩ := hb.record hj₀
      obtain ⟨tx', htx', effect⟩ := settled.joined_effect hp htx
      exact ⟨tx, j, tx', j, htx, hj₀, htx', hj, effect j⟩
    | nested u name mark =>
      rw [hp] at h ht
      cases ht
      have settled := finish_settlement h rfl
      obtain ⟨j₀, hj₀⟩ := settled.nested_journal hf.failsCleanly hj
      obtain ⟨tx, htx⟩ := hb.record hj₀
      obtain ⟨tx', j', htx', hj', effect⟩ := settled.nested_effect hp hf htx hj₀
      exact ⟨tx, j₀, tx', j', htx, hj₀, htx', hj', effect⟩
  · exact (ended.others t ht).affects hb hj ht

end Affects

/-- **What a move makes of a transaction.** If there is a journal of it afterwards, its record and
    its journal were there before and came about by one of the effects, or the transaction is new
    and its journal is empty. -/
theorem Move.affects (h : Move k f e f') (hb : Books k f.world (owned f.live))
    (hf : (f.world.resource k.resource).Faultless) (hj : k.journal f'.world t = some j) :
    Affects k t f.world e f'.world ∨ f.world.transactions.size ≤ t.index ∧ j = {} ∧
      ∃ s outer, e = .begun s ∧ s.participation = .owner t outer := by
  have hc := hf.failsCleanly
  cases h with
  | @begun d w w₁ live p he =>
    -- Only an owner opens a transaction; all other scopes find theirs.
    by_cases hn : ∃ outer, p = .owner t outer
    · obtain ⟨outer, rfl⟩ := hn
      obtain ⟨_, opened⟩ := he.owner hc
      have hj' := (Untouched.inScope k (.owner t outer) w₁ t).2.trans opened.journal
      exact .inr ⟨Nat.le_of_eq (congrArg TxId.index opened.fresh).symm,
        Option.some.inj (hj.symm.trans hj'), _, outer, rfl, rfl⟩
    · exact .inl (he.begun_affects hb hc (fun outer he => hn ⟨outer, he⟩) hj)
  | refused he => exact .inl (he.refused_affects hb hc hj)
  | wrote hw => exact .inl (Written.affects hw hb hj)
  | @ended w w₁ live s success r hs hq =>
    have off : k.Untouched w (uninstall s.context w).2 t := .uninstall k _ w t
    obtain ⟨tx, j₀, tx', j', htx, hj₀, h⟩ :=
      finish_affects hq (uninstall_books hs hb) (by rwa [uninstall_resource]) hj
    exact .inl ⟨tx, j₀, tx', j', off.1.symm.trans htx, off.2.symm.trans hj₀, h⟩
  | @idle w live now =>
    refine .inl (Untouched.affects ⟨rfl, ?_⟩ hb hj (by simp [Flow.Event.transaction]))
    rw [journal, journal]
    cases k.resource <;> rfl

/-- A scope that ends was live. -/
theorem Move.live_of_ended {s : TransactionScope} {success told : Bool}
    (h : Move k f (.ended s success told) f') : s ∈ f.live := by
  cases h with
  | ended hs => exact hs

/-- What holds of every new transaction, and is kept by every effect, holds of all transactions with
    a journal at the end of every trail. -/
theorem Trail.course
    {P : TxId → List Flow.Event → List TransactionScope → Transaction → Journal → Prop}
    (h₀ : Blank k w₀)
    (opened : ∀ t es s outer f tx, s.participation = .owner t outer →
      (∀ e ∈ es, e.transaction ≠ some t) → Chronicle (.begun s :: es) f →
      P t (.begun s :: es) f.live tx {})
    (effect : ∀ t es f e f' tx j tx' j', Trail k ⟨w₀, []⟩ es f → Move k f e f' →
      f.world.transaction? t = some tx → k.journal f.world t = some j →
      Effect k t tx j e tx' j' → P t es f.live tx j → P t (e :: es) f'.live tx' j')
    (h : Trail k ⟨w₀, []⟩ es f) : ∀ t tx j, f.world.transaction? t = some tx →
      k.journal f.world t = some j → P t es f.live tx j := by
  refine h.invariant (P := fun es f => ∀ t tx j, f.world.transaction? t = some tx →
    k.journal f.world t = some j → P t es f.live tx j) ?_ ?_
  · intro t tx j htx
    simp [transaction?, h₀.transactions] at htx
  · intro es f e f' ht ht' hm ih t tx' j' htx' hj'
    rcases hm.affects (ht.books h₀) (ht.faultless h₀) hj' with
      -- The transaction was there before the move, so what held of it is carried on.
      ⟨tx, j, _, _, htx, hj, htx₁, hj₁, heffect⟩ | ⟨hnew, rfl, s, outer, rfl, hs⟩
    · obtain rfl := Option.some.inj (htx'.symm.trans htx₁)
      obtain rfl := Option.some.inj (hj'.symm.trans hj₁)
      exact effect t es f e f' tx j tx' j' ht hm htx hj heffect (ih t tx j htx hj)
    -- It is new, and no event so far is about it.
    · refine opened t es s outer f' tx' hs ?_ (ht'.chronicle h₀)
      intro e he het
      exact absurd ((ht.chronicle h₀).known e he t het) (Nat.not_lt_of_le hnew)

end Coordinator

end ComponentHost
