import ComponentHost.Proofs.Transaction.Trail
import Mathlib.Algebra.Order.Group.Multiset
import Mathlib.Data.Multiset.Filter
import Mathlib.Data.Multiset.Dedup

/-! # Affairs

  All that coordinators have to do with: a world, and the parts of the scopes that were entered and
  have not ended. Whatever runs, flows of scopes that end in any order or tasks that take turns and
  are dropped, it can do no more to transactions than `Affairs.Step` lists: enter scopes, end each
  of them at most once, mark transactions, and let everything else, the clock included, be as it
  may between calls of a coordinator.

  - `World.Keeps` says that records are kept with their terms, `World.CommitsOnly` which
    transactions the resources were asked to commit; each operation has its lemma of either kind;
  - `Affairs.Sound` says that the transactions of live owners are active, and each is owned once;
  - `Sound.commits` says of every step that it commits only what may be committed, and `Runs.made`
    finds the step in which a call came on record;
  - `Step.among` says that a step leaves the scopes of others alone.
-/

namespace ComponentHost

open World

namespace World

variable {w w' w'' : World} {P Q : TxId → Prop} {t u : TxId}

/-! ### Records -/

/-- The records are all there, with their terms: when they began, and how much time they have. The
    state of each is what it was, but for those that are named. -/
def Keeps (P : TxId → Prop) (w w' : World) : Prop :=
  ∀ t tx, w.transaction? t = some tx → ∃ tx', w'.transaction? t = some tx' ∧
    tx'.startedAt = tx.startedAt ∧ tx'.timeout = tx.timeout ∧ (¬ P t → tx'.state = tx.state)

namespace Keeps

theorem of_eq (h : w'.transactions = w.transactions) : Keeps P w w' := by
  intro t tx htx
  refine ⟨tx, ?_, rfl, rfl, fun _ => rfl⟩
  rw [transaction?, h]
  exact htx

theorem refl (w : World) : Keeps P w w := of_eq rfl

theorem trans (h : Keeps P w w') (h' : Keeps P w' w'') : Keeps P w w'' := by
  intro t tx htx
  obtain ⟨tx', htx', started, timeout, state⟩ := h t tx htx
  obtain ⟨tx'', htx'', started', timeout', state'⟩ := h' t tx' htx'
  exact ⟨tx'', htx'', started'.trans started, timeout'.trans timeout,
    fun hp => (state' hp).trans (state hp)⟩

theorem mono (h : Keeps P w w') (hpq : ∀ t, P t → Q t) : Keeps Q w w' := by
  intro t tx htx
  obtain ⟨tx', htx', started, timeout, state⟩ := h t tx htx
  exact ⟨tx', htx', started, timeout, fun hq => state (mt (hpq t) hq)⟩

theorem changeTransaction {f : Transaction → Transaction}
    (started : ∀ tx, (f tx).startedAt = tx.startedAt)
    (timeout : ∀ tx, (f tx).timeout = tx.timeout) (state : ¬ P u → ∀ tx, (f tx).state = tx.state) :
    Keeps P w (changeTransaction u f w).2 := by
  intro t tx htx
  rw [transaction?_changeTransaction, htx]
  by_cases hu : t = u
  · subst hu
    rw [if_pos rfl]
    exact ⟨f tx, rfl, started tx, timeout tx, fun hp => state hp tx⟩
  · rw [if_neg hu]
    exact ⟨tx, rfl, rfl, rfl, fun _ => rfl⟩

theorem setRollbackOnly (u : TxId) (mark : Bool) (w : World) :
    Keeps P w (setRollbackOnly u mark w).2 :=
  changeTransaction (fun _ => rfl) (fun _ => rfl) fun _ _ => rfl

theorem setState (hu : P u) (state : TransactionState) (w : World) :
    Keeps P w (setState u state w).2 :=
  changeTransaction (fun _ => rfl) (fun _ => rfl) fun hp => absurd hu hp

theorem addTransaction (d : TransactionDefinition) (w : World) :
    Keeps P w (addTransaction d w).2 := by
  intro t tx htx
  have old := transaction?_isSome.mp (Option.isSome_of_eq_some htx)
  rw [transaction?_addTransaction, if_neg (Nat.ne_of_lt old)]
  exact ⟨tx, htx, rfl, rfl, fun _ => rfl⟩

end Keeps

/-! ### Commits -/

/-- Calls were added to the logs of the resources, and commits among them only for some
    transactions. -/
def CommitsOnly (P : TxId → Prop) (w w' : World) : Prop :=
  ∀ i, ∃ added, (w'.resource i).log = added ++ (w.resource i).log ∧
    ∀ c ∈ added, ∀ t, c.call = .commit t → P t

namespace CommitsOnly

theorem of_logs (h : ∀ i, (w'.resource i).log = (w.resource i).log) : CommitsOnly P w w' :=
  fun i => ⟨[], h i, by simp⟩

theorem refl (w : World) : CommitsOnly P w w := of_logs fun _ => rfl

theorem trans (h : CommitsOnly P w w') (h' : CommitsOnly P w' w'') : CommitsOnly P w w'' := by
  intro i
  obtain ⟨added, log, commits⟩ := h i
  obtain ⟨added', log', commits'⟩ := h' i
  refine ⟨added' ++ added, by rw [log', log, List.append_assoc], fun c hc => ?_⟩
  rcases List.mem_append.mp hc with hc | hc
  · exact commits' c hc
  · exact commits c hc

theorem mono (h : CommitsOnly P w w') (hpq : ∀ t, P t → Q t) : CommitsOnly Q w w' := by
  intro i
  obtain ⟨added, log, commits⟩ := h i
  exact ⟨added, log, fun c hc t ht => hpq t (commits c hc t ht)⟩

theorem call {i : ResourceId} {c : Call} {r : Except Error Unit} (h : call i c w = (r, w'))
    (hc : ∀ t, c = .commit t → P t) : CommitsOnly P w w' := by
  intro j
  by_cases hj : j = i
  · subst hj
    obtain ⟨performed, log⟩ := Resource.call_log (call_resource_eq h)
    refine ⟨[⟨c, performed, r.isOk⟩], log, fun c' hc' t ht => ?_⟩
    rw [List.mem_singleton.mp hc'] at ht
    exact hc t ht
  · refine ⟨[], ?_, by simp⟩
    rw [call_eq_setResource h, resource_setResource, if_neg hj]
    rfl

theorem changeTransaction (u : TxId) (f : Transaction → Transaction) (w : World) :
    CommitsOnly P w (changeTransaction u f w).2 := of_logs fun i => by cases i <;> rfl

theorem addTransaction (d : TransactionDefinition) (w : World) :
    CommitsOnly P w (addTransaction d w).2 := of_logs fun i => by cases i <;> rfl

end CommitsOnly

/-- A transaction may be committed: it is active, it is not marked, and its time is not up. -/
def MayCommit (w : World) (t : TxId) : Prop :=
  ∃ tx, w.transaction? t = some tx ∧ tx.state = .active ∧ tx.rollbackOnly = false ∧
    ∀ limit, tx.limit = some limit → tx.elapsed w.clock < limit

theorem elapsed_lt_of_not_isExpired {tx : Transaction} (htx : w.transaction? t = some tx)
    (he : w.isExpired t = false) {limit : Nat} (hl : tx.limit = some limit) :
    tx.elapsed w.clock < limit := by
  unfold isExpired Transaction.isExpired at he
  rw [htx] at he
  simp only [Option.any_some, hl, decide_eq_false_iff_not, Nat.not_le] at he
  exact he

end World

/-! ### Entries and ends -/

namespace Coordinator

variable {k : Coordinator} {d : TransactionDefinition} {w w' : World} {p : Participation}
  {t : TxId}

theorem nextSavepoint_keeps (t : TxId) (start : String) (w : World) :
    Keeps (fun _ => False) w (nextSavepoint t start w).2 :=
  .changeTransaction (fun _ => rfl) (fun _ => rfl) fun _ _ => rfl

/-- An entry keeps all records. -/
theorem Entry.keeps {r : Except Error Participation} (h : Entry k d w r w') :
    Keeps (fun _ => False) w w' := by
  have called {w w' : World} {c : Call} {r : Except Error Unit}
      (h : call k.resource c w = (r, w')) : Keeps (fun _ => False) w w' :=
    .of_eq (call_transactions h)
  -- Entering calls the resource and may add a transaction; those that were there keep what `Keeps`
  -- speaks of.
  cases h with
  | mandatory | without | never | expired | conflict | joined => exact .refl w
  | opened _ _ hb | notOpened _ _ hb => exact (Keeps.addTransaction d w).trans (called hb)
  | notSuspended _ _ hs | suspended _ _ hs => exact called hs
  | openedApart _ _ hs hb =>
    exact ((called hs).trans (.addTransaction d _)).trans (called hb)
  | notOpenedApart _ _ hs hb hr =>
    exact (((called hs).trans (.addTransaction d _)).trans (called hb)).trans (called hr)
  | nested _ _ _ hs | notNested _ _ _ hs => exact (nextSavepoint_keeps _ _ w).trans (called hs)

/-- An entry commits nothing. -/
theorem Entry.commits {r : Except Error Participation} (h : Entry k d w r w') :
    CommitsOnly (fun _ => False) w w' := by
  -- No call on the way in is a commit.
  have called {w w' : World} {c : Call} {r : Except Error Unit}
      (h : call k.resource c w = (r, w')) (hc : ∀ t, c ≠ .commit t) :
      CommitsOnly (fun _ => False) w w' := .call h fun t ht => hc t ht
  cases h with
  | mandatory | without | never | expired | conflict | joined => exact .refl w
  | opened _ _ hb | notOpened _ _ hb =>
    exact (CommitsOnly.addTransaction d w).trans (called hb (by simp))
  | notSuspended _ _ hs | suspended _ _ hs => exact called hs (by simp)
  | openedApart _ _ hs hb =>
    exact ((called hs (by simp)).trans (.addTransaction d _)).trans (called hb (by simp))
  | notOpenedApart _ _ hs hb hr =>
    exact (((called hs (by simp)).trans (.addTransaction d _)).trans
      (called hb (by simp))).trans (called hr (by simp))
  | nested _ _ _ hs | notNested _ _ _ hs =>
    exact (CommitsOnly.changeTransaction _ _ w).trans (called hs (by simp))

/-- A transaction that is begun is new, active, and has the terms that the definition asks for. -/
theorem Entry.owned_new (h : Entry k d w (.ok p) w') (ht : p.owned = some t) :
    w.transaction? t = none ∧ ∃ tx, w'.transaction? t = some tx ∧ tx.state = .active ∧
      tx.startedAt = w.clock ∧ tx.timeout = d.timeout := by
  -- A transaction is opened under the next id, after others have been told to wait or not.
  have opened {w w' : World} (hb : call k.resource (.begin w.nextTx) (addTransaction d w).2
      = (.ok (), w')) : w.transaction? w.nextTx = none ∧
        ∃ tx, w'.transaction? w.nextTx = some tx ∧ tx.state = .active ∧
          tx.startedAt = w.clock ∧ tx.timeout = d.timeout := by
    refine ⟨?_, .ofDefinition d w.clock, ?_, rfl, rfl, rfl⟩
    · exact Array.getElem?_eq_none (Nat.le_refl _)
    · rw [call_transaction? hb, addTransaction_transaction?]
  cases h with
  | opened _ _ hb =>
    cases ht
    exact opened hb
  -- The outer transaction has been suspended first, which opens nothing.
  | @openedApart _ w₁ _ _ _ hs hb =>
    cases ht
    obtain ⟨none, tx, record, state, started, timeout⟩ := opened hb
    rw [call_transaction? hs] at none
    exact ⟨none, tx, record, state, started.trans (call_sameFlow hs).clock, timeout⟩
  | without | joined | nested | suspended => cases ht

/-- A transaction whose time is up is neither joined nor nested in. -/
theorem Entry.not_expired (h : Entry k d w (.ok p) w')
    (hp : p = .joined t ∨ ∃ name mark, p = .nested t name mark) : w.isExpired t = false := by
  cases h with
  | without | opened | openedApart | suspended => simp at hp
  | joined _ _ he => simp at hp; exact hp ▸ he
  | nested _ _ he => simp at hp; exact hp ▸ he

theorem rollback_keeps {r : Except Error Unit} (h : k.rollback t w = (r, w')) :
    Keeps (· = t) w w' := by
  rcases r with e | _
  · exact .of_eq (call_transactions (rollback_error h))
  · obtain ⟨w₁, hc, rfl⟩ := rollback_ok h
    exact Keeps.trans (.of_eq (call_transactions hc)) (Keeps.setState (P := (· = t)) rfl _ _)

theorem rollback_commits {r : Except Error Unit} (h : k.rollback t w = (r, w')) :
    CommitsOnly (fun _ => False) w w' := by
  rcases r with e | _
  · exact .call (rollback_error h) (by simp)
  · obtain ⟨w₁, hc, rfl⟩ := rollback_ok h
    exact (CommitsOnly.call hc (by simp)).trans (.changeTransaction _ _ _)

/-- The end of a scope keeps all records, and changes the state of the transaction that the scope
    owned, if it owned one. -/
theorem Settlement.keeps {success : Bool} {r : Except Error Unit}
    (h : Settlement k w p success r w') : Keeps (fun t => p.owned = some t) w w' := by
  have own {t : TxId} {s : Option TxId} {u : TxId} (hu : u = t) :
      (Participation.owner t s).owned = some u := by rw [hu]; rfl
  -- Only an owner ends its own transaction; a participant does no more than set the mark.
  cases h with
  | committed _ _ hk => exact Keeps.trans (.of_eq (call_transactions hk)) (.setState (own rfl) _ _)
  | notCommitted _ _ hk hr =>
    exact Keeps.trans (.of_eq (call_transactions hk)) ((rollback_keeps hr).mono fun _ => own)
  | overdue _ hr | marked _ _ hr | rolledBack hr => exact (rollback_keeps hr).mono fun _ => own
  | left | apart => exact .refl w
  | late | failed => exact .setRollbackOnly _ _ w
  | released hr | notUndone hr => exact .of_eq (call_transactions hr)
  | undone hr => exact Keeps.trans (.of_eq (call_transactions hr)) (.setRollbackOnly _ _ _)

/-- Only the owner of a transaction commits it, and only while its time is not up and it is not
    marked. -/
theorem Settlement.commits {success : Bool} {r : Except Error Unit}
    (h : Settlement k w p success r w') :
    CommitsOnly (fun t => p.owned = some t ∧ w.isExpired t = false ∧ w.isRollbackOnly t = false)
      w w' := by
  have none {w w' : World} {Q : TxId → Prop} (h : CommitsOnly (fun _ => False) w w') :
      CommitsOnly Q w w' := h.mono fun _ => False.elim
  cases h with
  -- Only here is a commit asked for, of the own transaction, in time and unmarked.
  | committed he hm hk =>
    refine (CommitsOnly.call hk fun t ht => ?_).trans (.changeTransaction _ _ _)
    cases ht
    exact ⟨rfl, he, hm⟩
  | notCommitted he hm hk hr =>
    refine (CommitsOnly.call hk fun t ht => ?_).trans (none (rollback_commits hr))
    cases ht
    exact ⟨rfl, he, hm⟩
  | overdue _ hr | marked _ _ hr | rolledBack hr => exact none (rollback_commits hr)
  | left | apart => exact .refl w
  | late | failed => exact .changeTransaction _ _ w
  | released hr | notUndone hr => exact .call hr (by simp)
  | undone hr => exact (CommitsOnly.call hr (by simp)).trans (.changeTransaction _ _ _)

section Finish

variable {success : Bool} {r : Except Error Unit} (h : k.finish p success w = (r, w'))
include h

theorem finish_keeps : Keeps (fun t => p.owned = some t) w w' := by
  obtain ⟨r₁, w₁, hs, ⟨_, _, rfl⟩ | ⟨u, r₂, _, hr, _⟩⟩ := finish_eq h
  · exact hs.keeps
  · exact hs.keeps.trans (.of_eq (call_transactions hr))

theorem finish_commits :
    CommitsOnly (fun t => p.owned = some t ∧ w.isExpired t = false ∧ w.isRollbackOnly t = false)
      w w' := by
  obtain ⟨r₁, w₁, hs, ⟨_, _, rfl⟩ | ⟨u, r₂, _, hr, _⟩⟩ := finish_eq h
  · exact hs.commits
  · exact hs.commits.trans (.call hr (by simp))

end Finish

/-- Where the owner of a transaction ends well, its time is not up. -/
theorem finish_owner_ok {outer : Option TxId}
    (h : k.finish (.owner t outer) true w = (.ok (), w')) : w.isExpired t = false := by
  obtain ⟨r₁, w₁, hs, ⟨_, rfl, _⟩ | ⟨u, r₂, _, _, hr⟩⟩ := finish_eq h
  · cases hs with
    | committed he => exact he
  · cases hs with
    | committed he => exact he
    | notCommitted | overdue | marked => cases hr

end Coordinator

/-! ### Affairs -/

/-- A part in transactions, and the coordinator that ends it. -/
abbrev Part := Coordinator × Participation

/-- A world, and the parts of the scopes that were entered there and have not ended. -/
structure Affairs where
  world : World
  live : Multiset Part

namespace Affairs

/-- What can happen next, in whatever runs. -/
inductive Step : Affairs → Affairs → Prop
  | entered {k : Coordinator} {d : TransactionDefinition} {s : TransactionScope} {w w' : World}
      {live : Multiset Part} (h : k.enter d w = (.ok s, w')) :
      Step ⟨w, live⟩ ⟨w', (k, s.participation) ::ₘ live⟩
  | refused {k : Coordinator} {d : TransactionDefinition} {e : Error} {w w' : World}
      {live : Multiset Part} (h : k.enter d w = (.error e, w')) : Step ⟨w, live⟩ ⟨w', live⟩
  /-- The part of a scope ends, well or not. -/
  | ended {k : Coordinator} {p : Participation} {success : Bool} {r : Except Error Unit}
      {w w' : World} {live : Multiset Part} (h : k.finish p success w = (r, w')) :
      Step ⟨w, (k, p) ::ₘ live⟩ ⟨w', live⟩
  /-- Parts are forgotten, and will never be ended. -/
  | forgotten {w : World} {live live' : Multiset Part} (h : live' ≤ live) :
      Step ⟨w, live⟩ ⟨w, live'⟩
  /-- A transaction is marked for rollback, or its mark is taken away. -/
  | marked {w : World} {live : Multiset Part} (t : TxId) (mark : Bool) :
      Step ⟨w, live⟩ ⟨(setRollbackOnly t mark w).2, live⟩
  /-- Anything else happens: time passes, contexts are made, installed and taken off, something is
      written. Records stay as they are, and no resource is called. -/
  | beside {w w' : World} {live : Multiset Part} (records : w'.transactions = w.transactions)
      (logs : ∀ i, (w'.resource i).log = (w.resource i).log) : Step ⟨w, live⟩ ⟨w', live⟩

/-- What can happen in any number of steps. -/
abbrev Runs : Affairs → Affairs → Prop := Relation.ReflTransGen Step

/-- What can happen to a world, whoever has live scopes there. -/
def Meanwhile (w w' : World) : Prop := ∃ live live', Runs ⟨w, live⟩ ⟨w', live'⟩

/-- The transactions that are owned by one of some parts. -/
def ownedBy (live : Multiset Part) : Multiset TxId := live.filterMap (·.2.owned)

/-- The transactions that live scopes own are active, and each is owned once. -/
structure Sound (a : Affairs) : Prop where
  once : (ownedBy a.live).Nodup
  active : ∀ t ∈ ownedBy a.live, ∃ tx, a.world.transaction? t = some tx ∧ tx.state = .active

variable {a b : Affairs} {w w' : World} {live live' : Multiset Part} {k : Coordinator}
  {p : Participation} {t : TxId}

theorem ownedBy_cons_none (h : p.owned = none) : ownedBy ((k, p) ::ₘ live) = ownedBy live :=
  Multiset.filterMap_cons_none (f := fun x : Part => x.2.owned) (k, p) live h

theorem ownedBy_cons_some (h : p.owned = some t) :
    ownedBy ((k, p) ::ₘ live) = t ::ₘ ownedBy live :=
  Multiset.filterMap_cons_some (f := fun x : Part => x.2.owned) (k, p) live h

theorem ownedBy_le (h : live' ≤ live) : ownedBy live' ≤ ownedBy live :=
  Multiset.filterMap_le_filterMap _ h

/-- Nothing was begun. -/
theorem sound_start (w : World) : Sound ⟨w, 0⟩ where
  once := Multiset.nodup_zero
  active _ ht := absurd ht (Multiset.notMem_zero _)

namespace Sound

/-- Owners end, or are forgotten. -/
theorem fewer (h : Sound ⟨w, live⟩) (sub : live' ≤ live)
    (keeps : Keeps (fun t => t ∉ ownedBy live') w w') : Sound ⟨w', live'⟩ where
  once := Multiset.nodup_of_le (ownedBy_le sub) h.once
  active t ht := by
    obtain ⟨tx, record, active⟩ := h.active t (Multiset.mem_of_le (ownedBy_le sub) ht)
    obtain ⟨tx', record', _, _, state⟩ := keeps t tx record
    exact ⟨tx', record', (state (fun hn => hn ht)).trans active⟩

/-- Nobody else owns the transaction of an owner. -/
theorem owned_once (h : Sound ⟨w, (k, p) ::ₘ live⟩) (ht : p.owned = some t) :
    t ∉ ownedBy live := by
  have once := h.once
  rw [ownedBy_cons_some ht] at once
  exact (Multiset.nodup_cons.mp once).1

/-- A scope is entered, and its context is made. -/
theorem entered {d : TransactionDefinition} (h : Sound ⟨w, live⟩)
    (entry : Coordinator.Entry k d w (.ok p) w') : Sound ⟨w', (k, p) ::ₘ live⟩ := by
  have kept := h.fewer (le_refl live) (entry.keeps.mono fun _ => False.elim)
  cases hp : p.owned with
  | none =>
    refine ⟨?_, ?_⟩ <;> rw [ownedBy_cons_none hp]
    · exact kept.once
    · exact kept.active
  | some t =>
    obtain ⟨new, tx, record, active, _⟩ := entry.owned_new hp
    -- What live scopes own has a record, so the new transaction is not among it.
    have fresh : t ∉ ownedBy live := by
      intro ht
      obtain ⟨tx', record', _⟩ := h.active t ht
      rw [new] at record'
      cases record'
    refine ⟨?_, ?_⟩ <;> rw [ownedBy_cons_some hp]
    · exact Multiset.nodup_cons.mpr ⟨fresh, h.once⟩
    · intro u hu
      rcases Multiset.mem_cons.mp hu with rfl | hu
      · exact ⟨tx, record, active⟩
      · exact kept.active u hu

theorem step (h : Sound a) (hs : Step a b) : Sound b := by
  cases hs with
  | entered he =>
    obtain ⟨e, hr, _⟩ | ⟨p, w₁, entry, hr, rfl⟩ := Coordinator.enter_eq he
    · cases hr
    · cases hr
      exact (h.entered entry).fewer (le_refl _) (.of_eq rfl)
  | refused he =>
    obtain ⟨e, _, entry⟩ | ⟨p, w₁, _, hr, _⟩ := Coordinator.enter_eq he
    · exact h.fewer (le_refl _) (entry.keeps.mono fun _ => False.elim)
    · cases hr
  | ended hf =>
    exact h.fewer (Multiset.le_cons_self _ _)
      ((Coordinator.finish_keeps hf).mono fun t ht => h.owned_once ht)
  | forgotten sub => exact h.fewer sub (.refl _)
  | marked t mark => exact h.fewer (le_refl _) (.setRollbackOnly _ _ _)
  | beside records logs => exact h.fewer (le_refl _) (.of_eq records)

theorem run (h : Sound a) (hr : Runs a b) : Sound b := by
  induction hr with
  | refl => exact h
  | tail _ hs ih => exact ih.step hs

end Sound

/-- Every step commits only for live owners, in time and unmarked. -/
theorem Step.commits (hs : Step a b) :
    CommitsOnly (fun t => t ∈ ownedBy a.live ∧ a.world.isExpired t = false ∧
      a.world.isRollbackOnly t = false) a.world b.world := by
  cases hs with
  | entered he | refused he =>
    obtain ⟨e, _, entry⟩ | ⟨p, w₁, entry, _, rfl⟩ := Coordinator.enter_eq he
    · exact entry.commits.mono fun _ => False.elim
    · exact (entry.commits.mono fun _ => False.elim).trans (.of_logs fun i => by cases i <;> rfl)
  | ended hf =>
    refine (Coordinator.finish_commits hf).mono fun t ⟨ht, expired, unmarked⟩ => ?_
    -- The guard that is ended was live, so what it owned was owned.
    refine ⟨?_, expired, unmarked⟩
    rw [ownedBy_cons_some ht]
    exact Multiset.mem_cons_self _ _
  | forgotten sub => exact .refl _
  | marked t mark => exact .changeTransaction _ _ _
  | beside records logs => exact .of_logs logs

/-- What every step commits may be committed. -/
theorem Sound.commits (h : Sound a) (hs : Step a b) :
    CommitsOnly a.world.MayCommit a.world b.world := by
  refine hs.commits.mono fun t ⟨ht, expired, unmarked⟩ => ?_
  obtain ⟨tx, record, active⟩ := h.active t ht
  refine ⟨tx, record, active, ?_, fun limit hl => elapsed_lt_of_not_isExpired record expired hl⟩
  unfold isRollbackOnly at unmarked
  rw [record] at unmarked
  exact unmarked

/-- A call that came on record in a run came in one of its steps, on top of those before it. -/
theorem Runs.made {i : ResourceId} {later earlier : List CallRecord} {c : CallRecord}
    (h : Runs a b) (log : (b.world.resource i).log = later ++ c :: earlier)
    (new : (a.world.resource i).log.length ≤ earlier.length) :
    ∃ m n, Runs a m ∧ Step m n ∧ Runs n b ∧ (m.world.resource i).log <:+ earlier ∧
      c :: earlier <:+ (n.world.resource i).log := by
  induction h generalizing later with
  | refl =>
    rw [log, List.length_append, List.length_cons] at new
    omega
  | @tail m n before hs ih =>
    obtain ⟨added, grown, _⟩ := hs.commits i
    have old : (m.world.resource i).log <:+ (n.world.resource i).log := ⟨added, grown.symm⟩
    have here : c :: earlier <:+ (n.world.resource i).log := ⟨later, log.symm⟩
    -- Either the call was on record before the last step, or it came in that step.
    by_cases hl : (m.world.resource i).log.length ≤ earlier.length
    · have rest := (List.suffix_cons c earlier).trans here
      exact ⟨m, n, before, hs, .refl, List.suffix_of_suffix_length_le old rest hl, here⟩
    · obtain ⟨later', log'⟩ := List.suffix_of_suffix_length_le here old (by
        rw [List.length_cons]
        omega)
      obtain ⟨m', n', start, step, rest, below, above⟩ := ih log'.symm
      exact ⟨m', n', start, step, rest.tail hs, below, above⟩

/-- Records keep their terms in every step. -/
theorem Step.keeps (hs : Step a b) : Keeps (fun _ => True) a.world b.world := by
  cases hs with
  | entered he | refused he =>
    obtain ⟨e, _, entry⟩ | ⟨p, w₁, entry, _, rfl⟩ := Coordinator.enter_eq he
    · exact entry.keeps.mono fun _ => False.elim
    · exact (entry.keeps.mono fun _ => False.elim).trans (.of_eq rfl)
  | ended hf => exact (Coordinator.finish_keeps hf).mono fun _ _ => trivial
  | forgotten sub => exact .refl _
  | marked t mark => exact .setRollbackOnly _ _ _
  | beside records logs => exact .of_eq records

theorem Runs.keeps (h : Runs a b) : Keeps (fun _ => True) a.world b.world := by
  induction h with
  | refl => exact .refl _
  | tail _ hs ih => exact ih.trans hs.keeps

/-! ### Affairs of others -/

/-- The affairs together with live scopes of others. -/
def among (others : Multiset Part) (a : Affairs) : Affairs := ⟨a.world, others + a.live⟩

@[simp] theorem among_zero (a : Affairs) : a.among 0 = a := by
  rw [among, zero_add]

theorem among_among (m n : Multiset Part) (a : Affairs) :
    (a.among m).among n = a.among (n + m) := by
  rw [among, among, among, add_assoc]

theorem among_comm (m n : Multiset Part) (a : Affairs) :
    (a.among m).among n = (a.among n).among m := by
  rw [among_among, among_among, add_comm]

/-- What can happen can happen while others have live scopes, which it leaves alone. -/
theorem Step.among (hs : Step a b) (others : Multiset Part) :
    Step (a.among others) (b.among others) := by
  unfold Affairs.among
  cases hs with
  | entered h => rw [Multiset.add_cons]; exact .entered h
  | refused h => exact .refused h
  | ended h => rw [Multiset.add_cons]; exact .ended h
  | forgotten h => exact .forgotten (add_le_add_right h others)
  | marked t mark => exact .marked t mark
  | beside records logs => exact .beside records logs

theorem Runs.among (h : Runs a b) (others : Multiset Part) :
    Runs (a.among others) (b.among others) := by
  induction h with
  | refl => exact .refl
  | tail _ hs ih => exact ih.tail (hs.among others)

end Affairs

end ComponentHost
