import ComponentHost.Proofs.Transaction.Affairs
import ComponentHost.Proofs.Transaction.Suspensions

/-! # Transactions that are outlived

  The current transaction of a flow is found through contexts, which do not know how the transaction
  stands. The owner may end while a guard above it is live, and whatever runs under that guard still
  finds the transaction, though it has been committed or rolled back. A scope that sets a savepoint
  asks the resource, which knows better; a scope that joins asks nobody.

  - `World.hasJournal` is what the resource knows, and `Step.journals` and `Step.stays_active` say
    what a step does about journals and states;
  - `Tenure` is what holds at every moment of owners and journals: owners were there before all
    others in their transaction, and what has a journal is active;
  - `Outlived` is a moment at which an owner ends below a live guard in its transaction;
  - `joins_active_or_outlived` says that nothing else leads to a scope that joins a transaction
    which is over, and `joined_finished` that this does.
-/

namespace ComponentHost

open World

/-! ### Journals -/

/-- A call is carried out by the memory, or leaves it alone, whatever the caller is told. -/
theorem Resource.call_memory {r r' : Resource} {c : Call} {res : Except Error Unit}
    (h : r.call c = (res, r')) : r'.memory = r.memory ∨ r.memory.perform c = .ok r'.memory := by
  unfold call at h
  have memory : (r.judged c.point).memory = r.memory := by unfold judged; split <;> rfl
  split at h
  · cases h; exact .inl rfl
  · simp only at h
    split at h
    · cases h; exact .inl memory
    · split at h
      · next hm => cases h; exact .inr hm
      · cases h; exact .inl memory
    · split at h
      · next hm => cases h; exact .inr hm
      · cases h; exact .inl memory

namespace World

variable {w w' : World} {i j : ResourceId} {t u : TxId} {c : Call} {res : Except Error Unit}

def hasJournal (w : World) (i : ResourceId) (t : TxId) : Bool :=
  (w.resource i).memory.journals.contains t

theorem hasJournal_congr (h : w'.resource i = w.resource i) :
    w'.hasJournal i t = w.hasJournal i t := by
  rw [hasJournal, h, hasJournal]

theorem hasJournal_changeTransaction (f : Transaction → Transaction) :
    (changeTransaction u f w).2.hasJournal i t = w.hasJournal i t :=
  hasJournal_congr (Coordinator.changeTransaction_resource f i)

/-- Only beginning a transaction makes a journal. -/
theorem call_hasJournal (h : call j c w = (res, w')) (ht : w'.hasJournal i t = true) :
    w.hasJournal i t = true ∨ i = j ∧ c = .begin t := by
  by_cases hi : i = j
  · subst hi
    rcases Resource.call_memory (call_resource_eq h) with same | performed
    · left
      rwa [hasJournal, same] at ht
    -- Only the journal of the transaction that the call is about can be new.
    · by_cases own : t = c.transaction
      · cases hv : c.isVital with
        | false =>
          left
          rwa [hasJournal, Memory.perform_contains performed hv] at ht
        | true =>
          have opened := Memory.perform_vital performed hv
          rw [← own] at opened
          rw [hasJournal, opened] at ht
          right
          cases c with
          -- Of the calls that decide about a journal, only the one that begins leaves one.
          | begin u => exact ⟨rfl, by rw [own]; rfl⟩
          | commit | rollback | createSavepoint | rollbackToSavepoint | releaseSavepoint
          | suspend | resume => cases ht
      · left
        rwa [hasJournal, Dict.contains, Memory.perform_journals_ne performed own] at ht
  · left
    have other : w'.resource i = w.resource i := by
      rw [call_eq_setResource h, resource_setResource, if_neg hi]
    rwa [hasJournal_congr other] at ht

/-- A call that is no beginning makes no journal. -/
theorem call_hasJournal_of_ne (h : call j c w = (res, w')) (hc : ∀ t, c ≠ .begin t)
    (ht : w'.hasJournal i t = true) : w.hasJournal i t = true :=
  (call_hasJournal h ht).resolve_right fun ⟨_, hb⟩ => hc t hb

/-- A transaction that was ended has no journal. -/
theorem call_closes (h : call i c w = (.ok (), w')) (hv : c.isVital = true)
    (hc : c.leavesOpen = false) : w'.hasJournal i c.transaction = false :=
  (Memory.perform_vital (Resource.call_ok (call_resource_eq h)) hv).trans hc

/-- A write goes into a journal that is there. -/
theorem Written.hasJournal {key : String} {value : Option Value}
    (h : Written j key value w res w') (ht : w'.hasJournal i t = true) :
    w.hasJournal i t = true := by
  cases h with
  | readOnly | notEnlisted => exact ht
  | atOnce =>
    unfold World.hasJournal setMemory at ht
    rw [resource_setResource] at ht
    split at ht
    · next hi => subst hi; exact ht
    · exact ht
  | @pending u journal _ _ hj =>
    unfold World.hasJournal setMemory at ht
    rw [resource_setResource] at ht
    split at ht
    · next hi =>
      subst hi
      -- A pending write goes to a journal that was there.
      by_cases hu : t = u
      · subst hu
        simp [World.hasJournal, Dict.contains, hj]
      · simpa [World.hasJournal, Dict.contains, Dict.get?_insert, hu] using ht
    · exact ht

/-- A state on record is on record of a transaction that is known. -/
theorem known_of_stateOf {x : TransactionState} (h : w.stateOf t = some x) :
    t.index < w.transactions.size := by
  refine transaction?_isSome.mp ?_
  unfold stateOf at h
  cases htx : w.transaction? t with
  | none => rw [htx] at h; cases h
  | some tx => rfl

theorem Keeps.stateOf {P : TxId → Prop} (h : Keeps P w w') (hp : ¬ P t) {x : TransactionState}
    (hx : w.stateOf t = some x) : w'.stateOf t = some x := by
  unfold World.stateOf at hx ⊢
  obtain ⟨tx, htx, rfl⟩ := Option.map_eq_some_iff.mp hx
  obtain ⟨tx', htx', _, _, state⟩ := h t tx htx
  rw [htx', Option.map_some, state hp]

end World

/-! ### What entries and ends do -/

namespace Coordinator

variable {k : Coordinator} {d : TransactionDefinition} {w w' : World} {p : Participation}
  {i : ResourceId} {t u : TxId}

/-- A scope that is entered, or refused, makes at most the journal of a new transaction, which is
    active. -/
theorem Entry.hasJournal {r : Except Error Participation} (h : Entry k d w r w')
    (ht : w'.hasJournal i t = true) :
    w.hasJournal i t = true ∨
      i = k.resource ∧ w.transactions.size ≤ t.index ∧ w'.stateOf t = some .active := by
  -- A record is opened together with its journal.
  have opened {w w' : World} {res : Except Error Unit}
      (hb : call k.resource (.begin w.nextTx) (addTransaction d w).2 = (res, w'))
      (ht : w'.hasJournal i t = true) :
      w.hasJournal i t = true ∨
        i = k.resource ∧ w.transactions.size ≤ t.index ∧ w'.stateOf t = some .active := by
    rcases call_hasJournal hb ht with old | ⟨hi, hc⟩
    · exact .inl ((hasJournal_congr (addTransaction_resource i)).symm.trans old)
    · cases hc
      refine .inr ⟨hi, Nat.le_refl _, ?_⟩
      rw [stateOf_call hb, stateOf_addTransaction, if_pos rfl]
  cases h with
  | mandatory | without | never | expired | conflict | joined => exact .inl ht
  | opened _ _ hb | notOpened _ _ hb => exact opened hb ht
  | notSuspended _ _ hs | suspended _ _ hs => exact .inl (call_hasJournal_of_ne hs (by simp) ht)
  | openedApart _ _ hs hb =>
    rcases opened hb ht with old | ⟨hi, size, active⟩
    · exact .inl (call_hasJournal_of_ne hs (by simp) old)
    · exact .inr ⟨hi, by rwa [call_transactions hs] at size, active⟩
  | notOpenedApart _ _ hs hb hr =>
    rcases opened hb (call_hasJournal_of_ne hr (by simp) ht) with old | ⟨hi, size, active⟩
    · exact .inl (call_hasJournal_of_ne hs (by simp) old)
    · rw [call_transactions hs] at size
      exact .inr ⟨hi, size, (stateOf_call hr).trans active⟩
  | nested _ _ _ hs | notNested _ _ _ hs =>
    left
    have before := call_hasJournal_of_ne hs (by simp) ht
    exact (hasJournal_changeTransaction _).symm.trans before

/-- A scope runs in a transaction of its own, or in the one that was current. -/
theorem Entry.own_or_current (h : Entry k d w (.ok p) w') (ht : p.transaction = some t) :
    p.owned = some t ∨ w.currentTransaction = some t := by
  cases h with
  | without | suspended => cases ht
  | opened | openedApart => exact .inl ht
  | joined hc | nested hc => cases ht; exact .inr hc

/-- A savepoint is set only where there is a journal. -/
theorem Entry.nested_hasJournal {name : String} {mark : Bool}
    (h : Entry k d w (.ok (.nested t name mark)) w') : w.hasJournal k.resource t = true := by
  cases h with
  | nested _ _ _ hs =>
    obtain ⟨j, hj, _⟩ := call_saved hs
    have journal : (nextSavepoint t k.savepointPrefix w).2.hasJournal k.resource t = true :=
      Option.isSome_iff_exists.mpr ⟨j, hj⟩
    exact (hasJournal_changeTransaction _).symm.trans journal

theorem rollback_hasJournal {r : Except Error Unit} (h : k.rollback u w = (r, w'))
    (ht : w'.hasJournal i t = true) : w.hasJournal i t = true := by
  rcases r with e | _
  · exact call_hasJournal_of_ne (rollback_error h) (by simp) ht
  · obtain ⟨w₁, hc, rfl⟩ := rollback_ok h
    rw [setState, hasJournal_changeTransaction] at ht
    exact call_hasJournal_of_ne hc (by simp) ht

/-- The end of a scope makes no journal. -/
theorem Settlement.hasJournal {success : Bool} {r : Except Error Unit}
    (h : Settlement k w p success r w') (ht : w'.hasJournal i t = true) :
    w.hasJournal i t = true := by
  cases h with
  | committed _ _ hk =>
    rw [setState, hasJournal_changeTransaction] at ht
    exact call_hasJournal_of_ne hk (by simp) ht
  | notCommitted _ _ hk hr =>
    exact call_hasJournal_of_ne hk (by simp) (rollback_hasJournal hr ht)
  | overdue _ hr | marked _ _ hr | rolledBack hr => exact rollback_hasJournal hr ht
  | left | apart => exact ht
  | late | failed => exact (hasJournal_changeTransaction _).symm.trans ht
  | released hr | notUndone hr => exact call_hasJournal_of_ne hr (by simp) ht
  | undone hr =>
    rw [setRollbackOnly, hasJournal_changeTransaction] at ht
    exact call_hasJournal_of_ne hr (by simp) ht

theorem rollback_closed {r : Except Error Unit} (h : k.rollback t w = (r, w')) :
    w'.stateOf t = w.stateOf t ∨ w'.hasJournal k.resource t = false := by
  rcases r with e | _
  · exact .inl (stateOf_call (rollback_error h))
  · obtain ⟨w₁, hc, rfl⟩ := rollback_ok h
    right
    rw [setState, hasJournal_changeTransaction]
    exact call_closes hc rfl rfl

/-- Where the end of a scope changes the state of the transaction that it owned, the resource has
    no journal of it any more. -/
theorem Settlement.closed {success : Bool} {r : Except Error Unit}
    (h : Settlement k w p success r w') (ho : p.owned = some t) :
    w'.stateOf t = w.stateOf t ∨ w'.hasJournal k.resource t = false := by
  cases h with
  | committed _ _ hk =>
    cases ho
    right
    rw [setState, hasJournal_changeTransaction]
    exact call_closes hk rfl rfl
  | notCommitted _ _ hk hr =>
    cases ho
    rw [← stateOf_call hk]
    exact rollback_closed hr
  | overdue _ hr | marked _ _ hr | rolledBack hr => cases ho; exact rollback_closed hr
  | left | apart | late | failed | released | undone | notUndone => cases ho

section Finish

variable {success : Bool} {r : Except Error Unit} (h : k.finish p success w = (r, w'))
include h

theorem finish_hasJournal (ht : w'.hasJournal i t = true) : w.hasJournal i t = true := by
  obtain ⟨r₁, w₁, hs, ⟨_, _, rfl⟩ | ⟨u, r₂, _, hr, _⟩⟩ := finish_eq h
  · exact hs.hasJournal ht
  · exact hs.hasJournal (call_hasJournal_of_ne hr (by simp) ht)

theorem finish_closed (ho : p.owned = some t) :
    w'.stateOf t = w.stateOf t ∨ w'.hasJournal k.resource t = false := by
  obtain ⟨r₁, w₁, hs, ⟨_, _, rfl⟩ | ⟨u, r₂, _, hr, _⟩⟩ := finish_eq h
  · exact hs.closed ho
  · rcases hs.closed ho with same | gone
    · exact .inl ((stateOf_call hr).trans same)
    · refine .inr (Bool.eq_false_iff.mpr fun left => ?_)
      rw [call_hasJournal_of_ne hr (by simp) left] at gone
      cases gone

end Finish

end Coordinator

/-! ### Owners -/

namespace Guard

variable {g : Guard} {i : ResourceId} {t : TxId}

/-- The transaction that the scope of a guard owns, and the resource that it is begun on. -/
def owned (g : Guard) : Option (ResourceId × TxId) :=
  g.scope.bind fun (k, p) => p.owned.map (k.resource, ·)

theorem owned_guard {k : Coordinator} {s : TransactionScope} :
    (k.guard s).owned = some (i, t) ↔ i = k.resource ∧ s.participation.owned = some t := by
  show s.participation.owned.map (k.resource, ·) = some (i, t) ↔ _
  cases s.participation.owned with
  | none => simp
  | some u => simp [eq_comm]

/-- What the end of a guard does about journals and states: none is made, and only a transaction
    that the guard owned may change its state, which has no journal then. -/
theorem leave_closes {success : Bool} {r : Except Error Unit} {w w' : World}
    (h : g.leave success w = (r, w')) :
    (∀ i t, w'.hasJournal i t = true → w.hasJournal i t = true) ∧
      ∀ t x, w.stateOf t = some x → w'.stateOf t = some x ∨
        ∃ i, g.owned = some (i, t) ∧ w'.hasJournal i t = false := by
  have journals (i : ResourceId) (t : TxId) :
      (uninstall g.context w).2.hasJournal i t = w.hasJournal i t :=
    hasJournal_congr (uninstall_resource g.context w i)
  rcases leave_finish h with ⟨-, rfl⟩ | ⟨k, p, hs, finished⟩
  · exact ⟨fun i t ht => (journals i t).symm.trans ht, fun t x hx => .inl hx⟩
  · refine ⟨fun i t ht => ?_, fun t x hx => ?_⟩
    · have before := Coordinator.finish_hasJournal finished ht
      rwa [journals] at before
    -- Nothing is over by the end of a guard but the transaction that it owns.
    · by_cases ho : p.owned = some t
      · rcases Coordinator.finish_closed finished ho with same | gone
        · exact .inl (same.trans hx)
        · exact .inr ⟨k.resource, by rw [owned, hs]; simp [ho], gone⟩
      · exact .inl ((Coordinator.finish_keeps finished).stateOf ho hx)

end Guard

/-- What code does besides makes no journal, and changes no state. -/
theorem Aside.perform_keeps {a : Aside} {r : Except Error Unit} {w w' : World}
    (h : a.perform w = (r, w')) :
    (∀ i t, w'.hasJournal i t = true → w.hasJournal i t = true) ∧
      ∀ t, w'.stateOf t = w.stateOf t := by
  cases a with
  | write i key value =>
    have written := write_eq h
    refine ⟨fun j t ht => written.hasJournal ht, fun t => ?_⟩
    rw [stateOf, transaction?, written.transactions]
    rfl
  | insert c attributes =>
    cases h
    exact ⟨fun i t ht => by rwa [hasJournal_congr (by cases i <;> rfl)] at ht, fun _ => rfl⟩
  | derive parent attributes binding =>
    cases h
    exact ⟨fun i t ht => by rwa [hasJournal_congr (by cases i <;> rfl)] at ht, fun _ => rfl⟩
  | mark u =>
    cases h
    exact ⟨fun i t ht => (hasJournal_changeTransaction _).symm.trans ht,
      fun t => Coordinator.stateOf_setRollbackOnly u true w t⟩
  | wait ms =>
    cases h
    exact ⟨fun i t ht => by rwa [hasJournal_congr (by cases i <;> rfl)] at ht, fun _ => rfl⟩

namespace Moment

variable {m m' first : Moment} {g o : Guard} {i j : ResourceId} {t : TxId}

/-! ### What each step does -/

/-- What is known of a guard that becomes live. -/
structure Newcomer (m m' : Moment) (g : Guard) : Prop where
  live : m'.live = g :: m.live
  context : g.context = m.world.nextContext
  owned : ∀ i t, g.owned = some (i, t) → m.world.transaction? t = none ∧
    m'.world.stateOf t = some .active ∧ m'.world.contexts.boundTo g.context = some t
  bound : ∀ t, m'.world.contexts.boundTo g.context = some t →
    (∃ i, g.owned = some (i, t)) ∨ m.world.currentTransaction = some t

theorem Step.newcomer (h : Step m m') (stacked : Stacked 0 [] m) (hg : g ∈ m'.live) :
    g ∈ m.live ∨ Newcomer m m' g := by
  cases h with
  | pushed attributes =>
    rcases List.mem_cons.mp hg with rfl | hg
    -- Nothing is bound to the new context itself, so it sees what its parent sees.
    · refine .inr ⟨rfl, rfl, nofun, fun t ht => .inr ?_⟩
      rw [currentTransaction_eq, ← ht]
      refine (Contexts.boundTo_push_unbound _ _ fun p hp => ?_).symm
      exact stacked.made p (List.mem_of_mem_head? hp)
    · exact .inl hg
  | @begun k d s w hb =>
    rcases List.mem_cons.mp hg with rfl | hg
    -- The new context is bound to the transaction of the scope.
    · obtain ⟨w₁, entry, context, rfl⟩ := Coordinator.begin_ok hb
      have bound : (w₁.inScope s.participation).contexts.boundTo (k.guard s).context
          = s.participation.transaction := by
        show Contexts.boundTo _ s.context = _
        rw [context, nextContext, ← entry.sameFlow.contexts]
        exact Contexts.boundTo_push_bound _ _ _ _
      refine .inr ⟨rfl, context, fun i t ht => ?_, fun t ht => ?_⟩
      · obtain ⟨-, own⟩ := Guard.owned_guard.mp ht
        obtain ⟨new, tx, record, active, _⟩ := entry.owned_new own
        refine ⟨new, ?_, bound.trans ?_⟩
        · show (w₁.transaction? t).map (·.state) = _
          rw [record, Option.map_some, active]
        · cases hp : s.participation with
          | owner u outer => rw [hp] at own; cases own; rfl
          | joined | nested | apart => rw [hp] at own; cases own
      · rcases entry.own_or_current (bound.symm.trans ht) with own | current
        · exact .inl ⟨k.resource, Guard.owned_guard.mpr ⟨rfl, own⟩⟩
        · exact .inr current
    · exact .inl hg
  | refused | beside => exact .inl hg
  | left => exact .inl (List.mem_of_mem_filter hg)

/-- What is active stays so, unless a guard ends that owns it, and then it has no journal. -/
theorem Step.stays_active (h : Step m m') (ht : m.world.stateOf t = some .active) :
    m'.world.stateOf t = some .active ∨ ∃ o ∈ m.live, m'.live = m.live.filter (· ≠ o) ∧
      ∃ i, o.owned = some (i, t) ∧ m'.world.hasJournal i t = false := by
  cases h with
  | pushed => exact .inl ht
  | begun hb =>
    obtain ⟨w₁, entry, _, rfl⟩ := Coordinator.begin_ok hb
    exact .inl (entry.keeps.stateOf id ht)
  | refused hb => exact .inl ((Coordinator.begin_error hb).keeps.stateOf id ht)
  | @left o _ _ _ mem hl =>
    rcases (Guard.leave_closes hl).2 t _ ht with same | ⟨i, own, gone⟩
    · exact .inl same
    · exact .inr ⟨o, mem, rfl, i, own, gone⟩
  | beside ha => exact .inl (((Aside.perform_keeps ha).2 t).trans ht)

/-- A journal is made only of a new transaction, which is active, and on the resource of the scope
    that is begun. -/
theorem Step.journals (h : Step m m') (ht : m'.world.hasJournal i t = true) :
    m.world.hasJournal i t = true ∨ m.world.transactions.size ≤ t.index ∧
      m'.world.stateOf t = some .active ∧
      ∀ g j, m'.live = g :: m.live → g.owned = some (j, t) → i = j := by
  cases h with
  | pushed => exact .inl (by rwa [hasJournal_congr (by cases i <;> rfl)] at ht)
  | @begun k d s w hb =>
    obtain ⟨w₁, entry, _, rfl⟩ := Coordinator.begin_ok hb
    rw [hasJournal_congr (inScope_resource w₁ _ i)] at ht
    rcases entry.hasJournal ht with old | ⟨rfl, size, active⟩
    · exact .inl old
    · refine .inr ⟨size, active, fun g j live own => ?_⟩
      obtain rfl : k.guard s = g := (List.cons.inj live).1
      exact (Guard.owned_guard.mp own).1.symm
  | refused hb =>
    rcases (Coordinator.begin_error hb).hasJournal ht with old | ⟨_, size, active⟩
    · exact .inl old
    · exact .inr ⟨size, active, fun g _ live _ => absurd live.symm (List.cons_ne_self _ _)⟩
  | left _ hl => exact .inl ((Guard.leave_closes hl).1 i t ht)
  | beside ha => exact .inl ((Aside.perform_keeps ha).1 i t ht)

/-! ### What holds at every moment -/

/-- Owners and journals. -/
structure Tenure (m : Moment) : Prop where
  veiled : Veiled m
  /-- The code of an owner runs in its transaction. -/
  bound : ∀ o ∈ m.live, ∀ i t, o.owned = some (i, t) →
    m.world.contexts.boundTo o.context = some t
  /-- No other code was in the transaction before. -/
  earliest : ∀ o ∈ m.live, ∀ i t, o.owned = some (i, t) → ∀ g ∈ m.live,
    m.world.contexts.boundTo g.context = some t → o.context.index ≤ g.context.index
  /-- While the owner is live, the transaction is active. -/
  active : ∀ o ∈ m.live, ∀ i t, o.owned = some (i, t) → m.world.stateOf t = some .active
  /-- What has a journal is active, and the journal is on the resource of the owner. -/
  journals : ∀ i t, m.world.hasJournal i t = true → m.world.stateOf t = some .active ∧
    ∀ o ∈ m.live, ∀ j, o.owned = some (j, t) → i = j

namespace Tenure

/-- A transaction has one live owner at most. -/
theorem owner_unique (h : Tenure m) (ho : o ∈ m.live) (hg : g ∈ m.live)
    (own : o.owned = some (i, t)) (own' : g.owned = some (j, t)) : o = g := by
  have before := h.earliest o ho i t own g hg (h.bound g hg j t own')
  have after := h.earliest g hg j t own' o ho (h.bound o ho i t own)
  refine h.veiled.stacked.only hg o ho ?_
  cases hc : o.context
  cases hc' : g.context
  rw [hc, hc'] at before after
  exact congrArg ContextId.mk (Nat.le_antisymm before after)

/-- A newcomer owns a transaction that nobody knew before. -/
theorem unknown (h : Tenure m) (new : Newcomer m m' o) (own : o.owned = some (i, t)) :
    m.world.stateOf t ≠ some .active ∧ ∀ g ∈ m.live,
      m.world.contexts.boundTo g.context ≠ some t := by
  obtain ⟨none, _, _⟩ := new.owned i t own
  have beyond : ¬ t.index < m.world.transactions.size := by
    intro known
    have some := transaction?_isSome.mpr known
    rw [none] at some
    cases some
  refine ⟨fun active => beyond (known_of_stateOf active), fun g hg bound => ?_⟩
  exact beyond (h.veiled.known g hg t (.inl bound))

theorem step (h : Tenure m) (hs : Step m m') : Tenure m' := by
  have same : ∀ g ∈ m.live,
      m'.world.contexts.boundTo g.context = m.world.contexts.boundTo g.context :=
    fun g hg => hs.shift.grows.extends.boundTo_eq (h.veiled.made hg)
  have newcomer {g : Guard} (hg : g ∈ m'.live) : g ∈ m.live ∨ Newcomer m m' g :=
    hs.newcomer h.veiled.stacked hg
  constructor
  case veiled => exact h.veiled.step hs
  case bound =>
    intro o ho i t own
    rcases newcomer ho with old | new
    · exact (same o old).trans (h.bound o old i t own)
    · exact (new.owned i t own).2.2
  case earliest =>
    intro o ho i t own g hg bound
    rcases newcomer hg with old' | new'
    · rw [same g old'] at bound
      rcases newcomer ho with old | new
      · exact h.earliest o old i t own g old' bound
      · exact absurd bound ((h.unknown new own).2 g old')
    · rcases newcomer ho with old | new
      · -- The context of the newcomer is made now.
        rw [new'.context]
        exact Nat.le_of_lt (h.veiled.made old)
      · rw [new.context, new'.context]
  case active =>
    intro o ho i t own
    rcases newcomer ho with old | new
    · rcases hs.stays_active (h.active o old i t own) with active | ⟨o', mem, live, j, own', _⟩
      · exact active
      · -- The owner that ended would be another one of the same transaction.
        obtain rfl := h.owner_unique old mem own own'
        rw [live] at ho
        exact absurd rfl (of_decide_eq_true (List.mem_filter.mp ho).2)
    · exact (new.owned i t own).2.1
  case journals =>
    intro i t ht
    rcases hs.journals ht with journal | ⟨beyond, active, mine⟩
    · obtain ⟨active, theirs⟩ := h.journals i t journal
      constructor
      · -- The end of its owner takes the journal away: until then the transaction is active.
        rcases hs.stays_active active with active | ⟨o, mem, _, j, own, gone⟩
        · exact active
        · obtain rfl := theirs o mem j own
          rw [ht] at gone
          cases gone
      · intro o ho j own
        rcases newcomer ho with old | new
        · exact theirs o old j own
        · exact absurd active (h.unknown new own).1
    · refine ⟨active, fun o ho j own => ?_⟩
      rcases newcomer ho with old | new
      · have known := known_of_stateOf (h.active o old j t own)
        exact absurd known (Nat.not_lt.mpr beyond)
      · exact mine o j new.live own

theorem run (h : Tenure m) (run : Runs m m') : Tenure m' := by
  induction run with
  | refl => exact h
  | tail _ hs ih => exact ih.step hs

/-- At first there are no owners and no journals. -/
theorem start {w : World} (log : ∀ i, (w.resource i).log = [])
    (journals : ∀ i, (w.resource i).memory.journals = {}) : Tenure (Thread.start w).toMoment where
  veiled := (accounted_start log).veiled
  bound := nofun
  earliest := nofun
  active := nofun
  journals i t ht := by
    rw [hasJournal, Thread.start_resource, journals i] at ht
    cases ht

end Tenure

/-! ### What code finds itself in -/

/-- On the way an owner has ended below a live guard that is bound to its transaction. -/
inductive Outlived (first m : Moment) (t : TxId) : Prop
  | at {m₁ m₂ : Moment} {o g : Guard} {i : ResourceId} (before : Runs first m₁) (step : Step m₁ m₂)
      (after : Runs m₂ m) (owner : o ∈ m₁.live) (owned : o.owned = some (i, t))
      (ended : m₂.live = m₁.live.filter (· ≠ o)) (inner : g ∈ m₂.live)
      (above : o.context.index < g.context.index)
      (bound : m₁.world.contexts.boundTo g.context = some t) : Outlived first m t

theorem Outlived.tail (h : Outlived first m t) (hs : Step m m') : Outlived first m' t := by
  obtain ⟨before, step, after, owner, owned, ended, inner, above, bound⟩ := h
  exact .at before step (after.tail hs) owner owned ended inner above bound

/-- The latest live guard is bound to the current transaction. -/
theorem Veiled.current_bound (h : Veiled m) (hc : m.world.currentTransaction = some t) :
    ∃ g ∈ m.live, m.world.contexts.boundTo g.context = some t := by
  rw [currentTransaction_eq, h.stacked.current] at hc
  cases hl : m.live with
  | nil => rw [hl] at hc; cases hc
  | cons top rest =>
    rw [hl] at hc
    exact ⟨top, List.mem_cons_self, hc⟩

/-- What a live guard is bound to is active, or was outlived. -/
theorem Tenure.bound_active (h : Tenure first) (start : first.live = []) (run : Runs first m)
    (hg : g ∈ m.live) (hb : m.world.contexts.boundTo g.context = some t) :
    m.world.stateOf t = some .active ∨ Outlived first m t := by
  induction run generalizing g with
  | refl =>
    rw [start] at hg
    cases hg
  | @tail m m' before hs ih =>
    have tenure : Tenure m := h.run before
    rcases hs.newcomer tenure.veiled.stacked hg with old | new
    · rw [hs.shift.grows.extends.boundTo_eq (tenure.veiled.made old)] at hb
      rcases ih old hb with active | outlived
      -- It may end in this very step, by the end of its owner: then the guard has outlived it.
      · rcases hs.stays_active active with active | ⟨o, mem, live, i, own, _⟩
        · exact .inl active
        · have below := tenure.earliest o mem i t own g old hb
          have other : g ≠ o := by
            rw [live] at hg
            exact of_decide_eq_true (List.mem_filter.mp hg).2
          have apart : o.context.index ≠ g.context.index := by
            intro heq
            refine other (tenure.veiled.stacked.only mem g old ?_)
            cases hc : o.context
            cases hc' : g.context
            rw [hc, hc'] at heq
            exact congrArg ContextId.mk heq.symm
          exact .inr (.at before hs .refl mem own live hg (Nat.lt_of_le_of_ne below apart) hb)
      · exact .inr (outlived.tail hs)
    -- The guard is new, and found its transaction as its own or as the current one.
    · rcases new.bound t hb with ⟨i, own⟩ | current
      · exact .inl (new.owned i t own).2.1
      · obtain ⟨top, mem, bound⟩ := tenure.veiled.current_bound current
        rcases ih mem bound with active | outlived
        · rcases hs.stays_active active with active | ⟨o, _, live, _⟩
          · exact .inl active
          · -- A guard has become live, so none has ended.
            have shorter := List.length_filter_le (· ≠ o) m.live
            rw [← live, new.live, List.length_cons] at shorter
            omega
        · exact .inr (outlived.tail hs)

end Moment

/-! ### Joining what is over -/

open Moment

/-- **A scope joins what is active, or what was outlived.** A flow begins scopes, pushes contexts,
    and ends all of these in any order, well or not, while any call on a resource may fail; it
    starts with nothing installed, no journals and nothing on record. A scope that is nested is in a
    transaction that is active. So is a scope that joins one, unless no live scope owns it, and its
    owner has ended on the way, below a live guard that was bound to it. -/
theorem joins_active_or_outlived {w : World} {m : Moment} (log : ∀ i, (w.resource i).log = [])
    (journals : ∀ i, (w.resource i).memory.journals = {})
    (run : Runs (Thread.start w).toMoment m) {k : Coordinator} {d : TransactionDefinition}
    {s : TransactionScope} {w' : World} (h : k.begin d m.world = (.ok s, w')) :
    (∀ t name mark, s.participation = .nested t name mark → w'.stateOf t = some .active) ∧
    ∀ t, s.participation = .joined t → w'.stateOf t = some .active ∨
      (∀ g ∈ m.live, ∀ i, g.owned ≠ some (i, t)) ∧ Outlived (Thread.start w).toMoment m t := by
  have first := Tenure.start log journals
  have tenure := first.run run
  obtain ⟨w₁, entry, _, rfl⟩ := Coordinator.begin_ok h
  have kept {t : TxId} (active : m.world.stateOf t = some .active) :
      (w₁.inScope s.participation).stateOf t = some .active := entry.keeps.stateOf id active
  constructor
  · intro t name mark hp
    rw [hp] at entry
    exact kept (tenure.journals _ t entry.nested_hasJournal).1
  · intro t hp
    by_cases owner : ∃ g ∈ m.live, ∃ i, g.owned = some (i, t)
    · obtain ⟨g, hg, i, own⟩ := owner
      exact .inl (kept (tenure.active g hg i t own))
    · have unowned : ∀ g ∈ m.live, ∀ i, g.owned ≠ some (i, t) :=
        fun g hg i own => owner ⟨g, hg, i, own⟩
      -- Nobody owns it any more, and it was found through a guard that is bound to it.
      rw [hp] at entry
      obtain ⟨top, mem, bound⟩ := tenure.veiled.current_bound entry.joined_eq.1
      rcases first.bound_active rfl run mem bound with active | outlived
      · exact .inl (kept active)
      · exact .inr ⟨unowned, outlived⟩

/-- An owner begins a scope, pushes a context, and ends well before the context does. -/
def Moment.overtaken : Moment where
  world := (Coordinator.complete {} ⟨.owner ⟨0⟩ none, ⟨0⟩⟩
    (push {} (Coordinator.begin {} {} {}).2).2).2
  live := [⟨⟨1⟩, none⟩]

theorem Moment.runs_overtaken : Runs (Thread.start {}).toMoment overtaken := by
  let k : Coordinator := {}
  let s : TransactionScope := ⟨.owner ⟨0⟩ none, ⟨0⟩⟩
  let w := (k.begin {} (Thread.start {}).world).2
  have begun : Step (Thread.start {}).toMoment ⟨w, [k.guard s]⟩ := .begun (k := k) (d := {}) rfl
  have pushed : Step ⟨w, [k.guard s]⟩ ⟨(push {} w).2, [⟨⟨1⟩, none⟩, k.guard s]⟩ := .pushed {}
  have mem : k.guard s ∈ [⟨⟨1⟩, none⟩, k.guard s] := List.mem_cons_of_mem _ List.mem_cons_self
  have left : (k.guard s).leave true (push {} w).2
      = (((k.guard s).leave true (push {} w).2).1, overtaken.world) := rfl
  have ended := Step.left (m := ⟨(push {} w).2, [⟨⟨1⟩, none⟩, k.guard s]⟩) mem left
  exact .tail (.tail (.single begun) pushed) ended

/-- There a scope that must run in a transaction joins the one that has been committed. -/
theorem Moment.begin_overtaken :
    ∃ w', Coordinator.begin {} { propagation := .mandatory } overtaken.world
        = (.ok ⟨.joined ⟨0⟩, ⟨2⟩⟩, w') ∧ w'.stateOf ⟨0⟩ = some .committed :=
  ⟨_, Prod.ext (by decide +kernel) rfl, by decide +kernel⟩

theorem joins_active_or_outlived_overtaken :
    Runs (Thread.start {}).toMoment overtaken ∧ ∃ w',
      Coordinator.begin {} { propagation := .mandatory } overtaken.world
        = (.ok ⟨.joined ⟨0⟩, ⟨2⟩⟩, w') ∧ Outlived (Thread.start {}).toMoment overtaken ⟨0⟩ := by
  obtain ⟨w', begun, committed⟩ := begin_overtaken
  refine ⟨runs_overtaken, w', begun, ?_⟩
  have joins := joins_active_or_outlived (fun i => by cases i <;> rfl)
    (fun i => by cases i <;> rfl) runs_overtaken begun
  rcases joins.2 ⟨0⟩ rfl with active | ⟨_, outlived⟩
  · rw [committed] at active
    cases active
  · exact outlived

/-- So it is not so that a scope only joins what is active. -/
theorem joined_finished :
    ¬ ∀ (w : World) (m : Moment), (∀ i, (w.resource i).log = []) →
      (∀ i, (w.resource i).memory.journals = {}) → Runs (Thread.start w).toMoment m →
      ∀ (k : Coordinator) (d : TransactionDefinition) (s : TransactionScope) (w' : World)
          (t : TxId),
        k.begin d m.world = (.ok s, w') → s.participation = .joined t →
          w'.stateOf t = some .active := by
  intro h
  obtain ⟨w', begun, committed⟩ := begin_overtaken
  have active := h {} overtaken (fun i => by cases i <;> rfl) (fun i => by cases i <;> rfl)
    runs_overtaken {} { propagation := .mandatory } _ w' ⟨0⟩ begun rfl
  rw [committed] at active
  cases active

end ComponentHost
