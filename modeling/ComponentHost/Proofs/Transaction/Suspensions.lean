import ComponentHost.Proofs.Context.LiveGuards
import ComponentHost.Proofs.Transaction.Trail

/-! # Suspensions

  A scope that asks for another transaction, or for none, lays the current one aside, and the
  coordinator takes it up again when the scope ends, or at once if the scope is refused after all.
  On one flow, whose scopes may end in any order and whose resource may fail any call, nothing is
  laid aside twice at once, and everything is taken up again exactly once.

  - `Contexts.boundTo` is the transaction that the code in a context runs in;
  - `World.pauses` is what is on record about a transaction: where it was laid aside, and where a
    resource was asked to take it up again;
  - `Moment.Step` is what code on a flow can do next, and `Step.pauses` what each such step adds;
  - `Veiled` is what holds at every moment: no context at or above a scope that has laid a
    transaction aside is bound to that transaction, so that nobody can lay it aside again;
  - `suspensions_answered` puts it together for whole runs.
-/

namespace ComponentHost

open World

/-! ### What a context is bound to -/

namespace Contexts

/-- The transaction that the code in a context runs in. -/
def boundTo (cs : Contexts) (c : ContextId) : Option TxId := (cs.lookup (·.binding) c).join

variable {cs cs' : Contexts} {c : ContextId}

/-- What a context is bound to is settled when it is made. -/
theorem Extends.boundTo_eq (h : Extends cs cs') (hc : c.index < cs.size) :
    cs'.boundTo c = cs.boundTo c := by
  -- By induction on the number of the context: parents were made earlier.
  suffices same : cs'.lookup (·.binding) c = cs.lookup (·.binding) c by rw [boundTo, same, boundTo]
  obtain ⟨i⟩ := c
  induction i using Nat.strongRecOn with
  | ind i ih =>
    have hi := Array.getElem?_eq_getElem hc
    obtain ⟨a, ha⟩ := h i _ hi
    unfold lookup
    simp only [hi, ha]
    cases cs[i].binding with
    | some b => rfl
    | none =>
      cases cs[i].parent with
      | none => rfl
      | some p =>
        by_cases hp : p.index < i
        · simp only [hp, if_true]
          exact ih p.index hp (Nat.lt_trans hp hc)
        · simp only [hp, if_false]

/-- A context that says so itself is bound to what it says. -/
theorem boundTo_push_bound (parent : Option ContextId) (depth : Nat) (attributes : Attributes)
    (t : Option TxId) : boundTo (cs.push ⟨parent, depth, attributes, some t⟩) ⟨cs.size⟩ = t := by
  unfold boundTo lookup
  simp

/-- A context that does not is bound to what its parent is bound to. -/
theorem boundTo_push_unbound (parent : Option ContextId) (attributes : Attributes)
    (hp : ∀ p ∈ parent, p.index < cs.size) :
    boundTo (cs.push ⟨parent, cs.depthBelow parent, attributes, none⟩) ⟨cs.size⟩
      = parent.bind cs.boundTo := by
  cases parent with
  | none =>
    unfold boundTo lookup
    simp
  | some p =>
    have hp := hp p rfl
    -- The new context says nothing itself, and those below it are as they were.
    have grown : Grows cs (cs.push ⟨some p, cs.depthBelow (some p), attributes, none⟩) :=
      .derived (some p) attributes none
    have above := grown.extends.boundTo_eq hp
    rw [Option.bind_some, ← above]
    conv_lhs => unfold boundTo lookup
    simp only [Array.getElem?_push_size, hp, if_true]
    rfl

end Contexts

/-- The current transaction is what the current context is bound to. -/
theorem World.currentTransaction_eq (w : World) :
    w.currentTransaction = w.current.bind w.contexts.boundTo := by
  unfold currentTransaction
  cases w.current with
  | none => rfl
  | some c =>
    unfold Contexts.boundTo
    cases h : w.contexts.lookup (·.binding) c with
    | none => simp [h]
    | some b => simp [h]

/-! ### What is on record -/

/-- What a resource has on record about laying a transaction aside and taking it up again: the calls
    to lay it aside that succeeded, and all calls to take it up again, the latest first. -/
def Resource.pauses (r : Resource) (t : TxId) : List Call :=
  (r.log.filter fun c => c.call = .suspend t ∧ c.succeeded ∨ c.call = .resume t).map (·.call)

/-- Every call to lay a transaction aside is followed by one to take it up again, and that by
    another one to lay it aside, if there is any. -/
inductive Answered (t : TxId) : List Call → Prop
  /-- There are no calls. -/
  | nil : Answered t []
  /-- It is laid aside, and taken up again. -/
  | pair {calls : List Call} (before : Answered t calls) :
      Answered t (.resume t :: .suspend t :: calls)

namespace World

variable {w w' : World} {i j : ResourceId} {t u : TxId} {c : Call} {res : Except Error Unit}

def pauses (w : World) (i : ResourceId) (t : TxId) : List Call := (w.resource i).pauses t

theorem pauses_congr (h : w'.resource i = w.resource i) : w'.pauses i t = w.pauses i t := by
  rw [pauses, h, pauses]

/-- What a call adds to what is on record. -/
theorem call_pauses (h : call j c w = (res, w')) (i : ResourceId) (t : TxId) :
    w'.pauses i t =
      (if i = j ∧ (c = .suspend t ∧ res.isOk ∨ c = .resume t) then [c] else [])
        ++ w.pauses i t := by
  by_cases hi : i = j
  · subst hi
    -- The call comes on top of the log, where `pauses` keeps it or passes over it.
    obtain ⟨performed, log⟩ := Resource.call_log (call_resource_eq h)
    unfold pauses Resource.pauses
    rw [log, List.filter_cons]
    by_cases hc : c = .suspend t ∧ res.isOk ∨ c = .resume t
    · simp [hc]
    · simp [hc]
  · have other : w'.resource i = w.resource i := by
      rw [call_eq_setResource h, resource_setResource, if_neg hi]
    rw [pauses_congr other, if_neg (fun h => hi h.1)]
    rfl

/-- A transaction is laid aside. -/
theorem call_pauses_suspend (h : call j (.suspend u) w = (.ok (), w')) (i : ResourceId) (t : TxId) :
    w'.pauses i t = (if i = j ∧ u = t then [.suspend t] else []) ++ w.pauses i t := by
  rw [call_pauses h]
  by_cases hc : i = j ∧ u = t
  · obtain ⟨rfl, rfl⟩ := hc
    simp [Except.isOk, Except.toBool]
  · have none : ¬ (i = j ∧ (Call.suspend u = .suspend t ∧ (Except.ok () : Except Error Unit).isOk ∨
        Call.suspend u = .resume t)) := by
      simpa [Except.isOk, Except.toBool] using hc
    rw [if_neg none, if_neg hc]

/-- A transaction cannot be laid aside. -/
theorem call_pauses_not_suspend {e : Error} (h : call j (.suspend u) w = (.error e, w'))
    (i : ResourceId) (t : TxId) : w'.pauses i t = w.pauses i t := by
  rw [call_pauses h]
  simp [Except.isOk, Except.toBool]

/-- A transaction is taken up again, as far as the resource can do that. -/
theorem call_pauses_resume (h : call j (.resume u) w = (res, w')) (i : ResourceId) (t : TxId) :
    w'.pauses i t = (if i = j ∧ u = t then [.resume t] else []) ++ w.pauses i t := by
  rw [call_pauses h]
  by_cases hc : i = j ∧ u = t
  · obtain ⟨rfl, rfl⟩ := hc
    simp
  · have none : ¬ (i = j ∧ (Call.resume u = .suspend t ∧ res.isOk ∨
        Call.resume u = .resume t)) := by
      simpa using hc
    rw [if_neg none, if_neg hc]

/-- A call of another kind adds nothing. -/
theorem call_pauses_of_ne (h : call j c w = (res, w')) (hs : ∀ t, c ≠ .suspend t)
    (hr : ∀ t, c ≠ .resume t) (i : ResourceId) (t : TxId) : w'.pauses i t = w.pauses i t := by
  rw [call_pauses h, if_neg]
  · rfl
  · rintro ⟨_, ⟨hc, _⟩ | hc⟩
    · exact hs t hc
    · exact hr t hc

theorem pauses_changeTransaction (f : Transaction → Transaction) :
    (changeTransaction u f w).2.pauses i t = w.pauses i t := pauses_congr (by cases i <;> rfl)

theorem pauses_nextSavepoint (start : String) :
    (nextSavepoint u start w).2.pauses i t = w.pauses i t := pauses_congr (by cases i <;> rfl)

theorem pauses_addTransaction (d : TransactionDefinition) :
    (addTransaction d w).2.pauses i t = w.pauses i t := pauses_congr (by cases i <;> rfl)

end World

/-! ### What entries and ends add -/

namespace Coordinator

variable {k : Coordinator} {d : TransactionDefinition} {w w' : World} {p : Participation}
  {t u : TxId}

/-- What a scope does with the transaction that was current when it was entered. -/
structure Takes (w w' : World) (p : Participation) : Prop where
  suspended : ∀ t, p.suspended = some t → w.currentTransaction = some t
  transaction : ∀ t, p.transaction = some t →
    (w.currentTransaction = some t ∧ p.suspended = none) ∨ w.transactions.size ≤ t.index
  known : ∀ t, p.transaction = some t → w.currentTransaction = some t ∨
    t.index < w'.transactions.size

theorem Entry.takes (h : Entry k d w (.ok p) w') : Takes w w' p := by
  cases h with
  | without => exact ⟨by simp [Participation.suspended], by simp [Participation.transaction],
      by simp [Participation.transaction]⟩
  | opened _ _ hb =>
    refine ⟨by simp [Participation.suspended], fun t ht => ?_, fun t ht => .inr ?_⟩
    · cases ht
      exact .inr (Nat.le_refl _)
    · cases ht
      rw [call_transactions hb, addTransaction_size]
      exact Nat.lt_succ_self _
  | joined hc =>
    refine ⟨by simp [Participation.suspended], fun t ht => .inl ?_, fun t ht => .inl ?_⟩
    · cases ht
      exact ⟨hc, rfl⟩
    · cases ht
      exact hc
  | @openedApart outer w₁ _ hc _ hs hb =>
    have size : w₁.transactions.size = w.transactions.size := by rw [call_transactions hs]
    refine ⟨fun t ht => ?_, fun t ht => .inr ?_, fun t ht => .inr ?_⟩
    · cases ht
      exact hc
    · cases ht
      exact Nat.le_of_eq size.symm
    · cases ht
      rw [call_transactions hb, addTransaction_size]
      exact Nat.lt_succ_self _
  | nested hc =>
    refine ⟨by simp [Participation.suspended], fun t ht => .inl ?_, fun t ht => .inl ?_⟩
    · cases ht
      exact ⟨hc, rfl⟩
    · cases ht
      exact hc
  | suspended hc =>
    refine ⟨fun t ht => ?_, by simp [Participation.transaction],
      by simp [Participation.transaction]⟩
    cases ht
    exact hc

/-- A scope that is entered lays aside what it says, and nothing else. -/
theorem Entry.pauses_ok (h : Entry k d w (.ok p) w') (i : ResourceId) (t : TxId) :
    w'.pauses i t =
      (if i = k.resource ∧ p.suspended = some t then [.suspend t] else []) ++ w.pauses i t := by
  cases h with
  | without | joined => simp [Participation.suspended]
  | opened _ _ hb =>
    rw [call_pauses_of_ne hb (by simp) (by simp), pauses_addTransaction]
    simp [Participation.suspended]
  | openedApart _ _ hs hb =>
    rw [call_pauses_of_ne hb (by simp) (by simp), pauses_addTransaction, call_pauses_suspend hs]
    simp [Participation.suspended]
  | nested _ _ _ hs =>
    rw [call_pauses_of_ne hs (by simp) (by simp), pauses_nextSavepoint]
    simp [Participation.suspended]
  | suspended _ _ hs =>
    rw [call_pauses_suspend hs]
    simp [Participation.suspended]

/-- A scope that is refused leaves nothing laid aside: if it laid the current transaction aside, it
    took it up again at once. -/
theorem Entry.pauses_error {e : Error} (h : Entry k d w (.error e) w') :
    (∀ i t, w'.pauses i t = w.pauses i t) ∨
    ∃ u, w.currentTransaction = some u ∧ ∀ i t, w'.pauses i t =
      (if i = k.resource ∧ u = t then [.resume t, .suspend t] else []) ++ w.pauses i t := by
  -- Only a transaction that was to run apart has been suspended by the time of the refusal.
  cases h with
  | mandatory | never | expired | conflict => exact .inl fun _ _ => rfl
  | notOpened _ _ hb =>
    refine .inl fun i t => ?_
    rw [call_pauses_of_ne hb (by simp) (by simp), pauses_addTransaction]
  | notSuspended _ _ hs => exact .inl (call_pauses_not_suspend hs)
  | @notOpenedApart u _ _ _ _ _ hc _ hs hb hr =>
    refine .inr ⟨u, hc, fun i t => ?_⟩
    rw [call_pauses_resume hr, call_pauses_of_ne hb (by simp) (by simp), pauses_addTransaction,
      call_pauses_suspend hs]
    split
    · rfl
    · rfl
  | notNested _ _ _ hs =>
    refine .inl fun i t => ?_
    rw [call_pauses_of_ne hs (by simp) (by simp), pauses_nextSavepoint]

theorem rollback_pauses {r : Except Error Unit} (h : k.rollback t w = (r, w')) (i : ResourceId)
    (u : TxId) : w'.pauses i u = w.pauses i u := by
  rcases r with e | _
  · exact call_pauses_of_ne (rollback_error h) (by simp) (by simp) i u
  · obtain ⟨w₁, hc, rfl⟩ := rollback_ok h
    exact (pauses_changeTransaction _).trans (call_pauses_of_ne hc (by simp) (by simp) i u)

/-- The end of a scope in its own transaction is no matter of laying aside and taking up. -/
theorem Settlement.pauses {success : Bool} {r : Except Error Unit}
    (h : Settlement k w p success r w') (i : ResourceId) (t : TxId) :
    w'.pauses i t = w.pauses i t := by
  cases h with
  | committed _ _ hk =>
    exact (pauses_changeTransaction _).trans (call_pauses_of_ne hk (by simp) (by simp) i t)
  | notCommitted _ _ hk hr =>
    exact (rollback_pauses hr i t).trans (call_pauses_of_ne hk (by simp) (by simp) i t)
  | overdue _ hr | marked _ _ hr | rolledBack hr => exact rollback_pauses hr i t
  | left | apart => rfl
  | late | failed => exact pauses_changeTransaction _
  | released hr | notUndone hr => exact call_pauses_of_ne hr (by simp) (by simp) i t
  | undone hr =>
    exact (pauses_changeTransaction _).trans (call_pauses_of_ne hr (by simp) (by simp) i t)

/-- Where a scope ends, well or not and with whatever errors, the resource is asked once to take up
    what the scope laid aside, and nothing else. -/
theorem finish_pauses {success : Bool} {r : Except Error Unit}
    (h : k.finish p success w = (r, w')) (i : ResourceId) (t : TxId) :
    w'.pauses i t =
      (if i = k.resource ∧ p.suspended = some t then [.resume t] else []) ++ w.pauses i t := by
  obtain ⟨r₁, w₁, hs, ⟨hp, _, rfl⟩ | ⟨u, r₂, hp, hr, _⟩⟩ := finish_eq h
  · rw [hs.pauses, hp]
    simp
  · rw [call_pauses_resume hr, hs.pauses, hp]
    simp

theorem rollback_size {r : Except Error Unit} (h : k.rollback t w = (r, w')) :
    w'.transactions.size = w.transactions.size := by
  rcases r with e | _
  · exact call_size (rollback_error h)
  · obtain ⟨w₁, hc, rfl⟩ := rollback_ok h
    rw [setState_size, call_size hc]

theorem Settlement.size_eq {success : Bool} {r : Except Error Unit}
    (h : Settlement k w p success r w') : w'.transactions.size = w.transactions.size := by
  cases h with
  | committed _ _ hk => rw [setState_size, call_size hk]
  | notCommitted _ _ hk hr => rw [rollback_size hr, call_size hk]
  | overdue _ hr | marked _ _ hr | rolledBack hr => exact rollback_size hr
  | left | apart => rfl
  | late | failed => exact setRollbackOnly_size _
  | released hr | notUndone hr => exact call_size hr
  | undone hr => rw [setRollbackOnly_size, call_size hr]

theorem finish_size {success : Bool} {r : Except Error Unit}
    (h : k.finish p success w = (r, w')) : w'.transactions.size = w.transactions.size := by
  obtain ⟨r₁, w₁, hs, ⟨_, _, rfl⟩ | ⟨u, r₂, _, hr, _⟩⟩ := finish_eq h
  · exact hs.size_eq
  · rw [call_size hr, hs.size_eq]

end Coordinator

/-! ### Flows -/

def Coordinator.guard (k : Coordinator) (s : TransactionScope) : Guard where
  context := s.context
  scope := some (k, s.participation)

namespace Guard

/-- The transaction that the scope of a guard has laid aside, and the resource that knows. -/
def suspended (g : Guard) : Option (ResourceId × TxId) :=
  g.scope.bind fun (k, p) => p.suspended.map (k.resource, ·)

/-- What is on record once the scope has been begun. -/
def laidAside (g : Guard) (i : ResourceId) (t : TxId) : List Call :=
  if g.suspended = some (i, t) then [.suspend t] else []

/-- What is on record once the guard has ended. -/
def takenUp (g : Guard) (i : ResourceId) (t : TxId) : List Call :=
  if g.suspended = some (i, t) then [.resume t] else []

theorem suspended_guard {k : Coordinator} {s : TransactionScope} {i : ResourceId} {t : TxId} :
    (k.guard s).suspended = some (i, t) ↔ i = k.resource ∧ s.participation.suspended = some t := by
  show s.participation.suspended.map (k.resource, ·) = some (i, t) ↔ _
  cases s.participation.suspended with
  | none => simp
  | some u => simp [eq_comm]

end Guard

/-- What a scope that is begun adds to what is on record. -/
theorem begin_pauses {k : Coordinator} {d : TransactionDefinition} {s : TransactionScope}
    {w w' : World} (h : k.begin d w = (.ok s, w')) (i : ResourceId) (t : TxId) :
    w'.pauses i t = (k.guard s).laidAside i t ++ w.pauses i t := by
  obtain ⟨w₁, entry, _, rfl⟩ := Coordinator.begin_ok h
  rw [pauses_congr (w := w₁) (inScope_resource _ _ i), entry.pauses_ok]
  simp only [Guard.laidAside, Guard.suspended_guard]

/-- What a guard that ends adds to what is on record. -/
theorem Guard.leave_pauses {g : Guard} {success : Bool} {r : Except Error Unit} {w w' : World}
    (h : g.leave success w = (r, w')) (i : ResourceId) (t : TxId) :
    w'.pauses i t = g.takenUp i t ++ w.pauses i t := by
  have before := pauses_congr (t := t) (uninstall_resource g.context w i)
  rcases leave_finish h with ⟨hs, rfl⟩ | ⟨k, p, hs, finished⟩
  · have nothing : g.takenUp i t = [] := by
      rw [takenUp, if_neg (by simp [suspended, hs])]
    rw [before, nothing, List.nil_append]
  · rw [Coordinator.finish_pauses finished, before]
    have same : g.suspended = some (i, t) ↔ i = k.resource ∧ p.suspended = some t := by
      obtain ⟨c, _⟩ := g
      cases hs
      exact suspended_guard (s := ⟨p, c⟩)
    simp only [takenUp, same]

theorem Guard.leave_size {g : Guard} {success : Bool} {r : Except Error Unit}
    {w w' : World} (h : g.leave success w = (r, w')) :
    w'.transactions.size = w.transactions.size := by
  rcases leave_finish h with ⟨-, rfl⟩ | ⟨k, p, -, finished⟩
  · rfl
  · have size := Coordinator.finish_size finished
    exact size

/-- What code does besides adds nothing to what is on record, and forgets no transaction. -/
theorem Aside.perform_pauses {a : Aside} {r : Except Error Unit} {w w' : World}
    (h : a.perform w = (r, w')) :
    (∀ i t, w'.pauses i t = w.pauses i t) ∧ w'.transactions.size = w.transactions.size := by
  cases a with
  | write i key value =>
    have written := write_eq h
    refine ⟨fun j t => ?_, by rw [written.transactions]⟩
    -- A write is no call of the coordinator.
    cases written with
    | readOnly | notEnlisted => rfl
    | atOnce | pending =>
      unfold pauses Resource.pauses setMemory
      rw [resource_setResource]
      split
      · next hj => subst hj; rfl
      · rfl
  | insert c attributes => cases h; exact ⟨fun i _ => pauses_congr (by cases i <;> rfl), rfl⟩
  | derive parent attributes binding =>
    cases h
    exact ⟨fun i _ => pauses_congr (by cases i <;> rfl), rfl⟩
  | mark t =>
    cases h
    exact ⟨fun _ _ => pauses_changeTransaction _,
      Coordinator.setRollbackOnly_size true⟩
  | wait ms => cases h; exact ⟨fun i _ => pauses_congr (by cases i <;> rfl), rfl⟩

namespace Moment

/-- What code on a flow can do next. A guard may end at any time, by success or not, and not ending
    it well is what dropping it does, also where a panic unwinds. -/
inductive Step (m : Moment) : Moment → Prop
  | pushed (attributes : Attributes) :
      Step m ⟨(push attributes m.world).2, ⟨m.world.nextContext, none⟩ :: m.live⟩
  | begun {k : Coordinator} {d : TransactionDefinition} {s : TransactionScope} {w : World}
      (h : k.begin d m.world = (.ok s, w)) : Step m ⟨w, k.guard s :: m.live⟩
  | refused {k : Coordinator} {d : TransactionDefinition} {e : Error} {w : World}
      (h : k.begin d m.world = (.error e, w)) : Step m ⟨w, m.live⟩
  | left {g : Guard} {success : Bool} {r : Except Error Unit} {w : World} (mem : g ∈ m.live)
      (h : g.leave success m.world = (r, w)) : Step m ⟨w, m.live.filter (· ≠ g)⟩
  /-- Something else happens. -/
  | beside {a : Aside} {r : Except Error Unit} {w : World} (h : a.perform m.world = (r, w)) :
      Step m ⟨w, m.live⟩

/-- What code on a flow can do in any number of steps. -/
abbrev Runs : Moment → Moment → Prop := Relation.ReflTransGen Step

variable {m m' : Moment} {g g' : Guard} {i : ResourceId} {t : TxId}

/-- Running a body in a scope is a run, if running the body is one that leaves the guard of the
    scope alone: the scope is begun, the body runs, and the guard ends. -/
theorem Runs.execute {α : Type} {k : Coordinator} {d : TransactionDefinition}
    {body : StateM World (Except Stop α)} {s : TransactionScope} {w w₁ : World}
    {live live' : List Guard} (hb : k.begin d w = (.ok s, w₁))
    (inside : Runs ⟨w₁, k.guard s :: live⟩ ⟨(body w₁).2, live'⟩) (kept : k.guard s ∈ live') :
    Runs ⟨w, live⟩ ⟨(k.execute d body w).2, live'.filter (· ≠ k.guard s)⟩ := by
  have entered : Runs ⟨w, live⟩ ⟨(body w₁).2, live'⟩ := .head (.begun hb) inside
  -- However the body ends, the guard of the scope is ended once.
  rcases hw : body w₁ with ⟨stop | a, w₂⟩
  · rw [hw] at entered
    simp only [Coordinator.execute_eq, hb, hw]
    have failed : (k.guard s).leave false w₂ = k.fail s w₂ := rfl
    exact entered.tail (.left kept failed)
  · rw [hw] at entered
    have completed : (k.guard s).leave true w₂ = k.complete s w₂ := rfl
    rcases hc : k.complete s w₂ with ⟨e | _, w₃⟩ <;>
      simp only [Coordinator.execute_eq, hb, hw, hc] <;>
      exact entered.tail (.left kept (completed.trans hc))

/-- A body whose scope is refused does not run. -/
theorem Runs.execute_refused {α : Type} {k : Coordinator} {d : TransactionDefinition}
    {body : StateM World (Except Stop α)} {e : Error} {w w₁ : World} {live : List Guard}
    (hb : k.begin d w = (.error e, w₁)) : Runs ⟨w, live⟩ ⟨(k.execute d body w).2, live⟩ := by
  rw [Coordinator.execute_eq, hb]
  exact .single (.refused hb)

theorem Step.shift (h : Step m m') : Shift m m' := by
  cases h with
  | pushed attributes => exact push_installed attributes m.world m.live
  | begun h => exact begin_installed h rfl _
  | refused h => exact begin_refused h _
  | left mem h =>
    obtain ⟨stack, contexts⟩ := Guard.leave_eq h
    exact .left mem stack contexts rfl
  | beside h =>
    obtain ⟨stack, contexts⟩ := Aside.perform_eq h
    exact .beside stack contexts rfl

/-! ### What holds at every moment -/

/-- What a live scope has laid aside is out of sight: no context at or above it is bound to it. So
    no other live scope has laid it aside too. -/
structure Veiled (m : Moment) : Prop where
  stacked : Stacked 0 [] m
  hidden : ∀ g ∈ m.live, ∀ i t, g.suspended = some (i, t) → ∀ g' ∈ m.live,
    g.context.index ≤ g'.context.index → m.world.contexts.boundTo g'.context ≠ some t
  once : ∀ g ∈ m.live, ∀ g' ∈ m.live, ∀ i i' t, g.suspended = some (i, t) →
    g'.suspended = some (i', t) → g = g'
  known : ∀ g ∈ m.live, ∀ t,
    (m.world.contexts.boundTo g.context = some t ∨ ∃ i, g.suspended = some (i, t)) →
      t.index < m.world.transactions.size

namespace Veiled

theorem made (h : Veiled m) (hg : g ∈ m.live) : g.context.index < m.world.contexts.size := by
  refine h.stacked.made _ ?_
  rw [h.stacked.stack]
  exact List.mem_append_left _ (List.mem_map_of_mem hg)

/-- The current transaction is known, and nobody has laid it aside. -/
theorem current (h : Veiled m) (hc : m.world.currentTransaction = some t) :
    t.index < m.world.transactions.size ∧ ∀ g ∈ m.live, ∀ i, g.suspended ≠ some (i, t) := by
  rw [currentTransaction_eq, h.stacked.current] at hc
  have order := h.stacked.order
  cases hl : m.live with
  | nil =>
    rw [hl] at hc
    cases hc
  | cons top rest =>
    rw [hl] at hc order
    have bound : m.world.contexts.boundTo top.context = some t := hc
    have mem : top ∈ m.live := by rw [hl]; exact List.mem_cons_self
    refine ⟨h.known top mem t (.inl bound), fun g hg i hs => ?_⟩
    -- The latest guard stands above all others.
    have below : g.context.index ≤ top.context.index := by
      rcases List.mem_cons.mp hg with rfl | hg
      · exact Nat.le_refl _
      · exact Nat.le_of_lt ((List.pairwise_cons.mp order).1 g hg)
    exact h.hidden g (by rw [hl]; exact hg) i t hs top mem below bound

/-- A guard that becomes live is bound to nothing that is laid aside, and lays aside at most the
    current transaction. -/
theorem installed (h : Veiled m) (shift : Shift m m') (live : m'.live = g :: m.live)
    (fresh : g.context = m.world.nextContext)
    (size : m.world.transactions.size ≤ m'.world.transactions.size)
    (bound : ∀ t, m'.world.contexts.boundTo g.context = some t →
      t.index < m'.world.transactions.size ∧ ∀ g' ∈ m'.live, ∀ i, g'.suspended ≠ some (i, t))
    (own : ∀ i t, g.suspended = some (i, t) → m.world.currentTransaction = some t) : Veiled m' := by
  have extends' := shift.grows.extends
  have older : ∀ g' ∈ m.live, g'.context.index < g.context.index := by
    intro g' hg'
    rw [fresh]
    exact h.made hg'
  have same : ∀ g' ∈ m.live,
      m'.world.contexts.boundTo g'.context = m.world.contexts.boundTo g'.context :=
    fun g' hg' => extends'.boundTo_eq (h.made hg')
  constructor
  case stacked => exact shift.sound h.stacked
  case hidden =>
    intro g₁ hg₁ i t hs g₂ hg₂ above hb
    rw [live] at hg₁ hg₂
    rcases List.mem_cons.mp hg₂ with rfl | old₂
    · exact (bound t hb).2 g₁ (by rw [live]; exact hg₁) i hs
    · rcases List.mem_cons.mp hg₁ with rfl | old₁
      · exact absurd (older g₂ old₂) (Nat.not_lt.mpr above)
      · rw [same g₂ old₂] at hb
        exact h.hidden g₁ old₁ i t hs g₂ old₂ above hb
  case once =>
    -- What the new guard lays aside was current, so no older guard has laid it aside.
    intro g₁ hg₁ g₂ hg₂ i₁ i₂ t hs₁ hs₂
    rw [live] at hg₁ hg₂
    rcases List.mem_cons.mp hg₁ with rfl | old₁
    · rcases List.mem_cons.mp hg₂ with rfl | old₂
      · rfl
      · exact absurd hs₂ ((h.current (own i₁ t hs₁)).2 g₂ old₂ i₂)
    · rcases List.mem_cons.mp hg₂ with rfl | old₂
      · exact absurd hs₁ ((h.current (own i₂ t hs₂)).2 g₁ old₁ i₁)
      · exact h.once g₁ old₁ g₂ old₂ i₁ i₂ t hs₁ hs₂
  case known =>
    intro g' hg' t ht
    rw [live] at hg'
    rcases List.mem_cons.mp hg' with rfl | hg'
    · rcases ht with hb | ⟨i, hs⟩
      · exact (bound t hb).1
      · exact Nat.lt_of_lt_of_le (h.current (own i t hs)).1 size
    · rw [same g' hg'] at ht
      exact Nat.lt_of_lt_of_le (h.known g' hg' t ht) size

/-- Where no guard becomes live, everything stays out of sight. -/
theorem thinned (h : Veiled m) (shift : Shift m m') (live : ∀ g ∈ m'.live, g ∈ m.live)
    (size : m.world.transactions.size ≤ m'.world.transactions.size) : Veiled m' := by
  have same : ∀ g ∈ m'.live,
      m'.world.contexts.boundTo g.context = m.world.contexts.boundTo g.context :=
    fun g hg => shift.grows.extends.boundTo_eq (h.made (live g hg))
  constructor
  case stacked => exact shift.sound h.stacked
  case hidden =>
    intro g hg i t hs g' hg' above hb
    rw [same g' hg'] at hb
    exact h.hidden g (live g hg) i t hs g' (live g' hg') above hb
  case once =>
    intro g hg g' hg' i i' t hs hs'
    exact h.once g (live g hg) g' (live g' hg') i i' t hs hs'
  case known =>
    intro g hg t ht
    rw [same g hg] at ht
    exact Nat.lt_of_lt_of_le (h.known g (live g hg) t ht) size

theorem step (h : Veiled m) (hs : Step m m') : Veiled m' := by
  have shift := hs.shift
  cases hs with
  | pushed attributes =>
    have bound : (push attributes m.world).2.contexts.boundTo m.world.nextContext
        = m.world.currentTransaction := by
      rw [currentTransaction_eq]
      refine Contexts.boundTo_push_unbound _ _ fun p hp => ?_
      exact h.stacked.made p (List.mem_of_mem_head? hp)
    refine h.installed shift rfl rfl (Nat.le_refl _) (fun t ht => ?_) (fun i t ht => by cases ht)
    obtain ⟨size, free⟩ := h.current (bound.symm.trans ht)
    refine ⟨size, fun g hg i => ?_⟩
    rcases List.mem_cons.mp hg with rfl | hg
    · exact nofun
    · exact free g hg i
  | @begun k d s w hb =>
    obtain ⟨w₁, entry, context, rfl⟩ := Coordinator.begin_ok hb
    have takes := entry.takes
    -- What a scope suspends was current, and stays known.
    have own : ∀ i t, (k.guard s).suspended = some (i, t) → m.world.currentTransaction = some t :=
      fun i t ht => takes.suspended t (Guard.suspended_guard.mp ht).2
    have fresh : (k.guard s).context = w₁.nextContext := by
      show s.context = w₁.nextContext
      rw [context, nextContext, nextContext, entry.sameFlow.contexts]
    refine h.installed shift rfl context entry.size_le (fun t ht => ?_) own
    have inside : s.participation.transaction = some t := by
      rw [← ht, fresh]
      exact (Contexts.boundTo_push_bound _ _ _ _).symm
    rcases takes.transaction t inside with ⟨hc, none⟩ | new
    · obtain ⟨size, free⟩ := h.current hc
      refine ⟨Nat.lt_of_lt_of_le size entry.size_le, fun g hg i hs => ?_⟩
      rcases List.mem_cons.mp hg with rfl | hg
      · rw [Guard.suspended_guard, none] at hs
        cases hs.2
      · exact free g hg i hs
    · -- The scope runs in a transaction of its own, which nobody knew before.
      refine ⟨?_, fun g hg i hs => ?_⟩
      · rcases takes.known t inside with hc | size
        · exact absurd (h.current hc).1 (Nat.not_lt.mpr new)
        · exact size
      · have old : t.index < m.world.transactions.size := by
          rcases List.mem_cons.mp hg with rfl | hg
          · exact (h.current (own i t hs)).1
          · exact h.known g hg t (.inr ⟨i, hs⟩)
        exact Nat.not_lt.mpr new old
  | refused hb => exact h.thinned shift (fun _ hg => hg) (Coordinator.begin_error hb).size_le
  | left mem hl =>
    exact h.thinned shift (fun _ hg => List.mem_of_mem_filter hg)
      (Nat.le_of_eq (Guard.leave_size hl).symm)
  | beside ha =>
    exact h.thinned shift (fun _ hg => hg) (Nat.le_of_eq (Aside.perform_pauses ha).2.symm)

end Veiled

/-! ### What each step adds -/

/-- What a step adds to what is on record about a transaction. -/
inductive Adds (m m' : Moment) (i : ResourceId) (t : TxId) : Prop
  /-- A guard becomes live: its scope lays the transaction aside, or does not. -/
  | laidAside {g : Guard} (live : m'.live = g :: m.live)
      (own : ∀ i t, g.suspended = some (i, t) → m.world.currentTransaction = some t)
      (pauses : m'.world.pauses i t = g.laidAside i t ++ m.world.pauses i t)
  /-- A guard ends: what its scope has laid aside is taken up again. -/
  | takenUp {g : Guard} (mem : g ∈ m.live) (live : m'.live = m.live.filter (· ≠ g))
      (pauses : m'.world.pauses i t = g.takenUp i t ++ m.world.pauses i t)
  /-- The same guards are live, and nothing is added. -/
  | nothing (live : m'.live = m.live) (pauses : m'.world.pauses i t = m.world.pauses i t)
  /-- A scope is refused after it has laid the current transaction aside. -/
  | both {k : Coordinator} {d : TransactionDefinition} {e : Error}
      (refused : k.begin d m.world = (.error e, m'.world)) (live : m'.live = m.live)
      (current : m.world.currentTransaction = some t)
      (pauses : m'.world.pauses i t = .resume t :: .suspend t :: m.world.pauses i t)

theorem Step.adds (h : Step m m') (i : ResourceId) (t : TxId) : Adds m m' i t := by
  cases h with
  | pushed attributes =>
    exact .laidAside rfl (fun _ _ h => by cases h) (pauses_congr (by cases i <;> rfl))
  | @begun k d s w h =>
    obtain ⟨w₁, entry, _, _⟩ := Coordinator.begin_ok h
    refine .laidAside rfl (fun i t hs => ?_) (begin_pauses h i t)
    exact entry.takes.suspended t (Guard.suspended_guard.mp hs).2
  | @refused k d e w h =>
    rcases (Coordinator.begin_error h).pauses_error with same | ⟨u, hc, more⟩
    · exact .nothing rfl (same i t)
    · by_cases here : i = k.resource ∧ u = t
      · obtain ⟨rfl, rfl⟩ := here
        exact .both h rfl hc (by rw [more, if_pos ⟨rfl, rfl⟩]; rfl)
      · exact .nothing rfl (by rw [more, if_neg here]; rfl)
  | left mem h => exact .takenUp mem rfl (Guard.leave_pauses h i t)
  | beside h => exact .nothing rfl ((Aside.perform_pauses h).1 i t)

/-- What is on record agrees with the live guards: what a live scope has laid aside waits to be
    taken up again, and nothing else does. -/
structure Accounted (m : Moment) : Prop where
  veiled : Veiled m
  laid : ∀ g ∈ m.live, ∀ i t, g.suspended = some (i, t) →
    ∃ calls, Answered t calls ∧ m.world.pauses i t = .suspend t :: calls
  up : ∀ i t, (∀ g ∈ m.live, g.suspended ≠ some (i, t)) → Answered t (m.world.pauses i t)

theorem Accounted.step (h : Accounted m) (hs : Step m m') : Accounted m' where
  veiled := h.veiled.step hs
  laid g hg i t ht := by
    cases hs.adds i t with
    | @laidAside new live own pauses =>
      rw [live] at hg
      by_cases laid : new.suspended = some (i, t)
      · -- It was current, so it was not laid aside before.
        have free := (h.veiled.current (own i t laid)).2
        rw [pauses, Guard.laidAside, if_pos laid]
        exact ⟨_, h.up i t fun g hg => free g hg i, rfl⟩
      · rcases List.mem_cons.mp hg with rfl | hg
        · exact absurd ht laid
        · rw [pauses, Guard.laidAside, if_neg laid]
          exact h.laid g hg i t ht
    -- It is the guard that ends which takes it up, and no other guard has laid it aside.
    | @takenUp gone mem live pauses =>
      rw [live] at hg
      obtain ⟨hg, other⟩ := List.mem_filter.mp hg
      have kept : gone.suspended ≠ some (i, t) := by
        intro hgone
        have same := h.veiled.once g hg gone mem i i t ht hgone
        exact of_decide_eq_true other same
      rw [pauses, Guard.takenUp, if_neg kept]
      exact h.laid g hg i t ht
    | nothing live pauses =>
      rw [pauses]
      exact h.laid g (live ▸ hg) i t ht
    | both refused live current pauses =>
      exact absurd ht ((h.veiled.current current).2 g (live ▸ hg) i)
  up i t none := by
    cases hs.adds i t with
    | @laidAside new live own pauses =>
      rw [live] at none
      have other := none new List.mem_cons_self
      rw [pauses, Guard.laidAside, if_neg other]
      exact h.up i t fun g hg => none g (List.mem_cons_of_mem _ hg)
    | @takenUp gone mem live pauses =>
      rw [live] at none
      -- What was laid aside is taken up by the call that answers.
      by_cases laid : gone.suspended = some (i, t)
      · obtain ⟨calls, before, eq⟩ := h.laid gone mem i t laid
        rw [pauses, Guard.takenUp, if_pos laid, eq]
        exact .pair before
      · rw [pauses, Guard.takenUp, if_neg laid]
        refine h.up i t fun g hg => ?_
        by_cases same : g = gone
        · rw [same]
          exact laid
        · exact none g (List.mem_filter.mpr ⟨hg, decide_eq_true same⟩)
    | nothing live pauses =>
      rw [pauses]
      exact h.up i t (live ▸ none)
    | both refused live current pauses =>
      rw [pauses]
      exact .pair (h.up i t (live ▸ none))

theorem Accounted.run (h : Accounted m) (run : Runs m m') : Accounted m' := by
  induction run with
  | refl => exact h
  | tail _ hs ih => exact ih.step hs

theorem veiled_start (w : World) : Veiled (Thread.start w).toMoment :=
  ⟨stacked_start w, nofun, nofun, nofun⟩

/-- At first nothing is laid aside. -/
theorem accounted_start {w : World} (log : ∀ i, (w.resource i).log = []) :
    Accounted (Thread.start w).toMoment where
  veiled := veiled_start w
  laid := nofun
  up i t _ := by
    have fresh : (Thread.start w).toMoment.world.pauses i t = [] := by
      unfold pauses Resource.pauses
      rw [Thread.start_resource, log i]
      rfl
    rw [fresh]
    exact .nil

end Moment

/-! ### Suspensions are answered -/

/-- **Every suspension is answered.** A flow begins scopes, runs bodies in scopes, pushes contexts
    and ends all of these in any order, well or not, while any call on a resource may fail; it
    starts with nothing installed and nothing on record. At every moment at most one live scope has
    laid a given transaction aside. If one has, then the last thing on record about the transaction
    is that it was laid aside, and everything before was answered; if none has, as when all scopes
    have ended, then everything was. Whatever happens next, the transaction is laid aside only by a
    scope that is begun and stays live, and taken up again only where that scope ends, in whatever
    way, once; or both happen where a scope is refused, while no live scope has laid it aside. -/
theorem suspensions_answered {w : World} {m : Moment} (log : ∀ i, (w.resource i).log = [])
    (run : Moment.Runs (Thread.start w).toMoment m) :
    (∀ g ∈ m.live, ∀ g' ∈ m.live, ∀ i i' t, g.suspended = some (i, t) →
      g'.suspended = some (i', t) → g = g') ∧
    (∀ g ∈ m.live, ∀ i t, g.suspended = some (i, t) →
      ∃ calls, Answered t calls ∧ m.world.pauses i t = .suspend t :: calls) ∧
    (∀ i t, (∀ g ∈ m.live, g.suspended ≠ some (i, t)) → Answered t (m.world.pauses i t)) ∧
    ∀ m', m.Step m' → ∀ i t,
      (∃ g, m'.live = g :: m.live ∧
        m'.world.pauses i t = g.laidAside i t ++ m.world.pauses i t) ∨
      (∃ g ∈ m.live, m'.live = m.live.filter (· ≠ g) ∧
        m'.world.pauses i t = g.takenUp i t ++ m.world.pauses i t) ∨
      (m'.live = m.live ∧ m'.world.pauses i t = m.world.pauses i t) ∨
      m'.live = m.live ∧ (∃ k d e, Coordinator.begin k d m.world = (.error e, m'.world)) ∧
        (∀ g ∈ m.live, ∀ i', g.suspended ≠ some (i', t)) ∧
        m'.world.pauses i t = .resume t :: .suspend t :: m.world.pauses i t := by
  have accounted := (Moment.accounted_start log).run run
  refine ⟨accounted.veiled.once, accounted.laid, accounted.up, fun m' step i t => ?_⟩
  cases step.adds i t with
  | laidAside live own pauses => exact .inl ⟨_, live, pauses⟩
  | takenUp mem live pauses => exact .inr (.inl ⟨_, mem, live, pauses⟩)
  | nothing live pauses => exact .inr (.inr (.inl ⟨live, pauses⟩))
  | both refused live current pauses =>
    -- It was current, so no live guard has laid it aside.
    have free := (accounted.veiled.current current).2
    exact .inr (.inr (.inr ⟨live, ⟨_, _, _, refused⟩, free, pauses⟩))

/-- A scope that asks for a transaction of its own within another one. -/
theorem suspensions_answered_within :
    ∃ m : Moment, Moment.Runs (Thread.start {}).toMoment m ∧ ∃ g ∈ m.live,
      g.suspended = some (.main, ⟨0⟩) ∧
      ∃ calls, Answered ⟨0⟩ calls ∧ m.world.pauses .main ⟨0⟩ = .suspend ⟨0⟩ :: calls := by
  let k : Coordinator := {}
  let d : TransactionDefinition := { propagation := .requiresNew }
  let s : TransactionScope := ⟨.owner ⟨0⟩ none, ⟨0⟩⟩
  let s' : TransactionScope := ⟨.owner ⟨1⟩ (some ⟨0⟩), ⟨1⟩⟩
  let w := (k.begin {} (Thread.start {}).world).2
  have outer : k.begin {} (Thread.start {}).world = (.ok s, w) := by rfl
  have inner : k.begin d w = (.ok s', (k.begin d w).2) := Prod.ext (by decide +kernel) rfl
  have run : Moment.Runs (Thread.start {}).toMoment ⟨_, [k.guard s', k.guard s]⟩ :=
    .tail (.single (.begun outer)) (.begun inner)
  refine ⟨_, run, k.guard s', List.mem_cons_self, rfl, ?_⟩
  have answered := suspensions_answered (fun i => by cases i <;> rfl) run
  exact answered.2.1 (k.guard s') List.mem_cons_self .main ⟨0⟩ rfl

end ComponentHost
