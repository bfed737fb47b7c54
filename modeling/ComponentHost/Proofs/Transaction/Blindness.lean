import ComponentHost.Proofs.Transaction.Scopes

/-! # Ends that do not see the stack

  The end of a scope neither looks at the stack of installed contexts nor changes it: `Blind` says
  so of a computation, and `Blind.finish` of the end of any scope, well or not. So it does not
  matter whether a context is taken off before a scope ends or afterwards.
-/

namespace ComponentHost

namespace World

def withStack (w : World) (stack : List ContextId) : World := { w with stack }

/-- A computation does the same on any stack, which it leaves alone. -/
def Blind {β : Type} (x : Hosted β) : Prop :=
  ∀ w stack, x (w.withStack stack) = ((x w).1, (x w).2.withStack stack)

namespace Blind

variable {β γ : Type}

theorem pure (b : β) : Blind (Pure.pure b) := fun _ _ => rfl

theorem throw (e : Error) : Blind (MonadExcept.throw e : Hosted β) := fun _ _ => rfl

theorem bind {x : Hosted β} {f : β → Hosted γ} (hx : Blind x) (hf : ∀ b, Blind (f b)) :
    Blind (x >>= f) := by
  intro w stack
  rcases h : x w with ⟨e | b, w'⟩
  · have h' : x (w.withStack stack) = (.error e, w'.withStack stack) := by rw [hx, h]
    rw [Attempt.bind_error h, Attempt.bind_error h']
  · have h' : x (w.withStack stack) = (.ok b, w'.withStack stack) := by rw [hx, h]
    rw [Attempt.bind_ok h, Attempt.bind_ok h', hf b]

theorem tryCatch {x : Hosted β} {f : Error → Hosted β} (hx : Blind x) (hf : ∀ e, Blind (f e)) :
    Blind (MonadExcept.tryCatch x f) := by
  intro w stack
  rcases h : x w with ⟨e | b, w'⟩
  · have h' : x (w.withStack stack) = (.error e, w'.withStack stack) := by rw [hx, h]
    rw [Attempt.tryCatch_error h, Attempt.tryCatch_error h', hf e]
  · have h' : x (w.withStack stack) = (.ok b, w'.withStack stack) := by rw [hx, h]
    rw [Attempt.tryCatch_ok h, Attempt.tryCatch_ok h']

/-- What is done may depend on the world, as long as it does not depend on the stack. -/
theorem get_bind {f : World → Hosted β} (hf : ∀ w, Blind (f w))
    (same : ∀ w stack, f (w.withStack stack) = f w) : Blind (get >>= f) := by
  intro w stack
  rw [Attempt.bind_get, Attempt.bind_get, same, hf]

theorem changeTransaction (t : TxId) (f : Transaction → Transaction) :
    Blind (liftM (World.changeTransaction t f)) := fun _ _ => rfl

theorem call (i : ResourceId) (c : Call) : Blind (World.call i c) := by
  intro w stack
  cases i with
  | main => rfl
  | other => rfl

variable (k : Coordinator) (t : TxId)

theorem rollback : Blind (k.rollback t) := by
  unfold Coordinator.rollback
  exact (call _ _).bind fun _ => changeTransaction _ _

theorem commit : Blind (k.commit t) := by
  unfold Coordinator.commit
  refine get_bind (fun w => ?_) fun _ _ => rfl
  split
  · exact (rollback k t).bind fun _ => throw _
  · split
    · exact (rollback k t).bind fun _ => throw _
    · refine tryCatch ((call _ _).bind fun _ => changeTransaction _ _) fun e => ?_
      exact (tryCatch (rollback k t) fun _ => pure _).bind fun _ => throw _

/-- The part of a scope in its own transaction ends alike on any stack. -/
theorem settle (p : Participation) (success : Bool) : Blind (k.settle p success) := by
  cases p with
  | owner t s =>
    cases success with
    | true => exact commit k t
    | false => exact rollback k t
  | joined t =>
    cases success with
    | true =>
      -- A joined scope that completes reads the clock, but nothing of what the resource holds.
      have same : k.settle (.joined t) true = (do
          let w ← get
          if w.isExpired t then
            setRollbackOnly t true
            MonadExcept.throw (w.timeoutError t)) := rfl
      rw [same]
      refine get_bind (fun w => ?_) fun _ _ => rfl
      split
      · exact (changeTransaction _ _).bind fun _ => throw _
      · exact pure _
    | false => exact changeTransaction _ _
  | nested t name m =>
    cases success with
    | true => exact call k.resource (.releaseSavepoint t name)
    | false => exact (call _ _).bind fun _ => changeTransaction _ _
  | apart s => exact pure _

/-- A scope ends alike on any stack. -/
theorem finish (p : Participation) (success : Bool) : Blind (k.finish p success) := by
  intro w stack
  have taken : Blind (k.takeUp p.suspended) := by
    unfold Coordinator.takeUp
    cases p.suspended with
    | none => exact pure _
    | some t => exact call _ _
  unfold Coordinator.finish
  rw [settle k p success w stack]
  rcases k.settle p success w with ⟨result, w'⟩
  simp only [taken w' stack]
  rfl

end Blind

/-- It does not matter whether a context is taken off before a scope ends or afterwards. -/
theorem finish_uninstall (k : Coordinator) (p : Participation) (success : Bool) (c : ContextId)
    (w : World) :
    (k.finish p success (uninstall c w).2).2 = (uninstall c (k.finish p success w).2).2 := by
  have same : (k.finish p success w).2.stack = w.stack :=
    (Coordinator.finish_sameFlow (r := (k.finish p success w).1) rfl).stack
  have blind := Blind.finish k p success w (w.stack.erase c)
  show (k.finish p success (w.withStack (w.stack.erase c))).2
    = (k.finish p success w).2.withStack ((k.finish p success w).2.stack.erase c)
  rw [blind, same]

theorem uninstall_comm (c c' : ContextId) (w : World) :
    (uninstall c (uninstall c' w).2).2 = (uninstall c' (uninstall c w).2).2 := by
  show w.withStack ((w.stack.erase c').erase c) = w.withStack ((w.stack.erase c).erase c')
  rw [List.erase_comm]

end World

end ComponentHost
