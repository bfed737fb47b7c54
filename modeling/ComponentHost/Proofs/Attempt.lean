import ComponentHost.Error

/-! # Running attempts

  An attempt is run step by step: what it does after a step that succeeded or failed follows from
  what the step did, so that no proof opens the monad.
-/

namespace ComponentHost.Attempt

variable {σ α β : Type} {x : Attempt σ α} {s s' : σ}

theorem bind_ok {f : α → Attempt σ β} {a : α} (h : x s = (.ok a, s')) : (x >>= f) s = f a s' := by
  simp only [bind, ExceptT.bind, ExceptT.mk, StateT.bind, ExceptT.bindCont, h]

theorem bind_error {f : α → Attempt σ β} {e : Error} (h : x s = (.error e, s')) :
    (x >>= f) s = (.error e, s') := by
  simp only [bind, ExceptT.bind, ExceptT.mk, StateT.bind, ExceptT.bindCont, h]
  rfl

theorem bind_lift (act : StateM σ α) (f : α → Attempt σ β) (s : σ) :
    ((liftM act : Attempt σ α) >>= f) s = f (act s).1 (act s).2 := rfl

theorem bind_get (f : σ → Attempt σ β) (s : σ) : ((get : Attempt σ σ) >>= f) s = f s s := rfl

/-- A step whose result is only passed through a function. -/
theorem bind_pure_map (x : Attempt σ α) (f : α → β) (s : σ) :
    (x >>= fun a => pure (f a)) s = ((x s).1.map f, (x s).2) := by
  rcases h : x s with ⟨e | a, s'⟩
  · exact bind_error h
  · exact bind_ok h

theorem tryCatch_ok {f : Error → Attempt σ α} {a : α} (h : x s = (.ok a, s')) :
    tryCatch x f s = (.ok a, s') := by
  simp only [tryCatch, tryCatchThe, MonadExceptOf.tryCatch, ExceptT.tryCatch, ExceptT.mk, bind,
    StateT.bind, h]
  rfl

theorem tryCatch_error {f : Error → Attempt σ α} {e : Error} (h : x s = (.error e, s')) :
    tryCatch x f s = f e s' := by
  simp only [tryCatch, tryCatchThe, MonadExceptOf.tryCatch, ExceptT.tryCatch, ExceptT.mk, bind,
    StateT.bind, h]

/-- A computation whose failure is thrown away leaves the state as it leaves it. -/
theorem bind_tryCatch_pure {x : Attempt σ Unit} {f : Unit → Attempt σ β} (h : (x s).2 = s') :
    (tryCatch x (fun _ => pure ()) >>= f) s = f () s' := by
  rcases hx : x s with ⟨e | u, s₁⟩
  · rw [hx] at h
    subst h
    exact bind_ok (tryCatch_error hx)
  · rw [hx] at h
    subst h
    exact bind_ok (tryCatch_ok hx)

end ComponentHost.Attempt
