import ComponentHost.Proofs.Context.Threads
import Mathlib.Data.List.Chain
import Mathlib.Data.List.Nodup

/-! # Live guards

  The stack of a thread holds the contexts of the guards that are live, and nothing else but what
  lay below when the code of the thread started. Contexts are made when they are installed, so none
  is installed twice, and a guard that ends takes off its own context wherever it stands.

  - `Shift` lists what can lie between two moments, once for all proofs;
  - `Stacked` is what holds at every moment, and `Shift.sound` says that shifts keep it;
  - `Work.run_runs` says that all that code does is made of shifts;
  - `stack_is_live` puts it together for whole runs.
-/

namespace ComponentHost

open World HasWorld

/-! ### Shifts -/

/-- What can lie between two moments. -/
inductive Shift (m m' : Moment) : Prop
  /-- A context is made below the current one and installed, and its guard is live. -/
  | installed {g : Guard} {attributes : Attributes} {binding : Option (Option TxId)}
      (fresh : g.context = m.world.nextContext)
      (stack : m'.world.stack = g.context :: m.world.stack)
      (contexts : m'.world.contexts = m.world.contexts.push
        ⟨m.world.current, m.world.contexts.depthBelow m.world.current, attributes, binding⟩)
      (live : m'.live = g :: m.live)
  /-- A guard that is live ends, and takes its context off. -/
  | left {g : Guard} (mem : g ∈ m.live) (stack : m'.world.stack = m.world.stack.erase g.context)
      (contexts : m'.world.contexts = m.world.contexts) (live : m'.live = m.live.filter (· ≠ g))
  /-- Nothing is installed and no guard ends. -/
  | beside (stack : m'.world.stack = m.world.stack)
      (contexts : m.world.contexts.Grows m'.world.contexts) (live : m'.live = m.live)

/-- A guard is the only live one of its context. -/
def Moment.Only (m : Moment) (g : Guard) : Prop := ∀ g' ∈ m.live, g'.context = g.context → g' = g

/-- The stack holds the contexts of the live guards in the order in which they were made, on top of
    others that were among the first `n`, and depths are numbers of ancestors. -/
structure Stacked (n : Nat) (base : List ContextId) (m : Moment) : Prop where
  stack : m.world.stack = m.live.map (·.context) ++ base
  order : m.live.Pairwise fun g g' => g'.context.index < g.context.index
  below : ∀ c ∈ base, c.index < n
  since : ∀ g ∈ m.live, n ≤ g.context.index
  made : ∀ c ∈ m.world.stack, c.index < m.world.contexts.size
  reached : n ≤ m.world.contexts.size
  graded : m.world.contexts.Graded

variable {n : Nat} {base : List ContextId} {m m' : Moment} {g : Guard} {t t' : Thread}

namespace Stacked

theorem nodup (h : Stacked n base m) : (m.live.map (·.context)).Nodup := by
  refine List.pairwise_map.mpr (h.order.imp fun hlt heq => ?_)
  rw [heq] at hlt
  exact Nat.lt_irrefl _ hlt

theorem only (h : Stacked n base m) (hg : g ∈ m.live) : m.Only g :=
  fun _ hg' heq => List.inj_on_of_nodup_map h.nodup hg' hg heq

/-- Taking off the context of a live guard leaves those of the others. -/
theorem stack_erase (h : Stacked n base m) (hg : g ∈ m.live) :
    m.world.stack.erase g.context = (m.live.filter (· ≠ g)).map (·.context) ++ base := by
  have other : ∀ g' ∈ m.live, (g'.context != g.context) = decide (g' ≠ g) := by
    intro g' hg'
    by_cases heq : g' = g
    · simp [heq]
    · have hne : g'.context ≠ g.context := fun hc => heq (h.only hg g' hg' hc)
      simp [heq, hne]
  rw [h.stack, List.erase_append_left _ (List.mem_map_of_mem hg), h.nodup.erase_eq_filter,
    List.filter_map]
  exact congrArg (fun live => live.map Guard.context ++ base) (List.filter_congr other)

/-- The current context is that of the latest live guard, or else the one that lay on top. -/
theorem current (h : Stacked n base m) :
    m.world.current = (m.live.head?.map (·.context)).or base.head? := by
  rw [World.current, h.stack]
  cases m.live <;> rfl

end Stacked

theorem Shift.grows (shift : Shift m m') : m.world.contexts.Grows m'.world.contexts := by
  cases shift with
  | installed _ _ contexts _ => rw [contexts]; exact .derived _ _ _
  | left _ _ contexts _ => rw [contexts]; exact .same
  | beside _ contexts _ => exact contexts

theorem Shift.sound (h : Stacked n base m) (shift : Shift m m') : Stacked n base m' := by
  have reached := Nat.le_trans h.reached shift.grows.extends.size_le
  have graded := h.graded.grows shift.grows
  cases shift with
  | @installed g attributes binding fresh stack contexts live =>
    -- The context is made now, so it comes after all that are on the stack.
    have top : g.context.index = m.world.contexts.size := by rw [fresh]; rfl
    refine ⟨by rw [stack, h.stack, live]; rfl, ?_, h.below, ?_, ?_, reached, graded⟩
    · rw [live]
      refine List.pairwise_cons.mpr ⟨fun g' hg' => ?_, h.order⟩
      rw [top]
      exact h.made _ (by rw [h.stack]; exact List.mem_append_left _ (List.mem_map_of_mem hg'))
    · intro g' hg'
      rw [live] at hg'
      rcases List.mem_cons.mp hg' with rfl | hg'
      · rw [top]
        exact h.reached
      · exact h.since g' hg'
    · intro c hc
      rw [contexts, Array.size_push]
      rw [stack] at hc
      rcases List.mem_cons.mp hc with rfl | hc
      · rw [top]
        exact Nat.lt_succ_self _
      · exact Nat.lt_succ_of_lt (h.made c hc)
  | @left g mem stack contexts live =>
    refine ⟨by rw [stack, live, h.stack_erase mem], ?_, h.below, ?_, ?_, reached, graded⟩
    · rw [live]
      exact h.order.filter _
    · intro g' hg'
      rw [live] at hg'
      exact h.since g' (List.mem_of_mem_filter hg')
    · intro c hc
      rw [contexts]
      rw [stack] at hc
      exact h.made c (List.mem_of_mem_erase hc)
  | beside stack contexts live =>
    refine ⟨by rw [stack, live, h.stack], by rw [live]; exact h.order, h.below,
      by rw [live]; exact h.since, ?_, reached, graded⟩
    intro c hc
    rw [stack] at hc
    exact contexts.extends.lt_size (h.made c hc)

/-- A guard whose context is made stays the only one of it, for later guards have later ones. -/
theorem Shift.only (shift : Shift m m') (hg : g.context.index < m.world.contexts.size)
    (h : m.Only g) : m'.Only g := by
  intro g' hg' heq
  cases shift with
  | installed fresh _ _ live =>
    rw [live] at hg'
    rcases List.mem_cons.mp hg' with rfl | hg'
    · rw [← heq, fresh] at hg
      exact absurd hg (Nat.lt_irrefl _)
    · exact h g' hg' heq
  | left _ _ _ live => exact h g' (List.mem_of_mem_filter (live ▸ hg')) heq
  | beside _ _ live => exact h g' (live ▸ hg') heq

/-- Where a body ends, the guard of its scope ends: that is a shift, even if the guard had been
    ended before. -/
theorem Stacked.end_shift (h : Stacked n base m) (only : m.Only g) (hg : g.context ∉ base)
    (stack : m'.world.stack = m.world.stack.erase g.context)
    (contexts : m'.world.contexts = m.world.contexts) (live : m'.live = m.live.filter (· ≠ g)) :
    Shift m m' := by
  -- If the guard has ended before, its context is off the stack, since no other guard has it.
  by_cases hm : g ∈ m.live
  · exact .left hm stack contexts live
  · have off : g.context ∉ m.world.stack := by
      rw [h.stack, List.mem_append, List.mem_map]
      rintro (⟨g', hg', heq⟩ | hb)
      · exact hm (only g' hg' heq ▸ hg')
      · exact hg hb
    refine .beside (by rw [stack, List.erase_of_not_mem off]) (by rw [contexts]; exact .same) ?_
    rw [live, List.filter_eq_self]
    intro g' hg'
    exact decide_eq_true fun heq => hm (heq ▸ hg')

/-! ### What operations do to stack and contexts -/

section Operations

variable {k : Coordinator} {d : TransactionDefinition} {w w' : World} {success : Bool}

theorem push_installed (attributes : Attributes) (w : World) (live : List Guard) :
    Shift ⟨w, live⟩ ⟨(push attributes w).2, ⟨w.nextContext, none⟩ :: live⟩ :=
  .installed rfl rfl rfl rfl

/-- A scope that is begun is a guard that is installed. -/
theorem begin_installed {s : TransactionScope} (h : k.begin d w = (.ok s, w'))
    (hg : g.context = s.context) (live : List Guard) : Shift ⟨w, live⟩ ⟨w', g :: live⟩ := by
  obtain ⟨w₁, entry, context, rfl⟩ := Coordinator.begin_ok h
  have flow := entry.sameFlow
  have contexts : (w₁.inScope s.participation).contexts = w.contexts.push
      ⟨w.current, w.contexts.depthBelow w.current, {}, some s.participation.transaction⟩ := by
    rw [inScope_contexts, flow.current, flow.contexts]
  refine .installed (hg.trans context) ?_ contexts rfl
  rw [inScope_stack, flow.stack, hg, context, nextContext, nextContext, flow.contexts]

/-- A scope that is refused leaves stack and contexts alone. -/
theorem begin_refused {e : Error} (h : k.begin d w = (.error e, w')) (live : List Guard) :
    Shift ⟨w, live⟩ ⟨w', live⟩ := by
  have flow := (Coordinator.begin_error h).sameFlow
  exact .beside flow.stack (by rw [flow.contexts]; exact .same) rfl

/-- A guard without a part in transactions only takes its context off; the part of another one is
    finished then. -/
theorem Guard.leave_finish {r : Except Error Unit} (h : g.leave success w = (r, w')) :
    (g.scope = none ∧ w' = (uninstall g.context w).2) ∨
      ∃ k p, g.scope = some (k, p) ∧ k.finish p success (uninstall g.context w).2 = (r, w') := by
  obtain ⟨c, scope⟩ := g
  cases scope with
  | none =>
    cases h
    exact .inl ⟨rfl, rfl⟩
  | some scope =>
    obtain ⟨k, p⟩ := scope
    refine .inr ⟨k, p, rfl, ?_⟩
    -- Completing and failing a scope both take its context off and finish its part.
    cases success with
    | true => exact h
    | false => exact h

/-- Ending a guard takes its context off, whatever comes of its part in transactions. -/
theorem Guard.leave_eq {r : Except Error Unit} (h : g.leave success w = (r, w')) :
    w'.stack = w.stack.erase g.context ∧ w'.contexts = w.contexts := by
  rcases leave_finish h with ⟨-, rfl⟩ | ⟨k, p, -, finished⟩
  · exact ⟨rfl, rfl⟩
  · have flow := Coordinator.finish_sameFlow finished
    exact ⟨flow.stack, flow.contexts⟩

/-- What code does besides installs nothing and takes nothing off. -/
theorem Aside.perform_eq {a : Aside} {r : Except Error Unit} (h : a.perform w = (r, w')) :
    w'.stack = w.stack ∧ w.contexts.Grows w'.contexts := by
  cases a with
  | write i key value =>
    have flow := (write_eq h).sameFlow
    exact ⟨flow.stack, by rw [flow.contexts]; exact .same⟩
  | insert c attributes => cases h; exact ⟨rfl, .inserted c attributes⟩
  | derive parent attributes binding => cases h; exact ⟨rfl, .derived parent attributes binding⟩
  | mark t => cases h; exact ⟨rfl, .same⟩
  | wait ms => cases h; exact ⟨rfl, .same⟩

end Operations

/-! ### Runs -/

/-- A thread goes on by a shift. -/
inductive Thread.Step (t : Thread) : Thread → Prop
  /-- The moment that it leads to is put on record. -/
  | reach {m : Moment} (shift : Shift t.toMoment m) : Step t (t.reach m)

namespace Thread

/-- A thread goes on by any number of shifts. -/
abbrev Runs : Thread → Thread → Prop := Relation.ReflTransGen Step

theorem Runs.sound (h : Runs t t') (hs : Stacked n base t.toMoment) :
    Stacked n base t'.toMoment := by
  induction h with
  | refl => exact hs
  | tail _ step ih =>
    cases step with
    | reach shift => exact shift.sound ih

theorem Runs.extends (h : Runs t t') : t.world.contexts.Extends t'.world.contexts := by
  induction h with
  | refl => exact .refl _
  | tail _ step ih =>
    cases step with
    | reach shift => exact ih.trans shift.grows.extends

theorem Runs.only (h : Runs t t') (hg : g.context.index < t.world.contexts.size)
    (hu : t.toMoment.Only g) : t'.toMoment.Only g := by
  induction h with
  | refl => exact hu
  | tail before step ih =>
    cases step with
    | reach shift => exact shift.only (Runs.extends before |>.lt_size hg) ih

/-- A run that starts with a shift. -/
theorem Runs.of_shift (shift : Shift t.toMoment m) (h : Stacked n base t.toMoment)
    (rest : Stacked n base m → Runs (t.reach m) t') : Runs t t' :=
  .head (.reach shift) (rest (shift.sound h))

end Thread

open Thread

/-! ### Bodies in scopes -/

/-- What running a body in a transactional scope does to a thread. -/
theorem Thread.execute_eq (k : Coordinator) (d : TransactionDefinition)
    (body : StateM Thread (Except Stop Value)) (t : Thread) :
    (k.execute (m := StateM Thread) d body t).2 =
      match k.begin d t.world with
      | (.error _, w) => setWorld t w
      | (.ok s, w) =>
        let (r, t₂) := body (setWorld t w)
        setWorld t₂ (if r.isOk then (k.complete s t₂.world).2 else (k.fail s t₂.world).2) := by
  rcases hb : k.begin d t.world with ⟨e | s, w⟩
  · simp only [Coordinator.execute, bind, StateT.bind, ExceptT.run, liftM, monadLift,
      MonadLift.monadLift, onWorld, world, hb]
    rfl
  · rcases hr : body (setWorld t w) with ⟨stop | a, t₂⟩
    · simp only [Coordinator.execute, bind, StateT.bind, ExceptT.run, liftM, monadLift,
        MonadLift.monadLift, onWorld, world, hb, hr]
      rfl
    · rcases hc : k.complete s t₂.world with ⟨e | _, w₃⟩ <;>
        simp only [Coordinator.execute, bind, StateT.bind, ExceptT.run, liftM, monadLift,
          MonadLift.monadLift, onWorld, world, hb, hr, hc] <;> rfl

/-- Code that runs in a scope: the guard of the scope is installed, the code runs, and then the
    guard ends, along with what else is to be ended. -/
theorem Thread.Runs.close (g : Guard) (body : Work) {w : World} (finish : World → World)
    (h : Stacked n base t.toMoment) (fresh : g.context = t.world.nextContext)
    (enter : Shift t.toMoment ⟨w, g :: t.live⟩)
    (inside : Stacked n base ⟨w, g :: t.live⟩ →
      Runs (t.reach ⟨w, g :: t.live⟩) (body.run (t.reach ⟨w, g :: t.live⟩)).2)
    (leave : ∀ w, (finish w).stack = w.stack.erase g.context ∧ (finish w).contexts = w.contexts) :
    let t₂ := (body.run (t.reach ⟨w, g :: t.live⟩)).2
    Runs t ((setWorld t₂ (finish t₂.world)).dismiss g) := by
  intro t₂
  have entered := enter.sound h
  have runs := inside entered
  -- What lay below was made before, and the context of the scope only now.
  have hg : g.context ∉ base := by
    intro hb
    have below := h.made g.context (by rw [h.stack]; exact List.mem_append_right _ hb)
    rw [fresh] at below
    exact Nat.lt_irrefl _ below
  have made := entered.made g.context (by rw [entered.stack]; exact List.mem_cons_self)
  -- The body may have ended the guard, but it cannot have made another one of the context.
  have only := runs.only made (entered.only List.mem_cons_self)
  have ⟨stack, contexts⟩ := leave t₂.world
  have left : Shift t₂.toMoment ⟨finish t₂.world, t₂.live.filter (· ≠ g)⟩ :=
    (runs.sound entered).end_shift only hg stack contexts rfl
  exact (Relation.ReflTransGen.head (.reach enter) runs).tail (.reach left)

/-- Code that runs in a transactional scope, unless that is refused. -/
theorem Thread.Runs.execute (k : Coordinator) (d : TransactionDefinition) (body : Work)
    (h : Stacked n base t.toMoment)
    (inside : ∀ {t : Thread}, Stacked n base t.toMoment → Runs t (body.run t).2) :
    let g : Guard := { context := t.world.nextContext }
    Runs t ((k.execute (m := StateM Thread) d (fun t => body.run (t.enrol g)) t).2.dismiss g) := by
  intro g
  rw [Thread.execute_eq]
  rcases hb : k.begin d t.world with ⟨e | s, w⟩
  · -- The guard of a scope that is refused has never been live.
    have never : t.live.filter (· ≠ g) = t.live := by
      refine List.filter_eq_self.mpr fun g' hg' => decide_eq_true fun heq => ?_
      have made := h.made g'.context
        (by rw [h.stack]; exact List.mem_append_left _ (List.mem_map_of_mem hg'))
      rw [heq] at made
      exact Nat.lt_irrefl _ made
    have refused : Shift t.toMoment ⟨w, t.live.filter (· ≠ g)⟩ := by
      rw [never]
      exact begin_refused hb _
    exact .single (.reach refused)
  · obtain ⟨_, _, context, _⟩ := Coordinator.begin_ok hb
    let result := (body.run (t.reach ⟨w, g :: t.live⟩)).1
    refine Runs.close g body
      (fun w => if result.isOk then (k.complete s w).2 else (k.fail s w).2) h rfl
      (begin_installed hb context.symm _) (fun h => inside h) fun w => ?_
    -- A guard that was handed out for the scope would end in the same way.
    let own : Guard := ⟨s.context, some (k, s.participation)⟩
    have finish : (if result.isOk then (k.complete s w).2 else (k.fail s w).2)
        = (own.leave result.isOk w).2 := by
      cases result.isOk <;> rfl
    rcases hl : own.leave result.isOk w with ⟨r, w'⟩
    have ⟨stack, contexts⟩ := Guard.leave_eq hl
    have same : own.context = g.context := context
    rw [finish, hl]
    exact ⟨by rw [stack, same], contexts⟩

/-- All that code does is made of shifts. -/
theorem Work.run_runs (work : Work) (h : Stacked n base t.toMoment) : Runs t (work.run t).2 := by
  induction work generalizing t with
  | done result => exact .refl
  | look next ih => exact .of_shift (.beside rfl .same rfl) h fun h => ih _ h
  | push attributes next ih =>
    exact .of_shift (push_installed attributes t.world t.live) h fun h => ih _ h
  | begin k d next ih =>
    rcases hb : k.begin d t.world with ⟨e | s, w⟩
    · have eq : (begin k d next).run t = (next (.error e)).run (t.reach ⟨w, t.live⟩) := by
        simp only [run, onWorld, world, ExceptT.run, hb]
        rfl
      rw [eq]
      exact .of_shift (begin_refused hb _) h fun h => ih _ h
    · have eq : (begin k d next).run t
          = (next (.ok ⟨s.context, some (k, s.participation)⟩)).run
              (t.reach ⟨w, ⟨s.context, some (k, s.participation)⟩ :: t.live⟩) := by
        simp only [run, onWorld, world, ExceptT.run, hb]
        rfl
      rw [eq]
      exact .of_shift (begin_installed hb rfl _) h fun h => ih _ h
  | leave g success next ih =>
    by_cases hg : g ∈ t.live
    -- The guard is live: its context comes off the stack, from wherever in it, and the others stay.
    · rcases hl : g.leave success t.world with ⟨r, w⟩
      have eq : (leave g success next).run t
          = (next r).run (t.reach ⟨w, t.live.filter (· ≠ g)⟩) := by
        simp only [run, hg, if_true, onWorld, world, ExceptT.run, hl]
        rfl
      have ⟨stack, contexts⟩ := Guard.leave_eq hl
      rw [eq]
      exact .of_shift (.left hg stack contexts rfl) h fun h => ih _ h
    -- It has been dropped before, which changes nothing.
    · have eq : (leave g success next).run t = (next (.ok ())).run t.note := by
        simp only [run, hg, if_false]
      rw [eq]
      exact .of_shift (.beside rfl .same rfl) h fun h => ih _ h
  | aside a next ih =>
    rcases ha : a.perform t.world with ⟨r, w⟩
    have eq : (aside a next).run t = (next r).run (t.reach ⟨w, t.live⟩) := by
      simp only [run, onWorld, world, ExceptT.run, ha]
      rfl
    have ⟨stack, contexts⟩ := Aside.perform_eq ha
    rw [eq]
    exact .of_shift (m := ⟨w, t.live⟩) (.beside stack contexts rfl) h fun h => ih _ h
  -- What the body leaves live is dropped before the block's own guard.
  | scope attributes body next ihb ihn =>
    have closed := Runs.close ⟨t.world.nextContext, none⟩ body
      (fun w => (uninstall t.world.nextContext w).2) h rfl
      (push_installed attributes t.world t.live) (fun h => ihb h) fun w => ⟨rfl, rfl⟩
    exact closed.trans (ihn _ (closed.sound h))
  | execute k d body next ihb ihn =>
    have executed := Runs.execute k d body h fun h => ihb h
    exact executed.trans (ihn _ (executed.sound h))

/-! ### Records -/

/-- The record of a thread ends with the present moment and is made of shifts, and every moment on
    it is sound. -/
structure Recorded (n : Nat) (base : List ContextId) (t : Thread) : Prop where
  present : ∃ past, t.moments = t.toMoment :: past
  chain : t.moments.IsChain fun m' m => Shift m m'
  sound : ∀ m ∈ t.moments, Stacked n base m

/-- A record may start at any moment that is sound. -/
theorem Recorded.single (h : Stacked n base m) : Recorded n base ⟨m, [m]⟩ where
  present := ⟨[], rfl⟩
  chain := .singleton _
  sound m' hm' := by
    rw [List.mem_singleton.mp hm']
    exact h

theorem Recorded.now (h : Recorded n base t) : t.toMoment ∈ t.moments := by
  obtain ⟨past, hp⟩ := h.present
  rw [hp]
  exact List.mem_cons_self

theorem Thread.Runs.recorded (h : Runs t t') (ht : Recorded n base t) : Recorded n base t' := by
  induction h with
  | refl => exact ht
  | @tail u _ _ step ih =>
    cases step with
    -- The chain grows at its head: only the last moment has to be looked at.
    | @reach m shift =>
      obtain ⟨past, hp⟩ := ih.present
      refine ⟨⟨u.moments, rfl⟩, ?_, ?_⟩
      · show (m :: u.moments).IsChain _
        have chain := ih.chain
        rw [hp] at chain ⊢
        exact .cons_cons shift chain
      · intro n hn
        rcases List.mem_cons.mp hn with rfl | hn
        · exact shift.sound (ih.sound _ ih.now)
        · exact ih.sound n hn

namespace Recorded

/-- From one moment on, contexts stay where they are in the tree. -/
theorem extends_pairwise (h : Recorded n base t) :
    t.moments.Pairwise fun m' m => m.world.contexts.Extends m'.world.contexts := by
  let later (m' m : Moment) : Prop := m.world.contexts.Extends m'.world.contexts
  have : Trans later later later := ⟨fun h h' => h'.trans h⟩
  have chain : t.moments.IsChain later := h.chain.imp fun _ _ shift => Shift.grows shift |>.extends
  exact chain.pairwise

theorem extends_now (h : Recorded n base t) (hm : m ∈ t.moments) :
    m.world.contexts.Extends t.world.contexts := by
  obtain ⟨past, hp⟩ := h.present
  have pairwise := h.extends_pairwise
  rw [hp] at hm pairwise
  rcases List.mem_cons.mp hm with rfl | hm
  · exact .refl _
  · exact (List.pairwise_cons.mp pairwise).1 m hm

theorem shift (h : Recorded n base t) {later earlier : List Moment}
    (split : t.moments = later ++ m' :: m :: earlier) : Shift m m' := by
  have chain := h.chain
  rw [split] at chain
  exact (List.isChain_cons_cons.mp chain.right_of_append).1

theorem extends_since (h : Recorded n base t) {later earlier : List Moment} {n : Moment}
    (split : t.moments = later ++ m' :: earlier) (hn : n ∈ later ++ [m']) :
    m'.world.contexts.Extends n.world.contexts := by
  have pairwise := h.extends_pairwise
  rw [split, List.pairwise_append] at pairwise
  rcases List.mem_append.mp hn with hn | hn
  · exact pairwise.2.2 n hn m' List.mem_cons_self
  · rw [List.mem_singleton.mp hn]
    exact .refl _

end Recorded

/-- A thread whose code starts: no context is installed, and none is made. -/
def Thread.start (w : World) : Thread :=
  let m : Moment := ⟨{ w with contexts := #[], stack := [] }, []⟩
  ⟨m, [m]⟩

theorem Thread.start_resource (w : World) (i : ResourceId) :
    (Thread.start w).toMoment.world.resource i = w.resource i := by cases i <;> rfl

theorem stacked_start (w : World) : Stacked 0 [] (Thread.start w).toMoment where
  stack := rfl
  order := .nil
  below := by simp
  since := by simp [Thread.start]
  made := by simp [Thread.start]
  reached := Nat.zero_le _
  graded := by simp [Thread.start, Contexts.Graded]

theorem recorded_start (w : World) : Recorded 0 [] (.start w) := .single (stacked_start w)

/-! ### The record of an installation -/

/-- The context of a guard that becomes live is made below the one that was current. -/
theorem Shift.installed_parent (shift : Shift m m') (hl : m'.live = g :: m.live) :
    ∃ ctx, m'.world.contexts[g.context.index]? = some ctx ∧ ctx.parent = m.world.current := by
  cases shift with
  | @installed g' attributes binding fresh stack contexts live =>
    obtain rfl : g' = g := (List.cons.inj (live.symm.trans hl)).1
    refine ⟨⟨m.world.current, m.world.contexts.depthBelow m.world.current, attributes, binding⟩,
      ?_, rfl⟩
    rw [contexts, fresh]
    exact Array.getElem?_push_size
  | @left g' _ _ _ live =>
    -- A guard that ends leaves a shorter list behind.
    have shorter := List.length_filter_le (· ≠ g') m.live
    rw [← live, hl, List.length_cons] at shorter
    omega
  | beside _ _ live => exact absurd (hl.symm.trans live) (List.cons_ne_self _ _)

/-- A guard was installed between two moments of a record. -/
def WasInstalled (g : Guard) (moments : List Moment) : Prop :=
  ∃ later m' m earlier, moments = later ++ m' :: m :: earlier ∧ m'.live = g :: m.live

theorem WasInstalled.cons {moments : List Moment} (h : WasInstalled g moments) (m : Moment) :
    WasInstalled g (m :: moments) := by
  obtain ⟨later, m₁, m₀, earlier, rfl, hl⟩ := h
  exact ⟨m :: later, m₁, m₀, earlier, rfl, hl⟩

/-- A guard that is live after a shift was live before it, or is installed by it. -/
theorem Shift.live_after (shift : Shift m m') (hg : g ∈ m'.live) :
    g ∈ m.live ∨ m'.live = g :: m.live := by
  cases shift with
  | installed _ _ _ live =>
    rw [live] at hg ⊢
    rcases List.mem_cons.mp hg with rfl | hg
    · exact .inr rfl
    · exact .inl hg
  | left _ _ _ live => exact .inl (List.mem_of_mem_filter (live ▸ hg))
  | beside _ _ live => exact .inl (live ▸ hg)

/-- Every guard that is live at a moment of a run was installed at a moment before. -/
theorem Thread.Runs.installed {w : World} (h : Runs (.start w) t) :
    ∀ later m earlier, t.moments = later ++ m :: earlier → ∀ g ∈ m.live,
      WasInstalled g (m :: earlier) := by
  induction h with
  | refl =>
    intro later m earlier hm g hg
    have only : m ∈ (Thread.start w).moments := by
      rw [hm]
      exact List.mem_append_right later List.mem_cons_self
    rw [List.mem_singleton.mp only] at hg
    cases hg
  | @tail u _ before step ih =>
    cases step with
    | @reach n shift =>
      obtain ⟨past, hp⟩ := (Runs.recorded before (recorded_start w)).present
      intro later m earlier hm g hg
      -- Only the latest moment is new; the one before it is where its guards were live, if at all.
      rcases List.cons_eq_append_iff.mp hm with ⟨rfl, split⟩ | ⟨later', rfl, split⟩
      · obtain ⟨rfl, rfl⟩ := List.cons.inj split
        rcases shift.live_after hg with hg | hl
        · exact (hp ▸ ih [] u.toMoment past hp g hg).cons m
        · exact ⟨[], m, u.toMoment, past, by rw [hp]; rfl, hl⟩
      · exact ih later' m earlier split g hg

/-! ### The stack of a thread -/

/-- **The stack is what is live.** At every moment of every run: the stack is the list of the
    contexts of the live guards, the latest first, and no context stands on it twice, so the current
    context is that of the latest one. Each of these guards was installed before, and wherever a
    guard was installed, the parent of its context is for ever the context that was current just
    before, and its depth the number of its ancestors. Whenever the same guards are live, the stack
    is the same. -/
theorem stack_is_live (work : Work) (w : World) :
    let t := (work.run (.start w)).2
    t.toMoment ∈ t.moments ∧
    (∀ m ∈ t.moments, m.world.stack = m.live.map (·.context) ∧ m.world.stack.Nodup ∧
      m.world.current = m.live.head?.map (·.context)) ∧
    (∀ later m earlier, t.moments = later ++ m :: earlier → ∀ g ∈ m.live,
      WasInstalled g (m :: earlier)) ∧
    (∀ later m' m earlier g, t.moments = later ++ m' :: m :: earlier → m'.live = g :: m.live →
      ∀ n ∈ later ++ [m'], ∃ ctx, n.world.contexts[g.context.index]? = some ctx ∧
        ctx.parent = m.world.current ∧
        ctx.depth = (n.world.contexts.ancestors g.context).length) ∧
    ∀ m ∈ t.moments, ∀ m' ∈ t.moments, (∀ g, g ∈ m'.live ↔ g ∈ m.live) →
      m'.world.stack = m.world.stack := by
  intro t
  have runs : Runs (.start w) t := work.run_runs (stacked_start w)
  have recorded := runs.recorded (recorded_start w)
  have stack {m : Moment} (hm : m ∈ t.moments) : m.world.stack = m.live.map (·.context) := by
    rw [(recorded.sound m hm).stack, List.append_nil]
  refine ⟨recorded.now, fun m hm => ⟨stack hm, ?_, ?_⟩, runs.installed, ?_, ?_⟩
  · rw [stack hm]
    exact (recorded.sound m hm).nodup
  · rw [(recorded.sound m hm).current, List.head?_nil, Option.or_none]
  · intro later m' m earlier g split hl n hn
    -- Nothing that follows changes the parent a context was made with, or its depth.
    obtain ⟨ctx, made, parent⟩ := (recorded.shift split).installed_parent hl
    obtain ⟨attributes, kept⟩ := recorded.extends_since split hn _ _ made
    have graded := (recorded.sound n (by rw [split]; grind)).graded
    exact ⟨_, kept, parent, graded g.context _ kept⟩
  · -- Live guards are in the order of their contexts, so the same ones make the same list.
    intro m hm m' hm' same
    have perm : m'.live.Perm m.live := by
      refine (List.perm_ext_iff_of_nodup ?_ ?_).mpr same
      · exact (recorded.sound m' hm').nodup.of_map
      · exact (recorded.sound m hm).nodup.of_map
    have equal : m'.live = m.live :=
      perm.eq_of_pairwise (fun _ _ _ _ h h' => absurd (Nat.lt_trans h h') (Nat.lt_irrefl _))
        (recorded.sound m' hm').order (recorded.sound m hm).order
    rw [stack hm', stack hm, equal]

/-- Three contexts are pushed; the guard of the second one ends first, then that of the first. -/
example :
    let work : Work := .push {} fun a => .push {} fun b => .push {} fun _ =>
      .leave b false fun _ => .leave a false fun _ => .done (.ok .null)
    ((work.run (.start {})).2.moments.map fun m => m.world.stack.map (·.index))
      = [[2], [2, 0], [2, 1, 0], [1, 0], [0], []] := by rfl

end ComponentHost
