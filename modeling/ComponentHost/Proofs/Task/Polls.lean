import ComponentHost.Proofs.Context.LiveGuards
import ComponentHost.Task.Transactional

/-! # Polls

  The code of a task runs poll by poll, each on whatever thread it may be, on top of what is
  installed there. Between two polls it is only a resumption; its scopes are installed anew by every
  poll, and taken off at its end. Code that is dropped while it waits runs no further, but the
  destructors of what it holds do, and nothing of its own is installed for them.

  - `Code` is the code of a task as a tree, which may wait for several pieces of code at once, and
    `Code.task` the task that it is;
  - `Glance` is what the code, or a destructor, can see at a moment, put on record;
  - `Quiet` says of what dropping does that it leaves the stack as it found it;
  - `Calm` says so of a poll, and of all that may follow, and that the code has only seen contexts
    of its own on top;
  - `Code.calm` says so of all code.
-/

namespace ComponentHost

open World HasWorld

/-! ### The code of a task -/

/-- Gives two tasks their turns in the same polls; the first has had its turn in this poll, and the
    second may be dropped. Where the end of one settles it for both, the other is dropped, and
    `next` goes on with the results that there are. -/
def Progress.both {σ α β : Type} (settles : Except Stop α → Bool)
    (next : Option (Except Stop α) → Option (Except Stop α) → Task σ β) :
    Progress σ α → Task σ α → (σ → σ) → Progress σ β
  | done r s, second, drop =>
    if settles r then next (some r) none (drop s)
    else (second s).andThen fun r' => next (some r) (some r')
  | pending w s resume cancel, second, _ =>
    match second s with
    | done r' s =>
      if settles r' then next none (some r') (cancel s)
      else
        pending w s (fun g s => (resume g s).andThen fun r => next (some r) (some r')) cancel
    | pending w' s resume' cancel' =>
      let sooner : Wait :=
        { wakeAt := do return min (← w.wakeAt) (← w'.wakeAt)
          deadline := earlier w.deadline w'.deadline }
      pending sooner s (fun g s => (resume g s).both settles next (resume' g) cancel')
        fun s => cancel' (cancel s)

/-- A task that holds something: if it is dropped while it waits, that is dropped after all that it
    waits for. -/
def Progress.holding {σ α : Type} (drop : σ → σ) : Progress σ α → Progress σ α
  | done r s => done r s
  | pending w s resume cancel =>
    pending w s (fun g s => (resume g s).holding drop) fun s => drop (cancel s)

/-- The code of a task. -/
inductive Code
  /-- It ends. -/
  | done (result : Except Stop Value)
  /-- It works without waiting. The guards that it is left with are live until the next wait. -/
  | work (w : Work) (next : Except Stop Value → Code)
  | wait (w : Wait) (next : Code)
  /-- It waits for code that runs in a context of its own. -/
  | scope (attributes : Attributes) (body : Code) (next : Except Stop Value → Code)
  /-- It waits for code that runs in a transactional scope. -/
  | execute (k : Coordinator) (d : TransactionDefinition) (body : Code)
      (next : Except Stop Value → Code)
  /-- It waits for two pieces of code at once: for both, or until the end of one settles it. The
      second one may have captured something, which goes with it if it has had no turn. -/
  | both (settles : Except Stop Value → Bool) (first second : Code) (captured : Work)
      (next : Option (Except Stop Value) → Option (Except Stop Value) → Code)
  /-- It runs a block that holds locals, whose destructors work if the block is dropped while it
      waits. What they do when the block ends comes with what follows. -/
  | holding (destructors : Work) (block : Code) (next : Except Stop Value → Code)

/-- What the code of a task can see at a moment. -/
structure Glance where
  task : Nat
  /-- The context of the innermost scope around the code, none for destructors of code that was
      dropped. -/
  home : Option ContextId
  /-- The moment; its guards are those of the code. -/
  moment : Moment

/-- The contexts that code is to see on top: those of its guards, then that of its scope. -/
def Glance.contexts (x : Glance) : List ContextId :=
  x.moment.live.map (·.context) ++ x.home.toList

/-- A state that tasks share. -/
structure Scene extends Moment where
  /-- What the code of tasks has seen so far. -/
  glances : List Glance

namespace Scene

instance : HasWorld Scene where
  world s := s.world
  setWorld s w := { s with world := w }
  world_setWorld _ _ := rfl
  setWorld_world _ := rfl
  setWorld_setWorld _ _ _ := rfl

/-- The code of a task works; all that it can see on the way goes on record. -/
def work (i : Nat) (home : Option ContextId) (w : Work) : StateM Scene (Except Stop Value) :=
  fun s =>
    let (r, t) := w.run ⟨s.toMoment, [s.toMoment]⟩
    (r, ⟨t.toMoment, t.moments.map (⟨i, home, ·⟩) ++ s.glances⟩)

/-- Drops the guards that are live, the latest first. -/
def drop (s : Scene) : Scene :=
  { s with world := s.live.foldl (fun w g => (g.leave false w).2) s.world, live := [] }

/-- Destructors of code that is dropped work, in no scope of that code. -/
def unwind (i : Nat) (destructors : Work) (s : Scene) : Scene := (s.work i none destructors).2.drop

end Scene

/-- The task that code is, in the scope of a context. No guard is held across a wait. -/
def Code.task (i : Nat) : Code → ContextId → Task Scene Value
  | done result, _ => fun s => .done result s.drop
  | work w next, home => fun s =>
    let (r, s) := s.work i (some home) w
    (next r).task i home s
  | wait w next, home => fun s => .pending w s.drop (fun _ s => next.task i home s) id
  | scope attributes body next, home => fun s =>
    -- The guards are live while the context is derived, and dropped when the body is waited for.
    let (c, s) := onWorld (World.derive s.world.current attributes none) s
    ((body.task i c).within c s.drop).andThen fun r => (next r).task i home
  | execute k d body next, home => fun s =>
    let s := s.drop
    (k.executeTask d (body.task i s.world.nextContext) s).andThen fun r => (next r).task i home
  | both settles first second captured next, home => fun s =>
    (first.task i home s.drop).both settles (fun r r' => (next r r').task i home)
      (second.task i home) (·.unwind i captured)
  | holding destructors block next, home => fun s =>
    ((block.task i home s).holding (·.unwind i destructors)).andThen fun r => (next r).task i home

/-! ### Who made a context -/

/-- The context was made by a task: in an earlier poll, by the list of owners, or, if it is not on
    that list, in the poll of task `i` that is going on. -/
def Owns (owners : List (Option Nat)) (i j : Nat) (c : ContextId) : Prop :=
  owners[c.index]? = some (some j) ∨ (owners.length ≤ c.index ∧ j = i)

/-- The owners of the first `n` contexts, if those that are not on the list are of one owner. -/
def claim (owner : Option Nat) (n : Nat) (owners : List (Option Nat)) : List (Option Nat) :=
  owners ++ List.replicate (n - owners.length) owner

variable {owners owners' : List (Option Nat)} {i i' j n n' : Nat} {c : ContextId}

theorem length_claim (owner : Option Nat) (n : Nat) (owners : List (Option Nat)) :
    (claim owner n owners).length = max owners.length n := by
  rw [claim, List.length_append, List.length_replicate]
  omega

/-- What a task owns in a poll it owns afterwards. -/
theorem Owns.claimed (h : Owns owners i j c) (hc : c.index < n) :
    (claim (some i) n owners)[c.index]? = some (some j) := by
  rcases h with h | ⟨hle, rfl⟩
  · rw [claim, List.getElem?_append_left (List.getElem?_eq_some_iff.mp h).1, h]
  · rw [claim, List.getElem?_append_right hle, List.getElem?_replicate, if_pos (by omega)]

theorem Owns.later (h : Owns owners i j c) (hc : c.index < n)
    (hp : claim (some i) n owners <+: owners') : Owns owners' i' j c := by
  obtain ⟨rest, rfl⟩ := hp
  have claimed := h.claimed hc
  refine .inl ?_
  rw [List.getElem?_append_left (List.getElem?_eq_some_iff.mp claimed).1, claimed]

/-- What was made so far in a poll may be put on the list before the poll ends. -/
theorem Owns.of_claim (h : Owns (claim (some i) n owners) i j c) : Owns owners i j c := by
  by_cases hc : c.index < owners.length
  · rcases h with h | ⟨hle, rfl⟩
    · rw [claim, List.getElem?_append_left hc] at h
      exact .inl h
    · rw [length_claim] at hle
      omega
  · have hle := Nat.le_of_not_lt hc
    refine .inr ⟨hle, ?_⟩
    rcases h with h | ⟨_, rfl⟩
    · rw [claim, List.getElem?_append_right hle] at h
      have among := List.mem_of_getElem? h
      exact Option.some.inj (List.eq_of_mem_replicate among)
    · rfl

theorem claim_claim (owner : Option Nat) (h : n ≤ n') :
    claim owner n' (claim owner n owners) = claim owner n' owners := by
  rw [claim, length_claim, claim, claim, List.append_assoc, ← List.replicate_add]
  congr 2
  omega

theorem claim_mono (owner : Option Nat) (h : n ≤ n') :
    claim owner n owners <+: claim owner n' owners := by
  rw [← claim_claim owner h]
  exact List.prefix_append _ _

/-! ### What code has seen -/

/-- The code saw its own guards on top of the context of the scope around it, if it was in one, and
    all these contexts were made by its task. -/
def Glance.Own (owners : List (Option Nat)) (i n : Nat) (x : Glance) : Prop :=
  (∃ below, x.moment.world.stack = x.contexts ++ below) ∧
    ∀ c ∈ x.contexts, c.index < n ∧ Owns owners i x.task c

theorem Glance.Own.mono {x : Glance} (h : x.Own owners i n) (hn : n ≤ n') : x.Own owners i n' :=
  ⟨h.1, fun c hc => ⟨Nat.lt_of_lt_of_le (h.2 c hc).1 hn, (h.2 c hc).2⟩⟩

/-- What is known of an owner after a poll is known for ever. -/
theorem Glance.Own.later {x : Glance} (h : x.Own owners i n) (hn : n ≤ n')
    (hp : claim (some i) n owners <+: owners') (i' : Nat) : x.Own owners' i' n' :=
  ⟨h.1, fun c hc => ⟨Nat.lt_of_lt_of_le (h.2 c hc).1 hn, (h.2 c hc).2.later (h.2 c hc).1 hp⟩⟩

/-- In a poll of task `i`: nothing is installed but a stack, no guard is live, and all code has seen
    contexts of its own on top. -/
structure Ready (owners : List (Option Nat)) (i : Nat) (installed : List ContextId) (s : Scene) :
    Prop where
  stack : s.world.stack = installed
  live : s.live = []
  made : ∀ c ∈ installed, c.index < s.world.contexts.size
  known : owners.length ≤ s.world.contexts.size
  graded : s.world.contexts.Graded
  own : ∀ x ∈ s.glances, x.Own owners i s.world.contexts.size

/-- In a poll of task `i`: its code runs in the scope of a context of its own, or its destructors in
    none, with its guards on top. -/
structure Active (owners : List (Option Nat)) (i : Nat) (home : Option ContextId)
    (base : List ContextId) (s : Scene) : Prop where
  sound : ∃ n, owners.length ≤ n ∧ Stacked n (home.toList ++ base) s.toMoment
  home : ∀ c ∈ home, Owns owners i i c
  own : ∀ x ∈ s.glances, x.Own owners i s.world.contexts.size

/-- Only transactions and resources differ. -/
structure Unmoved (s s' : Scene) : Prop where
  flow : SameFlow s.world s'.world
  live : s'.live = s.live
  glances : s'.glances = s.glances

variable {installed base top : List ContextId} {home : Option ContextId} {s s' s'' : Scene}

theorem Unmoved.trans (h : Unmoved s s') (h' : Unmoved s' s'') : Unmoved s s'' :=
  ⟨h.flow.trans h'.flow, h'.live.trans h.live, h'.glances.trans h.glances⟩

theorem Ready.unmoved (h : Ready owners i installed s) (hq : Unmoved s s') :
    Ready owners i installed s' := by
  obtain ⟨flow, live, glances⟩ := hq
  refine ⟨flow.stack.trans h.stack, live.trans h.live, ?_, ?_, ?_, ?_⟩
  · rw [flow.contexts]; exact h.made
  · rw [flow.contexts]; exact h.known
  · rw [flow.contexts]; exact h.graded
  · rw [flow.contexts, glances]; exact h.own

/-- What was made so far in a poll is put on the list. -/
theorem Ready.claimed (h : Ready owners i installed s) :
    Ready (claim (some i) s.world.contexts.size owners) i installed s where
  stack := h.stack
  live := h.live
  made := h.made
  known := Nat.le_of_eq (by rw [length_claim, Nat.max_eq_right h.known])
  graded := h.graded
  own x hx := (h.own x hx).later (Nat.le_refl _) (List.prefix_refl _) i

theorem Ready.of_claim (h : Ready (claim (some i) n owners) i installed s) :
    Ready owners i installed s where
  stack := h.stack
  live := h.live
  made := h.made
  known := Nat.le_trans (List.prefix_append _ _).length_le h.known
  graded := h.graded
  own x hx :=
    have seen := h.own x hx
    ⟨seen.1, fun c hc => ⟨(seen.2 c hc).1, (seen.2 c hc).2.of_claim⟩⟩

theorem Ready.active (h : Ready owners i (home.toList ++ base) s)
    (hh : ∀ c ∈ home, Owns owners i i c) : Active owners i home base s where
  sound := by
    refine ⟨s.world.contexts.size, h.known, ?_⟩
    refine ⟨by rw [h.live, h.stack]; rfl, by rw [h.live]; exact .nil, h.made,
      by rw [h.live]; simp, by rw [h.stack]; exact h.made, Nat.le_refl _, h.graded⟩
  home := hh
  own := h.own

/-- Contexts that were made by the end of a poll are there in the next one. -/
theorem Ready.le_size (h : Ready owners' i' installed s) {owner : Option Nat}
    (hp : claim owner n owners <+: owners') : n ≤ s.world.contexts.size := by
  have claimed := Nat.le_trans hp.length_le h.known
  rw [length_claim] at claimed
  omega

/-- A context is installed. -/
theorem Ready.install (h : Ready owners i installed s) (hc : c.index < s.world.contexts.size) :
    Ready owners i (c :: installed) (onWorld (World.install c) s).2 := by
  refine ⟨congrArg (c :: ·) h.stack, h.live, ?_, h.known, h.graded, h.own⟩
  intro c' hc'
  rcases List.mem_cons.mp hc' with rfl | hc'
  · exact hc
  · exact h.made c' hc'

theorem Ready.uninstall (h : Ready owners i (c :: installed) s) :
    Ready owners i installed (onWorld (World.uninstall c) s).2 := by
  have made : ∀ c' ∈ installed, c'.index < s.world.contexts.size :=
    fun c' hc' => h.made c' (List.mem_cons_of_mem _ hc')
  exact ⟨uninstall_stack h.stack, h.live, made, h.known, h.graded, h.own⟩

/-! ### Working and dropping guards -/

/-- Code that runs in the scope of a context of its task sees contexts of the task on top: those of
    its guards were made in the poll that is going on. -/
theorem Glance.Own.of_stacked {m : Moment} (h : Stacked n (home.toList ++ base) m)
    (hn : owners.length ≤ n) (hh : ∀ c ∈ home, Owns owners i i c) :
    Glance.Own owners i m.world.contexts.size ⟨i, home, m⟩ := by
  have listed : m.world.stack = (m.live.map (·.context) ++ home.toList) ++ base := by
    rw [h.stack, List.append_assoc]
  refine ⟨⟨base, listed⟩, fun c hc => ⟨h.made c ?_, ?_⟩⟩
  · rw [listed]
    exact List.mem_append_left _ hc
  · rcases List.mem_append.mp hc with hc | hc
    · obtain ⟨g, hg, rfl⟩ := List.mem_map.mp hc
      exact .inr ⟨Nat.le_trans hn (h.since g hg), rfl⟩
    · exact hh c (Option.mem_toList.mp hc)

theorem Active.work (h : Active owners i home base s) (w : Work) :
    Active owners i home base (s.work i home w).2 := by
  obtain ⟨n, hn, sound⟩ := h.sound
  let t : Thread := ⟨s.toMoment, [s.toMoment]⟩
  have runs : Thread.Runs t (w.run t).2 := w.run_runs sound
  have recorded := runs.recorded (.single sound)
  refine ⟨⟨n, hn, runs.sound sound⟩, h.home, fun x hx => ?_⟩
  rcases List.mem_append.mp hx with hx | hx
  · obtain ⟨m, hm, rfl⟩ := List.mem_map.mp hx
    have seen := Glance.Own.of_stacked (recorded.sound m hm) hn h.home
    exact seen.mono (recorded.extends_now hm).size_le
  · exact (h.own x hx).mono runs.extends.size_le

/-- Dropping guards takes their contexts off the top of the stack. -/
theorem stack_foldl_leave (live : List Guard) (w : World)
    (h : w.stack = live.map (·.context) ++ base) :
    (live.foldl (fun w g => (g.leave false w).2) w).stack = base ∧
      (live.foldl (fun w g => (g.leave false w).2) w).contexts = w.contexts := by
  induction live generalizing w with
  | nil => exact ⟨h, rfl⟩
  | cons g live ih =>
    rcases hl : g.leave false w with ⟨r, w'⟩
    have ⟨stack, contexts⟩ := Guard.leave_eq hl
    have rest : w'.stack = live.map (·.context) ++ base := by
      rw [stack, h]
      exact List.erase_cons_head ..
    simp only [List.foldl_cons, hl, ← contexts]
    exact ih w' rest

theorem Active.drop_contexts (h : Active owners i home base s) :
    s.drop.world.contexts = s.world.contexts := by
  obtain ⟨n, _, sound⟩ := h.sound
  exact (stack_foldl_leave s.live s.world sound.stack).2

theorem Active.drop (h : Active owners i home base s) :
    Ready owners i (home.toList ++ base) s.drop := by
  obtain ⟨n, hn, sound⟩ := h.sound
  have contexts := h.drop_contexts
  refine ⟨(stack_foldl_leave s.live s.world sound.stack).1, rfl, fun c hc => ?_, ?_, ?_, ?_⟩
  · rw [contexts]
    exact Nat.lt_of_lt_of_le (sound.below c hc) sound.reached
  · rw [contexts]
    exact Nat.le_trans hn sound.reached
  · rw [contexts]
    exact sound.graded
  · rw [contexts]
    exact h.own

/-- A context is derived, which the task then owns. -/
theorem Active.derive (h : Active owners i home base s) (attributes : Attributes) :
    Active owners i home base (onWorld (World.derive s.world.current attributes none) s).2 := by
  obtain ⟨n, hn, sound⟩ := h.sound
  have grows : s.world.contexts.Grows _ := .derived s.world.current attributes none
  refine ⟨⟨n, hn, Shift.sound sound (.beside rfl grows rfl)⟩, h.home, fun x hx => ?_⟩
  exact (h.own x hx).mono grows.extends.size_le

/-! ### Quiet drops -/

/-- Dropping something of task `i`, be it in a poll of the task or between polls: the stack is left
    as it was found, and no code of the task has seen contexts of others on top. -/
def Quiet (i : Nat) (drop : Scene → Scene) : Prop :=
  ∀ ⦃owners base s⦄, Ready owners i base s → Ready owners i base (drop s)

theorem Quiet.of_unmoved {drop : Scene → Scene} (h : ∀ s, Unmoved s (drop s)) : Quiet i drop :=
  fun _ _ s hs => hs.unmoved (h s)

theorem Quiet.comp {drop drop' : Scene → Scene} (h' : Quiet i drop') (h : Quiet i drop) :
    Quiet i fun s => drop' (drop s) :=
  fun _ _ _ hs => h' (h hs)

/-- Destructors take off what they have put on. -/
theorem quiet_unwind (i : Nat) (destructors : Work) : Quiet i (·.unwind i destructors) := by
  intro owners base s hs
  have active : Active owners i none base s := hs.active nofun
  exact (active.work destructors).drop

/-! ### Calm polls -/

/-- A poll of task `i` by which its code comes to rest with `top` on the stack of the thread: the
    stack is left as it was found, and so it is by every poll that may follow, in whatever state and
    on whatever thread. -/
inductive Calm (i : Nat) (top : List ContextId) :
    List (Option Nat) → List ContextId → Progress Scene Value → Prop
  /-- It has led to the end. -/
  | done {owners : List (Option Nat)} {base : List ContextId} {r : Except Stop Value} {s : Scene}
      (h : Ready owners i (top ++ base) s) : Calm i top owners base (.done r s)
  /-- It has led to a wait. By the next poll, others may have made more contexts. -/
  | pending {owners : List (Option Nat)} {base : List ContextId} {w : Wait} {s : Scene}
      {resume : Signal → Scene → Progress Scene Value} {cancel : Scene → Scene}
      (h : Ready owners i (top ++ base) s)
      (again : ∀ (owners' : List (Option Nat)) (base' : List ContextId) (g : Signal) (s' : Scene),
        claim (some i) s.world.contexts.size owners <+: owners' →
        Ready owners' i (top ++ base') s' → Calm i top owners' base' (resume g s'))
      (quiet : Quiet i cancel) : Calm i top owners base (.pending w s resume cancel)

variable {p : Progress Scene Value}

/-- A calm poll goes on calmly. -/
theorem Calm.andThen {f : Except Stop Value → Task Scene Value} (h : Calm i top owners base p)
    (own : ∀ c ∈ top, Owns owners i i c)
    (next : ∀ r owners base s, (∀ c ∈ top, Owns owners i i c) → Ready owners i (top ++ base) s →
      Calm i top owners base (f r s)) :
    Calm i top owners base (p.andThen f) := by
  induction h with
  | done h => exact next _ _ _ _ own h
  | pending h again quiet ih =>
    refine .pending h (fun owners' base' g s' hp hs' => ?_) quiet
    -- By the next poll, what was made in this one has its owner on the list.
    refine ih owners' base' g s' hp hs' fun c hc => ?_
    exact (own c hc).later (h.made c (List.mem_append_left _ hc)) hp

/-- Code that comes to rest in the scope of a context leaves what lies below. -/
theorem Calm.within {below : List ContextId} (h : Calm i [c] owners below p)
    (hb : below = top ++ base) : Calm i top owners base (p.within c) := by
  induction h generalizing base with
  | done h =>
    subst hb
    exact .done h.uninstall
  | @pending owners below w s resume cancel h again quiet ih =>
    -- The next poll installs the context again, on top of whatever stack it finds.
    subst hb
    refine .pending h.uninstall (fun owners' base' g s' hp hs' => ?_) quiet
    have made := Nat.lt_of_lt_of_le (h.made c List.mem_cons_self) (hs'.le_size hp)
    exact ih owners' (top ++ base') g _ hp (hs'.install made) rfl

/-- Code that holds something is calm if what it holds is dropped quietly. -/
theorem Calm.holding {drop : Scene → Scene} (h : Calm i top owners base p) (hd : Quiet i drop) :
    Calm i top owners base (p.holding drop) := by
  induction h with
  | done h => exact .done h
  | pending h again quiet ih =>
    exact .pending h (fun owners' base' g s' hp hs' => ih owners' base' g s' hp hs') (hd.comp quiet)

/-- Two tasks that have their turns in the same polls are calm if both are. -/
theorem Calm.both {settles : Except Stop Value → Bool}
    {next : Option (Except Stop Value) → Option (Except Stop Value) → Task Scene Value}
    {second : Task Scene Value} {drop : Scene → Scene} (h : Calm i top owners base p)
    (own : ∀ c ∈ top, Owns owners i i c)
    (turn : ∀ owners' s, owners <+: owners' → (∀ c ∈ top, Owns owners' i i c) →
      Ready owners' i (top ++ base) s → Calm i top owners' base (second s))
    (dropped : Quiet i drop)
    (rest : ∀ r r' owners base s, (∀ c ∈ top, Owns owners i i c) →
      Ready owners i (top ++ base) s → Calm i top owners base (next r r' s)) :
    Calm i top owners base (p.both settles next second drop) := by
  induction h generalizing second drop with
  | @done owners base r s h =>
    rw [Progress.both]
    split
    · exact rest _ _ _ _ _ own (dropped h)
    · exact (turn owners s (List.prefix_refl _) own h).andThen own fun r' => rest _ _
  | @pending owners base w s resume cancel h again quiet ih =>
    -- In this poll the first task has made contexts before the second one has its turn.
    let owners₁ := claim (some i) s.world.contexts.size owners
    have own' {owners' : List (Option Nat)} (hp : owners₁ <+: owners') :
        ∀ c ∈ top, Owns owners' i i c := fun c hc =>
      (own c hc).later (h.made c (List.mem_append_left _ hc)) hp
    have polled := turn owners₁ s (List.prefix_append _ _) (own' (List.prefix_refl _)) h.claimed
    have more {s' : Scene} (hs' : Ready owners₁ i (top ++ base) s') :
        s.world.contexts.size ≤ s'.world.contexts.size := hs'.le_size (List.prefix_refl _)
    have later {s' : Scene} {owners' : List (Option Nat)} (hs' : Ready owners₁ i (top ++ base) s')
        (hp : claim (some i) s'.world.contexts.size owners <+: owners') : owners₁ <+: owners' :=
      (claim_mono _ (more hs')).trans hp
    rw [Progress.both]
    cases hs : second s with
    | done r' s' =>
      rw [hs] at polled
      obtain ⟨hs'⟩ := polled
      simp only
      split
      · exact rest _ _ _ _ _ own (quiet hs'.of_claim)
      · refine .pending hs'.of_claim (fun owners' base' g s'' hp hs'' => ?_) quiet
        have hp := later hs' hp
        exact (again owners' base' g s'' hp hs'').andThen (own' hp) fun r => rest _ _
    | pending w' s' resume' cancel' =>
      rw [hs] at polled
      obtain _ | ⟨hs', again', quiet'⟩ := polled
      refine .pending hs'.of_claim (fun owners' base' g s'' hp hs'' => ?_) (quiet'.comp quiet)
      refine ih owners' base' g s'' (later hs' hp) hs'' (own' (later hs' hp))
        (fun owners'' s₃ hp₃ _ hs₃ => ?_) quiet'
      rw [← claim_claim _ (more hs')] at hp
      exact again' owners'' base' g s₃ (hp.trans hp₃) hs₃

/-! ### Transactional scopes around tasks -/

section Scopes

variable (k : Coordinator) (part : Participation)

/-- A scope around a task ends as the task has ended, by success or not. -/
theorem Coordinator.conclude_state {σ α : Type} [HasWorld σ] (r : Except Stop α) (s : σ) :
    (k.conclude part r s).2 = (k.finishIn part r.isOk s).2 := by
  cases r with
  | error stop => rfl
  | ok a =>
    rcases hf : k.finishIn part true s with ⟨e | u, s'⟩ <;>
      simp only [conclude, bind, StateT.bind, hf, Except.isOk, Except.toBool] <;> rfl

theorem unmoved_finishIn (success : Bool) (s : Scene) :
    Unmoved s (k.finishIn part success s).2 where
  flow := Coordinator.finish_sameFlow (r := (k.finish part success s.world).1) rfl
  live := rfl
  glances := rfl

theorem unmoved_conclude (r : Except Stop Value) (s : Scene) :
    Unmoved s (k.conclude part r s).2 := by
  rw [k.conclude_state]
  exact unmoved_finishIn k part _ s

theorem unmoved_abort (s : Scene) : Unmoved s (k.abort (α := Value) part s).2 :=
  unmoved_finishIn k part false s

variable {k part}

/-- Watching over a calm poll is calm, even where its time runs out. -/
theorem Calm.supervise (h : Calm i top owners base p) (deadline : Option Nat) :
    Calm i top owners base (k.supervise part deadline p) := by
  induction h with
  | @done owners base r s h => exact .done (h.unmoved (unmoved_conclude k part r s))
  | @pending owners base w s resume cancel h again quiet ih =>
    have ended : Quiet i fun s => (k.finishIn part false s).2 :=
      .of_unmoved (unmoved_finishIn k part false)
    refine .pending h (fun owners' base' g s' hp hs' => ?_) (ended.comp quiet)
    simp only
    -- Either the time is up, and the code is dropped where it waits, or it goes on.
    split
    · exact .done ((quiet hs').unmoved (unmoved_abort k part _))
    · exact ih owners' base' g s' hp hs'

/-- A context is derived, and nothing else happens. -/
theorem Ready.derive (h : Ready owners i installed s) (parent : Option ContextId)
    (attributes : Attributes) (binding : Option (Option TxId)) :
    Ready owners i installed (onWorld (World.derive parent attributes binding) s).2 := by
  have grows : s.world.contexts.Grows _ := .derived parent attributes binding
  have size := grows.extends.size_le
  exact ⟨h.stack, h.live, fun c hc => Nat.lt_of_lt_of_le (h.made c hc) size,
    Nat.le_trans h.known size, h.graded.grows grows, fun x hx => (h.own x hx).mono size⟩

/-- A task in a transactional scope is calm if its body is in the context of the scope, which is the
    one that is made next. -/
theorem Ready.executeTask (h : Ready owners i (top ++ base) s) (d : TransactionDefinition)
    {body : Task Scene Value} (calm : ∀ s', Owns owners i i s.world.nextContext →
      Ready owners i (s.world.nextContext :: (top ++ base)) s' →
      Calm i [s.world.nextContext] owners (top ++ base) (body s')) :
    Calm i top owners base (k.executeTask d body s) := by
  rcases he : k.enter d s.world with ⟨res, w⟩
  rcases Coordinator.enter_eq he with ⟨e, rfl, entry⟩ | ⟨part, w₁, entry, rfl, rfl⟩
  · -- The scope is refused.
    have eq : k.executeTask d body s = .done (.error (.ofError e)) { s with world := w } := by
      simp only [Coordinator.executeTask, onWorld, world, setWorld, ExceptT.run, he]
    rw [eq]
    exact .done (h.unmoved ⟨entry.sameFlow, rfl, rfl⟩)
  · have entered : Ready owners i (top ++ base) { s with world := w₁ } :=
      h.unmoved ⟨entry.sameFlow, rfl, rfl⟩
    have fresh : w₁.nextContext = s.world.nextContext := by
      rw [nextContext, entry.sameFlow.contexts, nextContext]
    -- The context of the scope is new, so it belongs to this task.
    have own : Owns owners i i s.world.nextContext := .inr ⟨h.known, rfl⟩
    have derived := entered.derive w₁.current {} (some part.transaction)
    have inside := derived.install (nextContext_lt_derive _ _ _ w₁)
    rw [fresh] at inside
    have polled := (calm _ own inside).within rfl
    have eq : k.executeTask d body s = k.supervise part
        (Coordinator.deadlineOf (World.derive w₁.current {} (some part.transaction) w₁).2 part)
        (body.within w₁.nextContext { s with
          world := (World.derive w₁.current {} (some part.transaction) w₁).2 }) := by
      simp only [Coordinator.executeTask, onWorld, world, setWorld, ExceptT.run, he]
    rw [eq, fresh]
    exact polled.supervise _

end Scopes

/-! ### Code is calm -/

variable {inner : ContextId}

/-- Code goes on in the scope of a context that its task owns. -/
theorem Ready.inside (h : Ready owners i (inner :: base) s) (own : Owns owners i i inner) :
    Active owners i (some inner) base s := by
  have h : Ready owners i ((some inner).toList ++ base) s := h
  exact h.active fun _ hc => Option.mem_some.mp hc ▸ own

/-- All code polls calmly in the scope of a context that its task owns. -/
theorem Code.calm (code : Code) (h : Active owners i (some inner) base s) :
    Calm i [inner] owners base (code.task i inner s) := by
  induction code generalizing owners inner base s with
  | done result => exact .done h.drop
  | work w next ih => exact ih _ (h.work w)
  | wait w next ih =>
    have rests := h.drop
    refine .pending rests (fun owners' base' g s' hp hs' => ?_) fun _ _ _ hs => hs
    have made := rests.made inner List.mem_cons_self
    exact ih (hs'.inside ((h.home inner rfl).later made hp))
  | scope attributes body next ihb ihn =>
    let c := s.world.nextContext
    let derived := (onWorld (World.derive s.world.current attributes none) s).2
    have active : Active owners i (some inner) base derived := h.derive attributes
    have rests := active.drop
    have own : Owns owners i i c := by
      obtain ⟨n, hn, sound⟩ := h.sound
      exact .inr ⟨Nat.le_trans hn sound.reached, rfl⟩
    have made : c.index < derived.drop.world.contexts.size := by
      rw [active.drop_contexts]
      exact nextContext_lt_derive _ _ _ s.world
    -- The body comes to rest in its own scope, which lies on top of that of the code around it.
    have polled := (ihb ((rests.install made).inside own)).within (rfl : _ = [inner] ++ base)
    refine polled.andThen (by simpa using h.home) fun r owners base s own hs => ?_
    exact ihn r (hs.inside (own inner List.mem_cons_self))
  | execute k d body next ihb ihn =>
    have polled : Calm i [inner] owners base
        (k.executeTask d (body.task i s.drop.world.nextContext) s.drop) :=
      h.drop.executeTask d fun s' own hs' => ihb (hs'.inside own)
    refine polled.andThen (by simpa using h.home) fun r owners base s own hs => ?_
    exact ihn r (hs.inside (own inner List.mem_cons_self))
  | both settles first second captured next ihf ihs ihn =>
    have first := ihf (h.drop.inside (h.home inner rfl))
    refine first.both (by simpa using h.home) (fun owners' s _ own hs => ?_)
      (quiet_unwind i captured) fun r r' owners base s own hs => ?_
    · exact ihs (hs.inside (own inner List.mem_cons_self))
    · exact ihn r r' (hs.inside (own inner List.mem_cons_self))
  | holding destructors block next ihb ihn =>
    have polled := (ihb h).holding (quiet_unwind i destructors)
    refine polled.andThen (by simpa using h.home) fun r owners base s own hs => ?_
    exact ihn r (hs.inside (own inner List.mem_cons_self))

end ComponentHost
