import ComponentHost.Proofs.Task.Polls

/-! # Isolation of tasks

  Tasks share one world, and threads poll them in any order: each poll may be on another thread, a
  task may be dropped while it waits, and between polls the threads do what they like with their own
  stacks. `System` is that state, `Event` what may happen next, and `tasks_isolated` says that every
  poll leaves every stack as it was, and that the code of a task finds its own contexts on top.
  Destructors do not: those of a task that is dropped find what is installed there and then.
-/

namespace ComponentHost

open World HasWorld

/-! ### Tasks on threads -/

/-- A future that tasks are made of. It may have captured something, which goes with it if it is
    never polled. -/
inductive Future
  /-- Code in a context that was derived, from another one or from none, when it was made. -/
  | context (parent : Option ContextId) (attributes : Attributes) (captured : Work) (body : Code)
  | transaction (k : Coordinator) (d : TransactionDefinition) (captured : Work) (body : Code)

/-- A task between its polls. -/
structure Suspended where
  /-- What its next poll does. -/
  resume : Signal → Scene → Progress Scene Value
  /-- What dropping it does. -/
  cancel : Scene → Scene

/-- Task number `i` before its first poll. -/
def Suspended.unpolled (i : Nat) (captured : Work) (t : Task Scene Value) : Suspended :=
  ⟨fun _ => t, (·.unwind i captured)⟩

/-- The scene after some contexts were taken off the top. -/
def Scene.without (s : Scene) (inside : List ContextId) : Scene :=
  { s with world := { s.world with stack := s.world.stack.drop inside.length } }

/-- Tasks and threads. -/
structure System where
  /-- What they share; its stack is that of the thread that ran last. -/
  scene : Scene
  installed : Nat → List ContextId
  /-- The tasks by their numbers, none where a task has ended or was dropped. -/
  tasks : List (Option Suspended)
  /-- For each context the task that made it, if a task did. -/
  owners : List (Option Nat)

/-- What happens next. -/
inductive System.Event
  /-- A task is made of a future. -/
  | spawn (f : Future)
  /-- A thread polls a task that has not ended. -/
  | poll (task thread : Nat) (g : Signal)
  /-- A task that has not ended is dropped on a thread, by code that runs inside some contexts:
      those of a task, say, in a poll of which that happens. -/
  | drop (task thread : Nat) (inside : List ContextId)
  /-- The code of a thread, in which no task runs, leaves it with another stack. -/
  | turn (thread : Nat) (stack : List ContextId)
  /-- Something else happens on a thread. -/
  | aside (thread : Nat) (a : Aside)

namespace System

/-- The scene with the stack of a thread, for code that runs there inside some contexts. -/
def on (sys : System) (thread : Nat) (inside : List ContextId) : Scene :=
  { sys.scene with world := { sys.scene.world with stack := inside ++ sys.installed thread } }

/-- The system after something has happened on a thread. The contexts that were made meanwhile are
    of one owner. -/
def after (sys : System) (thread : Nat) (owner : Option Nat) (s : Scene)
    (tasks : List (Option Suspended)) : System where
  scene := s
  installed u := if u = thread then s.world.stack else sys.installed u
  tasks := tasks
  owners := claim owner s.world.contexts.size sys.owners

/-- The system after what happens next. -/
def step (sys : System) : Event → System
  | .spawn (.context parent attributes captured body) =>
    let i := sys.tasks.length
    let (c, s) := onWorld (World.derive parent attributes none) sys.scene
    { scene := s
      installed := sys.installed
      tasks := sys.tasks ++ [some (.unpolled i captured ((body.task i c).within c))]
      owners := claim (some i) s.world.contexts.size sys.owners }
  | .spawn (.transaction k d captured body) =>
    let i := sys.tasks.length
    let task : Task Scene Value := fun s => k.executeTask d (body.task i s.world.nextContext) s
    { sys with tasks := sys.tasks ++ [some (.unpolled i captured task)] }
  | .poll i thread g =>
    match sys.tasks[i]? with
    | some (some p) =>
      match p.resume g (sys.on thread []) with
      | .done _ s => sys.after thread (some i) s (sys.tasks.set i none)
      | .pending _ s resume cancel =>
        sys.after thread (some i) s (sys.tasks.set i (some ⟨resume, cancel⟩))
    | _ => sys
  | .drop i thread inside =>
    match sys.tasks[i]? with
    | some (some p) =>
      if ∀ c ∈ inside, c.index < sys.scene.world.contexts.size then
        let s := (p.cancel (sys.on thread inside)).without inside
        sys.after thread (some i) s (sys.tasks.set i none)
      else sys
    | _ => sys
  | .turn thread stack =>
    if ∀ c ∈ stack, c.index < sys.scene.world.contexts.size then
      { sys with installed := fun u => if u = thread then stack else sys.installed u }
    else sys
  | .aside thread a =>
    sys.after thread none (onWorld a.perform.run (sys.on thread [])).2 sys.tasks

def run (sys : System) (events : List Event) : System := events.foldl step sys

/-- No context is made, none is installed, and there is no task. -/
def start (w : World) : System where
  scene := ⟨⟨{ w with contexts := #[], stack := [] }, []⟩, []⟩
  installed _ := []
  tasks := []
  owners := []

end System

/-! ### What holds between polls -/

/-- Whatever happens before its next poll, that will be calm, and dropping the task is quiet. -/
structure Suspended.Calm (i : Nat) (owners : List (Option Nat)) (p : Suspended) : Prop where
  resume : ∀ owners' base g s, owners <+: owners' → Ready owners' i base s →
    ComponentHost.Calm i [] owners' base (p.resume g s)
  cancel : Quiet i p.cancel

/-- What holds between polls. -/
structure System.Isolated (sys : System) : Prop where
  live : sys.scene.live = []
  known : sys.owners.length = sys.scene.world.contexts.size
  graded : sys.scene.world.contexts.Graded
  made : ∀ thread, ∀ c ∈ sys.installed thread, c.index < sys.scene.world.contexts.size
  own : ∀ x ∈ sys.scene.glances, ∀ i, x.Own sys.owners i sys.scene.world.contexts.size
  calm : ∀ (i : Nat) (p : Suspended), sys.tasks[i]? = some (some p) → p.Calm i sys.owners

variable {owners owners' : List (Option Nat)} {i n n' : Nat} {s : Scene} {sys : System}
  {thread : Nat} {base inside : List ContextId}

theorem Suspended.Calm.later {p : Suspended} (h : p.Calm i owners) (hp : owners <+: owners') :
    p.Calm i owners' where
  resume owners'' base g s hp' hs := h.resume owners'' base g s (hp.trans hp') hs
  cancel := h.cancel

theorem Ready.without (h : Ready owners i (inside ++ base) s) :
    Ready owners i base (s.without inside) where
  stack := by
    show s.world.stack.drop inside.length = base
    rw [h.stack, List.drop_left]
  live := h.live
  made c hc := h.made c (List.mem_append_right _ hc)
  known := h.known
  graded := h.graded
  own := h.own

/-- Where all contexts have their owners nothing is claimed. -/
theorem claim_of_le {owner : Option Nat} (h : n ≤ owners.length) :
    claim owner n owners = owners := by
  rw [claim, Nat.sub_eq_zero_of_le h]
  exact List.append_nil _

namespace System

namespace Isolated

/-- A thread polls, and drops, on its own stack. -/
theorem ready (h : sys.Isolated) (i thread : Nat)
    (hin : ∀ c ∈ inside, c.index < sys.scene.world.contexts.size) :
    Ready sys.owners i (inside ++ sys.installed thread) (sys.on thread inside) where
  stack := rfl
  live := h.live
  made c hc := (List.mem_append.mp hc).elim (hin c) (h.made thread c)
  known := Nat.le_of_eq h.known
  graded := h.graded
  own x hx := h.own x hx i

/-- A poll that comes to rest leaves the stacks as they were, and an isolated system. -/
theorem after (h : sys.Isolated) {tasks : List (Option Suspended)}
    (hs : Ready sys.owners i (sys.installed thread) s)
    (calm : ∀ (j : Nat) (p : Suspended), tasks[j]? = some (some p) →
      p.Calm j (claim (some i) s.world.contexts.size sys.owners)) :
    (sys.after thread (some i) s tasks).installed = sys.installed ∧
      (sys.after thread (some i) s tasks).Isolated := by
  -- What the task had installed in its turn has come off again.
  have same : (sys.after thread (some i) s tasks).installed = sys.installed := by
    funext u
    by_cases hu : u = thread
    · simp [System.after, hu, hs.stack]
    · simp [System.after, hu]
  refine ⟨same, hs.live, ?_, hs.graded, ?_, ?_, calm⟩
  · show (claim _ _ _).length = _
    rw [length_claim, Nat.max_eq_right hs.known]
    rfl
  · intro u c hc
    rw [same] at hc
    have more := hs.known
    rw [h.known] at more
    exact Nat.lt_of_lt_of_le (h.made u c hc) more
  · intro x hx i'
    exact (hs.own x hx).later (Nat.le_refl _) (List.prefix_refl _) i'

/-- More contexts are made, all of one owner. -/
theorem grow (h : sys.Isolated) {owner : Option Nat} {installed : Nat → List ContextId}
    {tasks : List (Option Suspended)} (live : s.live = [])
    (glances : s.glances = sys.scene.glances)
    (grows : sys.scene.world.contexts.Grows s.world.contexts)
    (same : ∀ thread, installed thread = sys.installed thread)
    (calm : ∀ (j : Nat) (p : Suspended), tasks[j]? = some (some p) →
      p.Calm j (claim owner s.world.contexts.size sys.owners)) :
    Isolated ⟨s, installed, tasks, claim owner s.world.contexts.size sys.owners⟩ := by
  have size := grows.extends.size_le
  refine ⟨live, ?_, h.graded.grows grows, ?_, ?_, calm⟩
  · rw [length_claim, h.known]
    exact Nat.max_eq_right size
  · intro thread c hc
    have hc : c ∈ sys.installed thread := same thread ▸ hc
    exact Nat.lt_of_lt_of_le (h.made thread c hc) size
  · intro x hx i
    -- What has been seen so far is of contexts whose owners are known: the claim adds nothing.
    rw [glances] at hx
    refine (h.own x hx i).later size ?_ i
    rw [claim_of_le (Nat.le_of_eq h.known.symm)]
    exact List.prefix_append _ _

/-- What becomes of the tasks when one of them is replaced. -/
theorem calm_set (h : sys.Isolated) {q : Option Suspended} (hp : sys.owners <+: owners')
    (hq : ∀ p, q = some p → p.Calm i owners') (j : Nat) (p : Suspended)
    (hj : (sys.tasks.set i q)[j]? = some (some p)) : p.Calm j owners' := by
  rw [List.getElem?_set] at hj
  split at hj
  · next hij =>
    subst hij
    split at hj
    · exact hq p (Option.some.inj hj)
    · cases hj
  · exact (h.calm j p hj).later hp

/-- What becomes of the tasks when there is one more. -/
theorem calm_append (h : sys.Isolated) {q : Suspended} (hp : sys.owners <+: owners')
    (hq : q.Calm sys.tasks.length owners') (j : Nat) (p : Suspended)
    (hj : (sys.tasks ++ [some q])[j]? = some (some p)) : p.Calm j owners' := by
  rcases Nat.lt_trichotomy j sys.tasks.length with hlt | rfl | hgt
  · rw [List.getElem?_append_left hlt] at hj
    exact (h.calm j p hj).later hp
  · rw [List.getElem?_concat_length] at hj
    cases hj
    exact hq
  · rw [List.getElem?_eq_none (by simp; omega)] at hj
    cases hj

/-! ### One event -/

theorem spawn (h : sys.Isolated) (f : Future) : (sys.step (.spawn f)).Isolated := by
  cases f with
  | context parent attributes captured body =>
    let c := sys.scene.world.nextContext
    let s := (onWorld (World.derive parent attributes none) sys.scene).2
    have grows : sys.scene.world.contexts.Grows s.world.contexts := .derived parent attributes none
    have made : c.index < s.world.contexts.size := nextContext_lt_derive _ _ _ sys.scene.world
    have own : Owns sys.owners sys.tasks.length sys.tasks.length c :=
      .inr ⟨Nat.le_of_eq h.known, rfl⟩
    refine h.grow (s := s) h.live rfl grows (fun _ => rfl)
      (h.calm_append (List.prefix_append _ _) ⟨?_, quiet_unwind _ captured⟩)
    -- Whenever the first poll comes, the context is there, and has its owner on the list.
    intro owners' base g s' hp hs
    have there := Nat.lt_of_lt_of_le made (hs.le_size hp)
    exact (body.calm ((hs.install there).inside (own.later made hp))).within rfl
  | transaction k d captured body =>
    refine ⟨h.live, h.known, h.graded, h.made, h.own, h.calm_append (List.prefix_refl _) ⟨?_, ?_⟩⟩
    · intro owners' base g s hp hs
      exact hs.executeTask d fun s' own hs' => body.calm (hs'.inside own)
    · exact quiet_unwind _ captured

/-- A poll leaves all stacks as they were. -/
theorem poll (h : sys.Isolated) (i thread : Nat) (g : Signal) :
    (sys.step (.poll i thread g)).installed = sys.installed ∧
      (sys.step (.poll i thread g)).Isolated := by
  rw [step]
  split
  · next p hp =>
    have ready : Ready sys.owners i ([] ++ sys.installed thread) (sys.on thread []) :=
      h.ready i thread (List.forall_mem_nil _)
    -- Whatever others have done meanwhile, the task can be resumed on this stack.
    have calm := (h.calm i p hp).resume sys.owners _ g _ (List.prefix_refl _) ready
    cases hr : p.resume g (sys.on thread []) with
    | done r s =>
      rw [hr] at calm
      cases calm with
      | done hs =>
        exact h.after hs (h.calm_set (List.prefix_append _ _) (fun p hp => by cases hp))
    | pending w s resume cancel =>
      rw [hr] at calm
      cases calm with
      | pending hs again quiet =>
        refine h.after hs (h.calm_set (List.prefix_append _ _) (fun p hp => ?_))
        cases hp
        exact ⟨fun owners' base g s' hp hs' => again owners' base g s' hp hs', quiet⟩
  · exact ⟨rfl, h⟩

/-- Dropping a task leaves all stacks as they were. -/
theorem drop (h : sys.Isolated) (i thread : Nat) (inside : List ContextId) :
    (sys.step (.drop i thread inside)).installed = sys.installed ∧
      (sys.step (.drop i thread inside)).Isolated := by
  rw [step]
  split
  · next p hp =>
    split
    · next hin =>
      have hs := ((h.calm i p hp).cancel (h.ready i thread hin)).without
      exact h.after hs (h.calm_set (List.prefix_append _ _) (fun p hp => by cases hp))
    · exact ⟨rfl, h⟩
  · exact ⟨rfl, h⟩

theorem aside (h : sys.Isolated) (thread : Nat) (a : Aside) :
    (sys.step (.aside thread a)).Isolated := by
  rcases ha : a.perform (sys.on thread []).world with ⟨r, w⟩
  have ⟨stack, contexts⟩ := Aside.perform_eq ha
  have eq : sys.step (.aside thread a)
      = sys.after thread none { sys.on thread [] with world := w } sys.tasks := by
    simp only [System.step, onWorld, world, setWorld, ExceptT.run, ha]
  have same (u : Nat) : (if u = thread then w.stack else sys.installed u) = sys.installed u := by
    split
    · next hu => rw [stack, hu]; rfl
    · rfl
  rw [eq]
  exact h.grow h.live rfl contexts same fun j p hj =>
    (h.calm j p hj).later (List.prefix_append _ _)

theorem turn (h : sys.Isolated) (thread : Nat) (stack : List ContextId) :
    (sys.step (.turn thread stack)).Isolated := by
  rw [step]
  split
  · next hm =>
    refine ⟨h.live, h.known, h.graded, fun u c hc => ?_, h.own, h.calm⟩
    by_cases hu : u = thread
    · exact hm c (by simpa [hu] using hc)
    · exact h.made u c (by simpa [hu] using hc)
  · exact h

theorem step (h : sys.Isolated) (e : Event) : (sys.step e).Isolated := by
  cases e with
  | spawn f => exact h.spawn f
  | poll i thread g => exact (h.poll i thread g).2
  | drop i thread inside => exact (h.drop i thread inside).2
  | turn thread stack => exact h.turn thread stack
  | aside thread a => exact h.aside thread a

theorem run (h : sys.Isolated) (events : List Event) : (sys.run events).Isolated := by
  induction events generalizing sys with
  | nil => exact h
  | cons e events ih => exact ih (h.step e)

end Isolated

end System

/-! ### Isolation -/

/-- The context that answers the code: the latest one that it has pushed in this poll, or else that
    of the innermost scope around it. -/
def Glance.context (x : Glance) : Option ContextId := x.contexts.head?

theorem Glance.Own.current {x : Glance} (h : x.Own owners i n) {c : ContextId}
    (hc : x.context = some c) : x.moment.world.current = some c := by
  obtain ⟨⟨below, stack⟩, _⟩ := h
  rw [World.current, stack]
  rw [Glance.context] at hc
  rw [List.head?_append, hc, Option.some_or]

/-- Two tasks take turns on one thread, and the second one pushes a context after its wait. -/
example :
    let looking : Work := .look fun _ => .done (.ok .null)
    let pushing : Work := .push {} fun _ => .done (.ok .null)
    let future (w : Work) : Future :=
      .context none {} (.done (.ok .null)) (.wait {} (.work w .done))
    let events : List System.Event :=
      [.spawn (future looking), .spawn (future pushing), .poll 0 7 .wake, .poll 1 7 .wake,
        .poll 1 7 .wake, .poll 0 7 .wake]
    ((System.start {}).run events).scene.glances.map (fun x => (x.task, x.context))
      = [(0, some ⟨0⟩), (0, some ⟨0⟩), (1, some ⟨2⟩), (1, some ⟨1⟩)] := by rfl

/-- A destructor that writes. -/
def Work.writing (key : String) : Work :=
  .aside (.write .main key (some .null)) fun _ => .done (.ok .null)

/-- Code that waits holding a value whose destructor writes. -/
def Code.holdingWriter : Code :=
  .holding (.writing "k") (.wait {} (.done (.ok .null))) .done

/-- What was seen: by which task, and under which context. -/
def Scene.seen (s : Scene) : List (Nat × Option ContextId) :=
  s.glances.map fun x => (x.task, x.moment.world.current)

/-- The scene after a task in a transaction of its own, which waits holding a value whose destructor
    writes, was dropped inside some contexts, while another task waits in a transaction, which then
    goes on to its end. -/
def System.dropped (inside : List ContextId) : Scene :=
  let future (body : Code) : Future := .transaction {} {} (.done (.ok .null)) body
  let waiting : Code := .wait {} (.done (.ok .null))
  ((System.start {}).run [.spawn (future .holdingWriter), .spawn (future waiting), .poll 0 7 .wake,
    .poll 1 7 .wake, .drop 0 7 inside, .poll 1 7 .wake]).scene

end ComponentHost
