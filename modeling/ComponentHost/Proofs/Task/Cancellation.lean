import ComponentHost.Proofs.Task.Immediate
import ComponentHost.Proofs.Task.Polls
import ComponentHost.Proofs.Transaction.Blindness

/-! # Cancellation

  A task that waits inside nested transactional scopes can end in two ways before its time: it is
  dropped where it waits, which ends its scopes from the inside out, or its innermost body fails,
  and every body around it passes the failure on. The first way runs what the waiting task has put
  aside for that case, the second one runs the code after the wait. Both drop the same locals and
  end the same scopes in the same order; but by the second one, the locals of a body are dropped
  while the contexts of its scopes are installed, and by the first one they are not.

  - the ends of scopes do not see the stack, so it does not matter for them whether the contexts of
    all scopes are taken off before, as by dropping, or one after the other in between;
  - `Local` is a value that a body holds, and `Local.Indifferent` says that it does not matter for
    its destructor either;
  - `Awaiting` is a body that awaits an inner task, `chain` the task that such bodies are when each
    awaits the next one;
  - `Frame` is the scope of a body once it has been entered, `around` a task in such frames;
    `closeAll` is what becomes of frames by the first way, `failAll` by the second one;
  - `Leads` says that a chain comes to its innermost task in frames of its bodies, or never;
  - `cancellation_is_failure` puts it together for whole runs.
-/

namespace ComponentHost

open World HasWorld

/-! ### Changes of the world in a state -/

variable {σ α : Type} [HasWorld σ]

/-- Changes the world in a state, and nothing else. -/
def HasWorld.through (f : World → World) (s : σ) : σ := setWorld s (f (world s))

theorem HasWorld.through_through (f g : World → World) (s : σ) :
    through f (through g s) = through (fun w => f (g w)) s := by
  simp only [through, world_setWorld, setWorld_setWorld]

theorem HasWorld.world_through (f : World → World) (s : σ) : world (through f s) = f (world s) :=
  world_setWorld _ _

theorem HasWorld.through_id (s : σ) : through (fun w => w) s = s := setWorld_world s

def takeOff (c : ContextId) : σ → σ := through fun w => (uninstall c w).2

def putOn (c : ContextId) : σ → σ := through fun w => (install c w).2

/-- A context that has just been put on is taken off again. -/
theorem takeOff_putOn (c : ContextId) (s : σ) : takeOff c (putOn c s) = s := by
  have same (w : World) : (uninstall c (install c w).2).2 = w := by
    show w.withStack ((c :: w.stack).erase c) = w
    rw [List.erase_cons_head]
    rfl
  rw [takeOff, putOn, through_through]
  simp only [same]
  exact through_id s

/-- A scope ends without success. -/
def Coordinator.fails (k : Coordinator) (p : Participation) : σ → σ :=
  through fun w => (k.finish p false w).2

/-- The end of a scope does not see the stack. -/
theorem Coordinator.fails_takeOff (k : Coordinator) (p : Participation) (c : ContextId) (s : σ) :
    k.fails p (takeOff c s) = takeOff c (k.fails p s) := by
  simp only [fails, takeOff, through_through, finish_uninstall]

/-! ### Locals -/

/-- A value that a body holds. -/
inductive Local (σ : Type)
  | guard (g : Guard)
  /-- Another value, with what its destructor does. -/
  | value (destructor : σ → σ)

namespace Local

def drop : Local σ → σ → σ
  | guard g => through fun w => (g.leave false w).2
  | value destructor => destructor

/-- Drops values, the latest first. -/
def dropAll (held : List (Local σ)) (s : σ) : σ := held.foldl (fun s l => l.drop s) s

/-- Dropping it does the same whether a context is taken off before or afterwards. -/
def Indifferent (l : Local σ) : Prop := ∀ c s, l.drop (takeOff c s) = takeOff c (l.drop s)

theorem indifferent_guard (g : Guard) : (guard g : Local σ).Indifferent := by
  intro c s
  have same (w : World) :
      (g.leave false (uninstall c w).2).2 = (uninstall c (g.leave false w).2).2 := by
    rcases hs : g.scope with _ | ⟨k, p⟩
    · unfold Guard.leave
      rw [hs]
      exact uninstall_comm g.context c w
    -- To end a scope is to take its context off, which commutes, and to settle it.
    · have fails (w : World) :
          (g.leave false w).2 = (k.finish p false (uninstall g.context w).2).2 := by
        rw [Guard.leave, hs]
        rfl
      rw [fails, fails, uninstall_comm, finish_uninstall]
  simp only [drop, takeOff, through_through, same]

theorem dropAll_takeOff {held : List (Local σ)} (h : ∀ l ∈ held, l.Indifferent) (c : ContextId)
    (s : σ) : dropAll held (takeOff c s) = takeOff c (dropAll held s) := by
  induction held generalizing s with
  | nil => rfl
  | cons l held ih =>
    show dropAll held (l.drop (takeOff c s)) = takeOff c (dropAll held (l.drop s))
    rw [h l List.mem_cons_self, ih fun l hl => h l (List.mem_cons_of_mem _ hl)]

end Local

/-! ### Frames -/

/-- A scope around a task, once it has been entered. -/
structure Frame (σ α : Type) where
  coordinator : Coordinator
  /-- How the scope takes part in transactions, and its context. -/
  scope : TransactionScope
  /-- When its time is up. -/
  deadline : Option Nat
  /-- What its body holds while it awaits the task. -/
  held : List (Local σ)
  /-- What its body does once the task has ended. -/
  after : Except Stop α → Task σ α

namespace Frame

def wrap (f : Frame σ α) (p : Progress σ α) : Progress σ α :=
  f.coordinator.supervise f.scope.participation f.deadline
    (((p.holding (Local.dropAll f.held)).andThen f.after).within f.scope.context)

/-- The end of a frame that is dropped: its body drops what it holds, and then its scope ends by the
    error path. -/
def close (f : Frame σ α) (s : σ) : σ :=
  f.coordinator.fails f.scope.participation (Local.dropAll f.held s)

/-- The end of a frame whose body passes a failure on: likewise, but its context is only taken off
    in between. -/
def fail (f : Frame σ α) (s : σ) : σ :=
  f.coordinator.fails f.scope.participation (takeOff f.scope.context (Local.dropAll f.held s))

/-- The error of a frame whose time is up. -/
def overdue (f : Frame σ α) (w : World) : Error :=
  match f.scope.participation.transaction with
  | some t => w.timeoutError t
  | none => .internal "timeout without transaction"

end Frame

/-- A task in frames, the outermost one first. -/
def around (fs : List (Frame σ α)) (p : Progress σ α) : Progress σ α := fs.foldr Frame.wrap p

/-- The end of all frames that are dropped, the innermost one first. -/
def closeAll (fs : List (Frame σ α)) (s : σ) : σ := fs.foldr Frame.close s

/-- The end of all frames whose bodies pass a failure on, the innermost one first. -/
def failAll (fs : List (Frame σ α)) (s : σ) : σ := fs.foldr Frame.fail s

/-- Takes the contexts of frames off, the innermost one first. -/
def leaveAll (fs : List (Frame σ α)) (s : σ) : σ :=
  fs.foldr (fun f s => takeOff f.scope.context s) s

/-- Puts the contexts of frames on, the outermost one first. -/
def enterAll (fs : List (Frame σ α)) (s : σ) : σ :=
  fs.foldl (fun s f => putOn f.scope.context s) s

/-- The least deadline of frames and of what is inside. -/
def deadlineAround (fs : List (Frame σ α)) (inside : Option Nat) : Option Nat :=
  fs.foldr (fun f d => earlier f.deadline d) inside

theorem hasPassed_earlier (a b : Option Nat) (now : Nat) :
    hasPassed (earlier a b) now = (hasPassed a now || hasPassed b now) := by
  cases a with
  | none => rfl
  | some a =>
    cases b with
    | none => simp [earlier, hasPassed]
    | some b =>
      -- Of two deadlines the earlier one counts, so one passed means that the earlier has.
      by_cases ha : a ≤ now
      · have hm : min a b ≤ now := Nat.le_trans (Nat.min_le_left a b) ha
        simp [earlier, hasPassed, ha, hm]
      · by_cases hb : b ≤ now
        · have hm : min a b ≤ now := Nat.le_trans (Nat.min_le_right a b) hb
          simp [earlier, hasPassed, hb, hm]
        · have hm : ¬ min a b ≤ now := by omega
          simp [earlier, hasPassed, ha, hb, hm]

variable (f : Frame σ α) (fs : List (Frame σ α))

/-- Contexts that have just been installed are all taken off again. -/
theorem leaveAll_enterAll (s : σ) : leaveAll fs (enterAll fs s) = s := by
  induction fs generalizing s with
  | nil => rfl
  | cons f fs ih =>
    show takeOff f.scope.context (leaveAll fs (enterAll fs (putOn f.scope.context s))) = s
    rw [ih, takeOff_putOn]

variable {f fs}

/-- No destructor of what a body holds depends on the stack. -/
def Frame.Indifferent (f : Frame σ α) : Prop := ∀ l ∈ f.held, l.Indifferent

theorem Frame.close_takeOff (h : f.Indifferent) (c : ContextId) (s : σ) :
    f.close (takeOff c s) = takeOff c (f.close s) := by
  unfold close
  rw [Local.dropAll_takeOff h, Coordinator.fails_takeOff]

theorem closeAll_takeOff (h : ∀ f ∈ fs, f.Indifferent) (c : ContextId) (s : σ) :
    closeAll fs (takeOff c s) = takeOff c (closeAll fs s) := by
  induction fs with
  | nil => rfl
  | cons f fs ih =>
    show f.close (closeAll fs _) = takeOff c (f.close (closeAll fs s))
    rw [ih fun f hf => h f (List.mem_cons_of_mem _ hf),
      Frame.close_takeOff (h f List.mem_cons_self)]

/-- The two ways agree if no destructor depends on the stack: the contexts, which are taken off one
    after the other by the second way, may as well be taken off before. -/
theorem failAll_eq (h : ∀ f ∈ fs, f.Indifferent) (s : σ) :
    failAll fs s = closeAll fs (leaveAll fs s) := by
  induction fs with
  | nil => rfl
  | cons f fs ih =>
    have inner : ∀ f ∈ fs, f.Indifferent := fun f hf => h f (List.mem_cons_of_mem _ hf)
    calc f.fail (failAll fs s)
        = f.fail (closeAll fs (leaveAll fs s)) := by rw [ih inner]
      _ = f.close (takeOff f.scope.context (closeAll fs (leaveAll fs s))) := by
          rw [Frame.fail, Frame.close, Local.dropAll_takeOff (h f List.mem_cons_self)]
      _ = f.close (closeAll fs (takeOff f.scope.context (leaveAll fs s))) := by
          rw [closeAll_takeOff inner]

theorem dropAll_leaveAll {held : List (Local σ)} (h : ∀ l ∈ held, l.Indifferent) (s : σ) :
    Local.dropAll held (leaveAll fs s) = leaveAll fs (Local.dropAll held s) := by
  induction fs with
  | nil => rfl
  | cons f fs ih =>
    show Local.dropAll held (takeOff _ (leaveAll fs s)) = takeOff _ (leaveAll fs _)
    rw [Local.dropAll_takeOff h, ih]

/-! ### What becomes of a task in frames -/

variable (f fs)

/-- A body that passes a failure on: it drops what it holds and fails likewise. -/
def propagating (held : List (Local σ)) (after : Except Stop α → Task σ α) :
    Except Stop α → Task σ α
  | .error stop => fun s => .done (.error stop) (Local.dropAll held s)
  | .ok a => after (.ok a)

/-- The frame of a body that passes failures on. -/
def Frame.propagating (f : Frame σ α) : Frame σ α :=
  { f with after := ComponentHost.propagating f.held f.after }

/-- A failure that all bodies pass on ends all frames. -/
theorem around_failed (stop : Stop) (s : σ) :
    around (fs.map Frame.propagating) (.done (.error stop) s)
      = .done (.error stop) (failAll fs s) := by
  induction fs with
  | nil => rfl
  | cons f fs ih =>
    have inner : around ((f :: fs).map Frame.propagating) (.done (.error stop) s)
        = f.propagating.wrap (around (fs.map Frame.propagating) (.done (.error stop) s)) := rfl
    rw [inner, ih]
    rfl

/-- The time of the frame is up while the task inside waits, and no time inside is up. -/
def Frame.fires (f : Frame σ α) (inside : Option Nat) (now : Nat) : Bool :=
  !hasPassed inside now && hasPassed f.deadline now

omit [HasWorld σ] in
/-- A time that is up is up for all frames around it. -/
theorem Frame.fires_inside {inner : List (Frame σ α)} {inside : Option Nat} {now : Nat}
    (h : f.fires (deadlineAround inner inside) now = true) (outer : List (Frame σ α)) :
    hasPassed (deadlineAround (outer ++ f :: inner) inside) now = true := by
  induction outer with
  | nil =>
    have own := (Bool.and_eq_true_iff.mp h).2
    show hasPassed (earlier f.deadline (deadlineAround inner inside)) now = true
    rw [hasPassed_earlier, own, Bool.true_or]
  | cons g outer ih =>
    show hasPassed (earlier g.deadline (deadlineAround (outer ++ f :: inner) inside)) now = true
    rw [hasPassed_earlier, ih, Bool.or_true]

/-- A task that waits in a frame waits with it. -/
theorem Frame.wrap_pending (w : Wait) (s : σ) (resume : Signal → σ → Progress σ α)
    (cancel : σ → σ) :
    f.wrap (.pending w s resume cancel) =
      .pending { w with deadline := earlier f.deadline w.deadline }
        (takeOff f.scope.context s)
        (fun g s =>
          if g = .expire && f.fires w.deadline (world s).clock then
            .done (.error (.ofError (f.overdue (world (Local.dropAll f.held (cancel s))))))
              (f.close (cancel s))
          else f.wrap (resume g (putOn f.scope.context s)))
        fun s => f.close (cancel s) := by
  have aborted (s : σ) : f.coordinator.abort (α := α) f.scope.participation (Local.dropAll f.held s)
      = (.error (.ofError (f.overdue (world (Local.dropAll f.held s)))), f.close s) := rfl
  unfold Frame.wrap fires
  simp only [Progress.holding, Progress.andThen, Progress.within, Coordinator.supervise, aborted,
    Bool.and_assoc]
  rfl

/-- What becomes of a task that waits in frames. Dropping it drops the task, and then all frames, in
    whatever state that is. When it is woken it goes on inside. When a time is up, and none further
    inside, all that is inside is dropped, then the frame whose time it was ends, and the body
    around that one sees the time out. -/
theorem around_pending (w : Wait) (s : σ) (rest : Signal → σ → Progress σ α) (drop : σ → σ) :
    ∃ resume, around fs (.pending w s rest drop) =
        .pending { w with deadline := deadlineAround fs w.deadline } (leaveAll fs s)
          resume (fun s => closeAll fs (drop s)) ∧
      (∀ s, resume .wake s = around fs (rest .wake (enterAll fs s))) ∧
      ∀ outer f inner s, fs = outer ++ f :: inner →
        f.fires (deadlineAround inner w.deadline) (world s).clock = true →
        resume .expire s =
          let dropped := closeAll inner (drop (enterAll outer s))
          around outer (.done
            (.error (.ofError (f.overdue (world (Local.dropAll f.held dropped)))))
            (f.close dropped)) := by
  induction fs with
  | nil =>
    refine ⟨rest, rfl, fun s => rfl, fun outer f inner s split => ?_⟩
    cases outer <;> cases split
  | cons f fs ih =>
    obtain ⟨resume, eq, wake, expire⟩ := ih
    let resume' : Signal → σ → Progress σ α := fun g s =>
      if g = .expire && f.fires (deadlineAround fs w.deadline) (world s).clock then
        .done (.error (.ofError (f.overdue (world (Local.dropAll f.held (closeAll fs (drop s)))))))
          (f.close (closeAll fs (drop s)))
      else f.wrap (resume g (putOn f.scope.context s))
    refine ⟨resume', ?_, fun s => ?_, fun outer f' inner s split fires => ?_⟩
    · have outermost : around (f :: fs) (.pending w s rest drop)
          = f.wrap (around fs (.pending w s rest drop)) := rfl
      rw [outermost, eq, f.wrap_pending]
      rfl
    · show f.wrap (resume .wake _) = _
      rw [wake]
      rfl
    · cases outer with
      | nil =>
        obtain ⟨rfl, rfl⟩ := List.cons.inj split
        simp only [resume', fires, decide_true, Bool.and_self, if_true]
        rfl
      | cons g outer =>
        -- A time further inside is up, so this frame has to let the one inside have its turn.
        rw [List.cons_append] at split
        obtain ⟨rfl, rfl⟩ := List.cons.inj split
        have inside : resume' .expire s
            = f.wrap (resume .expire (putOn f.scope.context s)) := by
          have passed := f'.fires_inside fires outer
          simp only [resume', Frame.fires, passed, Bool.not_true, Bool.false_and, Bool.and_false,
            Bool.false_eq_true, if_false]
        have clock : (world (putOn f.scope.context s)).clock = (world s).clock := by
          rw [putOn, world_through]
          rfl
        rw [inside, expire outer f' inner _ rfl (by rw [clock]; exact fires)]
        rfl

/-! ### Chains -/

/-- The code of a body in a transactional scope that awaits an inner task: any steps before, which
    may wait themselves and end holding anything, and any steps after. -/
structure Awaiting (σ α : Type) where
  coordinator : Coordinator
  definition : TransactionDefinition
  before : Task σ (List (Local σ))
  after : List (Local σ) → Except Stop α → Task σ α

namespace Awaiting

def body (b : Awaiting σ α) (inner : Task σ α) : Task σ α := fun s =>
  (b.before s).bind fun held s =>
    ((inner s).holding (Local.dropAll held)).andThen (b.after held)

def task (b : Awaiting σ α) (inner : Task σ α) : Task σ α :=
  b.coordinator.executeTask b.definition (b.body inner)

/-- A body that is the same up to the end of the inner task, and passes a failure of that on. -/
def propagating (b : Awaiting σ α) : Awaiting σ α :=
  { b with after := fun held => ComponentHost.propagating held (b.after held) }

end Awaiting

/-- Nested bodies in their scopes, the outermost one first, around an innermost task. -/
def chain (bodies : List (Awaiting σ α)) (inner : Task σ α) : Task σ α :=
  bodies.foldr Awaiting.task inner

/-- A task may end well with a value, if it is woken as it takes. -/
inductive Progress.MayYield {α : Type} (a : α) : Progress σ α → Prop
  | done (s : σ) : MayYield a (.done (.ok a) s)
  | pending {w : Wait} {s : σ} {resume : Signal → σ → Progress σ α} {cancel : σ → σ} (g : Signal)
      (s' : σ) (h : MayYield a (resume g s')) : MayYield a (.pending w s resume cancel)

omit [HasWorld σ] in
theorem Progress.MayYield.of_done {α : Type} {a b : α} {s : σ}
    (h : (Progress.done (.ok b) s).MayYield a) : a = b := by
  cases h
  rfl

/-- The frame is that of a body: its scope was entered as the body's definition asks for, and the
    body holds what its steps before have left it. -/
structure Frame.Of (f : Frame σ α) (b : Awaiting σ α) : Prop where
  coordinator : f.coordinator = b.coordinator
  entered : ∃ w w', b.coordinator.enter b.definition w = (.ok f.scope, w') ∧
    f.deadline = Coordinator.deadlineOf w' f.scope.participation
  held : ∃ s, (b.before s).MayYield f.held
  after : f.after = b.after f.held

/-- Two polls that depend on an innermost task, in chains that are the same up to the end of that
    task: either they come to it in the same frames, in this poll or in a later one, or the one on
    the left does not depend on it. -/
inductive Leads :
    List (Awaiting σ α) → (Task σ α → Progress σ α) → (Task σ α → Progress σ α) → Prop
  /-- The innermost task is not reached. -/
  | missed {bodies : List (Awaiting σ α)} (p : Progress σ α) (q : Task σ α → Progress σ α) :
      Leads bodies (fun _ => p) q
  /-- A body further outside waits. -/
  | waits {bodies : List (Awaiting σ α)} (w : Wait) (s : σ) (cancel : σ → σ)
      (resume resume' : Task σ α → Signal → σ → Progress σ α)
      (next : ∀ g s, Leads bodies (fun inner => resume inner g s) fun inner => resume' inner g s) :
      Leads bodies (fun inner => .pending w s (resume inner) cancel)
        (fun inner => .pending w s (resume' inner) cancel)
  /-- The innermost task is polled, within the frames of all bodies. -/
  | reached {bodies : List (Awaiting σ α)} (fs : List (Frame σ α)) (s : σ)
      (of : List.Forall₂ Frame.Of fs bodies) :
      Leads bodies (fun inner => around fs (inner s))
        (fun inner => around (fs.map Frame.propagating) (inner s))

variable {bodies : List (Awaiting σ α)} {b : Awaiting σ α} {f : Frame σ α}
  {p q : Task σ α → Progress σ α}

/-- One more frame around both. -/
theorem Leads.wrap (h : Leads bodies p q) (hf : f.Of b) :
    Leads (b :: bodies) (fun inner => f.wrap (p inner))
      fun inner => f.propagating.wrap (q inner) := by
  induction h with
  | missed p q => exact .missed (f.wrap p) _
  | waits w s cancel resume resume' next ih =>
    have left (inner : Task σ α) := f.wrap_pending w s (resume inner) cancel
    have right (inner : Task σ α) := f.propagating.wrap_pending w s (resume' inner) cancel
    simp only [left, right]
    refine .waits _ _ _ _ _ fun g s => ?_
    -- Whether the time of the frame is up does not depend on the innermost task.
    by_cases fires : (g = .expire && f.fires w.deadline (world s).clock) = true
    · simp only [fires, if_true]
      exact .missed _ _
    · have fires' : ¬ (g = .expire && f.propagating.fires w.deadline (world s).clock) = true :=
        fires
      simp only [fires, fires']
      exact ih g _
  | reached fs s of => exact .reached (f :: fs) s (.cons hf of)

/-- The steps of a body before it awaits the inner task. -/
theorem Leads.before {scope : TransactionScope} {deadline : Option Nat}
    {inside inside' : Task σ α → Task σ α}
    (h : ∀ s, Leads bodies (fun inner => inside inner s) fun inner => inside' inner s)
    (steps : Progress σ (List (Local σ)))
    (hf : ∀ held, steps.MayYield held →
      Frame.Of ⟨b.coordinator, scope, deadline, held, b.after held⟩ b) :
    Leads (b :: bodies)
      (fun inner => b.coordinator.supervise scope.participation deadline
        ((steps.bind fun held s =>
          ((inside inner s).holding (Local.dropAll held)).andThen (b.after held)).within
            scope.context))
      fun inner => b.coordinator.supervise scope.participation deadline
        ((steps.bind fun held s =>
          ((inside' inner s).holding (Local.dropAll held)).andThen
            (b.propagating.after held)).within scope.context) := by
  -- By induction on the steps that acquire what the body holds; until they end, no task waits
  -- inside.
  induction steps with
  | done result s =>
    cases result with
    | error stop => exact .missed _ _
    | ok held => exact (h s).wrap (hf held (.done s))
  | pending w s resume cancel ih =>
    refine .waits _ _ _ _ _ fun g s => ?_
    simp only
    split
    -- The deadline has passed while it waited, so the inner task is never started.
    · exact .missed _ _
    · exact ih g _ fun held yields => hf held (.pending g _ yields)

/-- A chain comes to its innermost task in the frames of its bodies, or never. -/
theorem chain_leads (bodies : List (Awaiting σ α)) (s : σ) :
    Leads bodies (fun inner => chain bodies inner s)
      fun inner => chain (bodies.map Awaiting.propagating) inner s := by
  induction bodies generalizing s with
  | nil => exact .reached [] s .nil
  | cons b bodies ih =>
    rcases he : b.coordinator.enter b.definition (world s) with ⟨e | scope, w⟩
    -- A scope that is refused ends the task before the inner one, and so does its counterpart.
    · have refused : (fun inner => chain (b :: bodies) inner s)
          = fun _ => .done (.error (.ofError e)) (setWorld s w) := by
        funext inner
        show b.task (chain bodies inner) s = _
        simp only [Awaiting.task, Coordinator.executeTask, onWorld_eq, ExceptT.run, he]
      rw [refused]
      exact .missed _ _
    · have entered (b' : Awaiting σ α) (hc : b'.coordinator = b.coordinator)
          (hd : b'.definition = b.definition) (inner : Task σ α) :
          b'.task inner s = b.coordinator.supervise scope.participation
            (Coordinator.deadlineOf w scope.participation)
            ((b'.body inner).within scope.context (setWorld s w)) := by
        simp only [Awaiting.task, Coordinator.executeTask, onWorld_eq, ExceptT.run, hc, hd, he,
          world_setWorld]
      -- Both sides enter the same scope, and differ in what they hold on to across the wait.
      have left (inner : Task σ α) := entered b rfl rfl (chain bodies inner)
      have right (inner : Task σ α) :=
        entered b.propagating rfl rfl (chain (bodies.map Awaiting.propagating) inner)
      have eq : (fun inner => chain (b :: bodies) inner s)
          = fun inner => b.task (chain bodies inner) s := rfl
      have eq' : (fun inner => chain ((b :: bodies).map Awaiting.propagating) inner s)
          = fun inner => b.propagating.task (chain (bodies.map Awaiting.propagating) inner) s := rfl
      rw [eq, eq']
      simp only [left, right]
      exact Leads.before ih _ fun held yields => ⟨rfl, ⟨_, w, he, rfl⟩, ⟨_, yields⟩, rfl⟩

/-! ### Runs -/

namespace Progress

/-- Polls a task, each time after something else may have happened, until it has ended. -/
def polled : List (Signal × (σ → σ)) → Progress σ α → Progress σ α
  | [], p => p
  | (g, meanwhile) :: polls, pending _ s resume _ => (resume g (meanwhile s)).polled polls
  | _ :: _, done r s => done r s

/-- What a poll has led to, as far as it shows: how the task has ended, or for what it waits, and
    what dropping it would do. -/
def shown : Progress σ α → (Except Stop α × σ) ⊕ (Wait × σ × (σ → σ))
  | done r s => .inl (r, s)
  | pending w s _ cancel => .inr (w, s, cancel)

omit [HasWorld σ] in
theorem polled_append (polls polls' : List (Signal × (σ → σ))) (p : Progress σ α) :
    p.polled (polls ++ polls') = (p.polled polls).polled polls' := by
  induction polls generalizing p with
  | nil => rfl
  | cons poll polls ih =>
    cases p with
    | done r s => cases polls' <;> rfl
    | pending w s resume cancel => exact ih _

end Progress

/-- Whatever the innermost task is, a run that leads to it comes to it after the same polls. -/
theorem Leads.polled (h : Leads bodies p q) (polls : List (Signal × (σ → σ))) :
    (∀ inner inner', ((p inner).polled polls).shown = ((p inner').polled polls).shown) ∨
    ∃ before later fs s, polls = before ++ later ∧ List.Forall₂ Frame.Of fs bodies ∧
      (∀ inner, (p inner).polled before = around fs (inner s)) ∧
      ∀ inner, (q inner).polled before = around (fs.map Frame.propagating) (inner s) := by
  induction h generalizing polls with
  | missed p q => exact .inl fun _ _ => rfl
  | reached fs s of => exact .inr ⟨[], polls, fs, s, rfl, of, fun _ => rfl, fun _ => rfl⟩
  | waits w s cancel resume resume' next ih =>
    -- Up to the innermost task both go down the same tree: either the polls end there, or they pass
    -- through.
    cases polls with
    | nil => exact .inl fun _ _ => rfl
    | cons poll polls =>
      obtain ⟨g, meanwhile⟩ := poll
      rcases ih g (meanwhile s) polls with same | ⟨before, later, fs, s', rfl, of, left, right⟩
      · exact .inl same
      · exact .inr ⟨(g, meanwhile) :: before, later, fs, s', rfl, of, left, right⟩

namespace Task

/-- A task that waits, holding something, and goes on afterwards. -/
def waits (w : Wait) (held : List (Local σ)) (rest : Signal → Task σ α) : Task σ α :=
  fun s => .pending w s rest (Local.dropAll held)

/-- A task that drops what it holds, and fails. -/
def fails (held : List (Local σ)) (stop : Stop) : Task σ α :=
  fun s => .done (.error stop) (Local.dropAll held s)

end Task

/-! ### Cancellation and the error path -/

/-- **Cancellation is the error path.** A chain of bodies in transactional scopes, each of which
    awaits the next one after any steps and holding anything, is polled from any state, and anything
    may happen between polls. Either the polls do not come to the innermost task, and then nothing
    depends on it. Or some of them come to it, within frames that are those of the bodies. If it
    waits there, then the chain waits, and dropping it drops what the innermost task holds and then
    all frames, from the inside out. If the innermost task fails there instead, and all bodies pass
    the failure on, they drop the same and their scopes end alike and in the same order, only that
    the context of a scope is taken off after what its body holds was dropped. So if no destructor
    depends on the stack, then this run leads to the same state as dropping the chain there, and so
    does, in whatever state the chain is dropped later, the run that is woken there and then fails.
    And if the time of one frame is up while the chain waits, and none further inside, then all that
    is inside it is dropped, from the inside out, and then the frame itself ends; the body around it
    sees the time out. -/
theorem cancellation_is_failure (bodies : List (Awaiting σ α)) (s : σ)
    (polls : List (Signal × (σ → σ))) (w : Wait) (held : List (Local σ))
    (rest : Signal → Task σ α) (stop : Stop) :
    let run (bodies : List (Awaiting σ α)) (inner : Task σ α) (polls : List (Signal × (σ → σ))) :=
      (chain bodies inner s).polled polls
    (∀ inner inner', (run bodies inner polls).shown = (run bodies inner' polls).shown) ∨
    ∃ before later fs, polls = before ++ later ∧ List.Forall₂ Frame.Of fs bodies ∧
      ∃ inside resume cancel, run bodies (.waits w held rest) before =
          .pending { w with deadline := deadlineAround fs w.deadline } (leaveAll fs inside) resume
            cancel ∧
        cancel = (fun s => closeAll fs (Local.dropAll held s)) ∧
        run (bodies.map .propagating) (.fails held stop) before
          = .done (.error stop) (failAll fs (Local.dropAll held inside)) ∧
        ((∀ l ∈ held, l.Indifferent) → (∀ f ∈ fs, f.Indifferent) →
          failAll fs (Local.dropAll held inside) = cancel (leaveAll fs inside) ∧
          ∀ s₂, run (bodies.map .propagating) (.waits w held fun _ => .fails held stop)
            (before ++ [(.wake, fun _ => s₂)]) = .done (.error stop) (cancel s₂)) ∧
        ∀ outer f inner s₂, fs = outer ++ f :: inner →
          f.fires (deadlineAround inner w.deadline) (world s₂).clock = true →
          resume .expire s₂ =
            let dropped := closeAll inner (Local.dropAll held (enterAll outer s₂))
            around outer (.done
              (.error (.ofError (f.overdue (world (Local.dropAll f.held dropped)))))
              (f.close dropped)) := by
  intro run
  rcases (chain_leads bodies s).polled polls with
    same | ⟨before, later, fs, inside, split, of, left, right⟩
  · exact .inl same
  · obtain ⟨resume, waiting, _, expire⟩ := around_pending fs w inside rest (Local.dropAll held)
    refine .inr ⟨before, later, fs, split, of, inside, resume, _, (left _).trans waiting, rfl,
      (right _).trans (around_failed fs stop _), fun hheld hfs => ⟨?_, fun s₂ => ?_⟩, expire⟩
    · rw [failAll_eq hfs, dropAll_leaveAll hheld]
    · obtain ⟨resume', waiting', wake, _⟩ :=
        around_pending (fs.map Frame.propagating) w inside (fun _ => Task.fails held stop)
          (Local.dropAll held)
      have waits := (right (.waits w held fun _ => .fails held stop)).trans waiting'
      have woken : run (bodies.map .propagating) (.waits w held fun _ => .fails held stop)
          (before ++ [(.wake, fun _ => s₂)]) = resume' .wake s₂ := by
        show (chain _ _ s).polled _ = _
        rw [Progress.polled_append, waits]
        rfl
      -- The contexts that the last poll installs are those that the failure takes off.
      have installed : enterAll (fs.map Frame.propagating) s₂ = enterAll fs s₂ := List.foldl_map
      rw [woken, wake, installed]
      refine (around_failed fs stop _).trans ?_
      rw [failAll_eq hfs, ← dropAll_leaveAll hheld, leaveAll_enterAll]

/-- A body in a transactional scope that awaits an inner task holding what it has acquired. -/
def Awaiting.holding (p : Propagation) (acquire : World → List (Local World) × World) :
    Awaiting World Unit where
  coordinator := {}
  definition := { propagation := p }
  before := Task.now fun w => (.ok (acquire w).1, (acquire w).2)
  after _ r := Task.now fun w => (r, w)

theorem Frame.Of.acquired {f : Frame World Unit} {p : Propagation}
    {acquire : World → List (Local World) × World} (h : f.Of (.holding p acquire)) :
    ∃ w, f.held = (acquire w).1 := by
  obtain ⟨w, yields⟩ := h.held
  exact ⟨w, yields.of_done⟩

/-- The state in which a task has ended, or in which it is once it is dropped. -/
def Progress.left : Progress σ α → σ
  | done _ s => s
  | pending _ s _ cancel => cancel s

/-- Two bodies, each in a transaction of its own, of which the inner one holds a guard. -/
def Awaiting.nested : List (Awaiting World Unit) :=
  [.holding .required fun w => ([], w),
    .holding .requiresNew fun w => ([.guard ⟨w.nextContext, none⟩], (World.push {} w).2)]

/-- Dropping them where the inner one waits is the same as its failure there. -/
theorem cancellation_is_failure_nested :
    (chain Awaiting.nested (.waits {} [] fun _ => .fails [] default) {}).left
      = (chain (Awaiting.nested.map .propagating) (.fails [] default) {}).left := by
  rcases cancellation_is_failure Awaiting.nested {} [] {} [] (fun _ => .fails [] default) default
    with same | ⟨before, later, fs, split, of, inside, resume, _, waiting, rfl, failing, agree, _⟩
  · -- The polls come to the innermost task: it makes a difference whether it fails or waits.
    have ended := same (.fails [] default) (.waits {} [] fun _ => .fails [] default)
    exact absurd (congrArg Sum.isLeft ended) (by decide +kernel)
  · obtain ⟨rfl, rfl⟩ := List.append_eq_nil_iff.mp split.symm
    have indifferent : ∀ f ∈ fs, f.Indifferent := by
      obtain _ | ⟨outer, _ | ⟨inner, _ | _⟩⟩ := of
      intro f hf l hl
      rcases List.mem_pair.mp hf with rfl | rfl
      · obtain ⟨w, held⟩ := outer.acquired
        rw [held] at hl
        cases hl
      · obtain ⟨w, held⟩ := inner.acquired
        rw [held] at hl
        rw [List.mem_singleton.mp hl]
        exact Local.indifferent_guard _
    have same := (agree (List.forall_mem_nil _) indifferent).1
    exact (congrArg Progress.left waiting).trans
      (same.symm.trans (congrArg Progress.left failing).symm)

/-- A value whose destructor writes. -/
def Local.writer : Local World := .value fun w => (World.write .main "k" (some .null) w).2

/-- A destructor may depend on the stack. If the body that holds the value is dropped where it
    waits, the write is there at once; if the body fails there, the write is given up with its
    transaction. The calls are the same. -/
theorem cancellation_is_not_failure :
    let body : Awaiting World Unit := .holding .required fun w => ([.writer], w)
    let dropped := (chain [body] (.waits {} [] fun _ => .fails [] default) {}).left
    let failed := (chain [body.propagating] (.fails [] default) {}).left
    dropped.main.memory.committed.get? "k" = some .null ∧
      failed.main.memory.committed.get? "k" = none ∧
      dropped.main.log.map (·.call) = [.rollback ⟨0⟩, .begin ⟨0⟩] ∧
      failed.main.log.map (·.call) = [.rollback ⟨0⟩, .begin ⟨0⟩] := by
  refine ⟨?_, ?_, ?_, ?_⟩ <;> decide +kernel

end ComponentHost
