import ComponentHost.Proofs.Task.Immediate
import ComponentHost.Proofs.Task.Isolation
import ComponentHost.Proofs.Transaction.Affairs

/-! # Orderly conduct

  Code has no other dealings with transactions than those that `Affairs.Step` lists. A task is
  orderly if that can be said of its first poll, of every later one, whatever has happened before
  it, and of its being dropped while it waits: between its polls the parts of its scopes are live
  among those of others, and when it has ended they are live no more.

  - `Progress.Orderly` says so of a poll and of all that may follow;
  - its lemmas say that all combinators of tasks keep it, transactional scopes included;
  - `Work.orderly` and `Code.orderly` say it of all code, and `System.orderly_run` of tasks that
    threads poll and drop in any order.
-/

namespace ComponentHost

open World HasWorld
open Affairs (Step Runs)

/-! ### States with affairs -/

/-- A type of states that keep guards: they tell which parts are live in them. -/
class HasParts (σ : Type) [HasWorld σ] where
  /-- The parts that are live in a state. -/
  parts : σ → Multiset Part
  /-- They do not depend on the world. -/
  parts_setWorld : ∀ s w, parts (setWorld s w) = parts s

def Guard.parts (held : List Guard) : Multiset Part := held.filterMap (·.scope)

instance : HasParts World := ⟨fun _ => 0, fun _ _ => rfl⟩

instance : HasParts Thread := ⟨fun t => Guard.parts t.live, fun _ _ => rfl⟩

instance : HasParts Scene := ⟨fun s => Guard.parts s.live, fun _ _ => rfl⟩

variable {σ α β : Type} [HasWorld σ] [HasParts σ]

def affairs (s : σ) : Affairs := ⟨world s, HasParts.parts s⟩

theorem affairs_setWorld (s : σ) (w : World) : affairs (setWorld s w) = ⟨w, (affairs s).live⟩ := by
  unfold affairs
  rw [world_setWorld, HasParts.parts_setWorld]

/-- Only the world changes, and in it neither records nor what the resources were asked. -/
theorem runs_beside {s : σ} {w : World} (records : w.transactions = (world s).transactions)
    (logs : ∀ i, (w.resource i).log = ((world s).resource i).log) :
    Runs (affairs s) (affairs (setWorld s w)) := by
  rw [affairs_setWorld]
  exact .single (.beside records logs)

theorem runs_install (c : ContextId) (s : σ) :
    Runs (affairs s) (affairs (onWorld (World.install c) s).2) :=
  runs_beside rfl fun i => by cases i <;> rfl

theorem runs_uninstall (c : ContextId) (s : σ) :
    Runs (affairs s) (affairs (onWorld (World.uninstall c) s).2) :=
  runs_beside rfl fun i => by cases i <;> rfl

theorem runs_derive (parent : Option ContextId) (attributes : Attributes)
    (binding : Option (Option TxId)) (s : σ) :
    Runs (affairs s) (affairs (onWorld (World.derive parent attributes binding) s).2) :=
  runs_beside rfl fun i => by cases i <;> rfl

/-! ### Tasks -/

/-- What a poll, which has found some affairs, and all that may follow does to transactions is what
    can happen. While the task waits, parts of its own are live, whatever others do meanwhile; they
    are live no more when it has ended or was dropped. -/
inductive Progress.Orderly : Affairs → Progress σ α → Prop
  /-- The task has ended. -/
  | done {a : Affairs} {r : Except Stop α} {s : σ} (runs : Runs a (affairs s)) :
      Orderly a (.done r s)
  | pending {a : Affairs} {w : Wait} {s : σ} {resume : Signal → σ → Progress σ α} {cancel : σ → σ}
      (own : Multiset Part) (runs : Runs a ((affairs s).among own))
      (again : ∀ g s', Orderly ((affairs s').among own) (resume g s'))
      (dropped : ∀ s', Runs ((affairs s').among own) (affairs (cancel s'))) :
      Orderly a (.pending w s resume cancel)

/-- Whatever a task finds, it is orderly. -/
def Task.Orderly (t : Task σ α) : Prop := ∀ s, (t s).Orderly (affairs s)

namespace Progress.Orderly

variable {a b : Affairs} {p : Progress σ α} {own : Multiset Part}

/-- Something happens first. -/
theorem after (h : p.Orderly b) (before : Runs a b) : p.Orderly a := by
  cases h with
  | done runs => exact .done (before.trans runs)
  | pending own runs again dropped => exact .pending own (before.trans runs) again dropped

theorem within (h : p.Orderly a) (c : ContextId) : (p.within c).Orderly a := by
  induction h with
  | done runs => exact .done (runs.trans (runs_uninstall c _))
  | pending own runs again dropped ih =>
    refine .pending own (runs.trans ((runs_uninstall c _).among own)) (fun g s => ?_) dropped
    exact (ih g _).after ((runs_install c s).among own)

theorem andThen {f : Except Stop α → Task σ β} (h : p.Orderly a) (hf : ∀ r, (f r).Orderly) :
    (p.andThen f).Orderly a := by
  induction h with
  | @done a r s runs => exact (hf r s).after runs
  | pending own runs again dropped ih => exact .pending own runs ih dropped

/-- What a task holds is dropped after it, when none of its parts is live any more. -/
theorem holding {drop : σ → σ} (h : p.Orderly a)
    (hd : ∀ s, Runs (affairs s) (affairs (drop s))) : (p.holding drop).Orderly a := by
  induction h with
  | done runs => exact .done runs
  | pending own runs again dropped ih =>
    exact .pending own runs ih fun s => (dropped s).trans (hd _)

/-- The second task, which waits while parts of its own are live, has its turns with the first. -/
theorem both {settles : Except Stop α → Bool}
    {next : Option (Except Stop α) → Option (Except Stop α) → Task σ β} {second : Task σ α}
    {drop : σ → σ} (h : p.Orderly a) (hn : ∀ r r', (next r r').Orderly)
    (turn : ∀ s, (second s).Orderly ((affairs s).among own))
    (dropped : ∀ s, Runs ((affairs s).among own) (affairs (drop s))) :
    (p.both settles next second drop).Orderly (a.among own) := by
  -- By induction on the first task: each of the two has its turns among the parts of the other.
  induction h generalizing own second drop with
  | @done a r s runs =>
    have ended := runs.among own
    rw [Progress.both]
    split
    · exact (hn _ _ _).after (ended.trans (dropped s))
    · exact ((turn s).after ended).andThen fun r' => hn _ _
  | @pending a w s resume cancel first runs again cancelled ih =>
    have polled := runs.among own
    have turned := turn s
    rw [Progress.both]
    rw [Affairs.among_comm] at polled
    cases hs : second s with
    | done r' s' =>
      rw [hs] at turned
      obtain ⟨runs'⟩ := turned
      have ended := polled.trans (runs'.among first)
      simp only
      split
      · exact (hn _ _ _).after (ended.trans (cancelled s'))
      · exact .pending first ended (fun g s => (again g s).andThen fun r => hn _ _) cancelled
    | pending w' s' resume' cancel' =>
      rw [hs] at turned
      obtain _ | ⟨later, runs', again', cancelled'⟩ := turned
      have waiting := polled.trans (runs'.among first)
      rw [Affairs.among_comm, Affairs.among_among] at waiting
      -- Both wait, each with parts of its own; they are dropped in their order.
      refine .pending (later + first) waiting (fun g s'' => ?_) fun s'' => ?_
      · rw [← Affairs.among_among]
        exact ih g s'' (fun s => again' g s) cancelled'
      · rw [← Affairs.among_among]
        exact ((cancelled s'').among later).trans (cancelled' _)

end Progress.Orderly

theorem Task.Orderly.within {t : Task σ α} (h : t.Orderly) (c : ContextId) :
    (t.within c).Orderly :=
  fun s => ((h _).after (runs_install c s)).within c

/-- A task that never waits is orderly if its computation is. -/
theorem Task.Orderly.now {act : StateM σ (Except Stop α)}
    (h : ∀ s, Runs (affairs s) (affairs (act s).2)) : (Task.now act).Orderly :=
  fun s => .done (h s)

/-! ### Scopes around tasks -/

/-- A part that is live ends. -/
theorem runs_finishIn (k : Coordinator) (part : Participation) (success : Bool) (s : σ) :
    Runs ((affairs s).among {(k, part)}) (affairs (k.finishIn part success s).2) := by
  have ended : Step ⟨world s, (k, part) ::ₘ (affairs s).live⟩
      ⟨(k.finish part success (world s)).2, (affairs s).live⟩ := .ended rfl
  have eq : (k.finishIn part success s).2
      = setWorld s (k.finish part success (world s)).2 := rfl
  rw [eq, affairs_setWorld]
  exact .single ended

namespace Progress.Orderly

variable {a : Affairs} {p : Progress σ α} {k : Coordinator} {part : Participation}

/-- The part of a scope is live while its task is, and ends with it. -/
theorem supervise (h : p.Orderly a) (deadline : Option Nat) :
    (k.supervise part deadline p).Orderly (a.among {(k, part)}) := by
  induction h with
  | @done a r s runs =>
    have ended : Runs ((affairs s).among {(k, part)}) (affairs (k.conclude part r s).2) := by
      rw [k.conclude_state]
      exact runs_finishIn k part _ s
    exact .done ((runs.among _).trans ended)
  | @pending a w s resume cancel own runs again dropped ih =>
    -- The timer and the drop end the scope alike, after the task in it.
    have ended (s : σ) : Runs ((affairs s).among ({(k, part)} + own))
        (affairs (k.finishIn part false (cancel s)).2) := by
      rw [← Affairs.among_among]
      exact ((dropped s).among _).trans (runs_finishIn k part _ _)
    have waiting := runs.among {(k, part)}
    rw [Affairs.among_among] at waiting
    refine .pending ({(k, part)} + own) waiting (fun g s' => ?_) ended
    simp only
    split
    · exact .done (ended s')
    · rw [← Affairs.among_among]
      exact ih g s'

end Progress.Orderly

/-- A scope around an orderly task is an orderly task. -/
theorem Task.Orderly.executeTask {body : Task σ α} (h : body.Orderly) (k : Coordinator)
    (d : TransactionDefinition) : (k.executeTask d body).Orderly := by
  intro s
  rcases he : k.enter d (world s) with ⟨e | scope, w⟩
  · have refused : Step (affairs s) (affairs (setWorld s w)) := by
      rw [affairs_setWorld]
      exact .refused he
    simp only [Coordinator.executeTask, onWorld_eq, ExceptT.run, he]
    exact .done (.single refused)
  · have entered : Step (affairs s)
        ((affairs (setWorld s w)).among {(k, scope.participation)}) := by
      rw [affairs_setWorld]
      exact .entered he
    simp only [Coordinator.executeTask, onWorld_eq, ExceptT.run, he]
    exact ((h.within scope.context (setWorld s w)).supervise _).after (.single entered)

/-- A scope around a computation, which is one around a task that never waits. -/
theorem runs_executeIn {body : StateM σ (Except Stop α)}
    (h : ∀ s, Runs (affairs s) (affairs (body s).2)) (k : Coordinator) (d : TransactionDefinition)
    (s : σ) : Runs (affairs s) (affairs (k.executeIn d body s).2) := by
  have orderly := (Task.Orderly.now h).executeTask k d s
  rw [k.executeTask_now] at orderly
  obtain ⟨runs⟩ := orderly
  exact runs

/-! ### Guards -/

namespace Guard

variable {g : Guard} {held held' : List Guard}

theorem parts_perm (h : held.Perm held') : parts held = parts held' :=
  Multiset.coe_eq_coe.mpr (h.filterMap _)

theorem parts_le (h : held'.Sublist held) : parts held' ≤ parts held :=
  Multiset.coe_le.mpr (h.filterMap _).subperm

theorem parts_cons_some {part : Part} (h : g.scope = some part) :
    parts (g :: held) = part ::ₘ parts held :=
  congrArg Multiset.ofList (List.filterMap_cons_some h)

/-- A guard that is live ends. -/
theorem runs_leave (hg : g ∈ held) (success : Bool) (w : World) :
    Runs ⟨w, parts held⟩ ⟨(g.leave success w).2, parts (held.erase g)⟩ := by
  have uninstalled : Step ⟨w, parts held⟩ ⟨(uninstall g.context w).2, parts held⟩ :=
    .beside rfl fun i => by cases i <;> rfl
  -- To take the context off is beside the transactions; what follows ends the guard's own part.
  refine .head uninstalled (.single ?_)
  rw [parts_perm (List.perm_cons_erase hg)]
  rcases hs : g.scope with _ | ⟨k, part⟩
  · have eq : (g.leave success w).2 = (uninstall g.context w).2 := by
      rw [leave, hs]
      rfl
    rw [eq]
    exact .forgotten (parts_le (List.sublist_cons_self g _))
  · have eq : (g.leave success w).2
        = (k.finish part success (uninstall g.context w).2).2 := by
      rw [leave, hs]
      cases success <;> rfl
    rw [eq, parts_cons_some hs]
    exact .ended rfl

/-- What is left when a guard is dismissed is left when it is taken out once. -/
theorem parts_dismiss_le (hg : g ∈ held) :
    parts (held.filter (· ≠ g)) ≤ parts (held.erase g) := by
  rw [parts_perm ((List.perm_cons_erase hg).filter _), List.filter_cons_of_neg (by simp)]
  exact parts_le List.filter_sublist

end Guard

/-! ### Code -/

/-- What code does besides is no business of a coordinator. -/
theorem Aside.runs_perform (a : Aside) (w : World) (live : Multiset Part) :
    Runs ⟨w, live⟩ ⟨(a.perform w).2, live⟩ := by
  refine .single ?_
  cases a with
  | write i key value =>
    have logs (j : ResourceId) (m : Memory) : ((w.setMemory i m).resource j).log
        = (w.resource j).log := by cases i <;> cases j <;> rfl
    rcases hw : World.write i key value w with ⟨r, w'⟩
    have written := write_eq hw
    show Step ⟨w, live⟩ ⟨(World.write i key value w).2, live⟩
    rw [hw]
    cases written with
    | atOnce | pending => exact .beside (by simp) fun j => logs j _
    | readOnly | notEnlisted => exact .beside rfl fun _ => rfl
  | mark t => exact .marked t true
  | insert c attributes => exact .beside rfl fun i => by cases i <;> rfl
  | derive parent attributes binding => exact .beside rfl fun i => by cases i <;> rfl
  | wait ms => exact .beside rfl fun i => by cases i <;> rfl

/-- A guard that is dismissed has no part any more. -/
theorem runs_dismiss (t : Thread) (g : Guard) : Runs (affairs t) (affairs (t.dismiss g)) :=
  .single (.forgotten (Guard.parts_le List.filter_sublist))

/-- All that code of a thread does is what can happen. -/
theorem Work.orderly (work : Work) (t : Thread) : Runs (affairs t) (affairs (work.run t).2) := by
  induction work generalizing t with
  | done result => exact .refl
  | look next ih => exact ih t.world t.note
  | push attributes next ih =>
    let g : Guard := { context := t.world.nextContext }
    let t₁ := (onWorld (World.push attributes) t).2
    have pushed : Runs (affairs t) (affairs t₁) := runs_beside rfl fun i => by cases i <;> rfl
    exact pushed.trans (ih g (t₁.enrol g))
  | begin k d next ih =>
    -- A scope that is refused gives no part to end.
    rcases he : k.enter d t.world with ⟨e | s, w⟩
    · have hb : k.begin d t.world = (.error e, w) := by rw [k.begin_eq, he]
      have eq : (begin k d next).run t = (next (.error e)).run (t.reach ⟨w, t.live⟩) := by
        simp only [run, onWorld, world, ExceptT.run, hb]
        rfl
      have refused : Step (affairs t) (affairs (t.reach ⟨w, t.live⟩)) := .refused he
      rw [eq]
      exact .head refused (ih _ _)
    -- The part is live from here on, in the guard.
    · let g : Guard := ⟨s.context, some (k, s.participation)⟩
      have hb : k.begin d t.world = (.ok s, (install s.context w).2) := by rw [k.begin_eq, he]
      have eq : (begin k d next).run t
          = (next (.ok g)).run (t.reach ⟨(install s.context w).2, g :: t.live⟩) := by
        simp only [run, onWorld, world, ExceptT.run, hb]
        rfl
      have entered : Step (affairs t) ⟨w, (k, s.participation) ::ₘ Guard.parts t.live⟩ :=
        .entered he
      have installed : Step ⟨w, (k, s.participation) ::ₘ Guard.parts t.live⟩
          (affairs (t.reach ⟨(install s.context w).2, g :: t.live⟩)) :=
        .beside rfl fun i => by cases i <;> rfl
      rw [eq]
      exact .head entered (.head installed (ih _ _))
  | leave g success next ih =>
    -- The guard ends its own part, which is live; what the other guards hold stays.
    by_cases hg : g ∈ t.live
    · rcases hl : g.leave success t.world with ⟨r, w⟩
      have eq : (leave g success next).run t
          = (next r).run (t.reach ⟨w, t.live.filter (· ≠ g)⟩) := by
        simp only [run, hg, if_true, onWorld, world, ExceptT.run, hl]
        rfl
      have left := Guard.runs_leave hg success t.world
      rw [hl] at left
      have dismissed : Step ⟨w, Guard.parts (t.live.erase g)⟩
          (affairs (t.reach ⟨w, t.live.filter (· ≠ g)⟩)) := .forgotten (Guard.parts_dismiss_le hg)
      rw [eq]
      exact (left.tail dismissed).trans (ih r _)
    -- A guard that has been dropped is not live, and nothing is ended twice.
    · have eq : (leave g success next).run t = (next (.ok ())).run t.note := by
        simp only [run, hg, if_false]
      rw [eq]
      exact ih (.ok ()) t.note
  | aside a next ih =>
    rcases ha : a.perform t.world with ⟨r, w⟩
    have eq : (aside a next).run t = (next r).run (t.reach ⟨w, t.live⟩) := by
      simp only [run, onWorld, world, ExceptT.run, ha]
      rfl
    have performed := a.runs_perform t.world (Guard.parts t.live)
    rw [ha] at performed
    rw [eq]
    exact performed.trans (ih r (t.reach ⟨w, t.live⟩))
  | scope attributes body next ihb ihn =>
    let g : Guard := { context := t.world.nextContext }
    let t₁ := (onWorld (World.push attributes) t).2
    have pushed : Runs (affairs t) (affairs t₁) := runs_beside rfl fun i => by cases i <;> rfl
    have inside : Runs (affairs t₁) (affairs (body.run (t₁.enrol g)).2) := ihb (t₁.enrol g)
    have closed := runs_uninstall t.world.nextContext (body.run (t₁.enrol g)).2
    exact (((pushed.trans inside).trans closed).trans (runs_dismiss _ g)).trans
      (ihn (body.run (t₁.enrol g)).1 _)
  -- The part of this scope ends with the body, whichever guards the body has left.
  | execute k d body next ihb ihn =>
    let g : Guard := { context := t.world.nextContext }
    have inside (t : Thread) : Runs (affairs t) (affairs (body.run (t.enrol g)).2) :=
      ihb (t.enrol g)
    have executed := runs_executeIn inside k d t
    exact (executed.trans (runs_dismiss _ g)).trans (ihn _ _)

namespace Scene

theorem runs_work (i : Nat) (home : Option ContextId) (w : Work) (s : Scene) :
    Runs (affairs s) (affairs (s.work i home w).2) :=
  w.orderly ⟨s.toMoment, [s.toMoment]⟩

/-- All live guards are dropped. -/
theorem runs_drop (s : Scene) : Runs (affairs s) (affairs s.drop) := by
  obtain ⟨⟨w, live⟩, glances⟩ := s
  show Runs ⟨w, Guard.parts live⟩ ⟨live.foldl (fun w g => (g.leave false w).2) w, 0⟩
  induction live generalizing w with
  | nil => exact .refl
  | cons g live ih =>
    have left : Runs ⟨w, Guard.parts (g :: live)⟩
        ⟨(g.leave false w).2, Guard.parts ((g :: live).erase g)⟩ :=
      Guard.runs_leave List.mem_cons_self false w
    rw [List.erase_cons_head] at left
    exact left.trans (ih _)

theorem runs_unwind (i : Nat) (destructors : Work) (s : Scene) :
    Runs (affairs s) (affairs (s.unwind i destructors)) :=
  (s.runs_work i none destructors).trans (runs_drop _)

end Scene

/-- All code of tasks is orderly. -/
theorem Code.orderly (code : Code) (i : Nat) (home : ContextId) : (code.task i home).Orderly := by
  induction code generalizing home with
  | done result => exact fun s => .done s.runs_drop
  | work w next ih =>
    intro s
    exact (ih _ home (s.work i (some home) w).2).after (s.runs_work i (some home) w)
  | wait w next ih =>
    intro s
    -- No guard is live while the code waits, so it has no part.
    refine .pending 0 ?_ (fun g s' => ?_) fun s' => ?_ <;> rw [Affairs.among_zero]
    · exact s.runs_drop
    · exact ih home s'
    · exact .refl
  | scope attributes body next ihb ihn =>
    intro s
    let c := s.world.nextContext
    let derived := (onWorld (World.derive s.world.current attributes none) s).2
    have made : Runs (affairs s) (affairs derived.drop) :=
      (runs_derive _ _ _ s).trans derived.runs_drop
    have polled := Task.Orderly.within (ihb c) c derived.drop
    exact (polled.andThen fun r => ihn r home).after made
  | execute k d body next ihb ihn =>
    intro s
    have polled := Task.Orderly.executeTask (ihb s.drop.world.nextContext) k d s.drop
    exact (polled.andThen fun r => ihn r home).after s.runs_drop
  | both settles first second captured next ihf ihs ihn =>
    intro s
    have polled : Progress.Orderly ((affairs s.drop).among 0)
        ((first.task i home s.drop).both settles (fun r r' => (next r r').task i home)
          (second.task i home) (·.unwind i captured)) := by
      refine (ihf home s.drop).both (fun r r' => ihn r r' home) (fun s => ?_) fun s => ?_ <;>
        rw [Affairs.among_zero]
      · exact ihs home s
      · exact s.runs_unwind i captured
    rw [Affairs.among_zero] at polled
    exact polled.after s.runs_drop
  | holding destructors block next ihb ihn =>
    intro s
    have polled := (ihb home s).holding (Scene.runs_unwind i destructors)
    exact polled.andThen fun r => ihn r home

/-! ### Tasks on threads -/

/-- A task between its polls has some live parts, and whatever comes next is orderly. -/
structure Suspended.Holds (own : Multiset Part) (p : Suspended) : Prop where
  again : ∀ g s, (p.resume g s).Orderly ((affairs s).among own)
  dropped : ∀ s, Runs ((affairs s).among own) (affairs (p.cancel s))

/-- A task that has not been polled yet has no part. -/
theorem Task.Orderly.unpolled {t : Task Scene Value} (h : t.Orderly) (i : Nat) (captured : Work) :
    (Suspended.unpolled i captured t).Holds 0 where
  again g s := by
    rw [Affairs.among_zero]
    exact h s
  dropped s := by
    rw [Affairs.among_zero]
    exact s.runs_unwind i captured

/-- Tasks with the parts that are live for each of them. -/
abbrev Shares : List (Multiset Part) → List (Option Suspended) → Prop :=
  List.Forall₂ fun own q => ∀ p, q = some p → p.Holds own

/-- One task has its turn, and goes on with other parts, or ends. -/
theorem Shares.set {owns : List (Multiset Part)} {tasks : List (Option Suspended)}
    (h : Shares owns tasks) {i : Nat} {p : Suspended} (hp : tasks[i]? = some (some p)) :
    ∃ own others, p.Holds own ∧ owns.sum = own + others ∧
      ∀ q own', (∀ p, q = some p → p.Holds own') →
        ∃ owns', Shares owns' (tasks.set i q) ∧ owns'.sum = own' + others := by
  induction h generalizing i with
  | nil => cases hp
  | @cons own q owns tasks holds rest ih =>
    cases i with
    | zero =>
      -- It is this task, which gives back what it held and takes what it holds now.
      refine ⟨own, owns.sum, holds p (Option.some.inj hp), rfl, fun q own' hq => ?_⟩
      exact ⟨own' :: owns, .cons hq rest, rfl⟩
    | succ i =>
      obtain ⟨own', others, hold, sum, set⟩ := ih hp
      refine ⟨own', own + others, hold, ?_, fun q' own'' hq => ?_⟩
      · rw [List.sum_cons, sum, add_left_comm]
      · obtain ⟨owns', held, sum'⟩ := set q' own'' hq
        exact ⟨own :: owns', .cons holds held, by rw [List.sum_cons, sum', add_left_comm]⟩

namespace System

/-- All that has happened since some affairs is what can happen, and the parts that are live are
    those of the tasks. -/
def Orderly (a : Affairs) (sys : System) : Prop :=
  ∃ owns, Shares owns sys.tasks ∧ Runs a ((affairs sys.scene).among owns.sum)

namespace Orderly

variable {a : Affairs} {sys : System}

/-- A task has its turn on a thread. -/
theorem turn (h : sys.Orderly a) {i : Nat} {p : Suspended} (hp : sys.tasks[i]? = some (some p))
    (thread : Nat) (inside : List ContextId) :
    ∃ own, p.Holds own ∧ ∀ s q own', (∀ p, q = some p → p.Holds own') →
      Runs ((affairs (sys.on thread inside)).among own) ((affairs s).among own') →
        (sys.after thread (some i) s (sys.tasks.set i q)).Orderly a := by
  obtain ⟨owns, held, runs⟩ := h
  obtain ⟨own, others, holds, sum, set⟩ := held.set hp
  refine ⟨own, holds, fun s q own' hq next => ?_⟩
  obtain ⟨owns', held', sum'⟩ := set q own' hq
  refine ⟨owns', held', ?_⟩
  have on : Runs (affairs sys.scene) (affairs (sys.on thread inside)) :=
    runs_beside rfl fun i => by cases i <;> rfl
  have goes := Affairs.Runs.among ((on.among own).trans next) others
  rw [Affairs.among_among, Affairs.among_among, add_comm others own, ← sum,
    add_comm others own', ← sum'] at goes
  exact runs.trans goes

/-- There is one more task, without parts. -/
theorem spawn (h : sys.Orderly a) {sys' : System} {t : Task Scene Value} {i : Nat}
    {captured : Work} (ht : t.Orderly)
    (tasks : sys'.tasks = sys.tasks ++ [some (.unpolled i captured t)])
    (runs : Runs (affairs sys.scene) (affairs sys'.scene)) : sys'.Orderly a := by
  obtain ⟨owns, held, before⟩ := h
  refine ⟨owns ++ [0], ?_, ?_⟩
  · rw [tasks]
    refine List.rel_append held (.cons (fun p hp => ?_) .nil)
    cases hp
    exact ht.unpolled i captured
  · rw [List.sum_append, List.sum_singleton, add_zero]
    exact before.trans (runs.among _)

/-- Something happens beside the tasks. -/
theorem beside (h : sys.Orderly a) {sys' : System} (tasks : sys'.tasks = sys.tasks)
    (runs : Runs (affairs sys.scene) (affairs sys'.scene)) : sys'.Orderly a := by
  obtain ⟨owns, held, before⟩ := h
  exact ⟨owns, by rw [tasks]; exact held, before.trans (runs.among _)⟩

theorem step (h : sys.Orderly a) (e : Event) : (sys.step e).Orderly a := by
  cases e with
  | spawn f =>
    cases f with
    | context parent attributes captured body =>
      have orderly := (body.orderly sys.tasks.length sys.scene.world.nextContext).within
        sys.scene.world.nextContext
      exact h.spawn orderly rfl (runs_derive _ _ _ sys.scene)
    | transaction k d captured body =>
      have orderly : Task.Orderly fun s : Scene =>
          k.executeTask d (body.task sys.tasks.length s.world.nextContext) s :=
        fun s => Task.Orderly.executeTask (body.orderly _ _) k d s
      exact h.spawn orderly rfl .refl
  | poll i thread g =>
    rw [System.step]
    split
    · next p hp =>
      obtain ⟨own, holds, next⟩ := h.turn hp thread []
      have polled := holds.again g (sys.on thread [])
      cases hr : p.resume g (sys.on thread []) with
      | done r s =>
        rw [hr] at polled
        obtain ⟨runs⟩ := polled
        exact next s none 0 (fun p hp => by cases hp) (by rwa [Affairs.among_zero])
      | pending w s resume cancel =>
        rw [hr] at polled
        -- Its parts stay set apart for the task while it waits.
        obtain _ | ⟨own', runs, again, dropped⟩ := polled
        refine next s (some ⟨resume, cancel⟩) own' (fun p hp => ?_) runs
        cases hp
        exact ⟨again, dropped⟩
    · exact h
  | drop i thread inside =>
    rw [System.step]
    split
    · next p hp =>
      split
      · obtain ⟨own, holds, next⟩ := h.turn hp thread inside
        refine next _ none 0 (fun p hp => by cases hp) ?_
        rw [Affairs.among_zero]
        exact (holds.dropped _).trans (runs_beside rfl fun i => by cases i <;> rfl)
      · exact h
    · exact h
  | turn thread stack =>
    rw [System.step]
    split
    · exact h.beside rfl .refl
    · exact h
  | aside thread act =>
    have on : Runs (affairs sys.scene) (affairs (sys.on thread [])) :=
      runs_beside rfl fun i => by cases i <;> rfl
    exact h.beside rfl (on.trans (act.runs_perform (sys.on thread []).world _))

theorem run (h : sys.Orderly a) (events : List Event) : (sys.run events).Orderly a := by
  induction events generalizing sys with
  | nil => exact h
  | cons e events ih => exact ih (h.step e)

end Orderly

/-- All that tasks do, however threads poll and drop them, is what can happen. -/
theorem runs_run (w : World) (events : List Event) :
    ∃ live, Runs ⟨(start w).scene.world, 0⟩ ⟨((start w).run events).scene.world, live⟩ := by
  have h : (start w).Orderly ⟨(start w).scene.world, 0⟩ := ⟨[], .nil, .refl⟩
  obtain ⟨owns, _, runs⟩ := h.run events
  exact ⟨_, runs⟩

end System

end ComponentHost
