import ComponentHost.Proofs.Transaction.Scopes
import Mathlib.Logic.Relation

/-! # Threads

  The code of a thread puts contexts on its stack and takes them off: it pushes contexts and begins
  transactional scopes, for which it holds guards that it may drop in any order, and it runs bodies
  in scopes, whose guards last as long as the bodies.

  - `Work` is such code as a tree: what it does next may depend on all that it sees;
  - `Work.run` runs it with the operations of the host, and keeps a record of every moment on the
    way: the world, and the guards that are live.
-/

namespace ComponentHost

open World HasWorld

/-! ### The tree of contexts -/

namespace Contexts

/-- The contexts above a context, the nearest one first. -/
def ancestors (cs : Contexts) (c : ContextId) : List ContextId :=
  match cs[c.index]? with
  | none => []
  | some ctx => match ctx.parent with
    | none => []
    -- A parent is made before its children; with one that was not, the way up might never end.
    | some p => if p.index < c.index then p :: ancestors cs p else []
termination_by c.index

/-- What the code of a host can do to the contexts in one step. -/
inductive Grows (cs : Contexts) : Contexts → Prop
  /-- Nothing. -/
  | same : Grows cs cs
  | derived (parent : Option ContextId) (attributes : Attributes)
      (binding : Option (Option TxId)) :
      Grows cs (cs.push ⟨parent, cs.depthBelow parent, attributes, binding⟩)
  /-- Values are put into a context. -/
  | inserted (c : ContextId) (attributes : Attributes) :
      Grows cs (cs.modify c.index fun ctx =>
        { ctx with attributes := attributes.over ctx.attributes })

/-- Every context is still there, in its place of the tree and with its binding. -/
def Extends (cs cs' : Contexts) : Prop :=
  ∀ (i : Nat) (ctx : Context), cs[i]? = some ctx →
    ∃ attributes, cs'[i]? = some { ctx with attributes }

/-- Depths are numbers of ancestors. -/
def Graded (cs : Contexts) : Prop :=
  ∀ c ctx, cs[c.index]? = some ctx → ctx.depth = (cs.ancestors c).length

variable {cs cs' cs'' : Contexts} {c : ContextId} {ctx : Context}

namespace Extends

theorem refl (cs : Contexts) : Extends cs cs := fun _ ctx h => ⟨ctx.attributes, h⟩

theorem trans (h : Extends cs cs') (h' : Extends cs' cs'') : Extends cs cs'' := by
  intro i ctx hi
  obtain ⟨a, ha⟩ := h i ctx hi
  obtain ⟨b, hb⟩ := h' i _ ha
  exact ⟨b, hb⟩

theorem lt_size (h : Extends cs cs') {i : Nat} (hi : i < cs.size) : i < cs'.size := by
  obtain ⟨a, ha⟩ := h i cs[i] (Array.getElem?_eq_getElem hi)
  exact (Array.getElem?_eq_some_iff.mp ha).1

theorem size_le (h : Extends cs cs') : cs.size ≤ cs'.size :=
  Nat.le_of_not_lt fun hlt => Nat.lt_irrefl _ (h.lt_size hlt)

/-- What stands above a context is settled when it is made. -/
theorem ancestors_eq (h : Extends cs cs') (hc : c.index < cs.size) :
    cs'.ancestors c = cs.ancestors c := by
  obtain ⟨i⟩ := c
  -- By induction on the number of the context: parents were made earlier.
  induction i using Nat.strongRecOn with
  | ind i ih =>
    have hi := Array.getElem?_eq_getElem hc
    obtain ⟨a, ha⟩ := h i _ hi
    unfold ancestors
    simp only [hi, ha]
    cases cs[i].parent with
    | none => rfl
    | some p =>
      by_cases hp : p.index < i
      · simp only [hp, if_true]
        rw [ih p.index hp (Nat.lt_trans hp hc)]
      · simp only [hp, if_false]

end Extends

theorem Grows.extends (h : Grows cs cs') : Extends cs cs' := by
  -- A derived context comes behind the others.
  cases h with
  | same => exact .refl cs
  | derived parent attributes binding =>
    intro i ctx hi
    refine ⟨ctx.attributes, ?_⟩
    rw [Array.getElem?_push, if_neg (Nat.ne_of_lt (Array.getElem?_eq_some_iff.mp hi).1), hi]
  | inserted c attributes =>
    intro i ctx hi
    rw [Array.getElem?_modify, hi]
    split
    · exact ⟨_, rfl⟩
    · exact ⟨ctx.attributes, rfl⟩

/-- A context that is derived lies one deeper than its parent. -/
theorem length_ancestors_push (hcs : Graded cs) (parent : Option ContextId)
    (attributes : Attributes) (binding : Option (Option TxId)) :
    (ancestors (cs.push ⟨parent, cs.depthBelow parent, attributes, binding⟩) ⟨cs.size⟩).length
      = cs.depthBelow parent := by
  unfold ancestors
  simp only [Array.getElem?_push_size]
  cases parent with
  | none => rfl
  | some p =>
    -- A parent that has not been made counts for nothing, neither here nor for the depth.
    by_cases hp : p.index < cs.size
    · have old := Array.getElem?_eq_getElem hp
      have grown : Grows cs (cs.push ⟨some p, cs.depthBelow (some p), attributes, binding⟩) :=
        .derived (some p) attributes binding
      have above := grown.extends.ancestors_eq hp
      simp only [hp, if_true, List.length_cons]
      rw [above, ← hcs p _ old, depthBelow, Option.bind_some, old]
    · simp [hp, depthBelow]

theorem Graded.grows (hcs : Graded cs) (h : Grows cs cs') : Graded cs' := by
  intro c ctx hc
  cases h with
  | same => exact hcs c ctx hc
  | derived parent attributes binding =>
    rw [Array.getElem?_push] at hc
    by_cases hsize : c.index = cs.size
    · rw [if_pos hsize] at hc
      cases hc
      obtain ⟨i⟩ := c
      cases hsize
      exact (length_ancestors_push hcs parent attributes binding).symm
    · rw [if_neg hsize] at hc
      have old := (Array.getElem?_eq_some_iff.mp hc).1
      rw [(Grows.derived parent attributes binding).extends.ancestors_eq old]
      exact hcs c ctx hc
  | inserted c' attributes =>
    -- Neither depths nor parents are touched, whichever context the values are for.
    rw [Array.getElem?_modify] at hc
    have old : c.index < cs.size := by
      refine Nat.lt_of_not_le fun hle => ?_
      rw [Array.getElem?_eq_none hle] at hc
      split at hc <;> cases hc
    have before := hcs c _ (Array.getElem?_eq_getElem old)
    rw [(Grows.inserted c' attributes).extends.ancestors_eq old, ← before]
    rw [Array.getElem?_eq_getElem old] at hc
    split at hc <;> (cases hc; rfl)

end Contexts

/-! ### Guards, moments and threads -/

/-- What keeps a context installed. -/
structure Guard where
  context : ContextId
  /-- The part in transactions that is to be ended along with it, and whose coordinator does so. -/
  scope : Option (Coordinator × Participation) := none
  deriving DecidableEq

/-- Ends a guard. One without a part in transactions only takes its context off. -/
def Guard.leave (g : Guard) (success : Bool) : Hosted Unit :=
  match g.scope with
  | none => liftM (uninstall g.context)
  | some (k, p) => if success then k.complete ⟨p, g.context⟩ else k.fail ⟨p, g.context⟩

structure Moment where
  world : World
  /-- The guards that are live, the latest first. -/
  live : List Guard

/-- A thread: the present moment, and the record of all moments up to it, the latest first. -/
structure Thread extends Moment where
  moments : List Moment

namespace Thread

instance : HasWorld Thread where
  world t := t.world
  setWorld t w := { t with world := w }
  world_setWorld _ _ := rfl
  setWorld_world _ := rfl
  setWorld_setWorld _ _ _ := rfl

instance : MonadLift (StateM World) (StateM Thread) where
  monadLift act := onWorld act

/-- The thread goes on from a moment, which is put on record. -/
def reach (t : Thread) (m : Moment) : Thread := ⟨m, m :: t.moments⟩

def enrol (t : Thread) (g : Guard) : Thread := t.reach ⟨t.world, g :: t.live⟩

def dismiss (t : Thread) (g : Guard) : Thread := t.reach ⟨t.world, t.live.filter (· ≠ g)⟩

def note (t : Thread) : Thread := t.reach t.toMoment

end Thread

/-! ### Work -/

/-- What the code of a thread does besides. -/
inductive Aside
  /-- It writes under a key of a resource. -/
  | write (i : ResourceId) (key : String) (value : Option Value)
  /-- It puts values into a context. -/
  | insert (c : ContextId) (attributes : Attributes)
  /-- A context is derived, here or on another thread, which is not installed here. -/
  | derive (parent : Option ContextId) (attributes : Attributes)
      (binding : Option (Option TxId))
  /-- It marks a transaction for rollback. -/
  | mark (t : TxId)
  /-- It lets time pass. -/
  | wait (ms : Nat)

def Aside.perform : Aside → Hosted Unit
  | write i key value => World.write i key value
  | insert c attributes => liftM (insertAttributes c attributes)
  | derive parent attributes binding => do let _ ← World.derive parent attributes binding
  | mark t => liftM (setRollbackOnly t true)
  | wait ms => liftM (advance ms)

/-- The code of a thread. -/
inductive Work
  /-- It ends: with a value, by a failure or by a panic. -/
  | done (result : Except Stop Value)
  | look (next : World → Work)
  /-- It pushes a context, for which it is given a guard. -/
  | push (attributes : Attributes) (next : Guard → Work)
  /-- It begins a transactional scope, for which it is given a guard. -/
  | begin (k : Coordinator) (d : TransactionDefinition) (next : Except Error Guard → Work)
  /-- It ends a guard that is live: by success, or, as by dropping it, not. -/
  | leave (g : Guard) (success : Bool) (next : Except Error Unit → Work)
  /-- It does something else. -/
  | aside (a : Aside) (next : Except Error Unit → Work)
  /-- It runs a body in a new context. -/
  | scope (attributes : Attributes) (body : Work) (next : Except Stop Value → Work)
  /-- It runs a body in a transactional scope. -/
  | execute (k : Coordinator) (d : TransactionDefinition) (body : Work)
      (next : Except Stop Value → Work)

/-- Runs the code of a thread. The guard of a body is that of the context that is made next; it is
    enrolled when the body starts, and dismissed when its scope has ended. -/
def Work.run : Work → StateM Thread (Except Stop Value)
  | done result => fun t => (result, t)
  | look next => fun t => (next t.world).run t.note
  | push attributes next => fun t =>
    let (c, t) := onWorld (World.push attributes) t
    let g : Guard := { context := c }
    (next g).run (t.enrol g)
  | begin k d next => fun t =>
    match onWorld (k.begin d).run t with
    | (.error e, t) => (next (.error e)).run t.note
    | (.ok s, t) =>
      let g : Guard := { context := s.context, scope := some (k, s.participation) }
      (next (.ok g)).run (t.enrol g)
  | leave g success next => fun t =>
    -- A guard ends once: code that has ended one does not have it any more.
    if g ∈ t.live then
      let (r, t) := onWorld (g.leave success).run t
      (next r).run (t.dismiss g)
    else (next (.ok ())).run t.note
  | aside a next => fun t =>
    let (r, t) := onWorld a.perform.run t
    (next r).run t.note
  | scope attributes body next => fun t =>
    let g : Guard := { context := t.world.nextContext }
    let (r, t) := World.scope (m := StateM Thread) attributes (fun t => body.run (t.enrol g)) t
    (next r).run (t.dismiss g)
  | execute k d body next => fun t =>
    let g : Guard := { context := t.world.nextContext }
    let (r, t) := k.execute (m := StateM Thread) d (fun t => body.run (t.enrol g)) t
    (next r).run (t.dismiss g)

end ComponentHost
