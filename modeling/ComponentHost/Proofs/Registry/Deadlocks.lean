import ComponentHost.Proofs.Registry.CrewOrder
import ComponentHost.Proofs.Registry.CycleDetection
import Mathlib.Algebra.Group.Fin.Basic
import Mathlib.Data.Fintype.Order

/-! # Deadlocks

  A resolver looks for a cycle once, before it enters the first slot. What it finds holds of the
  names as they are then: a name that stands for nothing is passed over. When it gets to such a name
  later, the name is looked up anew, and by then it may stand for a definition below which nobody
  has looked. So two resolvers may come to wait for each other, though neither has seen a cycle.

  - `Waits` says that a resolver waits until another one leaves a slot, and `Sound.stuck_iff` that
    this is the only thing that can keep it from going on there;
  - `Stacked.reach` compares the jobs of a resolver with the graph of an earlier store: they are
    stacked along its edges, if their names stood for something there;
  - `deadlocks_have_late_names` says that every deadlock comes from names that stood for nothing
    when the resolvers looked, and `deadlock_reached` that there are deadlocks.
-/

namespace ComponentHost

variable {K : Kit}

/-- Every dependency of every definition stands for something. -/
def Store.Whole (s : Store K) : Prop :=
  ∀ id d, s.definition? id = some d → ∀ name ∈ d.dependencies, ∃ id', s.canonical? name = some id'

instance : IsTrans (Store K) Store.Grown := ⟨fun _ _ _ h h' => h.trans h'⟩

namespace Crew

open Relation

variable {s s' : Store K} {j : Job K} {jobs : List (Job K)} {asked : String} {d : Definition K}
  {c : Crew K} {f g : Nat}

/-! ### Waiting -/

/-- A resolver is about to enter a slot, and waits until another one, which is inside, has left. -/
def Waits (c : Crew K) (f g : Nat) : Prop :=
  ∃ d, (c.resolvers f).errand = .enter d ∧ d.id ∉ (c.resolvers f).path ∧ d.scope = .singleton ∧
    c.inside d.id = some g

/-- A resolver that is about to enter a slot is stuck exactly if it waits. -/
theorem Sound.stuck_iff (h : Sound c) (errand : (c.resolvers f).errand = .enter d) :
    c.step (.go f) = none ↔ ∃ g, c.Waits f g := by
  have other {d' : Definition K} (h' : (c.resolvers f).errand = .enter d') : d' = d := by
    rw [errand] at h'
    exact (Errand.enter.inj h').symm
  constructor
  · intro stuck
    -- Every other way through the step ends somewhere: only a slot with somebody inside does not.
    simp only [Crew.step, advance, errand] at stuck
    split at stuck
    · cases stuck
    · next new =>
      split at stuck
      · cases stuck
      · next scope =>
        split at stuck
        · cases stuck
        · next g _ inside => exact ⟨g, d, errand, new, scope, inside⟩
        · cases stuck
  · rintro ⟨g, d', errand', new, scope, inside⟩
    cases other errand'
    have empty := h.vacant _ _ inside
    simp only [Crew.step, advance, errand, new, scope, empty, inside, if_false]

/-- The job needs a name that stands for something now, and stood for nothing in earlier stores. -/
def Job.Late (j : Job K) (s : Store K) (earlier : Store K → Prop) : Prop :=
  ∃ name id, j.missing.head? = some name ∧ s.canonical? name = some id ∧
    ∀ s', earlier s' → s'.canonical? name = none

/-! ### Jobs and edges -/

/-- What a job needs next is an edge away in an earlier store, if the name stood for something
    there. -/
theorem Aimed.edge (h : Aimed s asked (j :: jobs) d) (sound : j.Sound s) (grown : s'.Grown s)
    (valid : s'.Valid) (known : s'.definition? j.definition.id = some j.definition)
    (early : ¬ j.Late s (· = s')) :
    s'.definition? d.id = some d ∧ s'.Edge j.definition.id d.id := by
  obtain ⟨name, wanted, stands⟩ := h.name
  cases hn : s'.canonical? name with
  | none => exact absurd ⟨name, d.id, wanted, stands, fun _ h => h ▸ hn⟩ early
  | some id =>
    obtain rfl : id = d.id := Option.some.inj ((grown.names hn).symm.trans stands)
    obtain ⟨d', hd'⟩ := valid.registered hn
    obtain rfl : d' = d := Option.some.inj ((grown.definitions hd').symm.trans h.registered)
    exact ⟨hd', j.definition, known, name, sound.needs wanted, hn⟩

/-- The jobs of a resolver are stacked along edges of an earlier store in which the outermost one
    was known, if no name that known jobs need is late. -/
theorem Stacked.reach (h : Stacked s asked jobs) (sound : ∀ j ∈ jobs, j.Sound s)
    (aimed : Aimed s asked jobs d) (grown : s'.Grown s) (valid : s'.Valid)
    (root : ∀ j ∈ jobs.getLast?, s'.definition? j.definition.id = some j.definition)
    (early : ∀ j ∈ jobs, s'.definition? j.definition.id = some j.definition →
      ¬ j.Late s (· = s')) :
    (∀ j ∈ jobs, s'.definition? j.definition.id = some j.definition ∧
      TransGen s'.Edge j.definition.id d.id) ∧
    (jobs ≠ [] → s'.definition? d.id = some d) := by
  -- From the outermost job in: each job is known, so what it needs is known, and an edge away.
  induction jobs generalizing d with
  | nil => exact ⟨nofun, fun h => absurd rfl h⟩
  | cons j jobs ih =>
    have around := ih h.2 (fun j' hj' => sound j' (List.mem_cons_of_mem _ hj')) h.1
      (fun j' hj' => root j' (by rw [List.getLast?_cons, Option.mem_def.mp hj']; rfl))
      (fun j' hj' => early j' (List.mem_cons_of_mem _ hj'))
    have known : s'.definition? j.definition.id = some j.definition := by
      by_cases hne : jobs = []
      · exact root j (by rw [hne]; rfl)
      · exact around.2 hne
    obtain ⟨target, edge⟩ := aimed.edge (sound j List.mem_cons_self) grown valid known
      (early j List.mem_cons_self known)
    refine ⟨fun j' hj' => ?_, fun _ => target⟩
    rcases List.mem_cons.mp hj' with rfl | hj'
    -- The edge of the innermost job ends the way from every job around it.
    · exact ⟨known, .single edge⟩
    · obtain ⟨known', way⟩ := around.1 j' hj'
      exact ⟨known', way.tail edge⟩

/-- What the outermost job is for is the last of the line. -/
theorem Resolver.mem_line_getLast? {r : Resolver K} {j : Job K} (hj : j ∈ r.jobs.getLast?) :
    j.definition ∈ r.line.getLast? := by
  rw [Resolver.line, List.getLast?_append, List.getLast?_map, Option.mem_def.mp hj]
  rfl

/-- The jobs of a resolver that waits, over what another one has seen. -/
theorem Sound.waiting_reach (h : Sound c) (errand : (c.resolvers f).errand = .enter d)
    (grown : (c.resolvers f).seen.Grown (c.resolvers g).seen)
    (early : ∀ j ∈ (c.resolvers f).jobs,
      (c.resolvers g).seen.definition? j.definition.id = some j.definition →
        ¬ j.Late c.store (· = (c.resolvers g).seen)) :
    ∀ j ∈ (c.resolvers f).jobs,
      (c.resolvers g).seen.definition? j.definition.id = some j.definition ∧
        TransGen (c.resolvers g).seen.Edge j.definition.id d.id := by
  have sound := h.resolvers f
  have aimed : Aimed c.store (c.resolvers f).asked (c.resolvers f).jobs d := by
    have he := sound.errand
    rw [errand] at he
    exact he
  -- In the store that `g` has checked each job of `f` leads to the definition that `f` waits for.
  refine (sound.stacked.reach sound.jobs aimed (h.resolvers g).seen (h.resolvers g).valid
    (fun j hj => ?_) early).1
  exact grown.definitions (sound.root _ (Resolver.mem_line_getLast? hj)).1

/-! ### Cycles of resolvers -/

/-- Going round a circle step by step leads from everywhere to everywhere. -/
theorem around_circle {n : Nat} {R : Fin (n + 1) → Fin (n + 1) → Prop}
    (trans : ∀ {i j k}, R i j → R j k → R i k) (hop : ∀ i, R i (i + 1)) (i j : Fin (n + 1)) :
    R i j := by
  -- Every place on the circle is so many hops away.
  have distance (a : Fin (n + 1)) : ∃ k : Nat, a = k • 1 := by
    induction a using Fin.induction with
    | zero => exact ⟨0, (zero_nsmul 1).symm⟩
    | succ a ih =>
      obtain ⟨k, hk⟩ := ih
      exact ⟨k + 1, by rw [succ_nsmul, ← hk, Fin.coeSucc_eq_succ]⟩
  have walk (k : Nat) : R i (i + 1 + k • 1) := by
    induction k with
    | zero => simpa using hop i
    | succ k ih =>
      rw [succ_nsmul, ← add_assoc]
      exact trans ih (hop _)
  obtain ⟨k, hk⟩ := distance (j - (i + 1))
  have arrived : i + 1 + k • 1 = j := by rw [← hk, add_sub_cancel]
  exact arrived ▸ walk k

/-- In a cycle of resolvers that wait for each other, a job needs a name that is late for all of
    them. -/
theorem Sound.late_name (h : Sound c) {n : Nat} {f : Fin (n + 1) → Nat}
    (cycle : ∀ i, c.Waits (f i) (f (i + 1))) :
    ∃ i, ∃ j ∈ (c.resolvers (f i)).jobs,
      j.Late c.store fun s => ∃ k, s = (c.resolvers (f k)).seen := by
  by_contra none
  -- The latest store that a resolver of the cycle has seen holds all that the others have seen.
  obtain ⟨m, latest⟩ := Directed.finite_le (r := Store.Grown)
    (f := fun k => (c.resolvers (f k)).seen)
    (fun i k => by
      rcases h.ordered (f i) (f k) with before | after
      · exact ⟨k, before, .refl _⟩
      · exact ⟨i, .refl _, after⟩) (id : Fin (n + 1) → Fin (n + 1))
  have early (i : Fin (n + 1)) : ∀ j ∈ (c.resolvers (f i)).jobs,
      ¬ j.Late c.store (· = (c.resolvers (f m)).seen) := by
    rintro j hj ⟨name, id, wanted, stands, late⟩
    refine none ⟨i, j, hj, name, id, wanted, stands, ?_⟩
    rintro s ⟨k, rfl⟩
    cases hn : (c.resolvers (f k)).seen.canonical? name with
    | none => rfl
    | some id' =>
      have known := late _ rfl
      rw [(latest k).names hn] at known
      cases known
  choose target errand new scope inside using cycle
  -- So every resolver of the cycle leads along edges of that store from slot to slot.
  have holder (i : Fin (n + 1)) : ∃ j ∈ (c.resolvers (f (i + 1))).jobs,
      j.definition.id = (target i).id := by
    obtain ⟨j, hj, hid, _⟩ := Resolver.mem_holds.mp ((h.inside _ _).mp (inside i))
    exact ⟨j, hj, hid⟩
  have hop (i : Fin (n + 1)) :
      TransGen (c.resolvers (f m)).seen.Edge (target i).id (target (i + 1)).id := by
    obtain ⟨j, hj, hid⟩ := holder i
    rw [← hid]
    exact (h.waiting_reach (errand (i + 1)) (latest (i + 1))
      (fun j hj _ => early (i + 1) j hj) j hj).2
  have closed : TransGen (c.resolvers (f m)).seen.Edge (target m).id (target m).id :=
    around_circle (R := fun i k => TransGen (c.resolvers (f m)).seen.Edge (target i).id
      (target k).id) (fun h h' => h.trans h') hop m m
  -- The resolver that has seen that store would have found the cycle.
  obtain ⟨j, hj, _⟩ := holder (m - 1)
  rw [sub_add_cancel] at hj
  obtain ⟨outermost, last⟩ := Option.isSome_iff_exists.mp
    (List.getLast?_isSome.mpr (List.ne_nil_of_mem hj))
  have way := (h.waiting_reach (errand m) (.refl _) (fun j hj _ => early m j hj) outermost
    (List.mem_of_getLast? last)).2
  have free := ((h.resolvers (f m)).root _ (Resolver.mem_line_getLast? last)).2
  exact free ⟨_, way.to_reflTransGen, closed⟩

/-- **Deadlocks have late names.** Any number of resolvers resolve names on one store, step by step
    and in any order, while definitions and aliases are registered. Where resolvers wait for each
    other in a circle, one of them has a job that needs a name which stands for something now, but
    stood for nothing in any of the stores below which the resolvers of the circle looked for
    cycles. So there is no deadlock if whoever looks for a cycle finds all dependencies of all
    definitions registered. -/
theorem deadlocks_have_late_names (h : Reachable c) :
    (∀ (n : Nat) (f : Fin (n + 1) → Nat), (∀ i, c.Waits (f i) (f (i + 1))) →
      ∃ i, ∃ j ∈ (c.resolvers (f i)).jobs,
        j.Late c.store fun s => ∃ k, s = (c.resolvers (f k)).seen) ∧
    ((∀ f, (c.resolvers f).seen.Whole) →
      ∀ (n : Nat) (f : Fin (n + 1) → Nat), ¬ ∀ i, c.Waits (f i) (f (i + 1))) := by
  have sound := h.sound
  refine ⟨fun n f cycle => sound.late_name cycle, fun whole n f cycle => ?_⟩
  obtain ⟨i, j, hj, name, id, wanted, stands, late⟩ := sound.late_name cycle
  obtain ⟨d, errand, _⟩ := cycle i
  -- In a whole store no name is late, so the jobs of the resolver lie on the way that it has seen.
  have early : ∀ j ∈ (c.resolvers (f i)).jobs,
      (c.resolvers (f i)).seen.definition? j.definition.id = some j.definition →
        ¬ j.Late c.store (· = (c.resolvers (f i)).seen) := by
    rintro j hj known ⟨name, id, wanted, _, late⟩
    obtain ⟨id', stood⟩ := whole (f i) _ _ known name
      (((sound.resolvers (f i)).jobs j hj).needs wanted)
    rw [late _ rfl] at stood
    cases stood
  have known := (sound.waiting_reach errand (.refl _) early j hj).1
  exact early j hj known ⟨name, id, wanted, stands, fun s hs => late s ⟨i, hs⟩⟩

/-! ### Two resolvers that wait for each other -/

/-- A singleton with dependencies, whose factory is run. -/
def depending (id : String) (dependencies : List String) : Definition Partners.kit :=
  { id, type := ⟨id⟩, dependencies, factory := .make () }

/-- Two definitions depend on names that stand for nothing yet. Two resolvers find no cycle and
    enter the slots; then the names are registered, each for something that depends on the slot of
    the other resolver, and both resolvers go on. -/
def crossing : List (Act Partners.kit) :=
  [.register (depending "a" ["c"]), .register (depending "b" ["d"])]
    ++ .call 0 "a" :: List.replicate 4 (.go 0) ++ .call 1 "b" :: List.replicate 4 (.go 1)
    ++ [.register (depending "c" ["b"]), .register (depending "d" ["a"])]
    ++ List.replicate 7 (.go 0) ++ List.replicate 7 (.go 1)

/-- What has become of the two resolvers. -/
def crossed : Crew Partners.kit := (run {} crossing).getD {}

theorem reachable_crossed : Reachable crossed := by
  refine ⟨crossing, ?_⟩
  have done : (run {} crossing).isSome := by decide +kernel
  obtain ⟨c, hc⟩ := Option.isSome_iff_exists.mp done
  rw [crossed, hc]
  rfl

theorem crossed_waits : crossed.Waits 0 1 ∧ crossed.Waits 1 0 :=
  ⟨⟨depending "b" ["d"], rfl, by decide +kernel, rfl, rfl⟩,
    ⟨depending "a" ["c"], rfl, by decide +kernel, rfl, rfl⟩⟩

/-- Each of the two waits for the other in a circle. -/
theorem crossed_circle (i : Fin 2) : crossed.Waits i.val (i + 1).val := by
  cases i using Fin.cases with
  | zero => exact crossed_waits.1
  | succ i =>
    rw [Subsingleton.elim i 0]
    exact crossed_waits.2

theorem deadlocks_have_late_names_crossed :
    Reachable crossed ∧ (∀ i : Fin 2, crossed.Waits i.val (i + 1).val) ∧
      ∃ i : Fin 2, ∃ j ∈ (crossed.resolvers i.val).jobs,
        j.Late crossed.store fun s => ∃ k : Fin 2, s = (crossed.resolvers k.val).seen :=
  ⟨reachable_crossed, crossed_circle,
    (deadlocks_have_late_names reachable_crossed).1 1 Fin.val crossed_circle⟩

/-- So it is not so that there are no deadlocks. -/
theorem deadlock_reached :
    ¬ ∀ (K : Kit) (c : Crew K), Reachable c → ∀ (n : Nat) (f : Fin (n + 1) → Nat),
      ¬ ∀ i, c.Waits (f i) (f (i + 1)) := by
  intro h
  exact h Partners.kit crossed reachable_crossed 1 Fin.val crossed_circle

end Crew

end ComponentHost
