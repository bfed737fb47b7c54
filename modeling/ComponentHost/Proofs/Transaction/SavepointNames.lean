import Mathlib.Data.List.Induction
import ComponentHost.Proofs.Transaction.Course
import ComponentHost.Proofs.Transaction.ReadOnly

/-! # Names of savepoints

  A transaction numbers the savepoints of its nested scopes. Their names are made of the number and
  of what the coordinator of a scope lets such names start with, and a journal finds a savepoint by
  its name, the oldest one if there are several.

  - Numbers do not keep names apart if coordinators differ in what the names start with:
    `numbered_eq_iff` says exactly when two names are the same.
  - `Moment.Deed` lists what code on a flow does, and `Moment.names` the names that a transaction
    hands out meanwhile. `Moment.Tally` is what holds of them at every moment.
  - `Journal.Keeps` says that under the name of a savepoint this one is found, or none is. That goes
    on as long as the name is not handed out again (`Becomes.keeps`), whoever ends in the meantime.
  - `Moment.Since` follows the guards that were live when the savepoint was set. Only they can take
    it away.

  `savepoint_names` puts it together for whole runs.
-/

namespace ComponentHost

open World

/-! ### Numbers in names -/

/-- What stands in a number before other digits is a number, if it is anything. -/
theorem toDigits_before {n : Nat} {before after : List Char} (hn : 0 < n) (hb : before ≠ [])
    (h : Nat.toDigits 10 n = before ++ after) : ∃ k, 0 < k ∧ before = Nat.toDigits 10 k := by
  -- The induction takes the last digit off, which is to divide by ten.
  induction after using List.reverseRecOn generalizing n with
  | nil => exact ⟨n, hn, by rw [h, List.append_nil]⟩
  | append_singleton after digit ih =>
    by_cases single : n < 10
    · -- There is but one digit, which stands after nothing.
      rw [Nat.toDigits_of_lt_base single] at h
      have length := congrArg List.length h
      simp only [List.length_append, List.length_singleton] at length
      have pos := List.length_pos_of_ne_nil hb
      omega
    · rw [Nat.toDigits_of_base_le (by decide) (by omega), ← List.append_assoc] at h
      exact ih (by omega) (List.append_inj' h rfl).1

/-- Greater numbers have no fewer digits. -/
theorem length_toDigits_le {i n : Nat} (h : i < n) :
    (Nat.toDigits 10 i).length ≤ (Nat.toDigits 10 n).length := by
  have some : 0 < (Nat.toDigits 10 n).length := List.length_pos_of_ne_nil Nat.toDigits_ne_nil
  have bound := (Nat.length_toDigits_le_iff (by decide) some).mp (Nat.le_refl _)
  exact (Nat.length_toDigits_le_iff (by decide) some).mpr (h.trans bound)

theorem toList_toString (n : Nat) : (toString n).toList = Nat.toDigits 10 n := Nat.toList_repr

/-- Two names with different numbers are the same if and only if the one with the smaller number
    starts with what the other one starts with, followed by the digits that are missing. -/
theorem numbered_eq_iff {start start' : String} {i n : Nat} (h : i < n) :
    start ++ toString i = start' ++ toString n ↔
      ∃ k, 0 < k ∧ start = start' ++ toString k ∧ toString n = toString k ++ toString i := by
  constructor
  · intro same
    have same := congrArg String.toList same
    simp only [String.toList_append, toList_toString] at same
    rcases List.append_eq_append_iff.mp same with ⟨more, -, digits⟩ | ⟨more, starts, digits⟩
    · -- The smaller number is not the longer one.
      have length := congrArg List.length digits
      have le := length_toDigits_le h
      rw [List.length_append] at length
      obtain rfl : more = [] := List.eq_nil_of_length_eq_zero (by omega)
      exact absurd (toDigits_injective digits) (Nat.ne_of_lt h)
    -- What the number has more than the other one is a number itself, at its front.
    · have some : more ≠ [] := by
        rintro rfl
        exact Nat.ne_of_gt h (toDigits_injective digits)
      obtain ⟨k, hk, rfl⟩ := toDigits_before (Nat.zero_lt_of_lt h) some digits
      refine ⟨k, hk, String.toList_inj.mp ?_, String.toList_inj.mp ?_⟩
      · rw [String.toList_append, toList_toString, starts]
      · rw [String.toList_append, toList_toString, toList_toString, toList_toString, digits]
  · rintro ⟨k, -, rfl, digits⟩
    rw [digits, String.append_assoc]

/-! ### Savepoints by name -/

namespace Journal

variable {may : Change → Prop} {j? j?' : Option Journal} {j j₀ : Journal} {name : String}
  {sps : List (String × Writes)}

/-- A journal only gets savepoints under names that may be given. -/
theorem Becomes.names {P : String → Prop} (h : Becomes may j? j?')
    (given : ∀ name, may (.saved name) → P name)
    (hj : ∀ j, j? = some j → ∀ sp ∈ j.savepoints, P sp.1) :
    ∀ j, j?' = some j → ∀ sp ∈ j.savepoints, P sp.1 := by
  intro j' hj' sp hsp
  -- Only where a savepoint is set does a name come in; everything else keeps or drops names.
  cases h with
  | same => exact hj j' hj' sp hsp
  | begun =>
    cases hj'
    cases hsp
  | ended => cases hj'
  | saved allowed =>
    cases hj'
    rcases List.mem_append.mp hsp with old | new
    · exact hj _ rfl sp old
    · rw [List.mem_singleton.mp new]
      exact given _ allowed
  | cut _ hc =>
    cases hj'
    obtain ⟨n, -, left⟩ := hc.savepoints
    rw [left] at hsp
    exact hj _ rfl sp (List.mem_of_mem_take hsp)
  | written =>
    cases hj'
    exact hj _ rfl sp hsp

/-- Under its name a journal finds the savepoint that was set when the journal was another one. -/
structure Finds (j₀ : Journal) (name : String) (j : Journal) : Prop where
  /-- It lies on the savepoints that there were then. -/
  place : j.position? name = some j₀.savepoints.length
  /-- To go back to it is to go back to that journal. -/
  back : j.rollbackTo? name = some j₀
  /-- To give it up leaves the savepoints of that journal. -/
  given : j.release? name = some { j with savepoints := j₀.savepoints }

/-- A savepoint that is still there is found, if the name was new. -/
theorem finds_of_prefix (new : ∀ sp ∈ j₀.savepoints, sp.1 ≠ name)
    (still : (j₀.setSavepoint name).savepoints <+: j.savepoints) : j₀.Finds name j := by
  obtain ⟨later, all⟩ := still
  have split : j.savepoints = j₀.savepoints ++ (name, j₀.writes) :: later := by
    rw [← all, setSavepoint, List.append_assoc, List.singleton_append]
  exact ⟨position?_eq split new, rollbackTo?_eq split new, release?_eq split new⟩

/-- The savepoint that was set is still there, or there is none of its name. -/
def Keeps (j₀ : Journal) (name : String) (j : Journal) : Prop :=
  (j₀.setSavepoint name).savepoints <+: j.savepoints ∨ ∀ sp ∈ j.savepoints, sp.1 ≠ name

/-- As long as the name is not given again, nothing else is found under it. -/
theorem Becomes.keeps (h : Becomes may j? j?') (once : ¬ may (.saved name))
    (new : ∀ sp ∈ j₀.savepoints, sp.1 ≠ name) (hj : ∀ j, j? = some j → j₀.Keeps name j) :
    ∀ j, j?' = some j → j₀.Keeps name j := by
  intro j' hj'
  -- Savepoints are only added at the end and only taken away from the end.
  cases h with
  | same => exact hj j' hj'
  | begun =>
    cases hj'
    exact .inr (by simp)
  | ended => cases hj'
  | @saved j other allowed =>
    cases hj'
    rcases hj j rfl with still | none
    · exact .inl (still.trans (List.prefix_append _ _))
    · right
      intro sp hsp
      rcases List.mem_append.mp hsp with old | added
      · exact none sp old
      · rw [List.mem_singleton.mp added]
        intro again
        subst again
        exact once allowed
  | @cut j _ other _ hc =>
    cases hj'
    obtain ⟨n, -, left⟩ := hc.savepoints
    rw [Keeps, left]
    rcases hj j rfl with still | none
    · by_cases above : (j₀.setSavepoint name).savepoints.length ≤ n
      · exact .inl (List.prefix_take_iff.mpr ⟨still, above⟩)
      · -- What is left was set before the savepoint.
        right
        obtain ⟨later, all⟩ := still
        rw [setSavepoint, List.append_assoc] at all
        rw [setSavepoint, List.length_append, List.length_singleton] at above
        rw [← all, List.take_append_of_le_length (by omega)]
        exact fun sp hsp => new sp (List.mem_of_mem_take hsp)
    · exact .inr fun sp hsp => none sp (List.mem_of_mem_take hsp)
  | @written j _ _ =>
    cases hj'
    exact hj j rfl

/-- Savepoints are still there if the journal is, and if no name of theirs is cut. -/
theorem Becomes.still (h : Becomes may (some j) j?') (hj : sps <+: j.savepoints)
    (unbegun : ¬ may .begun) (unended : ¬ may .ended)
    (uncut : ∀ name, may (.cut name) → ∀ sp ∈ sps, sp.1 ≠ name) :
    ∃ j', j?' = some j' ∧ sps <+: j'.savepoints := by
  cases h with
  | same => exact ⟨j, rfl, hj⟩
  | begun allowed => exact absurd allowed unbegun
  | ended allowed => exact absurd allowed unended
  | saved => exact ⟨_, rfl, hj.trans (List.prefix_append _ _)⟩
  | @cut _ j' name allowed hc =>
    obtain ⟨n, position, left⟩ := hc.savepoints
    refine ⟨j', rfl, ?_⟩
    rw [left, List.prefix_take_iff]
    refine ⟨hj, Nat.le_of_not_lt fun below => ?_⟩
    -- Otherwise the cut savepoint is one of these.
    obtain ⟨hn, named, -⟩ := List.findIdx?_eq_some_iff_getElem.mp position
    rw [← hj.getElem below] at named
    exact uncut name allowed _ (List.getElem_mem below) (eq_of_beq named)
  | written => exact ⟨_, rfl, hj⟩

end Journal

/-! ### Records, entries and guards -/

/-- How many names of savepoints a transaction has handed out, according to its record. -/
def World.namesGiven (w : World) (t : TxId) : Nat :=
  ((w.transaction? t).map (·.savepoints)).getD 0

theorem World.namesGiven_congr {w w' : World} {t : TxId} (h : w'.terms t = w.terms t) :
    w'.namesGiven t = w.namesGiven t := by
  have eq (w : World) : w.namesGiven t = ((w.terms t).map (·.savepoints)).getD 0 := by
    unfold namesGiven terms
    cases w.transaction? t <;> rfl
  rw [eq, eq, h]

namespace Coordinator

variable {k : Coordinator} {d : TransactionDefinition} {w w' : World} {s : TransactionScope}
  {t : TxId} {name : String} {mark : Bool}

/-- A scope that is asked for uses up the name that is handed out for it, if any. -/
theorem begin_namesGiven {r : Except Error TransactionScope} (h : k.begin d w = (r, w'))
    (known : ∀ name, k.asked d w t = some name → (w.transaction? t).isSome = true) :
    w'.namesGiven t = w.namesGiven t + (k.asked d w t).toList.length := by
  cases record : w.transaction? t with
  | none =>
    have silent : k.asked d w t = none := by
      refine Option.eq_none_iff_forall_ne_some.mpr fun name asked => ?_
      have := known name asked
      rw [record] at this
      cases this
    rw [silent, namesGiven, namesGiven, record]
    -- If the transaction is begun now, its record is new.
    cases new : w'.transaction? t with
    | none => rfl
    | some tx =>
      obtain rfl := begin_record_new h record new
      rfl
  | some tx =>
    rw [namesGiven, namesGiven, record, begin_record h record]
    rfl

/-- A nested scope was named, and its savepoint set. -/
theorem begin_nested (h : k.begin d w = (.ok s, w'))
    (hp : s.participation = .nested t name mark) : k.asked d w t = some name ∧
      ∃ j, w.journalOf k.resource t = some j ∧
        w'.journalOf k.resource t = some (j.setSavepoint name) := by
  obtain ⟨w₁, entry, -, rfl⟩ := begin_ok h
  rw [hp] at entry
  rw [hp, journalOf_congr (inScope_resource w₁ _ _)]
  -- Of all entries only one leads to a nested scope.
  generalize made : Participation.nested t name mark = p at entry
  cases entry with
  | without | opened | joined | openedApart | suspended => cases made
  | nested hc hd he hs =>
    cases made
    refine ⟨if_pos ⟨hc, hd, he⟩, ?_⟩
    obtain ⟨j, hj, hj'⟩ := call_saved hs
    exact ⟨j, (journalOf_changeTransaction _ _ _ _ _).symm.trans hj, hj'⟩

end Coordinator

/-- A guard that was live at a moment, and is live later, was live in between. -/
theorem Shift.was_live {m m' : Moment} {g : Guard} (shift : Shift m m')
    (made : g.context.index < m.world.contexts.size) (hg : g ∈ m'.live) : g ∈ m.live := by
  cases shift with
  | installed fresh _ _ live =>
    rw [live] at hg
    rcases List.mem_cons.mp hg with rfl | hg
    · -- The context of a guard that is installed now is not made yet.
      rw [fresh] at made
      exact absurd made (Nat.lt_irrefl _)
    · exact hg
  | left _ _ _ live => exact List.mem_of_mem_filter (live ▸ hg)
  | beside _ _ live => exact live ▸ hg

/-! ### Deeds -/

/-- A name that a transaction hands out for a savepoint. -/
structure GivenName where
  /-- What the coordinator that asks for it lets such names start with. -/
  start : String
  name : String
  deriving DecidableEq

namespace Moment

/-- Something that code on a flow does. -/
inductive Deed
  | push (attributes : Attributes)
  /-- It asks for a scope. -/
  | enter (k : Coordinator) (d : TransactionDefinition)
  /-- It ends a guard, if that is live. -/
  | leave (g : Guard) (success : Bool)
  /-- It does something else. -/
  | aside (a : Aside)

def after (m : Moment) : Deed → Moment
  | .push attributes => ⟨(World.push attributes m.world).2, ⟨m.world.nextContext, none⟩ :: m.live⟩
  | .enter k d =>
    match k.begin d m.world with
    | (.ok s, w) => ⟨w, k.guard s :: m.live⟩
    | (.error _, w) => ⟨w, m.live⟩
  | .leave g success =>
    if g ∈ m.live then ⟨(g.leave success m.world).2, m.live.filter (· ≠ g)⟩ else m
  | .aside a => ⟨(a.perform m.world).2, m.live⟩

def afterAll (m : Moment) (xs : List Deed) : Moment := xs.foldl after m

/-- The name that a transaction hands out meanwhile. -/
def named (m : Moment) (t : TxId) : Deed → Option GivenName
  | .enter k d => (k.asked d m.world t).map (⟨k.savepointPrefix, ·⟩)
  | .push _ | .leave _ _ | .aside _ => none

/-- The names that a transaction hands out meanwhile, the first one first. -/
def names (m : Moment) (t : TxId) : List Deed → List GivenName
  | [] => []
  | x :: xs => (m.named t x).toList ++ (m.after x).names t xs

variable {m m' second : Moment} {x : Deed} {xs ys : List Deed} {i : ResourceId} {t : TxId}
  {g : Guard} {k : Coordinator} {d : TransactionDefinition} {s : TransactionScope} {w : World}

theorem after_begun (h : k.begin d m.world = (.ok s, w)) :
    m.after (.enter k d) = ⟨w, k.guard s :: m.live⟩ := by
  rw [after, h]

theorem after_refused {e : Error} (h : k.begin d m.world = (.error e, w)) :
    m.after (.enter k d) = ⟨w, m.live⟩ := by
  rw [after, h]

theorem after_enter_world : (m.after (.enter k d)).world = (k.begin d m.world).2 := by
  rcases h : k.begin d m.world with ⟨e | s, w⟩
  · rw [after_refused h]
  · rw [after_begun h]

theorem afterAll_append : m.afterAll (xs ++ ys) = (m.afterAll xs).afterAll ys := List.foldl_append

theorem names_append : m.names t (xs ++ ys) = m.names t xs ++ (m.afterAll xs).names t ys := by
  induction xs generalizing m with
  | nil => rfl
  | cons x xs ih =>
    rw [List.cons_append, names, names, ih, List.append_assoc]
    rfl

/-- What a deed keeps of a moment and the names so far, all deeds keep. -/
theorem names_induct {P : List GivenName → Moment → Prop}
    (deed : ∀ outs m x, P outs m → P (outs ++ (m.named t x).toList) (m.after x))
    {outs : List GivenName} (h : P outs m) (xs : List Deed) :
    P (outs ++ m.names t xs) (m.afterAll xs) := by
  induction xs generalizing m outs with
  | nil =>
    rw [names, List.append_nil]
    exact h
  | cons x xs ih =>
    rw [names, ← List.append_assoc]
    exact ih (deed outs m x h)

/-- What code does is a step, unless it does nothing. -/
theorem after_step (m : Moment) (x : Deed) : m.after x = m ∨ m.Step (m.after x) := by
  cases x with
  | push attributes => exact .inr (.pushed attributes)
  | enter k d =>
    right
    rcases h : k.begin d m.world with ⟨e | s, w⟩
    · rw [after_refused h]
      exact .refused h
    · rw [after_begun h]
      exact .begun h
  | leave g success =>
    rw [after]
    split
    · next mem => exact .inr (.left mem rfl)
    · exact .inl rfl
  | aside a => exact .inr (.beside rfl)

/-- Every step is something that code does. -/
theorem Step.deed (hs : Step m m') : ∃ x, m' = m.after x := by
  cases hs with
  | pushed attributes => exact ⟨.push attributes, rfl⟩
  | begun h => exact ⟨.enter _ _, (after_begun h).symm⟩
  | refused h => exact ⟨.enter _ _, (after_refused h).symm⟩
  | @left g success _ _ mem h =>
    refine ⟨.leave g success, ?_⟩
    rw [after, if_pos mem, h]
  | @beside a _ _ h =>
    refine ⟨.aside a, ?_⟩
    rw [after, h]

/-- Whatever happens on a flow is a list of deeds, so that what is shown of these lists holds of all
    runs. -/
theorem Runs.deeds (run : Runs m m') : ∃ xs, m' = m.afterAll xs := by
  induction run with
  | refl => exact ⟨[], rfl⟩
  | tail _ hs ih =>
    obtain ⟨xs, rfl⟩ := ih
    obtain ⟨x, rfl⟩ := hs.deed
    exact ⟨xs ++ [x], by rw [afterAll_append]; rfl⟩

/-- What holds at a moment and is kept by all steps holds after all that code does. -/
theorem after_of_step {P : Moment → Prop} (step : ∀ m', m.Step m' → P m') (h : P m) :
    P (m.after x) := by
  rcases m.after_step x with same | hs
  · rw [same]
    exact h
  · exact step _ hs

/-- What may happen to the journal that a resource has of a transaction. -/
def MayDo (m : Moment) (i : ResourceId) (t : TxId) : Deed → Journal.Change → Prop
  | .push _ => fun _ => False
  | .enter k d => k.MayBegin d m.world t
  | .leave g _ => fun c => g ∈ m.live ∧ g.MayEnd i t c
  | .aside _ => fun c => c = .written

theorem after_becomes (m : Moment) (x : Deed) (i : ResourceId) (t : TxId) :
    Journal.Becomes (m.MayDo i t x) (m.world.journalOf i t) ((m.after x).world.journalOf i t) := by
  cases x with
  | push attributes =>
    rw [journalOf_congr (w := m.world) (by cases i <;> rfl)]
    exact .same
  | enter k d =>
    rw [after_enter_world]
    exact Coordinator.begin_becomes rfl i t
  | leave g success =>
    rw [after]
    split
    · next mem => exact (Guard.leave_becomes rfl i t).mono fun c hc => ⟨mem, hc⟩
    · exact .same
  | aside a => exact (Aside.perform_becomes rfl i t).mono fun c hc => hc.1

/-- A savepoint is only set under a name that is handed out. -/
theorem named_of_saved {name : String} (h : m.MayDo i t x (.saved name)) :
    ∃ out ∈ (m.named t x).toList, out.name = name := by
  cases x with
  | push | leave | aside =>
    simp [MayDo, Guard.MayEnd, Participation.MayEnd] at h
  | enter k d =>
    have asked : k.asked d m.world t = some name := h
    rw [named, asked]
    exact ⟨_, List.mem_singleton_self _, rfl⟩

/-! ### Counting -/

/-- The names that a transaction has handed out since it was unknown. -/
structure Tally (t : TxId) (names : List GivenName) (m : Moment) : Prop where
  veiled : Veiled m
  /-- There are as many as its record says. -/
  count : m.world.namesGiven t = names.length
  /-- Their numbers follow each other. -/
  numbered : ∀ i x, names[i]? = some x → x.name = x.start ++ toString (i + 1)
  kept : ∀ i j, m.world.journalOf i t = some j → ∀ sp ∈ j.savepoints, ∃ x ∈ names, x.name = sp.1

namespace Tally

variable {outs : List GivenName}

theorem start {w : World} (unknown : w.transaction? t = none)
    (journals : ∀ i, w.journalOf i t = none) : Tally t [] (Thread.start w).toMoment where
  veiled := veiled_start w
  count := by
    show ((w.transaction? t).map (·.savepoints)).getD 0 = 0
    rw [unknown]
    rfl
  numbered := nofun
  kept i j hj := by
    rw [journalOf_congr (Thread.start_resource w i), journals i] at hj
    cases hj

/-- A transaction that is asked for a name is known. -/
theorem known (h : Tally t outs m) {name : String} (asked : k.asked d m.world t = some name) :
    ∃ tx, m.world.transaction? t = some tx := by
  obtain ⟨⟨current, -⟩, -⟩ := Option.ite_none_right_eq_some.mp asked
  exact Option.isSome_iff_exists.mp (transaction?_isSome.mpr (h.veiled.current current).1)

/-- The name that is handed out has the next number. -/
theorem named_eq (h : Tally t outs m) {out : GivenName} (ho : m.named t x = some out) :
    out.name = out.start ++ toString (outs.length + 1) := by
  cases x with
  | push | leave | aside => cases ho
  | enter k d =>
    obtain ⟨name, asked, rfl⟩ := Option.map_eq_some_iff.mp ho
    obtain ⟨tx, record⟩ := h.known asked
    have count : tx.savepoints = outs.length := by
      rw [← h.count, World.namesGiven, record]
      rfl
    obtain ⟨-, same⟩ := Option.ite_none_right_eq_some.mp asked
    rw [← count, ← Option.some.inj same]
    exact Coordinator.nextSavepoint_name record

theorem count_after (h : Tally t outs m) :
    (m.after x).world.namesGiven t = (outs ++ (m.named t x).toList).length := by
  rw [List.length_append, ← h.count]
  cases x with
  | push attributes => rfl
  | enter k d =>
    have known (name : String) (asked : k.asked d m.world t = some name) :
        (m.world.transaction? t).isSome = true := Option.isSome_iff_exists.mpr (h.known asked)
    rw [after_enter_world, named]
    refine (Coordinator.begin_namesGiven (Prod.eta _).symm known).trans ?_
    cases k.asked d m.world t <;> rfl
  | leave g success =>
    rw [Moment.after]
    split
    · exact World.namesGiven_congr (Guard.leave_terms rfl t)
    · rfl
  | aside a => exact World.namesGiven_congr (Aside.perform_terms rfl t)

theorem after (h : Tally t outs m) (x : Deed) :
    Tally t (outs ++ (m.named t x).toList) (m.after x) where
  veiled := after_of_step (fun _ hs => h.veiled.step hs) h.veiled
  count := h.count_after
  numbered i out ho := by
    -- It is one of the names so far, or the one that is handed out now.
    rcases Nat.lt_or_ge i outs.length with old | new
    · rw [List.getElem?_append_left old] at ho
      exact h.numbered i out ho
    · rw [List.getElem?_append_right new] at ho
      cases hx : m.named t x with
      | none =>
        rw [hx] at ho
        cases ho
      | some out' =>
        rw [hx] at ho
        obtain ⟨first, same⟩ := List.getElem?_eq_some_iff.mp ho
        have last : i = outs.length := by
          rw [Option.toList_some, List.length_singleton] at first
          omega
        subst last
        obtain rfl : out' = out := by simpa using same
        exact h.named_eq hx
  kept i := by
    refine (m.after_becomes x i t).names
      (P := fun name => ∃ out ∈ outs ++ (m.named t x).toList, out.name = name)
      (fun name saved => ?_) fun j hj sp hsp => ?_
    · obtain ⟨out, mem, rfl⟩ := named_of_saved saved
      exact ⟨out, List.mem_append_right _ mem, rfl⟩
    · obtain ⟨out, mem, same⟩ := h.kept i j hj sp hsp
      exact ⟨out, List.mem_append_left _ mem, same⟩

theorem afterAll (h : Tally t outs m) (xs : List Deed) :
    Tally t (outs ++ m.names t xs) (m.afterAll xs) :=
  names_induct (fun _ _ x h => h.after x) h xs

end Tally

/-! ### What can take a savepoint away -/

/-- What holds at a moment of the savepoints that a resource had in a transaction at an earlier
    one, if these names have been handed out since. -/
structure Since (second : Moment) (i : ResourceId) (t : TxId) (sps : List (String × Writes))
    (outs : List GivenName) (m : Moment) : Prop where
  known : (m.world.transaction? t).isSome = true
  /-- Guards that were live then have had their contexts. -/
  made : ∀ g ∈ second.live, g.context.index < m.world.contexts.size
  /-- Guards that came later can only cut savepoints that were set later. -/
  young : ∀ g ∈ m.live, g ∈ second.live ∨
    ∀ i c, g.MayEnd i t c → ∃ x ∈ outs, c = .cut x.name
  /-- The savepoints are still there, if all guards are live that could take them away. -/
  still : (∀ x ∈ outs, ∀ sp ∈ sps, sp.1 ≠ x.name) →
    (∀ g ∈ second.live, (∃ c, g.MayEnd i t c) → g ∈ m.live) →
    ∃ j, m.world.journalOf i t = some j ∧ sps <+: j.savepoints

namespace Since

variable {outs : List GivenName} {sps : List (String × Writes)}

theorem start {j : Journal} (known : (m.world.transaction? t).isSome = true)
    (made : ∀ g ∈ m.live, g.context.index < m.world.contexts.size)
    (hj : m.world.journalOf i t = some j) : Since m i t j.savepoints [] m where
  known := known
  made := made
  young := fun _ hg => .inl hg
  still := fun _ _ => ⟨j, hj, List.prefix_refl _⟩

/-- A guard that comes now does not own a known transaction, and its savepoint is named now. -/
theorem young_after (h : Since second i t sps outs m) (x : Deed) (hg : g ∈ (m.after x).live) :
    g ∈ m.live ∨ ∀ i c, g.MayEnd i t c → ∃ out ∈ (m.named t x).toList, c = .cut out.name := by
  cases x with
  | push attributes =>
    rcases List.mem_cons.mp hg with rfl | hg
    · right
      rintro i c ⟨k, p, none, -⟩
      cases none
    · exact .inl hg
  | enter k d =>
    rcases hb : k.begin d m.world with ⟨e | s, w⟩
    · rw [after_refused hb] at hg
      exact .inl hg
    · rw [after_begun hb] at hg
      rcases List.mem_cons.mp hg with rfl | hg
      · right
        rintro i c ⟨k', p, scope, -, may⟩
        cases scope
        cases c with
        | begun | saved | written => cases may
        | ended =>
          -- What a scope owns when it is begun was unknown before.
          obtain ⟨w₁, entry, -, -⟩ := Coordinator.begin_ok hb
          have known := h.known
          rw [(entry.owned_new may).1] at known
          cases known
        | cut name =>
          obtain ⟨mark, nested⟩ := may
          have asked := (Coordinator.begin_nested hb nested).1
          rw [named, asked]
          exact ⟨_, List.mem_singleton_self _, rfl⟩
      · exact .inl hg
  | leave g' success =>
    rw [after] at hg
    split at hg
    · exact .inl (List.mem_of_mem_filter hg)
    · exact .inl hg
  | aside a => exact .inl hg

theorem still_after (h : Since second i t sps outs m) (x : Deed)
    (new : ∀ out ∈ outs, ∀ sp ∈ sps, sp.1 ≠ out.name)
    (live : ∀ g ∈ second.live, (∃ c, g.MayEnd i t c) → g ∈ m.live ∧ g ∈ (m.after x).live) :
    ∃ j, (m.after x).world.journalOf i t = some j ∧ sps <+: j.savepoints := by
  obtain ⟨j, hj, above⟩ := h.still new fun g hg may => (live g hg may).1
  have becomes := m.after_becomes x i t
  rw [hj] at becomes
  -- What ends now was not live then, so that it cuts a savepoint that was set later.
  have ends {c : Journal.Change} {g : Guard} {success : Bool} (hx : x = .leave g success)
      (hg : g ∈ m.live) (may : g.MayEnd i t c) : ∃ out ∈ outs, c = .cut out.name := by
    rcases h.young g hg with old | young
    · have after := (live g old ⟨c, may⟩).2
      rw [hx, Moment.after, if_pos hg] at after
      exact absurd rfl (of_decide_eq_true (List.mem_filter.mp after).2)
    · exact young i c may
  apply becomes.still above
  case unbegun =>
    intro may
    cases x with
    | push | aside => cases may
    | leave =>
      obtain ⟨-, k, p, -, -, impossible⟩ := may
      exact impossible
    | enter k d =>
      have known := h.known
      have unknown : m.world.transaction? t = none := may
      rw [unknown] at known
      cases known
  case unended =>
    intro may
    cases x with
    | push | aside | enter => cases may
    | leave =>
      obtain ⟨out, -, impossible⟩ := ends rfl may.1 may.2
      cases impossible
  case uncut =>
    intro name may
    cases x with
    | push | aside | enter => cases may
    | leave =>
      obtain ⟨out, mem, cut⟩ := ends rfl may.1 may.2
      cases cut
      exact new out mem

theorem after (h : Since second i t sps outs m) (x : Deed) :
    Since second i t sps (outs ++ (m.named t x).toList) (m.after x) where
  known := after_of_step (P := fun m => (m.world.transaction? t).isSome = true)
    (fun _ hs => hs.recorded h.known) h.known
  made := after_of_step (P := fun m => ∀ g ∈ second.live, g.context.index < m.world.contexts.size)
    (fun _ hs g hg => hs.shift.grows.extends.lt_size (h.made g hg)) h.made
  young g hg := by
    rcases h.young_after x hg with old | new
    · rcases h.young g old with older | young
      · exact .inl older
      · right
        intro i c may
        obtain ⟨out, mem, cut⟩ := young i c may
        exact ⟨out, List.mem_append_left _ mem, cut⟩
    · right
      intro i c may
      obtain ⟨out, mem, cut⟩ := new i c may
      exact ⟨out, List.mem_append_right _ mem, cut⟩
  still new live := by
    refine h.still_after x (fun out mem => new out (List.mem_append_left _ mem)) fun g hg may => ?_
    have now := live g hg may
    refine ⟨?_, now⟩
    rcases m.after_step x with same | hs
    · rwa [same] at now
    · exact hs.shift.was_live (h.made g hg) now

theorem afterAll (h : Since second i t sps outs m) (xs : List Deed) :
    Since second i t sps (outs ++ m.names t xs) (m.afterAll xs) :=
  names_induct (fun _ _ x h => h.after x) h xs

end Since

/-- The savepoint of a name is found, or none, as long as the name is not handed out again. -/
theorem keeps_afterAll {j₀ : Journal} {name : String} (xs : List Deed)
    (once : ∀ out ∈ m.names t xs, out.name ≠ name) (new : ∀ sp ∈ j₀.savepoints, sp.1 ≠ name)
    (h : ∀ j, m.world.journalOf i t = some j → j₀.Keeps name j) :
    ∀ j, (m.afterAll xs).world.journalOf i t = some j → j₀.Keeps name j := by
  induction xs generalizing m with
  | nil => exact h
  | cons x xs ih =>
    refine ih (fun out mem => once out (List.mem_append_right _ mem)) ?_
    refine (m.after_becomes x i t).keeps ?_ new h
    intro saved
    obtain ⟨out, mem, same⟩ := named_of_saved saved
    exact once out (List.mem_append_left _ mem) same

end Moment

/-! ### Names tell savepoints apart -/

/-- What holds of the names of savepoints that a transaction hands out while code does something. -/
structure Moment.NamesTell (first : Moment) (t : TxId) (xs : List Deed) : Prop where
  /-- A name is what its coordinator lets it start with, followed by its number. -/
  numbered : ∀ i out, (first.names t xs)[i]? = some out → out.name = out.start ++ toString (i + 1)
  /-- The record has counted them, and a counter of 32 bits does not run over. -/
  counted : ∀ tx, (first.afterAll xs).world.transaction? t = some tx →
    tx.savepoints = (first.names t xs).length ∧ tx.savepoints < 2 ^ 32
  /-- Two names are the same if and only if the earlier one starts with what the later one starts
      with, followed by the digits that the number of the earlier one lacks. -/
  same : ∀ i n out out', i < n → (first.names t xs)[i]? = some out →
    (first.names t xs)[n]? = some out' → (out.name = out'.name ↔ ∃ k, 0 < k ∧
      out.start = out'.start ++ toString k ∧ toString (n + 1) = toString k ++ toString (i + 1))
  /-- So all are distinct, if none starts with what a later one starts with, followed by a positive
      number. -/
  distinct : ((first.names t xs).Pairwise fun out out' =>
    ∀ k, 0 < k → out.start ≠ out'.start ++ toString k) → ((first.names t xs).map (·.name)).Nodup
  /-- In particular they are, if all start with the same. -/
  uniform : ∀ start, (∀ out ∈ first.names t xs, out.start = start) →
    ((first.names t xs).map (·.name)).Nodup
  /-- If they are, then under the name of a nested scope that was begun before, the journal finds
      the very savepoint that was set for this scope, or none. It does find it, and there is a
      journal, as long as no guard has ended that was live when the scope was begun and that can
      close the journal or cut a savepoint in it. -/
  found : ((first.names t xs).map (·.name)).Nodup →
    ∀ before k d later s w name mark, xs = before ++ .enter k d :: later →
    Coordinator.begin k d (first.afterAll before).world = (.ok s, w) →
    s.participation = .nested t name mark →
    ∃ j₀, (first.afterAll before).world.journalOf k.resource t = some j₀ ∧
      (∀ j, (first.afterAll xs).world.journalOf k.resource t = some j →
        j.position? name = none ∨ j₀.Finds name j) ∧
      ((∀ g ∈ k.guard s :: (first.afterAll before).live, (∃ c, g.MayEnd k.resource t c) →
          g ∈ (first.afterAll xs).live) →
        ∃ j, (first.afterAll xs).world.journalOf k.resource t = some j ∧ j₀.Finds name j)

namespace Moment

variable {first m : Moment} {t : TxId} {xs before later : List Deed} {outs : List GivenName}
  {k : Coordinator} {d : TransactionDefinition} {s : TransactionScope} {w : World} {name : String}
  {mark : Bool}

/-- Names are distinct unless one starts with what a later one starts with and more digits. -/
theorem Tally.nodup (h : Tally t outs m)
    (apart : outs.Pairwise fun out out' => ∀ k, 0 < k → out.start ≠ out'.start ++ toString k) :
    (outs.map (·.name)).Nodup := by
  refine List.pairwise_map.mpr (List.pairwise_iff_getElem.mpr fun i n hi hn before => ?_)
  intro same
  rw [h.numbered i _ (List.getElem?_eq_getElem hi), h.numbered n _ (List.getElem?_eq_getElem hn),
    numbered_eq_iff (Nat.succ_lt_succ before)] at same
  obtain ⟨k, hk, starts, -⟩ := same
  exact List.pairwise_iff_getElem.mp apart i n hi hn before k hk starts

/-- Where a nested scope was begun, and all names are distinct, its savepoint is found under its
    name later. -/
theorem Tally.found (h : Tally t outs m) (hb : k.begin d m.world = (.ok s, w))
    (nested : s.participation = .nested t name mark) (xs : List Deed)
    (distinct : ((outs ++ m.names t (.enter k d :: xs)).map (·.name)).Nodup) :
    ∃ j₀, m.world.journalOf k.resource t = some j₀ ∧
      (∀ j, (m.afterAll (.enter k d :: xs)).world.journalOf k.resource t = some j →
        j.position? name = none ∨ j₀.Finds name j) ∧
      ((∀ g ∈ k.guard s :: m.live, (∃ c, g.MayEnd k.resource t c) →
          g ∈ (m.afterAll (.enter k d :: xs)).live) →
        ∃ j, (m.afterAll (.enter k d :: xs)).world.journalOf k.resource t = some j ∧
          j₀.Finds name j) := by
  obtain ⟨asked, j₀, hj₀, set⟩ := Coordinator.begin_nested hb nested
  have hs := Step.begun (m := m) hb
  have entered : m.afterAll (.enter k d :: xs) = Moment.afterAll ⟨w, k.guard s :: m.live⟩ xs := by
    rw [← after_begun hb]
    rfl
  -- The name is neither among the earlier ones nor among the later ones.
  rw [names, after_begun hb, named, asked, Option.map_some, Option.toList_some,
    List.singleton_append, List.map_append, List.map_cons, List.nodup_append] at distinct
  obtain ⟨-, once, fresh⟩ := distinct
  have new : ∀ sp ∈ j₀.savepoints, sp.1 ≠ name := by
    intro sp hsp
    obtain ⟨out, mem, same⟩ := h.kept _ j₀ hj₀ sp hsp
    rw [← same]
    exact fresh _ (List.mem_map_of_mem mem) _ List.mem_cons_self
  have later : ∀ out ∈ names ⟨w, k.guard s :: m.live⟩ t xs, out.name ≠ name := by
    intro out mem same
    exact (List.nodup_cons.mp once).1 (List.mem_map.mpr ⟨out, mem, same⟩)
  rw [entered]
  refine ⟨j₀, hj₀, ?_, fun live => ?_⟩
  · intro j hj
    have kept : j₀.Keeps name j := by
      refine keeps_afterAll xs later new ?_ j hj
      intro j₁ hj₁
      rw [set] at hj₁
      exact .inl (Option.some.inj hj₁ ▸ List.prefix_refl _)
    rcases kept with still | none
    · exact .inr (Journal.finds_of_prefix new still)
    · exact .inl (Coordinator.Journal.position?_eq_none none)
  · obtain ⟨tx, known⟩ := h.known asked
    have since := (Since.start (m := ⟨w, k.guard s :: m.live⟩)
      (hs.recorded (Option.isSome_iff_exists.mpr ⟨tx, known⟩))
      (fun _ hg => (h.veiled.step hs).made hg) set).afterAll xs
    have others : ∀ out ∈ names ⟨w, k.guard s :: m.live⟩ t xs,
        ∀ sp ∈ (j₀.setSavepoint name).savepoints, sp.1 ≠ out.name := by
      intro out mem sp hsp same
      rcases List.mem_append.mp hsp with old | own
      · obtain ⟨out', mem', same'⟩ := h.kept _ j₀ hj₀ sp old
        refine fresh _ (List.mem_map_of_mem mem') _ ?_ (same'.trans same)
        exact List.mem_cons_of_mem _ (List.mem_map_of_mem mem)
      · rw [List.mem_singleton.mp own] at same
        exact later out mem same.symm
    obtain ⟨j, hj, still⟩ := since.still others live
    exact ⟨j, hj, Journal.finds_of_prefix new still⟩

end Moment

/-- **Names tell savepoints apart.** A transaction is begun on a flow, and code does anything: it
    begins scopes in the transaction through any coordinators, each of which lets names start with
    what it likes, and ends guards in any order, while any call on a resource may fail. As long as
    there are fewer names than a counter of 32 bits can tell, they are numbered, and two of them are
    the same only if digits of the number of one are in what the other one starts with. Where all
    are distinct, a nested scope finds its own savepoint; if a scope around it has ended before it,
    it may find none, but never that of another scope. -/
theorem savepoint_names {w : World} {t : TxId} (unknown : w.transaction? t = none)
    (journals : ∀ i, w.journalOf i t = none) (xs : List Moment.Deed)
    (few : ((Thread.start w).toMoment.names t xs).length < 2 ^ 32) :
    (Thread.start w).toMoment.NamesTell t xs := by
  have tally (xs : List Moment.Deed) := (Moment.Tally.start unknown journals).afterAll xs
  simp only [List.nil_append] at tally
  constructor
  case numbered => exact (tally xs).numbered
  case counted =>
    intro tx record
    have count : tx.savepoints = ((Thread.start w).toMoment.names t xs).length := by
      rw [← (tally xs).count, World.namesGiven, record]
      rfl
    exact ⟨count, count ▸ few⟩
  case same =>
    intro i n out out' before hi hn
    rw [(tally xs).numbered i out hi, (tally xs).numbered n out' hn]
    exact numbered_eq_iff (Nat.succ_lt_succ before)
  case distinct => exact (tally xs).nodup
  case uniform =>
    intro start all
    refine (tally xs).nodup (List.pairwise_of_forall_mem_list fun out ho out' ho' k _ => ?_)
    rw [all out ho, all out' ho']
    -- A start that is longer by a number is not the same start.
    intro longer
    have digits : toString k = "" := String.append_eq_left_iff.mp longer.symm
    exact Nat.toDigits_ne_nil ((toList_toString k).symm.trans (congrArg String.toList digits))
  case found =>
    intro distinct before k d later s w₁ name mark hxs hb nested
    subst hxs
    rw [Moment.names_append] at distinct
    rw [Moment.afterAll_append]
    exact (tally before).found hb nested later distinct

namespace Moment

/-- A flow on which nothing has happened. -/
def blank : Moment := (Thread.start {}).toMoment

/-- A scope is asked for that nests in the current transaction, if there is one. -/
def Deed.nest (start : String) : Deed :=
  .enter { savepointPrefix := start } { propagation := .nested }

/-- Two coordinators let names start with different letters. -/
def alternating : List Deed := [.enter {} {}, .nest "A_", .nest "B_"]

/-- Their names are distinct, and the first of two nested scopes finds its own savepoint, which is
    not the latest one. -/
theorem savepoint_names_alternating : blank.NamesTell ⟨0⟩ alternating ∧
    blank.names ⟨0⟩ alternating = [⟨"A_", "A_1"⟩, ⟨"B_", "B_2"⟩] ∧
    ∃ j, (blank.afterAll alternating).world.journalOf .main ⟨0⟩ = some j ∧
      Journal.Finds {} "A_1" j := by
  have tell : blank.NamesTell ⟨0⟩ alternating :=
    savepoint_names (w := {}) rfl (fun i => by cases i <;> rfl) alternating (by decide +kernel)
  refine ⟨tell, by decide +kernel, ?_⟩
  let k : Coordinator := { savepointPrefix := "A_" }
  let s : TransactionScope := ⟨.nested ⟨0⟩ "A_1" false, ⟨1⟩⟩
  obtain ⟨j₀, hj₀, -, found⟩ := tell.found (by decide +kernel) [.enter {} {}] k
    { propagation := .nested } [.nest "B_"] s _ "A_1" false rfl
    (Prod.ext (by decide +kernel) rfl) rfl
  have first : (blank.afterAll [.enter {} {}]).world.journalOf .main ⟨0⟩ = some {} := by
    decide +kernel
  obtain rfl := Option.some.inj (first.symm.trans hj₀)
  refine found fun g hg _ => ?_
  have live : (blank.afterAll alternating).live
      = [Coordinator.guard { savepointPrefix := "B_" } ⟨.nested ⟨0⟩ "B_2" false, ⟨2⟩⟩, k.guard s,
        Coordinator.guard {} ⟨.owner ⟨0⟩ none, ⟨0⟩⟩] := by
    decide +kernel
  have before : (blank.afterAll [.enter {} {}]).live
      = [Coordinator.guard {} ⟨.owner ⟨0⟩ none, ⟨0⟩⟩] := by
    decide +kernel
  rw [before] at hg
  rw [live]
  exact List.mem_cons_of_mem _ hg

/-- The guard of a nested scope in the first transaction. -/
def nestedGuard (start name : String) (c : Nat) : Guard :=
  Coordinator.guard { savepointPrefix := start } ⟨.nested ⟨0⟩ name false, ⟨c⟩⟩

/-- Eleven nested scopes, which end in their order. One coordinator lets names start with `"SP_1"`
    and has the first one, in which a value is written before all others. Another coordinator lets
    names start with `"SP_"` and has the others; nine have ended well when the last one is asked
    for. -/
def colliding : List Deed :=
  [.enter {} {}, .nest "SP_1", .aside (.write .main "a" (some .null))]
    ++ (List.range 9).flatMap (fun i =>
      [.nest "SP_", .leave (nestedGuard "SP_" ("SP_" ++ toString (i + 2)) (i + 2)) true])
    ++ [.nest "SP_"]

/-- Names are not distinct in general: the eleventh one is the first one. So the last scope goes
    back to the savepoint of the first one when it fails: the value that was written before it was
    entered is lost, and the first scope does not find its savepoint when it ends after it. -/
theorem savepoint_names_collide :
    let entered := blank.afterAll colliding
    let failed := entered.after (.leave (nestedGuard "SP_" "SP_11" 11) false)
    ¬ ((blank.names ⟨0⟩ colliding).map (·.name)).Nodup ∧
    entered.world.journalOf .main ⟨0⟩
      = some ⟨⟨[("a", some .null)]⟩, [("SP_11", {}), ("SP_11", ⟨[("a", some .null)]⟩)]⟩ ∧
    entered.live = [nestedGuard "SP_" "SP_11" 11, nestedGuard "SP_1" "SP_11" 1,
      Coordinator.guard {} ⟨.owner ⟨0⟩ none, ⟨0⟩⟩] ∧
    failed.world.journalOf .main ⟨0⟩ = some {} ∧
    ((nestedGuard "SP_1" "SP_11" 1).leave true failed.world).1
      = .error (.resource "savepoint not found: SP_11") := by
  refine ⟨?_, ?_, ?_, ?_, ?_⟩ <;> decide +kernel

end Moment

end ComponentHost
