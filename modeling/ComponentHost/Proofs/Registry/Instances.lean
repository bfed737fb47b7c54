import Mathlib.Data.List.Nodup
import ComponentHost.Proofs.Registry.Ledger

/-! # One singleton, many prototypes

  Whatever is done with a store, and whatever its factories do: of a singleton there is at most one
  instance, which is shared by all who get it; of a prototype everybody gets one of their own, made
  by a run of the factory that nobody else has the instance of.

  Instances are told apart as objects: what a factory has built becomes a new object, with a number
  that no object had before. An instance that was there when its definition was registered is no new
  one.
-/

namespace ComponentHost

variable {K : Kit} {τ : Type}

/-! ### Objects -/

/-- A component as an object. Objects with different numbers are different, whatever they hold. -/
structure Object (C : Type) where
  number : Nat
  component : C

abbrev Kit.ofObjects (K : Kit) : Kit := { K with component := Object K.component }

/-- Factories that build components. -/
abbrev Builders (K : Kit) (τ : Type) :=
  Definition K.ofObjects → K.factory → Dependencies K.ofObjects → StateM τ (Except Stop K.component)

/-- What is built becomes a new object; the state counts them. -/
def Builders.factories (b : Builders K τ) : Factories K.ofObjects (Nat × τ) := fun d f deps s =>
  match b d f deps s.2 with
  | (.ok c, rest) => (.ok (.component ⟨s.1, c⟩), (s.1 + 1, rest))
  | (.error stop, rest) => (.error stop, (s.1, rest))

def Instance.number? (i : Instance K.ofObjects) : Option Nat :=
  match i.held with
  | .component o => some o.number
  | .filter _ => none

/-- All instances that factories have made, in order. -/
def allMade (log : List (Event K)) : List (Instance K) :=
  (log.filterMap Event.run?).filterMap (·.outcome.toOption)

theorem made_sublist (id : String) (log : List (Event K)) :
    (made id log).Sublist (allMade log) := by
  unfold made runsOf allMade
  exact List.filter_sublist.filterMap _

/-- What every run of a factory preserves, a resolution preserves. -/
theorem Resolves.preserves {f : Factories K τ} {path : List String} {g : Goal K}
    {s s' : Site K τ} {r : Except Error (List (String × Instance K))}
    {P : List (Event K) → τ → Prop}
    (run : ∀ d g given log rest, P log rest →
      P (log ++ [.ran ⟨d, given, (f d g ⟨given⟩ rest).1.map (⟨d.type, ·⟩)⟩]) (f d g ⟨given⟩ rest).2)
    (h : Resolves f path g s r s') (hp : P s.log s.rest) : P s'.log s'.rest := by
  induction h with
  | tooDeep | cycle | found | nil | missing => exact hp
  | unresolved _ _ _ ih | cached _ _ _ ih | failed _ _ _ ih => exact ih hp
  -- Only a factory that runs adds to the log, whether or not it makes something.
  | existing _ _ _ _ ih => simpa using ih hp
  | @made path d s given s₁ g held rest _ _ _ _ hrun ih =>
    have hstep := run d g given s₁.log s₁.rest (ih hp)
    rw [hrun] at hstep
    rwa [Site.keep_log, Site.keep_rest]
  | @stopped path d s given s₁ g stop rest _ _ _ _ hrun ih =>
    have hstep := run d g given s₁.log s₁.rest (ih hp)
    rwa [hrun] at hstep
  | resolved _ _ _ _ ihone ih => exact ih (ihone hp)

/-- The objects that have been made are numbered in order. -/
def NumberedInOrder (log : List (Event K.ofObjects)) (next : Nat) : Prop :=
  (allMade log).map Instance.number? = (List.range next).map some

theorem numbered_run (b : Builders K τ) (d : Definition K.ofObjects) (g : K.factory)
    (given : List (String × Instance K.ofObjects)) (log : List (Event K.ofObjects))
    (rest : Nat × τ) (h : NumberedInOrder log rest.1) :
    NumberedInOrder
      (log ++ [.ran ⟨d, given, (b.factories d g ⟨given⟩ rest).1.map (⟨d.type, ·⟩)⟩])
      (b.factories d g ⟨given⟩ rest).2.1 := by
  unfold NumberedInOrder at h ⊢
  have happend (e : Event K.ofObjects) : allMade (log ++ [e]) = allMade log ++ allMade [e] := by
    simp [allMade]
  rw [happend, List.map_append, h]
  unfold Builders.factories
  rcases b d g ⟨given⟩ rest.2 with ⟨stop | c, rest'⟩
  · simp [allMade, Event.run?, Except.map, Except.toOption]
  · simp [allMade, Event.run?, Except.map, Except.toOption, Instance.number?, List.range_succ]

/-- At every site the objects that have been made are numbered in order. -/
theorem Site.numbered (b : Builders K τ) (limit : Nat) (rest : τ)
    (commands : List (Command K.ofObjects)) :
    NumberedInOrder ((start (0, rest)).after b.factories limit commands).log
      ((start (0, rest)).after b.factories limit commands).rest.1 := by
  have resolved (s : Site K.ofObjects (Nat × τ)) (name : String)
      (h : NumberedInOrder s.log s.rest.1) :
      NumberedInOrder (Resolution.instantiate b.factories.maker limit name s).2.log
        (Resolution.instantiate b.factories.maker limit name s).2.rest.1 := by
    -- Either nothing is resolved, or every factory that runs takes the next number.
    rcases Resolution.instantiate_resolves (f := b.factories) limit name s with ⟨e, he⟩ | hres
    · rw [he]
      exact h
    · exact hres.preserves (P := fun log rest => NumberedInOrder log rest.1) (numbered_run b) h
  refine after_induction (P := fun s : Site K.ofObjects (Nat × τ) => NumberedInOrder s.log s.rest.1)
    (0, rest) rfl (fun _ _ _ h _ => h) (fun _ _ _ _ h _ => h) resolved ?_ commands
  intro s name i h _
  -- Handing out makes nothing.
  have hlog : allMade (Resolution.instantiate b.factories.maker limit name s).2.log
      = allMade ((Resolution.instantiate b.factories.maker limit name s).2.note
          (.yielded name i)).log := by
    simp [allMade, note, Event.run?]
  unfold NumberedInOrder
  rw [← hlog]
  exact resolved s name h

/-- No object was made twice. -/
theorem nodup_made {log : List (Event K.ofObjects)} {next : Nat} (h : NumberedInOrder log next)
    (id : String) : (made id log).Nodup := by
  have hall : ((allMade log).map Instance.number?).Nodup := by
    rw [h]
    exact List.Nodup.map (fun _ _ h => Option.some.inj h) List.nodup_range
  exact (List.Nodup.of_map _ hall).sublist (made_sublist id log)

/-! ### What everybody gets -/

/-- What the log of a site tells about instances. -/
structure Accounted (st : Store K) (log : List (Event K)) : Prop where
  /-- A factory that runs is given what its definition declares, in order. -/
  given : ∀ run, .ran run ∈ log → st.definition? run.definition.id = some run.definition ∧
    run.given.map (·.1) = run.definition.dependencies
  /-- Whatever is handed out for a name, to a caller or to a factory, is an instance of what the
      name stands for, and was there before. -/
  resolved : ∀ before e after, log = before ++ e :: after → ∀ p ∈ e.handed, st.Stands before p
  /-- All who get a singleton get the same instance. -/
  shared : ∀ d, st.definition? d.id = some d → d.scope = .singleton →
    ∀ i ∈ st.ofId d.id (handedOut log), ∀ j ∈ st.ofId d.id (handedOut log), i = j
  /-- The factory of a singleton succeeds at most once. From then on it does not run, and the
      instance is the one that all get. -/
  once : ∀ d, st.definition? d.id = some d → d.scope = .singleton → (made d.id log).length ≤ 1 ∧
    ∀ before run after i, log = before ++ .ran run :: after → run.definition.id = d.id →
      run.outcome = .ok i → (∀ run', .ran run' ∈ after → run'.definition.id ≠ d.id) ∧
        ∀ j ∈ st.ofId d.id (handedOut log), j = i
  /-- No two get the same instance of a prototype that has a factory, and each of these was made by
      a run of its own. -/
  own : ∀ d g, st.definition? d.id = some d → d.scope = .prototype → d.factory = .make g →
    (st.ofId d.id (handedOut log)).Nodup ∧ (made d.id log).Nodup ∧
      (st.ofId d.id (handedOut log)).Subperm (made d.id log)

/-- A success among outcomes that are failures but for one at the end is that one. -/
theorem last_of_failures {α ε : Type} {failures : List ε} {slot : Option α}
    {before after : List (Except ε α)} {i : α}
    (h : failures.map .error ++ slot.toList.map .ok = before ++ .ok i :: after) :
    slot = some i ∧ after = [] := by
  -- A success is no failure, so it is what the slot holds, and nothing comes behind that.
  rcases append_eq_split h with ⟨mid, hf, _⟩ | ⟨mid, _, hs⟩
  · have hmem : .ok i ∈ failures.map (Except.error : ε → Except ε α) := by rw [hf]; simp
    simp at hmem
  · cases slot with
    | none => simp at hs
    | some j =>
      rcases cons_eq_split hs with ⟨_, hj, hafter⟩ | ⟨_, _, hnil⟩
      · cases hj
        exact ⟨rfl, hafter.symm⟩
      · simp at hnil

/-- Books in order account for all instances, if no object was made twice. -/
theorem Ledger.accounted {s : Site K τ} (h : Ledger s []) (hmade : ∀ id, (made id s.log).Nodup) :
    Accounted s.store s.log where
  given run hrun := ⟨(h.runs run hrun).1, (h.runs run hrun).2.2⟩
  resolved := h.events
  shared d hd hs i hi j hj := by
    rw [← List.append_nil (handedOut s.log)] at hi hj
    have hslot := (h.shared hd hs i hi).symm.trans (h.shared hd hs j hj)
    exact Option.some.inj hslot
  once d hd hs := by
    cases hf : d.factory with
    | existing held =>
      -- Only definitions with a factory have runs.
      have hnone {run : FactoryRun K} (hrun : .ran run ∈ s.log) : run.definition.id ≠ d.id := by
        intro hid
        obtain ⟨hd', ⟨g, hg⟩, -⟩ := h.runs run hrun
        rw [hid, hd] at hd'
        cases hd'
        rw [hf] at hg
        cases hg
      refine ⟨?_, fun before run after i hlog hid _ => absurd hid (hnone (by simp [hlog]))⟩
      have hruns : runsOf d.id s.log = [] :=
        List.eq_nil_iff_forall_not_mem.mpr fun run hrun =>
          hnone (mem_runsOf.mp hrun).1 (mem_runsOf.mp hrun).2
      simp [made, hruns]
    | make g =>
      obtain ⟨failures, hruns⟩ := h.once hd hs hf
      have hmade : made d.id s.log = (s.store.slot? d.id).toList := by
        have houtcomes : made d.id s.log
            = ((runsOf d.id s.log).map (·.outcome)).filterMap Except.toOption := by
          rw [List.filterMap_map]
          rfl
        rw [houtcomes, hruns]
        cases s.store.slot? d.id <;> simp [Except.toOption, List.filterMap_map, Function.comp_def]
      refine ⟨by rw [hmade]; cases s.store.slot? d.id <;> simp, ?_⟩
      intro before run after i hlog hid hi
      rw [hlog, runsOf_append, ← List.singleton_append, runsOf_append, runsOf_ran, if_pos hid,
        List.map_append, List.map_append, List.map_singleton, hi] at hruns
      obtain ⟨hslot, hafter⟩ := last_of_failures hruns.symm
      constructor
      · intro run' hrun' hid'
        have hmem := mem_runsOf.mpr ⟨hrun', hid'⟩
        rw [List.map_eq_nil_iff.mp hafter] at hmem
        cases hmem
      · intro j hj
        rw [← List.append_nil (handedOut s.log)] at hj
        exact Option.some.inj ((h.shared hd hs j hj).symm.trans hslot)
  own d g hd hs hf := by
    have hfresh := h.fresh hd hs hf
    rw [List.append_nil] at hfresh
    obtain ⟨l, hperm, hsub⟩ := hfresh
    exact ⟨hperm.nodup_iff.mp ((hmade d.id).sublist hsub), hmade d.id, l, hperm, hsub⟩

/-- **One singleton, many prototypes.** Whatever is registered, given aliases and resolved, and
    whatever factories do: the log of every site accounts for all instances. -/
theorem instances_accounted (b : Builders K τ) (limit : Nat) (rest : τ)
    (commands : List (Command K.ofObjects)) :
    Accounted ((Site.start (0, rest)).after b.factories limit commands).store
      ((Site.start (0, rest)).after b.factories limit commands).log :=
  (Site.ledger b.factories limit (0, rest) commands).accounted
    fun id => nodup_made (Site.numbered b limit rest commands) id

end ComponentHost
