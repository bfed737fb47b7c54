import Mathlib.Data.List.Perm.Subperm
import ComponentHost.Proofs.Data.Splits
import ComponentHost.Proofs.Registry.Resolving

/-! # Instances on the books

  Where instances come from. The invariant `Ledger` compares what has been handed out, to callers
  and to factories, with what factories have made and with what is in slots: a singleton is handed
  out from its slot only, and its factory does not run again once it has succeeded; what is handed
  out of a prototype can be matched with runs of its factory, one run for each time.

  Dependencies are resolved one after the other, and handed to the factory only when all of them are
  there. What waits in between is on the books already, as `waiting`; it is dropped where a later
  dependency fails.
-/

namespace ComponentHost

variable {K : Kit} {τ : Type}

/-! ### What the log tells -/

namespace Event

/-- The instances that are handed out, under the names for which they are. -/
def handed : Event K → List (String × Instance K)
  | ran run => run.given
  | yielded name i => [(name, i)]

def run? : Event K → Option (FactoryRun K)
  | ran run => some run
  | yielded .. => none

end Event

def handedOut (log : List (Event K)) : List (String × Instance K) := log.flatMap Event.handed

/-- The runs of the factory of a definition, in order. -/
def runsOf (id : String) (log : List (Event K)) : List (FactoryRun K) :=
  (log.filterMap Event.run?).filter (·.definition.id = id)

/-- The instances that the factory of a definition has made, in order. -/
def made (id : String) (log : List (Event K)) : List (Instance K) :=
  (runsOf id log).filterMap (·.outcome.toOption)

/-- An instance of a definition that there is, after what has happened. -/
def Available (d : Definition K) (i : Instance K) (log : List (Event K)) : Prop :=
  match d.factory with
  | .existing held => i = ⟨d.type, held⟩
  | .make _ => i ∈ made d.id log

namespace Store

/-- The instances among some that are under names of a definition. -/
def ofId (st : Store K) (id : String) (handed : List (String × Instance K)) : List (Instance K) :=
  (handed.filter fun p => st.canonical? p.1 = some id).map (·.2)

/-- An instance is one of the definition that its name stands for. -/
def Stands (st : Store K) (log : List (Event K)) (p : String × Instance K) : Prop :=
  ∃ d, st.canonical? p.1 = some d.id ∧ st.definition? d.id = some d ∧ Available d p.2 log

end Store

section Log

variable {log log' : List (Event K)} {e : Event K} {id : String} {d : Definition K}
  {i : Instance K} {st st' : Store K} {p : String × Instance K}

theorem runsOf_append : runsOf id (log ++ log') = runsOf id log ++ runsOf id log' := by
  simp [runsOf]

theorem made_append : made id (log ++ log') = made id log ++ made id log' := by
  simp [made, runsOf_append]

theorem handedOut_append : handedOut (log ++ log') = handedOut log ++ handedOut log' := by
  simp [handedOut]

theorem handedOut_singleton : handedOut [e] = e.handed := by
  simp [handedOut]

theorem runsOf_ran {run : FactoryRun K} :
    runsOf id [.ran run] = if run.definition.id = id then [run] else [] := by
  by_cases h : run.definition.id = id <;> simp [runsOf, Event.run?, h]

theorem mem_runsOf {run : FactoryRun K} :
    run ∈ runsOf id log ↔ .ran run ∈ log ∧ run.definition.id = id := by
  have hrun (e : Event K) : e.run? = some run ↔ e = .ran run := by
    cases e <;> simp [Event.run?]
  simp [runsOf, hrun]

theorem Available.append (h : Available d i log) (log' : List (Event K)) :
    Available d i (log ++ log') := by
  unfold Available at h ⊢
  cases hf : d.factory with
  | existing held =>
    rw [hf] at h
    exact h
  | make g =>
    rw [hf] at h
    simp only [made_append]
    exact List.mem_append_left _ h

theorem Store.Stands.append (h : st.Stands log p) (log' : List (Event K)) :
    st.Stands (log ++ log') p := by
  obtain ⟨d, hn, hd, ha⟩ := h
  exact ⟨d, hn, hd, ha.append log'⟩

theorem Store.Stands.grown (h : st.Stands log p) (hg : st.Grown st') : st'.Stands log p := by
  obtain ⟨d, hn, hd, ha⟩ := h
  exact ⟨d, hg.names hn, hg.definitions hd, ha⟩

theorem Store.ofId_append (st : Store K) (id : String) (ps qs : List (String × Instance K)) :
    st.ofId id (ps ++ qs) = st.ofId id ps ++ st.ofId id qs := by
  simp [Store.ofId]

theorem Store.mem_ofId {ps : List (String × Instance K)} :
    i ∈ st.ofId id ps ↔ ∃ n, (n, i) ∈ ps ∧ st.canonical? n = some id := by
  simp [Store.ofId]

theorem Store.ofId_singleton (st : Store K) (id name : String) (i : Instance K) :
    st.ofId id [(name, i)] = if st.canonical? name = some id then [i] else [] := by
  by_cases h : st.canonical? name = some id <;> simp [Store.ofId, h]

theorem Store.ofId_perm {ps qs : List (String × Instance K)} (h : ps.Perm qs) :
    (st.ofId id ps).Perm (st.ofId id qs) :=
  (h.filter _).map _

/-- In a store that has grown, what stood under names of a definition still does, and nothing
    else. -/
theorem Store.ofId_grown {ps : List (String × Instance K)} (hg : st.Grown st')
    (h : ∀ p ∈ ps, st.Stands log p) : st'.ofId id ps = st.ofId id ps := by
  unfold Store.ofId
  rw [List.filter_congr]
  intro p hp
  obtain ⟨d, hn, _⟩ := h p hp
  rw [hn, hg.names hn]

/-- Nothing stands under names of a definition that is not there. -/
theorem Store.ofId_eq_nil {ps : List (String × Instance K)} (h : ∀ p ∈ ps, st.Stands log p)
    (hd : st.definition? id = none) : st.ofId id ps = [] := by
  refine List.eq_nil_iff_forall_not_mem.mpr fun i hi => ?_
  obtain ⟨n, hp, hn⟩ := Store.mem_ofId.mp hi
  obtain ⟨d, hn', hd', _⟩ := h _ hp
  rw [hn] at hn'
  cases hn'
  rw [hd] at hd'
  cases hd'

end Log

/-! ### Where a kept instance comes from -/

/-- How there comes to be an instance of a definition to be kept, by what is new in the log. -/
inductive Sourced (d : Definition K) (i : Instance K) : List (Event K) → Prop
  /-- The definition has held it all along. -/
  | existing {held : Held K} (factory : d.factory = .existing held) (same : i = ⟨d.type, held⟩) :
    Sourced d i []
  /-- The factory has made it from what the definition depends on. -/
  | made {g : K.factory} {given : List (String × Instance K)} (factory : d.factory = .make g)
    (names : given.map (·.1) = d.dependencies) : Sourced d i [.ran ⟨d, given, .ok i⟩]

namespace Sourced

variable {d : Definition K} {i : Instance K} {new : List (Event K)}

/-- No other factory has run. -/
theorem runsOf_other (h : Sourced d i new) {id : String} (hid : id ≠ d.id) :
    runsOf id new = [] := by
  cases h with
  | existing => rfl
  | made => rw [runsOf_ran, if_neg (Ne.symm hid)]

/-- Where there is a factory, it has run once, and has made the instance. -/
theorem runsOf_own (h : Sourced d i new) {g : K.factory} (hf : d.factory = .make g) :
    (runsOf d.id new).map (·.outcome) = [.ok i] ∧ ComponentHost.made d.id new = [i] := by
  cases h with
  | existing factory =>
    rw [hf] at factory
    cases factory
  | made => simp [ComponentHost.made, runsOf_ran, Except.toOption]

theorem available (h : Sourced d i new) (log : List (Event K)) : Available d i (log ++ new) := by
  cases h with
  | existing factory same => simpa only [Available, factory] using same
  | made factory names =>
    simp only [Available, factory, made_append, (Sourced.made factory names).runsOf_own factory]
    exact List.mem_append_right _ List.mem_cons_self

end Sourced

/-- What is on the books once an instance is kept: what was there before and what was just handed
    out, in another order, and the instance. -/
theorem Store.ofId_keep {st : Store K} {d : Definition K} (hd : st.definition? d.id = some d)
    (i : Instance K) (log new : List (Event K)) (w : List (String × Instance K)) (id : String) :
    (st.ofId id (handedOut (log ++ new) ++ (w ++ [(d.id, i)]))).Perm
      (st.ofId id (handedOut log ++ (w ++ handedOut new)) ++ if id = d.id then [i] else []) := by
  have last : st.ofId id [(d.id, i)] = if id = d.id then [i] else [] := by
    rw [Store.ofId_singleton, Store.canonical?_id hd]
    simp only [Option.some.injEq, eq_comm]
  rw [← List.append_assoc, Store.ofId_append _ _ (_ ++ w), last, handedOut_append]
  refine (Store.ofId_perm ?_).append_right _
  rw [List.append_assoc]
  exact List.perm_append_comm.append_left _

/-! ### The invariant -/

/-- The books of a site are in order. Some instances, in a queue, wait to be handed out. -/
structure Ledger (s : Site K τ) (queue : List (String × Instance K)) : Prop where
  /-- Names stand for what is registered. -/
  valid : s.store.Valid
  events : ∀ before e after, s.log = before ++ e :: after → ∀ p ∈ e.handed, s.store.Stands before p
  waiting : ∀ p ∈ queue, s.store.Stands s.log p
  /-- Factories run for what is registered, on the dependencies that it declares. -/
  runs : ∀ run, .ran run ∈ s.log → s.store.definition? run.definition.id = some run.definition ∧
    (∃ g, run.definition.factory = .make g) ∧ run.given.map (·.1) = run.definition.dependencies
  /-- Only singletons have instances in their slots, and these are there. -/
  slots : ∀ {id i}, s.store.slot? id = some i →
    ∃ d, s.store.definition? id = some d ∧ d.scope = .singleton ∧ Available d i s.log
  /-- The factory of a singleton fails until it succeeds; then it does not run again, and what it
      has made is in the slot. -/
  once : ∀ {d g}, s.store.definition? d.id = some d → d.scope = .singleton → d.factory = .make g →
    ∃ failures : List Stop, (runsOf d.id s.log).map (·.outcome)
      = failures.map .error ++ (s.store.slot? d.id).toList.map .ok
  /-- A singleton is handed out from its slot. -/
  shared : ∀ {d}, s.store.definition? d.id = some d → d.scope = .singleton →
    ∀ i ∈ s.store.ofId d.id (handedOut s.log ++ queue), s.store.slot? d.id = some i
  /-- What is handed out of a prototype was made for that. -/
  fresh : ∀ {d g}, s.store.definition? d.id = some d → d.scope = .prototype →
    d.factory = .make g →
      (s.store.ofId d.id (handedOut s.log ++ queue)).Subperm (made d.id s.log)

namespace Ledger

variable {s : Site K τ} {w given : List (String × Instance K)} {store : Store K} {name : String}
  {i : Instance K} {id : String} {d : Definition K}

theorem start (rest : τ) : Ledger (Site.start rest : Site K τ) [] where
  valid := Store.valid_empty
  events before e after h := by simp [Site.start] at h
  waiting := by simp
  runs run h := by cases h
  slots h := by cases h
  once h := by cases h
  shared h := by cases h
  fresh h := by cases h

/-- All that was handed out or waits is there. -/
theorem stands (h : Ledger s w) : ∀ p ∈ handedOut s.log ++ w, s.store.Stands s.log p := by
  intro p hp
  rcases List.mem_append.mp hp with hp | hp
  · obtain ⟨e, he, hp⟩ := List.mem_flatMap.mp hp
    obtain ⟨before, after, hlog⟩ := List.append_of_mem he
    have hs := (h.events before e after hlog p hp).append (e :: after)
    rwa [← hlog] at hs
  · exact h.waiting p hp

/-- What waits may be dropped. -/
theorem drop (h : Ledger s (w ++ given)) : Ledger s w where
  valid := h.valid
  events := h.events
  waiting p hp := h.waiting p (List.mem_append_left _ hp)
  runs := h.runs
  slots := h.slots
  once := h.once
  shared hd hs i hi := by
    refine h.shared hd hs i ?_
    rw [← List.append_assoc, Store.ofId_append]
    exact List.mem_append_left _ hi
  fresh hd hs hf := by
    refine List.Subperm.trans ?_ (h.fresh hd hs hf)
    rw [← List.append_assoc, Store.ofId_append _ _ (_ ++ w)]
    exact (List.sublist_append_left _ _).subperm

/-- Registrations and aliases leave the books in order. -/
theorem grow (h : Ledger s w) (hg : s.store.Grown store) (hv : store.Valid)
    (hslots : ∀ id, store.slot? id = s.store.slot? id) : Ledger { s with store } w := by
  have hofId (id : String) :
      store.ofId id (handedOut s.log ++ w) = s.store.ofId id (handedOut s.log ++ w) :=
    Store.ofId_grown hg h.stands
  -- A definition is a new one, of which nothing is on the books, or it was there.
  have hold {d : Definition K} (hd : store.definition? d.id = some d) :
      s.store.definition? d.id = some d ∨ s.store.definition? d.id = none := by
    cases hd' : s.store.definition? d.id with
    | none => exact .inr rfl
    | some d' => exact .inl (hg.definitions hd' ▸ hd)
  have hnew {d : Definition K} (hd : s.store.definition? d.id = none) :
      s.store.slot? d.id = none ∧ runsOf d.id s.log = [] ∧
        s.store.ofId d.id (handedOut s.log ++ w) = [] := by
    refine ⟨?_, ?_, Store.ofId_eq_nil h.stands hd⟩
    · refine Option.eq_none_iff_forall_ne_some.mpr fun i hi => ?_
      obtain ⟨d', hd', _⟩ := h.slots hi
      rw [hd] at hd'
      cases hd'
    · refine List.eq_nil_iff_forall_not_mem.mpr fun run hrun => ?_
      obtain ⟨hmem, hid⟩ := mem_runsOf.mp hrun
      have hd' := (h.runs run hmem).1
      rw [hid, hd] at hd'
      cases hd'
  constructor
  case valid => exact hv
  case events =>
    intro before e after hlog p hp
    exact (h.events before e after hlog p hp).grown hg
  case waiting => exact fun p hp => (h.waiting p hp).grown hg
  case runs =>
    intro run hrun
    obtain ⟨hd, hf, hn⟩ := h.runs run hrun
    exact ⟨hg.definitions hd, hf, hn⟩
  case slots =>
    intro id i hi
    obtain ⟨d, hd, hs, ha⟩ := h.slots ((hslots id).symm.trans hi)
    exact ⟨d, hg.definitions hd, hs, ha⟩
  case once =>
    intro d g hd hs hf
    rw [show store.slot? d.id = s.store.slot? d.id from hslots d.id]
    rcases hold hd with hd | hd
    · exact h.once hd hs hf
    · obtain ⟨hslot, hruns, _⟩ := hnew hd
      exact ⟨[], by simp [hslot, hruns]⟩
  case shared =>
    intro d hd hs i hi
    rw [show store.slot? d.id = s.store.slot? d.id from hslots d.id]
    rw [show store.ofId d.id (handedOut s.log ++ w) = _ from hofId d.id] at hi
    rcases hold hd with hd | hd
    · exact h.shared hd hs i hi
    · rw [(hnew hd).2.2] at hi
      cases hi
  case fresh =>
    intro d g hd hs hf
    rw [show store.ofId d.id (handedOut s.log ++ w) = _ from hofId d.id]
    rcases hold hd with hd | hd
    · exact h.fresh hd hs hf
    · rw [(hnew hd).2.2]
      exact List.nil_subperm

/-- A singleton is taken from its slot. -/
theorem take (h : Ledger s w) (hn : s.store.canonical? name = some id)
    (hs : s.store.slot? id = some i) : Ledger s (w ++ [(name, i)]) := by
  obtain ⟨d, hd, hscope, ha⟩ := h.slots hs
  have hid := h.valid.ids hd
  constructor
  case valid => exact h.valid
  case events => exact h.events
  case waiting =>
    intro p hp
    rcases List.mem_append.mp hp with hp | hp
    · exact h.waiting p hp
    · obtain rfl := List.mem_singleton.mp hp
      exact ⟨d, hid ▸ hn, hid ▸ hd, ha⟩
  case runs => exact h.runs
  case slots => exact h.slots
  case once => exact h.once
  case shared =>
    intro d' hd' hscope' i' hi
    rw [← List.append_assoc, Store.ofId_append, Store.ofId_singleton] at hi
    rcases List.mem_append.mp hi with hi | hi
    · exact h.shared hd' hscope' i' hi
    · split at hi
      · next hn' =>
        rw [hn] at hn'
        cases hn'
        rw [List.mem_singleton.mp hi, hs]
      · cases hi
  case fresh =>
    intro d' g hd' hscope' hf
    -- Prototypes have no slots, so nothing of one was taken.
    rw [← List.append_assoc, Store.ofId_append, Store.ofId_singleton, if_neg, List.append_nil]
    · exact h.fresh hd' hscope' hf
    · rw [hn]
      rintro ⟨⟩
      rw [hd] at hd'
      cases hd'
      rw [hscope] at hscope'
      cases hscope'

/-- What waits under one name of a definition may wait under another. -/
theorem rename {name' : String} (h : Ledger s (w ++ [(name, i)]))
    (hn : s.store.canonical? name' = s.store.canonical? name) : Ledger s (w ++ [(name', i)]) := by
  have hofId (id : String) : s.store.ofId id (handedOut s.log ++ (w ++ [(name', i)]))
      = s.store.ofId id (handedOut s.log ++ (w ++ [(name, i)])) := by
    simp only [Store.ofId_append, Store.ofId_singleton, hn]
  constructor
  case valid => exact h.valid
  case events => exact h.events
  case waiting =>
    intro p hp
    -- What waited under the name still does; only the last one goes by another.
    rcases List.mem_append.mp hp with hp | hp
    · exact h.waiting p (List.mem_append_left _ hp)
    · obtain rfl := List.mem_singleton.mp hp
      obtain ⟨d, hd, hdef, ha⟩ := h.waiting (name, i) (by simp)
      exact ⟨d, hn.trans hd, hdef, ha⟩
  case runs => exact h.runs
  case slots => exact h.slots
  case once => exact h.once
  case shared => exact fun hd hs => hofId _ ▸ h.shared hd hs
  case fresh => exact fun hd hs hf => hofId _ ▸ h.fresh hd hs hf

/-! ### Events -/

/-- The places of a longer log are those of the log and the last one. -/
theorem events_concat {log : List (Event K)} {e : Event K} {st : Store K}
    (h : ∀ before e after, log = before ++ e :: after → ∀ p ∈ e.handed, st.Stands before p)
    (he : ∀ p ∈ e.handed, st.Stands log p) (before : List (Event K)) (e' : Event K)
    (after : List (Event K)) (hlog : log ++ [e] = before ++ e' :: after) :
    ∀ p ∈ e'.handed, st.Stands before p := by
  rcases append_eq_split hlog with ⟨mid, hl, _⟩ | ⟨mid, rfl, hl⟩
  · exact h before e' mid hl
  · rcases cons_eq_split hl with ⟨rfl, rfl, _⟩ | ⟨_, _, hnil⟩
    · rw [List.append_nil]
      exact he
    · simp at hnil

/-- What waits last is handed out: to a caller, or to a factory that then stops without an
    instance. -/
theorem hand {s' : Site K τ} {e : Event K} (h : Ledger s (w ++ e.handed))
    (hrun : ∀ run, e = .ran run → s.store.definition? run.definition.id = some run.definition ∧
      (∃ g, run.definition.factory = .make g) ∧
      run.given.map (·.1) = run.definition.dependencies ∧
      (run.definition.scope = .singleton → s.store.slot? run.definition.id = none) ∧
      ∃ stop, run.outcome = .error stop)
    (hstore : s'.store = s.store) (hlog : s'.log = s.log ++ [e]) : Ledger s' w := by
  have hperm (id : String) : (s.store.ofId id (handedOut s'.log ++ w)).Perm
      (s.store.ofId id (handedOut s.log ++ (w ++ e.handed))) := by
    refine Store.ofId_perm ?_
    rw [hlog, handedOut_append, handedOut_singleton, List.append_assoc]
    exact List.perm_append_comm.append_left _
  -- A run that stops makes nothing, and a caller makes nothing either.
  have hmade (id : String) : made id s'.log = made id s.log := by
    have hnone : made id [e] = [] := by
      cases e with
      | yielded name i => rfl
      | ran run =>
        obtain ⟨-, -, -, -, stop, hstop⟩ := hrun run rfl
        rw [made, runsOf_ran]
        split <;> simp [hstop, Except.toOption]
    rw [hlog, made_append, hnone, List.append_nil]
  constructor
  case valid => exact hstore ▸ h.valid
  case events =>
    rw [hstore, hlog]
    exact events_concat h.events fun p hp => h.waiting p (List.mem_append_right _ hp)
  case waiting =>
    intro p hp
    rw [hstore, hlog]
    exact (h.waiting p (List.mem_append_left _ hp)).append [e]
  case runs =>
    intro run hmem
    rw [hstore]
    rw [hlog] at hmem
    rcases List.mem_append.mp hmem with hmem | hmem
    · exact h.runs run hmem
    · obtain ⟨hd, hf, hn, -⟩ := hrun run (List.mem_singleton.mp hmem).symm
      exact ⟨hd, hf, hn⟩
  case slots =>
    intro id i hi
    rw [hstore] at hi ⊢
    rw [hlog]
    obtain ⟨d, hd, hs, ha⟩ := h.slots hi
    exact ⟨d, hd, hs, ha.append [e]⟩
  case once =>
    intro d g hd hs hf
    rw [hstore] at hd ⊢
    obtain ⟨failures, hold⟩ := h.once hd hs hf
    rw [hlog, runsOf_append, List.map_append, hold]
    cases e with
    | yielded name i => exact ⟨failures, List.append_nil _⟩
    | ran run =>
      rw [runsOf_ran]
      -- The slot was empty, so there is one more failure.
      split
      · next hid =>
        obtain ⟨hd', -, -, hslot, stop, hstop⟩ := hrun run rfl
        rw [hid, hd] at hd'
        cases hd'
        exact ⟨failures ++ [stop], by simp [hslot hs, hstop]⟩
      · exact ⟨failures, List.append_nil _⟩
  case shared =>
    intro d hd hs i hi
    rw [hstore] at hd hi ⊢
    exact h.shared hd hs i ((hperm d.id).mem_iff.mp hi)
  case fresh =>
    intro d g hd hs hf
    rw [hstore] at hd ⊢
    rw [hmade]
    exact (hperm d.id).subperm.trans (h.fresh hd hs hf)

/-- An instance of a definition is kept: there was one already, or its factory has made it from what
    waits last. -/
theorem keep {s' : Site K τ} {new : List (Event K)} (h : Ledger s (w ++ handedOut new))
    (hd : s.store.definition? d.id = some d) (hfilled : s.store.Filled (s.keep d i).store)
    (hfree : d.scope = .singleton → s.store.slot? d.id = none) (hnew : Sourced d i new)
    (hstore : s'.store = (s.keep d i).store) (hlog : s'.log = s.log ++ new) :
    Ledger s' (w ++ [(d.id, i)]) := by
  rw [← hstore] at hfilled
  have hdefinitions := hfilled.definitions
  have hslot (id : String) : s'.store.slot? id
      = if id = d.id ∧ d.scope = .singleton then some i else s.store.slot? id := by
    rw [hstore, Site.slot?_keep hd]
  have hstands {log : List (Event K)} {p : String × Instance K} (hp : s.store.Stands log p) :
      s'.store.Stands log p := hp.grown hfilled.grown
  have havailable : Available d i s'.log := hlog ▸ hnew.available s.log
  -- Names stand for what they stood for, so the books are those of the old store.
  have hofId (id : String) : (s'.store.ofId id (handedOut s'.log ++ (w ++ [(d.id, i)]))).Perm
      (s.store.ofId id (handedOut s.log ++ (w ++ handedOut new))
        ++ if id = d.id then [i] else []) := by
    have stays (ps : List (String × Instance K)) : s'.store.ofId id ps = s.store.ofId id ps := by
      rw [Store.ofId, Store.ofId, hfilled.names]
    rw [stays, hlog]
    exact Store.ofId_keep hd i s.log new w id
  constructor
  case valid => exact h.valid.of_filled hfilled
  case events =>
    have old (before : List (Event K)) (e : Event K) (after : List (Event K))
        (hl : s.log = before ++ e :: after) : ∀ p ∈ e.handed, s'.store.Stands before p :=
      fun p hp => hstands (h.events before e after hl p hp)
    rw [hlog]
    cases hnew with
    | existing => rwa [List.append_nil]
    | made =>
      -- The factory was given what waited last.
      refine events_concat old fun p hp => hstands (h.waiting p (List.mem_append_right _ ?_))
      rwa [handedOut_singleton]
  case waiting =>
    intro p hp
    rcases List.mem_append.mp hp with hp | hp
    · rw [hlog]
      exact hstands ((h.waiting p (List.mem_append_left _ hp)).append new)
    · obtain rfl := List.mem_singleton.mp hp
      have hd' := hfilled.grown.definitions hd
      exact ⟨d, Store.canonical?_id hd', hd', havailable⟩
  case runs =>
    intro run hmem
    rw [hlog] at hmem
    rw [hdefinitions]
    rcases List.mem_append.mp hmem with hmem | hmem
    · exact h.runs run hmem
    · cases hnew with
      | existing => cases hmem
      | made factory names =>
        cases List.mem_singleton.mp hmem
        exact ⟨hd, ⟨_, factory⟩, names⟩
  case slots =>
    intro id i' hi
    rw [hslot] at hi
    rw [hdefinitions]
    split at hi
    · next hid =>
      cases hi
      exact ⟨d, hid.1 ▸ hd, hid.2, havailable⟩
    · obtain ⟨d', hd', hs', ha⟩ := h.slots hi
      exact ⟨d', hd', hs', hlog ▸ ha.append new⟩
  case once =>
    intro d' g hd' hs hf
    rw [hdefinitions] at hd'
    obtain ⟨failures, hold⟩ := h.once hd' hs hf
    rw [hlog, runsOf_append, List.map_append, hold, hslot]
    refine ⟨failures, ?_⟩
    by_cases hid : d'.id = d.id
    · -- The slot was empty, so so far there are failures only.
      rw [hid, hd] at hd'
      cases hd'
      simp [hfree hs, hs, (hnew.runsOf_own hf).1]
    · simp [hid, hnew.runsOf_other hid]
  case shared =>
    intro d' hd' hs i' hi
    rw [hdefinitions] at hd'
    rcases List.mem_append.mp ((hofId d'.id).mem_iff.mp hi) with hold | hlast
    · exact hfilled.slots (h.shared hd' hs i' hold)
    · split at hlast
      · next hid =>
        rw [hid, hd] at hd'
        cases hd'
        rw [List.mem_singleton.mp hlast, hslot, if_pos ⟨rfl, hs⟩]
      · cases hlast
  case fresh =>
    intro d' g hd' hs hf
    rw [hdefinitions] at hd'
    refine (hofId d'.id).subperm.trans ?_
    rw [hlog, made_append]
    have hold := h.fresh hd' hs hf
    by_cases hid : d'.id = d.id
    · -- One more is on the books, and one more was made.
      rw [hid, hd] at hd'
      cases hd'
      rw [if_pos rfl, (hnew.runsOf_own hf).2]
      exact (List.subperm_append_right _).mpr hold
    · rw [if_neg hid, List.append_nil]
      exact hold.trans (List.sublist_append_left _ _).subperm

end Ledger

/-! ### Resolutions and sites -/

/-- The books after a resolution: what it has succeeded on waits to be handed out. -/
def Ledger.After (s : Site K τ) (w : List (String × Instance K)) :
    Except Error (List (String × Instance K)) → Prop
  | .ok given => Ledger s (w ++ given)
  | .error _ => Ledger s w

theorem Ledger.After.drop {s : Site K τ} {w : List (String × Instance K)}
    {r : Except Error (List (String × Instance K))} (h : After s w r) : Ledger s w := by
  cases r with
  | error e => exact h
  | ok given => exact Ledger.drop h

/-- One more instance was resolved before the others. -/
theorem Ledger.After.prepend {s : Site K τ} {w : List (String × Instance K)}
    {p : String × Instance K} {r : Except Error (List (String × Instance K))}
    (h : After s (w ++ [p]) r) : After s w (r.map (p :: ·)) := by
  cases r with
  | error e => exact Ledger.drop h
  | ok given =>
    show Ledger s (w ++ p :: given)
    rw [← List.singleton_append, ← List.append_assoc]
    exact h

/-- A resolution keeps the books. -/
theorem Resolves.ledger {f : Factories K τ} {path : List String} {g : Goal K} {s s' : Site K τ}
    {r : Except Error (List (String × Instance K))} {w : List (String × Instance K)}
    (h : Resolves f path g s r s') (hg : g.Registered s.store) (hl : Ledger s w) :
    Ledger.After s' w r := by
  induction h generalizing w with
  | tooDeep | cycle | missing => exact hl
  | found hid hd hs => exact hl.take (Store.canonical?_id hg) hs
  | unresolved hid hfree deps ih => exact ih trivial hl
  -- The definition holds its instance: what its dependencies gave is dropped.
  | @existing path d s given s₁ held hid hfree deps hf ih =>
    have hspares := deps.spares hl.valid trivial
    have hdeps : Ledger s₁ (w ++ handedOut ([] : List (Event K))) :=
      (List.append_nil w).symm ▸ (ih trivial hl).drop
    refine hdeps.keep (hspares.registered hg)
      (hspares.keep rfl hg hfree hid _).filled
      (fun h => (hspares.slots _ (by simp)).trans (hfree h)) (.existing hf rfl) rfl ?_
    simp
  -- The factory takes what waits for it, and its instance waits instead.
  | @made path d s given s₁ g held rest hid hfree deps hf hrun ih =>
    have hspares := deps.spares hl.valid trivial
    have hdeps : Ledger s₁ (w ++ given) := ih trivial hl
    refine Ledger.keep (by rwa [handedOut_singleton]) (hspares.registered hg)
      (hspares.keep rfl hg hfree hid _).filled
      (fun h => (hspares.slots _ (by simp)).trans (hfree h))
      (.made hf (deps.names_eq rfl)) (Site.keep_ran_store ..) ?_
    simp [Site.ran]
  -- The factory takes what waits for it, and nothing waits instead.
  | @stopped path d s given s₁ g stop rest hid hfree deps hf hrun ih =>
    have hspares := deps.spares hl.valid trivial
    have hdeps : Ledger s₁ (w ++ given) := ih trivial hl
    refine Ledger.hand (e := .ran ⟨d, given, .error stop⟩) hdeps ?_ rfl rfl
    rintro run ⟨⟩
    exact ⟨hspares.registered hg, ⟨g, hf⟩, deps.names_eq rfl,
      fun h => (hspares.slots _ (by simp)).trans (hfree h), stop, rfl⟩
  | @nil path s =>
    show Ledger s (w ++ [])
    rwa [List.append_nil]
  | cached hlookup hs others ih =>
    obtain ⟨hn, he⟩ := hl.valid.canonical?_of_lookup? hlookup
    exact (ih trivial (hl.take hn ((Store.slot?_of_get? he).trans hs))).prepend
  | failed hlookup hs one ih => exact ih (Site.definition?_of_lookup? hl.valid hlookup) hl
  | @resolved path s name names e i s₁ r s' hlookup hs one others ihone ih =>
    have hd := Site.definition?_of_lookup? hl.valid hlookup
    have hnames := (one.spares hl.valid hd).filled.names
    -- The definition was resolved by its id, and the caller waits for the name.
    have hrenamed : Ledger s₁ (w ++ [(name, i)]) := by
      refine Ledger.rename (ihone hd hl) ?_
      rw [hnames, (hl.valid.canonical?_of_lookup? hlookup).1, Store.canonical?_id hd]
    exact (ih trivial hrenamed).prepend

namespace Ledger

variable {f : Factories K τ} {limit : Nat} {s : Site K τ} {d : Definition K} {store : Store K}
  {new name : String}

theorem register (h : Ledger s []) (hr : s.store.register d = .ok store) :
    Ledger { s with store } [] :=
  h.grow (Store.register_grown hr) (h.valid.register hr) (Store.register_views hr).2.1

theorem addAlias (h : Ledger s []) (hr : s.store.addAlias new name = .ok store) :
    Ledger { s with store } [] :=
  h.grow (Store.addAlias_grown hr) (h.valid.addAlias hr) (Store.slot?_addAlias hr)

/-- Resolving a name keeps the books, if the instance is dropped. -/
theorem instantiate (h : Ledger s []) :
    Ledger (Resolution.instantiate f.maker limit name s).2 [] := by
  rcases Resolution.instantiate_resolves (f := f) limit name s with ⟨e, he⟩ | hres
  · rw [he]
    exact h
  · exact (hres.ledger trivial h).drop

/-- Resolving a name keeps the books, if the instance goes to the caller. -/
theorem yield {i : Instance K} (h : Ledger s [])
    (hi : (Resolution.instantiate f.maker limit name s).1 = .ok i) :
    Ledger ((Resolution.instantiate f.maker limit name s).2.note (.yielded name i)) [] := by
  rcases Resolution.instantiate_resolves (f := f) limit name s with ⟨e, he⟩ | hres
  · rw [he] at hi
    cases hi
  · have hafter := hres.ledger trivial h
    rw [hi] at hafter
    exact Ledger.hand (e := .yielded name i) hafter (fun run hrun => by cases hrun) rfl rfl

end Ledger

/-- The books of every site are in order. -/
theorem Site.ledger (f : Factories K τ) (limit : Nat) (rest : τ) (commands : List (Command K)) :
    Ledger ((start rest).after f limit commands) [] :=
  after_induction (P := fun s => Ledger s []) rest (.start rest) (fun _ _ _ h hr => h.register hr)
    (fun _ _ _ _ h hr => h.addAlias hr) (fun _ _ h => h.instantiate) (fun _ _ _ h hi => h.yield hi)
    commands

end ComponentHost
