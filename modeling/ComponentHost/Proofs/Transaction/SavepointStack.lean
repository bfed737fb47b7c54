import Mathlib.Data.List.TakeWhile
import ComponentHost.Proofs.Transaction.Course

/-! # Savepoints as a stack of snapshots

  What code does with the journal of a transaction is a sequence of writes, of savepoints that are
  set, and of savepoints that it goes back to or gives up, in whatever order and under whatever
  names. Here the sequence alone says which savepoints are live, and what each of them remembers:

  - `Memory.History` relates a sequence to the memory after it. Beside each act stands what was
    pending before it. In between anything may happen to the memory but to this journal.
  - `Journal.Live` says of a snapshot, from the sequence alone, whether it can be gone back to: it
    is made when its savepoint is set, and it ends when the transaction goes back to its savepoint
    or gives that up, or does so with an earlier one that is live.
  - `Journal.stack` lists what is live, oldest first, and the savepoints of the journal are this
    list (`History.journal`).

  As long as no savepoint is set under a name that is live, a name stands for one snapshot, and the
  journal is the stack that one expects (`savepoints_stack`).
-/

namespace ComponentHost

/-! ### Sequences of acts -/

/-- Something that code does with the journal of a transaction. -/
inductive Journal.Act
  /-- It writes under a key, or deletes the key. -/
  | write (key : String) (value : Option Value)
  | set (name : String)
  /-- It goes back to a savepoint. -/
  | rollbackTo (name : String)
  /-- It gives up a savepoint. -/
  | release (name : String)

namespace Memory

/-- Does it, in a transaction that takes writes or does not. -/
def act (m : Memory) (t : TxId) (readOnly : Bool) : Journal.Act → Except Error Memory
  | .write key value => m.write (some (t, readOnly)) key value
  | .set name => m.perform (.createSavepoint t name)
  | .rollbackTo name => m.perform (.rollbackToSavepoint t name)
  | .release name => m.perform (.releaseSavepoint t name)

/-- The memory after an act, which is the same if the act fails. -/
def after (m : Memory) (t : TxId) (readOnly : Bool) (a : Journal.Act) : Memory :=
  match m.act t readOnly a with
  | .ok m' => m'
  | .error _ => m

/-- What is pending in a transaction that has a journal. -/
def pending? (m : Memory) (t : TxId) : Option Writes := (m.journals.get? t).map (·.writes)

end Memory

namespace Journal

/-- Acts, the latest first, each with what was pending before it. -/
abbrev Acts := List (Act × Writes)

/-- What a savepoint stands for. -/
structure Snapshot where
  /-- The number of acts before it was set. -/
  since : Nat
  name : String
  /-- What was pending then. -/
  pending : Writes
  deriving DecidableEq

/-- A snapshot is live after some acts. -/
def Live : Acts → Snapshot → Prop
  | [], _ => False
  | (.write _ _, _) :: acts, s => Live acts s
  | (.set name, pending) :: acts, s => s = ⟨acts.length, name, pending⟩ ∨ Live acts s
  | (.rollbackTo name, _) :: acts, s | (.release name, _) :: acts, s =>
    Live acts s ∧ ∀ s', Live acts s' → s'.name = name → s.since < s'.since

/-- No savepoint was set under a name that was live. -/
def Fresh : Acts → Prop
  | [] => True
  | (a, _) :: acts => Fresh acts ∧ ∀ name, a = .set name → ∀ s, Live acts s → s.name ≠ name

/-- What is live, oldest first. -/
def stack : Acts → List Snapshot
  | [] => []
  | (.write _ _, _) :: acts => stack acts
  | (.set name, pending) :: acts => stack acts ++ [⟨acts.length, name, pending⟩]
  | (.rollbackTo name, _) :: acts | (.release name, _) :: acts =>
    (stack acts).takeWhile (·.name ≠ name)

end Journal

/-- A sequence of acts with the journal of a transaction, and the memory after it. -/
inductive Memory.History (t : TxId) (readOnly : Bool) : Journal.Acts → Memory → Prop
  | begun {m : Memory} (h : m.journals.get? t = some {}) : History t readOnly [] m
  /-- Something is done with its journal. -/
  | acted {acts : Journal.Acts} {m : Memory} {pending : Writes} (before : History t readOnly acts m)
      (hp : m.pending? t = some pending) (a : Journal.Act) :
      History t readOnly ((a, pending) :: acts) (m.after t readOnly a)
  /-- Something else happens. -/
  | elsewhere {acts : Journal.Acts} {m m' : Memory} (before : History t readOnly acts m)
      (same : m'.journals.get? t = m.journals.get? t) : History t readOnly acts m'

/-! ### The stack -/

namespace Journal

variable {acts : Acts} {s s' : Snapshot} {name : String}

theorem since_lt (h : s ∈ stack acts) : s.since < acts.length := by
  induction acts with
  | nil => cases h
  | cons entry acts ih =>
    obtain ⟨a, pending⟩ := entry
    have below (h : s ∈ stack acts) : s.since < ((a, pending) :: acts).length :=
      Nat.lt_succ_of_lt (ih h)
    cases a with
    | write key value => exact below h
    | set name =>
      rcases List.mem_append.mp h with old | new
      · exact below old
      · rw [List.mem_singleton.mp new]
        exact Nat.lt_succ_self _
    | rollbackTo name | release name => exact below ((List.takeWhile_sublist _).subset h)

/-- What stands later on the stack was set later. -/
theorem stack_sorted (acts : Acts) : (stack acts).Pairwise (·.since < ·.since) := by
  induction acts with
  | nil => exact .nil
  | cons entry acts ih =>
    obtain ⟨a, pending⟩ := entry
    cases a with
    | write key value => exact ih
    | set name =>
      refine List.pairwise_append.mpr ⟨ih, List.pairwise_singleton _ _, ?_⟩
      intro s hs s' hs'
      rw [List.mem_singleton.mp hs']
      exact since_lt hs
    | rollbackTo name | release name => exact ih.sublist (List.takeWhile_sublist _)

/-- What stands below the first one of a name is what was set before all of that name. -/
theorem mem_takeWhile {l : List Snapshot} (sorted : l.Pairwise (·.since < ·.since)) :
    s ∈ l.takeWhile (·.name ≠ name) ↔
      s ∈ l ∧ ∀ s' ∈ l, s'.name = name → s.since < s'.since := by
  induction l with
  | nil => simp
  | cons first rest ih =>
    obtain ⟨later, sorted⟩ := List.pairwise_cons.mp sorted
    by_cases hn : first.name = name
    · -- The first one has the name, and nothing was set before it.
      rw [List.takeWhile_cons_of_neg (by simp [hn])]
      constructor
      · intro h
        cases h
      · rintro ⟨hs, before⟩
        have this := before first List.mem_cons_self hn
        rcases List.mem_cons.mp hs with rfl | hs
        · omega
        · have := later s hs
          omega
    · rw [List.takeWhile_cons_of_pos (by simp [hn]), List.mem_cons, List.mem_cons, ih sorted]
      constructor
      · rintro (rfl | ⟨hs, before⟩)
        · refine ⟨.inl rfl, fun s' hs' hn' => ?_⟩
          rcases List.mem_cons.mp hs' with rfl | hs'
          · exact absurd hn' hn
          · exact later s' hs'
        · refine ⟨.inr hs, fun s' hs' hn' => ?_⟩
          rcases List.mem_cons.mp hs' with rfl | hs'
          · exact absurd hn' hn
          · exact before s' hs' hn'
      · rintro ⟨rfl | hs, before⟩
        · exact .inl rfl
        · exact .inr ⟨hs, fun s' hs' => before s' (List.mem_cons_of_mem _ hs')⟩

/-- The stack lists what is live. -/
theorem live_iff : Live acts s ↔ s ∈ stack acts := by
  -- Ending a savepoint is a question of time for the one, and of place for the other.
  induction acts generalizing s with
  | nil => simp [Live, stack]
  | cons entry acts ih =>
    obtain ⟨a, pending⟩ := entry
    cases a with
    | write key value => exact ih
    | set name =>
      simp only [Live, stack, ih, List.mem_append, List.mem_singleton]
      exact or_comm
    | rollbackTo name | release name =>
      simp only [Live, stack, ih]
      exact (mem_takeWhile (stack_sorted acts)).symm

/-- Where no name was set again while it was live, a name stands for one snapshot. -/
theorem Fresh.distinct (h : Fresh acts) : (stack acts).Pairwise (·.name ≠ ·.name) := by
  induction acts with
  | nil => exact .nil
  | cons entry acts ih =>
    obtain ⟨a, pending⟩ := entry
    obtain ⟨before, new⟩ := h
    cases a with
    | write key value => exact ih before
    | set name =>
      refine List.pairwise_append.mpr ⟨ih before, List.pairwise_singleton _ _, ?_⟩
      intro s hs s' hs'
      rw [List.mem_singleton.mp hs']
      exact new name rfl s (live_iff.mpr hs)
    | rollbackTo name | release name => exact (ih before).sublist (List.takeWhile_sublist _)

/-- The first one of a name on a stack. -/
theorem exists_first {l : List Snapshot} (h : ∃ s ∈ l, s.name = name) :
    ∃ earlier s later, l = earlier ++ s :: later ∧ s.name = name ∧
      ∀ e ∈ earlier, e.name ≠ name := by
  cases hf : l.find? (·.name = name) with
  | none =>
    obtain ⟨s, hs, hn⟩ := h
    have := List.find?_eq_none.mp hf s hs
    simp [hn] at this
  | some s =>
    obtain ⟨hn, earlier, later, hl, he⟩ := List.find?_eq_some_iff_append.mp hf
    exact ⟨earlier, s, later, hl, by simpa using hn, by simpa using he⟩

/-- What a savepoint of a journal says of a snapshot. -/
def Snapshot.saved (s : Snapshot) : String × Writes := (s.name, s.pending)

end Journal

/-! ### Journals are stacks -/

namespace Memory

variable {m m' : Memory} {t : TxId} {readOnly : Bool} {j : Journal} {acts : Journal.Acts}
  {name : String} {earlier later : List (String × Writes)} {writes : Writes}

section First

variable (hj : m.journals.get? t = some j) (hs : j.savepoints = earlier ++ (name, writes) :: later)
  (first : ∀ sp ∈ earlier, sp.1 ≠ name)
include hj hs first

theorem act_rollbackTo : m.act t readOnly (.rollbackTo name)
    = .ok { m with journals := m.journals.insert t ⟨writes, earlier⟩ } :=
  changeJournal_of_get? hj (by rw [Journal.rollbackTo?_eq hs first])

theorem act_release : m.act t readOnly (.release name)
    = .ok { m with journals := m.journals.insert t ⟨j.writes, earlier⟩ } :=
  changeJournal_of_get? hj (by rw [Journal.release?_eq hs first])

end First

/-- Without a savepoint of the name both fail. -/
theorem act_noSavepoint (hj : m.journals.get? t = some j)
    (none : ∀ sp ∈ j.savepoints, sp.1 ≠ name) :
    m.act t readOnly (.rollbackTo name) = .error (noSavepoint name) ∧
      m.act t readOnly (.release name) = .error (noSavepoint name) := by
  have position := Coordinator.Journal.position?_eq_none none
  have back : j.rollbackTo? name = Option.none := by simp [Journal.rollbackTo?, position]
  have given : j.release? name = Option.none := by simp [Journal.release?, position]
  simp [act, perform, changeJournal, hj, back, given, bind, Except.bind]

/-- The savepoints of the journal are what is live. -/
theorem History.journal (h : History t readOnly acts m) : ∃ j, m.journals.get? t = some j ∧
    j.savepoints = (Journal.stack acts).map (·.saved) := by
  induction h with
  | begun h => exact ⟨{}, h, rfl⟩
  | elsewhere _ same ih =>
    obtain ⟨j, hj, hs⟩ := ih
    exact ⟨j, same.trans hj, hs⟩
  | @acted acts m pending before hp a ih =>
    obtain ⟨j, hj, hs⟩ := ih
    have hw : pending = j.writes := by
      rw [pending?, hj] at hp
      exact (Option.some.inj hp).symm
    -- Both ways to end savepoints leave those before the first one of the name.
    have ends {name : String} (act : ∀ (earlier later : List (String × Writes)) (writes : Writes),
          j.savepoints = earlier ++ (name, writes) :: later → (∀ sp ∈ earlier, sp.1 ≠ name) →
          ∃ j', (m.after t readOnly a).journals.get? t = some j' ∧ j'.savepoints = earlier)
        (none : (∀ sp ∈ j.savepoints, sp.1 ≠ name) → m.after t readOnly a = m) :
        ∃ j', (m.after t readOnly a).journals.get? t = some j' ∧
          j'.savepoints = ((Journal.stack acts).takeWhile (·.name ≠ name)).map (·.saved) := by
      by_cases there : ∃ s ∈ Journal.stack acts, s.name = name
      · obtain ⟨earlier, s, later, hl, rfl, first⟩ := Journal.exists_first there
        have split : j.savepoints
            = earlier.map (·.saved) ++ (s.name, s.pending) :: later.map (·.saved) := by
          rw [hs, hl, List.map_append, List.map_cons]
          rfl
        obtain ⟨j', hj', hs'⟩ := act _ _ _ split (by
          intro sp hsp
          obtain ⟨e, he, rfl⟩ := List.mem_map.mp hsp
          exact first e he)
        refine ⟨j', hj', ?_⟩
        rw [hs', hl, List.takeWhile_append_of_pos (by simpa using first),
          List.takeWhile_cons_of_neg (by simp), List.append_nil]
      · have absent : ∀ s ∈ Journal.stack acts, s.name ≠ name := fun s h hn => there ⟨s, h, hn⟩
        rw [none]
        · refine ⟨j, hj, ?_⟩
          rw [hs, List.takeWhile_eq_self_iff.mpr (by simpa using absent)]
        · intro sp hsp
          rw [hs] at hsp
          obtain ⟨s, h, rfl⟩ := List.mem_map.mp hsp
          exact absent s h
    cases a with
    | write key value =>
      cases readOnly with
      | true => exact ⟨j, hj, hs⟩
      | false =>
        refine ⟨j.write key value, ?_, hs⟩
        simp [after, act, Memory.write, hj]
    | set name =>
      refine ⟨j.setSavepoint name, ?_, ?_⟩
      · simp [after, act, perform, changeJournal_of_get? hj]
      · show j.savepoints ++ [(name, j.writes)] = _
        rw [hs, ← hw, Journal.stack, List.map_append]
        rfl
    | rollbackTo name =>
      refine ends (fun earlier later writes split first => ?_) fun none => ?_
      · refine ⟨⟨writes, earlier⟩, ?_, rfl⟩
        simp [after, act_rollbackTo hj split first]
      · rw [after, (act_noSavepoint hj none).1]
    | release name =>
      refine ends (fun earlier later writes split first => ?_) fun none => ?_
      · refine ⟨⟨j.writes, earlier⟩, ?_, rfl⟩
        simp [after, act_release hj split first]
      · rw [after, (act_noSavepoint hj none).2]

/-- An act leaves everything alone but the journal of its transaction. -/
theorem act_elsewhere {a : Journal.Act} (h : m.act t readOnly a = .ok m') :
    (∀ u, u ≠ t → m'.journals.get? u = m.journals.get? u) ∧ m'.committed = m.committed ∧
      m'.refusesCommits = m.refusesCommits := by
  -- A call concerns the journal of its own transaction, and only a commit the store.
  have called {c : Call} (hc : c.transaction = t) (other : ∀ u, c ≠ .commit u)
      (hp : m.perform c = .ok m') : (∀ u, u ≠ t → m'.journals.get? u = m.journals.get? u) ∧
        m'.committed = m.committed ∧ m'.refusesCommits = m.refusesCommits := by
    refine ⟨fun u hu => perform_journals_ne hp ?_, perform_committed hp other,
      perform_refusesCommits hp⟩
    rw [hc]
    exact hu
  cases a with
  | write key value =>
    cases readOnly with
    | true => cases h
    | false =>
      simp only [act, Memory.write, Bool.false_eq_true, if_false] at h
      split at h
      · cases h
      · cases h
        exact ⟨fun u hu => by rw [Dict.get?_insert, if_neg hu], rfl, rfl⟩
  | set name => exact called (c := .createSavepoint t name) rfl (by simp) h
  | rollbackTo name => exact called (c := .rollbackToSavepoint t name) rfl (by simp) h
  | release name => exact called (c := .releaseSavepoint t name) rfl (by simp) h

end Memory

/-- A call that fails cleanly leaves no event. -/
theorem Resource.events_error {r r' : Resource} {c : Call} {e : Error} (clean : r.FailsCleanly)
    (h : r.call c = (.error e, r')) : r'.events = r.events := by
  -- What was not performed is no event, and neither is the asking.
  have unperformed (r : Resource) (c : Call) : (r.logged c false false).events = r.events := rfl
  have judged (p : Point) : (r.judged p).events = r.events := by
    unfold judged
    split <;> rfl
  unfold call at h
  split at h
  · cases h
  · simp only at h
    split at h
    · cases h
      exact (unperformed _ c).trans (judged _)
    · split at h
      · cases h
      · cases h
        exact (unperformed _ c).trans (judged _)
    · next hv =>
      rcases next_mem r c.point with pass | mem
      · rw [pass] at hv
        cases hv
      · rw [hv] at mem
        exact absurd mem (clean c.point)

/-! ### What one can rely on -/

/-- The act ends a savepoint: the transaction goes back to it, or gives it up. -/
def Journal.Act.Ends (a : Journal.Act) (name : String) : Prop :=
  a = .rollbackTo name ∨ a = .release name

/-- The savepoints of a journal after a sequence of acts are a stack of snapshots. -/
structure Memory.SnapshotStack (t : TxId) (readOnly : Bool) (acts : Journal.Acts) (m : Memory) :
    Prop where
  /-- A savepoint that is set is live. -/
  sets : ∀ name pending, m.pending? t = some pending →
    Journal.Live ((.set name, pending) :: acts) ⟨acts.length, name, pending⟩ ∧
      ∃ m', m.act t readOnly (.set name) = .ok m' ∧ m'.pending? t = some pending
  /-- Going back to what is live makes pending what was pending when it was set. -/
  restores : ∀ s, Journal.Live acts s →
    ∃ m', m.act t readOnly (.rollbackTo s.name) = .ok m' ∧ m'.pending? t = some s.pending
  /-- Giving it up leaves pending what is. -/
  releases : ∀ s, Journal.Live acts s →
    ∃ m', m.act t readOnly (.release s.name) = .ok m' ∧ m'.pending? t = m.pending? t
  /-- Either way it ends, and with it what was set later; what was set earlier stays live. -/
  ends : ∀ s, Journal.Live acts s → ∀ a pending, a.Ends s.name →
    ∀ s', Journal.Live ((a, pending) :: acts) s' ↔ Journal.Live acts s' ∧ s'.since < s.since
  /-- And what was set earlier can be gone back to, or given up, as before. -/
  earlier : ∀ s s', Journal.Live acts s → Journal.Live acts s' → s'.since < s.since →
    ∀ a, a.Ends s.name →
      (∃ m', (m.after t readOnly a).act t readOnly (.rollbackTo s'.name) = .ok m' ∧
        m'.pending? t = some s'.pending) ∧
      ∃ m', (m.after t readOnly a).act t readOnly (.release s'.name) = .ok m' ∧
        m'.pending? t = (m.after t readOnly a).pending? t
  /-- A name under which nothing is live is refused. -/
  unknown : ∀ name, (∀ s, Journal.Live acts s → s.name ≠ name) → ∀ a : Journal.Act, a.Ends name →
    m.act t readOnly a = .error (noSavepoint name)
  /-- No act touches other journals, or what is committed. -/
  elsewhere : ∀ a m', m.act t readOnly a = .ok m' →
    (∀ u, u ≠ t → m'.journals.get? u = m.journals.get? u) ∧ m'.committed = m.committed ∧
      m'.refusesCommits = m.refusesCommits
  /-- A call on the resource that fails leaves the memory alone, and no event. -/
  failed : ∀ (r : Resource) c e r', r.memory = m → r.FailsCleanly → r.call c = (.error e, r') →
    r'.memory = m ∧ r'.events = r.events

namespace Memory.History

variable {t : TxId} {readOnly : Bool} {acts : Journal.Acts} {m : Memory} {s : Journal.Snapshot}

section Live

variable (h : History t readOnly acts m) (fresh : Journal.Fresh acts)
include h

/-- What is live stands in the journal, first of its name. -/
theorem split (fresh : Journal.Fresh acts) (live : Journal.Live acts s) :
    ∃ j earlier later, m.journals.get? t = some j ∧
      j.savepoints = earlier ++ (s.name, s.pending) :: later ∧ ∀ sp ∈ earlier, sp.1 ≠ s.name := by
  obtain ⟨j, hj, hs⟩ := h.journal
  obtain ⟨earlier, later, hl⟩ := List.append_of_mem (Journal.live_iff.mp live)
  refine ⟨j, earlier.map (·.saved), later.map (·.saved), hj, ?_, ?_⟩
  · rw [hs, hl, List.map_append, List.map_cons]
    rfl
  · intro sp hsp
    obtain ⟨e, he, rfl⟩ := List.mem_map.mp hsp
    have distinct := fresh.distinct
    rw [hl] at distinct
    exact (List.pairwise_append.mp distinct).2.2 e he s List.mem_cons_self

theorem rollbackTo (fresh : Journal.Fresh acts) (live : Journal.Live acts s) :
    ∃ m', m.act t readOnly (.rollbackTo s.name) = .ok m' ∧ m'.pending? t = some s.pending := by
  obtain ⟨j, earlier, later, hj, hs, first⟩ := h.split fresh live
  exact ⟨_, act_rollbackTo hj hs first, by simp [pending?]⟩

theorem release (fresh : Journal.Fresh acts) (live : Journal.Live acts s) :
    ∃ m', m.act t readOnly (.release s.name) = .ok m' ∧ m'.pending? t = m.pending? t := by
  obtain ⟨j, earlier, later, hj, hs, first⟩ := h.split fresh live
  exact ⟨_, act_release hj hs first, by simp [pending?, hj]⟩

end Live

/-- Ending what is live leaves what was set before it. -/
theorem live_ends {a : Journal.Act} {pending : Writes} (fresh : Journal.Fresh acts)
    (live : Journal.Live acts s) (ha : a.Ends s.name) (s' : Journal.Snapshot) :
    Journal.Live ((a, pending) :: acts) s' ↔ Journal.Live acts s' ∧ s'.since < s.since := by
  -- Nothing else that is live has the name.
  have only (s₁ : Journal.Snapshot) (live₁ : Journal.Live acts s₁) (hn : s₁.name = s.name) :
      s₁ = s := by
    have names : ((Journal.stack acts).map (·.name)).Nodup := List.pairwise_map.mpr fresh.distinct
    exact List.inj_on_of_nodup_map names (Journal.live_iff.mp live₁) (Journal.live_iff.mp live) hn
  have unfolded : Journal.Live ((a, pending) :: acts) s' ↔ Journal.Live acts s' ∧
      ∀ s₁, Journal.Live acts s₁ → s₁.name = s.name → s'.since < s₁.since := by
    rcases ha with rfl | rfl <;> rfl
  rw [unfolded]
  constructor
  · rintro ⟨live', before⟩
    exact ⟨live', before s live rfl⟩
  · rintro ⟨live', before⟩
    refine ⟨live', fun s₁ live₁ hn => ?_⟩
    rw [only s₁ live₁ hn]
    exact before

/-- **Savepoints are a stack of snapshots.** Code writes, sets savepoints, goes back to them and
    gives them up in any order, and meanwhile anything may happen to the memory but to this journal.
    As long as no savepoint is set under a name that is live, each savepoint that is live can be
    gone back to, or given up, and each that is not is refused. -/
theorem savepoints_stack (h : History t readOnly acts m) (fresh : Journal.Fresh acts) :
    SnapshotStack t readOnly acts m := by
  have pending : ∃ pending, m.pending? t = some pending := by
    obtain ⟨j, hj, -⟩ := h.journal
    exact ⟨j.writes, by rw [pending?, hj]; rfl⟩
  constructor
  case sets =>
    intro name pending hp
    refine ⟨.inl rfl, ?_⟩
    obtain ⟨j, hj, -⟩ := h.journal
    refine ⟨_, changeJournal_of_get? hj rfl, ?_⟩
    rw [← hp]
    simp [pending?, hj, Journal.setSavepoint]
  case restores => exact fun s live => h.rollbackTo fresh live
  case releases => exact fun s live => h.release fresh live
  case ends => exact fun s live a pending ha => live_ends fresh live ha
  -- To end a later savepoint leaves the earlier ones live, so what was shown of them goes on.
  case earlier =>
    intro s s' live live' before a ha
    obtain ⟨pending, hp⟩ := pending
    have again : History t readOnly ((a, pending) :: acts) (m.after t readOnly a) := h.acted hp a
    have fresh' : Journal.Fresh ((a, pending) :: acts) := by
      refine ⟨fresh, ?_⟩
      rintro name rfl
      rcases ha with ha | ha <;> cases ha
    have live₁ : Journal.Live ((a, pending) :: acts) s' :=
      (live_ends fresh live ha s').mpr ⟨live', before⟩
    exact ⟨again.rollbackTo fresh' live₁, again.release fresh' live₁⟩
  -- A name of nothing live is in no savepoint of the journal, which holds the live ones only.
  case unknown =>
    intro name absent a ha
    obtain ⟨j, hj, hs⟩ := h.journal
    have none : ∀ sp ∈ j.savepoints, sp.1 ≠ name := by
      intro sp hsp
      rw [hs] at hsp
      obtain ⟨s, hmem, rfl⟩ := List.mem_map.mp hsp
      exact absent s (Journal.live_iff.mpr hmem)
    rcases ha with rfl | rfl
    · exact (act_noSavepoint hj none).1
    · exact (act_noSavepoint hj none).2
  case elsewhere => exact fun a m' ha => act_elsewhere ha
  case failed =>
    rintro r c e r' rfl clean hc
    exact ⟨Resource.call_error clean hc, Resource.events_error clean hc⟩

end Memory.History

/-! ### Two savepoints with writes in between -/

namespace Memory

/-- A transaction has been begun. -/
def opened : Memory := { journals := ⟨[(⟨0⟩, {})]⟩ }

/-- A write, a savepoint, another write and another savepoint, the latest first. -/
def layered : Journal.Acts :=
  [(.set "b", ⟨[("x", some .null), ("y", some (.bool true))]⟩),
    (.write "y" (some (.bool true)), ⟨[("x", some .null)]⟩),
    (.set "a", ⟨[("x", some .null)]⟩),
    (.write "x" (some .null), {})]

theorem History.layered : ∃ m, History ⟨0⟩ false layered m := by
  have written : History ⟨0⟩ false _ _ :=
    (History.begun (m := opened) rfl).acted rfl (.write "x" (some .null))
  have first : History ⟨0⟩ false _ _ := written.acted rfl (.set "a")
  have more : History ⟨0⟩ false _ _ := first.acted rfl (.write "y" (some (.bool true)))
  exact ⟨_, more.acted rfl (.set "b")⟩

theorem fresh_layered : Journal.Fresh layered := by
  simp [layered, Journal.Fresh, Journal.Live]

end Memory

/-- Both savepoints are live then, and going back to the first one leaves the first write. -/
theorem savepoints_stack_layered : ∃ m, Memory.SnapshotStack ⟨0⟩ false Memory.layered m ∧
    Journal.stack Memory.layered = [⟨1, "a", ⟨[("x", some .null)]⟩⟩,
      ⟨3, "b", ⟨[("x", some .null), ("y", some (.bool true))]⟩⟩] ∧
    ∃ m', m.act ⟨0⟩ false (.rollbackTo "a") = .ok m' ∧
      m'.pending? ⟨0⟩ = some ⟨[("x", some .null)]⟩ := by
  obtain ⟨m, h⟩ := Memory.History.layered
  have stack := h.savepoints_stack Memory.fresh_layered
  refine ⟨m, stack, rfl, stack.restores ⟨1, "a", ⟨[("x", some .null)]⟩⟩ ?_⟩
  exact Journal.live_iff.mpr List.mem_cons_self

end ComponentHost
