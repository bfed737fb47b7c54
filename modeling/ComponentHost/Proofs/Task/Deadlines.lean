import ComponentHost.Proofs.Task.Cancellation
import ComponentHost.Proofs.Task.Orderly

/-! # Deadlines

  Nothing is committed whose time is up, or that is marked for rollback. The time of a transaction
  is looked at when a scope joins it or nests in it, when a joined scope ends and when its owner
  does, and around a task there is a timer as well. Only the look of the owner matters for what is
  committed, and it comes right before the commit; so it does not matter how often, and by whom, the
  clock was moved or the transaction was marked before.

  - `World.dueAt` is the moment at which the time of a transaction is up, which never changes;
  - `Progress.Orderly.ends_in_time` says of a task in the scope of an owner that it does not end
    well from that moment on, whenever it is polled, and whatever happens between polls;
  - `commits_in_time` puts it together for all that can happen.
-/

namespace ComponentHost

open World HasWorld
open Affairs (Step Runs)

/-! ### The moment at which time is up -/

namespace World

variable {w w' : World} {P : TxId → Prop} {t : TxId} {moment : Nat}

/-- The moment at which the time of a transaction is up. -/
def dueAt (w : World) (t : TxId) : Option Nat := do
  let tx ← w.transaction? t
  let limit ← tx.limit
  return tx.startedAt + limit

theorem Keeps.dueAt (h : Keeps P w w') (hd : w.dueAt t = some moment) :
    w'.dueAt t = some moment := by
  unfold World.dueAt at hd ⊢
  cases htx : w.transaction? t with
  | none =>
    rw [htx] at hd
    cases hd
  | some tx =>
    obtain ⟨tx', htx', started, timeout, _⟩ := h t tx htx
    have limit : tx'.limit = tx.limit := congrArg (Option.map (· * 1000)) timeout
    rw [htx] at hd
    simp only [htx', Option.bind_eq_bind, Option.bind_some, limit, started]
    exact hd

theorem clock_lt_dueAt (he : w.isExpired t = false) (hd : w.dueAt t = some moment) :
    w.clock < moment := by
  unfold World.dueAt at hd
  cases htx : w.transaction? t with
  | none =>
    rw [htx] at hd
    cases hd
  | some tx =>
    cases hl : tx.limit with
    | none =>
      simp [htx, hl] at hd
    | some limit =>
      -- It has not expired, so less time has gone by than the limit.
      have early := elapsed_lt_of_not_isExpired htx he hl
      have due : tx.startedAt + limit = moment := by simpa [htx, hl] using hd
      unfold Transaction.elapsed at early
      omega

end World

theorem Coordinator.Entry.dueAt {k : Coordinator} {d : TransactionDefinition} {w w' : World}
    {p : Participation} {t : TxId} {seconds : Nat} (h : Entry k d w (.ok p) w')
    (ht : p.owned = some t) (hs : d.timeout = some seconds) :
    w'.dueAt t = some (w.clock + seconds * 1000) := by
  obtain ⟨_, tx, record, _, started, timeout⟩ := h.owned_new ht
  have limit : tx.limit = some (seconds * 1000) := by
    rw [Transaction.limit, timeout, hs]
    rfl
  simp [World.dueAt, record, limit, started]

/-! ### Tasks in the scope of an owner -/

variable {σ α : Type} [HasWorld σ]

omit [HasWorld σ] in
theorem Progress.polled_done (polls : List (Signal × (σ → σ))) (r : Except Stop α) (s : σ) :
    (Progress.done r s).polled polls = .done r s := by
  cases polls <;> rfl

/-- A task in a scope has ended well only if the scope has. -/
theorem Coordinator.conclude_eq_ok {k : Coordinator} {part : Participation} {r : Except Stop α}
    {s s' : σ} {v : α} (h : k.conclude part r s = (.ok v, s')) :
    ∃ w, k.finish part true (world s) = (.ok (), w) ∧ s' = setWorld s w := by
  cases r with
  | error stop => cases h
  | ok a =>
    rcases hf : k.finish part true (world s) with ⟨e | _, w⟩
    · have eq : k.conclude part (.ok a) s = (.error (.ofError e), setWorld s w) := by
        simp only [conclude, finishIn, onWorld, bind, StateT.bind, ExceptT.run, hf]
        rfl
      rw [eq] at h
      cases h
    · have eq : k.conclude part (.ok a) s = (.ok a, setWorld s w) := by
        simp only [conclude, finishIn, onWorld, bind, StateT.bind, ExceptT.run, hf]
        rfl
      rw [eq] at h
      cases h
      exact ⟨w, rfl, rfl⟩

variable [HasParts σ]

/-- A task in the scope of an owner does not end well once the time of the transaction is up,
    whatever its polls are woken by, and whatever happens between them. -/
theorem Progress.Orderly.ends_in_time {p : Progress σ α} {a : Affairs} (h : p.Orderly a)
    {k : Coordinator} {t : TxId} {outer : Option TxId} {deadline : Option Nat} {moment : Nat}
    (due : a.world.dueAt t = some moment) {polls : List (Signal × (σ → σ))}
    (meanwhile : ∀ poll ∈ polls, ∀ s, Affairs.Meanwhile (world s) (world (poll.2 s))) {v : α}
    {s' : σ} (ended : (k.supervise (.owner t outer) deadline p).polled polls = .done (.ok v) s') :
    (world s').clock < moment := by
  induction h generalizing polls with
  | @done a r s runs =>
    rcases hc : k.conclude (.owner t outer) r s with ⟨r', s₁⟩
    have eq : k.supervise (.owner t outer) deadline (.done r s) = .done r' s₁ := by
      simp only [Coordinator.supervise, hc]
    rw [eq, polled_done] at ended
    cases ended
    obtain ⟨w, finished, rfl⟩ := Coordinator.conclude_eq_ok hc
    -- The owner has looked at the clock after all that the task has done, and nothing has moved it.
    have early := clock_lt_dueAt (Coordinator.finish_owner_ok finished) (runs.keeps.dueAt due)
    rw [world_setWorld, (Coordinator.finish_sameFlow finished).clock]
    exact early
  | @pending a w s resume cancel own runs again dropped ih =>
    cases polls with
    | nil => cases ended
    | cons poll polls =>
      obtain ⟨g, between⟩ := poll
      obtain ⟨_, _, others⟩ := meanwhile _ List.mem_cons_self s
      have later := others.keeps.dueAt (runs.keeps.dueAt due)
      simp only [Coordinator.supervise, polled] at ended
      split at ended
      · -- The timer has ended the scope, and that is a failure.
        have aborted := (polled_done polls _ _).symm.trans ended
        cases aborted
      · exact ih g (between s) later (fun poll hp => meanwhile poll (List.mem_cons_of_mem _ hp))
          ended

/-- A task that is run in a scope of its own, in a transaction that is begun for it. -/
theorem Task.Orderly.executeTask_in_time {body : Task σ α} (h : body.Orderly) {k : Coordinator}
    {d : TransactionDefinition} {s : σ} {scope : TransactionScope} {w : World} {t : TxId}
    {seconds : Nat} (entered : k.enter d (world s) = (.ok scope, w))
    (opened : scope.participation.owned = some t) (timeout : d.timeout = some seconds)
    {polls : List (Signal × (σ → σ))}
    (meanwhile : ∀ poll ∈ polls, ∀ s, Affairs.Meanwhile (world s) (world (poll.2 s))) {v : α}
    {s' : σ} (ended : (k.executeTask d body s).polled polls = .done (.ok v) s') :
    (world s').clock < (world s).clock + seconds * 1000 := by
  obtain ⟨_, he, _⟩ | ⟨part, w₁, entry, he, rfl⟩ := Coordinator.enter_eq entered
  · cases he
  · cases he
    -- The deadline is fixed as the scope is entered: nothing that follows moves it.
    have due : (derive w₁.current {} (some part.transaction) w₁).2.dueAt t
        = some ((world s).clock + seconds * 1000) := entry.dueAt opened timeout
    simp only [Coordinator.executeTask, onWorld_eq, ExceptT.run, entered] at ended
    cases part with
    | owner u outer =>
      cases opened
      refine (h.within w₁.nextContext _).ends_in_time ?_ meanwhile ended
      rw [affairs_setWorld]
      exact due
    | joined | nested | apart => cases opened

/-! ### In time -/

/-- **Nothing is committed late or marked.** Take any run of what can happen: scopes are entered and
    end in any order, well or not, some are forgotten, transactions are marked, tasks take turns and
    are dropped, the clock is moved between calls of the coordinators, and the resources fail as
    they like. Every commit that is on record since then was asked for in one step of the run, and
    where that step began the transaction was active, was not marked, and had been running for less
    than its timeout. No scope that is begun now joins or nests in a transaction that has been
    running for its timeout. And whenever a task is run in a scope that begins a transaction with
    a timeout, and is polled until it ends, whatever wakes it and whatever happens between polls, it
    does not end well at the end of that timeout or later; neither does a computation. All this
    holds of what code does, for that is such a run: code of a thread, the code of a task from poll
    to poll, and tasks that threads poll and drop in any order. -/
theorem commits_in_time {w : World} {a : Affairs} (h : Runs ⟨w, 0⟩ a) :
    (∀ i later c earlier t, (a.world.resource i).log = later ++ c :: earlier →
      (w.resource i).log.length ≤ earlier.length → c.call = .commit t →
      ∃ m n, Runs ⟨w, 0⟩ m ∧ Step m n ∧ Runs n a ∧ (m.world.resource i).log <:+ earlier ∧
        c :: earlier <:+ (n.world.resource i).log ∧
        ∃ tx, m.world.transaction? t = some tx ∧ tx.state = .active ∧ tx.rollbackOnly = false ∧
          ∀ limit, tx.limit = some limit → tx.elapsed m.world.clock < limit) ∧
    (∀ (k : Coordinator) d scope w' t, k.begin d a.world = (.ok scope, w') →
      (scope.participation = .joined t ∨
        ∃ savepoint mark, scope.participation = .nested t savepoint mark) →
      ∀ tx limit, a.world.transaction? t = some tx → tx.limit = some limit →
        tx.elapsed a.world.clock < limit) ∧
    (∀ {σ α : Type} [HasWorld σ] [HasParts σ] (k : Coordinator) d (s : σ) scope w' t seconds,
      k.enter d (world s) = (.ok scope, w') → scope.participation.owned = some t →
      d.timeout = some seconds →
      (∀ (body : Task σ α) polls v s', body.Orderly →
        (∀ poll ∈ polls, ∀ s, Affairs.Meanwhile (world s) (world (poll.2 s))) →
        (k.executeTask d body s).polled polls = .done (.ok v) s' →
          (world s').clock < (world s).clock + seconds * 1000) ∧
      ∀ (body : StateM σ (Except Stop α)) v s', (∀ s, Runs (affairs s) (affairs (body s).2)) →
        k.executeIn d body s = (.ok v, s') →
          (world s').clock < (world s).clock + seconds * 1000) ∧
    (∀ (work : Work) t, Runs (affairs t) (affairs (work.run t).2)) ∧
    (∀ (code : Code) i home, (code.task i home).Orderly) ∧
    ∀ w events, ∃ live, Runs ⟨(System.start w).scene.world, 0⟩
      ⟨((System.start w).run events).scene.world, live⟩ := by
  refine ⟨?_, ?_, ?_, Work.orderly, Code.orderly, System.runs_run⟩
  · intro i later c earlier t log new commit
    obtain ⟨m, n, before, step, after, below, above⟩ := h.made log new
    refine ⟨m, n, before, step, after, below, above, ?_⟩
    obtain ⟨added, grown, commits⟩ := ((Affairs.sound_start w).run before).commits step i
    -- The call is not among those that were on record before the step, so it was added by it.
    have fresh : c ∈ added := by
      obtain ⟨newer, above⟩ := above
      obtain ⟨older, below⟩ := below
      rw [grown, ← below, ← List.cons_append, ← List.append_assoc] at above
      rw [← List.append_cancel_right above]
      exact List.mem_append_right _ List.mem_cons_self
    exact commits c fresh t commit
  · intro k d scope w' t begun within tx limit record timed
    obtain ⟨w₁, entry, _, _⟩ := Coordinator.begin_ok begun
    exact elapsed_lt_of_not_isExpired record (entry.not_expired within) timed
  · intro σ α _ _ k d s scope w' t seconds entered opened timeout
    refine ⟨fun body polls v s' orderly meanwhile ended =>
      orderly.executeTask_in_time entered opened timeout meanwhile ended, ?_⟩
    intro body v s' orderly ended
    have polled : (k.executeTask d (Task.now body) s).polled [] = .done (.ok v) s' := by
      rw [k.executeTask_now, Task.now, ended]
      rfl
    exact (Task.Orderly.now orderly).executeTask_in_time entered opened timeout
      (fun poll hp => by cases hp) polled

/-- Code that ends the scope of a transaction with a timeout of one second, after some time. -/
def Work.timed (ms : Nat) : Work :=
  .begin {} { timeoutSeconds := 1 } fun _ => .aside (.wait ms) fun _ =>
    .leave ⟨⟨0⟩, some ({}, .owner ⟨0⟩ none)⟩ true fun _ => .done (.ok .null)

/-- After 999 milliseconds the transaction is committed, and may be. -/
theorem commits_in_time_just :
    let a := affairs ((Work.timed 999).run ⟨⟨{}, []⟩, []⟩).2
    (a.world.resource .main).log.map (·.call) = [.commit ⟨0⟩, .begin ⟨0⟩] ∧
      ∃ m, Runs ⟨{}, 0⟩ m ∧ ∃ tx, m.world.transaction? ⟨0⟩ = some tx ∧ tx.state = .active ∧
        tx.rollbackOnly = false ∧
        ∀ limit, tx.limit = some limit → tx.elapsed m.world.clock < limit := by
  have log : ((affairs ((Work.timed 999).run ⟨⟨{}, []⟩, []⟩).2).world.resource .main).log
      = [] ++ ⟨.commit ⟨0⟩, true, true⟩ :: [⟨.begin ⟨0⟩, true, true⟩] := by decide +kernel
  have runs : Runs ⟨{}, 0⟩ (affairs ((Work.timed 999).run ⟨⟨{}, []⟩, []⟩).2) :=
    (Work.timed 999).orderly ⟨⟨{}, []⟩, []⟩
  obtain ⟨m, _, before, _, _, _, _, may⟩ :=
    (commits_in_time runs).1 .main _ _ _ ⟨0⟩ log (by decide) rfl
  exact ⟨by rw [log]; rfl, m, before, may⟩

/-- A task that wakes right at the end of the timeout of its transaction has it rolled back. -/
example :
    let task : Task World Unit := Coordinator.executeTask {} { timeoutSeconds := 1 } (.sleep 1000)
    (task.drive {}).2.main.log.map (·.call) = [.rollback ⟨0⟩, .begin ⟨0⟩] := by cbv

end ComponentHost
