import ComponentHost.Invocation.Chain

/-! # Watching a chain

  A chain is watched from outside. Its filters and its invoker are wrapped, so that each of them
  writes down when it starts and ends, and what it asks for and is told; the chain that passes the
  call on is not touched. What a filter does is up to the filter: it is any tree of requests, and
  the watched filter goes along the same branches on the same replies.

  `proceed_watched` says that watching changes nothing: results, arguments and states are those of
  the chain that nobody watches.
-/

namespace ComponentHost

/-! ### What is written down -/

/-- What is seen of the links of a chain. Links are numbered from the outside in: the filters come
    first, and the invoker is the last link. -/
inductive Sighting
  | started (link : Nat) (arguments : Arguments)
  | ended (link : Nat) (result : Except Stop Value)
  /-- The filter at a link passes the call on. -/
  | asked (link : Nat)
  /-- It is told what came of that. -/
  | answered (link : Nat) (reply : Except Stop Value)
  /-- The filter at a link replaces an argument, or tries to. -/
  | replaced (link index : Nat) (value : Option Value) (reply : Except Error Unit)

namespace Sighting

def link : Sighting → Nat
  | started i _ | ended i _ | asked i | answered i _ | replaced i _ _ _ => i

def start? : Sighting → Option Nat
  | started i _ => some i
  | ended _ _ | asked _ | answered _ _ | replaced _ _ _ _ => none

end Sighting

/-- A state and what has been seen so far. -/
structure Watched (σ : Type) where
  state : σ
  /-- What has been seen, the latest last. -/
  log : List Sighting

variable {σ : Type}

/-- The code of a filter from here on, under watch. -/
def Interception.watched (link : Nat) (log : List Sighting) :
    Interception σ (Except Stop Value) → Interception (Watched σ) (Except Stop Value)
  | done r s => done r ⟨s, log ++ [.ended link r]⟩
  | ask .proceed s resume =>
    ask .proceed ⟨s, log ++ [.asked link]⟩ fun r w =>
      (resume r w.state).watched link (w.log ++ [.answered link r])
  | ask (.replaceArgument i v) s resume =>
    ask (.replaceArgument i v) ⟨s, log⟩ fun r w =>
      (resume r w.state).watched link (w.log ++ [.replaced link i v r])
  | ask .arguments s resume =>
    ask .arguments ⟨s, log⟩ fun r w => (resume r w.state).watched link w.log
  | ask .link s resume => ask .link ⟨s, log⟩ fun r w => (resume r w.state).watched link w.log

def Filter.watched (link : Nat) (f : Filter σ) : Filter (Watched σ) where
  name := f.name
  invoke signature := fun w => .ask .arguments w fun args w =>
    (f.invoke signature w.state).watched link (w.log ++ [.started link args])

def Invoker.watched (link : Nat) (invoker : Invoker σ) : Invoker (Watched σ) := fun args w =>
  let (r, s) := invoker args w.state
  (r, ⟨s, w.log ++ [.started link args, .ended link r]⟩)

namespace Chain

/-- Filters under watch, the first of them at a given link. -/
def watchFrom : Nat → List (Filter σ) → List (Filter (Watched σ))
  | _, [] => []
  | i, f :: rest => f.watched i :: watchFrom (i + 1) rest

theorem length_watchFrom (i : Nat) (filters : List (Filter σ)) :
    (watchFrom i filters).length = filters.length := by
  induction filters generalizing i with
  | nil => rfl
  | cons f rest ih => rw [watchFrom, List.length_cons, ih, List.length_cons]

/-! ### Watching changes nothing -/

/-- The outcome of a watched run without the log. -/
def unwatched {α : Type} (run : α × Watched σ) : α × σ := (run.1, run.2.state)

/-- A watched filter gets the same replies, and so does the same. -/
theorem serve_watched {signature : MethodSignature} {link : Link} {i : Nat}
    {next : Continuation σ} {next' : Continuation (Watched σ)}
    (h : ∀ args w, unwatched (next' args w) = next args w.state) (used : Bool) (args : Arguments)
    (tree : Interception σ (Except Stop Value)) (log : List Sighting) :
    unwatched (serve signature link next' used args (tree.watched i log))
      = serve signature link next used args tree := by
  -- Proceeding is the one request that reaches the other links, and there `h` says that watching
  -- changes nothing.
  induction tree generalizing used args log with
  | done r s => rfl
  | ask request s resume ih =>
    cases request with
    | arguments | link => exact ih _ _ _ _ _
    | replaceArgument j v =>
      simp only [Interception.watched, serve]
      cases args.set j v <;> exact ih _ _ _ _ _
    | proceed =>
      cases used with
      | true => exact ih _ _ _ _ _
      | false =>
        simp only [Interception.watched, serve]
        rw [← h args ⟨s, log ++ [.asked i]⟩]
        exact ih _ _ _ _ _

theorem proceed_watched (signature : MethodSignature) (invoker : Invoker σ) (i : Nat)
    (filters : List (Filter σ)) (args : Arguments) (w : Watched σ) :
    unwatched (proceed signature (invoker.watched (i + filters.length)) i (watchFrom i filters)
        args w)
      = proceed signature invoker i filters args w.state := by
  induction filters generalizing i args w with
  | nil => rfl
  | cons f rest ih =>
    -- The number of the invoker is the same, seen from each link.
    have hn : i + (f :: rest).length = i + 1 + rest.length := by
      rw [List.length_cons]
      omega
    rw [hn, watchFrom, proceed, proceed, length_watchFrom]
    exact serve_watched (fun args w => ih (i + 1) args w) false args _ _

end Chain

end ComponentHost
