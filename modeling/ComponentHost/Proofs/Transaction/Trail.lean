import ComponentHost.Proofs.Data.Splits
import ComponentHost.Proofs.Transaction.Faultless
import ComponentHost.Proofs.Transaction.Kept
import Mathlib.Data.List.Nodup

/-! # Trails of a flow

  The code of a flow begins scopes, writes and deletes, and ends the scopes by their handles, in
  whatever order it likes. What happens on the way is its trail: a log with the latest event first.

  - `Flow.act` is what one act does, and the event that it leaves in the log;
  - `Trail` relates a log to the flow that it led to;
  - `Move` lists what an act can do, once for all proofs;
  - `Chronicle` says that the log is in order: contexts are not heard of before their scope is begun
    nor after it has ended, and transactions are not heard of before they are begun.
-/

namespace ComponentHost

open World Attempt

namespace Flow

/-! ### Acts and events -/

/-- What the code of a flow does next. -/
inductive Act
  | begin (d : TransactionDefinition)
  /-- It writes a value under a key, or deletes it. -/
  | write (key : String) (value : Option Value)
  /-- It ends the scope of a handle, well or not. A handle that is dropped ends its scope, too, and
      not well. -/
  | leave (s : TransactionScope) (success : Bool)
  /-- It lets time pass. -/
  | wait (ms : Nat)

/-- What happened. -/
inductive Event
  | begun (s : TransactionScope)
  /-- A write was taken, in a transaction or at once. -/
  | wrote (wr : WriteRecord) (t : Option TxId)
  /-- A scope ended, well or not, and its end succeeded or failed. -/
  | ended (s : TransactionScope) (success told : Bool)
  /-- A scope or a write was refused, or time passed. -/
  | nothing
  deriving DecidableEq

namespace Event

def context : Event → Option ContextId
  | begun s | ended s _ _ => some s.context
  | wrote wr _ => wr.context
  | nothing => none

def transaction : Event → Option TxId
  | begun s | ended s _ _ => s.participation.transaction
  | wrote _ t => t
  | nothing => none

/-- One event may come later than another one: the context of a scope is not heard of before the
    scope is begun, nor after it has ended. -/
def MayFollow (later earlier : Event) : Prop :=
  (∀ s, later = begun s → earlier.context ≠ some s.context) ∧
    ∀ s success told, earlier = ended s success told → later.context ≠ some s.context

end Event

/-- What an act does, and what happened by it. -/
def act (k : Coordinator) (f : Flow) : Act → Event × Flow
  | .begin d =>
    match k.begin d f.world with
    | (.ok s, w) => (.begun s, ⟨w, s :: f.live⟩)
    | (.error _, w) => (.nothing, ⟨w, f.live⟩)
  | .write key value =>
    match World.write k.resource key value f.world with
    | (.ok (), w) =>
      (.wrote ⟨f.world.current, key, value⟩ f.world.currentTransaction, ⟨w, f.live⟩)
    | (.error _, w) => (.nothing, ⟨w, f.live⟩)
  | .leave s success =>
    if s ∈ f.live then
      let (r, w) := if success then k.complete s f.world else k.fail s f.world
      (.ended s success r.isOk, ⟨w, f.live.erase s⟩)
    else (.nothing, f)
  | .wait ms => (.nothing, ⟨(advance ms f.world).2, f.live⟩)

/-- What happened by some acts, the latest first, and where they led. -/
def acts (k : Coordinator) (f : Flow) (as : List Act) : List Event × Flow :=
  as.foldl (fun (es, f) a => ((f.act k a).1 :: es, (f.act k a).2)) ([], f)

end Flow

namespace Coordinator

open ComponentHost.Flow

variable {k : Coordinator} {d : TransactionDefinition} {w w' w₀ : World} {t u : TxId}
  {f f' f₀ f₁ : Flow} {e : Flow.Event} {es later earlier : List Flow.Event}

/-- What has happened since a flow stood somewhere, the latest first, and where it stands now. -/
inductive Trail (k : Coordinator) (f₀ : Flow) : List Flow.Event → Flow → Prop
  /-- Nothing has happened. -/
  | start : Trail k f₀ [] f₀
  /-- The code of the flow acted once more. -/
  | act {es : List Flow.Event} {f : Flow} (h : Trail k f₀ es f) (a : Act) :
      Trail k f₀ ((f.act k a).1 :: es) (f.act k a).2

/-- Whatever the acts are, they leave a trail. -/
theorem trail_acts (k : Coordinator) (f : Flow) (as : List Act) :
    Trail k f (f.acts k as).1 (f.acts k as).2 := by
  have along (as : List Act) (es : List Flow.Event) (g : Flow) (h : Trail k f es g) :
      let r := as.foldl (fun (es, f) a => ((f.act k a).1 :: es, (f.act k a).2)) (es, g)
      Trail k f r.1 r.2 := by
    induction as generalizing es g with
    | nil => exact h
    | cons a as ih => exact ih _ _ (h.act a)
  exact along as [] f .start

/-- A trail leads through all the flows on the way. -/
theorem Trail.split (h : Trail k f₀ (later ++ earlier) f) :
    ∃ f₁, Trail k f₀ earlier f₁ ∧ Trail k f₁ later f := by
  induction later generalizing f with
  | nil => exact ⟨f, h, .start⟩
  | cons e later ih =>
    cases h with
    | act h a =>
      obtain ⟨f₁, h₁, h₂⟩ := ih h
      exact ⟨f₁, h₁, h₂.act a⟩

/-- Trails go on where others ended. -/
theorem Trail.append (h : Trail k f₀ earlier f₁) (h' : Trail k f₁ later f) :
    Trail k f₀ (later ++ earlier) f := by
  induction h' with
  | start => exact h
  | act _ a ih => exact ih.act a

/-! ### What an act can do -/

/-- All that an act can do, with the event that it leaves. -/
inductive Move (k : Coordinator) : Flow → Flow.Event → Flow → Prop
  | begun {d : TransactionDefinition} {w w₁ : World} {live : List TransactionScope}
      {p : Participation} (h : Entry k d w (.ok p) w₁) :
      Move k ⟨w, live⟩ (.begun ⟨p, w.nextContext⟩) ⟨w₁.inScope p, ⟨p, w.nextContext⟩ :: live⟩
  | refused {d : TransactionDefinition} {w w₁ : World} {live : List TransactionScope} {e : Error}
      (h : Entry k d w (.error e) w₁) : Move k ⟨w, live⟩ .nothing ⟨w₁, live⟩
  /-- A write is taken. -/
  | wrote {w w₁ : World} {live : List TransactionScope} {key : String} {value : Option Value}
      (h : Written k.resource key value w (.ok ()) w₁) :
      Move k ⟨w, live⟩ (.wrote ⟨w.current, key, value⟩ w.currentTransaction) ⟨w₁, live⟩
  | ended {w w₁ : World} {live : List TransactionScope} {s : TransactionScope} {success : Bool}
      {r : Except Error Unit} (hs : s ∈ live)
      (h : k.finish s.participation success (uninstall s.context w).2 = (r, w₁)) :
      Move k ⟨w, live⟩ (.ended s success r.isOk) ⟨w₁, live.erase s⟩
  /-- At most the time changes. -/
  | idle {w : World} {live : List TransactionScope} (now : Nat) :
      Move k ⟨w, live⟩ .nothing ⟨{ w with clock := now }, live⟩

theorem act_move (k : Coordinator) (f : Flow) (a : Act) : Move k f (f.act k a).1 (f.act k a).2 := by
  obtain ⟨w, live⟩ := f
  cases a with
  | begin d =>
    rcases h : k.begin d w with ⟨e | ⟨p, c⟩, w₁⟩
    · simp only [Flow.act, h]
      exact .refused (begin_error h)
    · obtain ⟨w₂, he, hc, rfl⟩ := begin_ok h
      obtain rfl : c = w.nextContext := hc
      simp only [Flow.act, h]
      exact .begun he
  | write key value =>
    rcases h : World.write k.resource key value w with ⟨e | _, w₁⟩
    · simp only [Flow.act, h]
      cases write_eq h with
      | readOnly | notEnlisted => exact .idle w.clock
    · simp only [Flow.act, h]
      exact .wrote (write_eq h)
  | leave s success =>
    by_cases hs : s ∈ live
    · simp only [Flow.act, if_pos hs]
      cases success with
      | true => exact .ended hs rfl
      | false => exact .ended hs rfl
    · simp only [Flow.act, if_neg hs]
      exact .idle w.clock
  | wait ms => exact .idle (w.clock + ms)

/-- What a move does is done by an act. -/
theorem Trail.head (h : Trail k f₀ (e :: es) f) : ∃ f₁, Trail k f₀ es f₁ ∧ Move k f₁ e f := by
  cases h with
  | act h a => exact ⟨_, h, act_move k _ a⟩

/-- What every move keeps holds at the end of a trail. -/
theorem Trail.invariant {P : List Flow.Event → Flow → Prop} (start : P [] f₀)
    (step : ∀ es f e f', Trail k f₀ es f → Trail k f₀ (e :: es) f' → Move k f e f' → P es f →
      P (e :: es) f') (h : Trail k f₀ es f) : P es f := by
  induction h with
  | start => exact start
  | act h a ih => exact step _ _ _ _ h (h.act a) (act_move k _ a) ih

/-! ### The books are kept -/

theorem Move.books (h : Move k f e f') (hb : Books k f.world (owned f.live)) :
    Books k f'.world (owned f'.live) := by
  cases h with
  | begun h =>
    rw [owned_cons]
    exact books_congr (h.books hb).1 (by simp) (by simp)
  | refused h => exact (h.books hb).1
  | wrote h => exact Written.books h hb
  | ended hs h => exact (finish_books h (uninstall_books hs hb)).1
  | idle now => exact books_congr hb rfl (by cases k.resource <;> rfl)

/-! ### A flow that starts -/

/-- Nothing has happened yet on a flow, and nothing is going to fail. -/
structure Blank (k : Coordinator) (w : World) : Prop extends Fresh k w where
  faultless : (w.resource k.resource).Faultless
  stackMade : ∀ c ∈ w.stack, c.index < w.contexts.size
  stackOnce : w.stack.Nodup
  unbound : ∀ (i : Nat) ctx t, w.contexts[i]? = some ctx → ctx.binding ≠ some (some t)

theorem Trail.books (h : Trail k ⟨w₀, []⟩ es f) (h₀ : Blank k w₀) :
    Books k f.world (owned f.live) :=
  h.invariant (P := fun _ f => Books k f.world (owned f.live)) h₀.books
    fun _ _ _ _ _ _ hm hb => hm.books hb

/-- Nothing ever fails on the way either. -/
theorem Move.faultless (h : Move k f e f') (hf : (f.world.resource k.resource).Faultless) :
    (f'.world.resource k.resource).Faultless := by
  cases h with
  | begun h => rw [inScope_resource]; exact h.faultless hf
  | refused h => exact h.faultless hf
  | wrote h =>
    cases h with
    | atOnce | pending => rw [setMemory_resource]; exact hf
  | ended hs h => exact (finish_faultless h (by rwa [uninstall_resource])).1
  | idle now => revert hf; cases k.resource <;> exact id

theorem Trail.faultless (h : Trail k ⟨w₀, []⟩ es f) (h₀ : Blank k w₀) :
    (f.world.resource k.resource).Faultless :=
  h.invariant (P := fun _ f => (f.world.resource k.resource).Faultless) h₀.faultless
    fun _ _ _ _ _ _ hm hf => hm.faultless hf

/-! ### The order of events -/

/-- What is looked up in a context stands in some context. -/
theorem lookup_mem {α : Type} {cs : Contexts} {g : Context → Option α} {c : ContextId} {a : α}
    (h : cs.lookup g c = some a) :
    ∃ (i : Nat) (ctx : Context), cs[i]? = some ctx ∧ g ctx = some a := by
  obtain ⟨i⟩ := c
  -- Parents have smaller indices.
  induction i using Nat.strongRecOn with
  | ind i ih =>
    unfold Contexts.lookup at h
    cases hi : cs[i]? with
    | none => simp [hi] at h
    | some ctx =>
      cases hg : g ctx with
      | some b =>
        simp only [hi, hg] at h
        exact ⟨i, ctx, hi, hg.trans h⟩
      | none =>
        cases hp : ctx.parent with
        | none => simp [hi, hg, hp] at h
        | some q =>
          simp only [hi, hg, hp] at h
          split at h
          · next hlt => exact ih q.index hlt h
          · cases h

/-- A log is in order, and the flow that it led to is in order with it. -/
structure Chronicle (es : List Flow.Event) (f : Flow) : Prop where
  /-- Contexts that are installed were made. -/
  stackMade : ∀ c ∈ f.world.stack, c.index < f.world.contexts.size
  /-- No context is installed twice. -/
  stackOnce : f.world.stack.Nodup
  /-- Contexts are bound to transactions that were begun. -/
  bound : ∀ (i : Nat) ctx t, f.world.contexts[i]? = some ctx → ctx.binding = some (some t) →
    t.index < f.world.transactions.size
  /-- The log is about contexts that were made. -/
  made : ∀ e ∈ es, ∀ c, e.context = some c → c.index < f.world.contexts.size
  /-- The log is about transactions that were begun. -/
  known : ∀ e ∈ es, ∀ t, e.transaction = some t → t.index < f.world.transactions.size
  begun : ∀ s ∈ f.live, .begun s ∈ es
  /-- Live scopes have contexts of their own. -/
  apart : (f.live.map (·.context)).Nodup
  /-- A scope that was begun is live until it ends. -/
  accounted : ∀ s, .begun s ∈ es → s ∈ f.live ∨ ∃ success told, .ended s success told ∈ es
  /-- The context of a scope that ended is not installed, and no live scope has it. -/
  ended : ∀ s success told, .ended s success told ∈ es →
    s.context ∉ f.world.stack ∧ ∀ s' ∈ f.live, s'.context ≠ s.context
  /-- Contexts are heard of from the begin of their scope to its end. -/
  order : es.Pairwise Flow.Event.MayFollow

namespace Chronicle

theorem start (h : Blank k w) : Chronicle [] ⟨w, []⟩ where
  stackMade := h.stackMade
  stackOnce := h.stackOnce
  bound i ctx t hi ht := absurd ht (h.unbound i ctx t hi)
  made := by simp
  known := by simp
  begun := by simp
  apart := List.nodup_nil
  accounted := by simp
  ended := by simp
  order := .nil

/-- The current transaction was begun. -/
theorem current_known (h : Chronicle es f) (ht : f.world.currentTransaction = some t) :
    t.index < f.world.transactions.size := by
  obtain ⟨c, _, ht⟩ := Option.bind_eq_some_iff.mp ht
  obtain ⟨binding, hl, rfl⟩ := Option.bind_eq_some_iff.mp ht
  obtain ⟨i, ctx, hi, hb⟩ := lookup_mem hl
  exact h.bound i ctx t hi hb

theorem live_once (h : Chronicle es f) : f.live.Nodup := h.apart.of_map

/-- Where nothing of note happened and contexts and records stay, the log goes on. -/
theorem quiet (h : Chronicle es f) (hl : f'.live = f.live)
    (hc : f'.world.contexts = f.world.contexts) (hs : f'.world.stack = f.world.stack)
    (ht : f.world.transactions.size ≤ f'.world.transactions.size) :
    Chronicle (.nothing :: es) f' where
  stackMade := by rw [hs, hc]; exact h.stackMade
  stackOnce := by rw [hs]; exact h.stackOnce
  bound := by rw [hc]; exact fun i ctx t hi hb => Nat.lt_of_lt_of_le (h.bound i ctx t hi hb) ht
  made := by
    rw [hc]
    rintro e (_ | ⟨_, he⟩) c hec
    · cases hec
    · exact h.made e he c hec
  known := by
    rintro e (_ | ⟨_, he⟩) t het
    · cases het
    · exact Nat.lt_of_lt_of_le (h.known e he t het) ht
  begun := by rw [hl]; exact fun s hm => List.mem_cons_of_mem _ (h.begun s hm)
  apart := by rw [hl]; exact h.apart
  accounted := by
    intro s hm
    rw [hl]
    rcases h.accounted s (by simpa using hm) with hm | ⟨x, y, hm⟩
    · exact .inl hm
    · exact .inr ⟨x, y, List.mem_cons_of_mem _ hm⟩
  ended := by
    intro s x y hm
    rw [hs, hl]
    exact h.ended s x y (by simpa using hm)
  order := List.pairwise_cons.mpr ⟨fun e _ => ⟨by simp, by simp [Flow.Event.context]⟩, h.order⟩

end Chronicle

/-- Records are never taken away. -/
theorem Entry.size_le {r : Except Error Participation} (h : Entry k d w r w') :
    w.transactions.size ≤ w'.transactions.size := by
  have added {w w' : World} {c : Call} {res : Except Error Unit}
      (h : call k.resource c (addTransaction d w).2 = (res, w')) :
      w.transactions.size ≤ w'.transactions.size := by
    rw [call_size h, addTransaction_size]
    exact Nat.le_succ _
  cases h with
  | mandatory | without | never | expired | conflict | joined => exact Nat.le_refl _
  | opened _ _ hb | notOpened _ _ hb => exact added hb
  | notSuspended _ _ hs | suspended _ _ hs => exact Nat.le_of_eq (call_size hs).symm
  | openedApart _ _ hs hb => exact Nat.le_trans (Nat.le_of_eq (call_size hs).symm) (added hb)
  | notOpenedApart _ _ hs hb hr =>
    rw [call_size hr]
    exact Nat.le_trans (Nat.le_of_eq (call_size hs).symm) (added hb)
  | nested _ _ _ hs | notNested _ _ _ hs =>
    exact Nat.le_of_eq ((call_size hs).trans nextSavepoint_size).symm

/-- A scope takes part in the current transaction, or in one that was begun for it. -/
theorem Entry.transaction_known {p : Participation} (h : Entry k d w (.ok p) w')
    (hc : (w.resource k.resource).FailsCleanly)
    (hw : ∀ t, w.currentTransaction = some t → t.index < w.transactions.size)
    (ht : p.transaction = some t) : t.index < w'.transactions.size := by
  -- A transaction that is taken part in was current, and so on record; one that is owned is new.
  cases p with
  | owner t' outer =>
    cases ht
    obtain ⟨_, opened⟩ := h.owner hc
    exact transaction?_isSome.mp (by rw [opened.record]; rfl)
  | joined t' =>
    cases ht
    exact Nat.lt_of_lt_of_le (hw t h.joined_eq.1) h.size_le
  | nested t' name mark =>
    cases ht
    exact Nat.lt_of_lt_of_le (hw t h.nested_current) h.size_le
  | apart outer => cases ht

namespace Chronicle

theorem begun_scope {live : List TransactionScope} {p : Participation} {w₁ : World}
    (h : Chronicle es ⟨w, live⟩) (hc : (w.resource k.resource).FailsCleanly)
    (he : Entry k d w (.ok p) w₁) :
    Chronicle (.begun ⟨p, w.nextContext⟩ :: es)
      ⟨w₁.inScope p, ⟨p, w.nextContext⟩ :: live⟩ := by
  have same := he.sameFlow
  have next : w₁.nextContext = w.nextContext := by rw [nextContext, same.contexts, nextContext]
  have stack : (w₁.inScope p).stack = w.nextContext :: w.stack := by
    rw [inScope_stack, next, same.stack]
  have size : (w₁.inScope p).contexts.size = w.contexts.size + 1 := by
    rw [inScope_contexts, Array.size_push, same.contexts]
  have known : ∀ t, p.transaction = some t → t.index < w₁.transactions.size := fun t ht =>
    he.transaction_known hc (fun t => h.current_known) ht
  -- The context of the scope is new: neither the log nor the flow has heard of it.
  have fresh {c : ContextId} (hlt : c.index < w.contexts.size) : w.nextContext ≠ c := by
    rintro rfl
    exact absurd hlt (Nat.lt_irrefl _)
  have made : ∀ e ∈ es, ∀ c, e.context = some c → c.index < w.contexts.size := h.made
  constructor
  case stackMade =>
    rw [stack, size]
    intro c hm
    rcases List.mem_cons.mp hm with rfl | hm
    · exact Nat.lt_succ_self _
    · exact Nat.lt_succ_of_lt (h.stackMade c hm)
  case stackOnce =>
    rw [stack]
    exact List.nodup_cons.mpr ⟨fun hm => fresh (h.stackMade _ hm) rfl, h.stackOnce⟩
  case bound =>
    intro i ctx t hi hb
    show t.index < w₁.transactions.size
    have hi : (w₁.inScope p).contexts[i]? = some ctx := hi
    rw [inScope_contexts, Array.getElem?_push] at hi
    split at hi
    · cases hi
      exact known t (Option.some.inj hb)
    · rw [same.contexts] at hi
      exact Nat.lt_of_lt_of_le (h.bound i ctx t hi hb) he.size_le
  case made =>
    rw [size]
    intro e hm c hec
    rcases List.mem_cons.mp hm with rfl | hm
    · cases hec
      exact Nat.lt_succ_self _
    · exact Nat.lt_succ_of_lt (made e hm c hec)
  case known =>
    intro e hm t het
    show t.index < w₁.transactions.size
    rcases List.mem_cons.mp hm with rfl | hm
    · exact known t het
    · exact Nat.lt_of_lt_of_le (h.known e hm t het) he.size_le
  case begun =>
    intro s hm
    rcases List.mem_cons.mp hm with rfl | hm
    · exact List.mem_cons_self
    · exact List.mem_cons_of_mem _ (h.begun s hm)
  case apart =>
    refine List.nodup_cons.mpr ⟨?_, h.apart⟩
    intro hm
    obtain ⟨s, hs, he⟩ := List.mem_map.mp hm
    exact fresh (made _ (h.begun s hs) _ rfl) he.symm
  case accounted =>
    intro s hm
    rcases List.mem_cons.mp hm with hs | hm
    · cases hs
      exact .inl List.mem_cons_self
    · rcases h.accounted s hm with hm | ⟨x, y, hm⟩
      · exact .inl (List.mem_cons_of_mem _ hm)
      · exact .inr ⟨x, y, List.mem_cons_of_mem _ hm⟩
  case ended =>
    intro s x y hm
    have hm : .ended s x y ∈ es := by simpa using hm
    obtain ⟨hstack, hlive⟩ := h.ended s x y hm
    have hne := fresh (made _ hm _ rfl)
    rw [stack]
    refine ⟨?_, ?_⟩
    · exact fun hs => (List.mem_cons.mp hs).elim (fun he => hne he.symm) hstack
    · intro s' hs'
      rcases List.mem_cons.mp hs' with rfl | hs'
      · exact hne
      · exact hlive s' hs'
  case order =>
    refine List.pairwise_cons.mpr ⟨?_, h.order⟩
    intro e hm
    refine ⟨?_, ?_⟩
    · rintro s hs hec
      cases hs
      exact fresh (made e hm _ hec) rfl
    · rintro s x y rfl hec
      exact fresh (made _ hm _ rfl) (Option.some.inj hec)

theorem wrote_record {live : List TransactionScope} {key : String} {value : Option Value}
    {w₁ : World} (h : Chronicle es ⟨w, live⟩)
    (hw : Written k.resource key value w (.ok ()) w₁) :
    Chronicle (.wrote ⟨w.current, key, value⟩ w.currentTransaction :: es) ⟨w₁, live⟩ := by
  have same := hw.sameFlow
  have size := congrArg Array.size hw.transactions
  constructor
  case stackMade =>
    rw [same.stack, same.contexts]
    exact h.stackMade
  case stackOnce =>
    rw [same.stack]
    exact h.stackOnce
  case bound =>
    rw [same.contexts, size]
    exact h.bound
  case made =>
    rw [same.contexts]
    intro e hm c hec
    rcases List.mem_cons.mp hm with rfl | hm
    · exact h.stackMade c (List.mem_of_mem_head? hec)
    · exact h.made e hm c hec
  case known =>
    rw [size]
    intro e hm t het
    rcases List.mem_cons.mp hm with rfl | hm
    · exact h.current_known het
    · exact h.known e hm t het
  case begun => exact fun s hm => List.mem_cons_of_mem _ (h.begun s hm)
  case apart => exact h.apart
  case accounted =>
    intro s hm
    rcases h.accounted s (by simpa using hm) with hm | ⟨x, y, hm⟩
    · exact .inl hm
    · exact .inr ⟨x, y, List.mem_cons_of_mem _ hm⟩
  case ended =>
    intro s x y hm
    rw [same.stack]
    exact h.ended s x y (by simpa using hm)
  case order =>
    refine List.pairwise_cons.mpr ⟨?_, h.order⟩
    intro e hm
    refine ⟨by simp, ?_⟩
    rintro s x y rfl hec
    exact (h.ended s x y hm).1 (List.mem_of_mem_head? hec)

theorem ended_scope {live : List TransactionScope} {s : TransactionScope} {success told : Bool}
    {w₁ : World} (h : Chronicle es ⟨w, live⟩) (hs : s ∈ live)
    (hf : SameFlow (uninstall s.context w).2 w₁)
    (hsize : w₁.transactions.size = w.transactions.size) :
    Chronicle (.ended s success told :: es) ⟨w₁, live.erase s⟩ := by
  have stack : w₁.stack = w.stack.erase s.context := hf.stack
  have contexts : w₁.contexts = w.contexts := hf.contexts
  have begun := h.begun s hs
  have others {s' : TransactionScope} (hs' : s' ∈ live.erase s) : s' ∈ live ∧ s' ≠ s :=
    ⟨List.mem_of_mem_erase hs', fun he => h.live_once.not_mem_erase (he ▸ hs')⟩
  -- No other live scope has the context of this one.
  have unique {s' : TransactionScope} (hs' : s' ∈ live.erase s) : s'.context ≠ s.context := by
    obtain ⟨hm, hne⟩ := others hs'
    exact fun hc => hne (List.inj_on_of_nodup_map h.apart hm hs hc)
  constructor
  case stackMade =>
    rw [stack, contexts]
    exact fun c hm => h.stackMade c (List.mem_of_mem_erase hm)
  case stackOnce =>
    rw [stack]
    exact h.stackOnce.erase _
  case bound =>
    rw [contexts, hsize]
    exact h.bound
  case made =>
    rw [contexts]
    intro e hm c hec
    rcases List.mem_cons.mp hm with rfl | hm
    · exact h.made _ begun c hec
    · exact h.made e hm c hec
  case known =>
    rw [hsize]
    intro e hm t het
    rcases List.mem_cons.mp hm with rfl | hm
    · exact h.known _ begun t het
    · exact h.known e hm t het
  case begun => exact fun s' hm => List.mem_cons_of_mem _ (h.begun s' (others hm).1)
  case apart => exact h.apart.sublist (List.erase_sublist.map _)
  case accounted =>
    intro s' hm
    by_cases he : s' = s
    · exact .inr ⟨success, told, by rw [he]; exact List.mem_cons_self⟩
    · rcases h.accounted s' (by simpa using hm) with hm | ⟨x, y, hm⟩
      · exact .inl ((List.mem_erase_of_ne he).mpr hm)
      · exact .inr ⟨x, y, List.mem_cons_of_mem _ hm⟩
  case ended =>
    intro s' x y hm
    rw [stack]
    rcases List.mem_cons.mp hm with he | hm
    · cases he
      exact ⟨h.stackOnce.not_mem_erase, fun s'' => unique⟩
    · obtain ⟨hstack, hlive⟩ := h.ended s' x y hm
      exact ⟨fun hm => hstack (List.mem_of_mem_erase hm), fun s'' hm => hlive s'' (others hm).1⟩
  case order =>
    refine List.pairwise_cons.mpr ⟨?_, h.order⟩
    intro e hm
    refine ⟨by simp, ?_⟩
    rintro s' x y rfl hec
    exact (h.ended s' x y hm).2 s hs (Option.some.inj hec)

end Chronicle

/-- Every log is in order. -/
theorem Trail.chronicle (h : Trail k ⟨w₀, []⟩ es f) (h₀ : Blank k w₀) : Chronicle es f := by
  refine h.invariant (P := Chronicle) (.start h₀) ?_
  intro es f e f' ht _ hm hc
  have clean := (ht.faultless h₀).failsCleanly
  -- What is refused and what is idle leaves live scopes and contexts as they are.
  cases hm with
  | begun he => exact hc.begun_scope clean he
  | refused he =>
    exact hc.quiet rfl he.sameFlow.contexts he.sameFlow.stack he.size_le
  | wrote hw => exact hc.wrote_record hw
  | ended hs hf =>
    obtain ⟨ended, same⟩ := finish_ended hf (by rwa [uninstall_resource])
    exact hc.ended_scope hs same ended.size
  | idle now => exact hc.quiet rfl rfl rfl (Nat.le_refl _)

end Coordinator

end ComponentHost
