import ComponentHost.Proofs.Data.Splits
import ComponentHost.Proofs.Invocation.Watched

/-! # The law of a chain

  Whatever filters do, a chain runs its links in their order, each at most once: the first link
  always, and every other one only when the filter before it passes the call on for the first time.
  A filter that passes it on again is refused, and nothing runs. A link starts on the arguments as
  successful replacements have left them so far.

  `Course` describes the log of one link from its start to its end, with the log of the next link in
  it where the filter passed the call on. `Lawful` says the law of a whole log, place by place, and
  `execution_lawful` that every execution keeps it.
-/

namespace ComponentHost

/-! ### Arguments along a log -/

namespace Sighting

/-- A replacement that succeeded puts its value in place. Nothing else changes arguments. -/
def onArguments (args : Arguments) : Sighting → Arguments
  | replaced _ i (some v) (.ok ()) => { args with values := args.values.set i v }
  | _ => args

end Sighting

namespace Arguments

def after (args : Arguments) (log : List Sighting) : Arguments :=
  log.foldl Sighting.onArguments args

theorem after_append (args : Arguments) (log log' : List Sighting) :
    args.after (log ++ log') = (args.after log).after log' := List.foldl_append

theorem after_replaced {args args' : Arguments} {link i : Nat} {v : Option Value}
    (h : args.set i v = .ok args') (log : List Sighting) :
    args.after (.replaced link i v (.ok ()) :: log) = args'.after log := by
  cases v with
  | none => cases h
  | some v =>
    simp only [set] at h
    split at h
    · cases h
      rfl
    · cases h

theorem after_notReplaced (args : Arguments) (link i : Nat) (v : Option Value) (e : Error)
    (log : List Sighting) :
    args.after (.replaced link i v (.error e) :: log) = args.after log := by
  cases v <;> rfl

end Arguments

namespace Chain

variable {σ : Type} {signature : MethodSignature} {n i j : Nat} {used : Bool}
  {args args' : Arguments} {log before after : List Sighting} {r : Except Stop Value}

/-! ### The course of one link -/

/-- What a filter is told when it passes the call on again. -/
def refusal (signature : MethodSignature) (link : Nat) : Except Stop Value :=
  .error (.ofError (.chainReentry signature.display (link + 1)))

/-- What is seen of a link after its start and up to its end, in a chain of `n` filters. `used` says
    that it has passed the call on before; the arguments are those at the start and at the end. -/
inductive Course (signature : MethodSignature) (n : Nat) :
    Nat → Bool → Arguments → List Sighting → Except Stop Value → Arguments → Prop
  /-- It ends. -/
  | ended {i : Nat} {used : Bool} {args : Arguments} (hi : i ≤ n) (r : Except Stop Value) :
      Course signature n i used args [.ended i r] r args
  /-- It passes the call on for the first time, and the next link runs. -/
  | passed {i : Nat} {args args₁ args₂ : Arguments} {inner outer : List Sighting}
      {r₁ r : Except Stop Value} (hi : i < n)
      (next : Course signature n (i + 1) false args inner r₁ args₁)
      (rest : Course signature n i true args₁ outer r args₂) :
      Course signature n i false args
        (.asked i :: .started (i + 1) args :: (inner ++ .answered i r₁ :: outer)) r args₂
  /-- It passes the call on again, and is refused. -/
  | refused {i : Nat} {args args₁ : Arguments} {outer : List Sighting} {r : Except Stop Value}
      (hi : i < n) (rest : Course signature n i true args outer r args₁) :
      Course signature n i true args
        (.asked i :: .answered i (refusal signature i) :: outer) r args₁
  | replaced {i j : Nat} {v : Option Value} {used : Bool} {args args₁ args₂ : Arguments}
      {outer : List Sighting} {r : Except Stop Value} (hi : i < n) (h : args.set j v = .ok args₁)
      (rest : Course signature n i used args₁ outer r args₂) :
      Course signature n i used args (.replaced i j v (.ok ()) :: outer) r args₂
  /-- It tries to replace an argument, and fails. -/
  | notReplaced {i j : Nat} {v : Option Value} {used : Bool} {args args₁ : Arguments} {e : Error}
      {outer : List Sighting} {r : Except Stop Value} (hi : i < n) (h : args.set j v = .error e)
      (rest : Course signature n i used args outer r args₁) :
      Course signature n i used args (.replaced i j v (.error e) :: outer) r args₁

/-- The rest of a chain, from a link on: on every state it adds to the log the start of the link and
    its course. -/
def Keeps (signature : MethodSignature) (n i : Nat) (c : Continuation (Watched σ)) : Prop :=
  ∀ args w, ∃ log, (c args w).2.log = w.log ++ .started i args :: log ∧
    Course signature n i false args log (c args w).1.1 (c args w).1.2

/-- A filter whose chain goes on lawfully takes its course. -/
theorem serve_course (link : Link) {next : Continuation (Watched σ)} (hp : link.position = i + 1)
    (hi : i < n) (hnext : Keeps signature n (i + 1) next) (used : Bool) (args : Arguments)
    (tree : Interception σ (Except Stop Value)) (seen : List Sighting) :
    ∃ log, (serve signature link next used args (tree.watched i seen)).2.log = seen ++ log ∧
      Course signature n i used args log
        (serve signature link next used args (tree.watched i seen)).1.1
        (serve signature link next used args (tree.watched i seen)).1.2 := by
  induction tree generalizing used args seen with
  | done r s => exact ⟨_, rfl, .ended (Nat.le_of_lt hi) r⟩
  | ask request s resume ih =>
    cases request with
    | arguments | link => exact ih _ _ _ _ _
    | replaceArgument j v =>
      simp only [Interception.watched, serve]
      cases h : args.set j v with
      | ok args₁ =>
        obtain ⟨log, hlog, course⟩ := ih (.ok ()) s used args₁ (seen ++ [.replaced i j v (.ok ())])
        exact ⟨_, by rw [hlog, List.append_assoc, List.singleton_append], .replaced hi h course⟩
      -- A replacement that is refused is seen too, and leaves the arguments.
      | error e =>
        obtain ⟨log, hlog, course⟩ := ih (.error e) s used args
          (seen ++ [.replaced i j v (.error e)])
        exact ⟨_, by rw [hlog, List.append_assoc, List.singleton_append], .notReplaced hi h course⟩
    | proceed =>
      cases used with
      | true =>
        -- The link has been used, so the rest of the chain is not reached again.
        simp only [Interception.watched, serve, hp]
        obtain ⟨log, hlog, course⟩ := ih (refusal signature i) s true args
          (seen ++ [.asked i] ++ [.answered i (refusal signature i)])
        exact ⟨_, by rw [refusal] at hlog; rw [hlog]; simp [refusal], .refused hi course⟩
      | false =>
        -- The rest of the chain is watched in its turn, and then this filter goes on.
        obtain ⟨inner, hinner, course⟩ := hnext args ⟨s, seen ++ [.asked i]⟩
        rcases hn : next args ⟨s, seen ++ [.asked i]⟩ with ⟨⟨r₁, args₁⟩, w₁⟩
        rw [hn] at hinner course
        obtain ⟨outer, houter, rest⟩ := ih r₁ w₁.state true args₁ (w₁.log ++ [.answered i r₁])
        simp only [Interception.watched, serve, hn]
        exact ⟨_, by rw [houter, hinner]; simp, .passed hi course rest⟩

/-- From every link on, a watched chain takes its course. -/
theorem proceed_keeps (signature : MethodSignature) (invoker : Invoker σ)
    (filters : List (Filter σ)) (h : i + filters.length = n) :
    Keeps signature n i (proceed signature (invoker.watched n) i (watchFrom i filters)) := by
  induction filters generalizing i with
  -- Behind the last filter the invoker runs and nothing else is seen.
  | nil =>
    intro args w
    have hi : i = n := by simpa using h
    exact ⟨_, by subst hi; rfl, .ended (Nat.le_of_eq hi) _⟩
  | cons f rest ih =>
    rw [List.length_cons] at h
    intro args w
    have hnext := ih (i := i + 1) (by omega)
    obtain ⟨log, hlog, course⟩ := serve_course ⟨i + 1, rest.length⟩ rfl (by omega) hnext
      false args (f.invoke signature w.state) (w.log ++ [.started i args])
    rw [← length_watchFrom (i + 1)] at hlog course
    exact ⟨log, by rw [List.append_assoc] at hlog; exact hlog, course⟩

/-! ### What courses have in common -/

namespace Course

/-- The last thing seen of a link is its end. -/
theorem ends (h : Course signature n i used args log r args') : [.ended i r] <:+ log := by
  induction h with
  | ended hi r => exact List.suffix_refl _
  | @passed i _ _ _ inner outer r₁ _ hi next rest ihn ih =>
    have answered : outer <:+ inner ++ .answered i r₁ :: outer :=
      (List.suffix_cons _ _).trans (List.suffix_append _ _)
    exact ((ih.trans answered).trans (List.suffix_cons _ _)).trans (List.suffix_cons _ _)
  | refused hi rest ih => exact (ih.trans (List.suffix_cons _ _)).trans (List.suffix_cons _ _)
  | replaced hi h rest ih | notReplaced hi h rest ih => exact ih.trans (List.suffix_cons _ _)

/-- Only the link itself and later ones are seen, and only the link itself once it has passed the
    call on. -/
theorem link_le (h : Course signature n i used args log r args') {e : Sighting} (he : e ∈ log) :
    i ≤ e.link ∧ (used = true → e.link = i) := by
  -- What a link leads to bears the next number; what it does itself bears its own.
  induction h with
  | ended hi r => simp_all [Sighting.link]
  | passed hi next rest ihn ih =>
    rcases List.mem_cons.mp he with rfl | he
    · simp [Sighting.link]
    · rcases List.mem_cons.mp he with rfl | he
      · simp [Sighting.link]
      · rcases List.mem_append.mp he with he | he
        · have := (ihn he).1
          exact ⟨by omega, by simp⟩
        · rcases List.mem_cons.mp he with rfl | he
          · simp [Sighting.link]
          · exact ⟨(ih he).1, by simp⟩
  | refused hi rest ih =>
    rcases List.mem_cons.mp he with rfl | he
    · simp [Sighting.link]
    · rcases List.mem_cons.mp he with rfl | he
      · simp [Sighting.link]
      · exact ih he
  | replaced hi h rest ih | notReplaced hi h rest ih =>
    rcases List.mem_cons.mp he with rfl | he
    · simp [Sighting.link]
    · exact ih he

/-- A link that has passed the call on starts no other. -/
theorem not_started (h : Course signature n i true args log r args') (a : Arguments) :
    .started j a ∉ log := by
  generalize hu : true = used at h
  induction h with
  | ended | refused | replaced | notReplaced => simp_all
  | passed => cases hu

/-- The links that are started on the way are the next ones, in order. -/
theorem starts (h : Course signature n i used args log r args') :
    ∃ m, i + m ≤ n ∧ log.filterMap Sighting.start? = List.range' (i + 1) m := by
  induction h with
  | ended hi r => exact ⟨0, hi, rfl⟩
  | @passed i _ _ _ inner outer _ _ hi next rest ihn ih =>
    -- Only proceeding starts the next link, and after the answer nothing is started any more.
    obtain ⟨m, hm, hinner⟩ := ihn
    have houter : outer.filterMap Sighting.start? = [] := by
      refine List.filterMap_eq_nil_iff.mpr ?_
      intro e he
      cases e with
      | started j a => exact absurd he (rest.not_started a)
      | ended | asked | answered | replaced => rfl
    refine ⟨m + 1, by omega, ?_⟩
    simp [List.filterMap_cons, Sighting.start?, hinner, houter, List.range'_succ]
  | refused hi rest ih | replaced hi h rest ih | notReplaced hi h rest ih => exact ih

/-- At its end a link has the arguments that its own and later replacements have left. -/
theorem after_eq (h : Course signature n i used args log r args') : args' = args.after log := by
  induction h with
  | ended hi r => rfl
  | @passed i args args₁ args₂ inner outer r₁ r hi next rest ihn ih =>
    show args₂ = args.after (inner ++ .answered i r₁ :: outer)
    rw [Arguments.after_append, ← ihn]
    exact ih
  | refused hi rest ih => exact ih
  | replaced hi h rest ih => rw [Arguments.after_replaced h]; exact ih
  | notReplaced hi h rest ih => rw [Arguments.after_notReplaced]; exact ih

end Course

/-! ### The law, place by place -/

/-- The call has just been passed on for the first time by the filter at a link: the next link runs
    from its start to its end, nothing before it is seen meanwhile, and the filter is told how it
    ended. -/
def RunsNext (link : Nat) (after : List Sighting) : Prop :=
  ∃ args inner r rest,
    after = .started (link + 1) args :: (inner ++ .ended (link + 1) r :: .answered link r :: rest) ∧
      ∀ e ∈ inner, link < e.link

/-- The call has just been passed on again by the filter at a link: the filter is refused at
    once. -/
def IsRefused (signature : MethodSignature) (link : Nat) (after : List Sighting) : Prop :=
  ∃ rest, after = .answered link (refusal signature link) :: rest

theorem RunsNext.append (h : RunsNext i after) (more : List Sighting) :
    RunsNext i (after ++ more) := by
  obtain ⟨args, inner, r, rest, rfl, hl⟩ := h
  exact ⟨args, inner, r, rest ++ more, by simp, hl⟩

theorem IsRefused.append (h : IsRefused signature i after) (more : List Sighting) :
    IsRefused signature i (after ++ more) := by
  obtain ⟨rest, rfl⟩ := h
  exact ⟨rest ++ more, by simp⟩

/-- The law of the log of one execution, in a chain of `n` filters. -/
structure Lawful (signature : MethodSignature) (n : Nat) (args : Arguments)
    (log : List Sighting) : Prop where
  /-- The links that run are the first ones, each of them once and in order; the first of all always
      runs. -/
  order : ∃ m, 0 < m ∧ m ≤ n + 1 ∧ log.filterMap Sighting.start? = List.range m
  /-- A link other than the first starts just when the filter before it has passed the call on,
      while that filter is at work. -/
  within : ∀ before j a after, log = before ++ .started (j + 1) a :: after →
    [.asked j] <:+ before ∧ (∃ a', .started j a' ∈ before) ∧ ∀ r, .ended j r ∉ before
  /-- A filter that passes the call on for the first time runs the next link. -/
  first : ∀ before j after, log = before ++ .asked j :: after → .asked j ∉ before →
    RunsNext j after
  /-- A filter that passes the call on again is refused, and nothing runs. -/
  again : ∀ before j after, log = before ++ .asked j :: after → .asked j ∈ before →
    IsRefused signature j after
  /-- Every link, the invoker too, starts on the arguments as they have been left so far. -/
  arguments : ∀ before j a after, log = before ++ .started j a :: after → a = args.after before
  /-- A replacement succeeds just if its value can be written and its place is there. -/
  replacements : ∀ before j i v reply after, log = before ++ .replaced j i v reply :: after →
    reply = ((args.after before).set i v).map fun _ => ()

namespace Course

/-- Where a place of a course stands in which the call is passed on first: at the two ends of the
    next link's run, within it, or after it. -/
theorem passed_place {e : Sighting} {a : Arguments} {inner outer : List Sighting}
    (hl : .asked i :: .started (i + 1) a :: (inner ++ .answered i r :: outer)
      = before ++ e :: after) :
    (before = [] ∧ e = .asked i ∧
        after = .started (i + 1) a :: (inner ++ .answered i r :: outer)) ∨
      (before = [.asked i] ∧ e = .started (i + 1) a) ∨
      (∃ pre post, before = .asked i :: .started (i + 1) a :: pre ∧ inner = pre ++ e :: post ∧
        after = post ++ .answered i r :: outer) ∨
      (before = .asked i :: .started (i + 1) a :: inner ∧ e = .answered i r) ∨
      ∃ pre, before = .asked i :: .started (i + 1) a :: (inner ++ .answered i r :: pre) ∧
        outer = pre ++ e :: after := by
  -- The log is taken apart from its front: is this the place, or does it lie further on?
  rcases cons_eq_split hl with ⟨rfl, rfl, rfl⟩ | ⟨rest, rfl, hl₁⟩
  · exact .inl ⟨rfl, rfl, rfl⟩
  rcases cons_eq_split hl₁ with ⟨rfl, rfl, _⟩ | ⟨rest, rfl, hl₂⟩
  · exact .inr (.inl ⟨rfl, rfl⟩)
  rcases append_eq_split hl₂ with ⟨post, hinner, rfl⟩ | ⟨rest, rfl, hl₃⟩
  · exact .inr (.inr (.inl ⟨_, post, rfl, hinner, rfl⟩))
  rcases cons_eq_split hl₃ with ⟨rfl, rfl, _⟩ | ⟨pre, rfl, houter⟩
  · exact .inr (.inr (.inr (.inl ⟨by simp, rfl⟩)))
  · exact .inr (.inr (.inr (.inr ⟨pre, rfl, houter⟩)))

/-- The same for a course in which the call is passed on again. -/
theorem refused_place {e : Sighting} {outer : List Sighting}
    (hl : .asked i :: .answered i (refusal signature i) :: outer = before ++ e :: after) :
    (before = [] ∧ e = .asked i ∧ after = .answered i (refusal signature i) :: outer) ∨
      (before = [.asked i] ∧ e = .answered i (refusal signature i)) ∨
      ∃ pre, before = .asked i :: .answered i (refusal signature i) :: pre ∧
        outer = pre ++ e :: after := by
  rcases cons_eq_split hl with ⟨rfl, rfl, rfl⟩ | ⟨rest, rfl, hl₁⟩
  · exact .inl ⟨rfl, rfl, rfl⟩
  rcases cons_eq_split hl₁ with ⟨rfl, rfl, _⟩ | ⟨pre, rfl, houter⟩
  · exact .inr (.inl ⟨rfl, rfl⟩)
  · exact .inr (.inr ⟨pre, rfl, houter⟩)

theorem ended_place {e : Sighting} (hl : [.ended i r] = before ++ e :: after) : e = .ended i r := by
  rcases cons_eq_split hl with ⟨_, rfl, _⟩ | ⟨mid, _, hl⟩
  · rfl
  · simp at hl

/-- Other links start within the course just after a filter has passed the call on, which has not
    ended then. The start of the link itself lies before its course. -/
theorem within (h : Course signature n i used args log r args') {a : Arguments}
    (hl : log = before ++ .started (j + 1) a :: after) :
    [.asked j] <:+ before ∧ (j = i ∨ ∃ a', .started j a' ∈ before) ∧ ∀ r, .ended j r ∉ before := by
  induction h generalizing before after with
  | ended hi r => cases ended_place hl
  | @passed i _ _ _ inner outer _ _ hi next rest ihn ih =>
    rcases passed_place hl with ⟨_, he, _⟩ | ⟨rfl, he⟩ | ⟨pre, post, rfl, hinner, _⟩ | ⟨_, he⟩ |
      ⟨pre, _, houter⟩
    · cases he
    · cases he
      exact ⟨List.suffix_refl _, .inl rfl, by simp⟩
    · obtain ⟨ha, hs, hn⟩ := ihn hinner
      refine ⟨(ha.trans (List.suffix_cons _ _)).trans (List.suffix_cons _ _), .inr ?_,
        by simpa using hn⟩
      -- The link that passed on to it has just asked, or has started further in.
      rcases hs with rfl | ⟨a', ha'⟩
      · exact ⟨_, List.mem_cons_of_mem _ List.mem_cons_self⟩
      · exact ⟨a', by simp [ha']⟩
    · cases he
    · exact absurd (by simp [houter]) (rest.not_started (j := j + 1) a)
  | refused hi rest ih =>
    rcases refused_place hl with ⟨_, he, _⟩ | ⟨_, he⟩ | ⟨pre, _, houter⟩
    · cases he
    · cases he
    · exact absurd (by simp [houter]) (rest.not_started (j := j + 1) a)
  | replaced hi h rest ih | notReplaced hi h rest ih =>
    rcases cons_eq_split hl with ⟨_, he, _⟩ | ⟨pre, rfl, hrest⟩
    · cases he
    · obtain ⟨ha, hs, hn⟩ := ih hrest
      exact ⟨ha.trans (List.suffix_cons _ _),
        hs.imp_right fun ⟨a', ha'⟩ => ⟨a', List.mem_cons_of_mem _ ha'⟩, by simpa using hn⟩

/-- The first time that a link passes the call on the next one runs, and each later time it is
    refused. -/
theorem asked (h : Course signature n i used args log r args')
    (hl : log = before ++ .asked j :: after) :
    (.asked j ∉ before → (j = i → used = false) → RunsNext j after) ∧
      (.asked j ∈ before ∨ j = i ∧ used = true → IsRefused signature j after) := by
  induction h generalizing before after with
  | ended hi r => cases ended_place hl
  | @passed i args _ _ inner outer r₁ _ hi next rest ihn ih =>
    rcases passed_place hl with ⟨rfl, he, rfl⟩ | ⟨_, he⟩ | ⟨pre, post, rfl, hinner, rfl⟩ | ⟨_, he⟩ |
      ⟨pre, rfl, houter⟩
    · cases he
      -- This is the first time the link asks: the rest of the chain is run, and only it is seen.
      obtain ⟨init, rfl⟩ := next.ends
      refine ⟨fun _ _ => ⟨args, init, r₁, outer, by simp, ?_⟩, by simp⟩
      intro e he
      exact (next.link_le (List.mem_append_left _ he)).1
    · cases he
    · -- Within its run the next link is seen and those after it, but not this one.
      have hj : i + 1 ≤ j := (next.link_le (e := .asked j) (by simp [hinner])).1
      have hne : j ≠ i := by omega
      obtain ⟨hfirst, hagain⟩ := ihn hinner
      constructor
      · intro hn _
        exact (hfirst (by simp_all) (by simp)).append _
      · rintro (ha | ⟨rfl, _⟩)
        · exact (hagain (.inl (by simpa [hne] using ha))).append _
        · omega
    · cases he
    · -- After it only this link is seen, which has passed the call on before.
      obtain rfl : j = i := (rest.link_le (e := .asked j) (by simp [houter])).2 rfl
      exact ⟨fun hn => absurd (by simp) hn, fun _ => (ih houter).2 (.inr ⟨rfl, rfl⟩)⟩
  | @refused i _ _ outer _ hi rest ih =>
    rcases refused_place hl with ⟨rfl, he, rfl⟩ | ⟨_, he⟩ | ⟨pre, rfl, houter⟩
    · cases he
      exact ⟨fun _ hu => absurd (hu rfl) (by simp), fun _ => ⟨outer, rfl⟩⟩
    · cases he
    · obtain rfl : j = i := (rest.link_le (e := .asked j) (by simp [houter])).2 rfl
      exact ⟨fun hn => absurd (by simp) hn, fun _ => (ih houter).2 (.inr ⟨rfl, rfl⟩)⟩
  | replaced hi h rest ih | notReplaced hi h rest ih =>
    rcases cons_eq_split hl with ⟨_, he, _⟩ | ⟨pre, rfl, hrest⟩
    · cases he
    · obtain ⟨hfirst, hagain⟩ := ih hrest
      exact ⟨fun hn => hfirst (by simpa using hn), fun ha => hagain (by simpa using ha)⟩

/-- Links start on the arguments as they have been left so far. -/
theorem arguments (h : Course signature n i used args log r args') {a : Arguments}
    (hl : log = before ++ .started j a :: after) : a = args.after before := by
  induction h generalizing before after with
  | ended hi r => cases ended_place hl
  | passed hi next rest ihn ih =>
    -- Of the five places only the second and those of the links below can be the start of a link.
    rcases passed_place hl with ⟨_, he, _⟩ | ⟨rfl, he⟩ | ⟨pre, post, rfl, hinner, _⟩ | ⟨_, he⟩ |
      ⟨pre, _, houter⟩
    · cases he
    · cases he
      rfl
    · have ha := ihn hinner
      exact ha
    · cases he
    · exact absurd (by simp [houter]) (rest.not_started (j := j) a)
  | refused hi rest ih =>
    rcases refused_place hl with ⟨_, he, _⟩ | ⟨_, he⟩ | ⟨pre, _, houter⟩
    · cases he
    · cases he
    · exact absurd (by simp [houter]) (rest.not_started (j := j) a)
  | replaced hi h rest ih =>
    rcases cons_eq_split hl with ⟨_, he, _⟩ | ⟨pre, rfl, hrest⟩
    · cases he
    · rw [Arguments.after_replaced h]
      exact ih hrest
  | notReplaced hi h rest ih =>
    rcases cons_eq_split hl with ⟨_, he, _⟩ | ⟨pre, rfl, hrest⟩
    · cases he
    · rw [Arguments.after_notReplaced]
      exact ih hrest

/-- A replacement is tried on the arguments as they have been left so far. -/
theorem replacements (h : Course signature n i used args log r args') {k : Nat} {v : Option Value}
    {reply : Except Error Unit} (hl : log = before ++ .replaced j k v reply :: after) :
    reply = ((args.after before).set k v).map fun _ => () := by
  induction h generalizing before after with
  | ended hi r => cases ended_place hl
  | @passed i args args₁ _ inner outer r₁ _ hi next rest ihn ih =>
    rcases passed_place hl with ⟨_, he, _⟩ | ⟨_, he⟩ | ⟨pre, post, rfl, hinner, _⟩ | ⟨_, he⟩ |
      ⟨pre, rfl, houter⟩
    · cases he
    · cases he
    · have hr := ihn hinner
      exact hr
    · cases he
    -- The rest of the chain has left the arguments as its log tells.
    · have ha : args.after (.asked i :: .started (i + 1) args :: (inner ++ .answered i r₁ :: pre))
          = args₁.after pre := by
        rw [next.after_eq]
        exact Arguments.after_append args inner _
      rw [ha]
      exact ih houter
  | refused hi rest ih =>
    rcases refused_place hl with ⟨_, he, _⟩ | ⟨_, he⟩ | ⟨pre, rfl, houter⟩
    · cases he
    · cases he
    · have hr := ih houter
      exact hr
  | replaced hi h rest ih =>
    rcases cons_eq_split hl with ⟨rfl, he, _⟩ | ⟨pre, rfl, hrest⟩
    · cases he
      simp only [Arguments.after, List.foldl_nil, h]
      rfl
    · rw [Arguments.after_replaced h]
      exact ih hrest
  | notReplaced hi h rest ih =>
    rcases cons_eq_split hl with ⟨rfl, he, _⟩ | ⟨pre, rfl, hrest⟩
    · cases he
      simp only [Arguments.after, List.foldl_nil, h]
      rfl
    · rw [Arguments.after_notReplaced]
      exact ih hrest

/-- The log of a whole execution keeps the law. -/
theorem lawful (h : Course signature n 0 false args log r args') :
    Lawful signature n args (.started 0 args :: log) where
  order := by
    obtain ⟨m, hm, hs⟩ := h.starts
    refine ⟨m + 1, by omega, by omega, ?_⟩
    rw [List.range_eq_range', List.range'_succ, List.filterMap_cons, ← hs]
    rfl
  within before j a after hl := by
    rcases cons_eq_split hl with ⟨_, he, _⟩ | ⟨pre, rfl, hrest⟩
    · cases he
    · obtain ⟨ha, hs, hn⟩ := h.within hrest
      refine ⟨ha.trans (List.suffix_cons _ _), ?_, by simpa using hn⟩
      rcases hs with rfl | ⟨a', ha'⟩
      · exact ⟨args, List.mem_cons_self⟩
      · exact ⟨a', List.mem_cons_of_mem _ ha'⟩
  first before j after hl hn := by
    rcases cons_eq_split hl with ⟨_, he, _⟩ | ⟨pre, rfl, hrest⟩
    · cases he
    · exact (h.asked hrest).1 (by simpa using hn) fun _ => rfl
  again before j after hl ha := by
    rcases cons_eq_split hl with ⟨_, he, _⟩ | ⟨pre, rfl, hrest⟩
    · cases he
    · exact (h.asked hrest).2 (.inl (by simpa using ha))
  arguments before j a after hl := by
    rcases cons_eq_split hl with ⟨rfl, he, _⟩ | ⟨pre, rfl, hrest⟩
    · cases he
      rfl
    · have ha := h.arguments hrest
      exact ha
  replacements before j k v reply after hl := by
    rcases cons_eq_split hl with ⟨_, he, _⟩ | ⟨pre, rfl, hrest⟩
    · cases he
    · have hr := h.replacements hrest
      exact hr

end Course

/-! ### Executions -/

/-- What is seen of one execution: the start of the first link, its course, and nothing else. -/
theorem execute_course (filters : List (Filter σ)) (signature : MethodSignature)
    (invoker : Invoker σ) (args : Arguments) (w : Watched σ) :
    ∃ log, (execute (watchFrom 0 filters) signature (invoker.watched filters.length) args w).2.log
        = w.log ++ .started 0 args :: log ∧
      Course signature filters.length 0 false args log
        (execute (watchFrom 0 filters) signature (invoker.watched filters.length) args w).1.1
        (execute (watchFrom 0 filters) signature (invoker.watched filters.length) args w).1.2 :=
  proceed_keeps signature invoker filters (Nat.zero_add _) args w

/-- **The law of a chain.** For all filters, whatever they do, and every invoker: an execution under
    watch has the outcome of the one that nobody watches, and what is seen of it keeps the law; it
    ends with the end of the first link, whose result is the result, on the arguments as they have
    been left. Another execution of the chain, on what the first one leaves, keeps the law anew. -/
theorem execution_lawful (filters : List (Filter σ)) (signature : MethodSignature)
    (invoker : Invoker σ) (args again : Arguments) (w : Watched σ) :
    let run := execute (watchFrom 0 filters) signature (invoker.watched filters.length)
    unwatched (run args w) = execute filters signature invoker args w.state ∧
      ∃ log, (run args w).2.log = w.log ++ log ∧ Lawful signature filters.length args log ∧
        [.ended 0 (run args w).1.1] <:+ log ∧ (run args w).1.2 = args.after log ∧
        ∃ log', (run again (run args w).2).2.log = w.log ++ log ++ log' ∧
          Lawful signature filters.length again log' := by
  intro run
  obtain ⟨log, hlog, course⟩ := execute_course filters signature invoker args w
  -- The second execution starts from what the first one left.
  obtain ⟨log', hlog', course'⟩ := execute_course filters signature invoker again (run args w).2
  refine ⟨?_, .started 0 args :: log, hlog, course.lawful, ?_, course.after_eq, ?_⟩
  · have := proceed_watched signature invoker 0 filters args w
    rwa [Nat.zero_add] at this
  · exact course.ends.trans (List.suffix_cons _ _)
  · exact ⟨.started 0 again :: log', by rw [hlog', ← hlog], course'.lawful⟩

end Chain

end ComponentHost
