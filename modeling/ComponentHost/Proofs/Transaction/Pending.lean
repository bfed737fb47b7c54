import ComponentHost.Proofs.Transaction.Rewinding

/-! # Journals hold what is kept

  On every trail, what is pending in the journal of a transaction is the writes of the log that have
  not been lost, one after the other, and its savepoints are those of nested scopes that the log
  tells of. `Effect` has all cases that there are to look at: most of them leave the journal alone
  and neither write nor undo anything.

  That a savepoint belongs to the scope whose end asks for it is due to its name, which no other
  scope of the transaction was given.
-/

namespace ComponentHost

open World Attempt

namespace Coordinator

open ComponentHost.Flow

variable {k : Coordinator} {w₀ : World} {t : TxId} {f : Flow} {e : Flow.Event}
  {es later earlier : List Flow.Event} {s : TransactionScope} {tx tx' : Transaction}
  {j j' : Journal}

/-- In a log that is in order, a scope is begun once. -/
theorem begun_once (ho : (later ++ .begun s :: earlier).Pairwise Flow.Event.MayFollow) :
    .begun s ∉ later ∧ .begun s ∉ earlier := by
  obtain ⟨_, ho, hl⟩ := List.pairwise_append.mp ho
  refine ⟨?_, ?_⟩
  · intro hm
    exact (hl _ hm _ List.mem_cons_self).1 s rfl rfl
  · intro hm
    exact ((List.pairwise_cons.mp ho).1 _ hm).1 s rfl rfl

/-- How the record and the journal of a transaction reflect the log. -/
structure Reflects (k : Coordinator) (t : TxId) (es : List Flow.Event) (tx : Transaction)
    (j : Journal) : Prop where
  /-- The kept writes are pending. -/
  writes : j.writes = Writes.replay {} (kept t es)
  /-- The savepoints are those of nested scopes. -/
  saved : Saved t es j.savepoints
  /-- The names of savepoints were given one by one. -/
  named : ∀ s name mark, .begun s ∈ es → s.participation = .nested t name mark →
    ∃ i ≤ tx.savepoints, name = k.savepointName i
  /-- No two nested scopes have a savepoint of one name. -/
  unique : ∀ s s' name mark mark', .begun s ∈ es → .begun s' ∈ es →
    s.participation = .nested t name mark → s'.participation = .nested t name mark' → s = s'

/-- The log has no event about the transaction. -/
theorem kept_eq_nil (h : ∀ e ∈ es, e.transaction ≠ some t) : kept t es = [] := by
  refine List.eq_nil_iff_forall_not_mem.mpr ?_
  intro wr hwr
  obtain ⟨later, earlier, rfl, _⟩ := mem_kept.mp hwr
  exact h (.wrote wr (some t)) (by simp) rfl

namespace Reflects

/-- A new transaction has nothing pending, and the log nothing about it. -/
theorem opened {outer : Option TxId} (hs : s.participation = .owner t outer)
    (hes : ∀ e ∈ es, e.transaction ≠ some t) (tx : Transaction) :
    Reflects k t (.begun s :: es) tx {} := by
  -- It is the first event of its transaction, so no nested scope has begun.
  have nested (s' : TransactionScope) (name : String) (mark : Bool)
      (hm : .begun s' ∈ Flow.Event.begun s :: es)
      (hp : s'.participation = .nested t name mark) : False := by
    rcases List.mem_cons.mp hm with he | hm
    · cases he
      rw [hs] at hp
      cases hp
    · exact hes _ hm (by rw [Flow.Event.transaction, hp]; rfl)
  refine ⟨?_, .none, fun s' name mark hm hp => (nested s' name mark hm hp).elim,
    fun s' _ name mark _ hm _ hp => (nested s' name mark hm hp).elim⟩
  rw [kept_cons (by rfl), kept_eq_nil hes]
  rfl

/-- An event that neither undoes nor writes anything, nor begins a nested scope. -/
theorem skip (h : Reflects k t es tx j) (hu : e.undone t = none) (hw : e.written t = none)
    (hb : ∀ s, e = .begun s → s.participation.nestedIn ≠ some t)
    (hs : tx.savepoints ≤ tx'.savepoints) : Reflects k t (e :: es) tx' j := by
  -- What has begun as a nested scope had done so before this event.
  have older {s : TransactionScope} {name : String} {mark : Bool} (hm : .begun s ∈ e :: es)
      (hp : s.participation = .nested t name mark) : .begun s ∈ es := by
    rcases List.mem_cons.mp hm with he | hm
    · exact absurd (Participation.nestedIn_eq.mpr ⟨name, mark, hp⟩) (hb s he.symm)
    · exact hm
  constructor
  case writes =>
    rw [h.writes, kept_cons hu, hw]
    simp
  case saved => exact h.saved.extend (lost_singleton hu)
  case named =>
    intro s name mark hm hp
    obtain ⟨i, hi, hn⟩ := h.named s name mark (older hm hp) hp
    exact ⟨i, Nat.le_trans hi hs, hn⟩
  case unique =>
    intro s s' name mark mark' hm hm' hp hp'
    exact h.unique s s' name mark mark' (older hm hp) (older hm' hp') hp hp'

theorem forked (h : Reflects k t es tx j)
    (hs : s.participation = .nested t (k.savepointName (tx.savepoints + 1)) tx.rollbackOnly) :
    Reflects k t (.begun s :: es) { tx with savepoints := tx.savepoints + 1 }
      (j.setSavepoint (k.savepointName (tx.savepoints + 1))) := by
  -- The number of the name is higher than all before.
  have fresh {s' : TransactionScope} {mark : Bool} (hm : .begun s' ∈ es)
      (hp : s'.participation = .nested t (k.savepointName (tx.savepoints + 1)) mark) : False := by
    obtain ⟨i, hi, hn⟩ := h.named s' _ mark hm hp
    have := savepointName_injective hn
    omega
  constructor
  case writes =>
    show j.writes = _
    rw [h.writes, kept_cons (by rfl)]
    simp [Flow.Event.written]
  case saved =>
    have set : Saved t ([] ++ .begun s :: es)
        (j.savepoints ++ [(_, Writes.replay {} (kept t es))]) := .set hs rfl h.saved
    rw [← h.writes] at set
    exact set
  case named =>
    intro s' name mark hm hp
    rcases List.mem_cons.mp hm with he | hm
    · cases he
      rw [hs] at hp
      cases hp
      exact ⟨_, Nat.le_refl _, rfl⟩
    · obtain ⟨i, hi, hn⟩ := h.named s' name mark hm hp
      exact ⟨i, Nat.le_succ_of_le hi, hn⟩
  case unique =>
    intro s₁ s₂ name mark mark' hm₁ hm₂ hp₁ hp₂
    rcases List.mem_cons.mp hm₁ with he₁ | hm₁ <;> rcases List.mem_cons.mp hm₂ with he₂ | hm₂
    · cases he₁
      cases he₂
      rfl
    · cases he₁
      rw [hs] at hp₁
      cases hp₁
      exact (fresh hm₂ hp₂).elim
    · cases he₂
      rw [hs] at hp₂
      cases hp₂
      exact (fresh hm₁ hp₁).elim
    · exact h.unique s₁ s₂ name mark mark' hm₁ hm₂ hp₁ hp₂

theorem wrote (h : Reflects k t es tx j) (wr : WriteRecord) :
    Reflects k t (.wrote wr (some t) :: es) tx (j.write wr.key wr.value) := by
  have hw : (Flow.Event.wrote wr (some t)).written t = some wr := by simp [Flow.Event.written]
  refine ⟨?_, h.saved.extend (lost_singleton rfl), ?_, ?_⟩
  · show j.writes.insert wr.key wr.value = _
    rw [kept_cons (by rfl), hw, Option.toList_some, Writes.replay_append, ← h.writes]
    rfl
  · exact fun s name mark hm => h.named s name mark (by simpa using hm)
  · exact fun s s' name mark mark' hm hm' =>
      h.unique s s' name mark mark' (by simpa using hm) (by simpa using hm')

/-- The savepoint that a nested scope asks for is its own. -/
theorem savepoint {name : String} {mark : Bool} {writes : Writes}
    {sps sps' : List (String × Writes)} (h : Reflects k t es tx j)
    (hs : s.participation = .nested t name mark) (hb : .begun s ∈ es)
    (hj : j.savepoints = sps ++ (name, writes) :: sps') :
    ∃ later earlier, es = later ++ .begun s :: earlier ∧ lost t later earlier = false ∧
      writes = Writes.replay {} (kept t earlier) ∧ Saved t earlier sps ∧
      ∀ sp ∈ sps', ∃ s' mark', .begun s' ∈ later ∧ s'.participation = .nested t sp.1 mark' := by
  have saved := h.saved
  rw [hj] at saved
  obtain ⟨later, s', earlier, mark', rfl, hs', hl, hw, hsps, hafter⟩ := saved.split
  obtain rfl : s = s' := h.unique s s' name mark mark' hb (by simp) hs hs'
  exact ⟨later, earlier, rfl, hl, hw, hsps, hafter⟩

theorem released {name : String} {writes : Writes}
    {sps sps' : List (String × Writes)} (h : Reflects k t es tx j)
    (hj : j.savepoints = sps ++ (name, writes) :: sps') :
    Reflects k t (.ended s true true :: es) tx ⟨j.writes, sps⟩ := by
  have skipped : Reflects k t (.ended s true true :: es) tx j :=
    h.skip rfl rfl (by simp) (Nat.le_refl _)
  have saved := skipped.saved
  rw [hj] at saved
  exact ⟨skipped.writes, saved.before, skipped.named, skipped.unique⟩

theorem undone {name : String} {mark : Bool} {writes : Writes}
    {sps sps' : List (String × Writes)} (h : Reflects k t es tx j)
    (ho : es.Pairwise Flow.Event.MayFollow) (hs : s.participation = .nested t name mark)
    (hb : .begun s ∈ es) (hj : j.savepoints = sps ++ (name, writes) :: sps') :
    Reflects k t (.ended s false true :: es) { tx with rollbackOnly := mark } ⟨writes, sps⟩ := by
  obtain ⟨later, earlier, rfl, hl, hw, hsps, _⟩ := h.savepoint hs hb hj
  have hn : s.participation.nestedIn = some t := Participation.nestedIn_eq.mpr ⟨name, mark, hs⟩
  have once := (begun_once ho).2
  constructor
  case writes =>
    show writes = _
    rw [kept_undone hn hl once, hw]
  case saved =>
    have extended : Saved t (.ended s false true :: later ++ [.begun s] ++ earlier) sps :=
      hsps.extend (lost_undone hl once)
    simpa using extended
  case named => exact fun s' name mark hm => h.named s' name mark (by simpa using hm)
  case unique =>
    exact fun s₁ s₂ name mark mark' hm₁ hm₂ =>
      h.unique s₁ s₂ name mark mark' (by simpa using hm₁) (by simpa using hm₂)

end Reflects

/-- Every effect keeps records and journals in accordance with the log. -/
theorem Effect.reflects (h : Effect k t tx j e tx' j') (hr : Reflects k t es tx j)
    (ho : es.Pairwise Flow.Event.MayFollow)
    (hb : ∀ s success told, e = .ended s success told → .begun s ∈ es) :
    Reflects k t (e :: es) tx' j' := by
  -- Only writes and savepoints touch what is pending and its stack; the rest is skipped.
  cases h with
  | elsewhere he =>
    refine hr.skip ?_ ?_ ?_ (Nat.le_refl _)
    · refine Option.eq_none_iff_forall_ne_some.mpr fun n hn => he ?_
      exact Flow.Event.transaction_of_undone hn
    · refine Option.eq_none_iff_forall_ne_some.mpr fun wr hw => he ?_
      rw [Flow.Event.written_eq_some.mp hw]
      rfl
    · rintro s rfl hn
      obtain ⟨name, mark, hp⟩ := Participation.nestedIn_eq.mp hn
      exact he (by rw [Flow.Event.transaction, hp]; rfl)
  | joined hs =>
    refine hr.skip rfl rfl ?_ (Nat.le_refl _)
    rintro s ⟨⟩
    simp [hs, Participation.nestedIn]
  | named => exact hr.skip rfl rfl (by simp) (Nat.le_succ _)
  | forked hs => exact hr.forked hs
  | wrote => exact hr.wrote _
  | left hs => exact hr.skip rfl rfl (by simp) (Nat.le_refl _)
  | @failed s told hs =>
    refine hr.skip ?_ rfl (by simp) (Nat.le_refl _)
    cases told <;> simp [Flow.Event.undone, hs, Participation.nestedIn]
  | released hs hj => exact hr.released hj
  | undone hs hj => exact hr.undone ho hs (hb _ _ _ rfl) hj
  | @missing s success =>
    refine hr.skip ?_ rfl (by simp) (Nat.le_refl _)
    cases success <;> rfl

/-! ### Along a trail -/

/-- **Journals hold what is kept.** On every trail over a resource that never fails, each journal
    has pending what has not been lost of the writes in its transaction. -/
theorem Trail.reflects (h : Trail k ⟨w₀, []⟩ es f) (h₀ : Blank k w₀) :
    ∀ t tx j, f.world.transaction? t = some tx → k.journal f.world t = some j →
      Reflects k t es tx j := by
  refine h.course (P := fun t es _ tx j => Reflects k t es tx j) h₀ ?_ ?_
  · intro t es s outer f tx hs hes _
    exact .opened hs hes tx
  · intro t es f e f' tx j tx' j' ht hm _ _ effect ih
    have chronicle := ht.chronicle h₀
    refine effect.reflects ih chronicle.order ?_
    rintro s success told rfl
    exact chronicle.begun s hm.live_of_ended

end Coordinator

end ComponentHost
