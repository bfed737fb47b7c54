import ComponentHost.Proofs.Transaction.Marks

/-! # Failed participants

  A scope that joined a transaction and fails marks it, and the owner then rolls it back. A nested
  scope that fails makes its transaction go back behind it. As long as scopes end innermost first,
  nothing that a failed participant wrote is committed. When the handles of scopes are ended in
  another order, both can come to nothing:

  - the mark is taken away by a nested scope that was begun before the failure, but after the write,
    and that is undone after the failure: it puts back the mark that it found on entry;
  - the savepoint is gone because a nested scope that was begun earlier ended in the meantime; then
    the transaction stays where it is, and is not marked.

  These are the only ways, and in both of them two scopes cross: one is begun within the other and
  ends after it.
-/

namespace ComponentHost

open World Attempt

namespace Flow

/-- The writes that are made durable when the owner of a transaction ends: those that were kept, if
    the transaction is committed. A write is among them even where a later one has overwritten its
    value. -/
def keptAtCommit (t : TxId) (es : List Event) (after : World) : List WriteRecord :=
  if after.stateOf t = some .committed then kept t es else []

theorem mem_keptAtCommit {t : TxId} {es : List Event} {after : World} {wr : WriteRecord} :
    wr ∈ keptAtCommit t es after ↔ after.stateOf t = some .committed ∧ wr ∈ kept t es := by
  unfold keptAtCommit
  split
  · next hs => simp [hs]
  · next hs => simp [hs]

/-- Two scopes cross: the second one is begun within the first one, and ends after it. -/
def Crossed (es : List Event) (s n : TransactionScope) : Prop :=
  ∃ success told success' told',
    [.ended n success' told', .ended s success told, .begun n, .begun s].Sublist es

end Flow

namespace Coordinator

open ComponentHost.Flow

variable {k : Coordinator} {w w' w₀ : World} {t : TxId} {f f' : Flow} {e : Flow.Event}
  {es later earlier : List Flow.Event} {s o : TransactionScope} {outer : Option TxId}
  {success told : Bool}

/-! ### The end of the owner -/

theorem act_leave (hs : s ∈ f.live) : (f.act k (.leave s success)).2.world
    = (k.finish s.participation success (uninstall s.context f.world).2).2 := by
  simp only [Flow.act, if_pos hs]
  cases success <;> rfl

theorem act_leave_event (k : Coordinator) (success : Bool) (hs : s ∈ f.live) :
    ∃ told, (f.act k (.leave s success)).1 = .ended s success told := by
  simp only [Flow.act, if_pos hs]
  exact ⟨_, rfl⟩

/-- A transaction that is committed was not marked. -/
theorem Settlement.unmarked {r : Except Error Unit} (h : Settlement k w (.owner t outer) true r w')
    (hc : (w.resource k.resource).FailsCleanly) (hx : w.stateOf t = some .active)
    (hs : w'.stateOf t = some .committed) : w.isRollbackOnly t = false := by
  cases h with
  | committed _ hm _ | notCommitted _ hm _ _ => exact hm
  | overdue _ hr | marked _ _ hr => exact absurd hs (rollback_stored hr hc hx).1

/-- At the end of a trail, a live owner has its transaction, active and with a journal. -/
theorem Trail.owner (h : Trail k ⟨w₀, []⟩ es f) (h₀ : Blank k w₀) (ho : o ∈ f.live)
    (hp : o.participation = .owner t outer) :
    f.world.stateOf t = some .active ∧
      ∃ tx j, f.world.transaction? t = some tx ∧ k.journal f.world t = some j := by
  have hb := h.books h₀
  have ht : t ∈ owned f.live := List.mem_filterMap.mpr ⟨o, ho, by rw [hp]; rfl⟩
  exact ⟨congrArg Account.state (hb.running t ht), hb.owned_journal ht⟩

/-- When a live owner completes, the whole journal is applied to the store and the transaction was
    not marked, or nothing is applied. -/
theorem Trail.complete_owner (h : Trail k ⟨w₀, []⟩ es f) (h₀ : Blank k w₀) (ho : o ∈ f.live)
    (hp : o.participation = .owner t outer) {j : Journal} (hj : k.journal f.world t = some j) :
    let after := (f.act k (.leave o true)).2.world
    (after.stateOf t = some .committed ∧ f.world.isRollbackOnly t = false ∧
        k.store after = Memory.apply (k.store f.world) j.writes) ∨
      (after.stateOf t ≠ some .committed ∧ k.store after = k.store f.world) := by
  intro after
  have active := (h.owner h₀ ho hp).1
  have hf : ((uninstall o.context f.world).2.resource k.resource).Faultless := by
    rw [uninstall_resource]
    exact h.faultless h₀
  have hj : k.journal (uninstall o.context f.world).2 t = some j :=
    (Untouched.uninstall k _ f.world t).2.trans hj
  obtain ⟨r, hq⟩ : ∃ r, k.finish o.participation true (uninstall o.context f.world).2
      = (r, after) := ⟨_, Prod.ext rfl (act_leave ho).symm⟩
  rw [hp] at hq
  obtain ⟨r₁, w₁, settled, hr⟩ := finish_eq hq
  -- Taking up what lay suspended changes neither the state nor the store.
  have resumed : after.stateOf t = w₁.stateOf t ∧ k.store after = k.store w₁ := by
    rcases hr with ⟨_, _, hw⟩ | ⟨u, r₂, _, hr, _⟩
    · rw [hw]
      exact ⟨rfl, rfl⟩
    · exact ⟨stateOf_call hr, store_call hr (settled.faultless hf).failsCleanly (by simp)⟩
  rw [resumed.1, resumed.2]
  rcases settled.owner_stored hf.failsCleanly active hj with ⟨_, _, hs, hstore⟩ | ⟨_, hs, hstore⟩
  · exact .inl ⟨hs, settled.unmarked hf.failsCleanly active hs, hstore⟩
  · exact .inr ⟨hs, hstore⟩

/-! ### The owner lives long enough -/

/-- The transaction of an owner is new when the owner is begun. -/
theorem Move.owner_new (h : Move k f (.begun o) f') (hp : o.participation = .owner t outer)
    (hf : (f.world.resource k.resource).Faultless) : t = f.world.nextTx := by
  cases h with
  | @begun d w w₁ live p he =>
    obtain rfl : p = .owner t outer := hp
    exact (he.owner hf.failsCleanly).2.fresh

/-- An owner that is live was live since the log was first about its transaction. -/
theorem Trail.owner_since (h : Trail k ⟨w₀, []⟩ (later ++ e :: earlier) f) (h₀ : Blank k w₀)
    (ho : o ∈ f.live) (hp : o.participation = .owner t outer) (he : e.transaction = some t) :
    ∃ f₁ f₂, Trail k ⟨w₀, []⟩ earlier f₁ ∧ Move k f₁ e f₂ ∧
      Trail k ⟨w₀, []⟩ (e :: earlier) f₂ ∧ o ∈ f₂.live := by
  obtain ⟨f₂, h₂, _⟩ := h.split
  obtain ⟨f₁, h₁, hm⟩ := h₂.head
  refine ⟨f₁, f₂, h₁, hm, h₂, ?_⟩
  -- The owner was begun before the event, since its transaction was not known before that.
  have begun : .begun o ∈ e :: earlier := by
    rcases List.mem_append.mp ((h.chronicle h₀).begun o ho) with hlater | hearlier
    · obtain ⟨later₁, later₂, rfl⟩ := List.append_of_mem hlater
      rw [List.append_assoc, List.cons_append] at h
      obtain ⟨f₃, h₃, _⟩ := h.split
      obtain ⟨f₄, h₄, hnew⟩ := h₃.head
      have known := (h₄.chronicle h₀).known e (by simp) t he
      rw [hnew.owner_new hp (h₄.faultless h₀)] at known
      exact absurd known (Nat.lt_irrefl _)
    · exact hearlier
  rcases (h₂.chronicle h₀).accounted o begun with hlive | ⟨success, told, hended⟩
  · exact hlive
  · exact absurd rfl (((h.chronicle h₀).ended o success told (by simp [hended])).2 o ho)

/-! ### What became of failed participants -/

/-- When a nested scope failed and could not be undone, it had been overtaken. -/
theorem Trail.nested_failed (h : Trail k ⟨w₀, []⟩ (later ++ .ended s false told :: earlier) f)
    (h₀ : Blank k w₀) (ho : o ∈ f.live) (hp : o.participation = .owner t outer)
    (hs : s.participation.nestedIn = some t) : told = true ∨ Overtaken t s earlier := by
  obtain ⟨name, mark, hs⟩ := Participation.nestedIn_eq.mp hs
  obtain ⟨f₁, f₂, h₁, hm, h₂, ho₂⟩ :=
    h.owner_since h₀ ho hp (by rw [Flow.Event.transaction, hs]; rfl)
  obtain ⟨_, tx, j, _, hj⟩ := h₂.owner h₀ ho₂ hp
  -- What a nested scope does as it ends is read off the savepoints of that moment.
  rcases hm.affects (h₁.books h₀) (h₁.faultless h₀) hj with
    ⟨tx₁, j₁, tx₂, j₂, htx₁, hj₁, _, _, effect⟩ | ⟨_, _, _, _, he, _⟩
  · cases effect with
    | elsewhere he => exact absurd (by rw [Flow.Event.transaction, hs]; rfl) he
    | failed hs' => rw [hs] at hs'; cases hs'
    | undone => exact .inl rfl
    | missing hs' hn =>
      rcases (h₁.watched h₀ t tx₁ j₁ htx₁ hj₁).held s hm.live_of_ended _ _ hs' with
        ⟨sp, hsp, hname⟩ | hovertaken
      · exact absurd hname (hn sp hsp)
      · exact .inr hovertaken
  · cases he

/-- What was written in the context of a scope that ended was written between its begin and its
    end. -/
theorem written_within (h : Trail k ⟨w₀, []⟩ (later ++ .ended s success told :: earlier) f)
    (h₀ : Blank k w₀) {wr : WriteRecord} {u : Option TxId} {after before : List Flow.Event}
    (hes : later ++ .ended s success told :: earlier = after ++ .wrote wr u :: before)
    (hc : wr.context = some s.context) :
    ∃ mid, earlier = mid ++ .wrote wr u :: before ∧
      after = later ++ .ended s success told :: mid ∧ .begun s ∈ before := by
  have order := (h.chronicle h₀).order
  obtain ⟨f₂, h₂, _⟩ := h.split
  obtain ⟨f₁, h₁, hm⟩ := h₂.head
  have begun := (h₁.chronicle h₀).begun s hm.live_of_ended
  rcases append_eq_split hes with ⟨mid, rfl, rfl⟩ | ⟨mid, rfl, hmid⟩
  · -- Not after the end.
    have := (List.pairwise_append.mp order).2.2 (.wrote wr u) (by simp) _ List.mem_cons_self
    exact absurd hc (this.2 s success told rfl)
  · rcases cons_eq_split hmid with ⟨_, he, _⟩ | ⟨mid', rfl, rfl⟩
    · cases he
    · refine ⟨mid', rfl, rfl, ?_⟩
      have order := (List.pairwise_cons.mp (List.pairwise_append.mp order).2.1).2
      rcases List.mem_append.mp begun with hb | hb
      · -- Not before the begin.
        have := (List.pairwise_append.mp order).2.2 _ hb _ List.mem_cons_self
        exact absurd hc (this.1 s rfl)
      · simpa using hb

/-- When a live owner completes, the writes that were kept until the commit are made in the store
    one after the other, and nothing else is. -/
theorem Trail.keptAtCommit_stored (h : Trail k ⟨w₀, []⟩ es f) (h₀ : Blank k w₀) (ho : o ∈ f.live)
    (hp : o.participation = .owner t outer) (key : String) :
    (k.store (f.act k (.leave o true)).2.world).get? key = (replayOn (k.store f.world)
      (keptAtCommit t es (f.act k (.leave o true)).2.world)).get? key := by
  obtain ⟨_, tx, j, htx, hj⟩ := h.owner h₀ ho hp
  rcases h.complete_owner h₀ ho hp hj with ⟨hs, _, hstore⟩ | ⟨hs, hstore⟩
  · rw [keptAtCommit, if_pos hs, hstore, (h.reflects h₀ t tx j htx hj).writes]
    exact Writes.get?_apply_replay _ _ key
  · rw [keptAtCommit, if_neg hs, hstore]
    rfl

/-- A write of a joined scope that failed is kept until the commit only if a nested scope was begun
    between the write and the failure, and was undone after the failure. -/
theorem Trail.joined_crossed (h : Trail k ⟨w₀, []⟩ es f) (h₀ : Blank k w₀) (ho : o ∈ f.live)
    (hp : o.participation = .owner t outer) (hended : .ended s false told ∈ es)
    (hjoined : s.participation = .joined t) {wr : WriteRecord}
    (hwr : wr ∈ keptAtCommit t es (f.act k (.leave o true)).2.world)
    (hc : wr.context = some s.context) :
    ∃ n : TransactionScope, n.participation.nestedIn = some t ∧
      [.ended n false true, .ended s false told, .begun n, .wrote wr (some t),
        .begun s].Sublist es := by
  obtain ⟨_, tx, j, htx, hj⟩ := h.owner h₀ ho hp
  obtain ⟨hs, hkept⟩ := mem_keptAtCommit.mp hwr
  have unmarked : tx.rollbackOnly = false := by
    rcases h.complete_owner h₀ ho hp hj with ⟨_, hm, _⟩ | ⟨hn, _⟩
    · simpa [isRollbackOnly, htx] using hm
    · exact absurd hs hn
  obtain ⟨later, earlier, rfl⟩ := List.append_of_mem hended
  obtain ⟨since, before, hes, hl⟩ := mem_kept.mp hkept
  obtain ⟨mid, rfl, rfl, hbegun⟩ := written_within h h₀ hes hc
  -- The transaction was not marked in the end, so the failure was lost, though the write was not.
  rcases (h.watched h₀ t tx j htx hj).heeded later s told _ rfl hjoined with hm | hlost
  · rw [unmarked] at hm
    cases hm
  · obtain ⟨n, hn, hundone, hb⟩ := lost_iff.mp hlost
    have hb : .begun n ∈ mid := by
      rcases List.mem_append.mp hb with hb | hb
      · exact hb
      · have hb : .begun n ∈ before := by simpa using hb
        exact absurd hb (lost_eq_false.mp hl n hn (by simp [hundone]))
    refine ⟨n, hn, ?_⟩
    exact (List.singleton_sublist.mpr hundone).append (.cons_cons _
      ((List.singleton_sublist.mpr hb).append (.cons_cons _ (List.singleton_sublist.mpr hbegun))))

/-- A write of a nested scope that failed is kept until the commit only if the scope could not be
    undone, because a nested scope that was begun before it had ended while it was live. -/
theorem Trail.nested_crossed (h : Trail k ⟨w₀, []⟩ es f) (h₀ : Blank k w₀) (ho : o ∈ f.live)
    (hp : o.participation = .owner t outer) (hended : .ended s false told ∈ es)
    (hnested : s.participation.nestedIn = some t) {wr : WriteRecord}
    (hwr : wr ∈ keptAtCommit t es (f.act k (.leave o true)).2.world)
    (hc : wr.context = some s.context) :
    told = false ∧ ∃ n : TransactionScope, ∃ success, n.participation.nestedIn = some t ∧
      [.ended s false told, .ended n success true, .begun s, .begun n].Sublist es := by
  obtain ⟨later, earlier, rfl⟩ := List.append_of_mem hended
  obtain ⟨since, before, hes, hl⟩ := mem_kept.mp (mem_keptAtCommit.mp hwr).2
  obtain ⟨mid, rfl, rfl, hbegun⟩ := written_within h h₀ hes hc
  -- The write came after the begin of the scope, and would be lost if that were undone.
  have failed : told = false := by
    cases told with
    | false => rfl
    | true => exact absurd hbegun (lost_eq_false.mp hl s hnested (by simp))
  rcases h.nested_failed h₀ ho hp hnested with htold | ⟨l₁, l₂, n, success, hsplit, hn, hb, he⟩
  · rw [failed] at htold
    cases htold
  · refine ⟨failed, n, success, hn, ?_⟩
    rw [hsplit]
    refine List.Sublist.trans ?_ (List.sublist_append_right _ _)
    exact .cons_cons _ ((List.singleton_sublist.mpr he).append
      (.cons_cons _ (List.singleton_sublist.mpr hb)))

/-- A scope that wrote in a transaction, and ended after the owner had completed, crosses the
    owner. -/
theorem Trail.owner_crossed (h : Trail k ⟨w₀, []⟩ es f) (h₀ : Blank k w₀) (ho : o ∈ f.live)
    (hp : o.participation = .owner t outer) (hf : Trail k (f.act k (.leave o true)).2 later f')
    (hended : .ended s false told ∈ later) (hs : s.participation.transaction = some t) (hso : s ≠ o)
    {wr : WriteRecord} (hwr : wr ∈ keptAtCommit t es (f.act k (.leave o true)).2.world)
    (hc : wr.context = some s.context) :
    Crossed (later ++ (f.act k (.leave o true)).1 :: es) o s := by
  obtain ⟨since, before, rfl, _⟩ := mem_kept.mp (mem_keptAtCommit.mp hwr).2
  obtain ⟨late, early, rfl⟩ := List.append_of_mem hended
  obtain ⟨done, hdone⟩ := act_leave_event k true ho
  -- The scope was begun before it wrote.
  have begun : .begun s ∈ since ++ .wrote wr (some t) :: before := by
    have whole := (h.act (.leave o true)).append hf
    rw [List.append_assoc, List.cons_append] at whole
    have hes : late ++ .ended s false told :: (early ++ (f.act k (.leave o true)).1 ::
          (since ++ .wrote wr (some t) :: before))
        = (late ++ .ended s false told :: (early ++ (f.act k (.leave o true)).1 :: since)) ++
          .wrote wr (some t) :: before := by
      simp
    obtain ⟨_, _, _, hb⟩ := written_within whole h₀ hes hc
    exact List.mem_append_right _ (List.mem_cons_of_mem _ hb)
  -- The owner was begun before the scope.
  obtain ⟨l₁, l₂, hsplit⟩ := List.append_of_mem begun
  rw [hsplit] at h
  obtain ⟨_, f₂, _, _, h₂, ho₂⟩ := h.owner_since h₀ ho hp hs
  have owner : .begun o ∈ l₂ := by
    simpa [hso.symm] using (h₂.chronicle h₀).begun o ho₂
  refine ⟨true, done, false, told, ?_⟩
  rw [hsplit, hdone, List.append_assoc, List.cons_append]
  refine (List.Sublist.cons_cons _ ?_).trans (List.sublist_append_right _ _)
  refine (List.Sublist.cons_cons _ ?_).trans (List.sublist_append_right _ _)
  exact (List.Sublist.cons_cons _ (List.singleton_sublist.mpr owner)).trans
    (List.sublist_append_right _ _)

/-- A write of a participant that fails, before its owner completes or after that, is kept until the
    commit only if the participant crossed the owner or a nested scope crossed the participant. -/
theorem Trail.participant_crossed (h : Trail k ⟨w₀, []⟩ es f) (h₀ : Blank k w₀) (ho : o ∈ f.live)
    (hp : o.participation = .owner t outer) (hf : Trail k (f.act k (.leave o true)).2 later f')
    (hended : .ended s false told ∈ later ++ (f.act k (.leave o true)).1 :: es) {wr : WriteRecord}
    (hwr : wr ∈ keptAtCommit t es (f.act k (.leave o true)).2.world)
    (hc : wr.context = some s.context) :
    (s.participation = .joined t → Crossed (later ++ (f.act k (.leave o true)).1 :: es) o s ∨
      ∃ n : TransactionScope, n.participation.nestedIn = some t ∧
        [.ended n false true, .ended s false told, .begun n, .wrote wr (some t),
          .begun s].Sublist es) ∧
    (s.participation.nestedIn = some t →
      Crossed (later ++ (f.act k (.leave o true)).1 :: es) o s ∨ told = false ∧
        ∃ n : TransactionScope, ∃ success, n.participation.nestedIn = some t ∧
          [.ended s false told, .ended n success true, .begun s, .begun n].Sublist es) := by
  -- It has failed before the owner completed, or after.
  have place : .ended s false told ∈ later ∨ .ended s false told ∈ es := by
    obtain ⟨done, hdone⟩ := act_leave_event k true ho
    simpa [hdone] using hended
  have crossed (hlater : .ended s false told ∈ later) (hs : s.participation.transaction = some t)
      (hne : s.participation ≠ .owner t outer) :=
    h.owner_crossed h₀ ho hp hf hlater hs (by rintro rfl; exact hne hp) hwr hc
  constructor
  · intro hs
    rcases place with hlater | hes
    · exact .inl (crossed hlater (by rw [hs]; rfl) (by simp [hs]))
    · exact .inr (h.joined_crossed h₀ ho hp hes hs hwr hc)
  · intro hs
    rcases place with hlater | hes
    · obtain ⟨name, mark, hs⟩ := Participation.nestedIn_eq.mp hs
      exact .inl (crossed hlater (by rw [hs]; rfl) (by simp [hs]))
    · exact .inr (h.nested_crossed h₀ ho hp hes hs hwr hc)

/-- Where no two scopes cross, that is, where scopes end innermost first, no write of a failed
    participant is kept until the commit. -/
theorem failed_participants_discarded (h₀ : Blank k w₀) (h : Trail k ⟨w₀, []⟩ es f)
    (ho : o ∈ f.live) (hp : o.participation = .owner t outer)
    (hf : Trail k (f.act k (.leave o true)).2 later f')
    (hn : ∀ s n, ¬ Crossed (later ++ (f.act k (.leave o true)).1 :: es) s n)
    (hended : .ended s false told ∈ later ++ (f.act k (.leave o true)).1 :: es)
    (hs : s.participation = .joined t ∨ s.participation.nestedIn = some t) :
    ∀ wr ∈ keptAtCommit t es (f.act k (.leave o true)).2.world, wr.context ≠ some s.context := by
  intro wr hwr hc
  -- What happened before the owner completed is part of the whole course.
  have whole {part : List Flow.Event} (hsub : part.Sublist es) :
      part.Sublist (later ++ (f.act k (.leave o true)).1 :: es) :=
    hsub.trans ((List.sublist_cons_self _ _).trans (List.sublist_append_right _ _))
  obtain ⟨joined, nested⟩ := h.participant_crossed h₀ ho hp hf hended hwr hc
  rcases hs with hs | hs
  · rcases joined hs with crossed | ⟨n, _, hsub⟩
    · exact hn o s crossed
    -- The nested scope that has taken its mark away has begun after it, and ended after it.
    · have crossed : [.ended n false true, .ended s false told, .begun n, .begun s].Sublist es :=
        .trans (.cons_cons _ (.cons_cons _ (.cons_cons _ (.cons _ (.refl _))))) hsub
      exact hn s n ⟨false, told, false, true, whole crossed⟩
  · rcases nested hs with crossed | ⟨_, n, success, _, hsub⟩
    · exact hn o s crossed
    · exact hn n s ⟨success, true, false, told, whole hsub⟩

/-- **Failed participants are committed only across crossing scopes.** On every trail over a
    resource that never fails, with the scopes ended in whatever order, when a live owner completes:

    - the writes that were kept until the commit, and nothing else, are made in the store, one after
      the other;
    - those are, if the transaction is committed, the writes in it that it did not go back behind:
      no nested scope that had been begun before the write was undone after it;
    - so a write of a scope that joined, or was nested, and that fails, by then or later, is among
      them only if the scope crossed the owner, and failed when that had ended, or a nested scope
      crossed it. One that joined was crossed by a nested scope that was begun between the write and
      the failure and was undone after the failure. One that was nested could not be undone, and it
      crossed a nested scope that was begun before it and ended while it was live. -/
theorem failed_participants_crossed (h₀ : Blank k w₀) (h : Trail k ⟨w₀, []⟩ es f) (ho : o ∈ f.live)
    (hp : o.participation = .owner t outer) (hf : Trail k (f.act k (.leave o true)).2 later f') :
    let done := (f.act k (.leave o true)).1
    let after := (f.act k (.leave o true)).2.world
    (∀ key, (k.store after).get? key
        = (replayOn (k.store f.world) (keptAtCommit t es after)).get? key) ∧
    (∀ wr, wr ∈ keptAtCommit t es after ↔ after.stateOf t = some .committed ∧
      ∃ since before, es = since ++ .wrote wr (some t) :: before ∧
        ∀ n : TransactionScope, n.participation.nestedIn = some t →
          .ended n false true ∈ since → .begun n ∉ before) ∧
    ∀ s told, .ended s false told ∈ later ++ done :: es →
      ∀ wr ∈ keptAtCommit t es after, wr.context = some s.context →
        (s.participation = .joined t → Crossed (later ++ done :: es) o s ∨
          ∃ n : TransactionScope, n.participation.nestedIn = some t ∧
            [.ended n false true, .ended s false told, .begun n, .wrote wr (some t),
              .begun s].Sublist es) ∧
        (s.participation.nestedIn = some t → Crossed (later ++ done :: es) o s ∨ told = false ∧
          ∃ n : TransactionScope, ∃ success, n.participation.nestedIn = some t ∧
            [.ended s false told, .ended n success true, .begun s, .begun n].Sublist es) := by
  intro done after
  refine ⟨h.keptAtCommit_stored h₀ ho hp, ?_, ?_⟩
  · intro wr
    simp only [mem_keptAtCommit, mem_kept, lost_eq_false]
  · intro s told hended wr hwr hc
    exact h.participant_crossed h₀ ho hp hf hended hwr hc

/-! ### Failed participants that are committed -/

end Coordinator

namespace Flow

def blank : Flow := ⟨{}, []⟩

def firstOwner : TransactionScope := ⟨.owner ⟨0⟩ none, ⟨0⟩⟩

/-- A nested scope writes in another nested scope, and fails when that has ended well. -/
def outlasting : List Act :=
  [.begin {}, .begin { propagation := .nested }, .begin { propagation := .nested },
    .write "y" (some (.bool true)), .leave ⟨.nested ⟨0⟩ "SAVEPOINT_1" false, ⟨1⟩⟩ true,
    .leave ⟨.nested ⟨0⟩ "SAVEPOINT_2" false, ⟨2⟩⟩ false]

/-- A scope that joined writes and fails, while a nested scope in it is live that fails, too. -/
def absolved : List Act :=
  [.begin {}, .begin {}, .write "x" (some (.bool true)), .begin { propagation := .nested },
    .leave ⟨.joined ⟨0⟩, ⟨1⟩⟩ false, .leave ⟨.nested ⟨0⟩ "SAVEPOINT_1" false, ⟨2⟩⟩ false]

end Flow

namespace Coordinator

open ComponentHost.Flow

theorem blank_default : Blank {} {} where
  transactions := rfl
  journals := rfl
  log := rfl
  clean := by intro p; cases p <;> decide
  faultless := ⟨by intro p; cases p <;> decide, rfl⟩
  stackMade := by simp
  stackOnce := List.nodup_nil
  unbound := by simp

/-- The nested scope that failed crossed the one around it, and its write is committed. -/
theorem failed_participants_crossed_outlasting :
    ∃ s : TransactionScope, ∃ es f, Trail {} blank es f ∧ firstOwner ∈ f.live ∧
      s.participation.nestedIn = some ⟨0⟩ ∧ .ended s false false ∈ es ∧
      ∃ wr ∈ keptAtCommit ⟨0⟩ es (f.act {} (.leave firstOwner true)).2.world,
        wr.context = some s.context ∧ ∃ n : TransactionScope, ∃ success,
          n.participation.nestedIn = some ⟨0⟩ ∧
            [.ended s false false, .ended n success true, .begun s, .begun n].Sublist es := by
  let s : TransactionScope := ⟨.nested ⟨0⟩ "SAVEPOINT_2" false, ⟨2⟩⟩
  have trail := trail_acts {} blank outlasting
  have live : firstOwner ∈ (blank.acts {} outlasting).2.live := by decide +kernel
  have ended : .ended s false false ∈ (blank.acts {} outlasting).1 := by decide +kernel
  have hwr : ⟨some ⟨2⟩, "y", some (.bool true)⟩ ∈ keptAtCommit ⟨0⟩ (blank.acts {} outlasting).1
      ((blank.acts {} outlasting).2.act {} (.leave firstOwner true)).2.world := by decide +kernel
  obtain ⟨_, _, crossed⟩ := failed_participants_crossed blank_default trail live rfl .start
  -- The owner is not crossed, so it is the second way that the write has been kept.
  have inside : ¬ Crossed ([] ++ ((blank.acts {} outlasting).2.act {} (.leave firstOwner true)).1 ::
      (blank.acts {} outlasting).1) firstOwner s := by
    unfold Crossed
    decide +kernel
  rcases (crossed s false (by simp [ended]) _ hwr rfl).2 rfl with
    outside | ⟨_, n, success, hn, hsub⟩
  · exact absurd outside inside
  · exact ⟨s, _, _, trail, live, rfl, ended, _, hwr, rfl, n, success, hn, hsub⟩

/-- The scope that joined failed, and its write is in the store when the owner has completed. -/
theorem absolved_stored :
    firstOwner ∈ (blank.acts {} absolved).2.live ∧
      .ended ⟨.joined ⟨0⟩, ⟨1⟩⟩ false true ∈ (blank.acts {} absolved).1 ∧
      ⟨some ⟨1⟩, "x", some (.bool true)⟩ ∈ keptAtCommit ⟨0⟩ (blank.acts {} absolved).1
        ((blank.acts {} absolved).2.act {} (.leave firstOwner true)).2.world ∧
      (store {} ((blank.acts {} absolved).2.act {} (.leave firstOwner true)).2.world).get? "x"
        = some (.bool true) := by
  decide +kernel

/-- So it is not so that writes of failed participants are never kept until the commit. -/
theorem failed_participants_kept :
    ¬ ∀ (k : Coordinator) (w₀ : World) (es : List Flow.Event) (f : Flow), Blank k w₀ →
      Trail k ⟨w₀, []⟩ es f → ∀ o ∈ f.live, ∀ t outer, o.participation = .owner t outer →
        ∀ s told, .ended s false told ∈ es →
          s.participation = .joined t ∨ s.participation.nestedIn = some t →
          ∀ wr ∈ keptAtCommit t es (f.act k (.leave o true)).2.world,
            wr.context ≠ some s.context := by
  intro h
  obtain ⟨live, ended, hwr, _⟩ := absolved_stored
  exact h {} {} _ _ blank_default (trail_acts {} blank absolved) firstOwner live ⟨0⟩ none rfl
    ⟨.joined ⟨0⟩, ⟨1⟩⟩ true ended (.inl rfl) _ hwr rfl

end Coordinator

end ComponentHost
