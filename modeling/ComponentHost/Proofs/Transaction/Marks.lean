import ComponentHost.Proofs.Transaction.Pending

/-! # Marks and savepoints of live scopes

  A scope that joined a transaction and fails marks it; a nested scope remembers the mark that it
  found on entry, and puts it back if it is undone; and its savepoint goes with that of any nested
  scope that was begun before it. So when scopes end in whatever order, a mark can be taken away
  that another scope relies on, and a savepoint can be gone before its scope ends.

  `Watched` says exactly how far this goes. A failure is heeded as long as it is not lost, just as a
  write is kept; and a live nested scope has its savepoint unless it was overtaken by a nested scope
  that was begun before it.
-/

namespace ComponentHost

open World Attempt

namespace Flow

variable {t : TxId} {e : Event} {es later later' earlier : List Event} {n s : TransactionScope}
  {mark mark' : Bool}

/-! ### Marks -/

/-- The failures of scopes that joined the transaction are heeded: the transaction is marked, or
    went back behind a nested scope that had been begun before the failure. -/
def Heeded (t : TxId) (mark : Bool) (es : List Event) : Prop :=
  ∀ later s told earlier, es = later ++ .ended s false told :: earlier →
    s.participation = .joined t → mark = true ∨ lost t later earlier = true

theorem lost_of_subset (h : lost t later earlier = true) (hs : later ⊆ later') :
    lost t later' earlier = true := by
  obtain ⟨n, hn, he, hb⟩ := lost_iff.mp h
  exact lost_iff.mpr ⟨n, hn, hs he, hb⟩

namespace Heeded

/-- Without such failures there is nothing to heed. -/
theorem of_none (h : ∀ s told, .ended s false told ∈ es → s.participation ≠ .joined t) :
    Heeded t mark es := by
  rintro later s told earlier rfl hs
  exact absurd hs (h s told (by simp))

/-- A mark that stays, and is set on a failure, goes on heeding. -/
theorem cons (h : Heeded t mark es) (hm : mark = true → mark' = true)
    (he : ∀ s told, e = .ended s false told → s.participation = .joined t → mark' = true) :
    Heeded t mark' (e :: es) := by
  intro later s told earlier hes hs
  rcases cons_eq_split hes with ⟨_, he', _⟩ | ⟨mid, rfl, hes'⟩
  · exact .inl (he s told he' hs)
  · rcases h mid s told earlier hes' hs with hmark | hlost
    · exact .inl (hm hmark)
    · exact .inr (lost_of_subset hlost (List.subset_cons_self e mid))

/-- When a nested scope is undone the mark from its entry is put back: it heeds the failures from
    before, and those since are lost. -/
theorem undone (hn : n.participation.nestedIn = some t) (h : Heeded t mark earlier) :
    Heeded t mark (.ended n false true :: (later ++ .begun n :: earlier)) := by
  intro later' s told earlier' hes hs
  rcases cons_eq_split hes with ⟨_, he, _⟩ | ⟨mid, rfl, hmid⟩
  · cases he
    rw [hs] at hn
    cases hn
  · rcases append_eq_split hmid with ⟨mid', rfl, rfl⟩ | ⟨mid', rfl, hmid'⟩
    · exact .inr (lost_iff.mpr ⟨n, hn, List.mem_cons_self, by simp⟩)
    · rcases cons_eq_split hmid' with ⟨_, he, _⟩ | ⟨mid'', rfl, hearlier⟩
      · cases he
      · rcases h mid'' s told earlier' hearlier hs with hmark | hlost
        · exact .inl hmark
        · exact .inr (lost_of_subset hlost fun e hm => by simp [hm])

end Heeded

/-! ### Savepoints that are gone -/

/-- A nested scope that was begun before the scope has ended since. -/
def Overtaken (t : TxId) (s : TransactionScope) (es : List Event) : Prop :=
  ∃ later earlier, ∃ n : TransactionScope, ∃ success, es = later ++ .begun s :: earlier ∧
    n.participation.nestedIn = some t ∧ .begun n ∈ earlier ∧ .ended n success true ∈ later

theorem Overtaken.cons (h : Overtaken t s es) (e : Event) : Overtaken t s (e :: es) := by
  obtain ⟨later, earlier, n, success, rfl, hn, hb, he⟩ := h
  exact ⟨e :: later, earlier, n, success, rfl, hn, hb, List.mem_cons_of_mem e he⟩

end Flow

namespace Coordinator

open ComponentHost.Flow

variable {k : Coordinator} {w w' w₀ : World} {t : TxId} {f f' : Flow} {e : Flow.Event}
  {es later earlier : List Flow.Event} {live live' : List TransactionScope}
  {n s o : TransactionScope} {tx tx' : Transaction} {j j' : Journal} {outer : Option TxId}
  {success told : Bool}

/-- What the live scopes of a transaction rely on. -/
structure Watched (t : TxId) (es : List Flow.Event) (live : List TransactionScope)
    (tx : Transaction) (j : Journal) : Prop where
  /-- The mark heeds the failures of scopes that joined. -/
  heeded : Heeded t tx.rollbackOnly es
  /-- The mark that a live nested scope remembers heeds the failures from before it was begun. -/
  remembered : ∀ s ∈ live, ∀ name mark, s.participation = .nested t name mark →
    ∃ later earlier, es = later ++ .begun s :: earlier ∧ Heeded t mark earlier
  /-- A live nested scope has its savepoint, unless it was overtaken. -/
  held : ∀ s ∈ live, ∀ name mark, s.participation = .nested t name mark →
    (∃ sp ∈ j.savepoints, sp.1 = name) ∨ Overtaken t s es

namespace Watched

/-- Nobody relies on a new transaction. -/
theorem opened (hs : s.participation = .owner t outer)
    (hes : ∀ e ∈ es, e.transaction ≠ some t) (hc : Chronicle (.begun s :: es) f) :
    Watched t (.begun s :: es) f.live tx {} := by
  have none {s' : TransactionScope} (hm : s' ∈ f.live) {name : String} {mark : Bool}
      (hp : s'.participation = .nested t name mark) : False := by
    rcases List.mem_cons.mp (hc.begun s' hm) with he | hm
    · cases he
      rw [hs] at hp
      cases hp
    · exact hes _ hm (by rw [Flow.Event.transaction, hp]; rfl)
  refine ⟨.of_none ?_, fun s' hm _ _ hp => (none hm hp).elim, fun s' hm _ _ hp => (none hm hp).elim⟩
  intro s' told hm hp
  have hm : .ended s' false told ∈ es := by simpa using hm
  exact hes _ hm (by rw [Flow.Event.transaction, hp]; rfl)

/-- Where no savepoint goes and no nested scope comes, it is enough that the mark is watched. -/
theorem skip (h : Watched t es live tx j) (hm : tx.rollbackOnly = true → tx'.rollbackOnly = true)
    (he : ∀ s told, e = .ended s false told → s.participation = .joined t →
      tx'.rollbackOnly = true)
    (hl : ∀ s ∈ live', s.participation.nestedIn = some t → s ∈ live)
    (hj : j.savepoints = j'.savepoints) : Watched t (e :: es) live' tx' j' := by
  constructor
  case heeded => exact h.heeded.cons hm he
  case remembered =>
    intro s hs name mark hp
    obtain ⟨later, earlier, rfl, hh⟩ :=
      h.remembered s (hl s hs (Participation.nestedIn_eq.mpr ⟨name, mark, hp⟩)) name mark hp
    exact ⟨e :: later, earlier, rfl, hh⟩
  case held =>
    intro s hs name mark hp
    rw [← hj]
    rcases h.held s (hl s hs (Participation.nestedIn_eq.mpr ⟨name, mark, hp⟩)) name mark hp
      with hsp | ho
    · exact .inl hsp
    · exact .inr (ho.cons e)

/-- A nested scope remembers the mark, and has its savepoint. -/
theorem forked {name : String} (h : Watched t es live tx j)
    (hs : s.participation = .nested t name tx.rollbackOnly)
    (hl : ∀ s' ∈ live', s' ∈ live ∨ s' = s) :
    Watched t (.begun s :: es) live' { tx with savepoints := tx.savepoints + 1 }
      (j.setSavepoint name) := by
  constructor
  case heeded => exact h.heeded.cons id (by simp)
  case remembered =>
    intro s' hs' name' mark hp
    rcases hl s' hs' with hs' | rfl
    · obtain ⟨later, earlier, rfl, hh⟩ := h.remembered s' hs' name' mark hp
      exact ⟨.begun s :: later, earlier, rfl, hh⟩
    -- The savepoint of the new scope is the last one, and was set with the mark of now.
    · rw [hs] at hp
      cases hp
      exact ⟨[], es, rfl, h.heeded⟩
  case held =>
    intro s' hs' name' mark hp
    rcases hl s' hs' with hs' | rfl
    · rcases h.held s' hs' name' mark hp with ⟨sp, hsp, hn⟩ | ho
      · exact .inl ⟨sp, List.mem_append_left _ hsp, hn⟩
      · exact .inr (ho.cons _)
    · rw [hs] at hp
      cases hp
      exact .inl ⟨_, List.mem_append_right _ (List.mem_singleton_self _), rfl⟩

/-- When a savepoint is given up or gone back to, the live scopes whose savepoints go with it are
    overtaken by its scope. -/
theorem held_after {name : String} {mark : Bool} {writes : Writes}
    {sps sps' : List (String × Writes)} (h : Watched t es live tx j) (hr : Reflects k t es tx j)
    (hb : ∀ s ∈ live, .begun s ∈ es) (hs : s.participation = .nested t name mark)
    (hlive : s ∈ live) (hj : j.savepoints = sps ++ (name, writes) :: sps')
    (hl : ∀ s' ∈ live', s' ∈ live ∧ s' ≠ s) :
    ∀ s' ∈ live', ∀ name' mark', s'.participation = .nested t name' mark' →
      (∃ sp ∈ sps, sp.1 = name') ∨ Overtaken t s' (.ended s success true :: es) := by
  intro s' hs' name' mark' hp
  obtain ⟨hs', hne⟩ := hl s' hs'
  rcases h.held s' hs' name' mark' hp with ⟨sp, hsp, rfl⟩ | ho
  -- It lies below the savepoint that was ended, or above, where it has been taken away.
  · rw [hj] at hsp
    rcases List.mem_append.mp hsp with hsp | hsp
    · exact .inl ⟨sp, hsp, rfl⟩
    · rcases List.mem_cons.mp hsp with rfl | hsp
      · exact absurd (hr.unique s' s name mark' mark (hb s' hs') (hb s hlive) hp hs) hne
      · -- The savepoint was set later, so that its scope was begun later.
        obtain ⟨later, earlier, rfl, _, _, _, hafter⟩ := hr.savepoint hs (hb s hlive) hj
        obtain ⟨s'', mark'', hm, hp'⟩ := hafter sp hsp
        obtain rfl : s' = s'' :=
          hr.unique s' s'' sp.1 mark' mark'' (hb s' hs') (by simp [hm]) hp hp'
        obtain ⟨later₁, later₂, rfl⟩ := List.append_of_mem hm
        exact .inr ⟨.ended s success true :: later₁, later₂ ++ .begun s :: earlier, s, success,
          by simp, Participation.nestedIn_eq.mpr ⟨name, mark, hs⟩, by simp, by simp⟩
  · exact .inr (ho.cons _)

end Watched

/-- Every effect leaves the live scopes what they rely on. -/
theorem Effect.watched (h : Effect k t tx j e tx' j') (hw : Watched t es live tx j)
    (hr : Reflects k t es tx j) (hb : ∀ s ∈ live, .begun s ∈ es)
    (hl : ∀ s ∈ live', s ∈ live ∨ e = .begun s)
    (he : ∀ s success told, e = .ended s success told → s ∈ live ∧ s ∉ live') :
    Watched t (e :: es) live' tx' j' := by
  -- Unless a nested scope is begun, those that are live were live before.
  have older (hn : ∀ s, e = .begun s → s.participation.nestedIn ≠ some t) :
      ∀ s ∈ live', s.participation.nestedIn = some t → s ∈ live := by
    intro s hs hp
    rcases hl s hs with hs | rfl
    · exact hs
    · exact absurd hp (hn s rfl)
  have others {s : TransactionScope} {success told : Bool} (hended : e = .ended s success told) :
      ∀ s' ∈ live', s' ∈ live ∧ s' ≠ s := by
    intro s' hs'
    refine ⟨?_, fun hs => (he s success told hended).2 (hs ▸ hs')⟩
    rcases hl s' hs' with hs' | hs'
    · exact hs'
    · rw [hended] at hs'
      cases hs'
  cases h with
  | elsewhere hn =>
    refine hw.skip id ?_ (older ?_) rfl
    · rintro s told rfl hp
      exact absurd (by rw [Flow.Event.transaction, hp]; rfl) hn
    · rintro s rfl hp
      obtain ⟨name, mark, hp⟩ := Participation.nestedIn_eq.mp hp
      exact hn (by rw [Flow.Event.transaction, hp]; rfl)
  | joined hs =>
    refine hw.skip id (by simp) (older ?_) rfl
    rintro s ⟨⟩
    simp [hs, Participation.nestedIn]
  | named => exact hw.skip id (by simp) (older (by simp)) rfl
  | forked hs =>
    refine hw.forked hs fun s' hs' => (hl s' hs').imp_right ?_
    rintro ⟨⟩
    rfl
  | wrote => exact hw.skip id (by simp) (older (by simp)) rfl
  | left hs hm => exact hw.skip hm (by simp) (older (by simp)) rfl
  | failed hs => exact hw.skip (fun _ => rfl) (fun _ _ _ _ => rfl) (older (by simp)) rfl
  | @released s name mark writes sps sps' hs hj =>
    refine ⟨hw.heeded.cons id (by simp), ?_,
      hw.held_after hr hb hs (he _ _ _ rfl).1 hj (others rfl)⟩
    intro s' hs' name' mark' hp
    obtain ⟨later, earlier, rfl, hh⟩ := hw.remembered s' (others rfl s' hs').1 name' mark' hp
    exact ⟨.ended s true true :: later, earlier, rfl, hh⟩
  | @undone s name mark writes sps sps' hs hj =>
    obtain ⟨later, earlier, rfl, hh⟩ := hw.remembered s (he _ _ _ rfl).1 name mark hs
    refine ⟨.undone (Participation.nestedIn_eq.mpr ⟨name, mark, hs⟩) hh, ?_,
      hw.held_after hr hb hs (he _ _ _ rfl).1 hj (others rfl)⟩
    intro s' hs' name' mark' hp
    obtain ⟨later', earlier', hes, hh'⟩ :=
      hw.remembered s' (others rfl s' hs').1 name' mark' hp
    exact ⟨.ended s false true :: later', earlier', by rw [hes]; rfl, hh'⟩
  | missing hs =>
    refine hw.skip id ?_ (older (by simp)) rfl
    rintro s' told ⟨⟩ hp
    rw [hs] at hp
    cases hp

/-! ### Along a trail -/

/-- What becomes of the live scopes in a move. -/
theorem Move.live_change (h : Move k f e f') (ho : f.live.Nodup) :
    (∀ s ∈ f'.live, s ∈ f.live ∨ e = .begun s) ∧
      ∀ s success told, e = .ended s success told → s ∈ f.live ∧ s ∉ f'.live := by
  cases h with
  | begun =>
    refine ⟨fun s hs => ?_, by simp⟩
    rcases List.mem_cons.mp hs with rfl | hs
    · exact .inr rfl
    · exact .inl hs
  | refused | wrote | idle => exact ⟨fun s hs => .inl hs, by simp⟩
  | ended hs =>
    refine ⟨fun s' hs' => .inl (List.mem_of_mem_erase hs'), ?_⟩
    rintro s' success told ⟨⟩
    exact ⟨hs, ho.not_mem_erase⟩

theorem Trail.watched (h : Trail k ⟨w₀, []⟩ es f) (h₀ : Blank k w₀) :
    ∀ t tx j, f.world.transaction? t = some tx → k.journal f.world t = some j →
      Watched t es f.live tx j := by
  refine h.course (P := fun t es live tx j => Watched t es live tx j) h₀ ?_ ?_
  · intro t es s outer f tx hs hes hc
    exact .opened hs hes hc
  · intro t es f e f' tx j tx' j' ht hm htx hj effect ih
    have chronicle := ht.chronicle h₀
    obtain ⟨hl, he⟩ := hm.live_change chronicle.live_once
    exact effect.watched ih (ht.reflects h₀ t tx j htx hj) chronicle.begun hl he

end Coordinator

end ComponentHost
