import ComponentHost.Proofs.Transaction.Course

/-! # What a transaction goes back behind

  When a nested scope fails, its transaction goes back behind it: what happened in the transaction
  since the scope was begun is lost. Where scopes end in whatever order, this may be more than the
  work of that scope, and less.

  Here this is said of a log alone. `lost` tells what has been lost since by whether a nested scope
  that was begun earlier was undone later; `kept` lists the writes that have not been lost. A
  journal holds the kept writes, and each of its savepoints what was kept when its scope was begun.
-/

namespace ComponentHost

open World Attempt

namespace Participation

/-- The transaction that the scope is nested in. -/
def nestedIn : Participation → Option TxId
  | nested t _ _ => some t
  | owner _ _ | joined _ | apart _ => none

theorem nestedIn_eq {p : Participation} {t : TxId} :
    p.nestedIn = some t ↔ ∃ name mark, p = .nested t name mark := by
  cases p <;> simp [nestedIn]

end Participation

namespace Flow

variable {t : TxId} {e : Event} {es later later' mid earlier : List Event} {n : TransactionScope}
  {wr : WriteRecord}

/-! ### What is lost -/

namespace Event

/-- The nested scope that the transaction went back behind. -/
def undone (t : TxId) : Event → Option TransactionScope
  | ended s false true => if s.participation.nestedIn = some t then some s else none
  | _ => none

/-- The write that became pending in the transaction. -/
def written (t : TxId) : Event → Option WriteRecord
  | wrote wr (some u) => if u = t then some wr else none
  | _ => none

theorem undone_eq_some :
    e.undone t = some n ↔ e = ended n false true ∧ n.participation.nestedIn = some t := by
  cases e with
  | ended s success told =>
    cases success <;> cases told <;> simp [undone]
    exact ⟨fun ⟨h, he⟩ => ⟨he, he ▸ h⟩, fun ⟨he, h⟩ => ⟨he ▸ h, he⟩⟩
  | begun | wrote | nothing => simp [undone]

theorem written_eq_some : e.written t = some wr ↔ e = wrote wr (some t) := by
  cases e with
  | wrote wr' u => cases u <;> simp [written, and_comm]
  | begun | ended | nothing => simp [written]

theorem transaction_of_undone (h : e.undone t = some n) : e.transaction = some t := by
  obtain ⟨rfl, hn⟩ := undone_eq_some.mp h
  obtain ⟨name, mark, hp⟩ := Participation.nestedIn_eq.mp hn
  rw [transaction, hp]
  rfl

end Event

/-- What happened between an earlier part of a log and a later one has been lost since: the
    transaction went back behind a nested scope that had been begun by then. -/
def lost (t : TxId) (later earlier : List Event) : Bool :=
  later.any fun e => (e.undone t).any fun n => decide (.begun n ∈ earlier)

theorem lost_iff : lost t later earlier = true ↔ ∃ n : TransactionScope,
    n.participation.nestedIn = some t ∧ .ended n false true ∈ later ∧ .begun n ∈ earlier := by
  simp only [lost, List.any_eq_true, Option.any_eq_true, decide_eq_true_eq, Event.undone_eq_some]
  constructor
  · rintro ⟨e, he, n, ⟨rfl, hn⟩, hb⟩
    exact ⟨n, hn, he, hb⟩
  · rintro ⟨n, hn, he, hb⟩
    exact ⟨_, he, n, ⟨rfl, hn⟩, hb⟩

theorem lost_eq_false : lost t later earlier = false ↔ ∀ n : TransactionScope,
    n.participation.nestedIn = some t → .ended n false true ∈ later → .begun n ∉ earlier := by
  rw [← Bool.not_eq_true, lost_iff]
  simp

theorem lost_append :
    lost t (later ++ later') earlier = (lost t later earlier || lost t later' earlier) :=
  List.any_append

theorem lost_singleton (h : e.undone t = none) : lost t [e] earlier = false := by
  simp [lost, h]

/-- What was not lost at some time was not lost earlier. -/
theorem lost_mono (h : lost t later es = false) (hs : earlier ⊆ es) :
    lost t later earlier = false :=
  lost_eq_false.mpr fun n hn he hb => lost_eq_false.mp h n hn he (hs hb)

/-- To go back behind a scope loses nothing that happened before the scope was begun. -/
theorem lost_undone (hm : lost t mid earlier = false) (hb : .begun n ∉ earlier) :
    lost t (.ended n false true :: mid ++ [.begun n]) earlier = false := by
  refine lost_eq_false.mpr ?_
  intro n' hn' he hb'
  have he : n' = n ∨ .ended n' false true ∈ mid := by simpa using he
  rcases he with rfl | he
  · exact hb hb'
  · exact lost_eq_false.mp hm n' hn' he hb'

/-! ### What is kept -/

/-- The writes of a log that have not been lost, if more happened later. -/
def keptFrom (t : TxId) (later : List Event) : List Event → List WriteRecord
  | [] => []
  | e :: earlier => keptFrom t (later ++ [e]) earlier
      ++ if lost t later earlier then [] else (e.written t).toList

/-- The writes of a log that have not been lost, in the order in which they were issued. -/
def kept (t : TxId) (es : List Event) : List WriteRecord := keptFrom t [] es

theorem mem_keptFrom : wr ∈ keptFrom t later es ↔
    ∃ mid earlier, es = mid ++ .wrote wr (some t) :: earlier ∧
      lost t (later ++ mid) earlier = false := by
  induction es generalizing later with
  | nil => simp [keptFrom]
  | cons e es ih =>
    rw [keptFrom, List.mem_append, ih]
    constructor
    -- The event at the head is the write, or it comes after it.
    · rintro (⟨mid, earlier, rfl, hl⟩ | hw)
      · exact ⟨e :: mid, earlier, rfl, by simpa using hl⟩
      · cases hl : lost t later es with
        | true => simp [hl] at hw
        | false =>
          rw [hl] at hw
          obtain rfl := Event.written_eq_some.mp (Option.mem_toList.mp hw)
          exact ⟨[], es, rfl, by simpa using hl⟩
    · rintro ⟨mid, earlier, hes, hl⟩
      rcases cons_eq_split hes with ⟨rfl, rfl, rfl⟩ | ⟨mid', rfl, rfl⟩
      · rw [List.append_nil] at hl
        exact .inr (by simp [hl, Event.written])
      · exact .inl ⟨mid', earlier, rfl, by simpa using hl⟩

/-- A write is kept if the transaction did not go back, later, behind a nested scope that had been
    begun earlier. -/
theorem mem_kept : wr ∈ kept t es ↔ ∃ later earlier, es = later ++ .wrote wr (some t) :: earlier ∧
    lost t later earlier = false := mem_keptFrom

/-- What is kept depends on later events only as far as they undo something. -/
theorem keptFrom_congr
    (h : ∀ earlier, earlier ⊆ es → lost t later earlier = lost t later' earlier) :
    keptFrom t later es = keptFrom t later' es := by
  induction es generalizing later later' with
  | nil => rfl
  | cons e es ih =>
    have before : ∀ earlier, earlier ⊆ es →
        lost t (later ++ [e]) earlier = lost t (later' ++ [e]) earlier := by
      intro earlier hs
      rw [lost_append, lost_append, h earlier (List.subset_cons_of_subset e hs)]
    rw [keptFrom, keptFrom, ih before, h es (List.subset_cons_self e es)]

theorem keptFrom_eq_kept (h : lost t later es = false) : keptFrom t later es = kept t es :=
  keptFrom_congr fun _ hs => lost_mono h hs

/-- An event that undoes nothing adds what it writes. -/
theorem kept_cons (h : e.undone t = none) :
    kept t (e :: es) = kept t es ++ (e.written t).toList := by
  have none : lost t [] es = false := rfl
  rw [kept, keptFrom, none, List.nil_append, keptFrom_eq_kept (lost_singleton h)]
  rfl

/-- Nothing is kept of what happened since a scope was begun that is undone later. -/
theorem keptFrom_undone (hn : n.participation.nestedIn = some t)
    (hu : .ended n false true ∈ later) :
    keptFrom t later (mid ++ .begun n :: es) = keptFrom t (later ++ mid ++ [.begun n]) es := by
  induction mid generalizing later with
  | nil => simp [keptFrom, Event.written]
  | cons e mid ih =>
    have gone : lost t later (mid ++ .begun n :: es) = true :=
      lost_iff.mpr ⟨n, hn, hu, by simp⟩
    rw [List.cons_append, keptFrom, gone, ih (List.mem_append_left _ hu)]
    simp

/-- After a transaction went back behind a scope, what was kept when the scope was begun is kept. -/
theorem kept_undone (hn : n.participation.nestedIn = some t) (hm : lost t mid es = false)
    (hb : .begun n ∉ es) : kept t (.ended n false true :: (mid ++ .begun n :: es)) = kept t es := by
  have none : (Event.ended n false true).written t = none := rfl
  rw [kept, keptFrom, none]
  simp only [Option.toList_none, ite_self, List.append_nil, List.nil_append]
  rw [keptFrom_undone hn List.mem_cons_self]
  exact keptFrom_eq_kept (lost_undone hm hb)

/-! ### Savepoints -/

/-- Each savepoint of a list, oldest first, was set for a nested scope of the log: it has the writes
    that were kept then, and nothing that happened before has been lost since. -/
inductive Saved (t : TxId) : List Event → List (String × Writes) → Prop
  | none {es : List Event} : Saved t es []
  /-- The latest savepoint was set after the others. -/
  | set {later earlier : List Event} {s : TransactionScope} {name : String} {mark : Bool}
      {sps : List (String × Writes)} (hs : s.participation = .nested t name mark)
      (hl : lost t later earlier = false) (h : Saved t earlier sps) :
      Saved t (later ++ .begun s :: earlier) (sps ++ [(name, Writes.replay {} (kept t earlier))])

namespace Saved

variable {sps sps' : List (String × Writes)} {name : String} {writes : Writes}

/-- Savepoints outlast what undoes nothing from before them. -/
theorem extend (h : Saved t es sps) (hl : lost t later es = false) : Saved t (later ++ es) sps := by
  cases h with
  | none => exact .none
  | @set later' earlier s name mark sps hs hl' h =>
    rw [← List.append_assoc]
    refine .set hs ?_ h
    rw [lost_append, hl', Bool.or_false]
    exact lost_mono hl (by simp)

/-- A savepoint was set for a scope, after the savepoints before it and before those after it. -/
theorem split (h : Saved t es (sps ++ (name, writes) :: sps')) :
    ∃ later s earlier mark, es = later ++ .begun s :: earlier ∧
      s.participation = .nested t name mark ∧ lost t later earlier = false ∧
      writes = Writes.replay {} (kept t earlier) ∧ Saved t earlier sps ∧
      ∀ sp ∈ sps', ∃ s' mark', .begun s' ∈ later ∧ s'.participation = .nested t sp.1 mark' := by
  -- The induction goes from the latest savepoint back to the one in question.
  generalize hall : sps ++ (name, writes) :: sps' = all at h
  induction h generalizing sps' with
  | none => simp at hall
  | @set later earlier s name' mark sps₀ hs hl h ih =>
    rcases List.eq_nil_or_concat sps' with rfl | ⟨init, last, rfl⟩
    · obtain ⟨rfl, hlast⟩ := List.append_inj' hall rfl
      obtain ⟨rfl, rfl⟩ := Prod.mk.inj (List.singleton_inj.mp hlast)
      exact ⟨later, s, earlier, mark, rfl, hs, hl, rfl, h, by simp⟩
    · have hall : (sps ++ (name, writes) :: init) ++ [last]
          = sps₀ ++ [(name', Writes.replay {} (kept t earlier))] := by simpa using hall
      obtain ⟨hinit, hlast⟩ := List.append_inj' hall rfl
      obtain ⟨later', s', earlier', mark', rfl, hs', hl', hw, h', hafter⟩ := ih hinit
      refine ⟨later ++ .begun s :: later', s', earlier', mark', by simp, hs', ?_, hw, h', ?_⟩
      · rw [List.append_cons, lost_append, lost_append, hl', Bool.or_false,
          lost_singleton rfl, Bool.or_false]
        exact lost_mono hl (by simp)
      · intro sp hsp
        rw [List.concat_eq_append] at hsp
        rcases List.mem_append.mp hsp with hsp | hsp
        · obtain ⟨s'', mark'', hb, hp⟩ := hafter sp hsp
          exact ⟨s'', mark'', by simp [hb], hp⟩
        · obtain rfl := List.mem_singleton.mp hsp
          obtain rfl := List.singleton_inj.mp hlast
          exact ⟨s, mark, by simp, hs⟩

/-- The savepoints before another one are still there when that one is gone. -/
theorem before (h : Saved t es (sps ++ (name, writes) :: sps')) : Saved t es sps := by
  obtain ⟨later, s, earlier, mark, rfl, _, hl, _, h, _⟩ := h.split
  rw [List.append_cons]
  refine h.extend ?_
  rw [lost_append, hl, lost_singleton rfl]
  rfl

end Saved

end Flow

end ComponentHost
