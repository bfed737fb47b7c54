import ComponentHost.Invocation.Proxy
import Mathlib.Data.List.Nodup

/-! # Method tables

  A table is built by declaring interfaces and adding methods, one of which takes the place of an
  earlier one with its owner and name. As long as no name of a method has a colon in it, the
  qualified names tell the methods of a table apart, and none of them is the name of a method. What
  a name means to a caller can then be said by the exposed methods alone, as `MethodTable.meaning`
  does.
-/

namespace ComponentHost

/-! ### Qualified names -/

/-- Parts behind a separator that does not occur in them can be told apart. -/
theorem append_separator_inj {α : Type} {c : α} {as bs xs ys : List α} (hx : c ∉ xs) (hy : c ∉ ys)
    (h : as ++ c :: xs = bs ++ c :: ys) : as = bs ∧ xs = ys := by
  -- If one front part goes beyond the other, a separator lies in one of the parts behind.
  rcases List.append_eq_append_iff.mp h with ⟨cs, rfl, hc⟩ | ⟨cs, rfl, hc⟩
  · cases cs with
    | nil => simpa using hc
    | cons b cs =>
      obtain ⟨_, rfl⟩ := List.cons.inj hc
      exact absurd (by simp) hx
  · cases cs with
    | nil => simpa [eq_comm] using hc
    | cons b cs =>
      obtain ⟨_, rfl⟩ := List.cons.inj hc
      exact absurd (by simp) hy

namespace MethodSignature

variable {m n : MethodSignature}

/-- The name of the method has no colon in it, as names in programs do not. -/
def IsPlain (m : MethodSignature) : Prop := ':' ∉ m.name.toList

instance : Decidable m.IsPlain := by unfold IsPlain; infer_instance

theorem qualifiedName_toList (m : MethodSignature) :
    m.qualifiedName.toList = (m.owner.toList ++ [':']) ++ ':' :: m.name.toList := by
  simp [qualifiedName, String.toList_append]

/-- A qualified name tells owner and name. -/
theorem qualifiedName_inj (hm : m.IsPlain) (hn : n.IsPlain) :
    m.qualifiedName = n.qualifiedName ↔ m.owner = n.owner ∧ m.name = n.name := by
  constructor
  · intro h
    have h := congrArg String.toList h
    rw [qualifiedName_toList, qualifiedName_toList] at h
    obtain ⟨ho, hname⟩ := append_separator_inj hm hn h
    exact ⟨String.toList_inj.mp (List.append_cancel_right ho), String.toList_inj.mp hname⟩
  · rintro ⟨ho, hname⟩
    rw [qualifiedName, qualifiedName, ho, hname]

/-- A qualified name is never the name of a method. -/
theorem IsPlain.ne_qualifiedName (hm : m.IsPlain) (n : MethodSignature) :
    m.name ≠ n.qualifiedName := by
  intro h
  refine hm ?_
  rw [h, qualifiedName_toList]
  simp

end MethodSignature

/-! ### Tables -/

/-- A call that adds to a method table. -/
inductive TableCall (β : Type)
  | implement (interface : String)
  | method (signature : MethodSignature) (body : β)
  /-- A method without a body is added. -/
  | abstractMethod (signature : MethodSignature)

namespace TableCall

variable {β : Type}

def slot? : TableCall β → Option (MethodSlot β)
  | implement _ => none
  | method signature body => some ⟨signature, some body⟩
  | abstractMethod signature => some ⟨signature, none⟩

/-- The method that a call adds, if any, has a plain name. -/
def IsPlain (c : TableCall β) : Prop := ∀ slot, c.slot? = some slot → slot.signature.IsPlain

end TableCall

namespace MethodTable

variable {β : Type} {t : MethodTable β} {strategy : ProxyStrategy} {slot s : MethodSlot β}
  {slots : List (MethodSlot β)} {name : String}

def perform (t : MethodTable β) : TableCall β → MethodTable β
  | .implement interface => t.implement interface
  | .method signature body => t.put ⟨signature, some body⟩
  | .abstractMethod signature => t.put ⟨signature, none⟩

def ofCalls (typeName : String) (calls : List (TableCall β)) : MethodTable β :=
  calls.foldl perform { typeName }

def Exposes (t : MethodTable β) : ProxyStrategy → MethodSlot β → Prop
  | .interface, slot => slot.signature.owner ∈ t.interfaces
  | .subclass, _ => True

/-- A method is exposed, and calls of it pass the filters. -/
def Intercepts (t : MethodTable β) : ProxyStrategy → MethodSlot β → Prop
  | .interface, slot => slot.signature.owner ∈ t.interfaces
  | .subclass, slot => slot.signature.isSealed = false

instance : Decidable (t.Exposes strategy slot) := by
  unfold Exposes
  split <;> infer_instance

instance : Decidable (t.Intercepts strategy slot) := by
  unfold Intercepts
  split <;> infer_instance

theorem Intercepts.exposes (h : t.Intercepts strategy slot) : t.Exposes strategy slot := by
  cases strategy with
  | interface => exact h
  | subclass => trivial

def exposed (t : MethodTable β) (strategy : ProxyStrategy) : List (MethodSlot β) :=
  t.slots.filter (t.Exposes strategy ·)

def namesakes (t : MethodTable β) (strategy : ProxyStrategy) (name : String) :
    List (MethodSlot β) :=
  (t.exposed strategy).filter (·.signature.name = name)

/-- What a name means: the exposed method of that qualified name, or else the only exposed method of
    that name. -/
def meaning (t : MethodTable β) (strategy : ProxyStrategy) (name : String) :
    Except Error (MethodSlot β) :=
  match (t.exposed strategy).find? (·.signature.qualifiedName = name) with
  | some slot => .ok slot
  | none =>
    match t.namesakes strategy name with
    | [] => .error (.methodNotFound t.typeName name)
    | [slot] => .ok slot
    | several => .error (.invalidArgument name ("ambiguous method name, use one of "
        ++ Text.quotedList (several.map (·.signature.qualifiedName))))

/-- Names are plain, and no two methods share a qualified name. -/
structure Regular (t : MethodTable β) : Prop where
  plain : ∀ s ∈ t.slots, s.signature.IsPlain
  distinct : (t.slots.map (·.signature.qualifiedName)).Nodup

theorem sameSlot_iff (hs : s.signature.IsPlain) (hslot : slot.signature.IsPlain) :
    sameSlot s slot = true ↔ s.signature.qualifiedName = slot.signature.qualifiedName := by
  rw [MethodSignature.qualifiedName_inj hs hslot]
  simp [sameSlot]

theorem mem_putSlot (h : s ∈ putSlot slot slots) : s = slot ∨ s ∈ slots := by
  induction slots with
  | nil => simpa [putSlot] using h
  | cons first rest ih =>
    rw [putSlot] at h
    split at h
    · rcases List.mem_cons.mp h with h | h
      · exact .inl h
      · exact .inr (List.mem_cons_of_mem _ h)
    · rcases List.mem_cons.mp h with h | h
      · exact .inr (by simp [h])
      · exact (ih h).imp id (List.mem_cons_of_mem _)

/-- A method that is put in takes the place of the one with its qualified name, or comes last. -/
theorem qualifiedNames_putSlot (hslots : ∀ s ∈ slots, s.signature.IsPlain)
    (hslot : slot.signature.IsPlain) :
    (putSlot slot slots).map (·.signature.qualifiedName)
      = if slot.signature.qualifiedName ∈ slots.map (·.signature.qualifiedName)
        then slots.map (·.signature.qualifiedName)
        else slots.map (·.signature.qualifiedName) ++ [slot.signature.qualifiedName] := by
  induction slots with
  | nil => simp [putSlot]
  | cons first rest ih =>
    have same := sameSlot_iff (hslots first List.mem_cons_self) hslot
    have ih := ih fun s hs => hslots s (List.mem_cons_of_mem _ hs)
    -- A slot of the same name is replaced where it stands.
    by_cases hq : first.signature.qualifiedName = slot.signature.qualifiedName
    · simp [putSlot, same.mpr hq, hq]
    · have hne : sameSlot first slot = false := by
        rw [Bool.eq_false_iff, ne_eq, same]
        exact hq
      simp only [putSlot, hne, Bool.false_eq_true, if_false, List.map_cons, ih, List.mem_cons,
        Ne.symm hq, false_or]
      split <;> rfl

theorem Regular.put (h : t.Regular) (hslot : slot.signature.IsPlain) : (t.put slot).Regular where
  plain s hs := by
    rcases mem_putSlot hs with rfl | hs
    · exact hslot
    · exact h.plain s hs
  distinct := by
    have names := qualifiedNames_putSlot h.plain hslot
    rw [MethodTable.put, names]
    split
    · exact h.distinct
    · next hm =>
      refine List.nodup_append.mpr ⟨h.distinct, by simp, ?_⟩
      rintro a ha _ hb rfl
      exact hm (List.mem_singleton.mp hb ▸ ha)

theorem Regular.perform (h : t.Regular) {c : TableCall β} (hc : c.IsPlain) :
    (t.perform c).Regular := by
  cases c with
  | implement interface => exact ⟨h.plain, h.distinct⟩
  | method signature body => exact h.put (hc _ rfl)
  | abstractMethod signature => exact h.put (hc _ rfl)

/-- In a regular table a qualified name tells which method it is. -/
theorem Regular.eq_of_qualifiedName (h : t.Regular) (hs : s ∈ t.slots) (hslot : slot ∈ t.slots)
    (hq : s.signature.qualifiedName = slot.signature.qualifiedName) : s = slot :=
  List.inj_on_of_nodup_map h.distinct hs hslot hq

theorem Regular.find?_exposed (h : t.Regular) (hs : slot ∈ t.exposed strategy) :
    (t.exposed strategy).find? (·.signature.qualifiedName = slot.signature.qualifiedName)
      = some slot := by
  cases hf : (t.exposed strategy).find?
      (·.signature.qualifiedName = slot.signature.qualifiedName) with
  | none => exact absurd (List.find?_eq_none.mp hf slot hs) (by simp)
  | some s =>
    have hs' := List.mem_of_find?_eq_some hf
    have hq : s.signature.qualifiedName = slot.signature.qualifiedName := by
      simpa using List.find?_some hf
    rw [h.eq_of_qualifiedName (List.mem_filter.mp hs').1 (List.mem_filter.mp hs).1 hq]

/-- Every table that is built from methods of plain names is regular. -/
theorem regular_ofCalls {calls : List (TableCall β)} (h : ∀ c ∈ calls, c.IsPlain)
    (typeName : String) : (ofCalls typeName calls).Regular := by
  have along (t : MethodTable β) (ht : t.Regular) :
      (calls.foldl MethodTable.perform t).Regular := by
    induction calls generalizing t with
    | nil => exact ht
    | cons c calls ih =>
      exact ih (fun c hc => h c (List.mem_cons_of_mem _ hc)) _ (ht.perform (h c List.mem_cons_self))
  exact along _ ⟨by simp, List.nodup_nil⟩

end MethodTable

end ComponentHost
