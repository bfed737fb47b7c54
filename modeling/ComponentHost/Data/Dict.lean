/-! # Dictionaries

  A finite map as an association list. A key written again keeps its place, a new key goes to the
  end, so the list also tells the order of the first writes. The view is `get?`; each operation has
  one lemma that says what it does to the view.
-/

namespace ComponentHost

/-- A finite map from `κ` to `ν`, as its list of entries. -/
structure Dict (κ ν : Type) where
  /-- The entries, in the order in which their keys came. -/
  entries : List (κ × ν)
  deriving Repr, DecidableEq

namespace Dict

variable {κ ν : Type} [DecidableEq κ]

instance : EmptyCollection (Dict κ ν) := ⟨⟨[]⟩⟩
instance : Inhabited (Dict κ ν) := ⟨{}⟩

def find? (k : κ) : List (κ × ν) → Option ν
  | [] => none
  | (k', v) :: rest => if k' = k then some v else find? k rest

/-- Overwrites the entry of a key, or adds one at the end. -/
def put (k : κ) (v : ν) : List (κ × ν) → List (κ × ν)
  | [] => [(k, v)]
  | (k', v') :: rest => if k' = k then (k, v) :: rest else (k', v') :: put k v rest

def remove (k : κ) : List (κ × ν) → List (κ × ν)
  | [] => []
  | (k', v) :: rest => if k' = k then remove k rest else (k', v) :: remove k rest

def get? (d : Dict κ ν) (k : κ) : Option ν := find? k d.entries

def contains (d : Dict κ ν) (k : κ) : Bool := (d.get? k).isSome

def insert (d : Dict κ ν) (k : κ) (v : ν) : Dict κ ν := ⟨put k v d.entries⟩

def erase (d : Dict κ ν) (k : κ) : Dict κ ν := ⟨remove k d.entries⟩

/-- Gives a key a value, or takes it away where there is none. -/
def set (d : Dict κ ν) (k : κ) : Option ν → Dict κ ν
  | some v => d.insert k v
  | none => d.erase k

/-- The keys, in the order in which they came. -/
def keys (d : Dict κ ν) : List κ := d.entries.map (·.1)

def size (d : Dict κ ν) : Nat := d.entries.length

/-! ## What each operation does to the view -/

@[simp] theorem get?_empty (k : κ) : ({} : Dict κ ν).get? k = none := rfl

theorem find?_put (k k' : κ) (v : ν) (es : List (κ × ν)) :
    find? k' (put k v es) = if k' = k then some v else find? k' es := by
  induction es with
  | nil =>
    by_cases h : k' = k
    · simp [put, find?, h]
    · simp [put, find?, h, Ne.symm h]
  | cons e rest ih =>
    obtain ⟨q, w⟩ := e
    by_cases hq : q = k
    · subst hq
      by_cases h : k' = q
      · simp [put, find?, h]
      · simp [put, find?, h, Ne.symm h]
    · by_cases h : q = k'
      · subst h; simp [put, find?, hq]
      · simp [put, find?, hq, h, ih]

theorem find?_remove (k k' : κ) (es : List (κ × ν)) :
    find? k' (remove k es) = if k' = k then none else find? k' es := by
  induction es with
  | nil => simp [remove, find?]
  | cons e rest ih =>
    obtain ⟨q, w⟩ := e
    by_cases hq : q = k
    · subst hq
      by_cases h : k' = q
      · subst h; simp [remove, ih]
      · simp [remove, find?, ih, h, Ne.symm h]
    · by_cases h : q = k'
      · subst h; simp [remove, find?, hq]
      · simp [remove, find?, hq, h, ih]

theorem get?_insert (d : Dict κ ν) (k k' : κ) (v : ν) :
    (d.insert k v).get? k' = if k' = k then some v else d.get? k' :=
  find?_put k k' v d.entries

@[simp] theorem get?_insert_self (d : Dict κ ν) (k : κ) (v : ν) :
    (d.insert k v).get? k = some v := by simp [get?_insert]

theorem get?_erase (d : Dict κ ν) (k k' : κ) :
    (d.erase k).get? k' = if k' = k then none else d.get? k' :=
  find?_remove k k' d.entries

@[simp] theorem get?_erase_self (d : Dict κ ν) (k : κ) : (d.erase k).get? k = none := by
  simp [get?_erase]

theorem get?_set (d : Dict κ ν) (k k' : κ) (v : Option ν) :
    (d.set k v).get? k' = if k' = k then v else d.get? k' := by
  cases v <;> simp [set, get?_insert, get?_erase]

end Dict

end ComponentHost
