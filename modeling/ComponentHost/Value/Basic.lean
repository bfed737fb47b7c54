/-! # Values

  What components exchange and stores hold: null, truth values, numbers, texts, lists and records.
  A record keeps its fields sorted by name, each name once, so equal records are equal values.
-/

namespace ComponentHost

/-- A double-precision number, by its bits. -/
structure Double where
  /-- The IEEE 754 representation. -/
  bits : UInt64
  deriving Repr, DecidableEq

/-- A number: a whole one, kept exactly, or a double. -/
inductive Number
  | int (n : Int)
  /-- A double-precision number, whole or not. -/
  | double (d : Double)
  deriving Repr, DecidableEq

inductive Value
  | null
  | bool (b : Bool)
  | number (n : Number)
  | string (s : String)
  | array (items : List Value)
  /-- A record, its fields sorted by name. -/
  | object (fields : List (String × Value))
  deriving Repr, Inhabited

/-! ## Equality -/

mutual

def Value.decEq : (a b : Value) → Decidable (a = b)
  | .null, .null => isTrue rfl
  | .bool a, .bool b => if h : a = b then isTrue (by rw [h]) else isFalse (by simpa using h)
  | .number a, .number b => if h : a = b then isTrue (by rw [h]) else isFalse (by simpa using h)
  | .string a, .string b => if h : a = b then isTrue (by rw [h]) else isFalse (by simpa using h)
  | .array a, .array b => match Value.decEqItems a b with
    | isTrue h => isTrue (by rw [h])
    | isFalse h => isFalse (by simpa using h)
  | .object a, .object b => match Value.decEqFields a b with
    | isTrue h => isTrue (by rw [h])
    | isFalse h => isFalse (by simpa using h)
  | .null, .bool _ | .null, .number _ | .null, .string _ | .null, .array _ | .null, .object _
  | .bool _, .null | .bool _, .number _ | .bool _, .string _ | .bool _, .array _
  | .bool _, .object _ | .number _, .null | .number _, .bool _ | .number _, .string _
  | .number _, .array _ | .number _, .object _ | .string _, .null | .string _, .bool _
  | .string _, .number _ | .string _, .array _ | .string _, .object _ | .array _, .null
  | .array _, .bool _ | .array _, .number _ | .array _, .string _ | .array _, .object _
  | .object _, .null | .object _, .bool _ | .object _, .number _ | .object _, .string _
  | .object _, .array _ => isFalse (by simp)

def Value.decEqItems : (a b : List Value) → Decidable (a = b)
  | [], [] => isTrue rfl
  | [], _ :: _ | _ :: _, [] => isFalse (by simp)
  | x :: xs, y :: ys => match Value.decEq x y, Value.decEqItems xs ys with
    | isTrue h, isTrue hs => isTrue (by rw [h, hs])
    | isFalse h, _ => isFalse (by simp [h])
    | _, isFalse hs => isFalse (by simp [hs])

def Value.decEqFields : (a b : List (String × Value)) → Decidable (a = b)
  | [], [] => isTrue rfl
  | [], _ :: _ | _ :: _, [] => isFalse (by simp)
  | (k, x) :: xs, (l, y) :: ys =>
    if hk : k = l then
      match Value.decEq x y, Value.decEqFields xs ys with
      | isTrue h, isTrue hs => isTrue (by rw [hk, h, hs])
      | isFalse h, _ => isFalse (by simp [h])
      | _, isFalse hs => isFalse (by simp [hs])
    else isFalse (by simp [hk])

end

instance : DecidableEq Value := Value.decEq

namespace Value

/-! ## Building values -/

instance : Coe Bool Value := ⟨.bool⟩
instance : Coe String Value := ⟨.string⟩

def ofInt (n : Int) : Value := .number (.int n)

def ofNat (n : Nat) : Value := ofInt n

def ofOption : Option Value → Value
  | some v => v
  | none => .null

/-- Puts a field at its place among sorted fields, over an earlier one of that name. -/
def insertField (k : String) (v : Value) : List (String × Value) → List (String × Value)
  | [] => [(k, v)]
  | (k', v') :: rest =>
    if k = k' then (k, v) :: rest
    else if k < k' then (k, v) :: (k', v') :: rest
    else (k', v') :: insertField k v rest

/-- A record from fields in any order; the last one of a name stays. -/
def record (fields : List (String × Value)) : Value :=
  .object (fields.foldl (fun acc (k, v) => insertField k v acc) [])

def field? (k : String) : Value → Option Value
  | .object fields => fields.lookup k
  | _ => none

/-! ## Agreement -/

/-- Two numbers agree: as whole numbers, or as doubles, where both zeros agree. -/
def numbersAgree : Number → Number → Bool
  | .int a, .int b => a == b
  | .double a, .double b => Float.ofBits a.bits == Float.ofBits b.bits
  | _, _ => false

mutual

/-- Two values agree: they are equal up to the sign of a zero. -/
def agrees : Value → Value → Bool
  | .null, .null => true
  | .bool a, .bool b => a == b
  | .number a, .number b => numbersAgree a b
  | .string a, .string b => a == b
  | .array a, .array b => itemsAgree a b
  | .object a, .object b => fieldsAgree a b
  | _, _ => false

def itemsAgree : List Value → List Value → Bool
  | [], [] => true
  | x :: xs, y :: ys => agrees x y && itemsAgree xs ys
  | _, _ => false

/-- Two lists of fields agree, name by name and value by value. -/
def fieldsAgree : List (String × Value) → List (String × Value) → Bool
  | [], [] => true
  | (k, x) :: xs, (l, y) :: ys => k == l && agrees x y && fieldsAgree xs ys
  | _, _ => false

end

end Value

end ComponentHost
