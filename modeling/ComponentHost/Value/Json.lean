import ComponentHost.Value.Double

/-! # JSON text of values

  The written form of values, and its reader. A number without point and exponent that fits
  sixty-four bits, signed or unsigned, is a whole number; every other number is a double. The reader
  gathers up to sixty-four bits of digits and scales them by one power of ten, which is the exact
  double whenever digits and power are both exact.
-/

namespace ComponentHost.Value

/-! ## Writing -/

namespace Json

def escape (c : Char) : List Char :=
  if c = '"' then ['\\', '"']
  else if c = '\\' then ['\\', '\\']
  else if c = '\n' then ['\\', 'n']
  else if c = '\r' then ['\\', 'r']
  else if c = '\t' then ['\\', 't']
  else if c = '\x08' then ['\\', 'b']
  else if c = '\x0c' then ['\\', 'f']
  else if c.toNat < 0x20 then
    ['\\', 'u', '0', '0', Nat.digitChar (c.toNat / 16), Nat.digitChar (c.toNat % 16)]
  else [c]

def quote (s : String) : String := String.ofList ('"' :: s.toList.flatMap escape ++ ['"'])

def number : Number → String
  | .int n => toString n
  | .double d => d.render

mutual

def write : Value → String
  | .null => "null"
  | .bool b => if b then "true" else "false"
  | .number n => number n
  | .string s => quote s
  | .array items => "[" ++ String.intercalate "," (writeItems items) ++ "]"
  | .object fields => "\x7b" ++ String.intercalate "," (writeFields fields) ++ "\x7d"

def writeItems : List Value → List String
  | [] => []
  | x :: xs => write x :: writeItems xs

def writeFields : List (String × Value) → List String
  | [] => []
  | (k, x) :: xs => (quote k ++ ":" ++ write x) :: writeFields xs

end

/-! ## Reading numbers -/

/-- Scales a significand by a power of ten. Powers beyond the range of doubles end at zero, or are
    refused. -/
def scale? : Nat → Float → Int → Option Float
  | 0, f, _ => some f
  | fuel + 1, f, e =>
    if e.natAbs ≤ 308 then
      let power := Float.ofScientific 1 false e.natAbs
      if 0 ≤ e then
        let g := f * power
        if g.isInf then none else some g
      else some (f / power)
    else if f == 0.0 then some f
    else if 0 ≤ e then none
    else scale? fuel (f / Float.ofScientific 1 false 308) (e + 308)

/-- The double with a sign, a significand and a power of ten. -/
def double? (negative : Bool) (significand : Nat) (e : Int) : Option Number :=
  (scale? 4 significand.toUInt64.toFloat e).map fun f =>
    .double ⟨(if negative then -f else f).toBits⟩

/-- Digits gathered so far: the significand, and the power of ten that scales it. -/
structure Gathered where
  /-- The digits as a number below 2^64. -/
  significand : Nat
  /-- The power of ten. -/
  exponent : Int
  /-- A further digit no longer fits. -/
  full : Bool

/-- Takes one more digit of the whole part. A digit that no longer fits raises the power of ten. -/
def Gathered.wholeDigit (g : Gathered) (d : Nat) : Gathered :=
  if g.full || g.significand * 10 + d ≥ Nat.pow 2 64 then ⟨g.significand, g.exponent + 1, true⟩
  else ⟨g.significand * 10 + d, g.exponent, false⟩

/-- Takes one more digit after the point. A digit that no longer fits is dropped, and so are all
    after it. -/
def Gathered.fractionDigit (g : Gathered) (d : Nat) : Gathered :=
  if g.full || g.significand * 10 + d ≥ Nat.pow 2 64 then { g with full := true }
  else ⟨g.significand * 10 + d, g.exponent - 1, false⟩

def digit (c : Char) : Nat := c.toNat - '0'.toNat

/-- A number from its parts: sign, whole part, digits after the point, exponent. -/
def ofParts? (negative : Bool) (whole : List Char) (fraction : Option (List Char))
    (exponent : Option Int) : Option Number :=
  let g : Gathered := (whole.map digit).foldl Gathered.wholeDigit ⟨0, 0, false⟩
  match fraction, exponent with
  | none, none =>
    if g.full then double? negative g.significand g.exponent
    else if negative then
      if 0 < g.significand && g.significand ≤ Nat.pow 2 63 then some (.int (-(g.significand : Int)))
      else double? true g.significand 0
    else some (.int g.significand)
  | fraction, exponent =>
    let g := match fraction with
      | some ds => (ds.map digit).foldl Gathered.fractionDigit { g with full := false }
      | none => g
    double? negative g.significand (g.exponent + exponent.getD 0)

def digits (s : List Char) : List Char × List Char :=
  (s.takeWhile Char.isDigit, s.dropWhile Char.isDigit)

/-- Reads an exponent, if one follows. -/
def exponent? : List Char → Option (Option Int × List Char)
  | c :: rest =>
    if c = 'e' || c = 'E' then
      let (negative, rest) := match rest with
        | '-' :: r => (true, r)
        | '+' :: r => (false, r)
        | r => (false, r)
      let (ds, rest) := digits rest
      if ds.isEmpty then none
      else
        let n : Int := ds.foldl (fun n c => n * 10 + digit c) 0
        some (some (if negative then -n else n), rest)
    else some (none, c :: rest)
  | [] => some (none, [])

def readNumber (s : List Char) : Option (Value × List Char) := do
  let (negative, s) := match s with
    | '-' :: r => (true, r)
    | r => (false, r)
  let (whole, s) := digits s
  if whole.isEmpty || (whole.length > 1 && whole.head? == some '0') then none
  else
    let (fraction, s) ← match s with
      | '.' :: r =>
        let (ds, r) := digits r
        if ds.isEmpty then none else some (some ds, r)
      | r => some (none, r)
    let (e, s) ← exponent? s
    let n ← ofParts? negative whole fraction e
    return (.number n, s)

/-! ## Reading strings -/

def hexDigit? (c : Char) : Option Nat :=
  if '0' ≤ c && c ≤ '9' then some (c.toNat - '0'.toNat)
  else if 'a' ≤ c && c ≤ 'f' then some (c.toNat - 'a'.toNat + 10)
  else if 'A' ≤ c && c ≤ 'F' then some (c.toNat - 'A'.toNat + 10)
  else none

def hexUnit? : List Char → Option (Nat × List Char)
  | a :: b :: c :: d :: rest => do
    let a ← hexDigit? a
    let b ← hexDigit? b
    let c ← hexDigit? c
    let d ← hexDigit? d
    return (((a * 16 + b) * 16 + c) * 16 + d, rest)
  | _ => none

/-- Reads the character after `\u`: one unit, or two that form a pair. -/
def unicode? (s : List Char) : Option (Char × List Char) := do
  let (u, rest) ← hexUnit? s
  if 0xd800 ≤ u && u < 0xdc00 then
    match rest with
    | '\\' :: 'u' :: rest =>
      let (v, rest) ← hexUnit? rest
      if 0xdc00 ≤ v && v < 0xe000 then
        return (Char.ofNat (0x10000 + (u - 0xd800) * 0x400 + (v - 0xdc00)), rest)
      else none
    | _ => none
  else if 0xdc00 ≤ u && u < 0xe000 then none
  else return (Char.ofNat u, rest)

/-- Reads the rest of a string after its opening quote; `acc` holds what was read, last first. -/
def readString : Nat → List Char → List Char → Option (String × List Char)
  | 0, _, _ => none
  | fuel + 1, acc, s => match s with
    | '"' :: rest => some (String.ofList acc.reverse, rest)
    | '\\' :: 'u' :: rest => do
      let (c, rest) ← unicode? rest
      readString fuel (c :: acc) rest
    | '\\' :: c :: rest =>
      match [('"', '"'), ('\\', '\\'), ('/', '/'), ('b', '\x08'), ('f', '\x0c'), ('n', '\n'),
          ('r', '\r'), ('t', '\t')].lookup c with
      | some d => readString fuel (d :: acc) rest
      | none => none
    | c :: rest => if c.toNat < 0x20 then none else readString fuel (c :: acc) rest
    | [] => none

/-! ## Reading values -/

def skip (s : List Char) : List Char :=
  s.dropWhile fun c => c = ' ' || c = '\n' || c = '\r' || c = '\t'

mutual

/-- Reads a value; the fuel bounds the number of characters taken. -/
def read : Nat → List Char → Option (Value × List Char)
  | 0, _ => none
  | fuel + 1, s => match skip s with
    | 'n' :: 'u' :: 'l' :: 'l' :: rest => some (.null, rest)
    | 't' :: 'r' :: 'u' :: 'e' :: rest => some (.bool true, rest)
    | 'f' :: 'a' :: 'l' :: 's' :: 'e' :: rest => some (.bool false, rest)
    | '"' :: rest => (readString fuel [] rest).map fun (t, rest) => (.string t, rest)
    | '[' :: rest => match skip rest with
      | ']' :: rest => some (.array [], rest)
      | rest => readItems fuel [] rest
    | '\x7b' :: rest => match skip rest with
      | '\x7d' :: rest => some (.object [], rest)
      | rest => readFields fuel [] rest
    | rest => readNumber rest

/-- Reads the items of a list up to its end; `acc` holds those read, last first. -/
def readItems : Nat → List Value → List Char → Option (Value × List Char)
  | 0, _, _ => none
  | fuel + 1, acc, s => do
    let (v, rest) ← read fuel s
    match skip rest with
    | ',' :: rest => readItems fuel (v :: acc) rest
    | ']' :: rest => return (.array (v :: acc).reverse, rest)
    | _ => none

/-- Reads the fields of a record up to its end; `acc` holds those read, last first. -/
def readFields : Nat → List (String × Value) → List Char → Option (Value × List Char)
  | 0, _, _ => none
  | fuel + 1, acc, s => match skip s with
    | '"' :: rest => do
      let (k, rest) ← readString fuel [] rest
      match skip rest with
      | ':' :: rest => do
        let (v, rest) ← read fuel rest
        match skip rest with
        | ',' :: rest => readFields fuel ((k, v) :: acc) rest
        | '\x7d' :: rest => return (Value.record ((k, v) :: acc).reverse, rest)
        | _ => none
      | _ => none
    | _ => none

end

end Json

def render (v : Value) : String := Json.write v

def parse? (s : String) : Option Value :=
  let cs := s.toList
  match Json.read (cs.length + 1) cs with
  | some (v, rest) => if (Json.skip rest).isEmpty then some v else none
  | none => none

end ComponentHost.Value
