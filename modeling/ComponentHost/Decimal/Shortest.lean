/-! # Shortest decimals

  The decimal with the fewest digits that still denotes a given binary number among all numbers of
  its precision. The number is m · 2^q; every real of its rounding interval denotes it, the ends
  included when m is even. For 1, 2, … 17 digits the two neighbours of the number on the decimal
  grid are tested in exact integer arithmetic: the first grid with a hit wins, of two hits the
  nearer, of two equally near ones that with the even last digit.
-/

namespace ComponentHost.Decimal

/-- The positive number `digits · 10 ^ exponent`. -/
structure Scaled where
  /-- The digits, as one number. -/
  digits : Nat
  /-- The power of ten that scales them. -/
  exponent : Int
  deriving Repr, DecidableEq

/-- The positive number `mantissa · 2 ^ power`, with the interval of reals that denote it. -/
structure Binary where
  /-- The integer mantissa. -/
  mantissa : Nat
  /-- The power of two that scales it. -/
  power : Int
  /-- The next number below lies only half a unit away, as below a power of two. -/
  narrowBelow : Bool
  deriving Repr, DecidableEq

/-- A non-negative rational, as numerator and denominator. -/
structure Ratio where
  /-- The numerator. -/
  num : Nat
  /-- The denominator, never zero in use. -/
  den : Nat
  deriving Repr, DecidableEq

/-- `n · 2 ^ p`. -/
def Ratio.ofBinary (n : Nat) (p : Int) : Ratio :=
  if 0 ≤ p then ⟨n * Nat.pow 2 p.toNat, 1⟩ else ⟨n, Nat.pow 2 (-p).toNat⟩

/-- `n · 10 ^ p`. -/
def Ratio.ofDecimal (n : Nat) (p : Int) : Ratio :=
  if 0 ≤ p then ⟨n * Nat.pow 10 p.toNat, 1⟩ else ⟨n, Nat.pow 10 (-p).toNat⟩

/-- Compares two rationals by cross multiplication. -/
def Ratio.compare (a b : Ratio) : Ordering := Ord.compare (a.num * b.den) (b.num * a.den)

/-- The integer part of `a / b`. -/
def Ratio.floorDiv (a b : Ratio) : Nat := a.num * b.den / (a.den * b.num)

/-- The number of decimal digits of a positive integer. -/
def digitCount (n : Nat) : Nat := (Nat.toDigits 10 n).length

/-- The least `k` with `a < 10 ^ k`, sought downwards from zero for a number below one; `limit`
    bounds the search. -/
def Ratio.magnitude (a : Ratio) (limit : Nat) : Int :=
  if a.den ≤ a.num then digitCount (a.num / a.den)
  else
    let rec search : Nat → Nat → Int
      | 0, j => -(j : Int)
      | fuel + 1, j =>
        if a.den ≤ a.num * Nat.pow 10 (j + 1) then -(j : Int) else search fuel (j + 1)
    search limit 0

/-- The decimal denotes the binary number: it lies in the rounding interval. -/
def Binary.admits (b : Binary) (r : Ratio) : Bool :=
  let low := Ratio.ofBinary (4 * b.mantissa - if b.narrowBelow then 1 else 2) (b.power - 2)
  let high := Ratio.ofBinary (4 * b.mantissa + 2) (b.power - 2)
  if b.mantissa % 2 == 0 then r.compare low != .lt && r.compare high != .gt
  else r.compare low == .gt && r.compare high == .lt

/-- Drops the zeros at the end of the digits. -/
def Scaled.trim (s : Scaled) : Scaled :=
  let rec drop : Nat → Nat → Int → Scaled
    | 0, n, e => ⟨n, e⟩
    | fuel + 1, n, e => if n != 0 && n % 10 == 0 then drop fuel (n / 10) (e + 1) else ⟨n, e⟩
  drop (digitCount s.digits) s.digits s.exponent

/-- The neighbour of the number on the grid of decimals with `places` digits that denotes it, the
    nearer one of two. -/
def Binary.onGrid? (b : Binary) (k : Int) (places : Nat) : Option Scaled :=
  let value := Ratio.ofBinary b.mantissa b.power
  let e := k - places
  let below := value.floorDiv (Ratio.ofDecimal 1 e)
  let lower := Ratio.ofDecimal below e
  let upper := Ratio.ofDecimal (below + 1) e
  match b.admits lower, b.admits upper with
  | false, false => none
  | true, false => some ⟨below, e⟩
  | false, true => some ⟨below + 1, e⟩
  | true, true =>
    -- the midpoint of the two neighbours decides
    let middle := Ratio.ofDecimal (10 * below + 5) (e - 1)
    match value.compare middle with
    | .lt => some ⟨below, e⟩
    | .gt => some ⟨below + 1, e⟩
    | .eq => if below % 2 == 0 then some ⟨below, e⟩ else some ⟨below + 1, e⟩

/-- The shortest decimal of a binary number. Seventeen digits always suffice for a double. -/
def Binary.shortest (b : Binary) : Scaled :=
  let k := (Ratio.ofBinary b.mantissa b.power).magnitude 400
  match (List.range 17).findSome? (fun i => b.onGrid? k (i + 1)) with
  | some s => s.trim
  | none => ⟨b.mantissa, 0⟩

/-! ## Layout -/

/-- How a shortest decimal is written. The point lies `pointAt` digits to the right of the start of
    the digits. -/
structure Layout where
  /-- The least place of the point at which a number is written positionally. -/
  leastPlace : Int
  /-- The greatest place of the point at which a number is written positionally. -/
  greatestPlace : Int
  deriving Repr, DecidableEq

/-- Written positionally; otherwise with an exponent. -/
def Layout.isPositional (l : Layout) (pointAt : Int) : Bool :=
  l.leastPlace ≤ pointAt && pointAt ≤ l.greatestPlace

/-- Writes the digits with a point, and `.0` after a whole number. -/
def writePositional (digits : List Char) (pointAt : Int) : List Char :=
  if pointAt ≤ 0 then '0' :: '.' :: List.replicate (-pointAt).toNat '0' ++ digits
  else if digits.length ≤ pointAt.toNat then
    digits ++ List.replicate (pointAt.toNat - digits.length) '0' ++ ['.', '0']
  else digits.take pointAt.toNat ++ '.' :: digits.drop pointAt.toNat

/-- Writes the digits with one of them before the point, and the exponent after `e`, always with
    its sign. -/
def writeScientific (digits : List Char) (pointAt : Int) : List Char :=
  let mantissa := match digits with
    | [] => []
    | [d] => [d]
    | d :: rest => d :: '.' :: rest
  let exponent := pointAt - 1
  let sign := if exponent < 0 then '-' else '+'
  mantissa ++ 'e' :: sign :: Nat.toDigits 10 exponent.natAbs

/-- The text of the shortest decimal under a layout. -/
def Layout.render (l : Layout) (b : Binary) : String :=
  let s := b.shortest
  let digits := Nat.toDigits 10 s.digits
  let pointAt := digits.length + s.exponent
  String.ofList (if l.isPositional pointAt then writePositional digits pointAt
    else writeScientific digits pointAt)

end ComponentHost.Decimal
