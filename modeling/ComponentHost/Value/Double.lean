import ComponentHost.Decimal.Shortest
import ComponentHost.Value.Basic

/-! # Text of doubles

  A double is written with the fewest digits that read back as the same double, in JSON text and in
  messages alike: positionally from 10^-5 up to below 10^16, with an exponent outside, `.0` after a
  whole number, and the sign of a zero kept.
-/

namespace ComponentHost.Double

open Decimal

def isNegative (d : Double) : Bool := d.bits >>> 63 == 1

def exponentBits (d : Double) : Nat := (d.bits >>> 52).toNat % 2048

def fractionBits (d : Double) : Nat := d.bits.toNat % Nat.pow 2 52

/-- The magnitude as a binary number, unless it is zero. -/
def magnitude? (d : Double) : Option Binary :=
  if d.exponentBits == 0 then
    if d.fractionBits == 0 then none else some ⟨d.fractionBits, -1074, false⟩
  else
    some ⟨Nat.pow 2 52 + d.fractionBits, (d.exponentBits : Int) - 1075,
      d.fractionBits == 0 && d.exponentBits != 1⟩

/-- The point may lie from four places before the digits to sixteen places after their start. -/
def layout : Layout where
  leastPlace := -4
  greatestPlace := 16

def render (d : Double) : String :=
  let sign := if d.isNegative then "-" else ""
  match d.magnitude? with
  | none => sign ++ "0.0"
  | some b => sign ++ layout.render b

end ComponentHost.Double
