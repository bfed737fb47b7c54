/-! # Text of durations

  Durations are whole milliseconds. Below a second they are written in milliseconds, from a second
  on in seconds with up to three decimals, without zeros at the end.
-/

namespace ComponentHost.Text

/-- Three decimals of a second, without the zeros at their end, after a point unless none is
    left. -/
def decimals (ms : Nat) : String :=
  let digits := [ms / 100, ms / 10 % 10, ms % 10].map Nat.digitChar
  let kept := (digits.reverse.dropWhile (· == '0')).reverse
  if kept.isEmpty then "" else "." ++ String.ofList kept

/-- The text of a duration in milliseconds. -/
def duration (ms : Nat) : String :=
  if ms = 0 then "0ns"
  else if ms < 1000 then toString ms ++ "ms"
  else toString (ms / 1000) ++ decimals (ms % 1000) ++ "s"

end ComponentHost.Text
