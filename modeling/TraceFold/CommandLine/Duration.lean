import TraceFold.Text.Digits

/-!
# Durations

The time something took, as a text for people: in the largest of the units second, millisecond,
microsecond and nanosecond of which there is at least one, with as many decimal places as are
needed to lose nothing.
-/

namespace TraceFold.CommandLine

/-- A number of nanoseconds, counted in a unit of `10 ^ places` nanoseconds. -/
def inUnit (nanos places : Nat) : List Char :=
  let whole := Text.ofNat (nanos / Nat.pow 10 places)
  let fraction := Text.ofNatPadded places (nanos % Nat.pow 10 places)
  match (fraction.reverse.dropWhile (· == '0')).reverse with
  | [] => whole
  | digits => whole ++ '.' :: digits

/-- A number of nanoseconds in the unit that fits it. -/
def durationText (nanos : Nat) : String :=
  if 1000000000 ≤ nanos then String.ofList (inUnit nanos 9) ++ "s"
  else if 1000000 ≤ nanos then String.ofList (inUnit nanos 6) ++ "ms"
  else if 1000 ≤ nanos then String.ofList (inUnit nanos 3) ++ "µs"
  else String.ofList (inUnit nanos 0) ++ "ns"

end TraceFold.CommandLine
