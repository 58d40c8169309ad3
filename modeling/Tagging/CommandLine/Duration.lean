/-!
# Durations

A duration is a number of nanoseconds. It is shown in the largest unit of which it is at least one,
with as many decimals as it needs.
-/

namespace Tagging.CommandLine.Duration

/-- The last `places` digits of a number as the decimals of a fraction, without zeros at the end. -/
def decimals (places part : Nat) : String :=
  let digits := (Nat.toDigits 10 part)
  let padded := List.replicate (places - digits.length) '0' ++ digits
  match (padded.reverse.dropWhile (· = '0')).reverse with
  | [] => ""
  | digits => "." ++ String.ofList digits

/-- So many nanoseconds in a unit of `size` nanoseconds, which is ten to the power of `places`. -/
def inUnit (places size : Nat) (unit : String) (nanoseconds : Nat) : String :=
  toString (nanoseconds / size) ++ decimals places (nanoseconds % size) ++ unit

/-- The duration as it is shown. -/
def render (nanoseconds : Nat) : String :=
  if 1000000000 ≤ nanoseconds then inUnit 9 1000000000 "s" nanoseconds
  else if 1000000 ≤ nanoseconds then inUnit 6 1000000 "ms" nanoseconds
  else if 1000 ≤ nanoseconds then inUnit 3 1000 "µs" nanoseconds
  else inUnit 0 1 "ns" nanoseconds

end Tagging.CommandLine.Duration
