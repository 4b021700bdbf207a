/-! # Durations

A length of time in nanoseconds, written in the largest unit of which there is at least one, with as
many decimals as are needed.
-/

namespace ReviewContext

structure Duration where
  nanoseconds : Nat
  deriving DecidableEq

namespace Duration

def ofSeconds (seconds : Nat) : Duration :=
  ⟨seconds * 1000000000⟩

/-- The lowest `places` decimal digits of a number, without the zeros at the end. -/
def decimals (places n : Nat) : List Char :=
  let digits := (toString n).toList
  let padded := List.replicate (places - digits.length) '0' ++ digits
  (padded.reverse.dropWhile (· == '0')).reverse

/-- A number of units of `10 ^ places` nanoseconds. -/
def inUnit (places : Nat) (unit : String) (n : Nat) : String :=
  let frac := decimals places (n % Nat.pow 10 places)
  toString (n / Nat.pow 10 places) ++ (if frac.isEmpty then "" else "." ++ String.ofList frac) ++ unit

def text (duration : Duration) : String :=
  let n := duration.nanoseconds
  if 1000000000 ≤ n then inUnit 9 "s" n
  else if 1000000 ≤ n then inUnit 6 "ms" n
  else if 1000 ≤ n then inUnit 3 "µs" n
  else inUnit 0 "ns" n

end Duration

end ReviewContext
