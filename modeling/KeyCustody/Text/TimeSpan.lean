/-!
# Spans of time

Spans are counted in nanoseconds. They are shown in the largest unit of which they hold at least
one whole, with as many decimals as are needed.

## Main definitions

* `TimeSpan.ofSeconds` — whole seconds as a span
* `TimeSpan.text` — the span in its largest unit
-/

namespace KeyCustody

/-- A span of time in nanoseconds. -/
abbrev TimeSpan := Nat

namespace TimeSpan

/-- Nanoseconds in a second. -/
def second : Nat := 1000000000

/-- Whole seconds as a span. -/
def ofSeconds (n : Nat) : TimeSpan := n * second

/-- The decimals of a fraction of `10 ^ places`, without trailing zeros. -/
def decimals : Nat → Nat → List Char
  | 0, _ => []
  | places + 1, n =>
    let later := decimals places (n % Nat.pow 10 places)
    if n / Nat.pow 10 places = 0 ∧ later = [] then []
    else Nat.digitChar (n / Nat.pow 10 places) :: later

/-- A count of units of `10 ^ places` nanoseconds, with decimals. -/
def inUnit (n places : Nat) (unit : String) : String :=
  let fraction := decimals places (n % Nat.pow 10 places)
  let point := if fraction = [] then "" else "."
  (n / Nat.pow 10 places).repr ++ point ++ String.ofList fraction ++ unit

/-- The span in its largest unit. -/
def text (n : TimeSpan) : String :=
  if 1000000000 ≤ n then inUnit n 9 "s"
  else if 1000000 ≤ n then inUnit n 6 "ms"
  else if 1000 ≤ n then inUnit n 3 "µs"
  else inUnit n 0 "ns"

end TimeSpan

end KeyCustody
