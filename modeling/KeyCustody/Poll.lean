import KeyCustody.KeyError
import KeyCustody.Number.Binary64

/-!
# Waiting until a remote step is ready

Provisioning a key takes a remote service some time. A wait checks, sleeps, and checks again,
with delays that grow by a factor up to a cap, until a check reports ready or fails, or too much
time has passed.

What a check finds and what the clock shows are arguments, so a wait is a function of them. The
clock is read after each check that is not ready; its reading may depend on all the delays slept
so far. The delays are the only thing a wait asks of the world.

## Main definitions

* `PollPolicy`, `PollPolicy.create`, `PollPolicy.fixed`, `PollPolicy.standard` — the schedule
* `PollPolicy.nextInterval` — the growth of a delay
* `Poll.react` — what follows one check
* `Poll.run` — a whole wait, for at most a given number of checks
-/

namespace KeyCustody

/-- The schedule of a wait. -/
structure PollPolicy where
  /-- The delay before the second check. -/
  interval : TimeSpan
  /-- What delays grow up to. -/
  maxInterval : TimeSpan
  /-- The factor by which a delay grows after each check. -/
  multiplier : Binary64
  /-- The wait is given up once this much time has passed. -/
  timeout : TimeSpan
deriving DecidableEq, Repr

namespace PollPolicy

/-- The schedule used where none is chosen: from one second up to thirty, doubling, for ten
minutes. -/
def standard : PollPolicy where
  interval := TimeSpan.ofSeconds 1
  maxInterval := TimeSpan.ofSeconds 30
  multiplier := Binary64.two
  timeout := TimeSpan.ofSeconds 600

/-- A schedule with equal delays. -/
def fixed (interval timeout : TimeSpan) : PollPolicy where
  interval := interval
  maxInterval := interval
  multiplier := Binary64.one
  timeout := timeout

/-- Checks that the growth factor is finite. -/
def check (p : PollPolicy) : Except KeyError Unit :=
  if p.multiplier.isFinite then .ok ()
  else .error (.invalidParameters (.multiplier p.multiplier.specialText))

/-- A schedule with a finite growth factor. -/
def create (interval maxInterval : TimeSpan) (multiplier : Binary64) (timeout : TimeSpan) :
    Except KeyError PollPolicy := do
  let p : PollPolicy := ⟨interval, maxInterval, multiplier, timeout⟩
  p.check
  return p

/-- A span in seconds, as a rounded number: the whole seconds and the rest are rounded first, and
then their sum. -/
def seconds (t : TimeSpan) : Magnitude :=
  Magnitude.add (Magnitude.ofFraction (t / TimeSpan.second) 1)
    (Magnitude.ofFraction (t % TimeSpan.second) TimeSpan.second)

/-- The span that a number of seconds is nearest to, if it is one that a span may have. -/
def ofSeconds? (m : Magnitude) : Option TimeSpan :=
  let t := Magnitude.roundQuotient (m * TimeSpan.second) Magnitude.one
  if t < 0x10000000000000000 * TimeSpan.second then some t else none

/-- The growth factor, which never shrinks a delay. -/
def growth (p : PollPolicy) : Magnitude :=
  match p.multiplier with
  | .finite false m => max m Magnitude.one
  | _ => Magnitude.one

/-- The delay after a given one: grown, but at most the cap. -/
def nextInterval (p : PollPolicy) (current : TimeSpan) : TimeSpan :=
  let next := Magnitude.multiply (seconds current) p.growth
  if seconds p.maxInterval ≤ next then p.maxInterval
  else min ((ofSeconds? next).getD p.maxInterval) p.maxInterval

end PollPolicy

/-- What a check finds. -/
inductive CheckOutcome
  | ready
  | notReady
  | failed (error : KeyError)
deriving DecidableEq, Repr

namespace Poll

/-- What follows one check: the end of the wait, or a delay and the interval after it. -/
inductive Reaction
  | finish (result : Except KeyError Unit)
  | sleep (delay interval : TimeSpan)

/-- What follows a check that found `outcome`, when the delay would be `interval` and the clock
shows `elapsed`. -/
def react (p : PollPolicy) (what : String) (interval : TimeSpan) (outcome : CheckOutcome)
    (elapsed : TimeSpan) : Reaction :=
  match outcome with
  | .ready => .finish (.ok ())
  | .failed e => .finish (.error e)
  | .notReady =>
    if p.timeout ≤ elapsed then .finish (.error (.timeout what elapsed))
    else .sleep (min interval (p.timeout - elapsed)) (p.nextInterval interval)

/-- The course of a wait: its result, the number of checks, and the delays in order. -/
structure Course where
  result : Except KeyError Unit
  checks : Nat
  delays : List TimeSpan

/-- What a clock shows after the check that follows the given delays, the latest first. -/
abbrev Clock := List TimeSpan → TimeSpan

/-- The clock of a world in which checks take no time and sleeps are exact. -/
def exactClock : Clock := List.foldr (· + ·) 0

/-- Goes on with a wait for at most `fuel` further checks, after the given delays, the latest
first. -/
def proceed (p : PollPolicy) (what : String) (outcome : Nat → CheckOutcome) (clock : Clock) :
    Nat → TimeSpan → List TimeSpan → Option Course
  | 0, _, _ => none
  | fuel + 1, interval, slept =>
    let checks := slept.length
    match react p what interval (outcome checks) (clock slept) with
    | .finish result => some ⟨result, checks + 1, slept.reverse⟩
    | .sleep delay next => proceed p what outcome clock fuel next (delay :: slept)

/-- A wait of at most `fuel` checks. Check number `n`, counted from zero, finds `outcome n`. A
growth factor that is not finite is refused before the first check. -/
def run (p : PollPolicy) (what : String) (outcome : Nat → CheckOutcome) (clock : Clock)
    (fuel : Nat) : Option Course :=
  match p.check with
  | .error e => some ⟨.error e, 0, []⟩
  | .ok () => proceed p what outcome clock fuel p.interval []

end Poll

end KeyCustody
