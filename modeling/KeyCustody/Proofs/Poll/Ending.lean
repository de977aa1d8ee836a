import KeyCustody.Proofs.Number.Binary64
import KeyCustody.Proofs.Poll.Delay
import Mathlib.Algebra.Order.BigOperators.Group.Finset

/-!
# When a wait is over

The intervals of a wait are those that its schedule gives, whatever its checks find and the clock
shows: a sleep may be cut short by the end of the time, but the interval after it is not. So the
time that whole sleeps take is a matter of the schedule alone. On a clock on which no sleep is
shorter than was asked for, a wait sleeps once more only if that time has not yet reached the end,
and with exact sleeps it does sleep then.

An interval does not get lost in rounding. In seconds it is above `2 ^ -30`, and neither growing nor
rounding goes below a power of two. That is more than half of a nanosecond, so it is rounded to one
at least. So a schedule that starts above zero, with a cap above zero, never sleeps for no time, and
its wait makes at most one check for each nanosecond and one more.

## Main definitions

* `Poll.Clock.PassesSleeps` — a clock on which no sleep is too short
* `PollPolicy.intervalAt`, `PollPolicy.wholeSleeps` — the intervals of a schedule, and their sum

## Main results

* `PollPolicy.nextInterval_pos_iff` — intervals do not get lost in rounding
* `Poll.Reaches.wholeSleeps_lt`, `Poll.exists_reaches_exactClock` — when there is one sleep more
* `Poll.exists_course_of_length_le` — a wait that does not sleep too often ends
* `Poll.run_ends` — how many checks a wait makes at most
-/

namespace KeyCustody

namespace PollPolicy

variable (p : PollPolicy)

/-! ## Intervals above zero -/

theorem one_le_growth : Magnitude.one ≤ p.growth := by
  unfold growth
  split
  · exact Nat.le_max_right _ _
  · exact Nat.le_refl _

/-- `2 ^ -30` of a second: more than half of a nanosecond, and less than a whole one. -/
def underNanosecond : Magnitude := 1 <<< 1044

theorem isPowerOfTwo_underNanosecond : underNanosecond.isPowerOfTwo := by
  have hshift : ∀ k : Nat, (1 <<< k : Nat).isPowerOfTwo := fun k => ⟨k, Nat.one_shiftLeft k⟩
  exact hshift 1044

theorem underNanosecond_pos : 0 < underNanosecond :=
  Nat.pos_of_isPowerOfTwo isPowerOfTwo_underNanosecond

theorem one_eq_underNanosecond_mul : Magnitude.one = underNanosecond * 2 ^ 30 :=
  (Nat.shiftLeft_add 1 1044 30).trans (Nat.shiftLeft_eq _ _)

/-- A nanosecond or more is above `2 ^ -30` of a second, also when rounded. -/
theorem underNanosecond_le_seconds {t : TimeSpan} (ht : 0 < t) : underNanosecond ≤ seconds t := by
  have hsecond : underNanosecond * 1 ≤ Magnitude.one := by
    rw [one_eq_underNanosecond_mul]
    exact Nat.mul_le_mul_left _ (by decide)
  have hnanosecond : underNanosecond * TimeSpan.second ≤ Magnitude.one := by
    rw [one_eq_underNanosecond_mul]
    exact Nat.mul_le_mul_left _ (by decide)
  have hparts : underNanosecond ≤ Magnitude.ofFraction (t / TimeSpan.second) 1 +
      Magnitude.ofFraction (t % TimeSpan.second) TimeSpan.second := by
    -- There is a whole second, or a nanosecond beside the whole seconds.
    rcases Nat.eq_zero_or_pos (t % TimeSpan.second) with hrest | hrest
    · have hwhole : 0 < t / TimeSpan.second :=
        Nat.div_pos (Nat.le_of_dvd ht (Nat.dvd_of_mod_eq_zero hrest)) (by decide)
      exact Nat.le_add_right_of_le (Magnitude.le_round_of_isPowerOfTwo isPowerOfTwo_underNanosecond
        Nat.one_pos (hsecond.trans (Nat.le_mul_of_pos_left _ hwhole)))
    · exact Nat.le_add_left_of_le (Magnitude.le_round_of_isPowerOfTwo isPowerOfTwo_underNanosecond
        (by decide) (hnanosecond.trans (Nat.le_mul_of_pos_left _ hrest)))
  exact Magnitude.le_round_of_isPowerOfTwo isPowerOfTwo_underNanosecond Nat.one_pos
    (by rwa [Nat.mul_one])

theorem seconds_zero : seconds 0 = 0 := by
  have hwhole : Magnitude.ofFraction 0 1 = 0 := by
    rw [Magnitude.ofFraction, Nat.zero_mul, Magnitude.round_zero Nat.one_pos]
  have hrest : Magnitude.ofFraction 0 TimeSpan.second = 0 := by
    rw [Magnitude.ofFraction, Nat.zero_mul, Magnitude.round_zero (by decide)]
  rw [seconds, Nat.zero_div, Nat.zero_mod, hwhole, hrest]
  exact Magnitude.round_zero Nat.one_pos

/-- More than half of a nanosecond is not rounded to nothing. -/
theorem pos_of_ofSeconds? {m : Magnitude} (hm : underNanosecond ≤ m) {t : TimeSpan}
    (ht : ofSeconds? m = some t) : 0 < t := by
  have hhalf : Magnitude.one < 2 * (underNanosecond * TimeSpan.second) := by
    rw [one_eq_underNanosecond_mul, Nat.mul_left_comm]
    exact Nat.mul_lt_mul_of_pos_left (by decide) underNanosecond_pos
  unfold ofSeconds? at ht
  dsimp only at ht
  split_ifs at ht
  obtain rfl := Option.some.inj ht
  exact Magnitude.roundQuotient_pos Magnitude.one_pos (hhalf.trans_le
    (Nat.mul_le_mul_left 2 (Nat.mul_le_mul_right _ hm)))

theorem nextInterval_pos (hcap : 0 < p.maxInterval) {current : TimeSpan} (hcurrent : 0 < current) :
    0 < p.nextInterval current := by
  have hgrown : underNanosecond ≤ Magnitude.multiply (seconds current) p.growth :=
    Magnitude.le_round_of_isPowerOfTwo isPowerOfTwo_underNanosecond Magnitude.one_pos
      (Nat.mul_le_mul (underNanosecond_le_seconds hcurrent) p.one_le_growth)
  rw [nextInterval]
  split_ifs
  · exact hcap
  · refine Nat.lt_min.mpr ⟨?_, hcap⟩
    cases hspan : ofSeconds? (Magnitude.multiply (seconds current) p.growth) with
    | none => exact hcap
    | some t => exact pos_of_ofSeconds? hgrown hspan

/-- Nothing grows out of nothing. -/
theorem nextInterval_zero : p.nextInterval 0 = 0 := by
  have hgrown : Magnitude.multiply (seconds 0) p.growth = 0 := by
    rw [seconds_zero, Magnitude.multiply, Nat.zero_mul, Magnitude.round_zero Magnitude.one_pos]
  have hspan : ofSeconds? 0 = some 0 := by
    have hzero := Magnitude.roundQuotient_mul_right Magnitude.one_pos 0
    rw [Nat.zero_mul] at hzero
    rw [ofSeconds?, Nat.zero_mul, hzero]
    rfl
  rw [nextInterval, hgrown, hspan]
  split_ifs with hle
  · -- The cap in seconds is zero, so the cap is.
    by_contra hcap
    have hpos := underNanosecond_le_seconds (Nat.pos_of_ne_zero hcap)
    exact absurd (hpos.trans hle) (Nat.not_le.mpr underNanosecond_pos)
  · exact Nat.zero_min _

/-- Intervals do not get lost in rounding, and they come from an interval and a cap above zero
only. -/
theorem nextInterval_pos_iff {current : TimeSpan} :
    0 < p.nextInterval current ↔ 0 < current ∧ 0 < p.maxInterval := by
  constructor
  · intro hnext
    refine ⟨Nat.pos_of_ne_zero ?_, hnext.trans_le (p.nextInterval_le current)⟩
    rintro rfl
    exact absurd p.nextInterval_zero hnext.ne'
  · rintro ⟨hcurrent, hcap⟩
    exact p.nextInterval_pos hcap hcurrent

/-! ## The intervals of a schedule -/

/-- The interval of a wait by the check of the given number, counted from zero. -/
def intervalAt (n : Nat) : TimeSpan := p.nextInterval^[n] p.interval

/-- The time that the first `n` sleeps take if none of them is cut short. -/
def wholeSleeps (n : Nat) : TimeSpan := ∑ k ∈ Finset.range n, p.intervalAt k

theorem intervalAt_succ (n : Nat) : p.intervalAt (n + 1) = p.nextInterval (p.intervalAt n) :=
  Function.iterate_succ_apply' _ _ _

theorem wholeSleeps_succ (n : Nat) : p.wholeSleeps (n + 1) = p.wholeSleeps n + p.intervalAt n :=
  Finset.sum_range_succ _ _

theorem wholeSleeps_mono : Monotone p.wholeSleeps :=
  monotone_nat_of_le_succ fun n => by
    rw [wholeSleeps_succ]
    exact Nat.le_add_right _ _

theorem intervalAt_pos (hinterval : 0 < p.interval) (hcap : 0 < p.maxInterval) (n : Nat) :
    0 < p.intervalAt n := by
  induction n with
  | zero => exact hinterval
  | succ n ih =>
    rw [intervalAt_succ]
    exact p.nextInterval_pos hcap ih

theorem le_wholeSleeps (hinterval : 0 < p.interval) (hcap : 0 < p.maxInterval) (n : Nat) :
    n ≤ p.wholeSleeps n := by
  induction n with
  | zero => exact Nat.zero_le _
  | succ n ih =>
    rw [wholeSleeps_succ]
    exact Nat.add_le_add ih (p.intervalAt_pos hinterval hcap n)

end PollPolicy

namespace Poll

variable {p : PollPolicy} {what : String} {outcome : Nat → CheckOutcome} {clock : Clock}
  {interval delay : TimeSpan} {slept : List TimeSpan} {n : Nat}

/-- No sleep is shorter than was asked for. It may be longer, and checks may take time as well. -/
def Clock.PassesSleeps (clock : Clock) : Prop :=
  ∀ delay slept, clock slept + delay ≤ clock (delay :: slept)

theorem Clock.PassesSleeps.isForward (h : clock.PassesSleeps) : clock.IsForward :=
  fun delay slept => (Nat.le_add_right _ _).trans (h delay slept)

theorem passesSleeps_exactClock : Clock.PassesSleeps exactClock :=
  fun delay slept => (Nat.add_comm (exactClock slept) delay).le

/-! ## One sleep more -/

theorem Reaches.interval_eq (h : Reaches p what outcome clock interval slept) :
    interval = p.intervalAt slept.length := by
  induction h with
  | start => rfl
  | sleep _ hreact ih =>
    obtain ⟨-, -, -, rfl⟩ := react_eq_sleep_iff.mp hreact
    rw [List.length_cons, PollPolicy.intervalAt_succ, ← ih]

/-- Until the time is over, whole sleeps have been slept. -/
theorem Reaches.min_le_clock (hclock : clock.PassesSleeps)
    (h : Reaches p what outcome clock interval slept) :
    min p.timeout (p.wholeSleeps slept.length) ≤ clock slept := by
  induction h with
  | start => exact (Nat.min_le_right _ _).trans (Nat.zero_le _)
  | @sleep interval delay next slept hreaches hreact ih =>
    obtain ⟨-, hlt, rfl, -⟩ := react_eq_sleep_iff.mp hreact
    have hle : p.wholeSleeps slept.length ≤ clock slept :=
      (min_le_iff.mp ih).resolve_left (Nat.not_le.mpr hlt)
    rw [List.length_cons, PollPolicy.wholeSleeps_succ, ← hreaches.interval_eq]
    calc min p.timeout (p.wholeSleeps slept.length + interval)
        ≤ min p.timeout (clock slept + interval) :=
          min_le_min_left _ (Nat.add_le_add_right hle interval)
      _ = clock slept + min interval (p.timeout - clock slept) := by
          rw [← Nat.add_min_add_left, Nat.add_sub_of_le hlt.le, Nat.min_comm]
      _ ≤ clock (min interval (p.timeout - clock slept) :: slept) := hclock _ _

/-- There is one sleep more only if whole sleeps so far have not taken all the time. -/
theorem Reaches.wholeSleeps_lt (hclock : clock.PassesSleeps)
    (h : Reaches p what outcome clock interval (delay :: slept)) :
    p.wholeSleeps slept.length < p.timeout := by
  rcases h with _ | ⟨hreaches, hreact⟩
  obtain ⟨-, hlt, -, -⟩ := react_eq_sleep_iff.mp hreact
  exact (min_lt_iff.mp ((hreaches.min_le_clock hclock).trans_lt hlt)).resolve_left
    (Nat.lt_irrefl _)

/-- No sleep is longer than a whole one. -/
theorem Reaches.exactClock_le (h : Reaches p what outcome clock interval slept) :
    exactClock slept ≤ p.wholeSleeps slept.length := by
  induction h with
  | start => exact Nat.zero_le _
  | @sleep interval delay next slept hreaches hreact ih =>
    obtain ⟨-, -, rfl, -⟩ := react_eq_sleep_iff.mp hreact
    rw [List.length_cons, PollPolicy.wholeSleeps_succ, ← hreaches.interval_eq, Nat.add_comm]
    exact Nat.add_le_add (Nat.min_le_left _ _) ih

/-- If no check finds anything, a wait goes on as long as its clock does not show the end. -/
theorem exists_reaches_of_lt (hfinite : p.multiplier.isFinite = true)
    (hnone : ∀ k, outcome k = .notReady)
    (hn : ∀ interval slept, Reaches p what outcome clock interval slept → slept.length < n →
      clock slept < p.timeout) :
    ∃ slept, slept.length = n ∧ Reaches p what outcome clock (p.intervalAt n) slept := by
  induction n with
  | zero => exact ⟨[], rfl, .start hfinite⟩
  | succ n ih =>
    obtain ⟨slept, rfl, hreaches⟩ := ih fun interval slept hreaches hlt =>
      hn interval slept hreaches (Nat.lt_succ_of_lt hlt)
    exact ⟨_ :: slept, rfl, hreaches.sleep (react_eq_sleep_iff.mpr
      ⟨hnone _, hn _ _ hreaches (Nat.lt_succ_self _), rfl, p.intervalAt_succ _⟩)⟩

/-- With exact sleeps there is one sleep more as long as whole sleeps have not taken all the time,
if no check finds anything. -/
theorem exists_reaches_exactClock (hfinite : p.multiplier.isFinite = true)
    (hnone : ∀ k, outcome k = .notReady) (hn : p.wholeSleeps n < p.timeout) :
    ∃ slept, slept.length = n + 1 ∧
      Reaches p what outcome exactClock (p.intervalAt (n + 1)) slept := by
  refine exists_reaches_of_lt hfinite hnone fun interval slept hreaches hlt => ?_
  calc exactClock slept
    _ ≤ p.wholeSleeps slept.length := hreaches.exactClock_le
    _ ≤ p.wholeSleeps n := p.wholeSleeps_mono (Nat.le_of_lt_succ hlt)
    _ < p.timeout := hn

/-! ## The end of a wait -/

/-- A wait goes on for one check more, or it has ended by then. -/
theorem exists_finish_or_reaches (hfinite : p.multiplier.isFinite = true) (n : Nat) :
    (∃ interval slept result, Reaches p what outcome clock interval slept ∧ slept.length < n ∧
      react p what interval (outcome slept.length) (clock slept) = .finish result) ∨
    ∃ interval slept, Reaches p what outcome clock interval slept ∧ slept.length = n := by
  induction n with
  | zero => exact .inr ⟨_, [], .start hfinite, rfl⟩
  | succ n ih =>
    rcases ih with ⟨interval, slept, result, hreaches, hlt, hreact⟩ |
      ⟨interval, slept, hreaches, rfl⟩
    · exact .inl ⟨interval, slept, result, hreaches, Nat.lt_succ_of_lt hlt, hreact⟩
    · cases hreact : react p what interval (outcome slept.length) (clock slept) with
      | finish result =>
        exact .inl ⟨interval, slept, result, hreaches, Nat.lt_succ_self _, hreact⟩
      | sleep delay next => exact .inr ⟨next, delay :: slept, hreaches.sleep hreact, rfl⟩

/-- A wait that comes to checks after at most `n` sleeps ends, and after at most one check more. -/
theorem exists_course_of_length_le (hfinite : p.multiplier.isFinite = true)
    (hlength : ∀ interval slept, Reaches p what outcome clock interval slept → slept.length ≤ n) :
    ∃ course : Course, course.checks ≤ n + 1 ∧
      (∃ interval, Reaches p what outcome clock interval course.delays.reverse) ∧
      ∀ fuel, run p what outcome clock fuel =
        if course.checks ≤ fuel then some course else none := by
  rcases exists_finish_or_reaches hfinite (n + 1) with
    ⟨interval, slept, result, hreaches, hlt, hreact⟩ | ⟨interval, slept, hreaches, heq⟩
  · exact ⟨⟨result, slept.length + 1, slept.reverse⟩, hlt,
      ⟨interval, by rwa [List.reverse_reverse]⟩, hreaches.run_eq_of_finish hreact⟩
  · exact absurd (hlength interval slept hreaches) (by omega)

theorem Reaches.delay_pos (hinterval : 0 < p.interval) (hcap : 0 < p.maxInterval)
    (h : Reaches p what outcome clock interval slept) : ∀ delay ∈ slept, 0 < delay := by
  induction h with
  | start => exact nofun
  | @sleep interval delay next slept hreaches hreact ih =>
    obtain ⟨-, hlt, rfl, -⟩ := react_eq_sleep_iff.mp hreact
    have hpos : 0 < interval := by
      rw [hreaches.interval_eq]
      exact p.intervalAt_pos hinterval hcap _
    exact List.forall_mem_cons.mpr ⟨Nat.lt_min.mpr ⟨hpos, Nat.sub_pos_of_lt hlt⟩, ih⟩

/-- Where the first interval and the cap are above zero, a wait ends. Whatever its checks find, and
on every clock on which no sleep is too short, it makes at most one check for each nanosecond that
it is given and one more, and each of its sleeps takes some time: no interval above zero is followed
by one of zero, whatever the growth factor. -/
theorem run_ends (p : PollPolicy) (hfinite : p.multiplier.isFinite = true)
    (hinterval : 0 < p.interval) (hcap : 0 < p.maxInterval) :
    (∀ what outcome clock, Clock.PassesSleeps clock →
      ∃ course : Course, course.checks ≤ p.timeout + 1 ∧ (∀ delay ∈ course.delays, 0 < delay) ∧
        ∀ fuel, run p what outcome clock fuel =
          if course.checks ≤ fuel then some course else none) ∧
    ∀ current, 0 < p.nextInterval current ↔ 0 < current := by
  refine ⟨fun what outcome clock hclock => ?_, fun current => ?_⟩
  · have hlength : ∀ interval slept, Reaches p what outcome clock interval slept →
        slept.length ≤ p.timeout := by
      intro interval slept hreaches
      cases slept with
      | nil => exact Nat.zero_le _
      | cons delay slept =>
        calc slept.length
          _ ≤ p.wholeSleeps slept.length := p.le_wholeSleeps hinterval hcap _
          _ < p.timeout := hreaches.wholeSleeps_lt hclock
    obtain ⟨course, hchecks, ⟨interval, hreaches⟩, hrun⟩ :=
      exists_course_of_length_le hfinite hlength
    refine ⟨course, hchecks, fun delay hdelay => ?_, hrun⟩
    exact hreaches.delay_pos hinterval hcap delay (List.mem_reverse.mpr hdelay)
  · rw [p.nextInterval_pos_iff]
    exact and_iff_left hcap

/-- A factor of minus one shrinks nothing, and a cap under the first interval does so once: four
units of time are slept in three parts. -/
theorem run_ends_negative :
    let p : PollPolicy := ⟨2, 1, .finite true Magnitude.one, 4⟩
    p.multiplier.isFinite = true ∧ 0 < p.interval ∧ 0 < p.maxInterval ∧
      ∃ course : Course, course.checks ≤ 5 ∧
        run p "import job" (fun _ => .notReady) exactClock 4 = some course ∧
        course.delays = [2, 1, 1] ∧ ∀ delay ∈ course.delays, 0 < delay := by
  intro p
  -- The cap leaves no other interval than one above zero.
  have hnext : ∀ current, 0 < current → p.nextInterval current = 1 := fun current hcurrent =>
    Nat.le_antisymm (p.nextInterval_le current) (p.nextInterval_pos (by decide) hcurrent)
  have hfour : run p "import job" (fun _ => .notReady) exactClock 4 =
      some ⟨.error (.timeout "import job" 4), 4, [2, 1, 1]⟩ := by
    rw [run_of_isFinite rfl]
    simp [proceed, react, exactClock, hnext, show p.interval = 2 from rfl,
      show p.timeout = 4 from rfl]
  obtain ⟨hends, -⟩ := run_ends p rfl (by decide) (by decide)
  obtain ⟨course, hchecks, hpos, hrun⟩ :=
    hends "import job" (fun _ => .notReady) exactClock passesSleeps_exactClock
  obtain rfl : (⟨.error (.timeout "import job" 4), 4, [2, 1, 1]⟩ : Course) = course := by
    have hfour' := hrun 4
    rw [hfour] at hfour'
    split_ifs at hfour'
    exact Option.some.inj hfour'
  exact ⟨rfl, by decide, by decide, _, hchecks, hfour, rfl, hpos⟩

end Poll

end KeyCustody
