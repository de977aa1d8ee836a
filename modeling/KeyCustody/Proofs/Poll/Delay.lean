import KeyCustody.Proofs.Outcome
import KeyCustody.Proofs.Poll

/-!
# How long a wait sleeps

A schedule has a cap, and the interval of a wait is brought under the cap whenever it grows. It
grows after a sleep, so it is under the cap from the second sleep on. The first sleep is taken with
the interval that the schedule gives, and nothing compares that one with the cap.

So the first sleep is the only one that may be too long, and it is too long in some wait exactly if
the schedule starts above its cap and leaves more time than the cap.

## Main definitions

* `Poll.Clock.IsForward` — a clock that does not go back
* `PollPolicy.IsCapped` — no sleep of any wait is longer than the cap

## Main results

* `Poll.Reaches.interval_le`, `Poll.Reaches.delays` — the intervals and the sleeps of a wait
* `PollPolicy.isCapped_iff` — which schedules keep to their cap
* `PollPolicy.delays_of_create`, `PollPolicy.not_isCapped_of_create` — the cap of a schedule that is
  accepted
-/

namespace KeyCustody

namespace Poll

/-- The clock does not go back while a wait sleeps and checks. -/
def Clock.IsForward (clock : Clock) : Prop :=
  ∀ delay slept, clock slept ≤ clock (delay :: slept)

theorem isForward_exactClock : Clock.IsForward exactClock :=
  fun delay slept => Nat.le_add_left (exactClock slept) delay

end Poll

namespace PollPolicy

/-- Whatever its checks find, and whatever a clock shows that does not go back, no sleep of a wait
is longer than the cap of its schedule. -/
def IsCapped (p : PollPolicy) : Prop :=
  ∀ (what : String) (outcome : Nat → CheckOutcome) (clock : Poll.Clock), clock.IsForward →
    ∀ interval slept, Poll.Reaches p what outcome clock interval slept →
      ∀ delay ∈ slept, delay ≤ p.maxInterval

/-- An interval that has grown is at most the cap, whatever the rounding has made of it. -/
theorem nextInterval_le (p : PollPolicy) (current : TimeSpan) :
    p.nextInterval current ≤ p.maxInterval := by
  rw [nextInterval]
  split_ifs
  · exact Nat.le_refl _
  · exact Nat.min_le_right _ _

theorem create_eq_ok_iff {interval maxInterval timeout : TimeSpan} {multiplier : Binary64}
    {p : PollPolicy} : create interval maxInterval multiplier timeout = .ok p ↔
      multiplier.isFinite = true ∧ p = ⟨interval, maxInterval, multiplier, timeout⟩ := by
  simp only [create, Outcome.bind_eq_ok_iff, Poll.check_eq]
  by_cases h : multiplier.isFinite = true
  · simp [h, pure, Except.pure, eq_comm]
  · simp [h]

end PollPolicy

namespace Poll

variable {p : PollPolicy} {what : String} {outcome : Nat → CheckOutcome} {clock : Clock}
  {interval delay : TimeSpan} {slept : List TimeSpan}

/-! ## The sleeps of one wait -/

/-- After a sleep the interval is at most the cap. -/
theorem Reaches.interval_le (h : Reaches p what outcome clock interval slept) (hne : slept ≠ []) :
    interval ≤ p.maxInterval := by
  cases h with
  | start => exact absurd rfl hne
  | sleep _ hreact =>
    obtain ⟨-, -, -, rfl⟩ := react_eq_sleep_iff.mp hreact
    exact p.nextInterval_le _

/-- The sleeps of a wait, the latest first: the first one ever is what the schedule starts with, up
to the time that is left, and all later ones are at most the cap. -/
theorem Reaches.delays (h : Reaches p what outcome clock interval slept) :
    slept = [] ∨ ∃ later, slept = later ++ [min p.interval (p.timeout - clock [])] ∧
      ∀ delay ∈ later, delay ≤ p.maxInterval := by
  induction h with
  | start => exact .inl rfl
  | @sleep interval delay next slept hreaches hreact ih =>
    obtain ⟨-, -, rfl, -⟩ := react_eq_sleep_iff.mp hreact
    rcases ih with rfl | ⟨later, rfl, hlater⟩
    · -- nothing has been slept, so the interval is still the one of the schedule
      cases hreaches
      exact .inr ⟨[], rfl, nofun⟩
    · refine .inr ⟨_ :: later, rfl, List.forall_mem_cons.mpr ⟨?_, hlater⟩⟩
      have hinterval : interval ≤ p.maxInterval := hreaches.interval_le (by simp)
      exact Nat.le_trans (Nat.min_le_left _ _) hinterval

/-- If the first check finds nothing and is not late, the wait comes to a second one. -/
theorem reaches_first (hfinite : p.multiplier.isFinite = true) (hnone : outcome 0 = .notReady)
    (htime : clock [] < p.timeout) :
    Reaches p what outcome clock (p.nextInterval p.interval)
      [min p.interval (p.timeout - clock [])] :=
  (Reaches.start hfinite).sleep (react_eq_sleep_iff.mpr ⟨hnone, htime, rfl, rfl⟩)

end Poll

namespace PollPolicy

open Poll

/-! ## Schedules that keep to their cap -/

/-- A schedule keeps to its cap if it starts under it, or gives up before that matters. -/
theorem isCapped_iff {p : PollPolicy} (hfinite : p.multiplier.isFinite = true) :
    p.IsCapped ↔ min p.interval p.timeout ≤ p.maxInterval := by
  constructor
  · intro hcapped
    by_cases htime : 0 < p.timeout
    · -- with an exact clock the first check is made at time zero, and all the time is left
      exact hcapped "" (fun _ => .notReady) exactClock isForward_exactClock _ _
        (reaches_first hfinite rfl htime) _ (List.mem_singleton_self _)
    · rw [Nat.eq_zero_of_not_pos htime, Nat.min_zero]
      exact Nat.zero_le _
  · intro hle what outcome clock _ interval slept hreaches delay hdelay
    rcases hreaches.delays with rfl | ⟨later, rfl, hlater⟩
    · exact absurd hdelay List.not_mem_nil
    · rcases List.mem_append.mp hdelay with hmem | hmem
      · exact hlater delay hmem
      · obtain rfl := List.mem_singleton.mp hmem
        have hleft : p.timeout - clock [] ≤ p.timeout := Nat.sub_le _ _
        exact Nat.le_trans (Nat.le_min.mpr ⟨Nat.min_le_left _ _,
          Nat.le_trans (Nat.min_le_right _ _) hleft⟩) hle

theorem isCapped_fixed (interval timeout : TimeSpan) : (fixed interval timeout).IsCapped :=
  (isCapped_iff rfl).mpr (Nat.min_le_left interval timeout)

theorem isCapped_standard : standard.IsCapped :=
  (isCapped_iff rfl).mpr (by decide)

/-- A schedule that starts at five milliseconds, under a cap of one. -/
def aboveCap : PollPolicy where
  interval := 5000000
  maxInterval := 1000000
  multiplier := Binary64.two
  timeout := TimeSpan.ofSeconds 600

theorem create_aboveCap :
    create 5000000 1000000 Binary64.two (TimeSpan.ofSeconds 600) = .ok aboveCap :=
  create_eq_ok_iff.mpr ⟨rfl, rfl⟩

/-- The sleeps of a wait with a schedule that is accepted. The first one is the interval that the
schedule starts with, up to the time that is left, and it may be above the cap. Every later one is
at most the cap, whatever the checks find and the clock shows. So the schedule keeps to its cap
exactly if it starts under the cap or does not wait for longer than the cap. -/
theorem delays_of_create {interval maxInterval timeout : TimeSpan} {multiplier : Binary64}
    {p : PollPolicy} (h : create interval maxInterval multiplier timeout = .ok p) :
    (∀ what outcome clock next slept, Reaches p what outcome clock next slept →
      slept = [] ∨ ∃ later, slept = later ++ [min interval (timeout - clock [])] ∧
        ∀ delay ∈ later, delay ≤ maxInterval) ∧
    (∀ what outcome clock fuel course, run p what outcome clock fuel = some course →
      course.delays = [] ∨ ∃ later, course.delays = min interval (timeout - clock []) :: later ∧
        ∀ delay ∈ later, delay ≤ maxInterval) ∧
    (p.IsCapped ↔ min interval timeout ≤ maxInterval) := by
  obtain ⟨hfinite, rfl⟩ := create_eq_ok_iff.mp h
  refine ⟨fun what outcome clock next slept => Reaches.delays, ?_, isCapped_iff hfinite⟩
  intro what outcome clock fuel course hrun
  obtain ⟨next, slept, hreaches, -, -, hdelays⟩ := (run_eq_some_iff hfinite).mp ⟨fuel, hrun⟩
  rw [hdelays]
  rcases hreaches.delays with rfl | ⟨later, rfl, hlater⟩
  · exact .inl rfl
  · refine .inr ⟨later.reverse, by simp, ?_⟩
    intro delay hdelay
    exact hlater delay (List.mem_reverse.mp hdelay)

/-- The schedule is accepted, and a wait for something that is ready at the second check sleeps all
five milliseconds. -/
theorem delays_of_create_above_cap :
    create 5000000 1000000 Binary64.two (TimeSpan.ofSeconds 600) = .ok aboveCap ∧
      run aboveCap "import job" (fun n => if n = 0 then .notReady else .ready) exactClock 2 =
        some ⟨.ok (), 2, [5000000]⟩ ∧
      ¬ aboveCap.IsCapped := by
  obtain ⟨-, -, hcapped⟩ := delays_of_create create_aboveCap
  exact ⟨create_aboveCap, rfl, fun h => absurd (hcapped.mp h) (by decide)⟩

/-- An accepted schedule need not keep to its cap: where the cap is one millisecond, the wait sleeps
five after its first check. -/
theorem not_isCapped_of_create :
    ¬ ∀ interval maxInterval multiplier timeout p,
      create interval maxInterval multiplier timeout = .ok p → p.IsCapped := by
  intro hcapped
  let outcome : Nat → CheckOutcome := fun n => if n = 0 then .notReady else .ready
  have hreaches : Reaches aboveCap "import job" outcome exactClock
      (aboveCap.nextInterval 5000000) [5000000] := reaches_first rfl rfl (by decide)
  have hle : 5000000 ≤ aboveCap.maxInterval :=
    hcapped _ _ _ _ _ create_aboveCap _ _ _ isForward_exactClock _ _ hreaches _
      (List.mem_singleton_self _)
  exact absurd hle (by decide)

end PollPolicy

end KeyCustody
