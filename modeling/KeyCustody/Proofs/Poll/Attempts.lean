import KeyCustody.Proofs.Poll.Ending
import KeyCustody.Proofs.Poll.Fixed

/-!
# Counting the checks of a wait

A wait counts its checks in 32 bits, for its reports only, and it counts one more whenever it comes
to a check. Nothing that it decides depends on the count, so nothing keeps it from counting beyond
the greatest number: a wait ends because of the time, and a schedule bounds its checks only through
the time that its intervals take.

So on clocks on which no sleep is too short, the count is kept exactly by those schedules whose
first `2 ^ 32 - 2` intervals take all the time that is given. The standard schedule is one of them.
A schedule that starts at zero is not, unless it gives no time at all: its intervals stay at zero,
whatever the growth factor and the cap. If such a wait is given ten minutes, and each check takes a
hundred nanoseconds, the count is at its end after seven.

## Main definitions

* `Poll.attempts?` — the count of checks, in 32 bits
* `PollPolicy.KeepsCount` — no wait goes beyond the greatest count
* `Poll.steadyClock` — a clock on which each check takes the same time

## Main results

* `Poll.attempts?_eq_some_iff`, `Poll.attempts?_eq_none_iff` — what the count is, and when it ends
* `PollPolicy.keepsCount_iff_exists_course` — keeping the count is ending early enough
* `PollPolicy.attempts_of_create` — which schedules keep the count
* `PollPolicy.not_keepsCount_of_create` — a schedule that is accepted and does not
-/

namespace KeyCustody

namespace Poll

variable {slept : List TimeSpan}

/-- The next number, unless the number is the greatest one of 32 bits. -/
def increment? (n : UInt32) : Option UInt32 :=
  if n.toNat + 1 < UInt32.size then some (n + 1) else none

/-- The count of checks by the check after the given delays. It starts at zero, and goes up by one
at each check. -/
def attempts? : List TimeSpan → Option UInt32
  | [] => increment? 0
  | _ :: slept => (attempts? slept).bind increment?

theorem increment?_eq_some_iff {n m : UInt32} : increment? n = some m ↔ m.toNat = n.toNat + 1 := by
  rw [increment?]
  constructor
  · intro h
    split_ifs at h with hlt
    obtain rfl := Option.some.inj h
    rw [UInt32.toNat_add]
    exact Nat.mod_eq_of_lt hlt
  · intro h
    have hlt : n.toNat + 1 < UInt32.size := h ▸ m.toNat_lt_size
    rw [if_pos hlt, Option.some.injEq]
    apply UInt32.toNat.inj
    rw [UInt32.toNat_add, h]
    exact Nat.mod_eq_of_lt hlt

/-- As long as there is a count, it is the number of checks. -/
theorem attempts?_eq_some_iff {n : UInt32} :
    attempts? slept = some n ↔ n.toNat = slept.length + 1 := by
  induction slept generalizing n with
  | nil => exact increment?_eq_some_iff
  | cons delay slept ih =>
    rw [attempts?, Option.bind_eq_some_iff]
    constructor
    · rintro ⟨k, hk, hn⟩
      rw [increment?_eq_some_iff.mp hn, ih.mp hk, List.length_cons]
    · intro hn
      have hlt : slept.length + 1 < UInt32.size := by
        have hsize := n.toNat_lt_size
        rw [hn, List.length_cons] at hsize
        exact Nat.lt_of_succ_lt hsize
      have hk : (UInt32.ofNat (slept.length + 1)).toNat = slept.length + 1 :=
        UInt32.toNat_ofNat_of_lt' hlt
      refine ⟨_, ih.mpr hk, increment?_eq_some_iff.mpr ?_⟩
      rw [hn, hk, List.length_cons]

/-- The count ends where there are more checks than 32 bits can count. -/
theorem attempts?_eq_none_iff : attempts? slept = none ↔ UInt32.size ≤ slept.length + 1 := by
  rw [Option.eq_none_iff_forall_ne_some]
  simp only [ne_eq, attempts?_eq_some_iff]
  constructor
  · intro h
    by_contra hlt
    exact h _ (UInt32.toNat_ofNat_of_lt' (Nat.lt_of_not_le hlt))
  · intro hle n hn
    exact absurd (hn ▸ n.toNat_lt_size) (Nat.not_lt.mpr hle)

/-- The clock of a world in which each check takes the same time and sleeps are exact. -/
def steadyClock (check : TimeSpan) : Clock :=
  fun slept => (slept.length + 1) * check + exactClock slept

theorem passesSleeps_steadyClock (check : TimeSpan) : Clock.PassesSleeps (steadyClock check) := by
  intro delay slept
  change (slept.length + 1) * check + exactClock slept + delay ≤
    (slept.length + 1 + 1) * check + (delay + exactClock slept)
  rw [Nat.add_assoc, Nat.add_comm delay]
  exact Nat.add_le_add_right (Nat.mul_le_mul_right _ (Nat.le_succ _)) _

end Poll

namespace PollPolicy

open Poll

variable {p : PollPolicy} {admits : Clock → Prop}

/-- In no wait on one of the given clocks does the count of checks end, whatever the checks
find. -/
def KeepsCount (p : PollPolicy) (admits : Clock → Prop) : Prop :=
  ∀ (what : String) (outcome : Nat → CheckOutcome) (clock : Clock), admits clock →
    ∀ interval slept, Reaches p what outcome clock interval slept → attempts? slept ≠ none

/-- Keeping the count is ending with a check that can still be counted. -/
theorem keepsCount_iff_exists_course (hfinite : p.multiplier.isFinite = true) :
    p.KeepsCount admits ↔ ∀ what outcome clock, admits clock →
      ∃ course : Course, course.checks < UInt32.size ∧
        ∀ fuel, run p what outcome clock fuel =
          if course.checks ≤ fuel then some course else none := by
  constructor
  · intro hkeeps what outcome clock hclock
    have hlength : ∀ interval slept, Reaches p what outcome clock interval slept →
        slept.length ≤ UInt32.size - 2 := by
      intro interval slept hreaches
      have hlt := hkeeps what outcome clock hclock interval slept hreaches
      rw [ne_eq, attempts?_eq_none_iff, Nat.not_le] at hlt
      exact Nat.le_sub_of_add_le hlt
    obtain ⟨course, hchecks, -, hrun⟩ := exists_course_of_length_le hfinite hlength
    exact ⟨course, Nat.lt_of_le_of_lt hchecks (by decide), hrun⟩
  · intro hends what outcome clock hclock interval slept hreaches hnone
    obtain ⟨course, hchecks, hrun⟩ := hends what outcome clock hclock
    rw [attempts?_eq_none_iff] at hnone
    -- By its last check the wait has not come to this one.
    have hlast := hreaches.run_eq_none (Nat.le_of_lt_succ (hchecks.trans_le hnone))
    rw [hrun, if_pos (Nat.le_refl _)] at hlast
    cases hlast

/-! ## Clocks that may stand still -/

/-- On a clock that stands still a wait never ends, unless it is given no time. -/
theorem keepsCount_isForward_iff (hfinite : p.multiplier.isFinite = true) :
    p.KeepsCount Clock.IsForward ↔ p.timeout = 0 := by
  constructor
  · intro hkeeps
    by_contra htime
    obtain ⟨slept, hlength, hreaches⟩ : ∃ slept, slept.length = UInt32.size ∧
        Reaches p "" (fun _ => .notReady) (fun _ => 0) (p.intervalAt UInt32.size) slept :=
      exists_reaches_of_lt hfinite (fun _ => rfl) fun _ _ _ _ => Nat.pos_of_ne_zero htime
    refine hkeeps _ _ _ (fun _ _ => Nat.le_refl _) _ _ hreaches (attempts?_eq_none_iff.mpr ?_)
    rw [hlength]
    exact Nat.le_succ _
  · intro htime what outcome clock _ interval slept hreaches
    rcases hreaches with _ | ⟨-, hreact⟩
    · rw [ne_eq, attempts?_eq_none_iff]
      decide
    · obtain ⟨-, hlt, -, -⟩ := react_eq_sleep_iff.mp hreact
      rw [htime] at hlt
      exact absurd hlt (Nat.not_lt_zero _)

/-! ## Clocks on which no sleep is too short -/

/-- On clocks on which no sleep is too short, the count is kept if the intervals that can be counted
take all the time, and only then. -/
theorem keepsCount_passesSleeps_iff (hfinite : p.multiplier.isFinite = true) :
    p.KeepsCount Clock.PassesSleeps ↔ p.timeout ≤ p.wholeSleeps (UInt32.size - 2) := by
  constructor
  · intro hkeeps
    by_contra hlt
    obtain ⟨slept, hlength, hreaches⟩ : ∃ slept, slept.length = UInt32.size - 2 + 1 ∧
        Reaches p "" (fun _ => .notReady) exactClock (p.intervalAt (UInt32.size - 2 + 1)) slept :=
      exists_reaches_exactClock hfinite (fun _ => rfl) (Nat.lt_of_not_le hlt)
    refine hkeeps _ _ _ passesSleeps_exactClock _ _ hreaches (attempts?_eq_none_iff.mpr ?_)
    rw [hlength]
    decide
  · intro hle what outcome clock hclock interval slept hreaches
    rw [ne_eq, attempts?_eq_none_iff, Nat.not_le]
    cases slept with
    | nil => decide
    | cons delay slept =>
      have hlength : slept.length < UInt32.size - 2 :=
        p.wholeSleeps_mono.reflect_lt ((hreaches.wholeSleeps_lt hclock).trans_le hle)
      have hcount : slept.length + 2 < UInt32.size := Nat.add_lt_of_lt_sub hlength
      exact hcount

/-- A schedule that starts above zero, under a cap above zero, keeps the count if it gives less than
`2 ^ 32 - 1` nanoseconds. -/
theorem keepsCount_of_timeout_lt (hfinite : p.multiplier.isFinite = true)
    (hinterval : 0 < p.interval) (hcap : 0 < p.maxInterval) (htime : p.timeout + 1 < UInt32.size) :
    p.KeepsCount Clock.PassesSleeps :=
  (keepsCount_passesSleeps_iff hfinite).mpr
    ((Nat.le_sub_of_add_le htime).trans (p.le_wholeSleeps hinterval hcap _))

theorem keepsCount_fixed_iff (interval timeout : TimeSpan) :
    (fixed interval timeout).KeepsCount Clock.PassesSleeps ↔
      timeout ≤ (UInt32.size - 2) * interval := by
  have hinterval : ∀ n, (fixed interval timeout).intervalAt n = interval :=
    Function.iterate_fixed (nextInterval_fixed interval timeout)
  rw [keepsCount_passesSleeps_iff rfl, wholeSleeps, Finset.sum_congr rfl fun n _ => hinterval n,
    Finset.sum_const, Finset.card_range, smul_eq_mul]
  exact Iff.rfl

/-- A schedule that starts at zero stays there. -/
theorem wholeSleeps_eq_zero (hinterval : p.interval = 0) (n : Nat) : p.wholeSleeps n = 0 := by
  refine Finset.sum_eq_zero fun k _ => ?_
  rw [intervalAt, hinterval]
  exact Function.iterate_fixed p.nextInterval_zero k

/-- The intervals of the standard schedule take all its time, the first twenty-five of them
already. -/
theorem timeout_standard_le : standard.timeout ≤ standard.wholeSleeps (UInt32.size - 2) :=
  calc standard.timeout
    _ ≤ standard.wholeSleeps 25 := by decide +kernel
    _ ≤ standard.wholeSleeps (UInt32.size - 2) := standard.wholeSleeps_mono (by decide)

/-! ## Schedules that are accepted -/

/-- A schedule that starts at zero and gives ten minutes. -/
def unpaced : PollPolicy where
  interval := 0
  maxInterval := 5000000
  multiplier := Binary64.two
  timeout := TimeSpan.ofSeconds 600

theorem create_unpaced :
    create 0 5000000 Binary64.two (TimeSpan.ofSeconds 600) = .ok unpaced :=
  create_eq_ok_iff.mpr ⟨rfl, rfl⟩

/-- Which of the schedules that are accepted keep the count of checks, which is to say that every
wait ends with a check that can still be counted in 32 bits. If clocks may stand still, only those
that give no time do. If no sleep is too short, those do whose first `2 ^ 32 - 2` intervals take all
the time. -/
theorem attempts_of_create {interval maxInterval timeout : TimeSpan} {multiplier : Binary64}
    {p : PollPolicy} (h : create interval maxInterval multiplier timeout = .ok p) :
    (∀ admits : Clock → Prop, p.KeepsCount admits ↔ ∀ what outcome clock, admits clock →
      ∃ course : Course, course.checks < UInt32.size ∧
        ∀ fuel, run p what outcome clock fuel =
          if course.checks ≤ fuel then some course else none) ∧
    (p.KeepsCount Clock.IsForward ↔ timeout = 0) ∧
    (p.KeepsCount Clock.PassesSleeps ↔ timeout ≤ p.wholeSleeps (UInt32.size - 2)) := by
  obtain ⟨hfinite, rfl⟩ := create_eq_ok_iff.mp h
  exact ⟨fun admits => keepsCount_iff_exists_course hfinite, keepsCount_isForward_iff hfinite,
    keepsCount_passesSleeps_iff hfinite⟩

/-- Where no sleep is too short, the standard schedule keeps the count, and a schedule that starts
at zero does not. -/
theorem attempts_of_create_unpaced :
    create 0 5000000 Binary64.two (TimeSpan.ofSeconds 600) = .ok unpaced ∧
      ¬ unpaced.KeepsCount Clock.PassesSleeps ∧ standard.KeepsCount Clock.PassesSleeps := by
  have hstandard : create (TimeSpan.ofSeconds 1) (TimeSpan.ofSeconds 30) Binary64.two
      (TimeSpan.ofSeconds 600) = .ok standard := create_eq_ok_iff.mpr ⟨rfl, rfl⟩
  obtain ⟨-, -, hunpaced⟩ := attempts_of_create create_unpaced
  rw [wholeSleeps_eq_zero rfl] at hunpaced
  obtain ⟨-, -, hkeeps⟩ := attempts_of_create hstandard
  exact ⟨create_unpaced, fun hcount => absurd (hunpaced.mp hcount) (by decide),
    hkeeps.mpr timeout_standard_le⟩

/-- An accepted schedule need not keep the count, also where the clock goes on all the time: one
that starts at zero comes to the check that cannot be counted after seven of its ten minutes, if
each check takes a hundred nanoseconds. -/
theorem not_keepsCount_of_create :
    ¬ ∀ interval maxInterval multiplier timeout p,
      create interval maxInterval multiplier timeout = .ok p → p.KeepsCount Clock.IsForward := by
  intro hkeeps
  let outcome : Nat → CheckOutcome := fun _ => .notReady
  obtain ⟨slept, hlength, hreaches⟩ : ∃ slept, slept.length = UInt32.size - 1 ∧
      Reaches unpaced "import job" outcome (steadyClock 100) (unpaced.intervalAt (UInt32.size - 1))
        slept := by
    refine exists_reaches_of_lt rfl (fun _ => rfl) fun interval slept hreaches hlt => ?_
    have hsleeps : exactClock slept = 0 :=
      Nat.le_zero.mp (wholeSleeps_eq_zero (p := unpaced) rfl _ ▸ hreaches.exactClock_le)
    calc steadyClock 100 slept
      _ = (slept.length + 1) * 100 := by rw [steadyClock, hsleeps, Nat.add_zero]
      _ ≤ (UInt32.size - 1) * 100 := Nat.mul_le_mul_right _ hlt
      _ < unpaced.timeout := by decide
  refine hkeeps _ _ _ _ _ create_unpaced "import job" outcome (steadyClock 100)
    (passesSleeps_steadyClock 100).isForward _ _ hreaches (attempts?_eq_none_iff.mpr ?_)
  rw [hlength]
  decide

end PollPolicy

end KeyCustody
