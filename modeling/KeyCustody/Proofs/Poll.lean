import KeyCustody.Poll
import KeyCustody.Proofs.Number.Binary64
import Mathlib.Tactic.Common

/-!
# What a wait comes to

A wait goes from check to check, and the only thing between two checks is one sleep. So whatever the
checks find and the clock shows, there are three ways to end, each of them right after a check: it
found what was waited for, it failed, or it came too late. The clock need not even go forward.

A wait may also go on for ever, so what holds of its sleeps is stated for all checks that it comes
to, and not only for waits that end.

## Main definitions

* `Poll.Reaches` — a wait comes to a check

## Main results

* `PollPolicy.nextInterval_fixed` — equal delays stay equal
* `Poll.react_eq_sleep_iff`, `Poll.react_eq_finish_iff` — what follows one check
* `Poll.run_eq_some_iff` — how a wait ends
* `Poll.Reaches.sum_le` — with exact sleeps no check is late
* `Poll.result_of_checks` — what a wait comes to, by what its checks find
-/

namespace KeyCustody.PollPolicy

/-! ## Equal delays -/

/-- A number of seconds is a rounded one. -/
theorem isRounded_seconds (t : TimeSpan) : (seconds t).IsRounded :=
  Magnitude.isRounded_add _ _

/-- With equal delays the interval does not change. -/
theorem nextInterval_fixed (interval timeout : TimeSpan) :
    (fixed interval timeout).nextInterval interval = interval := by
  have hgrowth : (fixed interval timeout).growth = Magnitude.one := Nat.max_self _
  have hnext := (isRounded_seconds interval).multiply_one
  -- What has grown is compared with the cap in seconds, and they are the same rounded number.
  rw [nextInterval, hgrowth, hnext]
  exact if_pos (Nat.le_refl _)

end KeyCustody.PollPolicy

namespace KeyCustody.Poll

variable {p : PollPolicy} {what : String} {outcome : Nat → CheckOutcome} {clock : Clock}
  {interval delay next elapsed : TimeSpan} {slept : List TimeSpan} {found : CheckOutcome}
  {result : Except KeyError Unit} {course : Course}

/-! ## One check -/

/-- After a check the wait sleeps only if the check found nothing and there is time left, and then
not beyond that time. -/
theorem react_eq_sleep_iff : react p what interval found elapsed = .sleep delay next ↔
    found = .notReady ∧ elapsed < p.timeout ∧ delay = min interval (p.timeout - elapsed) ∧
      next = p.nextInterval interval := by
  cases found with
  | ready => simp [react]
  | failed e => simp [react]
  | notReady =>
    simp only [react, true_and]
    split_ifs with h
    · simp [Nat.not_lt.mpr h]
    · simp [Nat.not_le.mp h, eq_comm]

/-- After a check the wait ends with what was found, or because it is too late. -/
theorem react_eq_finish_iff : react p what interval found elapsed = .finish result ↔
    found = .ready ∧ result = .ok () ∨ (∃ e, found = .failed e ∧ result = .error e) ∨
      found = .notReady ∧ p.timeout ≤ elapsed ∧ result = .error (.timeout what elapsed) := by
  cases found with
  | ready => simp [react, eq_comm]
  | failed e => simp [react, eq_comm]
  | notReady =>
    simp only [react]
    split_ifs with h <;> simp [h, eq_comm]

/-! ## The checks that a wait comes to -/

/-- A wait comes to a check: the interval by then, and the delays before it, the latest first. -/
inductive Reaches (p : PollPolicy) (what : String) (outcome : Nat → CheckOutcome) (clock : Clock) :
    TimeSpan → List TimeSpan → Prop
  | start : p.multiplier.isFinite = true → Reaches p what outcome clock p.interval []
  | sleep {interval delay next : TimeSpan} {slept : List TimeSpan} :
    Reaches p what outcome clock interval slept →
    react p what interval (outcome slept.length) (clock slept) = .sleep delay next →
    Reaches p what outcome clock next (delay :: slept)

theorem Reaches.isFinite (h : Reaches p what outcome clock interval slept) :
    p.multiplier.isFinite = true := by
  induction h with
  | start h => exact h
  | sleep _ _ ih => exact ih

/-- All checks before the one that is reached have found nothing. -/
theorem Reaches.notReady (h : Reaches p what outcome clock interval slept) {n : Nat}
    (hn : n < slept.length) : outcome n = .notReady := by
  induction h with
  | start => exact absurd hn (Nat.not_lt_zero n)
  | sleep _ hreact ih =>
    rcases Nat.lt_succ_iff_lt_or_eq.mp hn with hlt | rfl
    · exact ih hlt
    · exact (react_eq_sleep_iff.mp hreact).1

/-- With exact sleeps no check is late: no sleep goes beyond the time that is left. -/
theorem Reaches.sum_le (h : Reaches p what outcome exactClock interval slept) :
    exactClock slept ≤ p.timeout := by
  induction h with
  | start => exact Nat.zero_le _
  | @sleep interval delay next slept _ hreact ih =>
    obtain ⟨-, -, rfl, -⟩ := react_eq_sleep_iff.mp hreact
    calc min interval (p.timeout - exactClock slept) + exactClock slept
        ≤ p.timeout - exactClock slept + exactClock slept :=
          Nat.add_le_add_right (Nat.min_le_right _ _) _
      _ = p.timeout := Nat.sub_add_cancel ih

/-! ## The last check -/

/-- Of the checks that are made, only the last one can have found something. -/
theorem Reaches.eq_length (h : Reaches p what outcome clock interval slept) {n : Nat}
    (hn : n < slept.length + 1) (hfound : outcome n ≠ .notReady) : n = slept.length := by
  rcases Nat.lt_succ_iff_lt_or_eq.mp hn with hlt | rfl
  · exact absurd (h.notReady hlt) hfound
  · rfl

theorem Reaches.result_eq_ok_iff (h : Reaches p what outcome clock interval slept)
    (hreact : react p what interval (outcome slept.length) (clock slept) = .finish result) :
    result = .ok () ↔ ∃ n < slept.length + 1, outcome n = .ready := by
  constructor
  · rintro rfl
    rcases react_eq_finish_iff.mp hreact with ⟨hready, -⟩ | ⟨e, -, ⟨⟩⟩ | ⟨-, -, ⟨⟩⟩
    exact ⟨slept.length, Nat.lt_succ_self _, hready⟩
  · rintro ⟨n, hn, hready⟩
    obtain rfl := h.eq_length hn (by simp [hready])
    rcases react_eq_finish_iff.mp hreact with ⟨-, hok⟩ | ⟨e, hfailed, -⟩ | ⟨hnone, -, -⟩
    · exact hok
    · exact absurd (hready.symm.trans hfailed) nofun
    · exact absurd (hready.symm.trans hnone) nofun

theorem Reaches.result_of_failed (h : Reaches p what outcome clock interval slept)
    (hreact : react p what interval (outcome slept.length) (clock slept) = .finish result)
    {n : Nat} (hn : n < slept.length + 1) {e : KeyError} (hfailed : outcome n = .failed e) :
    result = .error e := by
  obtain rfl := h.eq_length hn (by simp [hfailed])
  rw [hfailed] at hreact
  exact (Reaction.finish.inj hreact).symm

theorem failed_or_late {e : KeyError}
    (hreact : react p what interval found elapsed = .finish (.error e)) :
    found = .failed e ∨ found = .notReady ∧ p.timeout ≤ elapsed ∧ e = .timeout what elapsed := by
  rcases react_eq_finish_iff.mp hreact with ⟨-, ⟨⟩⟩ | ⟨e, hfailed, ⟨⟩⟩ | ⟨hnone, hlate, ⟨⟩⟩
  · exact .inl hfailed
  · exact .inr ⟨hnone, hlate, rfl⟩

/-! ## Whole waits -/

theorem check_eq (p : PollPolicy) : p.check = if p.multiplier.isFinite then .ok () else
    .error (.invalidParameters (.multiplier p.multiplier.specialText)) := rfl

theorem run_of_isFinite (h : p.multiplier.isFinite = true) (fuel : Nat) :
    run p what outcome clock fuel = proceed p what outcome clock fuel p.interval [] := by
  rw [run, check_eq, if_pos h]

/-- A growth factor that is not finite is refused, and nothing is checked. -/
theorem run_of_not_isFinite (h : p.multiplier.isFinite = false) (fuel : Nat) :
    run p what outcome clock fuel =
      some ⟨.error (.invalidParameters (.multiplier p.multiplier.specialText)), 0, []⟩ := by
  rw [run, check_eq, h]
  rfl

/-- A wait that has come to a check goes on from there. -/
theorem Reaches.run_eq (h : Reaches p what outcome clock interval slept) (fuel : Nat) :
    run p what outcome clock (slept.length + fuel) =
      proceed p what outcome clock fuel interval slept := by
  induction h generalizing fuel with
  | start h => rw [run_of_isFinite h, List.length_nil, Nat.zero_add]
  | sleep _ hreact ih =>
    rw [List.length_cons, Nat.add_right_comm, Nat.add_assoc, ih, proceed]
    simp only [hreact]

/-- A wait that comes to a check takes more checks than there are sleeps before it. -/
theorem Reaches.run_eq_none (h : Reaches p what outcome clock interval slept) {fuel : Nat}
    (hfuel : fuel ≤ slept.length) : run p what outcome clock fuel = none := by
  induction h with
  | start h =>
    obtain rfl := Nat.le_zero.mp hfuel
    exact run_of_isFinite h 0
  | @sleep interval delay next slept h hreact ih =>
    rcases Nat.le_succ_iff.mp hfuel with hle | rfl
    · exact ih hle
    · rw [Nat.succ_eq_add_one, h.run_eq, proceed]
      simp only [hreact]
      rfl

/-- A wait that comes to its last check ends there, and it has made the checks it has come to. -/
theorem Reaches.run_eq_of_finish (h : Reaches p what outcome clock interval slept)
    (hreact : react p what interval (outcome slept.length) (clock slept) = .finish result)
    (fuel : Nat) : run p what outcome clock fuel =
      if slept.length + 1 ≤ fuel then some ⟨result, slept.length + 1, slept.reverse⟩
      else none := by
  split_ifs with hfuel
  · obtain ⟨more, rfl⟩ := Nat.exists_eq_add_of_le hfuel
    rw [Nat.add_assoc, h.run_eq, Nat.add_comm 1 more, proceed]
    simp only [hreact]
  · exact h.run_eq_none (Nat.le_of_lt_succ (Nat.lt_of_not_le hfuel))

theorem exists_reaches_of_proceed {fuel : Nat} (h : Reaches p what outcome clock interval slept)
    (hcourse : proceed p what outcome clock fuel interval slept = some course) :
    ∃ interval slept, Reaches p what outcome clock interval slept ∧
      react p what interval (outcome slept.length) (clock slept) = .finish course.result ∧
      course.checks = slept.length + 1 ∧ course.delays = slept.reverse := by
  induction fuel generalizing interval slept with
  | zero => cases hcourse
  | succ fuel ih =>
    rw [proceed] at hcourse
    cases hreact : react p what interval (outcome slept.length) (clock slept) with
    | finish result =>
      simp only [hreact, Option.some.injEq] at hcourse
      subst hcourse
      exact ⟨interval, slept, h, hreact, rfl, rfl⟩
    | sleep delay next =>
      simp only [hreact] at hcourse
      exact ih (h.sleep hreact) hcourse

/-- A wait ends right after one of the checks that it comes to. -/
theorem run_eq_some_iff (h : p.multiplier.isFinite = true) :
    (∃ fuel, run p what outcome clock fuel = some course) ↔
      ∃ interval slept, Reaches p what outcome clock interval slept ∧
        react p what interval (outcome slept.length) (clock slept) = .finish course.result ∧
        course.checks = slept.length + 1 ∧ course.delays = slept.reverse := by
  constructor
  · rintro ⟨fuel, hcourse⟩
    rw [run_of_isFinite h] at hcourse
    exact exists_reaches_of_proceed (.start h) hcourse
  · rintro ⟨interval, slept, hreaches, hreact, hchecks, hdelays⟩
    refine ⟨slept.length + 1, ?_⟩
    rw [hreaches.run_eq, proceed]
    simp only [hreact, ← hchecks, ← hdelays]

/-! ## What a wait comes to -/

/-- What a wait comes to, whatever its checks find and the clock shows. A growth factor that is not
finite is refused, and nothing is checked. Otherwise there is a first check, and after each check
that a wait comes to it either ends or sleeps once and comes to another one. It sleeps only after a
check that found nothing and with time left, and not beyond that time. A wait that ends has made its
checks up to the first one that did not find nothing, or up to one that was too late. It succeeds
exactly if one of them was ready, and it fails with the failure of a check exactly if one of them
failed. Otherwise it fails because the clock, after its last check, showed that the time was over,
and with what the clock showed. If the sleeps are exact this is the end of the time itself. -/
theorem result_of_checks (p : PollPolicy) (what : String) (outcome : Nat → CheckOutcome)
    (clock : Clock) :
    (p.multiplier.isFinite = false →
      (∀ interval slept, ¬ Reaches p what outcome clock interval slept) ∧
      ∀ fuel, run p what outcome clock fuel =
        some ⟨.error (.invalidParameters (.multiplier p.multiplier.specialText)), 0, []⟩) ∧
    (p.multiplier.isFinite = true →
      Reaches p what outcome clock p.interval [] ∧
      (∀ interval slept, Reaches p what outcome clock interval slept →
        (∃ result, ∀ fuel, run p what outcome clock (slept.length + 1 + fuel) =
          some ⟨result, slept.length + 1, slept.reverse⟩) ∨
        ∃ delay next, Reaches p what outcome clock next (delay :: slept)) ∧
      (∀ interval delay slept, Reaches p what outcome clock interval (delay :: slept) →
        outcome slept.length = .notReady ∧ clock slept < p.timeout ∧
          delay ≤ p.timeout - clock slept) ∧
      ∀ fuel course, run p what outcome clock fuel = some course →
        ∃ interval slept, Reaches p what outcome clock interval slept ∧
          course.checks = slept.length + 1 ∧ course.delays = slept.reverse ∧
          (∀ n < slept.length, outcome n = .notReady) ∧
          (course.result = .ok () ↔ ∃ n < course.checks, outcome n = .ready) ∧
          (∀ n < course.checks, ∀ e, outcome n = .failed e → course.result = .error e) ∧
          (∀ e, course.result = .error e → (∃ n < course.checks, outcome n = .failed e) ∨
            outcome slept.length = .notReady ∧ p.timeout ≤ clock slept ∧
              e = .timeout what (clock slept)) ∧
          (clock = exactClock → outcome slept.length = .notReady → clock slept = p.timeout)) := by
  refine ⟨fun h => ⟨?_, run_of_not_isFinite h⟩, fun h => ⟨.start h, ?_, ?_, ?_⟩⟩
  · intro interval slept hreaches
    exact absurd hreaches.isFinite (by simp [h])
  · intro interval slept hreaches
    cases hreact : react p what interval (outcome slept.length) (clock slept) with
    | finish result =>
      refine .inl ⟨result, fun fuel => ?_⟩
      rw [Nat.add_right_comm, Nat.add_assoc, hreaches.run_eq, proceed]
      simp only [hreact]
    | sleep delay next => exact .inr ⟨delay, next, hreaches.sleep hreact⟩
  · rintro _ delay slept (_ | ⟨-, hreact⟩)
    obtain ⟨hnone, hlt, rfl, -⟩ := react_eq_sleep_iff.mp hreact
    exact ⟨hnone, hlt, Nat.min_le_right _ _⟩
  · intro fuel course hcourse
    obtain ⟨interval, slept, hreaches, hreact, hchecks, hdelays⟩ :=
      (run_eq_some_iff h).mp ⟨fuel, hcourse⟩
    refine ⟨interval, slept, hreaches, hchecks, hdelays, fun n => hreaches.notReady, ?_, ?_, ?_, ?_⟩
    · rw [hchecks]
      exact hreaches.result_eq_ok_iff hreact
    · rw [hchecks]
      exact fun n hn e => hreaches.result_of_failed hreact hn
    · intro e he
      rw [he] at hreact
      rw [hchecks]
      exact (failed_or_late hreact).imp_left fun hfailed => ⟨_, Nat.lt_succ_self _, hfailed⟩
    · rintro rfl hnone
      rcases react_eq_finish_iff.mp hreact with ⟨hready, -⟩ | ⟨e, hfailed, -⟩ | ⟨-, hlate, -⟩
      · exact absurd (hnone.symm.trans hready) nofun
      · exact absurd (hnone.symm.trans hfailed) nofun
      · exact Nat.le_antisymm hreaches.sum_le hlate

/-- Checks every two units of time for at most five: the last sleep is shorter, so that the last
check is made when the time is over. -/
theorem result_of_checks_five :
    let p := PollPolicy.fixed 2 5
    let outcome : Nat → CheckOutcome := fun _ => .notReady
    p.multiplier.isFinite = true ∧
      run p "key" outcome exactClock 10 = some ⟨.error (.timeout "key" 5), 4, [2, 2, 1]⟩ ∧
      ∃ interval, Reaches p "key" outcome exactClock interval [1, 2, 2] ∧
        exactClock [1, 2, 2] = p.timeout := by
  intro p outcome
  have hrun : run p "key" outcome exactClock 10 =
      some ⟨.error (.timeout "key" 5), 4, [2, 2, 1]⟩ := by
    have hnext : p.nextInterval 2 = 2 := PollPolicy.nextInterval_fixed 2 5
    rw [run_of_isFinite rfl]
    simp [proceed, react, outcome, exactClock, hnext, show p.interval = 2 from rfl,
      show p.timeout = 5 from rfl]
  obtain ⟨-, -, -, hends⟩ := (result_of_checks p "key" outcome exactClock).2 rfl
  obtain ⟨interval, slept, hreaches, -, hdelays, -, -, -, -, hexact⟩ := hends 10 _ hrun
  obtain rfl : slept = [1, 2, 2] := List.reverse_inj.mp hdelays.symm
  exact ⟨rfl, hrun, interval, hreaches, hexact rfl rfl⟩

end KeyCustody.Poll
