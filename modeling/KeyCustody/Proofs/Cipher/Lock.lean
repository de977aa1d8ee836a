import KeyCustody.Cipher.KeyWrap
import KeyCustody.Proofs.Cipher.Aes

/-!
# The six passes are a permutation

A pass runs a check value over a list of semiblocks, and the pass in the other direction undoes
it. A pass keeps the semiblocks that it has finished beside those still to come, so that either
direction can be stopped anywhere: running the rest of one pass and then the whole other pass is
the same as turning back at once. Both directions of that statement are inductions on the
semiblocks still to come. With none finished it says that the passes are inverse.

## Main results

* `KeyWrap.unlockPass_lockPass`, `KeyWrap.lockPass_unlockPass` — one pass is undone
* `KeyWrap.unlock_lock`, `KeyWrap.lock_unlock` — so are all six, and so is the single block of
  short material
* `KeyWrap.length_lock` — the number of semiblocks stays
-/

namespace KeyCustody.KeyWrap

open Aes

variable {keys : List Block}

/-! ## One step -/

@[simp] theorem leading_pair (x y : Semiblock) : leading (x.pair y) = x := rfl

@[simp] theorem trailing_pair (x y : Semiblock) : trailing (x.pair y) = y := rfl

@[simp] theorem pair_leading_trailing (s : Block) : (leading s).pair (trailing s) = s := rfl

@[simp] theorem Semiblock.mixStep_mixStep (x : Semiblock) (step : Nat) :
    (x.mixStep step).mixStep step = x := by
  simp [mixStep]

/-! ## One pass -/

section Pass

variable (check : Semiblock) (step : Nat) (done rs : List Semiblock)

theorem length_lockPass :
    (lockPass keys check step done rs).2.length = done.length + rs.length := by
  induction rs generalizing check step done with
  | nil => simp [lockPass]
  | cons r rs ih =>
    rw [lockPass, ih]
    simp only [List.length_cons]
    omega

theorem length_unlockPass :
    (unlockPass keys check step done rs).2.length = done.length + rs.length := by
  induction rs generalizing check step done with
  | nil => simp [unlockPass]
  | cons r rs ih =>
    rw [unlockPass, ih]
    simp only [List.length_cons]
    omega

/-- Finishing a pass and running the other one from its end is turning back at once. -/
theorem unlockPass_of_lockPass :
    unlockPass keys (lockPass keys check step done rs).1 (step + rs.length - 1) []
      (lockPass keys check step done rs).2.reverse =
    unlockPass keys check (step - 1) rs done := by
  induction rs generalizing check step done with
  | nil => simp [lockPass]
  | cons r rs ih =>
    -- The rest of the pass starts one step later, with one more semiblock finished.
    have hsteps : step + (rs.length + 1) - 1 = step + 1 + rs.length - 1 := by omega
    rw [lockPass, List.length_cons, hsteps, ih, unlockPass]
    simp [decrypt_encrypt]

theorem lockPass_of_unlockPass (h : rs.length ≤ step) :
    lockPass keys (unlockPass keys check step done rs).1 (step + 1 - rs.length) []
      (unlockPass keys check step done rs).2 =
    lockPass keys check (step + 1) rs done := by
  induction rs generalizing check step done with
  | nil => simp [unlockPass]
  | cons r rs ih =>
    rw [List.length_cons] at h
    -- The counter goes down here, so there must be as many steps as semiblocks to come.
    have hsteps : step + 1 - (rs.length + 1) = step - 1 + 1 - rs.length := by omega
    have hstep : step - 1 + 1 = step := by omega
    rw [unlockPass, List.length_cons, hsteps, ih _ _ _ (by omega), hstep, lockPass]
    simp [encrypt_decrypt]

end Pass

theorem unlockPass_lockPass (check : Semiblock) (step : Nat) (rs : List Semiblock) :
    unlockPass keys (lockPass keys check step [] rs).1 (step + rs.length - 1) []
      (lockPass keys check step [] rs).2.reverse = (check, rs) := by
  rw [unlockPass_of_lockPass, unlockPass]

theorem lockPass_unlockPass (check : Semiblock) {step : Nat} (hstep : 1 ≤ step)
    (rs : List Semiblock) :
    lockPass keys (unlockPass keys check (step + rs.length - 1) [] rs.reverse).1 step []
      (unlockPass keys check (step + rs.length - 1) [] rs.reverse).2 = (check, rs) := by
  have hback := @lockPass_of_unlockPass keys check (step + rs.length - 1) [] rs.reverse
    (by rw [List.length_reverse]; omega)
  have hfirst : step + rs.length - 1 + 1 - rs.reverse.length = step := by
    rw [List.length_reverse]
    omega
  rw [hfirst, lockPass, List.reverse_reverse] at hback
  exact hback

/-! ## Several passes -/

theorem lockPasses_succ (n step : Nat) (x : Locked) : lockPasses keys (n + 1) step x =
    lockPasses keys n (step + x.2.length) (lockPass keys x.1 step [] x.2) := rfl

theorem unlockPasses_succ (n step : Nat) (x : Locked) : unlockPasses keys (n + 1) step x =
    unlockPass keys (unlockPasses keys n (step + x.2.length) x).1
      (step + (unlockPasses keys n (step + x.2.length) x).2.length - 1) []
      (unlockPasses keys n (step + x.2.length) x).2.reverse := rfl

theorem length_lockPasses (n step : Nat) (x : Locked) :
    (lockPasses keys n step x).2.length = x.2.length := by
  induction n generalizing step x with
  | zero => rfl
  | succ n ih => rw [lockPasses_succ, ih, length_lockPass, List.length_nil, Nat.zero_add]

theorem length_unlockPasses (n step : Nat) (x : Locked) :
    (unlockPasses keys n step x).2.length = x.2.length := by
  induction n generalizing step with
  | zero => rfl
  | succ n ih =>
    rw [unlockPasses_succ, length_unlockPass, List.length_nil, List.length_reverse, ih,
      Nat.zero_add]

theorem unlockPasses_lockPasses (n step : Nat) (x : Locked) :
    unlockPasses keys n step (lockPasses keys n step x) = x := by
  induction n generalizing step x with
  | zero => rfl
  | succ n ih =>
    -- The step at which a pass began is found again from the number of semiblocks, which stays.
    have hpass : (lockPass keys x.1 step [] x.2).2.length = x.2.length := by
      rw [length_lockPass, List.length_nil, Nat.zero_add]
    have hlater : (lockPasses keys n (step + x.2.length)
        (lockPass keys x.1 step [] x.2)).2.length = x.2.length := by
      rw [length_lockPasses, hpass]
    rw [lockPasses_succ, unlockPasses_succ, hlater, ih, hpass, unlockPass_lockPass]

theorem lockPasses_unlockPasses (n : Nat) {step : Nat} (hstep : 1 ≤ step) (x : Locked) :
    lockPasses keys n step (unlockPasses keys n step x) = x := by
  induction n generalizing step x with
  | zero => rfl
  | succ n ih =>
    have hlength : (unlockPasses keys (n + 1) step x).2.length = x.2.length :=
      length_unlockPasses (n + 1) step x
    rw [lockPasses_succ, hlength, unlockPasses_succ, lockPass_unlockPass _ hstep]
    exact ih (by omega) x

/-! ## The whole transformation -/

theorem lock_singleton (check r : Semiblock) : lock keys (check, [r]) =
    (leading (encrypt keys (check.pair r)), [trailing (encrypt keys (check.pair r))]) := rfl

theorem unlock_singleton (check r : Semiblock) : unlock keys (check, [r]) =
    (leading (decrypt keys (check.pair r)), [trailing (decrypt keys (check.pair r))]) := rfl

theorem lock_of_length_ne_one {x : Locked} (h : x.2.length ≠ 1) :
    lock keys x = lockPasses keys 6 1 x := by
  obtain ⟨check, rs⟩ := x
  match rs with
  | [] | _ :: _ :: _ => rfl
  | [_] => exact absurd rfl h

theorem unlock_of_length_ne_one {x : Locked} (h : x.2.length ≠ 1) :
    unlock keys x = unlockPasses keys 6 1 x := by
  obtain ⟨check, rs⟩ := x
  match rs with
  | [] | _ :: _ :: _ => rfl
  | [_] => exact absurd rfl h

/-- The transformation keeps the number of semiblocks, so unlocking takes the same branch. -/
theorem length_lock (x : Locked) : (lock keys x).2.length = x.2.length := by
  by_cases h : x.2.length = 1
  · obtain ⟨check, rs⟩ := x
    obtain ⟨r, rfl⟩ := List.length_eq_one_iff.mp h
    rfl
  · rw [lock_of_length_ne_one h, length_lockPasses]

theorem length_unlock (x : Locked) : (unlock keys x).2.length = x.2.length := by
  by_cases h : x.2.length = 1
  · obtain ⟨check, rs⟩ := x
    obtain ⟨r, rfl⟩ := List.length_eq_one_iff.mp h
    rfl
  · rw [unlock_of_length_ne_one h, length_unlockPasses]

theorem unlock_lock (x : Locked) : unlock keys (lock keys x) = x := by
  by_cases h : x.2.length = 1
  · obtain ⟨check, rs⟩ := x
    obtain ⟨r, rfl⟩ := List.length_eq_one_iff.mp h
    rw [lock_singleton, unlock_singleton, pair_leading_trailing, decrypt_encrypt]
    rfl
  · have hlocked : (lock keys x).2.length ≠ 1 := by rwa [length_lock]
    rw [unlock_of_length_ne_one hlocked, lock_of_length_ne_one h, unlockPasses_lockPasses]

theorem lock_unlock (x : Locked) : lock keys (unlock keys x) = x := by
  by_cases h : x.2.length = 1
  · obtain ⟨check, rs⟩ := x
    obtain ⟨r, rfl⟩ := List.length_eq_one_iff.mp h
    rw [unlock_singleton, lock_singleton, pair_leading_trailing, encrypt_decrypt]
    rfl
  · have hunlocked : (unlock keys x).2.length ≠ 1 := by rwa [length_unlock]
    rw [lock_of_length_ne_one hunlocked, unlock_of_length_ne_one h,
      lockPasses_unlockPasses 6 le_rfl]

end KeyCustody.KeyWrap
