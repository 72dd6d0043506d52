/-
# Activation times

`rtf_task_start` and `rtf_task_wait_period` of `retif_lib.c`: the next
activation and the absolute deadline a periodic task keeps for itself. Periods
and deadlines are declared in microseconds; `time_add_ms` adds their low 32
bits as milliseconds, and moves the deadline on by a deadline in each period.
So an activation is on time for no period but 0.

In the library `EXP3`, `EXP6` and `EXP9` are of type `double`; the arithmetic
with them is exact here, and stored in an integer cut off.

Key definitions: `Timespec`, `timeAddMs`, `rtfTaskStart`, `rtfTaskWaitPeriod`,
`OnTime`.
Key theorems: `timeAddMs_nanos`, `running_nanos`, `on_time_iff`, `not_on_time`.
-/
import Retif.Task

namespace Retif

/-! ### Instants -/

/-- `struct timespec`. -/
structure Timespec where
  tvSec : ℤ
  tvNsec : ℤ
  deriving DecidableEq

/-- The instant in nanoseconds. -/
def Timespec.nanos (t : Timespec) : ℤ := t.tvSec * 10 ^ 9 + t.tvNsec

/-- The normalised `timespec` of an instant. -/
def Timespec.ofNanos (n : ℤ) : Timespec := ⟨n / 10 ^ 9, n % 10 ^ 9⟩

/-- What `clock_gettime` gives for `CLOCK_MONOTONIC`: normalised and not negative. -/
structure Clock extends Timespec where
  nonneg : 0 ≤ tvSec
  normal : 0 ≤ tvNsec ∧ tvNsec < 10 ^ 9

theorem Timespec.nanos_ofNanos (n : ℤ) : (Timespec.ofNanos n).nanos = n := by
  show n / 10 ^ 9 * 10 ^ 9 + n % 10 ^ 9 = n
  omega

theorem Timespec.ofNanos_nanos {t : Timespec} (h : 0 ≤ t.tvNsec ∧ t.tvNsec < 10 ^ 9) :
    Timespec.ofNanos t.nanos = t := by
  obtain ⟨s, ns⟩ := t
  show (⟨(s * 10 ^ 9 + ns) / 10 ^ 9, (s * 10 ^ 9 + ns) % 10 ^ 9⟩ : Timespec) = ⟨s, ns⟩
  dsimp only at h
  congr 1 <;> omega

/-! ### The functions of the library -/

/-- `time_add_ms`. -/
def timeAddMs (t : Timespec) (ms : UInt32) : Timespec :=
  let tvSec := trunc ((t.tvSec : ℚ) + (ms.toNat : ℚ) / 1000)
  let tvNsec := trunc ((t.tvNsec : ℚ) + ((ms % 1000).toNat : ℚ) * 1000000)
  if tvNsec > 1000000000 then ⟨tvSec + 1, trunc ((tvNsec : ℚ) - 1000000000)⟩ else ⟨tvSec, tvNsec⟩

/-- The part of the library's `struct rtf_task` that keeps the time: `p`, `at` and `dl`. -/
structure Periodic where
  p : Params
  act : Timespec
  dl : Timespec

/-- `rtf_task_start`; `time` is what the clock shows. The sums are made in
place, with a period and a deadline narrowed to `uint32_t`. -/
def rtfTaskStart (t : Periodic) (time : Clock) : Periodic :=
  { t with act := timeAddMs time.toTimespec t.p.period.toUInt32
           dl := timeAddMs time.toTimespec t.p.deadline.toUInt32 }

/-- `rtf_task_wait_period`, but for the sleep. -/
def rtfTaskWaitPeriod (t : Periodic) : Periodic :=
  { t with act := timeAddMs t.act t.p.period.toUInt32
           dl := timeAddMs t.dl t.p.deadline.toUInt32 }

/-- `t` after the start at `time` and `k` periods. -/
def running (t : Periodic) (time : Clock) (k : ℕ) : Periodic := rtfTaskWaitPeriod^[k] (rtfTaskStart t time)

/-- **What the functions are for**: after the start at `time` and `k` periods the
next activation is `k + 1` periods away from the start, and the deadline is that
of the activation before it. -/
structure OnTime (t : Periodic) (time : Clock) (k : ℕ) : Prop where
  act : (running t time k).act =
    Timespec.ofNanos (time.nanos + (k + 1) * (t.p.period.toNat : ℤ) * 1000)
  dl : (running t time k).dl =
    Timespec.ofNanos (time.nanos + (k * (t.p.period.toNat : ℤ) + t.p.deadline.toNat) * 1000)

/-! ### What is added -/

theorem trunc_natCast_div (s : ℤ) (hs : 0 ≤ s) (n : ℕ) : trunc ((s : ℚ) + (n : ℚ) / 1000) = s + (n / 1000 : ℕ) := by
  have hq : (0 : ℚ) ≤ (s : ℚ) + (n : ℚ) / 1000 := by positivity
  rw [trunc_of_nonneg hq, Int.floor_intCast_add]
  have hfloor := Rat.floor_intCast_div_natCast (n : ℤ) 1000
  push_cast at hfloor ⊢
  rw [hfloor]

theorem trunc_intCast (n : ℤ) : trunc (n : ℚ) = n := by simp [trunc]

/-- The sums of `time_add_ms` are whole numbers, so nothing is cut off. -/
theorem timeAddMs_eq {t : Timespec} (h : 0 ≤ t.tvSec) (ms : UInt32) :
    timeAddMs t ms =
      if t.tvNsec + (ms.toNat % 1000 : ℕ) * 1000000 > 1000000000 then
        ⟨t.tvSec + (ms.toNat / 1000 : ℕ) + 1, t.tvNsec + (ms.toNat % 1000 : ℕ) * 1000000 - 1000000000⟩
      else ⟨t.tvSec + (ms.toNat / 1000 : ℕ), t.tvNsec + (ms.toNat % 1000 : ℕ) * 1000000⟩ := by
  have hsec := trunc_natCast_div t.tvSec h ms.toNat
  have hmod : (ms % 1000).toNat = ms.toNat % 1000 := by simp
  have hnsec : trunc ((t.tvNsec : ℚ) + ((ms % 1000).toNat : ℚ) * 1000000) =
      t.tvNsec + (ms.toNat % 1000 : ℕ) * 1000000 := by
    rw [hmod]
    have := trunc_intCast (t.tvNsec + (ms.toNat % 1000 : ℕ) * 1000000)
    push_cast at this ⊢
    exact this
  have hcut : ∀ n : ℤ, trunc ((n : ℚ) - 1000000000) = n - 1000000000 := by
    intro n
    have := trunc_intCast (n - 1000000000)
    push_cast at this
    exact this
  unfold timeAddMs
  rw [hsec, hnsec]
  dsimp only
  rw [hcut]

/-- **`time_add_ms` adds milliseconds**, whether or not it carries a second. -/
theorem timeAddMs_nanos {t : Timespec} (h : 0 ≤ t.tvSec) (ms : UInt32) :
    (timeAddMs t ms).nanos = t.nanos + ms.toNat * 1000000 ∧ 0 ≤ (timeAddMs t ms).tvSec := by
  rw [timeAddMs_eq h]
  unfold Timespec.nanos
  split
  · dsimp only
    omega
  · dsimp only
    omega

/-- Nothing is added to what is normalised already. -/
theorem timeAddMs_zero {t : Timespec} (h : 0 ≤ t.tvSec) (hn : t.tvNsec < 10 ^ 9) : timeAddMs t 0 = t := by
  rw [timeAddMs_eq h, if_neg]
  · simp
  · simp
    omega

/-! ### Runs of periods -/

section Runs

variable {t : Periodic} {time : Clock}

theorem running_succ (t : Periodic) (time : Clock) (k : ℕ) :
    running t time (k + 1) = rtfTaskWaitPeriod (running t time k) := Function.iterate_succ_apply' ..

theorem running_p (t : Periodic) (time : Clock) (k : ℕ) : (running t time k).p = t.p := by
  induction k with
  | zero => rfl
  | succ k ih =>
    rw [running_succ]
    exact ih

/-- **After `k` periods** as many milliseconds have been added to both clocks as
the low halves of period and deadline say, `k + 1` times. -/
theorem running_nanos (t : Periodic) (time : Clock) (k : ℕ) :
    ((running t time k).act.nanos = time.nanos + (k + 1) * (t.p.period.toUInt32.toNat : ℤ) * 1000000 ∧
        0 ≤ (running t time k).act.tvSec) ∧
      ((running t time k).dl.nanos = time.nanos + (k + 1) * (t.p.deadline.toUInt32.toNat : ℤ) * 1000000 ∧
        0 ≤ (running t time k).dl.tvSec) := by
  induction k with
  | zero =>
    obtain ⟨h1, h2⟩ := timeAddMs_nanos time.nonneg t.p.period.toUInt32
    obtain ⟨h3, h4⟩ := timeAddMs_nanos time.nonneg t.p.deadline.toUInt32
    refine ⟨⟨?_, h2⟩, ?_, h4⟩
    · show (timeAddMs time.toTimespec t.p.period.toUInt32).nanos = _
      rw [h1]
      push_cast
      ring
    · show (timeAddMs time.toTimespec t.p.deadline.toUInt32).nanos = _
      rw [h3]
      push_cast
      ring
  | succ k ih =>
    obtain ⟨⟨hact, hact0⟩, hdl, hdl0⟩ := ih
    rw [running_succ]
    unfold rtfTaskWaitPeriod
    rw [running_p]
    obtain ⟨h1, h2⟩ := timeAddMs_nanos hact0 t.p.period.toUInt32
    obtain ⟨h3, h4⟩ := timeAddMs_nanos hdl0 t.p.deadline.toUInt32
    refine ⟨⟨?_, h2⟩, ?_, h4⟩
    · rw [h1, hact]
      push_cast
      ring
    · rw [h3, hdl]
      push_cast
      ring

/-- Without period and deadline both clocks stay at the start. -/
theorem running_zero (hp : t.p.period = 0) (hd : t.p.deadline = 0) (k : ℕ) :
    (running t time k).act = time.toTimespec ∧ (running t time k).dl = time.toTimespec := by
  have hstay : timeAddMs time.toTimespec 0 = time.toTimespec := timeAddMs_zero time.nonneg time.normal.2
  induction k with
  | zero =>
    show timeAddMs time.toTimespec t.p.period.toUInt32 = _ ∧ timeAddMs time.toTimespec t.p.deadline.toUInt32 = _
    rw [hp, hd]
    exact ⟨hstay, hstay⟩
  | succ k ih =>
    rw [running_succ]
    unfold rtfTaskWaitPeriod
    rw [running_p, hp, hd, ih.1, ih.2]
    exact ⟨hstay, hstay⟩

/-- Only 0 is a multiple, by a multiple of 1000, of its own low half. -/
theorem eq_zero_of_scaled {x m : ℕ} (h : x = 1000 * (m + 1) * (x % 2 ^ 32)) : x = 0 := by
  -- what is above the low half is an odd multiple of the low half
  have hrest : 2 ^ 32 * (x / 2 ^ 32) = (1000 * (m + 1) - 1) * (x % 2 ^ 32) := by
    have hsplit := Nat.div_add_mod x (2 ^ 32)
    rw [Nat.sub_mul, one_mul]
    omega
  have hodd : Nat.Coprime (2 ^ 32) (1000 * (m + 1) - 1) := by
    refine Nat.Coprime.pow_left 32 ?_
    rw [Nat.coprime_two_left, Nat.odd_iff]
    omega
  have hdvd : 2 ^ 32 ∣ x % 2 ^ 32 := hodd.dvd_of_dvd_mul_left ⟨x / 2 ^ 32, hrest.symm⟩
  have hlow : x % 2 ^ 32 = 0 := Nat.eq_zero_of_dvd_of_lt hdvd (Nat.mod_lt _ (by norm_num))
  rw [h, hlow, mul_zero]

/-- **Activations and deadlines are on time** only where both are 0. -/
theorem on_time_iff (t : Periodic) (time : Clock) (k : ℕ) :
    OnTime t time k ↔ t.p.period = 0 ∧ t.p.deadline = 0 := by
  constructor
  · rintro ⟨hact, hdl⟩
    obtain ⟨⟨hact', -⟩, hdl', -⟩ := running_nanos t time k
    rw [hact, Timespec.nanos_ofNanos, UInt64.toNat_toUInt32] at hact'
    rw [hdl, Timespec.nanos_ofNanos, UInt64.toNat_toUInt32] at hdl'
    have hperiod : t.p.period.toNat = 0 := by
      have hk : ((k : ℤ) + 1) * ((t.p.period.toNat : ℤ) * 1000) =
          (k + 1) * (((t.p.period.toNat % 2 ^ 32 : ℕ) : ℤ) * 1000000) := by linarith
      have hone := mul_left_cancel₀ (by omega) hk
      apply @eq_zero_of_scaled _ 0
      omega
    have hdeadline : t.p.deadline.toNat = 0 := by
      rw [hperiod] at hdl'
      apply @eq_zero_of_scaled _ k
      have hscaled : (t.p.deadline.toNat : ℤ) = 1000 * (k + 1) * (t.p.deadline.toNat % 2 ^ 32 : ℕ) := by
        push_cast at hdl' ⊢
        linarith
      exact_mod_cast hscaled
    exact ⟨UInt64.toNat_inj.mp hperiod, UInt64.toNat_inj.mp hdeadline⟩
  · rintro ⟨hp, hd⟩
    obtain ⟨hact, hdl⟩ := @running_zero t time hp hd k
    have hsame := Timespec.ofNanos_nanos time.normal
    refine ⟨?_, ?_⟩
    · rw [hact, hp]
      simpa using hsame.symm
    · rw [hdl, hp, hd]
      simpa using hsame.symm

end Runs

/-- A period of 10 ms, started at 0: the first activation is due after 10 s. -/
theorem not_on_time : ¬ ∀ (t : Periodic) (time : Clock) (k : ℕ), OnTime t time k := by
  intro h
  have hact := (h ⟨{ Params.zero with period := 10000, deadline := 10000 }, ⟨0, 0⟩, ⟨0, 0⟩⟩
    ⟨⟨0, 0⟩, by norm_num, by norm_num⟩ 0).act
  exact absurd hact (by decide +kernel)

end Retif
