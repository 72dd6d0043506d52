/-
# Adding to an instant

`time_add_us` and `time_add_ms` of the daemon, the library's `time_add_ms`, and
`time_cmp`. The daemon's add exactly, over any sequence of amounts, but the
second is carried only when there is more than one of it: the nanoseconds are
left at 10 ^ 9 where they come to just that. So the result is normalised just
when it is not a whole number of seconds, or nothing but whole seconds was
added to one. In the library `EXP3`, `EXP6` and `EXP9` are of type `double`: the
nanoseconds are the same there, but the seconds are cut off towards zero, and
from `2 ^ 43` on the double itself may reach the next second (`SecondsKept`).

Key definitions: `Utils.timeAddUs`, `Utils.timeAddMs`, `Utils.timeCmp`,
`Doubles.timeAddMs`, `Amount`, `Timespec.adds`, `Right`, `Carried`, `SecondsKept`.
Key theorems: `Amount.add_spec`, `adds_spec`, `seconds_spec`,
`Doubles.timeAddMs_spec`, `Doubles.adds_spec`, `added_iff`, `timeAddMs_doubles`.
-/
import Retif.Activation
import Retif.Lib.Binary64

namespace Retif

open Binary64 (round_digits round_near round_intCast round_below round_next)

/-! ### The functions -/

/-- What a `long` (or a `time_t`) holds of `x`. -/
def toLong (x : ℤ) : ℤ := Int.bmod x (2 ^ 64)

namespace Utils

/-- The end of `time_add_us` and `time_add_ms`, after the seconds and the
nanoseconds of the amount have been added. -/
def carry (t : Timespec) : Timespec :=
  if t.tvNsec > 1000000000 then ⟨toLong (t.tvSec + 1), toLong (t.tvNsec - 1000000000)⟩ else t

/-- `time_add_us`. -/
def timeAddUs (t : Timespec) (us : UInt64) : Timespec :=
  carry ⟨toLong (t.tvSec + (us / 1000000).toNat), toLong (t.tvNsec + (us % 1000000 * 1000).toNat)⟩

/-- `time_add_ms`. -/
def timeAddMs (t : Timespec) (ms : UInt32) : Timespec :=
  carry ⟨toLong (t.tvSec + (ms / 1000).toNat), toLong (t.tvNsec + (ms % 1000 * 1000000).toNat)⟩

def timeCmp (t1 t2 : Timespec) : ℤ :=
  if t1.tvSec > t2.tvSec then 1
  else if t1.tvSec < t2.tvSec then -1
  else if t1.tvNsec > t2.tvNsec then 1
  else if t1.tvNsec < t2.tvNsec then -1
  else 0

end Utils

/-- The library's `time_add_ms`: every operation with a `double` rounds, and
every assignment cuts off. The seconds are to stay in a `time_t`. -/
def Doubles.timeAddMs (t : Timespec) (ms : UInt32) : Timespec :=
  let tvSec := trunc (Binary64.round (Binary64.round t.tvSec + Binary64.round ((ms.toNat : ℚ) / 1000)))
  let tvNsec := trunc (Binary64.round (Binary64.round t.tvNsec + Binary64.round ((ms % 1000).toNat * 1000000)))
  if Binary64.round tvNsec > 1000000000 then
    ⟨tvSec + 1, trunc (Binary64.round (Binary64.round tvNsec - 1000000000))⟩
  else ⟨tvSec, tvNsec⟩

/-! ### Amounts -/

/-- What is added: microseconds or milliseconds. -/
inductive Amount where
  | us (n : UInt64)
  | ms (n : UInt32)

/-- The amount in nanoseconds. -/
def Amount.nanos : Amount → ℤ
  | .us n => n.toNat * 1000
  | .ms n => n.toNat * 1000000

def Amount.add (a : Amount) (t : Timespec) : Timespec :=
  match a with
  | .us n => Utils.timeAddUs t n
  | .ms n => Utils.timeAddMs t n

/-- The calls one after the other. -/
def Timespec.adds (t : Timespec) (amounts : List Amount) : Timespec := amounts.foldl (fun t a => a.add t) t

/-- The calls of the library's function. -/
def Doubles.adds (t : Timespec) (mss : List UInt32) : Timespec := mss.foldl Doubles.timeAddMs t

def total (amounts : List Amount) : ℤ := (amounts.map Amount.nanos).sum

/-- `0 <= tv_nsec < 10 ^ 9`, as `clock_nanosleep` wants it. -/
def Timespec.Normal (t : Timespec) : Prop := 0 ≤ t.tvNsec ∧ t.tvNsec < 10 ^ 9

/-- The seconds are a `time_t`. -/
def Timespec.Fits (t : Timespec) : Prop := -2 ^ 63 ≤ t.tvSec ∧ t.tvSec < 2 ^ 63

/-! ### One call -/

section Spec

variable {t : Timespec} {a : Amount} {amounts : List Amount}

theorem toLong_eq {x : ℤ} (hlow : -2 ^ 63 ≤ x) (hhigh : x < 2 ^ 63) : toLong x = x :=
  Int.bmod_eq_of_le (by omega) (by omega)

/-- Between calls the nanoseconds are at most 10 ^ 9, and the seconds a `time_t`. -/
structure Timespec.Kept (t : Timespec) : Prop where
  low : -2 ^ 63 ≤ t.tvSec
  nsec : 0 ≤ t.tvNsec ∧ t.tvNsec ≤ 10 ^ 9

/-- Seconds and nanoseconds are added, and a second carried if there is more. -/
theorem carry_spec (ht : t.Kept) {s n : ℕ} (hn : n < 10 ^ 9) (hfit : t.nanos + (s * 10 ^ 9 + n) < 2 ^ 63 * 10 ^ 9) :
    (Utils.carry ⟨toLong (t.tvSec + s), toLong (t.tvNsec + n)⟩).nanos = t.nanos + (s * 10 ^ 9 + n) ∧
      (Utils.carry ⟨toLong (t.tvSec + s), toLong (t.tvNsec + n)⟩).Kept ∧
        ((Utils.carry ⟨toLong (t.tvSec + s), toLong (t.tvNsec + n)⟩).tvNsec = 0 ↔ t.tvNsec = 0 ∧ n = 0) := by
  obtain ⟨hlow, hnsec0, hnsec⟩ := ht
  unfold Timespec.nanos at hfit
  rw [toLong_eq (by omega) (by omega), toLong_eq (by omega) (by omega), Utils.carry]
  dsimp only
  split_ifs with hmore
  · rw [toLong_eq (by omega) (by omega), toLong_eq (by omega) (by omega)]
    refine ⟨?_, ⟨?_, ?_, ?_⟩, ?_⟩ <;> simp only [Timespec.nanos] <;> omega
  · refine ⟨?_, ⟨?_, ?_, ?_⟩, ?_⟩ <;> simp only [Timespec.nanos] <;> omega

/-- The nanoseconds of some milliseconds do not overflow an unsigned `int`. -/
theorem nsec_of_ms (k : UInt32) : (k % 1000 * 1000000).toNat = k.toNat % 1000 * 1000000 := by
  have hlt := Nat.mod_lt k.toNat (by decide : 0 < 1000)
  exact (UInt32.toNat_mul ..).trans (Nat.mod_eq_of_lt (by simp; omega))

/-- The two parts an amount is added in. -/
theorem Amount.add_eq (a : Amount) (t : Timespec) : ∃ s n : ℕ, n < 10 ^ 9 ∧ a.nanos = s * 10 ^ 9 + n ∧
    a.add t = Utils.carry ⟨toLong (t.tvSec + s), toLong (t.tvNsec + n)⟩ := by
  cases a with
  | us k =>
    have hnsec : (k % 1000000 * 1000).toNat = k.toNat % 1000000 * 1000 := by
      have hlt := Nat.mod_lt k.toNat (by decide : 0 < 1000000)
      exact (UInt64.toNat_mul ..).trans (Nat.mod_eq_of_lt (by simp; omega))
    refine ⟨(k / 1000000).toNat, (k % 1000000 * 1000).toNat, ?_, ?_, rfl⟩
    · omega
    · have hsec : (k / 1000000).toNat = k.toNat / 1000000 := UInt64.toNat_div ..
      rw [hsec, hnsec, Amount.nanos]
      omega
  | ms k =>
    have hnsec := nsec_of_ms k
    refine ⟨(k / 1000).toNat, (k % 1000 * 1000000).toNat, ?_, ?_, rfl⟩
    · omega
    · have hsec : (k / 1000).toNat = k.toNat / 1000 := UInt32.toNat_div ..
      rw [hsec, hnsec, Amount.nanos]
      omega

theorem Amount.nanos_nonneg (a : Amount) : 0 ≤ a.nanos := by
  cases a <;> simp only [Amount.nanos] <;> omega

/-- **One call** adds its amount. The nanoseconds are 0 afterwards only if they
were and the amount is whole seconds. -/
theorem Amount.add_spec (ht : t.Kept) (hfit : t.nanos + a.nanos < 2 ^ 63 * 10 ^ 9) :
    (a.add t).nanos = t.nanos + a.nanos ∧ (a.add t).Kept ∧
      ((a.add t).tvNsec = 0 ↔ t.tvNsec = 0 ∧ (10 ^ 9 : ℤ) ∣ a.nanos) := by
  obtain ⟨s, n, hn, hparts, hadd⟩ := a.add_eq t
  rw [hparts] at hfit
  obtain ⟨hnanos, hkept, hzero⟩ := carry_spec ht hn hfit
  have hwhole : (10 ^ 9 : ℤ) ∣ a.nanos ↔ n = 0 := by
    rw [hparts]
    omega
  rw [hadd, hwhole, hparts]
  exact ⟨hnanos, hkept, hzero⟩

/-! ### Any number of calls -/

@[simp] theorem total_cons : total (a :: amounts) = a.nanos + total amounts := by simp [total]

theorem total_nonneg (amounts : List Amount) : 0 ≤ total amounts := by
  apply List.sum_nonneg
  intro x hx
  obtain ⟨a, -, rfl⟩ := List.mem_map.mp hx
  exact a.nanos_nonneg

/-- **The calls add up.** -/
theorem adds_spec (ht : t.Kept) (hfit : t.nanos + total amounts < 2 ^ 63 * 10 ^ 9) :
    (t.adds amounts).nanos = t.nanos + total amounts ∧ (t.adds amounts).Kept ∧
      ((t.adds amounts).tvNsec = 0 ↔ t.tvNsec = 0 ∧ ∀ a ∈ amounts, (10 ^ 9 : ℤ) ∣ a.nanos) := by
  induction amounts generalizing t with
  | nil => exact ⟨by simp [Timespec.adds, total], ht, by simp [Timespec.adds]⟩
  | cons a amounts ih =>
    rw [total_cons] at hfit
    have hrest := total_nonneg amounts
    obtain ⟨hnanos, hkept, hzero⟩ := @Amount.add_spec t a ht (by omega)
    obtain ⟨hnanos', hkept', hzero'⟩ := @ih (a.add t) hkept (by omega)
    change (Timespec.adds (a.add t) amounts).nanos = _ ∧ (Timespec.adds (a.add t) amounts).Kept ∧
      ((Timespec.adds (a.add t) amounts).tvNsec = 0 ↔ _)
    refine ⟨by rw [hnanos', hnanos, total_cons, add_assoc], hkept', ?_⟩
    rw [hzero', hzero, List.forall_mem_cons, and_assoc]

/-- The result `u` is normalised, and `n` nanoseconds have been added to `t`. -/
def Right (t : Timespec) (n : ℤ) (u : Timespec) : Prop := u.Normal ∧ u.nanos = t.nanos + n

/-- No second is left in the nanoseconds: the sum is not a whole number of
seconds, or nothing but whole seconds is added to one. -/
def Carried (t : Timespec) (amounts : List Amount) : Prop :=
  ¬ (10 ^ 9 : ℤ) ∣ t.nanos + total amounts ∨ t.tvNsec = 0 ∧ ∀ a ∈ amounts, (10 ^ 9 : ℤ) ∣ a.nanos

theorem kept_of_normal (hn : t.Normal) (hf : t.Fits) : t.Kept := ⟨hf.1, hn.1, hn.2.le⟩

/-- The nanoseconds come out normalised just when no second is left in them. -/
theorem adds_normal_iff (ht : t.Kept) (hfit : t.nanos + total amounts < 2 ^ 63 * 10 ^ 9) :
    (t.adds amounts).Normal ↔ Carried t amounts := by
  obtain ⟨hnanos, ⟨-, h0, hle⟩, hzero⟩ := adds_spec ht hfit
  -- the nanoseconds are 0 or 10 ^ 9 just where the instant is a whole second
  have hwhole : (10 ^ 9 : ℤ) ∣ t.nanos + total amounts ↔
      (t.adds amounts).tvNsec = 0 ∨ (t.adds amounts).tvNsec = 10 ^ 9 := by
    rw [← hnanos, Timespec.nanos]
    omega
  rw [Timespec.Normal, Carried, hwhole, ← hzero]
  constructor
  · rintro ⟨-, hlt⟩
    omega
  · intro hcond
    refine ⟨h0, ?_⟩
    omega

theorem addsRight_iff (ht : t.Kept) (hfit : t.nanos + total amounts < 2 ^ 63 * 10 ^ 9) :
    Right t (total amounts) (t.adds amounts) ↔ Carried t amounts := by
  rw [← adds_normal_iff ht hfit]
  exact and_iff_left (adds_spec ht hfit).1

/-- `time_cmp` compares what is normalised. -/
theorem timeCmp_normal {t' : Timespec} (hn : t.Normal) (hn' : t'.Normal) :
    (0 < Utils.timeCmp t t' ↔ t'.nanos < t.nanos) ∧ (Utils.timeCmp t t' < 0 ↔ t.nanos < t'.nanos) := by
  obtain ⟨h0, hlt⟩ := hn
  obtain ⟨h0', hlt'⟩ := hn'
  unfold Utils.timeCmp Timespec.nanos
  split_ifs <;> omega

/-! ### The seconds of the library -/

/-- The seconds `s` come out right with `ms` added: there is no part of a second
in `ms`, or the sum is not cut off upwards below 0 and its double is still below
the next second. -/
def SecondsKept (s : ℤ) (ms : UInt32) : Prop :=
  ms.toNat % 1000 = 0 ∨
    0 ≤ s + (ms.toNat / 1000 : ℕ) ∧
      1000 * 2 ^ Nat.log2 (s + (ms.toNat / 1000 : ℕ)).toNat < (1000 - ms.toNat % 1000) * 2 ^ 53

instance (s : ℤ) (ms : UInt32) : Decidable (SecondsKept s ms) := by
  unfold SecondsKept; infer_instance

/-- Below `2 ^ 43` seconds a double keeps the milliseconds. -/
theorem secondsKept_of_small {s : ℤ} {ms : UInt32} (h0 : 0 ≤ s + (ms.toNat / 1000 : ℕ))
    (h : s + (ms.toNat / 1000 : ℕ) < 2 ^ 43) : SecondsKept s ms := by
  right
  refine ⟨h0, ?_⟩
  have hlog : Nat.log2 (s + (ms.toNat / 1000 : ℕ)).toNat ≤ 42 := by
    generalize hN : (s + (ms.toNat / 1000 : ℕ)).toNat = N
    rcases Nat.eq_zero_or_pos N with rfl | hpos
    · decide
    · exact Nat.lt_succ_iff.mp ((Nat.log2_lt hpos.ne').mpr (by omega))
  have hr : 1 ≤ 1000 - ms.toNat % 1000 := by omega
  calc 1000 * 2 ^ Nat.log2 (s + (ms.toNat / 1000 : ℕ)).toNat
      ≤ 1000 * 2 ^ 42 := Nat.mul_le_mul_left _ (Nat.pow_le_pow_right (by decide) hlog)
    _ < 1 * 2 ^ 53 := by decide
    _ ≤ (1000 - ms.toNat % 1000) * 2 ^ 53 := Nat.mul_le_mul_right _ hr

theorem trunc_of_neg {q : ℚ} (h : q ≤ 0) : trunc q = ⌈q⌉ := by
  have hneg := trunc_of_nonneg (neg_nonneg.mpr h)
  have hflip : trunc (-q) = -trunc q := by
    unfold trunc
    rw [Rat.neg_num, Rat.neg_den, Int.neg_tdiv]
  rw [hflip, Int.floor_neg] at hneg
  omega

theorem trunc_between {q : ℚ} {n : ℤ} (hlow : (n : ℚ) < q) (hhigh : q < n + 1) :
    trunc q = if 0 ≤ n then n else n + 1 := by
  split
  · rename_i hn
    have hq : 0 ≤ q := le_trans (by exact_mod_cast hn) hlow.le
    rw [trunc_of_nonneg hq]
    exact Int.floor_eq_iff.mpr ⟨hlow.le, hhigh⟩
  · rename_i hn
    have hle : (n : ℚ) + 1 ≤ 0 := by exact_mod_cast not_le.mp hn
    rw [trunc_of_neg (hhigh.le.trans hle)]
    apply Int.ceil_eq_iff.mpr
    push_cast
    constructor <;> linarith

/-- The part of a second that the double next to `n / 1000` has. -/
theorem fraction_spec {n : ℕ} (hn : n < 2 ^ 32) : ∃ f : ℚ, Binary64.round (n / 1000) = (n / 1000 : ℕ) + f ∧
    |f - (n % 1000 : ℕ) / 1000| ≤ 1 / 2 ^ 30 ∧ (125 ∣ n % 1000 → f = (n % 1000 : ℕ) / 1000) := by
  have hparts : (n : ℚ) / 1000 = (n / 1000 : ℕ) + (n % 1000 : ℕ) / 1000 := by
    have hdiv : ((1000 * (n / 1000) + n % 1000 : ℕ) : ℚ) = n := congrArg Nat.cast (Nat.div_add_mod n 1000)
    push_cast at hdiv ⊢
    linarith
  refine ⟨Binary64.round (n / 1000) - (n / 1000 : ℕ), by ring, ?_, ?_⟩
  · have hsmall : |(n : ℚ) / 1000| ≤ 2 ^ 23 := by
      have hle : (n : ℚ) ≤ 2 ^ 32 := by exact_mod_cast hn.le
      rw [abs_of_nonneg (by positivity)]
      linarith
    have hsub : Binary64.round (n / 1000) - (n / 1000 : ℕ) - (n % 1000 : ℕ) / 1000 =
        Binary64.round (n / 1000) - (n : ℚ) / 1000 := by
      rw [hparts]
      ring
    rw [hsub]
    calc |Binary64.round (n / 1000) - (n : ℚ) / 1000| ≤ |(n : ℚ) / 1000| / 2 ^ 53 := round_near _
      _ ≤ 2 ^ 23 / 2 ^ 53 := div_le_div_of_nonneg_right hsmall (by positivity)
      _ = 1 / 2 ^ 30 := by norm_num
  · rintro ⟨m, hm⟩
    have heighths : (n : ℚ) / 1000 = (n / 1000 * 8 + m : ℕ) * 2 ^ (-3 : ℤ) := by
      rw [hparts, hm]
      push_cast
      norm_num
      ring
    rw [heighths, round_digits (by omega), ← heighths, hparts]
    ring

/-- Whether a double reaches the next second is decided by the milliseconds. -/
theorem reaches_iff {r e : ℕ} {f : ℚ} (he : 43 ≤ e) (he' : e < 52)
    (hnear : |f - r / 1000| ≤ 1 / 2 ^ 30) (hexact : 125 ∣ r → f = r / 1000) :
    f + 1 / 2 ^ (53 - e) < 1 ↔ 1000 * 2 ^ e < (1000 - r) * 2 ^ 53 := by
  obtain ⟨hlow, hhigh⟩ := abs_le.mp hnear
  have hsplit : 2 ^ 53 = 2 ^ (53 - e) * 2 ^ e := by rw [← pow_add, Nat.sub_add_cancel (by omega)]
  have htie : r * 2 ^ (53 - e) + 1000 = 1000 * 2 ^ (53 - e) → 125 ∣ r := by
    intro h
    have hcop : Nat.Coprime 125 (2 ^ (53 - e)) := Nat.Coprime.pow_right _ (by decide)
    apply hcop.dvd_of_dvd_mul_right
    omega
  have hD : 2 ^ (53 - e) ≤ 1024 := Nat.pow_le_pow_right (by decide) (by omega : 53 - e ≤ 10)
  have hpos : 0 < 2 ^ (53 - e) := Nat.two_pow_pos _
  rw [hsplit, ← mul_assoc, Nat.mul_lt_mul_right (Nat.two_pow_pos e), Nat.sub_mul]
  have hcast : ((2 ^ (53 - e) : ℕ) : ℚ) = 2 ^ (53 - e) := by push_cast; rfl
  rw [← hcast]
  generalize 2 ^ (53 - e) = D at *
  have hDpos : (0 : ℚ) < D := Nat.cast_pos.mpr hpos
  have hDle : (D : ℚ) ≤ 1024 := by exact_mod_cast hD
  have hscale : f + 1 / D < 1 ↔ f * D + 1 < D := by
    have hone : (f + 1 / D) * D = f * D + 1 := by
      rw [add_mul, div_mul_cancel₀ _ hDpos.ne']
    rw [← mul_lt_mul_iff_left₀ hDpos, hone, one_mul]
  have hup : f * D ≤ (r * D : ℕ) / 1000 + 1 / 2 ^ 20 := by
    push_cast
    nlinarith
  have hdown : (r * D : ℕ) / 1000 - 1 / 2 ^ 20 ≤ f * D := by
    push_cast
    nlinarith
  rw [hscale]
  rcases lt_trichotomy (r * D + 1000) (1000 * D) with hlt | heq | hgt
  · have hle : ((r * D : ℕ) : ℚ) + 1001 ≤ 1000 * D := by exact_mod_cast hlt
    refine iff_of_true ?_ (by omega)
    linarith
  · have hf := hexact (htie heq)
    have hsum : (r : ℚ) * D + 1000 = 1000 * D := by exact_mod_cast heq
    refine iff_of_false ?_ (by omega)
    rw [hf]
    linarith
  · have hle : (1000 : ℚ) * D + 1 ≤ (r * D : ℕ) + 1000 := by exact_mod_cast hgt
    refine iff_of_false ?_ (by omega)
    linarith

/-- Up to `2 ^ 43` a fraction in milliseconds keeps away from whole seconds. -/
theorem round_between {N : ℤ} {f : ℚ} (hlow : -2 ^ 43 ≤ N) (hhigh : N < 2 ^ 43) (hf : 1 / 1000 - 1 / 2 ^ 30 ≤ f)
    (hf' : f ≤ 999 / 1000 + 1 / 2 ^ 30) : (N : ℚ) < Binary64.round (N + f) ∧ Binary64.round (N + f) < N + 1 := by
  have hlow' : (-2 ^ 43 : ℚ) ≤ N := by exact_mod_cast hlow
  have hhigh' : (N : ℚ) + 1 ≤ 2 ^ 43 := by exact_mod_cast hhigh
  have hsize : |(N : ℚ) + f| ≤ 2 ^ 43 := by
    rw [abs_le]
    constructor <;> linarith
  have hnear : |Binary64.round (N + f) - (N + f)| ≤ 2 ^ 43 / 2 ^ 53 :=
    (round_near _).trans (div_le_div_of_nonneg_right hsize (by positivity))
  obtain ⟨hdown, hup⟩ := abs_le.mp hnear
  norm_num at hdown hup
  constructor <;> linarith

/-- Up to `2 ^ 43` only the cut at 0 counts. -/
theorem trunc_small {N : ℤ} {f : ℚ} (hlow : -2 ^ 43 ≤ N) (hhigh : N < 2 ^ 43) (hf : 1 / 1000 - 1 / 2 ^ 30 ≤ f)
    (hf' : f ≤ 999 / 1000 + 1 / 2 ^ 30) : trunc (Binary64.round (N + f)) = N + if 0 ≤ N then 0 else 1 := by
  obtain ⟨hgt, hlt⟩ := round_between hlow hhigh hf hf'
  rw [trunc_between hgt hlt]
  split
  · exact (add_zero N).symm
  · rfl

/-- From there on the double decides. -/
theorem trunc_big {N r : ℕ} {f : ℚ} (hlow : 2 ^ 43 ≤ N) (hhigh : N < 2 ^ 52) (hf : 0 ≤ f) (hf' : f < 1)
    (hnear : |f - r / 1000| ≤ 1 / 2 ^ 30) (hexact : 125 ∣ r → f = r / 1000) :
    trunc (Binary64.round (N + f)) = N + if 1000 * 2 ^ Nat.log2 N < (1000 - r) * 2 ^ 53 then 0 else 1 := by
  have hlog : 43 ≤ Nat.log2 N := (Nat.le_log2 (by omega)).mpr hlow
  have hlog' : Nat.log2 N < 52 := (Nat.log2_lt (by omega)).mpr hhigh
  have hreach := reaches_iff hlog hlog' hnear hexact
  split
  · rename_i hbelow
    obtain ⟨hle, hlt⟩ := round_below (by omega) hf (by omega) (hreach.mpr hbelow)
    rw [add_zero, trunc_of_nonneg (le_trans (Nat.cast_nonneg N) hle)]
    exact Int.floor_eq_iff.mpr ⟨by exact_mod_cast hle, by exact_mod_cast hlt⟩
  · rename_i hnext
    rw [round_next (by omega) hf hf' (by omega) (not_lt.mp fun h => hnext (hreach.mp h))]
    exact_mod_cast trunc_intCast (N + 1)

/-- **The seconds of the library** are the daemon's, or one more. -/
theorem seconds_spec {s : ℤ} {ms : UInt32} (hlow : -2 ^ 43 ≤ s) (hhigh : s + (ms.toNat / 1000 : ℕ) < 2 ^ 52) :
    trunc (Binary64.round (Binary64.round s + Binary64.round ((ms.toNat : ℚ) / 1000))) =
      s + (ms.toNat / 1000 : ℕ) + if SecondsKept s ms then 0 else 1 := by
  obtain ⟨f, hround, hnear, hexact⟩ := fraction_spec (n := ms.toNat) ms.toNat_lt
  have hs : Binary64.round (s : ℚ) = s := round_intCast (by omega) (by omega)
  have hsum : (s : ℚ) + ((ms.toNat / 1000 : ℕ) + f) = ((s + (ms.toNat / 1000 : ℕ) : ℤ) : ℚ) + f := by
    rw [Int.cast_add, Int.cast_natCast, add_assoc]
  rw [hs, hround, hsum]
  rcases Nat.eq_zero_or_pos (ms.toNat % 1000) with hzero | hpart
  · have hf : f = 0 := by
      rw [hexact (by rw [hzero]; exact dvd_zero _), hzero]
      simp
    have hk : SecondsKept s ms := .inl hzero
    rw [if_pos hk, hf, add_zero, add_zero, round_intCast (by omega) (by omega), trunc_intCast]
  · have hkept : SecondsKept s ms ↔ 0 ≤ s + (ms.toNat / 1000 : ℕ) ∧
        1000 * 2 ^ Nat.log2 (s + (ms.toNat / 1000 : ℕ)).toNat < (1000 - ms.toNat % 1000) * 2 ^ 53 :=
      or_iff_right (by omega)
    have hge : (1 : ℚ) ≤ (ms.toNat % 1000 : ℕ) := by exact_mod_cast hpart
    have hle : ((ms.toNat % 1000 : ℕ) : ℚ) ≤ 999 := by
      exact_mod_cast Nat.lt_succ_iff.mp (Nat.mod_lt ms.toNat (by decide : 0 < 1000))
    obtain ⟨hdown, hup⟩ := abs_le.mp hnear
    rcases lt_or_ge (s + (ms.toNat / 1000 : ℕ)) (2 ^ 43) with hsmall | hbig
    · rw [trunc_small (by omega) hsmall (by linarith) (by linarith)]
      congr 1
      refine if_congr ?_ rfl rfl
      exact ⟨fun h0 => secondsKept_of_small h0 hsmall, fun hk => (hkept.mp hk).1⟩
    · obtain ⟨N, hN⟩ := Int.eq_ofNat_of_zero_le (a := s + (ms.toNat / 1000 : ℕ)) (by omega)
      rw [hN] at hkept hbig hhigh ⊢
      rw [Int.toNat_natCast] at hkept
      rw [Int.cast_natCast, trunc_big (by omega) (by omega) (by linarith) (by linarith) hnear hexact]
      congr 1
      refine if_congr ?_ rfl rfl
      rw [hkept]
      exact (and_iff_right (Int.natCast_nonneg N)).symm

/-! ### The library's calls -/

/-- What `time_add_ms` of the daemon does where nothing overflows. -/
theorem Utils.timeAddMs_eq (ht : t.Kept) {ms : UInt32} (hfit : t.tvSec + (ms.toNat / 1000 : ℕ) < 2 ^ 63 - 1) :
    Utils.timeAddMs t ms =
      if t.tvNsec + (ms.toNat % 1000 : ℕ) * 1000000 > 1000000000 then
        ⟨t.tvSec + (ms.toNat / 1000 : ℕ) + 1, t.tvNsec + (ms.toNat % 1000 : ℕ) * 1000000 - 1000000000⟩
      else ⟨t.tvSec + (ms.toNat / 1000 : ℕ), t.tvNsec + (ms.toNat % 1000 : ℕ) * 1000000⟩ := by
  obtain ⟨hlow, h0, h9⟩ := ht
  have hsec : (ms / 1000).toNat = ms.toNat / 1000 := UInt32.toNat_div ..
  unfold Utils.timeAddMs Utils.carry
  rw [hsec, nsec_of_ms, toLong_eq (by omega) (by omega), toLong_eq (by omega) (by omega)]
  push_cast
  split_ifs with hmore
  · rw [toLong_eq (by omega) (by omega), toLong_eq (by omega) (by omega)]
  · rfl

/-- Where nothing is rounded or cut off below 0, the library's `time_add_ms` does the same. -/
theorem timeAddMs_library (ht : t.Kept) (hs : 0 ≤ t.tvSec) {ms : UInt32}
    (hfit : t.tvSec + (ms.toNat / 1000 : ℕ) < 2 ^ 63 - 1) : timeAddMs t ms = Utils.timeAddMs t ms := by
  rw [timeAddMs_eq hs, Utils.timeAddMs_eq ht hfit]

/-- **One call of the library** is one of the daemon, but for the second the
seconds may be ahead. -/
theorem Doubles.timeAddMs_spec (ht : t.Kept) {ms : UInt32} (hlow : -2 ^ 43 ≤ t.tvSec)
    (hhigh : t.tvSec + (ms.toNat / 1000 : ℕ) < 2 ^ 52) :
    Doubles.timeAddMs t ms =
      ⟨(Utils.timeAddMs t ms).tvSec + if SecondsKept t.tvSec ms then 0 else 1, (Utils.timeAddMs t ms).tvNsec⟩ := by
  obtain ⟨-, h0, h9⟩ := ht
  have hnsec : trunc (Binary64.round (Binary64.round t.tvNsec + Binary64.round ((ms % 1000).toNat * 1000000))) =
      t.tvNsec + (ms.toNat % 1000 : ℕ) * 1000000 := by
    have hmod : (ms % 1000).toNat = ms.toNat % 1000 := by simp
    have hamount : Binary64.round (((ms.toNat % 1000 : ℕ) : ℚ) * 1000000) =
        (((ms.toNat % 1000 : ℕ) * 1000000 : ℤ) : ℚ) := by
      have h := @round_intCast ((ms.toNat % 1000 : ℕ) * 1000000) (by omega) (by omega)
      push_cast at h ⊢
      exact h
    rw [hmod, hamount, round_intCast (by omega) (by omega), ← Int.cast_add, round_intCast (by omega) (by omega),
      trunc_intCast]
  have hmore : ∀ n : ℤ, 0 ≤ n → n < 2 ^ 32 →
      Binary64.round n = n ∧ trunc (Binary64.round ((n : ℚ) - 1000000000)) = n - 1000000000 := by
    intro n hn hn'
    have hcut := @round_intCast (n - 1000000000) (by omega) (by omega)
    push_cast at hcut
    refine ⟨round_intCast (by omega) (by omega), ?_⟩
    have hwhole := trunc_intCast (n - 1000000000)
    push_cast at hwhole
    rw [hcut]
    exact hwhole
  obtain ⟨hround, hcut⟩ := hmore (t.tvNsec + (ms.toNat % 1000 : ℕ) * 1000000) (by omega) (by omega)
  rw [Utils.timeAddMs_eq ⟨by omega, h0, h9⟩ (by omega), Doubles.timeAddMs, seconds_spec hlow hhigh, hnsec,
    hround, hcut]
  have hcmp : ∀ n : ℤ, (n : ℚ) > 1000000000 ↔ n > 1000000000 := by
    intro n
    have hmil : ((1000000000 : ℤ) : ℚ) = 1000000000 := by norm_num
    rw [gt_iff_lt, ← hmil, Int.cast_lt]
  rw [if_congr (hcmp _) rfl rfl]
  generalize (if SecondsKept t.tvSec ms then (0 : ℤ) else 1) = ahead
  split_ifs
  · congr 1
    exact add_right_comm ..
  · rfl

/-- Up to `2 ^ 43` seconds from 0 on, the exact arithmetic is what the doubles do. -/
theorem timeAddMs_doubles (ht : t.Kept) (hs : 0 ≤ t.tvSec) {ms : UInt32}
    (hhigh : t.tvSec + (ms.toNat / 1000 : ℕ) < 2 ^ 43) : Doubles.timeAddMs t ms = timeAddMs t ms := by
  have hkept : SecondsKept t.tvSec ms := secondsKept_of_small (by omega) hhigh
  rw [Doubles.timeAddMs_spec ht (by omega) (by omega), if_pos hkept, add_zero, timeAddMs_library ht hs (by omega)]

/-- The daemon's function does not look at the seconds. -/
theorem Utils.timeAddMs_ahead (ht : t.Kept) {ms : UInt32} {d : ℕ}
    (hfit : t.tvSec + d + (ms.toNat / 1000 : ℕ) < 2 ^ 63 - 1) :
    Utils.timeAddMs ⟨t.tvSec + d, t.tvNsec⟩ ms =
      ⟨(Utils.timeAddMs t ms).tvSec + d, (Utils.timeAddMs t ms).tvNsec⟩ := by
  have hd : Timespec.Kept ⟨t.tvSec + d, t.tvNsec⟩ := ⟨by have := ht.low; dsimp only; omega, ht.nsec⟩
  rw [Utils.timeAddMs_eq ht (by omega), Utils.timeAddMs_eq hd hfit]
  split_ifs <;> dsimp only <;> congr 1 <;> omega

theorem Utils.timeAddMs_grows (ht : t.Kept) {ms : UInt32} (hfit : t.tvSec + (ms.toNat / 1000 : ℕ) < 2 ^ 63 - 1) :
    t.tvSec ≤ (Utils.timeAddMs t ms).tvSec := by
  rw [Utils.timeAddMs_eq ht hfit]
  split_ifs <;> dsimp only <;> omega

/-- One call of the library that finds its seconds `d` ahead leaves them ahead by that, or by one more. -/
theorem Doubles.timeAddMs_ahead (ht : t.Kept) {ms : UInt32} {d : ℕ} (hlow : -2 ^ 43 ≤ t.tvSec)
    (hhigh : t.tvSec + d + (ms.toNat / 1000 : ℕ) < 2 ^ 52) : ∃ e : ℕ, e ≤ 1 ∧
      (e = 0 ↔ SecondsKept (t.tvSec + d) ms) ∧ Doubles.timeAddMs ⟨t.tvSec + d, t.tvNsec⟩ ms =
        ⟨(Utils.timeAddMs t ms).tvSec + (d + e : ℕ), (Utils.timeAddMs t ms).tvNsec⟩ := by
  have hahead : Timespec.Kept ⟨t.tvSec + d, t.tvNsec⟩ := ⟨by dsimp only; omega, ht.nsec⟩
  have hstep := @Doubles.timeAddMs_spec ⟨t.tvSec + d, t.tvNsec⟩ hahead ms (by dsimp only; omega) hhigh
  rw [Utils.timeAddMs_ahead ht (by omega)] at hstep
  by_cases hk : SecondsKept (t.tvSec + d) ms
  · refine ⟨0, by omega, iff_of_true rfl hk, ?_⟩
    rw [hstep, if_pos hk, add_zero, Nat.add_zero]
  · refine ⟨1, le_rfl, iff_of_false one_ne_zero hk, ?_⟩
    rw [hstep, if_neg hk, Nat.cast_add, Nat.cast_one, add_assoc]

/-- Every call finds seconds that it gets right. -/
def SecondsKeptAll : Timespec → List UInt32 → Prop
  | _, [] => True
  | t, ms :: mss => SecondsKept t.tvSec ms ∧ SecondsKeptAll (Utils.timeAddMs t ms) mss

/-- **The calls of the library** are those of the daemon, but for the seconds
they are ahead: never fewer than before, so they are right just when none of the
calls was wrong. -/
theorem Doubles.adds_spec {mss : List UInt32} {d : ℕ} (ht : t.Kept) (hlow : -2 ^ 43 ≤ t.tvSec)
    (hhigh : t.nanos + total (mss.map .ms) + (d + mss.length) * 10 ^ 9 < 2 ^ 52 * 10 ^ 9) :
    ∃ d' : ℕ, Doubles.adds ⟨t.tvSec + d, t.tvNsec⟩ mss =
        ⟨(t.adds (mss.map .ms)).tvSec + d', (t.adds (mss.map .ms)).tvNsec⟩ ∧
      (d' = 0 ↔ d = 0 ∧ SecondsKeptAll t mss) := by
  induction mss generalizing t d with
  | nil => exact ⟨d, rfl, (and_iff_left trivial).symm⟩
  | cons ms mss ih =>
    rw [List.map_cons, total_cons, List.length_cons] at hhigh
    have hrest := total_nonneg (mss.map Amount.ms)
    have hnanos : (Amount.ms ms).nanos = ms.toNat * 1000000 := rfl
    have hsec := ht.nsec
    unfold Timespec.nanos at hhigh
    push_cast at hhigh
    obtain ⟨hadd, hkept, -⟩ := @Amount.add_spec t (.ms ms) ht (by unfold Timespec.nanos; omega)
    change (Utils.timeAddMs t ms).nanos = _ at hadd
    change (Utils.timeAddMs t ms).Kept at hkept
    have hgrow := @Utils.timeAddMs_grows t ht ms (by omega)
    obtain ⟨e, he, hzero, hstep⟩ := @Doubles.timeAddMs_ahead t ht ms d hlow (by omega)
    obtain ⟨d', hadds, hd'⟩ := @ih (Utils.timeAddMs t ms) (d + e) hkept (by omega) (by
      rw [hadd]
      unfold Timespec.nanos
      push_cast
      omega)
    refine ⟨d', ?_, ?_⟩
    · calc Doubles.adds ⟨t.tvSec + d, t.tvNsec⟩ (ms :: mss)
          = Doubles.adds (Doubles.timeAddMs ⟨t.tvSec + d, t.tvNsec⟩ ms) mss := rfl
        _ = _ := by
          rw [hstep]
          exact hadds
    · rw [hd', Nat.add_eq_zero_iff, hzero, and_assoc]
      constructor
      · rintro ⟨rfl, hk, hall⟩
        exact ⟨rfl, by simpa using hk, hall⟩
      · rintro ⟨rfl, hk, hall⟩
        exact ⟨rfl, by simpa using hk, hall⟩

theorem Doubles.addsRight_iff {mss : List UInt32} (ht : t.Kept) (hlow : -2 ^ 43 ≤ t.tvSec)
    (hhigh : t.nanos + total (mss.map .ms) + mss.length * 10 ^ 9 < 2 ^ 52 * 10 ^ 9) :
    Right t (total (mss.map .ms)) (Doubles.adds t mss) ↔ Carried t (mss.map .ms) ∧ SecondsKeptAll t mss := by
  have hfit : t.nanos + total (mss.map .ms) < 2 ^ 63 * 10 ^ 9 := by omega
  obtain ⟨d, hadds, hzero⟩ := @Doubles.adds_spec t mss 0 ht hlow (by simpa using hhigh)
  have hnanos := (Retif.adds_spec ht hfit).1
  have hstart : (⟨t.tvSec + (0 : ℕ), t.tvNsec⟩ : Timespec) = t := by simp
  rw [hstart] at hadds
  have hkept : SecondsKeptAll t mss ↔ d = 0 := by
    rw [hzero]
    exact (and_iff_right rfl).symm
  rw [hkept, ← adds_normal_iff ht hfit, Right, hadds, ← hnanos]
  apply and_congr_right
  intro _
  unfold Timespec.nanos
  dsimp only
  omega

/-- **Adding to an instant.** In the daemon the result is normalised and exact
just when no second is left in the nanoseconds; in the library the seconds of
every call have to be right as well. `time_cmp` orders any two such results. -/
theorem added_iff {mss : List UInt32} (hn : t.Normal) (hf : t.Fits)
    (hrange : t.nanos + total amounts < 2 ^ 63 * 10 ^ 9) :
    (Right t (total amounts) (t.adds amounts) ↔ Carried t amounts) ∧
    (-2 ^ 43 ≤ t.tvSec → t.nanos + total (mss.map .ms) + mss.length * 10 ^ 9 < 2 ^ 52 * 10 ^ 9 →
      (Right t (total (mss.map .ms)) (Doubles.adds t mss) ↔ Carried t (mss.map .ms) ∧ SecondsKeptAll t mss)) ∧
    ∀ t₁ n₁ u₁ t₂ n₂ u₂, Right t₁ n₁ u₁ → Right t₂ n₂ u₂ →
      (0 < Utils.timeCmp u₁ u₂ ↔ t₂.nanos + n₂ < t₁.nanos + n₁) ∧
        (Utils.timeCmp u₁ u₂ < 0 ↔ t₁.nanos + n₁ < t₂.nanos + n₂) := by
  have ht := kept_of_normal hn hf
  refine ⟨addsRight_iff ht hrange, Doubles.addsRight_iff ht, ?_⟩
  rintro t₁ n₁ u₁ t₂ n₂ u₂ ⟨hnormal, hnanos⟩ ⟨hnormal', hnanos'⟩
  rw [← hnanos, ← hnanos']
  exact timeCmp_normal hnormal hnormal'

end Spec

namespace InstantsExample

/-- A nanosecond before the sixth second. -/
def almostSix : Timespec := ⟨5, 999999999⟩

end InstantsExample

open InstantsExample

theorem added_iff_one :
    (Right almostSix (total [.us 1]) (almostSix.adds [.us 1]) ↔ Carried almostSix [.us 1]) ∧
    (Right almostSix (total [.ms 1500, .ms 600]) (Doubles.adds almostSix [1500, 600]) ↔
      Carried almostSix [.ms 1500, .ms 600] ∧ SecondsKeptAll almostSix [1500, 600]) ∧
    ∀ t₁ n₁ u₁ t₂ n₂ u₂, Right t₁ n₁ u₁ → Right t₂ n₂ u₂ →
      (0 < Utils.timeCmp u₁ u₂ ↔ t₂.nanos + n₂ < t₁.nanos + n₁) ∧
        (Utils.timeCmp u₁ u₂ < 0 ↔ t₁.nanos + n₁ < t₂.nanos + n₂) := by
  obtain ⟨hdaemon, hlibrary, horder⟩ := @added_iff almostSix [.us 1] [1500, 600] ⟨by decide, by decide⟩
    ⟨by decide, by decide⟩ (by decide)
  exact ⟨hdaemon, hlibrary (by decide) (by decide), horder⟩

/-- Half a second added to half a second: the nanoseconds are left at 10 ^ 9.
And half a second added by the library to a second before 0: no second is left. -/
theorem not_added :
    ¬ Right ⟨0, 500000000⟩ (total [.ms 500]) (Timespec.adds ⟨0, 500000000⟩ [.ms 500]) ∧
      ¬ Right ⟨-1, 0⟩ (total [.ms 500]) (Doubles.adds ⟨-1, 0⟩ [500]) := by
  constructor
  · rintro ⟨⟨-, hlt⟩, -⟩
    exact absurd hlt (by decide)
  · intro h
    have hkept : Timespec.Kept ⟨-1, 0⟩ := ⟨by decide, by decide⟩
    obtain ⟨-, hseconds, -⟩ := (@Doubles.addsRight_iff _ [500] hkept (by decide) (by decide)).mp h
    exact absurd hseconds (by decide)

end Retif
