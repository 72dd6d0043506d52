/-
# Double precision

Rounding to the 53 binary digits of a `double`, ties to even, on rationals. The
exponent is not bounded here, so what is rounded has to be 0 or within the
format's range. A number of at most 53 digits is kept (`round_digits`), any
other is off by a part in `2 ^ 53` at most (`round_near`). Where a sum is cut
off to a whole number afterwards, the fraction decides whether rounding has
taken it to the next one (`round_below`, `round_next`).

Key definitions: `round`.
Key theorems: `round_digits`, `round_near`, `round_below`, `round_next`.
-/
import Retif.Lib.Binary32

namespace Binary64

open Binary32 (leading roundEven leading_spec leading_natCast roundEven_natCast roundEven_le le_roundEven)

/-- The exponent of the last digit kept. -/
def lastDigit (q : ℚ) : ℤ := leading q - 52

/-- The digits kept, as a number. -/
def digits (q : ℚ) : ℕ := roundEven (q / 2 ^ lastDigit q)

/-- The value a rational is rounded to. -/
def round (q : ℚ) : ℚ :=
  if q = 0 then 0
  else (if q < 0 then -1 else 1) * (digits |q| * 2 ^ lastDigit |q|)

@[simp] theorem round_zero : round 0 = 0 := if_pos rfl

theorem round_pos {q : ℚ} (hq : 0 < q) : round q = digits q * 2 ^ lastDigit q := by
  unfold round
  rw [if_neg hq.ne', if_neg hq.not_gt, one_mul, abs_of_pos hq]

theorem round_neg (q : ℚ) : round (-q) = -round q := by
  rcases lt_trichotomy q 0 with hq | rfl | hq
  · have hpos : 0 < -q := neg_pos.mpr hq
    unfold round
    rw [if_neg hpos.ne', if_neg hpos.not_gt, if_neg hq.ne, if_pos hq, abs_neg]
    ring
  · simp
  · have hneg : -q < 0 := neg_neg_of_pos hq
    unfold round
    rw [if_neg hneg.ne, if_pos hneg, if_neg hq.ne', if_neg hq.not_gt, abs_neg]
    ring

/-! ### The nearest whole number -/

theorem roundEven_near {x : ℚ} (hx : 0 ≤ x) : |(roundEven x : ℚ) - x| ≤ 1 / 2 := by
  have hfloor := Int.floor_le x
  have hlt := Int.lt_floor_add_one x
  have hcast : ((⌊x⌋.toNat : ℕ) : ℚ) = ⌊x⌋ := by
    rw [← Int.cast_natCast, Int.toNat_of_nonneg (Int.floor_nonneg.mpr hx)]
  unfold roundEven
  dsimp only
  rw [abs_le]
  split
  · rename_i hup
    rw [hcast] at hup
    push_cast
    rw [hcast]
    constructor
    · linarith
    · rcases hup with hup | ⟨hup, -⟩ <;> linarith
  · rename_i hdown
    rw [hcast] at hdown ⊢
    have hle : x - ⌊x⌋ ≤ 1 / 2 := not_lt.mp fun h => hdown (.inl h)
    constructor <;> linarith

/-- Less than a half below `T` is rounded below `T`. -/
theorem roundEven_lt {x : ℚ} {T : ℕ} (hx : 0 ≤ x) (h : x < T - 1 / 2) : roundEven x < T := by
  have hnear := (abs_le.mp (roundEven_near hx)).2
  have hlt : (roundEven x : ℚ) < T := by linarith
  exact_mod_cast hlt

/-- A half below an even number is rounded up to it. -/
theorem roundEven_up {x : ℚ} {T : ℕ} (hpos : 0 < T) (hT : Even T) (hlow : (T : ℚ) - 1 / 2 ≤ x) (hlt : x < T) :
    roundEven x = T := by
  obtain ⟨n, rfl⟩ : ∃ n, T = n + 1 := ⟨T - 1, by omega⟩
  have hfloor : ⌊x⌋ = n := by
    apply Int.floor_eq_iff.mpr
    push_cast at hlow hlt ⊢
    constructor <;> linarith
  have hodd : n % 2 = 1 := by
    obtain ⟨k, hk⟩ := hT
    omega
  push_cast at hlow
  have hhalf : 1 / 2 ≤ x - n := by linarith
  unfold roundEven
  dsimp only
  rw [hfloor, Int.toNat_natCast, if_pos]
  rcases hhalf.lt_or_eq with h | h
  · exact .inl h
  · exact .inr ⟨h.symm, hodd⟩

/-! ### What rounding keeps -/

theorem leading_eq {q : ℚ} {e : ℤ} (h1 : (2 : ℚ) ^ e ≤ q) (h2 : q < 2 ^ (e + 1)) : leading q = e := by
  have hpos : 0 < q := lt_of_lt_of_le (by positivity) h1
  obtain ⟨h3, h4⟩ := leading_spec hpos
  have hlow : e < leading q + 1 := (zpow_lt_zpow_iff_right₀ one_lt_two).mp (h1.trans_lt h4)
  have hhigh : leading q < e + 1 := (zpow_lt_zpow_iff_right₀ one_lt_two).mp (h3.trans_lt h2)
  omega

/-- **Rounding is near**: to one part in `2 ^ 53`. -/
theorem round_near (q : ℚ) : |round q - q| ≤ |q| / 2 ^ 53 := by
  wlog hq : 0 < q generalizing q with hpos
  · rcases lt_trichotomy q 0 with hneg | rfl | h
    · have h := hpos (-q) (neg_pos.mpr hneg)
      have hflip : round (-q) - -q = -(round q - q) := by
        rw [round_neg]
        ring
      rwa [hflip, abs_neg, abs_neg] at h
    · simp
    · exact absurd h hq
  have hunit : (0 : ℚ) < 2 ^ lastDigit q := by positivity
  have hnear := roundEven_near (div_nonneg hq.le hunit.le)
  have hlead : (2 : ℚ) ^ lastDigit q * 2 ^ 52 ≤ q := by
    calc (2 : ℚ) ^ lastDigit q * 2 ^ 52 = 2 ^ (lastDigit q + 52) := by
          rw [zpow_add₀ two_ne_zero]
          norm_num
      _ = 2 ^ leading q := by rw [lastDigit, sub_add_cancel]
      _ ≤ q := (leading_spec hq).1
  rw [round_pos hq, abs_of_pos hq]
  calc |(digits q : ℚ) * 2 ^ lastDigit q - q|
      = |(digits q : ℚ) - q / 2 ^ lastDigit q| * 2 ^ lastDigit q := by
        rw [← abs_of_pos hunit, ← abs_mul, abs_of_pos hunit, sub_mul, div_mul_cancel₀ q hunit.ne']
    _ ≤ 1 / 2 * 2 ^ lastDigit q := mul_le_mul_of_nonneg_right hnear hunit.le
    _ ≤ q / 2 ^ 53 := by
        rw [le_div_iff₀ (by norm_num)]
        linarith

/-- A number of at most 53 binary digits is kept. -/
theorem round_digits {n : ℕ} (hn : n < 2 ^ 53) (k : ℤ) : round (n * 2 ^ k) = n * 2 ^ k := by
  rcases Nat.eq_zero_or_pos n with rfl | hpos
  · simp
  have hk : (0 : ℚ) < 2 ^ k := by positivity
  have hq : (0 : ℚ) < n * 2 ^ k := mul_pos (Nat.cast_pos.mpr hpos) hk
  have hlog : Nat.log2 n ≤ 52 := Nat.lt_succ_iff.mp ((Nat.log2_lt hpos.ne').mpr hn)
  have hlow : ((2 ^ Nat.log2 n : ℕ) : ℚ) ≤ n := Nat.cast_le.mpr (Nat.log2_self_le hpos.ne')
  have hhigh : (n : ℚ) < ((2 ^ (Nat.log2 n + 1) : ℕ) : ℚ) := Nat.cast_lt.mpr Nat.lt_log2_self
  have hlead : leading (n * 2 ^ k) = Nat.log2 n + k := by
    apply leading_eq
    · rw [zpow_add₀ two_ne_zero, zpow_natCast]
      push_cast at hlow
      exact mul_le_mul_of_nonneg_right hlow hk.le
    · rw [add_right_comm, zpow_add₀ two_ne_zero]
      push_cast at hhigh
      exact mul_lt_mul_of_pos_right (by exact_mod_cast hhigh) hk
  have hdigits : (n : ℚ) * 2 ^ k / 2 ^ lastDigit (n * 2 ^ k) = ((n * 2 ^ (52 - Nat.log2 n) : ℕ) : ℚ) := by
    have hexp : k - lastDigit (n * 2 ^ k) = ((52 - Nat.log2 n : ℕ) : ℤ) := by
      rw [lastDigit, hlead]
      omega
    rw [mul_div_assoc, ← zpow_sub₀ two_ne_zero, hexp, zpow_natCast]
    push_cast
    rfl
  rw [round_pos hq, digits, hdigits, roundEven_natCast, ← hdigits, div_mul_cancel₀ _ (zpow_ne_zero _ two_ne_zero)]

theorem round_natCast {n : ℕ} (hn : n < 2 ^ 53) : round n = n := by
  have h := round_digits hn 0
  rwa [zpow_zero, mul_one] at h

theorem round_intCast {n : ℤ} (hlow : -2 ^ 53 < n) (hhigh : n < 2 ^ 53) : round n = n := by
  obtain ⟨m, rfl | rfl⟩ := n.eq_nat_or_neg
  · exact_mod_cast round_natCast (n := m) (by omega)
  · push_cast
    rw [round_neg, round_natCast (by omega)]

/-! ### The next whole number -/

section Sums

variable {N : ℕ} {f : ℚ}

/-- Between `N` and `N + 1` the digits go to a fixed place behind the point. -/
theorem round_sum (h1 : 1 ≤ N) (h0 : 0 ≤ f) (hf : f < 1) (hN : N < 2 ^ 52) :
    round (N + f) = roundEven ((N + f) * 2 ^ (52 - Nat.log2 N)) / 2 ^ (52 - Nat.log2 N) := by
  have hlog : Nat.log2 N < 52 := (Nat.log2_lt (by omega)).mpr hN
  have hlow : ((2 ^ Nat.log2 N : ℕ) : ℚ) ≤ N := Nat.cast_le.mpr (Nat.log2_self_le (by omega))
  have hhigh : ((N + 1 : ℕ) : ℚ) ≤ ((2 ^ (Nat.log2 N + 1) : ℕ) : ℚ) := Nat.cast_le.mpr Nat.lt_log2_self
  have hlead : leading (N + f) = Nat.log2 N := by
    apply leading_eq
    · push_cast at hlow
      rw [zpow_natCast]
      linarith
    · push_cast at hhigh
      calc (N : ℚ) + f < N + 1 := by linarith
        _ ≤ 2 ^ (Nat.log2 N + 1) := hhigh
        _ = 2 ^ ((Nat.log2 N : ℤ) + 1) := by exact_mod_cast rfl
  have hpos : (0 : ℚ) < N + f := by
    have : (1 : ℚ) ≤ N := by exact_mod_cast h1
    linarith
  have hlast : lastDigit (N + f) = -((52 - Nat.log2 N : ℕ) : ℤ) := by
    rw [lastDigit, hlead]
    omega
  rw [round_pos hpos, digits, hlast, zpow_neg, zpow_natCast, div_inv_eq_mul, div_eq_mul_inv]

/-- A fraction clear of the next whole number stays below it. -/
theorem round_below (h1 : 1 ≤ N) (h0 : 0 ≤ f) (hN : N < 2 ^ 52) (hf : f + 1 / 2 ^ (53 - Nat.log2 N) < 1) :
    N ≤ round (N + f) ∧ round (N + f) < N + 1 := by
  have hlog : Nat.log2 N < 52 := (Nat.log2_lt (by omega)).mpr hN
  have hexp : 53 - Nat.log2 N = 52 - Nat.log2 N + 1 := by omega
  rw [hexp, pow_succ] at hf
  have hlt : f < 1 := lt_of_le_of_lt (le_add_of_nonneg_right (by positivity)) hf
  rw [round_sum h1 h0 hlt hN]
  generalize 52 - Nat.log2 N = k at hf ⊢
  have hM : (0 : ℚ) < 2 ^ k := by positivity
  have hlow : N * 2 ^ k ≤ roundEven ((N + f) * 2 ^ k) := by
    apply le_roundEven
    push_cast
    exact mul_le_mul_of_nonneg_right (by linarith) hM.le
  have hhigh : roundEven ((N + f) * 2 ^ k) < (N + 1) * 2 ^ k := by
    apply roundEven_lt (by positivity)
    have hhalf : 1 / (2 ^ k * 2) * 2 ^ k = (1 / 2 : ℚ) := by field_simp
    have hmul := mul_lt_mul_of_pos_right hf hM
    rw [add_mul, hhalf, one_mul] at hmul
    push_cast
    linarith
  constructor
  · rw [le_div_iff₀ hM]
    exact_mod_cast hlow
  · rw [div_lt_iff₀ hM]
    exact_mod_cast hhigh

/-- Any other is rounded up to it. -/
theorem round_next (h1 : 1 ≤ N) (h0 : 0 ≤ f) (hlt : f < 1) (hN : N < 2 ^ 52)
    (hf : 1 ≤ f + 1 / 2 ^ (53 - Nat.log2 N)) : round (N + f) = N + 1 := by
  have hlog : Nat.log2 N < 52 := (Nat.log2_lt (by omega)).mpr hN
  have hexp : 53 - Nat.log2 N = 52 - Nat.log2 N + 1 := by omega
  rw [hexp, pow_succ] at hf
  rw [round_sum h1 h0 hlt hN]
  have heven : Even ((N + 1) * 2 ^ (52 - Nat.log2 N)) := by
    apply Even.mul_left
    exact (Nat.even_pow.mpr ⟨even_two, by omega⟩)
  generalize 52 - Nat.log2 N = k at hf heven ⊢
  have hM : (0 : ℚ) < 2 ^ k := by positivity
  have hup : roundEven ((N + f) * 2 ^ k) = (N + 1) * 2 ^ k := by
    apply roundEven_up (by positivity) heven
    · have hhalf : 1 / (2 ^ k * 2) * 2 ^ k = (1 / 2 : ℚ) := by field_simp
      have hmul := mul_le_mul_of_nonneg_right hf hM.le
      rw [add_mul, hhalf, one_mul] at hmul
      push_cast
      linarith
    · push_cast
      exact mul_lt_mul_of_pos_right (by linarith) hM
  rw [hup]
  push_cast
  rw [mul_div_assoc, div_self hM.ne', mul_one]

end Sums

end Binary64
