/-
# Single precision

The binary32 format on rationals: a value is rounded to 24 binary digits from
its leading one on (fewer below `2 ^ -126`), ties to even, and packed into a
sign bit, eight bits of exponent and 23 of fraction. `toRat` unpacks; the
infinities and NaNs have no value. Packing and unpacking is rounding
(`toRat_ofRat`), and a natural number survives it when it has at most 24
significant digits (`round_natCast_eq_iff`).

Key definitions: `leading`, `roundEven`, `round`, `ofRat`, `toRat`, `Fits`.
Key theorems: `leading_spec`, `toRat_ofRat`, `round_natCast_eq_iff`,
`round_natCast`, `one_le_round`.
-/
import Mathlib.Tactic
import Mathlib.Data.Rat.Floor

namespace Binary32

/-! ### Rounding -/

/-- The exponent of the leading binary digit of a positive rational. -/
def leading (q : ℚ) : ℤ :=
  let k : ℤ := (Nat.log2 q.num.natAbs : ℤ) - Nat.log2 q.den
  if (2 : ℚ) ^ k ≤ q then k else k - 1

/-- The nearest natural number, the even one of two. -/
def roundEven (q : ℚ) : ℕ :=
  let f := ⌊q⌋.toNat
  if 1 / 2 < q - f ∨ (q - f = 1 / 2 ∧ f % 2 = 1) then f + 1 else f

/-- The exponent of the last digit kept. -/
def lastDigit (q : ℚ) : ℤ := max (leading q) (-126) - 23

/-- The digits kept, as a number. -/
def digits (q : ℚ) : ℕ := roundEven (q / 2 ^ lastDigit q)

/-- The value a rational is rounded to. -/
def round (q : ℚ) : ℚ :=
  if q = 0 then 0
  else (if q < 0 then -1 else 1) * (digits |q| * 2 ^ lastDigit |q|)

/-! ### Packing -/

/-- The lower 31 bits for a positive rational. A carry out of the digits goes
on into the exponent. -/
def magnitude (q : ℚ) : ℕ := min (255 * 2 ^ 23) ((lastDigit q + 149).toNat * 2 ^ 23 + digits q)

def ofRat (q : ℚ) : UInt32 :=
  if q = 0 then 0 else UInt32.ofNat ((if q < 0 then 2 ^ 31 else 0) + magnitude |q|)

/-- The value of the lower 31 bits. -/
def ofMagnitude (x : ℕ) : Option ℚ :=
  if x / 2 ^ 23 = 255 then none
  else if x / 2 ^ 23 = 0 then some ((x % 2 ^ 23 : ℕ) * 2 ^ (-149 : ℤ))
  else some ((2 ^ 23 + x % 2 ^ 23 : ℕ) * 2 ^ ((x / 2 ^ 23 : ℕ) - 150 : ℤ))

def toRat (b : UInt32) : Option ℚ :=
  (ofMagnitude (b.toNat % 2 ^ 31)).map fun v => (if 2 ^ 31 ≤ b.toNat then -1 else 1) * v

/-! ### The digits -/

theorem leading_spec {q : ℚ} (hq : 0 < q) : (2 : ℚ) ^ leading q ≤ q ∧ q < 2 ^ (leading q + 1) := by
  have hnum : q.num.natAbs ≠ 0 := by
    have := Rat.num_pos.mpr hq
    omega
  have ha : 2 ^ Nat.log2 q.num.natAbs ≤ q.num.natAbs := Nat.log2_self_le hnum
  have ha' : q.num.natAbs < 2 ^ (Nat.log2 q.num.natAbs + 1) := Nat.lt_log2_self
  have hb : 2 ^ Nat.log2 q.den ≤ q.den := Nat.log2_self_le q.den_nz
  have hb' : q.den < 2 ^ (Nat.log2 q.den + 1) := Nat.lt_log2_self
  have hval : q = (q.num.natAbs : ℚ) / q.den := by
    have hcast : ((q.num.natAbs : ℤ) : ℚ) = (q.num : ℚ) := by
      rw [Int.natAbs_of_nonneg (Rat.num_pos.mpr hq).le]
    rw [← Int.cast_natCast, hcast, Rat.num_div_den]
  have hden : (0 : ℚ) < q.den := by exact_mod_cast q.den_pos
  have two : (2 : ℚ) ≠ 0 := two_ne_zero
  -- the quotient of the two leading powers is off by at most one digit
  have hup : q < 2 ^ ((Nat.log2 q.num.natAbs : ℤ) - Nat.log2 q.den + 1) := by
    have h1 : (q.num.natAbs : ℚ) < 2 ^ (Nat.log2 q.num.natAbs + 1) := by exact_mod_cast ha'
    have h2 : (2 : ℚ) ^ Nat.log2 q.den ≤ q.den := by exact_mod_cast hb
    have hpow : (2 : ℚ) ^ ((Nat.log2 q.num.natAbs : ℤ) - Nat.log2 q.den + 1) * 2 ^ Nat.log2 q.den =
        2 ^ (Nat.log2 q.num.natAbs + 1) := by
      rw [← zpow_natCast, ← zpow_natCast, ← zpow_add₀ two]
      congr 1
      push_cast
      ring
    have hpos : (0 : ℚ) < 2 ^ ((Nat.log2 q.num.natAbs : ℤ) - Nat.log2 q.den + 1) := by positivity
    have hle := mul_le_mul_of_nonneg_left h2 hpos.le
    calc q = (q.num.natAbs : ℚ) / q.den := hval
      _ < 2 ^ ((Nat.log2 q.num.natAbs : ℤ) - Nat.log2 q.den + 1) := by
        rw [div_lt_iff₀ hden]
        linarith
  have hlow : (2 : ℚ) ^ ((Nat.log2 q.num.natAbs : ℤ) - Nat.log2 q.den - 1) ≤ q := by
    have h1 : (2 : ℚ) ^ Nat.log2 q.num.natAbs ≤ q.num.natAbs := by exact_mod_cast ha
    have h2 : (q.den : ℚ) ≤ 2 ^ (Nat.log2 q.den + 1) := by exact_mod_cast hb'.le
    have hpow : (2 : ℚ) ^ ((Nat.log2 q.num.natAbs : ℤ) - Nat.log2 q.den - 1) * 2 ^ (Nat.log2 q.den + 1) =
        2 ^ Nat.log2 q.num.natAbs := by
      rw [← zpow_natCast, ← zpow_natCast, ← zpow_add₀ two]
      congr 1
      push_cast
      ring
    have hpos : (0 : ℚ) < 2 ^ ((Nat.log2 q.num.natAbs : ℤ) - Nat.log2 q.den - 1) := by positivity
    have hle := mul_le_mul_of_nonneg_left h2 hpos.le
    calc (2 : ℚ) ^ ((Nat.log2 q.num.natAbs : ℤ) - Nat.log2 q.den - 1) ≤ (q.num.natAbs : ℚ) / q.den := by
          rw [le_div_iff₀ hden]
          linarith
      _ = q := hval.symm
  unfold leading
  dsimp only
  split
  · rename_i h
    exact ⟨h, hup⟩
  · rename_i h
    refine ⟨hlow, ?_⟩
    rw [sub_add_cancel]
    exact not_le.mp h

theorem roundEven_natCast (n : ℕ) : roundEven n = n := by
  unfold roundEven
  norm_num

theorem roundEven_le {q : ℚ} {n : ℕ} (h0 : 0 ≤ q) (h : q ≤ n) : roundEven q ≤ n := by
  have hf0 := Int.floor_nonneg.mpr h0
  have hle : (⌊q⌋ : ℚ) ≤ q := Int.floor_le q
  have hcast : ((⌊q⌋.toNat : ℕ) : ℚ) = ⌊q⌋ := by
    rw [← Int.cast_natCast, Int.toNat_of_nonneg hf0]
  have hfn : ⌊q⌋ ≤ n := by exact_mod_cast hle.trans h
  unfold roundEven
  dsimp only
  rw [hcast]
  split
  · rename_i hup
    have hgt : (⌊q⌋ : ℚ) < q := by
      rcases hup with hup | ⟨hup, -⟩ <;> linarith
    have hlt : (⌊q⌋ : ℚ) < (n : ℤ) := by
      push_cast
      linarith
    have : ⌊q⌋ < n := by exact_mod_cast hlt
    omega
  · omega

theorem le_roundEven {q : ℚ} {n : ℕ} (h : (n : ℚ) ≤ q) : n ≤ roundEven q := by
  have hfn : (n : ℤ) ≤ ⌊q⌋ := Int.le_floor.mpr (by exact_mod_cast h)
  unfold roundEven
  dsimp only
  split <;> omega

/-- 24 digits are kept, and the first of them is a one above `2 ^ -126`; the
digits may carry over. -/
theorem digits_bounds {q : ℚ} (hq : 0 < q) :
    digits q ≤ 2 ^ 24 ∧ (-149 < lastDigit q → 2 ^ 23 ≤ digits q) := by
  obtain ⟨h1, h2⟩ := leading_spec hq
  have hpos : (0 : ℚ) < 2 ^ lastDigit q := by positivity
  have two : (2 : ℚ) ≠ 0 := two_ne_zero
  refine ⟨roundEven_le (div_nonneg hq.le hpos.le) ?_, ?_⟩
  · rw [div_le_iff₀ hpos]
    have hexp : leading q + 1 ≤ 24 + lastDigit q := by
      unfold lastDigit
      have := le_max_left (leading q) (-126)
      omega
    calc q ≤ 2 ^ (leading q + 1) := h2.le
      _ ≤ 2 ^ (24 + lastDigit q) := zpow_le_zpow_right₀ one_le_two hexp
      _ = 2 ^ (24 : ℤ) * 2 ^ lastDigit q := zpow_add₀ two _ _
      _ = ((2 ^ 24 : ℕ) : ℚ) * 2 ^ lastDigit q := by norm_num
  · intro hlast
    refine le_roundEven ?_
    rw [le_div_iff₀ hpos]
    have hexp : 23 + lastDigit q = leading q := by
      unfold lastDigit at hlast ⊢
      rcases max_cases (leading q) (-126) with ⟨h, -⟩ | ⟨h, -⟩ <;> omega
    have : ((2 ^ 23 : ℕ) : ℚ) = 2 ^ (23 : ℤ) := by norm_num
    rw [this, ← zpow_add₀ two, hexp]
    exact h1

/-! ### Packing and unpacking -/

theorem magnitude_eq {q : ℚ} (hq : 0 < q) (hlt : q < 2 ^ 127) :
    magnitude q = (lastDigit q + 149).toNat * 2 ^ 23 + digits q ∧
      -149 ≤ lastDigit q ∧ lastDigit q ≤ 103 := by
  obtain ⟨h1, -⟩ := leading_spec hq
  have hlead : leading q < 127 := by
    have hpow : (2 : ℚ) ^ leading q < 2 ^ (127 : ℤ) := lt_of_le_of_lt h1 (by exact_mod_cast hlt)
    exact (zpow_lt_zpow_iff_right₀ one_lt_two).mp hpow
  have hb := (digits_bounds hq).1
  have hlow : -149 ≤ lastDigit q := by
    unfold lastDigit
    have := le_max_right (leading q) (-126)
    omega
  have hhigh : lastDigit q ≤ 103 := by
    unfold lastDigit
    have := max_lt hlead (by norm_num : (-126 : ℤ) < 127)
    omega
  refine ⟨?_, hlow, hhigh⟩
  unfold magnitude
  refine min_eq_right ?_
  have : (lastDigit q + 149).toNat ≤ 252 := by omega
  omega

/-- Unpacking the magnitude gives the digits back, at their place. -/
theorem ofMagnitude_magnitude {q : ℚ} (hq : 0 < q) (hlt : q < 2 ^ 127) :
    ofMagnitude (magnitude q) = some ((digits q : ℚ) * 2 ^ lastDigit q) := by
  obtain ⟨hm, hlow, hhigh⟩ := magnitude_eq hq hlt
  obtain ⟨hmax, hmin⟩ := digits_bounds hq
  have hE : ((lastDigit q + 149).toNat : ℤ) = lastDigit q + 149 := Int.toNat_of_nonneg (by omega)
  rw [hm]
  generalize digits q = m at *
  generalize (lastDigit q + 149).toNat = E at *
  have hlast : lastDigit q = E - 149 := by omega
  have hE252 : E ≤ 252 := by omega
  rw [hlast] at hmin ⊢
  clear hE hm hlow hhigh hlast
  unfold ofMagnitude
  rcases lt_or_ge m (2 ^ 23) with hsub | hnorm
  · -- below the smallest normal number
    have hE0 : E = 0 := by
      by_contra hne
      have := hmin (by omega)
      omega
    subst hE0
    have hdiv : (0 * 2 ^ 23 + m) / 2 ^ 23 = 0 := by omega
    have hmod : (0 * 2 ^ 23 + m) % 2 ^ 23 = m := by omega
    rw [hdiv, if_neg (by norm_num), if_pos rfl]
    rw [hmod]
    rfl
  · rcases lt_or_eq_of_le hmax with hlt24 | hcarry
    · have hdiv : (E * 2 ^ 23 + m) / 2 ^ 23 = E + 1 := by omega
      have hmod : 2 ^ 23 + (E * 2 ^ 23 + m) % 2 ^ 23 = m := by omega
      have hexp : ((E + 1 : ℕ) : ℤ) - 150 = E - 149 := by
        push_cast
        ring
      have h255 : ¬ E + 1 = 255 := by omega
      rw [hdiv, hmod, if_neg h255, if_neg (Nat.succ_ne_zero E), hexp]
    · -- the carry has gone into the exponent
      have hdiv : (E * 2 ^ 23 + m) / 2 ^ 23 = E + 2 := by omega
      have hmod : 2 ^ 23 + (E * 2 ^ 23 + m) % 2 ^ 23 = 2 ^ 23 := by omega
      have h255 : ¬ E + 2 = 255 := by omega
      rw [hdiv, hmod, if_neg h255, if_neg (Nat.succ_ne_zero _), hcarry]
      congr 1
      have hexp : ((E + 2 : ℕ) : ℤ) - 150 = 1 + ((E : ℤ) - 149) := by
        push_cast
        ring
      rw [hexp, zpow_add₀ two_ne_zero]
      push_cast
      ring

/-- **Packing and unpacking is rounding.** -/
theorem toRat_ofRat {q : ℚ} (hlt : |q| < 2 ^ 127) : toRat (ofRat q) = some (round q) := by
  unfold ofRat round
  by_cases h0 : q = 0
  · rw [if_pos h0, if_pos h0]
    have hzero : ofMagnitude 0 = some 0 := by
      unfold ofMagnitude
      norm_num
    have hb : (0 : UInt32).toNat = 0 := rfl
    unfold toRat
    rw [hb, Nat.zero_mod, hzero, Option.map_some, mul_zero]
  · rw [if_neg h0, if_neg h0]
    have hq : 0 < |q| := abs_pos.mpr h0
    obtain ⟨hm, hlow, hhigh⟩ := magnitude_eq hq hlt
    have hdig := (digits_bounds hq).1
    have hsmall : magnitude |q| < 2 ^ 31 := by
      rw [hm]
      have : (lastDigit |q| + 149).toNat ≤ 252 := by omega
      omega
    have hval := ofMagnitude_magnitude hq hlt
    have hof : ∀ x : ℕ, x < 2 ^ 32 → (UInt32.ofNat x).toNat = x := fun x hx => UInt32.toNat_ofNat_of_lt' hx
    unfold toRat
    by_cases hneg : q < 0
    · have hmod : (2 ^ 31 + magnitude |q|) % 2 ^ 31 = magnitude |q| := by omega
      rw [if_pos hneg, if_pos hneg, hof _ (by omega), hmod, hval, Option.map_some, if_pos (Nat.le_add_right _ _)]
    · rw [if_neg hneg, if_neg hneg, Nat.zero_add, hof _ (by omega), Nat.mod_eq_of_lt hsmall, hval, Option.map_some,
        if_neg (by omega)]

/-! ### Natural numbers -/

/-- At most 24 binary digits from the leading one to the last one. -/
def Fits (n : ℕ) : Prop := 2 ^ (Nat.log2 n - 23) ∣ n

instance (n : ℕ) : Decidable (Fits n) := by
  unfold Fits; infer_instance

theorem leading_natCast {n : ℕ} (hn : n ≠ 0) : leading n = Nat.log2 n := by
  have hlog : Nat.log2 1 = 0 := by decide
  have hle : (2 : ℚ) ^ ((Nat.log2 n : ℕ) : ℤ) ≤ n := by
    rw [zpow_natCast]
    exact_mod_cast Nat.log2_self_le hn
  unfold leading
  dsimp only
  rw [Rat.num_natCast, Rat.den_natCast, Int.natAbs_natCast, hlog, Nat.cast_zero, sub_zero, if_pos hle]

/-- A natural number is rounded to itself when it has no more digits than are kept. -/
theorem round_natCast_eq_iff {n : ℕ} : round n = n ↔ Fits n := by
  unfold round Fits
  by_cases hn : n = 0
  · subst hn
    simp
  · have hq : (n : ℚ) ≠ 0 := Nat.cast_ne_zero.mpr hn
    have hnn : ¬ (n : ℚ) < 0 := not_lt.mpr (Nat.cast_nonneg n)
    have hlast : lastDigit n = (Nat.log2 n : ℤ) - 23 := by
      unfold lastDigit
      rw [leading_natCast hn]
      have : max ((Nat.log2 n : ℕ) : ℤ) (-126) = Nat.log2 n := max_eq_left (by omega)
      rw [this]
    have two : (2 : ℚ) ≠ 0 := two_ne_zero
    rw [if_neg hq, if_neg hnn, one_mul, abs_of_nonneg (Nat.cast_nonneg n)]
    unfold digits
    rw [hlast]
    rcases le_or_gt (Nat.log2 n) 23 with hsmall | hbig
    · -- all digits are kept
      have hsub : Nat.log2 n - 23 = 0 := by omega
      have hneg : (Nat.log2 n : ℤ) - 23 = -((23 - Nat.log2 n : ℕ) : ℤ) := by omega
      have hdiv : (n : ℚ) / 2 ^ ((Nat.log2 n : ℤ) - 23) = (n * 2 ^ (23 - Nat.log2 n) : ℕ) := by
        rw [hneg, zpow_neg, zpow_natCast, div_inv_eq_mul]
        push_cast
        ring
      rw [hsub, pow_zero, hdiv, roundEven_natCast, ← hdiv, div_mul_cancel₀ _ (zpow_ne_zero _ two)]
      simp
    · have hpos : (Nat.log2 n : ℤ) - 23 = ((Nat.log2 n - 23 : ℕ) : ℤ) := by omega
      rw [hpos, zpow_natCast]
      constructor
      · intro h
        refine ⟨roundEven (n / 2 ^ (Nat.log2 n - 23)), ?_⟩
        have : (n : ℚ) = (2 ^ (Nat.log2 n - 23) * roundEven (n / 2 ^ (Nat.log2 n - 23)) : ℕ) := by
          push_cast
          linarith
        exact_mod_cast this
      · rintro ⟨k, hk⟩
        have hdiv : (n : ℚ) / 2 ^ (Nat.log2 n - 23) = k := by
          have hcast : (n : ℚ) = 2 ^ (Nat.log2 n - 23) * k := by exact_mod_cast hk
          rw [div_eq_iff (pow_ne_zero _ two)]
          linarith
        rw [hdiv, roundEven_natCast, ← hdiv, div_mul_cancel₀ _ (pow_ne_zero _ two)]

/-- A natural number is rounded to a natural number. -/
theorem round_natCast (n : ℕ) : ∃ m : ℕ, round n = m := by
  by_cases hfits : Fits n
  · exact ⟨n, round_natCast_eq_iff.mpr hfits⟩
  · have hn : n ≠ 0 := by
      rintro rfl
      exact hfits (dvd_zero _)
    have hbig : 23 < Nat.log2 n := by
      by_contra hsmall
      apply hfits
      have hsub : Nat.log2 n - 23 = 0 := by omega
      simp [Fits, hsub]
    have hlast : lastDigit n = ((Nat.log2 n - 23 : ℕ) : ℤ) := by
      unfold lastDigit
      rw [leading_natCast hn]
      omega
    refine ⟨digits n * 2 ^ (Nat.log2 n - 23), ?_⟩
    unfold round
    rw [if_neg (Nat.cast_ne_zero.mpr hn), if_neg (not_lt.mpr (Nat.cast_nonneg n)), one_mul,
      abs_of_nonneg (Nat.cast_nonneg n), hlast, zpow_natCast]
    push_cast
    rfl

/-- Rounding does not go below 1. -/
theorem one_le_round {q : ℚ} (hq : 1 ≤ q) : 1 ≤ round q := by
  have hpos : 0 < q := by linarith
  obtain ⟨-, hlead⟩ := leading_spec hpos
  have hlt : (0 : ℤ) < leading q + 1 := by
    by_contra hle
    have hsmall : (2 : ℚ) ^ (leading q + 1) ≤ 2 ^ (0 : ℤ) := zpow_le_zpow_right₀ one_le_two (by omega)
    simp only [zpow_zero] at hsmall
    linarith
  have hlast : -23 ≤ lastDigit q := by
    unfold lastDigit
    omega
  have hdigits : (2 : ℚ) ^ (23 : ℤ) ≤ digits q := by
    have h := (digits_bounds hpos).2 (by omega)
    have hcast : ((2 ^ 23 : ℕ) : ℚ) ≤ digits q := Nat.cast_le.mpr h
    norm_num at hcast ⊢
    exact hcast
  unfold round
  rw [if_neg hpos.ne', if_neg hpos.not_gt, one_mul, abs_of_pos hpos]
  calc (1 : ℚ) = 2 ^ (23 : ℤ) * 2 ^ (-23 : ℤ) := by norm_num
    _ ≤ digits q * 2 ^ lastDigit q := by
        apply mul_le_mul hdigits (zpow_le_zpow_right₀ one_le_two hlast) (by positivity)
        positivity

theorem round_neg {q : ℚ} (hq : 0 < q) : round (-q) = -round q := by
  unfold round
  have hneg : -q < 0 := by linarith
  rw [if_neg hneg.ne, if_neg hq.ne', if_pos hneg, if_neg hq.not_gt, abs_neg, abs_of_pos hq]
  ring

end Binary32
