/-
# Numbers as C prints them

`%ld`: the digits of a number, most significant first, behind a minus sign if
it is negative. `strtol` reads back every `long` that is printed like this.

Key definitions: `decimal`, `printLong`.
Key theorems: `number_decimal`, `strtol_printLong`, `cstr_printLong`, `strtol_long`.
-/
import Retif.Lib.CString
import Mathlib.Data.Nat.Digits.Lemmas

namespace CString

/-- The character of a digit. -/
def digitChar (d : ℕ) : UInt8 := UInt8.ofNat (48 + d)

/-- The digits of a number; 0 has one. -/
def decimal (n : ℕ) : List UInt8 := if n = 0 then [48] else (Nat.digits 10 n).reverse.map digitChar

/-- `%ld`. -/
def printLong (v : ℤ) : List UInt8 := if v < 0 then 45 :: decimal v.natAbs else decimal v.natAbs

theorem toNat_digitChar {d : ℕ} (hd : d < 10) : (digitChar d).toNat = 48 + d := by
  unfold digitChar
  rw [UInt8.toNat_ofNat']
  omega

theorem isdigit_digitChar {d : ℕ} (hd : d < 10) : isdigit (digitChar d) = true := by
  have hval := toNat_digitChar hd
  have h48 : (48 : UInt8).toNat = 48 := rfl
  have h57 : (57 : UInt8).toNat = 57 := rfl
  simp only [isdigit, Bool.and_eq_true, decide_eq_true_eq, UInt8.le_iff_toNat_le]
  omega

theorem decimal_ne_nil (n : ℕ) : decimal n ≠ [] := by
  unfold decimal
  split
  · simp
  · rename_i hn
    simpa [Nat.digits_eq_nil_iff_eq_zero] using hn

theorem decimal_digits (n : ℕ) : ∀ b ∈ decimal n, isdigit b = true := by
  unfold decimal
  split
  · simp only [List.mem_singleton]
    rintro b rfl
    decide
  · intro b hb
    obtain ⟨d, hd, rfl⟩ := List.mem_map.mp hb
    exact isdigit_digitChar (Nat.digits_lt_base (by norm_num) (List.mem_reverse.mp hd))

/-- Reading digits off from the front adds them up. -/
theorem number_map {ds : List ℕ} (hds : ∀ d ∈ ds, d < 10) :
    number (ds.map digitChar) = Nat.ofDigits 10 ds.reverse := by
  unfold number
  rw [List.foldl_map, Nat.ofDigits_eq_foldr, List.foldr_reverse]
  refine List.foldl_ext _ _ _ ?_
  intro n d hd
  rw [toNat_digitChar (hds d hd)]
  push_cast
  omega

theorem number_decimal (n : ℕ) : number (decimal n) = n := by
  unfold decimal
  split
  · rename_i hn
    rw [hn]
    decide
  · rw [number_map, List.reverse_reverse, Nat.ofDigits_digits]
    intro d hd
    exact Nat.digits_lt_base (by norm_num) (List.mem_reverse.mp hd)

/-- **What is printed is read back.** -/
theorem strtol_printLong {v : ℤ} (h : -2 ^ 63 ≤ v ∧ v < 2 ^ 63) : strtol (printLong v) = ⟨v, true, false⟩ := by
  unfold printLong
  split
  · rw [strtol_minus (decimal_ne_nil _) (decimal_digits _)]
    · rw [number_decimal]
      congr
      omega
    · rw [number_decimal]
      omega
  · rw [strtol_digits (decimal_ne_nil _) (decimal_digits _)]
    · rw [number_decimal]
      congr
      omega
    · rw [number_decimal]
      omega

/-- A printed number is digits, and a minus sign at most. -/
theorem printLong_mem {v : ℤ} {b : UInt8} (hb : b ∈ printLong v) : b = 45 ∨ isdigit b = true := by
  unfold printLong at hb
  split at hb
  · rcases List.mem_cons.mp hb with rfl | hb
    · exact .inl rfl
    · exact .inr (decimal_digits _ b hb)
  · exact .inr (decimal_digits _ b hb)

theorem cstr_printLong (v : ℤ) : cstr (printLong v) = printLong v := by
  apply cstr_eq_self
  intro b hb
  rcases printLong_mem hb with rfl | hdigit
  · decide
  · exact isdigit_ne hdigit (by decide)

/-- What `strtol` gives is a `long`. -/
theorem strtol_long (s : List UInt8) : -2 ^ 63 ≤ (strtol s).value ∧ (strtol s).value < 2 ^ 63 := by
  unfold strtol clamp
  dsimp only
  split_ifs <;> dsimp only <;> omega

end CString
