/-
# Strings of C

A string is the bytes before the first NUL. `strtok` cuts a string at the
bytes of a set, `strtol` reads a decimal number at the start of one and clamps
what does not fit in 64 bits.

Key definitions: `cstr`, `tokens`, `Conversion`, `strtol`.
Key theorems: `tokens_free`, `tokens_single`, `tokens_append`, `strtol_nonneg`, `strtol_digits`.
-/
import Mathlib.Tactic
import Mathlib.Data.List.TakeWhile

namespace CString

/-- The string in a buffer: what comes before the first NUL. -/
def cstr (bs : List UInt8) : List UInt8 := bs.takeWhile (· ≠ 0)

/-- The turns of `strtok_r`: each token, and the delimiter it was cut at. -/
def tokensFrom (delim : List UInt8) : ℕ → List UInt8 → List (List UInt8 × Option UInt8)
  | 0, _ => []
  | fuel + 1, s =>
    match s.dropWhile (· ∈ delim) with
    | [] => []
    | s =>
      let token := s.takeWhile (· ∉ delim)
      let rest := s.dropWhile (· ∉ delim)
      (token, rest.head?) :: tokensFrom delim fuel rest.tail

/-- The tokens of a string; each takes a byte at least. -/
def tokens (delim s : List UInt8) : List (List UInt8 × Option UInt8) := tokensFrom delim s.length s

/-- What `strtol` or `strtod` gives: the value, whether any byte was used, and
whether `errno` was set. -/
structure Conversion (α : Type) where
  value : α
  used : Bool
  range : Bool

/-- `isspace` in the C locale. -/
def isspace (b : UInt8) : Bool := b == 32 || (9 ≤ b && b ≤ 13)

def isdigit (b : UInt8) : Bool := 48 ≤ b && b ≤ 57

/-- The number a run of digits stands for. -/
def number (ds : List UInt8) : ℕ := ds.foldl (fun n d => 10 * n + (d.toNat - 48)) 0

/-- A `long` is clamped, and `errno` set, where the number does not fit. -/
def clamp (n : ℤ) : ℤ × Bool :=
  if n > 2 ^ 63 - 1 then (2 ^ 63 - 1, true) else if n < -2 ^ 63 then (-2 ^ 63, true) else (n, false)

/-- `strtol`, base 10. -/
def strtol (s : List UInt8) : Conversion ℤ :=
  let s := s.dropWhile isspace
  let negative := s.head? = some 45
  let s := if s.head? = some 43 ∨ s.head? = some 45 then s.tail else s
  let ds := s.takeWhile isdigit
  let (value, range) := clamp (if negative then -(number ds : ℤ) else number ds)
  ⟨value, !ds.isEmpty, range⟩

/-- A buffer without a NUL is its own string. -/
theorem cstr_eq_self {bs : List UInt8} (h : ∀ b ∈ bs, b ≠ 0) : cstr bs = bs :=
  List.takeWhile_eq_self_iff.mpr fun b hb => by simpa using h b hb

section Tokens

variable {delim : List UInt8}

theorem tokensFrom_free {fuel : ℕ} {s : List UInt8} : ∀ t ∈ tokensFrom delim fuel s, ∀ b ∈ t.1, b ∉ delim := by
  induction fuel generalizing s with
  | zero => simp [tokensFrom]
  | succ fuel ih =>
    intro t ht
    unfold tokensFrom at ht
    split at ht
    · exact absurd ht List.not_mem_nil
    · rcases List.mem_cons.mp ht with rfl | ht
      · intro b hb
        simpa using List.mem_takeWhile_imp hb
      · exact ih t ht

/-- A token has no delimiter in it. -/
theorem tokens_free {s : List UInt8} : ∀ t ∈ tokens delim s, ∀ b ∈ t.1, b ∉ delim := tokensFrom_free

/-- A turn for each byte is enough. -/
theorem tokensFrom_eq {fuel : ℕ} {s : List UInt8} (h : s.length ≤ fuel) : tokensFrom delim fuel s = tokens delim s := by
  unfold tokens
  generalize hturns : s.length = turns
  have hlen : s.length ≤ turns := hturns.le
  clear hturns
  induction fuel generalizing s turns with
  | zero =>
    obtain rfl : s = [] := List.length_eq_zero_iff.mp (by omega)
    cases turns <;> rfl
  | succ fuel ih =>
    rcases turns with _ | turns
    · obtain rfl : s = [] := List.length_eq_zero_iff.mp (by omega)
      rfl
    · unfold tokensFrom
      have hskip := (List.dropWhile_suffix (l := s) (fun b => decide (b ∈ delim))).length_le
      generalize s.dropWhile (· ∈ delim) = t at hskip
      rcases t with _ | ⟨b, t⟩
      · rfl
      · have htoken := (List.dropWhile_suffix (l := b :: t) (fun b => decide (b ∉ delim))).length_le
        have htail : ((b :: t).dropWhile (· ∉ delim)).tail.length ≤ t.length := by
          rw [List.length_tail]
          simp only [List.length_cons] at htoken
          omega
        simp only [List.length_cons] at hskip
        dsimp only
        rw [ih (by omega) turns (by omega)]

@[simp] theorem tokens_nil : tokens delim [] = [] := rfl

section Free

variable {t : List UInt8} (ht : t ≠ []) (hfree : ∀ b ∈ t, b ∉ delim)
include ht hfree

theorem dropWhile_free (rest : List UInt8) : (t ++ rest).dropWhile (· ∈ delim) = t ++ rest := by
  obtain ⟨b, t, rfl⟩ := List.exists_cons_of_ne_nil ht
  have hb := hfree b (List.mem_cons_self ..)
  simp [hb]

/-- A string without a delimiter is one token. -/
theorem tokens_single : tokens delim t = [(t, none)] := by
  have hskip := dropWhile_free ht hfree []
  have hall : ∀ b ∈ t, decide (b ∉ delim) = true := fun b hb => decide_eq_true (hfree b hb)
  rw [List.append_nil] at hskip
  obtain ⟨n, hn⟩ := Nat.exists_eq_succ_of_ne_zero (List.length_pos_iff.mpr ht).ne'
  unfold tokens
  rw [hn, tokensFrom, hskip]
  rcases t with _ | ⟨b, t⟩
  · exact absurd rfl ht
  · dsimp only
    rw [List.takeWhile_eq_self_iff.mpr hall, List.dropWhile_eq_nil_iff.mpr hall]
    cases n <;> rfl

/-- A token before a delimiter is the first one; the rest of the string gives the others. -/
theorem tokens_append {d : UInt8} (hd : d ∈ delim) (rest : List UInt8) :
    tokens delim (t ++ d :: rest) = (t, some d) :: tokens delim rest := by
  have hskip := dropWhile_free ht hfree (d :: rest)
  have hall : ∀ b ∈ t, decide (b ∉ delim) = true := fun b hb => decide_eq_true (hfree b hb)
  have hlen : (t ++ d :: rest).length = (t.length + rest.length) + 1 := by simp [Nat.add_assoc]
  have htake : (t ++ d :: rest).takeWhile (· ∉ delim) = t := by
    rw [List.takeWhile_append_of_pos hall]
    simp [hd]
  have hdrop : (t ++ d :: rest).dropWhile (· ∉ delim) = d :: rest := by
    rw [List.dropWhile_append_of_pos hall]
    simp [hd]
  unfold tokens
  rw [hlen, tokensFrom, hskip]
  rcases hs : t ++ d :: rest with _ | ⟨b, s⟩
  · simp at hs
  · dsimp only
    rw [← hs, htake, hdrop]
    exact congrArg _ (tokensFrom_eq (by simp))

end Free

end Tokens

/-- Without a minus sign the number is not negative. -/
theorem strtol_nonneg {s : List UInt8} (h : 45 ∉ s) : 0 ≤ (strtol s).value := by
  have hhead : ¬ (s.dropWhile isspace).head? = some 45 := by
    intro hh
    exact h ((List.dropWhile_suffix _).subset (List.mem_of_mem_head? hh))
  simp only [strtol, hhead, if_false, clamp]
  split_ifs <;> simp <;> omega

/-! ### Digits -/

theorem isdigit_ne {b c : UInt8} (hb : isdigit b = true) (hc : isdigit c = false) : b ≠ c := by
  rintro rfl
  simp [hb] at hc

theorem isspace_of_isdigit {b : UInt8} (hb : isdigit b = true) : isspace b = false := by
  simp only [isdigit, isspace, Bool.and_eq_true, Bool.or_eq_false_iff, Bool.and_eq_false_iff, decide_eq_true_eq,
    decide_eq_false_iff_not, beq_eq_false_iff_ne, UInt8.le_iff_toNat_le, ne_eq, ← UInt8.toNat_inj] at hb ⊢
  have h1 : (9 : UInt8).toNat = 9 := rfl
  have h2 : (13 : UInt8).toNat = 13 := rfl
  have h3 : (32 : UInt8).toNat = 32 := rfl
  have h4 : (48 : UInt8).toNat = 48 := rfl
  omega

section Strtol

variable {ds : List UInt8} (hne : ds ≠ []) (hdigits : ∀ d ∈ ds, isdigit d = true)
include hne hdigits

/-- **The number of a run of digits**, where it fits. -/
theorem strtol_digits (hfit : number ds < 2 ^ 63) : strtol ds = ⟨number ds, true, false⟩ := by
  obtain ⟨d, ds', rfl⟩ := List.exists_cons_of_ne_nil hne
  have hd := hdigits d (List.mem_cons_self ..)
  have hspace : (d :: ds').dropWhile isspace = d :: ds' := by simp [isspace_of_isdigit hd]
  have hplus : ¬ some d = some 43 := by simpa using isdigit_ne hd (by decide)
  have hminus : ¬ some d = some 45 := by simpa using isdigit_ne hd (by decide)
  have hclamp : clamp (number (d :: ds')) = ((number (d :: ds') : ℤ), false) := by
    unfold clamp
    rw [if_neg (by omega), if_neg (by omega)]
  simp only [strtol, hspace, List.head?_cons, hplus, hminus, or_self, if_false,
    List.takeWhile_eq_self_iff.mpr hdigits, hclamp, List.isEmpty_cons, Bool.not_false]

theorem strtol_plus (hfit : number ds < 2 ^ 63) : strtol (43 :: ds) = ⟨number ds, true, false⟩ := by
  have hspace : (43 :: ds).dropWhile isspace = 43 :: ds := rfl
  have hclamp : clamp (number ds) = ((number ds : ℤ), false) := by
    unfold clamp
    rw [if_neg (by omega), if_neg (by omega)]
  simp [strtol, hspace, List.takeWhile_eq_self_iff.mpr hdigits, hclamp, hne]

theorem strtol_minus (hfit : number ds ≤ 2 ^ 63) : strtol (45 :: ds) = ⟨-number ds, true, false⟩ := by
  have hspace : (45 :: ds).dropWhile isspace = 45 :: ds := rfl
  have hclamp : clamp (-number ds) = (-(number ds : ℤ), false) := by
    unfold clamp
    rw [if_neg (by omega), if_neg (by omega)]
  simp [strtol, hspace, List.takeWhile_eq_self_iff.mpr hdigits, hclamp, hne]

end Strtol

end CString
