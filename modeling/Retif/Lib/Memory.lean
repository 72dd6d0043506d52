/-
# Numbers and fields in memory

A buffer is a list of bytes. `leBytes k x` are the low `k` bytes of a number,
the lowest first, `leNat` reads them back; `load` and `store` are a field of a
buffer at an offset. What a load gives after a store depends on whether the
field lies inside what was stored, before it or behind it.

Key definitions: `leBytes`, `leNat`, `load`, `store`, `Buf`.
Key theorems: `leNat_leBytes`, `leBytes_add`, `load_store_inside`,
`load_store_before`, `load_store_behind`, `prefix_of_flatten`.
-/
import Mathlib.Tactic

namespace Memory

/-! ### Little-endian numbers -/

/-- The low `k` bytes of `x`, the lowest first. -/
def leBytes : ℕ → ℕ → List UInt8
  | 0, _ => []
  | k + 1, x => UInt8.ofNat x :: leBytes k (x / 256)

/-- The number with the bytes `bs`, the lowest first. -/
def leNat : List UInt8 → ℕ
  | [] => 0
  | b :: bs => b.toNat + 256 * leNat bs

@[simp] theorem leBytes_length (k x : ℕ) : (leBytes k x).length = k := by
  induction k generalizing x with
  | zero => rfl
  | succ k ih => simp [leBytes, ih]

/-- Reading back what was written loses what did not fit. -/
theorem leNat_leBytes (k x : ℕ) : leNat (leBytes k x) = x % 256 ^ k := by
  induction k generalizing x with
  | zero => simp [leBytes, leNat, Nat.mod_one]
  | succ k ih =>
    have hbyte : (UInt8.ofNat x).toNat = x % 256 := UInt8.toNat_ofNat'
    calc leNat (leBytes (k + 1) x) = x % 256 + 256 * (x / 256 % 256 ^ k) := by
          simp only [leBytes, leNat, hbyte, ih]
      _ = x % (256 * 256 ^ k) := (Nat.mod_mul).symm
      _ = x % 256 ^ (k + 1) := by rw [pow_succ']

/-- The bytes of a number are its low ones, then its high ones. -/
theorem leBytes_add (j k x : ℕ) : leBytes (j + k) x = leBytes j x ++ leBytes k (x / 256 ^ j) := by
  induction j generalizing x with
  | zero => simp [leBytes]
  | succ j ih =>
    have hsplit : j + 1 + k = (j + k) + 1 := by omega
    have hdiv : x / 256 / 256 ^ j = x / 256 ^ (j + 1) := by rw [Nat.div_div_eq_div_mul, pow_succ']
    rw [hsplit]
    simp only [leBytes, List.cons_append]
    rw [ih, hdiv]

/-! ### Fields -/

/-- The `n` bytes at offset `off`. -/
def load (b : List UInt8) (off n : ℕ) : List UInt8 := (b.drop off).take n

/-- The buffer with `bs` at offset `off`. -/
def store (b : List UInt8) (off : ℕ) (bs : List UInt8) : List UInt8 :=
  b.take off ++ bs ++ b.drop (off + bs.length)

section Fields

variable {b bs : List UInt8} {off n k : ℕ}

theorem load_length (h : off + n ≤ b.length) : (load b off n).length = n := by
  simp only [load, List.length_take, List.length_drop]
  omega

theorem store_length (h : off + bs.length ≤ b.length) : (store b off bs).length = b.length := by
  simp only [store, List.length_append, List.length_take, List.length_drop]
  omega

theorem load_getElem? (b : List UInt8) (off n i : ℕ) :
    (load b off n)[i]? = if i < n then b[off + i]? else none := by
  unfold load
  rw [List.getElem?_take]
  split
  · rw [List.getElem?_drop]
  · rfl

theorem store_getElem? (h : off ≤ b.length) (i : ℕ) :
    (store b off bs)[i]? = if i < off then b[i]? else if i < off + bs.length then bs[i - off]? else b[i]? := by
  have hlen : (b.take off).length = off := by
    rw [List.length_take]
    omega
  unfold store
  rw [List.append_assoc]
  by_cases h1 : i < off
  · rw [if_pos h1, List.getElem?_append_left (by omega), List.getElem?_take_of_lt h1]
  · rw [if_neg h1, List.getElem?_append_right (by omega), hlen]
    by_cases h2 : i < off + bs.length
    · rw [if_pos h2, List.getElem?_append_left (by omega)]
    · have hback : off + bs.length + (i - off - bs.length) = i := by omega
      rw [if_neg h2, List.getElem?_append_right (by omega), List.getElem?_drop, hback]

/-- A field inside what was stored. -/
theorem load_store_inside (h : off ≤ b.length) (hn : k + n ≤ bs.length) :
    load (store b off bs) (off + k) n = load bs k n := by
  refine List.ext_getElem? ?_
  intro i
  rw [load_getElem?, load_getElem?]
  split
  · have hidx : off + k + i - off = k + i := by omega
    rw [store_getElem? h, if_neg (by omega), if_pos (by omega), hidx]
  · rfl

/-- A field before what was stored. -/
theorem load_store_before (h : off ≤ b.length) (hn : k + n ≤ off) :
    load (store b off bs) k n = load b k n := by
  refine List.ext_getElem? ?_
  intro i
  rw [load_getElem?, load_getElem?]
  split
  · rw [store_getElem? h, if_pos (by omega)]
  · rfl

/-- A field behind what was stored. -/
theorem load_store_behind (h : off ≤ b.length) (hn : off + bs.length ≤ k) :
    load (store b off bs) k n = load b k n := by
  refine List.ext_getElem? ?_
  intro i
  rw [load_getElem?, load_getElem?]
  split
  · rw [store_getElem? h, if_neg (by omega), if_neg (by omega)]
  · rfl

theorem load_append_left {x y : List UInt8} (h : k + n ≤ x.length) : load (x ++ y) k n = load x k n := by
  refine List.ext_getElem? ?_
  intro i
  rw [load_getElem?, load_getElem?]
  split
  · rw [List.getElem?_append_left (by omega)]
  · rfl

theorem load_append_right {x y : List UInt8} : load (x ++ y) (x.length + k) n = load y k n := by
  refine List.ext_getElem? ?_
  intro i
  rw [load_getElem?, load_getElem?]
  split
  · have hidx : x.length + k + i - x.length = k + i := by omega
    rw [List.getElem?_append_right (by omega), hidx]
  · rfl

theorem load_all (x : List UInt8) : load x 0 x.length = x := by
  simp [load]

/-- The bytes up to the end of what was stored. -/
theorem load_store_end (h : off ≤ b.length) : load (store b off bs) 0 (off + bs.length) = load b 0 off ++ bs := by
  have hlen : (b.take off ++ bs).length = off + bs.length := by
    rw [List.length_append, List.length_take, Nat.min_eq_left h]
  unfold load store
  rw [List.drop_zero, List.drop_zero, ← hlen, List.take_left]

/-- The first bytes of a field, and the rest of it. -/
theorem load_take (b : List UInt8) (off : ℕ) (h : k ≤ n) : (load b off n).take k = load b off k := by
  rw [load, load, List.take_take, Nat.min_eq_left h]

theorem load_drop (b : List UInt8) (off n k : ℕ) : (load b off n).drop k = load b (off + k) (n - k) := by
  rw [load, load, List.drop_take, List.drop_drop]

theorem store_all (h : bs.length = b.length) : store b 0 bs = bs := by
  simp [store, h]

end Fields

/-! ### Records in a stream -/

/-- Records of one size are found in a stream where they were put. -/
theorem prefix_of_flatten {n : ℕ} (hn : 0 < n) : ∀ {xs ys : List (List UInt8)},
    (∀ x ∈ xs, x.length = n) → (∀ y ∈ ys, y.length = n) → xs.flatten <+: ys.flatten → xs <+: ys
  | [], ys, _, _, _ => List.nil_prefix
  | x :: xs, [], hx, _, h => by
    have hlen := h.length_le
    have := hx x (List.mem_cons_self ..)
    simp only [List.flatten_cons, List.length_append, List.flatten_nil, List.length_nil] at hlen
    omega
  | x :: xs, y :: ys, hx, hy, h => by
    obtain ⟨rest, hrest⟩ := h
    rw [List.flatten_cons, List.flatten_cons, List.append_assoc] at hrest
    have hlen : x.length = y.length := by
      rw [hx x (List.mem_cons_self ..), hy y (List.mem_cons_self ..)]
    obtain ⟨hxy, htail⟩ := List.append_inj hrest hlen
    have ih := prefix_of_flatten hn (fun z hz => hx z (List.mem_cons_of_mem x hz))
      (fun z hz => hy z (List.mem_cons_of_mem y hz)) ⟨rest, htail⟩
    rw [hxy]
    exact (List.prefix_cons_inj y).mpr ih

/-- The bytes of records of one size. -/
theorem flatten_length {n : ℕ} {xs : List (List UInt8)} (h : ∀ x ∈ xs, x.length = n) :
    xs.flatten.length = n * xs.length := by
  induction xs with
  | nil => simp
  | cons x xs ih =>
    have hrest := ih fun z hz => h z (List.mem_cons_of_mem x hz)
    calc (x :: xs).flatten.length = x.length + xs.flatten.length := by simp
      _ = n + n * xs.length := by rw [h x (List.mem_cons_self ..), hrest]
      _ = n * (x :: xs).length := by rw [List.length_cons, Nat.mul_succ, Nat.add_comm]

/-- The first records, and the rest of them. -/
theorem take_flatten {n : ℕ} (k : ℕ) {xs : List (List UInt8)} (h : ∀ x ∈ xs, x.length = n) :
    xs.flatten.take (k * n) = (xs.take k).flatten := by
  induction k generalizing xs with
  | zero => simp
  | succ k ih =>
    rcases xs with _ | ⟨x, xs⟩
    · simp
    · have hx := h x (List.mem_cons_self ..)
      have hsplit : (k + 1) * n = x.length + k * n := by rw [hx, Nat.succ_mul, Nat.add_comm]
      rw [List.flatten_cons, hsplit, List.take_length_add_append, ih fun z hz => h z (List.mem_cons_of_mem x hz),
        List.take_succ_cons, List.flatten_cons]

theorem drop_flatten {n : ℕ} (k : ℕ) {xs : List (List UInt8)} (h : ∀ x ∈ xs, x.length = n) :
    xs.flatten.drop (k * n) = (xs.drop k).flatten := by
  induction k generalizing xs with
  | zero => simp
  | succ k ih =>
    rcases xs with _ | ⟨x, xs⟩
    · simp
    · have hx := h x (List.mem_cons_self ..)
      have hsplit : (k + 1) * n = x.length + k * n := by rw [hx, Nat.succ_mul, Nat.add_comm]
      rw [List.flatten_cons, hsplit, List.drop_length_add_append, ih fun z hz => h z (List.mem_cons_of_mem x hz),
        List.drop_succ_cons]

/-! ### Buffers of a fixed size -/

/-- A buffer of `n` bytes. -/
abbrev Buf (n : ℕ) := {b : List UInt8 // b.length = n}

/-- The buffer of all zeros. -/
def Buf.zero (n : ℕ) : Buf n := ⟨List.replicate n 0, by simp⟩

/-- Storing what fits keeps the size. -/
def Buf.store {n : ℕ} (b : Buf n) (off : ℕ) (bs : List UInt8) (h : off + bs.length ≤ n) : Buf n :=
  ⟨Memory.store b.1 off bs, by rw [store_length (by rw [b.2]; exact h), b.2]⟩

/-- The number in the `k` bytes at an offset. -/
def Buf.num {n : ℕ} (b : Buf n) (off k : ℕ) : ℕ := leNat (load b.1 off k)

section Buffers

variable {n off k j : ℕ} {bs : List UInt8} {b : Buf n}

/-- The number just stored. -/
theorem Buf.num_store_self {x : ℕ} (h : off + (leBytes k x).length ≤ n) :
    (b.store off (leBytes k x) h).num off k = x % 256 ^ k := by
  have hl := leBytes_length k x
  have hoff : off ≤ b.1.length := by
    rw [b.2]
    omega
  calc leNat (load (Memory.store b.1 off (leBytes k x)) (off + 0) k)
      = leNat (load (leBytes k x) 0 k) := by rw [load_store_inside hoff (by omega)]
    _ = leNat (leBytes k x) := by
        have := load_all (leBytes k x)
        rw [hl] at this
        rw [this]
    _ = x % 256 ^ k := leNat_leBytes k x

theorem Buf.num_store_before (h : off + bs.length ≤ n) (hk : j + k ≤ off) :
    (b.store off bs h).num j k = b.num j k := by
  have hoff : off ≤ b.1.length := by
    rw [b.2]
    omega
  exact congrArg leNat (load_store_before hoff hk)

theorem Buf.num_store_behind (h : off + bs.length ≤ n) (hk : off + bs.length ≤ j) :
    (b.store off bs h).num j k = b.num j k := by
  have hoff : off ≤ b.1.length := by
    rw [b.2]
    omega
  exact congrArg leNat (load_store_behind hoff hk)

end Buffers

end Memory
