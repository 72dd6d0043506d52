/-
# Calls on a vector that fail

What a call on a vector that returns something else than 0 has done. Nothing,
but for two: `vector_shrink_to_fit` of an empty vector asks `reallocarray` for
no bytes, which gives the block back and returns null all the same; and
`vector_insert_ncopies` may get memory for the first copy and none for the
second (`failed_iff`).

Key definitions: `Untouched`, `Harmless`, `GrowthRefused`, `StopsHalfway`, `Spoils`.
Key theorems: `reserve_grow`, `insertNcopies_fails`, `failed_iff`.
-/
import Retif.VectorRuns

namespace Retif

namespace Vectors

open Blocks Memory

/-- Size, capacity and items are the same, and the block is there just as before. -/
structure Untouched (v v' : Vec) : Prop where
  size : v'.size = v.size
  capacity : v'.capacity = v.capacity
  items : v'.items = v.items
  block : v'.data = .freed ↔ v.data = .freed

/-- If the call fails, it has done nothing. -/
def Harmless (grants : Grants) (v : Vec) (calls : ℕ) (op : Op) : Prop :=
  ∀ res v' calls', exec grants (v, calls) op = .ok (res, v', calls') → res ≠ 0 → Untouched v v'

/-- The call of `reallocarray` for just one item more than `cap`, in a row that starts with `k`. -/
def lastChance (k cap : ℕ) : ℕ := if 1 < cap then k + 1 else k

/-- For a full vector of `cap` items that is to grow by one there is no memory,
from the call `k` of `reallocarray` on. -/
def GrowthRefused (grants : Grants) (k cap itemSize : ℕ) : Prop :=
  (1 < cap → Refused grants k (cap * 2) itemSize) ∧ Refused grants (lastChance k cap) (cap + 1) itemSize

/-- One item more makes the vector full, and there is no memory for a second. -/
def StopsHalfway (grants : Grants) (v : Vec) (calls : ℕ) : Prop :=
  v.capacity = v.size + 1 ∧ GrowthRefused grants calls v.capacity v.itemSize ∨
    v.capacity = v.size ∧ (1 < v.capacity → Refused grants calls (v.capacity * 2) v.itemSize) ∧
      ¬ Refused grants (lastChance calls v.capacity) (v.capacity + 1) v.itemSize ∧
        GrowthRefused grants (lastChance calls v.capacity + 1) (v.capacity + 1) v.itemSize

/-- The two failures that leave something behind. -/
def Spoils (grants : Grants) (v : Vec) (calls : ℕ) : Op → Prop
  | .shrinkToFit => v.size = 0 ∧ v.capacity ≠ 0
  | .insertNcopies pos count _ => pos = v.size ∧ 2 ≤ count ∧ StopsHalfway grants v calls
  | _ => False

section Spec

variable {grants : Grants} {v : Vec} {calls : ℕ} {op : Op}

theorem Untouched.refl (v : Vec) : Untouched v v := ⟨rfl, rfl, rfl, Iff.rfl⟩

/-- The items of a sound vector. -/
theorem Sound.holds (hv : Sound v) : Holds v v.items := by
  have hend := hv.end_le
  have hroom := hv.room
  have hblocks : ∀ k, load v.data.bytes 0 (k * v.itemSize) =
      ((List.range k).map fun i => load v.data.bytes (i * v.itemSize) v.itemSize).flatten := by
    intro k
    induction k with
    | zero => simp [load]
    | succ k ih =>
      rw [List.range_succ, List.map_append, List.flatten_append, ← ih, List.map_singleton, List.flatten_singleton,
        Nat.succ_mul, load, load, load, List.drop_zero, List.take_add]
  refine ⟨hblocks v.size, by simp [Vec.items], ?_⟩
  intro x hx
  obtain ⟨i, hi, rfl⟩ := List.mem_map.mp hx
  have hone : i * v.itemSize + v.itemSize ≤ v.size * v.itemSize := by
    rw [← Nat.succ_mul]
    exact Nat.mul_le_mul_right _ (List.mem_range.mp hi)
  exact load_length (by omega)

/-! ### Growing by one -/

/-- **A full vector grows by one**: to twice the capacity, to just what is needed,
or not at all. -/
theorem reserve_grow (hv : Sound v) (grants : Grants) (calls : ℕ) :
    (GrowthRefused grants calls v.capacity v.itemSize ∧
      ∃ calls', vectorReserve grants v calls (v.capacity + 1) = .ok (1, v, calls')) ∨
    (1 < v.capacity ∧ ¬ Refused grants calls (v.capacity * 2) v.itemSize ∧ ∃ v',
      vectorReserve grants v calls (v.capacity + 1) = .ok (0, v', calls + 1) ∧ Sound v' ∧
        v'.capacity = v.capacity * 2 ∧ SameItems v v') ∨
    ((1 < v.capacity → Refused grants calls (v.capacity * 2) v.itemSize) ∧
      ¬ Refused grants (lastChance calls v.capacity) (v.capacity + 1) v.itemSize ∧ ∃ v',
        vectorReserve grants v calls (v.capacity + 1) = .ok (0, v', lastChance calls v.capacity + 1) ∧ Sound v' ∧
          v'.capacity = v.capacity + 1 ∧ SameItems v v') := by
  have hword : v.capacity * 2 % 2 ^ 64 = v.capacity * 2 := by
    have hfits := hv.fits
    have hsmall : v.capacity * 1 ≤ v.capacity * v.itemSize := Nat.mul_le_mul_left _ hv.item
    omega
  have hover : v.capacity + 1 < v.capacity * 2 ↔ 1 < v.capacity := by omega
  have hcases := reserve_cases hv grants calls (Nat.lt_succ_self v.capacity)
  simp only [hword, Nat.succ_eq_add_one, hover] at hcases
  rcases hcases with ⟨hno, hno', hrun⟩ | hdouble | hexact
  · exact .inl ⟨⟨hno, hno'⟩, _, hrun⟩
  · exact .inr (.inl hdouble)
  · exact .inr (.inr hexact)

/-! ### Insertions -/

theorem insertMulti_fails {pos first last res calls' : ℕ} {src : ℕ → UInt8} {v' : Vec} (hv : Sound v)
    (h : vectorInsertMulti grants v calls pos src first last = .ok (res, v', calls')) (hres : res ≠ 0) : v' = v := by
  unfold vectorInsertMulti at h
  dsimp only at h
  split_ifs at h with heq hgt hpos hwrap
  · cases h
    exact absurd rfl hres
  · cases h
    rfl
  · cases h
    rfl
  · cases h
    rfl
  · obtain ⟨calls'', ⟨-, hno, -⟩ | ⟨v'', hyes, -⟩⟩ :=
      reserve_spec hv grants calls ((v.size + vectorAddrDiff first last / v.itemSize) % 2 ^ 64)
    · simp only [hno, ok_bind, ne_eq, one_ne_zero, not_false_eq_true, if_true] at h
      cases h
      rfl
    · -- with room for the items it returns 0, or not at all
      simp only [hyes, ok_bind, ne_eq, not_true_eq_false, if_false] at h
      obtain ⟨data, -, h⟩ := bind_ok.mp h
      obtain ⟨data', -, h⟩ := bind_ok.mp h
      cases h
      exact absurd rfl hres

/-- A copy at the end is refused, or put there; then the vector is full without
memory for another just if it `StopsHalfway`. -/
theorem insert_last_cases (hv : Sound v) (grants : Grants) (calls : ℕ) (value : ℕ → UInt8) :
    (¬ StopsHalfway grants v calls ∧ ∃ calls', vectorInsert grants v calls v.size value = .ok (1, v, calls')) ∨
    ∃ v' calls', vectorInsert grants v calls v.size value = .ok (0, v', calls') ∧ Sound v' ∧ v'.size = v.size + 1 ∧
      (StopsHalfway grants v calls ↔ v'.capacity = v'.size ∧ GrowthRefused grants calls' v'.capacity v'.itemSize) := by
  have hone : v.size + (v.itemSize - 0) / v.itemSize = v.size + 1 := by rw [Nat.sub_zero, Nat.div_self hv.item]
  have hsize := hv.size_le
  have hput : ∀ {v' : Vec} {calls' : ℕ}, vectorReserve grants v calls (v.size + 1) = .ok (0, v', calls') → Sound v' →
      v.size + 1 ≤ v'.capacity → SameItems v v' → ∃ v'', vectorInsert grants v calls v.size value = .ok (0, v'', calls') ∧
        Sound v'' ∧ v''.size = v.size + 1 ∧ v''.itemSize = v.itemSize ∧ v''.capacity = v'.capacity := by
    intro v' calls' hres hv' hcap hsame
    obtain ⟨v'', hrun, hv'', hitem, hcap', hholds⟩ := @insertMulti_reserved grants v v' calls 0 v.itemSize _ value calls'
      [bytesBetween value 0 v.itemSize] hv hv.holds hv' hsame hcap hres (by simp) (by simp) hv.item
    refine ⟨v'', hrun, hv'', ?_, hitem, hcap'⟩
    rw [← hholds.count, List.length_append, hv.holds.count, List.length_singleton]
  rcases hsize.eq_or_lt with hfull | hroom
  · rw [hfull] at hput
    rcases reserve_grow hv grants calls with ⟨hno, calls', hres⟩ | ⟨h1, hyes, v', hres, hv', hcap, hsame⟩ |
      ⟨hover, hyes, v', hres, hv', hcap, hsame⟩
    · refine .inl ⟨?_, calls', ?_⟩
      · rintro (⟨hlt, -⟩ | ⟨-, -, hyes, -⟩)
        · omega
        · exact hyes hno.2
      · have hlt := hv.size_lt
        have hword := hv.word
        rw [vectorInsert, insertMulti_eq hv.item le_rfl (by omega) (by omega), hone, hfull, hres]
        rfl
    · obtain ⟨v'', hrun, hv'', hsize', hitem, hcap'⟩ := hput hres hv' (by omega) hsame
      refine .inr ⟨v'', _, hfull ▸ hrun, hv'', by omega, iff_of_false ?_ ?_⟩
      · rintro (⟨hlt, -⟩ | ⟨-, hno, -⟩)
        · omega
        · exact hyes (hno h1)
      · rintro ⟨hcap'', -⟩
        omega
    · obtain ⟨v'', hrun, hv'', hsize', hitem, hcap'⟩ := hput hres hv' (by omega) hsame
      refine .inr ⟨v'', lastChance calls v.capacity + 1, hfull ▸ hrun, hv'', by omega, ?_⟩
      have hnot : v.capacity ≠ v.size + 1 := by omega
      rw [hcap', hcap, hitem]
      constructor
      · rintro (⟨hlt, -⟩ | ⟨-, -, -, hno⟩)
        · exact absurd hlt hnot
        · exact ⟨by omega, hno⟩
      · rintro ⟨-, hno⟩
        exact .inr ⟨hfull.symm, hover, hyes, hno⟩
  · have hres : vectorReserve grants v calls (v.size + 1) = .ok (0, v, calls) := if_pos hroom
    obtain ⟨v'', hrun, hv'', hsize', hitem, hcap'⟩ := hput hres hv hroom (.refl v)
    refine .inr ⟨v'', calls, hrun, hv'', hsize', ?_⟩
    have hnot : v.capacity ≠ v.size := by omega
    rw [StopsHalfway, hcap', hitem, hsize']
    simp only [hnot, false_and, or_false]

/-- A copy before the end is refused, or leaves the block. -/
theorem insert_middle_cases {pos : ℕ} (hv : Sound v) (grants : Grants) (calls : ℕ) (hpos : pos < v.size) (value : ℕ → UInt8) :
    ((v.capacity = v.size ∧ GrowthRefused grants calls v.capacity v.itemSize) ∧
      ∃ calls', vectorInsert grants v calls pos value = .ok (1, v, calls')) ∨
    (¬ (v.capacity = v.size ∧ GrowthRefused grants calls v.capacity v.itemSize) ∧
      vectorInsert grants v calls pos value = .error .outside) := by
  have hone : v.size + (v.itemSize - 0) / v.itemSize = v.size + 1 := by rw [Nat.sub_zero, Nat.div_self hv.item]
  have hlt := hv.size_lt
  have hword := hv.word
  have hcases := @insertMulti_middle v pos 0 v.itemSize value hv grants calls hpos hv.item (by omega) (by omega)
  rw [hone] at hcases
  rcases hv.size_le.eq_or_lt with hfull | hroom
  · rw [hfull] at hcases
    rcases reserve_grow hv grants calls with ⟨hno, calls', hres⟩ | ⟨h1, hyes, v', hres, -⟩ | ⟨-, hyes, v', hres, -⟩
    · refine .inl ⟨⟨hfull.symm, hno⟩, ?_⟩
      rcases hcases with ⟨calls'', -, hrun⟩ | ⟨calls'', v'', hyes, -⟩
      · exact ⟨calls'', hrun⟩
      · cases hyes.symm.trans hres
    · refine .inr ⟨fun hno => hyes (hno.2.1 h1), ?_⟩
      rcases hcases with ⟨calls'', hno, -⟩ | ⟨-, -, -, hrun⟩
      · cases hno.symm.trans hres
      · exact hrun
    · refine .inr ⟨fun hno => hyes hno.2.2, ?_⟩
      rcases hcases with ⟨calls'', hno, -⟩ | ⟨-, -, -, hrun⟩
      · cases hno.symm.trans hres
      · exact hrun
  · have hres : vectorReserve grants v calls (v.size + 1) = .ok (0, v, calls) := if_pos hroom
    refine .inr ⟨fun hno => hroom.ne hno.1.symm, ?_⟩
    rcases hcases with ⟨calls'', hno, -⟩ | ⟨-, -, -, hrun⟩
    · cases hno.symm.trans hres
    · exact hrun

/-- **Copies**: a failure leaves something behind just where the first copy is put
at the end and there is no memory for the second. -/
theorem insertNcopies_fails (hv : Sound v) (grants : Grants) (calls pos count : ℕ) (value : ℕ → UInt8) :
    Harmless grants v calls (.insertNcopies pos count value) ↔
      ¬ (pos = v.size ∧ 2 ≤ count ∧ StopsHalfway grants v calls) := by
  have hzero : ∀ {v' : Vec} {calls' : ℕ}, exec grants (v, calls) (.insertNcopies pos count value) = .ok (0, v', calls') →
      Harmless grants v calls (.insertNcopies pos count value) := by
    intro v' calls' hrun res v'' calls'' hrun' hres
    cases hrun.symm.trans hrun'
    exact absurd rfl hres
  have hone : ∀ {calls' : ℕ}, exec grants (v, calls) (.insertNcopies pos count value) = .ok (1, v, calls') →
      Harmless grants v calls (.insertNcopies pos count value) := by
    intro calls' hrun res v'' calls'' hrun' _
    cases hrun.symm.trans hrun'
    exact .refl v
  have hfault : exec grants (v, calls) (.insertNcopies pos count value) = .error .outside →
      Harmless grants v calls (.insertNcopies pos count value) := by
    intro hrun res v'' calls'' hrun' _
    cases hrun.symm.trans hrun'
  rcases Nat.eq_zero_or_pos count with rfl | hpos
  · exact iff_of_true (hzero rfl) (by omega)
  obtain ⟨count, rfl⟩ := Nat.exists_eq_succ_of_ne_zero hpos.ne'
  rcases Nat.lt_trichotomy pos v.size with hlt | rfl | hgt
  · refine iff_of_true ?_ fun hspoils => hlt.ne hspoils.1
    rcases insert_middle_cases hv grants calls hlt value with ⟨-, calls', hrun⟩ | ⟨-, hrun⟩
    · exact @hone calls' (by simp only [exec, vectorInsertNcopies, hrun, ok_bind, one_ne_zero, if_false])
    · exact hfault (by simp only [exec, vectorInsertNcopies, hrun, error_bind])
  · rcases insert_last_cases hv grants calls value with ⟨hnot, calls', hrun⟩ | ⟨v', calls', hrun, hv', hsize, hiff⟩
    · refine iff_of_true (@hone calls' ?_) fun hspoils => hnot hspoils.2.2
      simp only [exec, vectorInsertNcopies, hrun, ok_bind, one_ne_zero, if_false]
    · cases count with
      | zero =>
        refine iff_of_true (@hzero v' calls' ?_) (by omega)
        simp only [exec, vectorInsertNcopies, hrun, ok_bind, if_true]
      | succ count =>
        rcases insert_middle_cases hv' grants calls' (by omega : v.size < v'.size) value with
          ⟨hfull, calls'', hrun'⟩ | ⟨hnot, hrun'⟩
        · -- the second copy is refused, and the first is there
          have hleft : exec grants (v, calls) (.insertNcopies v.size (count + 1 + 1) value) = .ok (1, v', calls'') := by
            simp only [exec, vectorInsertNcopies, hrun, hrun', ok_bind, if_true, one_ne_zero, if_false]
          refine iff_of_false (fun hharmless => ?_) (not_not.mpr ⟨rfl, by omega, hiff.mpr hfull⟩)
          have hsame := (hharmless _ _ _ hleft one_ne_zero).size
          omega
        · refine iff_of_true (hfault ?_) fun hspoils => hnot (hiff.mp hspoils.2.2)
          simp only [exec, vectorInsertNcopies, hrun, hrun', ok_bind, if_true, error_bind]
  · refine iff_of_true (@hone calls ?_) fun hspoils => hgt.ne' hspoils.1
    simp only [exec, vectorInsertNcopies, insert_beyond hv hgt, ok_bind, one_ne_zero, if_false]

/-! ### All calls -/

/-- Resizing fails where reserving does. -/
theorem resize_fails {n res calls' : ℕ} {v' : Vec} (hv : Sound v)
    (h : vectorResize grants v calls n = .ok (res, v', calls')) (hres : res ≠ 0) : v' = v := by
  unfold vectorResize at h
  obtain ⟨calls'', ⟨-, hno, -⟩ | ⟨v'', hyes, -⟩⟩ := reserve_spec hv grants calls n
  · simp only [hno, ok_bind, ne_eq, one_ne_zero, not_false_eq_true, if_true] at h
    cases h
    rfl
  · simp only [hyes, ok_bind, ne_eq, not_true_eq_false, if_false] at h
    split_ifs at h with hgrow
    · obtain ⟨data, -, h⟩ := bind_ok.mp h
      cases h
      exact absurd rfl hres
    · cases h
      exact absurd rfl hres

/-- Giving room back fails without a trace, but for an empty vector, which loses its block. -/
theorem shrinkToFit_fails (hv : Sound v) (grants : Grants) (calls : ℕ) :
    Harmless grants v calls .shrinkToFit ↔ ¬ (v.size = 0 ∧ v.capacity ≠ 0) := by
  by_cases hfull : v.capacity = v.size
  · refine iff_of_true ?_ (by omega)
    intro res v' calls' hrun hres
    have hnop : exec grants (v, calls) .shrinkToFit = .ok (0, v, calls) := if_pos hfull
    cases hnop.symm.trans hrun
    exact absurd rfl hres
  have hsize := hv.size_le
  rcases Nat.eq_zero_or_pos v.size with hempty | hsome
  · obtain ⟨bs, hdata, -⟩ := hv.live (by omega)
    have hnone : 0 * v.itemSize = 0 := Nat.zero_mul _
    have hcall : v.data.reallocarray v.size v.itemSize (grants calls) = .ok (none, .freed) := by
      rw [hdata, hempty]
      exact reallocarray_zero hnone
    have hgone : exec grants (v, calls) .shrinkToFit = .ok (1, { v with data := .freed }, calls + 1) := by
      simp [exec, vectorShrinkToFit, vectorRealloc, hfull, hcall]
    refine iff_of_false (fun hharmless => ?_) (not_not.mpr ⟨hempty, by omega⟩)
    exact hv.alive ((hharmless _ _ _ hgone one_ne_zero).block.mp rfl)
  · refine iff_of_true ?_ (by omega)
    intro res v' calls' hrun hres
    by_cases hno : Refused grants calls v.size v.itemSize
    · have hleft : exec grants (v, calls) .shrinkToFit = .ok (1, v, calls + 1) :=
        realloc_refused hv hfull le_rfl hsome hno
      cases hleft.symm.trans hrun
      exact .refl v
    · obtain ⟨v'', hdone, -⟩ := realloc_granted hv hfull le_rfl hsome hno
      have hdone : exec grants (v, calls) .shrinkToFit = .ok (0, v'', calls + 1) := hdone
      cases hdone.symm.trans hrun
      exact absurd rfl hres

/-- **Failed calls.** What a call that fails has changed is nothing, but for the
empty vector that gives its room back and the copies that stop halfway. -/
theorem failed_iff (hv : Sound v) (grants : Grants) (calls : ℕ) (op : Op) :
    Harmless grants v calls op ↔ ¬ Spoils grants v calls op := by
  have hsame : (∀ res v' calls', exec grants (v, calls) op = .ok (res, v', calls') → res ≠ 0 → v' = v) →
      Harmless grants v calls op := by
    intro hkeep res v' calls' hrun hres
    rw [hkeep res v' calls' hrun hres]
    exact .refl v
  cases op with
  | insertNcopies pos count value => exact insertNcopies_fails hv grants calls pos count value
  | shrinkToFit => exact shrinkToFit_fails hv grants calls
  | init itemSize =>
    refine iff_of_true (hsame fun res v' calls' hrun hres => ?_) not_false
    cases hrun
    exact absurd rfl hres
  | pushBack value => exact iff_of_true (hsame fun res v' calls' => insertMulti_fails hv) not_false
  | insert pos value => exact iff_of_true (hsame fun res v' calls' => insertMulti_fails hv) not_false
  | insertMulti pos src first last => exact iff_of_true (hsame fun res v' calls' => insertMulti_fails hv) not_false
  | erase pos =>
    refine iff_of_true (hsame fun res v' calls' hrun hres => ?_) not_false
    obtain ⟨res', v'', hrun', -, -, -, hkeep⟩ := eraseMulti_spec hv hv.holds calls pos ((pos + 1) % 2 ^ 64)
    cases hrun'.symm.trans hrun
    exact hkeep hres
  | eraseMulti first last =>
    refine iff_of_true (hsame fun res v' calls' hrun hres => ?_) not_false
    obtain ⟨res', v'', hrun', -, -, -, hkeep⟩ := eraseMulti_spec hv hv.holds calls first last
    cases hrun'.symm.trans hrun
    exact hkeep hres
  | popBack =>
    refine iff_of_true (hsame fun res v' calls' hrun hres => ?_) not_false
    obtain ⟨res', v'', hrun', -, -, -, hkeep⟩ := popBack_spec hv hv.holds calls
    simp only [exec, hrun', ok_bind] at hrun
    cases hrun
    exact hkeep hres
  | resize desSize =>
    refine iff_of_true (hsame fun res v' calls' hrun hres => resize_fails hv hrun hres) not_false
  | reserve newCap =>
    refine iff_of_true (hsame fun res v' calls' hrun hres => ?_) not_false
    obtain ⟨calls'', ⟨-, hno, -⟩ | ⟨v'', hyes, -⟩⟩ := reserve_spec hv grants calls newCap
    · cases hno.symm.trans hrun
      rfl
    · cases hyes.symm.trans hrun
      exact absurd rfl hres
  | clear => exact iff_of_true (hsame fun res v' calls' hrun hres => resize_fails hv hrun hres) not_false

end Spec

/-- No memory at all. -/
def nothing : Grants := fun _ => none

/-- One item in a block of two. -/
def halfFull : Vec := ⟨2, 1, 1, .live [7, 0]⟩

theorem halfFull_sound : Sound halfFull := by
  refine ⟨?_, ?_, ?_, rfl, ?_, ?_⟩ <;> simp [halfFull]

/-- The item keeps its room. -/
theorem failed_iff_shrink : Harmless nothing halfFull 0 .shrinkToFit ↔ ¬ (halfFull.size = 0 ∧ halfFull.capacity ≠ 0) :=
  failed_iff halfFull_sound nothing 0 .shrinkToFit

/-- An empty vector that gives its room back: the call returns 1, and the block is
gone. And of two copies in a vector with room for one, one is left there. -/
theorem not_harmless : ¬ Harmless zeros { halfFull with size := 0 } 0 .shrinkToFit ∧
    ¬ Harmless nothing halfFull 0 (.insertNcopies 1 2 fun _ => 9) := by
  constructor
  · intro hharmless
    have hgone : exec zeros ({ halfFull with size := 0 }, 0) .shrinkToFit = .ok (1, ⟨2, 1, 0, .freed⟩, 1) := rfl
    have hblock := (hharmless _ _ _ hgone one_ne_zero).block.mp rfl
    cases hblock
  · intro hharmless
    have hleft : exec nothing (halfFull, 0) (.insertNcopies 1 2 fun _ => 9) = .ok (1, ⟨2, 1, 2, .live [7, 9]⟩, 2) := rfl
    have hsize := (hharmless _ _ _ hleft one_ne_zero).size
    cases hsize

end Vectors

end Retif
