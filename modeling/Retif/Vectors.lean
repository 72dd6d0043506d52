/-
# The dynamic vector

`vector.c` and the inline functions of `vector.h`, on the bytes of the block the
vector has. A pointer into the vector is its offset from `data`, in a `size_t`;
what the system gives for one `reallocarray` after the other is an argument, and
the number of those made so far goes along.

`vector_insert_multi` calls its difference helper the wrong way round, so all
insertions but those at the end move the rest of the address space
(`insertMulti_middle`).

Key definitions: `Vec`, `vectorReserve`, `vectorInsertMulti`, `vectorEraseMulti`,
`vectorResize`, `Sound`.
Key theorems: `realloc_granted`, `reserve_cases`, `reserve_spec`, `insertMulti_end`, `insertMulti_middle`,
`eraseMulti_spec`, `resize_spec`.
-/
import Retif.Lib.Block
import Retif.Lib.Runs

namespace Retif

namespace Vectors

open Blocks Memory

/-- `vector_t`. -/
structure Vec where
  capacity : ℕ
  itemSize : ℕ
  size : ℕ
  data : Block
  deriving DecidableEq

/-- What `reallocarray` gets from the system, call after call. -/
abbrev Grants := ℕ → Block.Grant

/-- What a call returns, the vector after it, and how often `reallocarray` has
been called; or that it leaves the block. -/
abbrev Outcome := Except Misuse (ℕ × Vec × ℕ)

/-! ### The functions -/

/-- `vector_initialize`. -/
def vectorInitialize (itemSize : ℕ) : Vec := ⟨0, itemSize, 0, .null⟩

/-- `__vector_addr_diff`. -/
def vectorAddrDiff (first last : ℕ) : ℕ := (((last : ℤ) - first) % 2 ^ 64).toNat

/-- `__vector_addr_add`. -/
def vectorAddrAdd (first diff : ℕ) : ℕ := (first + diff) % 2 ^ 64

def vectorAt (v : Vec) (i : ℕ) : ℕ := vectorAddrAdd 0 (i * v.itemSize % 2 ^ 64)

def vectorEnd (v : Vec) : ℕ := vectorAt v v.size

/-- `vector_back`, for a vector that is not empty. -/
def vectorBack (v : Vec) : ℕ := vectorAt v (v.size - 1)

/-- The bytes of `mem` between the addresses `first` and `last`. -/
def bytesBetween (mem : ℕ → UInt8) (first last : ℕ) : List UInt8 := (List.range (last - first)).map fun i => mem (first + i)

section Functions

variable (grants : Grants)

/-- `__vector_realloc`. -/
def vectorRealloc (v : Vec) (calls newCap : ℕ) (canErase : Bool) : Outcome :=
  if v.capacity = newCap then .ok (0, v, calls)
  else if !canErase && decide (v.size > newCap) then .ok (1, v, calls)
  else do
    let (newVec, old) ← v.data.reallocarray newCap v.itemSize (grants calls)
    match newVec with
    | none => .ok (1, { v with data := old }, calls + 1)
    | some newVec =>
      .ok (0, { v with data := newVec, capacity := newCap, size := if v.size > newCap then newCap else v.size }, calls + 1)

/-- `vector_reserve`: twice the capacity first, then just what is needed. -/
def vectorReserve (v : Vec) (calls newCap : ℕ) : Outcome :=
  if newCap ≤ v.capacity then .ok (0, v, calls)
  else
    let overalloc := v.capacity * 2 % 2 ^ 64
    if newCap < overalloc then do
      let (res, v, calls) ← vectorRealloc grants v calls overalloc false
      if res = 0 then .ok (0, v, calls) else vectorRealloc grants v calls newCap false
    else vectorRealloc grants v calls newCap false

/-- `vector_shrink_to_fit`. -/
def vectorShrinkToFit (v : Vec) (calls : ℕ) : Outcome := vectorRealloc grants v calls v.size false

/-- `vector_insert_multi`, with what lies between `first` and `last` outside of the vector. -/
def vectorInsertMulti (v : Vec) (calls pos : ℕ) (src : ℕ → UInt8) (first last : ℕ) : Outcome :=
  if first = last then .ok (0, v, calls)
  else if first > last then .ok (1, v, calls)
  else if pos > v.size then .ok (1, v, calls)
  else
    let addrDiff := vectorAddrDiff first last
    let desSize := (v.size + addrDiff / v.itemSize) % 2 ^ 64
    if desSize < v.size then .ok (1, v, calls)
    else do
      let (res, v, calls) ← vectorReserve grants v calls desSize
      if res ≠ 0 then .ok (1, v, calls)
      else do
        let posOffset := vectorAt v pos
        let forwardDest := vectorAddrAdd posOffset addrDiff
        -- the size of the move is the way from the end back to the position
        let data ← v.data.move forwardDest posOffset (vectorAddrDiff (vectorEnd v) posOffset)
        let data ← data.write posOffset (bytesBetween src first last)
        .ok (0, { v with data := data, size := desSize }, calls)

/-- `vector_insert`, of the item that `value` points to. -/
def vectorInsert (v : Vec) (calls pos : ℕ) (value : ℕ → UInt8) : Outcome :=
  vectorInsertMulti grants v calls pos value 0 v.itemSize

/-- `vector_insert_ncopies`: until an insertion fails. -/
def vectorInsertNcopies (v : Vec) (calls pos : ℕ) : ℕ → (ℕ → UInt8) → Outcome
  | 0, _ => .ok (0, v, calls)
  | count + 1, value => do
    let (res, v, calls) ← vectorInsert grants v calls pos value
    if res = 0 then vectorInsertNcopies v calls pos count value else .ok (res, v, calls)

def vectorPushBack (v : Vec) (calls : ℕ) (value : ℕ → UInt8) : Outcome := vectorInsert grants v calls v.size value

/-- `vector_erase_multi`. -/
def vectorEraseMulti (v : Vec) (calls first last : ℕ) : Outcome :=
  if first = last then .ok (0, v, calls)
  else if first > last then .ok (1, v, calls)
  else if last > v.size then .ok (1, v, calls)
  else do
    let addrDiff := vectorAddrDiff (vectorAt v last) (vectorEnd v)
    let data ← v.data.move (vectorAt v first) (vectorAt v last) addrDiff
    .ok (0, { v with data := data, size := v.size - (last - first) }, calls)

def vectorErase (v : Vec) (calls pos : ℕ) : Outcome := vectorEraseMulti v calls pos ((pos + 1) % 2 ^ 64)

/-- `vector_pop_back`: what it writes to `value`, and the rest. -/
def vectorPopBack (v : Vec) (calls : ℕ) : Except Misuse (Option (List UInt8) × ℕ × Vec × ℕ) :=
  if v.size < 1 then .ok (none, 1, v, calls)
  else do
    let value ← v.data.read (vectorBack v) v.itemSize
    let after ← vectorErase v calls (v.size - 1)
    .ok (some value, after)

/-- `vector_resize`. -/
def vectorResize (v : Vec) (calls desSize : ℕ) : Outcome := do
  let (res, v, calls) ← vectorReserve grants v calls desSize
  if res ≠ 0 then .ok (1, v, calls)
  else if v.size < desSize then do
    let data ← v.data.write (vectorEnd v) (List.replicate ((desSize - v.size) * v.itemSize % 2 ^ 64) 0)
    .ok (0, { v with data := data, size := desSize }, calls)
  else .ok (0, { v with size := desSize }, calls)

/-- `vector_clear`. -/
def vectorClear (v : Vec) (calls : ℕ) : Outcome := vectorResize grants v calls 0

end Functions

/-! ### Sound vectors -/

/-- The block is there, and as long as the capacity says. -/
structure Sound (v : Vec) : Prop where
  item : 0 < v.itemSize
  word : v.itemSize < 2 ^ 64
  size_le : v.size ≤ v.capacity
  room : v.data.bytes.length = v.capacity * v.itemSize
  alive : v.data ≠ .freed
  fits : v.capacity * v.itemSize < 2 ^ 63

/-- The bytes of the items. -/
def Vec.filled (v : Vec) : List UInt8 := load v.data.bytes 0 (v.size * v.itemSize)

/-- The first `size` items. -/
def Vec.items (v : Vec) : List (List UInt8) := (List.range v.size).map fun i => load v.data.bytes (i * v.itemSize) v.itemSize

/-- The items of the vector are `xs`. -/
structure Holds (v : Vec) (xs : List (List UInt8)) : Prop where
  filled : v.filled = xs.flatten
  count : xs.length = v.size
  item : ∀ x ∈ xs, x.length = v.itemSize

/-- Another block, with the same items. -/
structure SameItems (v v' : Vec) : Prop where
  itemSize : v'.itemSize = v.itemSize
  size : v'.size = v.size
  filled : v'.filled = v.filled

/-- The system has nothing for this call, or `n` items are more than it ever gives. -/
def Refused (grants : Grants) (calls n itemSize : ℕ) : Prop := grants calls = none ∨ 2 ^ 63 ≤ n * itemSize

section Spec

variable {grants : Grants} {v v' : Vec} {calls newCap pos first last : ℕ} {xs : List (List UInt8)} {src : ℕ → UInt8}

theorem SameItems.refl (v : Vec) : SameItems v v := ⟨rfl, rfl, rfl⟩

theorem Sound.end_le (hv : Sound v) : v.size * v.itemSize ≤ v.capacity * v.itemSize := Nat.mul_le_mul_right _ hv.size_le

/-- Inside of the vector no offset overflows. -/
theorem Sound.at_eq (hv : Sound v) {i : ℕ} (hi : i ≤ v.capacity) : vectorAt v i = i * v.itemSize := by
  have hle : i * v.itemSize ≤ v.capacity * v.itemSize := Nat.mul_le_mul_right _ hi
  have hfits := hv.fits
  rw [vectorAt, vectorAddrAdd, zero_add, Nat.mod_mod, Nat.mod_eq_of_lt (by omega)]

theorem Sound.end_eq (hv : Sound v) : vectorEnd v = v.size * v.itemSize := hv.at_eq hv.size_le

theorem addrDiff_eq {a b : ℕ} (hle : a ≤ b) (hlt : b - a < 2 ^ 64) : vectorAddrDiff a b = b - a := by
  unfold vectorAddrDiff
  omega

theorem initialize_sound {n : ℕ} (hn : 0 < n) (hword : n < 2 ^ 64) : Sound (vectorInitialize n) :=
  ⟨hn, hword, le_rfl, by simp [vectorInitialize, Block.bytes], by simp [vectorInitialize], by simp [vectorInitialize]⟩

/-! ### Allocation -/

theorem realloc_refused (hv : Sound v) (hne : v.capacity ≠ newCap) (hle : v.size ≤ newCap) (hpos : 0 < newCap)
    (hno : Refused grants calls newCap v.itemSize) : vectorRealloc grants v calls newCap false = .ok (1, v, calls + 1) := by
  have hcall := reallocarray_refused (Nat.mul_pos hpos hv.item) hv.alive hno
  have hsize : ¬ v.size > newCap := by omega
  simp [vectorRealloc, hne, hsize, hcall]

theorem realloc_granted (hv : Sound v) (hne : v.capacity ≠ newCap) (hle : v.size ≤ newCap) (hpos : 0 < newCap)
    (hyes : ¬ Refused grants calls newCap v.itemSize) :
    ∃ v', vectorRealloc grants v calls newCap false = .ok (0, v', calls + 1) ∧ Sound v' ∧ v'.capacity = newCap ∧
      SameItems v v' := by
  obtain ⟨hgrant, hlt⟩ := not_or.mp hyes
  obtain ⟨fresh, hfresh⟩ := Option.ne_none_iff_exists'.mp hgrant
  obtain ⟨bs, old, hcall, hlen, htake⟩ :=
    @reallocarray_granted v.data newCap v.itemSize fresh (Nat.mul_pos hpos hv.item) (not_le.mp hlt) hv.alive
  have hsize : ¬ v.size > newCap := by omega
  have hend : v.size * v.itemSize ≤ newCap * v.itemSize := Nat.mul_le_mul_right _ hle
  have hend' := hv.end_le
  refine ⟨⟨newCap, v.itemSize, v.size, .live bs⟩, ?_, ⟨hv.item, hv.word, hle, hlen, by simp, not_le.mp hlt⟩, rfl, rfl, rfl, ?_⟩
  · simp [vectorRealloc, hne, hsize, hfresh, hcall]
  · -- what is copied has all the items
    simp only [Vec.filled, load, List.drop_zero, bytes_live]
    calc bs.take (v.size * v.itemSize) = (bs.take v.data.bytes.length).take (v.size * v.itemSize) := by
          rw [List.take_take, hv.room, Nat.min_eq_left hend']
      _ = v.data.bytes.take (v.size * v.itemSize) := by
          rw [htake, List.take_take, Nat.min_eq_left hend]

/-- **Growing**: nothing has been given and nothing has changed, or there is twice
the capacity, or just what is needed. -/
theorem reserve_cases (hv : Sound v) (grants : Grants) (calls : ℕ) (hmore : v.capacity < newCap) :
    let overalloc := v.capacity * 2 % 2 ^ 64
    let last := if newCap < overalloc then calls + 1 else calls
    ((newCap < overalloc → Refused grants calls overalloc v.itemSize) ∧ Refused grants last newCap v.itemSize ∧
      vectorReserve grants v calls newCap = .ok (1, v, last + 1)) ∨
    (newCap < overalloc ∧ ¬ Refused grants calls overalloc v.itemSize ∧ ∃ v',
      vectorReserve grants v calls newCap = .ok (0, v', calls + 1) ∧ Sound v' ∧ v'.capacity = overalloc ∧ SameItems v v') ∨
    ((newCap < overalloc → Refused grants calls overalloc v.itemSize) ∧ ¬ Refused grants last newCap v.itemSize ∧ ∃ v',
      vectorReserve grants v calls newCap = .ok (0, v', last + 1) ∧ Sound v' ∧ v'.capacity = newCap ∧ SameItems v v') := by
  intro overalloc last
  have hsize := hv.size_le
  have hroom : ¬ newCap ≤ v.capacity := not_le.mpr hmore
  -- the last chance, whatever was tried before
  have hlast : ∀ k, (Refused grants k newCap v.itemSize ∧ vectorRealloc grants v k newCap false = .ok (1, v, k + 1)) ∨
      (¬ Refused grants k newCap v.itemSize ∧ ∃ v', vectorRealloc grants v k newCap false = .ok (0, v', k + 1) ∧ Sound v' ∧
        v'.capacity = newCap ∧ SameItems v v') := by
    intro k
    by_cases hno : Refused grants k newCap v.itemSize
    · exact .inl ⟨hno, realloc_refused hv (by omega) (by omega) (by omega) hno⟩
    · exact .inr ⟨hno, realloc_granted hv (by omega) (by omega) (by omega) hno⟩
  simp only [vectorReserve, if_neg hroom]
  by_cases hover : newCap < overalloc
  · have hlast_eq : last = calls + 1 := if_pos hover
    rw [if_pos hover, hlast_eq]
    by_cases hno : Refused grants calls overalloc v.itemSize
    · rw [realloc_refused hv (by omega) (by omega) (by omega) hno]
      rcases hlast (calls + 1) with ⟨hrefused, hrun⟩ | ⟨hgranted, hrun⟩
      · exact .inl ⟨fun _ => hno, hrefused, hrun⟩
      · exact .inr (.inr ⟨fun _ => hno, hgranted, hrun⟩)
    · obtain ⟨v', hrun, hv', hcap, hsame⟩ := realloc_granted hv (by omega) (by omega) (by omega) hno
      rw [hrun]
      exact .inr (.inl ⟨hover, hno, v', rfl, hv', hcap, hsame⟩)
  · have hlast_eq : last = calls := if_neg hover
    rw [if_neg hover, hlast_eq]
    rcases hlast calls with ⟨hrefused, hrun⟩ | ⟨hgranted, hrun⟩
    · exact .inl ⟨fun h => absurd h hover, hrefused, hrun⟩
    · exact .inr (.inr ⟨fun h => absurd h hover, hgranted, hrun⟩)

/-- **Reserving**: there is room afterwards and the items are the same, or
nothing has changed and the system has refused just what was needed. -/
theorem reserve_spec (hv : Sound v) (grants : Grants) (calls newCap : ℕ) : ∃ calls',
    (v.capacity < newCap ∧ vectorReserve grants v calls newCap = .ok (1, v, calls') ∧
      ∃ k, Refused grants k newCap v.itemSize) ∨
    ∃ v', vectorReserve grants v calls newCap = .ok (0, v', calls') ∧ Sound v' ∧ newCap ≤ v'.capacity ∧
      v.capacity ≤ v'.capacity ∧ SameItems v v' := by
  rcases Nat.lt_or_ge v.capacity newCap with hmore | hroom
  · rcases reserve_cases hv grants calls hmore with ⟨-, hno, hrun⟩ | ⟨hover, -, v', hrun, hv', hcap, hsame⟩ |
      ⟨-, -, v', hrun, hv', hcap, hsame⟩
    · exact ⟨_, .inl ⟨hmore, hrun, _, hno⟩⟩
    · exact ⟨_, .inr ⟨v', hrun, hv', by omega, by omega, hsame⟩⟩
    · exact ⟨_, .inr ⟨v', hrun, hv', by omega, by omega, hsame⟩⟩
  · exact ⟨calls, .inr ⟨v, if_pos hroom, hv, hroom, le_rfl, .refl v⟩⟩

theorem reserve_granted (hv : Sound v) (hyes : ∀ k, ¬ Refused grants k newCap v.itemSize) : ∃ calls' v',
    vectorReserve grants v calls newCap = .ok (0, v', calls') ∧ Sound v' ∧ newCap ≤ v'.capacity ∧ SameItems v v' := by
  obtain ⟨calls', ⟨-, -, k, hno⟩ | ⟨v', hrun, hv', hcap, -, hsame⟩⟩ := reserve_spec hv grants calls newCap
  · exact absurd hno (hyes k)
  · exact ⟨calls', v', hrun, hv', hcap, hsame⟩

/-! ### What is written at the end -/

/-- A block that has room for anything is there. -/
theorem Sound.live (hv : Sound v) (hcap : 0 < v.capacity) : ∃ bs, v.data = .live bs ∧ bs.length = v.capacity * v.itemSize := by
  have hroom := hv.room
  have hpos := Nat.mul_pos hcap hv.item
  cases hdata : v.data with
  | null =>
    rw [hdata, Block.bytes, List.length_nil] at hroom
    omega
  | live bs => exact ⟨bs, rfl, by rw [← hroom, hdata, bytes_live]⟩
  | freed => exact absurd hdata hv.alive

/-- The vector with `content` behind its first `n` items, and as many items as that makes. -/
theorem sound_store {n k : ℕ} {bs content : List UInt8} (hv : Sound v) (hdata : v.data = .live bs)
    (hlen : content.length = k * v.itemSize) (hn : n ≤ v.size) (hfit : n + k ≤ v.capacity) (hxs : Holds v xs)
    {ys : List (List UInt8)} (hys : content = ys.flatten) (hcount : ys.length = k) (hitem : ∀ y ∈ ys, y.length = v.itemSize) :
    Sound { v with data := .live (store bs (n * v.itemSize) content), size := n + k } ∧
      Holds { v with data := .live (store bs (n * v.itemSize) content), size := n + k } (xs.take n ++ ys) := by
  have hbs : bs.length = v.capacity * v.itemSize := by rw [← hv.room, hdata, bytes_live]
  have hend : n * v.itemSize + k * v.itemSize ≤ v.capacity * v.itemSize := by
    rw [← Nat.add_mul]
    exact Nat.mul_le_mul_right _ hfit
  have hstore : (store bs (n * v.itemSize) content).length = bs.length := store_length (by omega)
  refine ⟨⟨hv.item, hv.word, hfit, ?_, by simp, hv.fits⟩, ?_, ?_, ?_⟩
  · rw [bytes_live, hstore, hbs]
  · have hfilled := hxs.filled
    rw [Vec.filled, hdata, bytes_live] at hfilled
    have hfront : load bs 0 (n * v.itemSize) = (xs.take n).flatten := by
      rw [← take_flatten n hxs.item, ← hfilled, load_take]
      exact Nat.mul_le_mul_right _ hn
    rw [Vec.filled, bytes_live, Nat.add_mul, ← hlen, load_store_end (by omega), hfront, List.flatten_append, hys]
  · rw [List.length_append, List.length_take, hxs.count, Nat.min_eq_left hn, hcount]
  · intro x hx
    rcases List.mem_append.mp hx with hx | hx
    · exact hxs.item x (List.mem_of_mem_take hx)
    · exact hitem x hx

theorem Holds.same (hxs : Holds v xs) (hsame : SameItems v v') : Holds v' xs :=
  ⟨hsame.filled.trans hxs.filled, hxs.count.trans hsame.size.symm, fun x hx => (hxs.item x hx).trans hsame.itemSize.symm⟩

@[simp] theorem bytesBetween_length (src : ℕ → UInt8) (first last : ℕ) :
    (bytesBetween src first last).length = last - first := by simp [bytesBetween]

theorem size_lt_of_not_refused {n : ℕ} (hpos : 0 < v.itemSize) (hyes : ¬ Refused grants calls n v.itemSize) : n < 2 ^ 63 := by
  have hlt : n * v.itemSize < 2 ^ 63 := not_le.mp (not_or.mp hyes).2
  have hle : n * 1 ≤ n * v.itemSize := Nat.mul_le_mul_left _ hpos
  omega

theorem Sound.size_lt (hv : Sound v) : v.size < 2 ^ 63 := by
  have hend := hv.end_le
  have hfits := hv.fits
  have hsmall : v.size * 1 ≤ v.size * v.itemSize := Nat.mul_le_mul_left _ hv.item
  omega

/-- An insertion that passes the checks. -/
theorem insertMulti_eq (hlt : first < last) (hpos : pos ≤ v.size) (hsrc : last - first < 2 ^ 64)
    (hsum : v.size + (last - first) / v.itemSize < 2 ^ 64) :
    vectorInsertMulti grants v calls pos src first last = (do
      let (res, v', calls') ← vectorReserve grants v calls (v.size + (last - first) / v.itemSize)
      if res ≠ 0 then .ok (1, v', calls')
      else do
        let data ← v'.data.move (vectorAddrAdd (vectorAt v' pos) (last - first)) (vectorAt v' pos)
          (vectorAddrDiff (vectorEnd v') (vectorAt v' pos))
        let data ← data.write (vectorAt v' pos) (bytesBetween src first last)
        .ok (0, { v' with data := data, size := v.size + (last - first) / v.itemSize }, calls')) := by
  have hdiff : vectorAddrDiff first last = last - first := addrDiff_eq hlt.le hsrc
  have hdes := Nat.mod_eq_of_lt hsum
  simp only [vectorInsertMulti, if_neg hlt.ne, if_neg (not_lt.mpr hlt.le), if_neg (not_lt.mpr hpos), hdiff, hdes,
    if_neg (not_lt.mpr (Nat.le_add_right v.size ((last - first) / v.itemSize))), gt_iff_lt]

/-- Insertion at the end, where there is room for it now. -/
theorem insertMulti_reserved {calls' : ℕ} {ys : List (List UInt8)} (hv : Sound v) (hxs : Holds v xs) (hv' : Sound v')
    (hsame : SameItems v v') (hcap : v.size + ys.length ≤ v'.capacity)
    (hres : vectorReserve grants v calls (v.size + ys.length) = .ok (0, v', calls'))
    (hys : bytesBetween src first last = ys.flatten) (hitem : ∀ y ∈ ys, y.length = v.itemSize) (hlt : first < last) :
    ∃ v'', vectorInsertMulti grants v calls v.size src first last = .ok (0, v'', calls') ∧ Sound v'' ∧
      v''.itemSize = v.itemSize ∧ v''.capacity = v'.capacity ∧ Holds v'' (xs ++ ys) := by
  have hlen : last - first = ys.length * v.itemSize := by
    rw [← bytesBetween_length src first last, hys, flatten_length hitem, Nat.mul_comm]
  have hdes : v.size + (last - first) / v.itemSize = v.size + ys.length := by rw [hlen, Nat.mul_div_cancel _ hv.item]
  have hcount : 0 < ys.length := by
    rcases Nat.eq_zero_or_pos ys.length with h0 | h0
    · rw [h0, Nat.zero_mul] at hlen
      omega
    · exact h0
  obtain ⟨bs, hdata, hbs⟩ := hv'.live (by omega)
  have hat : vectorAt v' v.size = vectorEnd v' := by rw [vectorEnd, hsame.size]
  have hend := hv'.end_eq
  have hfits := hv'.fits
  have hfit : v'.size + ys.length ≤ v'.capacity := by rw [hsame.size]; exact hcap
  have hroom : v'.size * v'.itemSize + ys.length * v'.itemSize ≤ v'.capacity * v'.itemSize := by
    rw [← Nat.add_mul]
    exact Nat.mul_le_mul_right _ hfit
  have hcaplt : v'.capacity * 1 ≤ v'.capacity * v'.itemSize := Nat.mul_le_mul_left _ hv'.item
  obtain ⟨hsound, hholds⟩ := @sound_store v' xs v'.size ys.length bs (bytesBetween src first last) hv' hdata
    (by rw [bytesBetween_length, hlen, hsame.itemSize]) le_rfl hfit (hxs.same hsame) ys hys rfl
    (fun y hy => (hitem y hy).trans hsame.itemSize.symm)
  rw [List.take_of_length_le (hxs.same hsame).count.le] at hholds
  refine ⟨_, ?_, hsound, hsame.itemSize, rfl, hholds⟩
  have hmove : v'.data.move (vectorAddrAdd (vectorEnd v') (last - first)) (vectorEnd v')
      (vectorAddrDiff (vectorEnd v') (vectorEnd v')) = .ok (.live bs) := by
    have hnone : vectorAddrDiff (vectorEnd v') (vectorEnd v') = 0 := by
      rw [addrDiff_eq le_rfl (by omega), Nat.sub_self]
    rw [hnone, hdata, move_zero]
  have hwrite : (Block.live bs).write (vectorEnd v') (bytesBetween src first last) =
      .ok (.live (store bs (v'.size * v'.itemSize) (bytesBetween src first last))) := by
    rw [hend]
    apply write_inside
    rw [bytesBetween_length, hlen, hbs, ← hsame.itemSize]
    exact hroom
  rw [insertMulti_eq hlt le_rfl (by rw [hlen, ← hsame.itemSize]; omega) (by omega), hdes]
  simp only [hres, ok_bind, ne_eq, not_true_eq_false, if_false, hat, hmove, hwrite, hsame.size]

/-- **Insertion at the end** appends. -/
theorem insertMulti_end {ys : List (List UInt8)} (hv : Sound v) (hxs : Holds v xs)
    (hys : bytesBetween src first last = ys.flatten) (hitem : ∀ y ∈ ys, y.length = v.itemSize) (hle : first ≤ last)
    (hyes : ∀ k, ¬ Refused grants k (v.size + ys.length) v.itemSize) : ∃ calls' v',
      vectorInsertMulti grants v calls v.size src first last = .ok (0, v', calls') ∧ Sound v' ∧
        v'.itemSize = v.itemSize ∧ Holds v' (xs ++ ys) := by
  rcases hle.eq_or_lt with rfl | hlt
  · obtain rfl : ys = [] := by
      have hlen := flatten_length hitem
      rw [← hys, bytesBetween_length, Nat.sub_self] at hlen
      exact List.length_eq_zero_iff.mp ((Nat.mul_eq_zero.mp hlen.symm).resolve_left hv.item.ne')
    exact ⟨calls, v, by simp [vectorInsertMulti], hv, rfl, by simpa using hxs⟩
  · obtain ⟨calls', v', hres, hv', hcap, hsame⟩ := @reserve_granted _ _ calls _ hv hyes
    obtain ⟨v'', hrun, hv'', hitem'', -, hholds⟩ := insertMulti_reserved hv hxs hv' hsame hcap hres hys hitem hlt
    exact ⟨calls', v'', hrun, hv'', hitem'', hholds⟩

/-- **Insertion before the end** is refused for want of memory, or moves what is
not the vector's. -/
theorem insertMulti_middle (hv : Sound v) (grants : Grants) (calls : ℕ) (hpos : pos < v.size) (hlt : first < last)
    (hsrc : last - first < 2 ^ 64) (hsum : v.size + (last - first) / v.itemSize < 2 ^ 64) :
    (∃ calls', vectorReserve grants v calls (v.size + (last - first) / v.itemSize) = .ok (1, v, calls') ∧
      vectorInsertMulti grants v calls pos src first last = .ok (1, v, calls')) ∨
    ∃ calls' v', vectorReserve grants v calls (v.size + (last - first) / v.itemSize) = .ok (0, v', calls') ∧
      vectorInsertMulti grants v calls pos src first last = .error .outside := by
  have hend := hv.end_le
  have hfits := hv.fits
  rw [insertMulti_eq hlt hpos.le hsrc hsum]
  obtain ⟨calls', ⟨-, hres, -⟩ | ⟨v', hres, hv', hcap, -, hsame⟩⟩ :=
    reserve_spec hv grants calls (v.size + (last - first) / v.itemSize)
  · refine .inl ⟨calls', hres, ?_⟩
    rw [hres]
    rfl
  · refine .inr ⟨calls', v', hres, ?_⟩
    have hstart : pos * v'.itemSize < v'.size * v'.itemSize := by
      rw [hsame.size]
      exact Nat.mul_lt_mul_of_pos_right hpos hv'.item
    have hfits' := hv'.fits
    have hend' := hv'.end_le
    have hat : vectorAt v' pos = pos * v'.itemSize := by
      apply hv'.at_eq
      have hle := hv'.size_le
      have hsize := hsame.size
      omega
    -- the difference the wrong way round is nearly all of the address space
    have hback : 2 ^ 63 < vectorAddrDiff (vectorEnd v') (vectorAt v' pos) := by
      rw [hv'.end_eq, hat, vectorAddrDiff]
      omega
    have hmove : ∀ dst, v'.data.move dst (vectorAt v' pos) (vectorAddrDiff (vectorEnd v') (vectorAt v' pos)) =
        .error .outside := by
      intro dst
      apply move_outside
      · omega
      · exact hv'.alive
      · rw [hv'.room]
        omega
    simp only [hres, ok_bind, ne_eq, not_true_eq_false, if_false, hmove, error_bind]

/-! ### Erasing and resizing -/

/-- **Erasing** takes out what is between the two positions, if they are in order
and in the vector. -/
theorem eraseMulti_spec (hv : Sound v) (hxs : Holds v xs) (calls first last : ℕ) : ∃ res v',
    vectorEraseMulti v calls first last = .ok (res, v', calls) ∧ Sound v' ∧ v'.itemSize = v.itemSize ∧
      Holds v' (if first ≤ last ∧ last ≤ v.size then xs.take first ++ xs.drop last else xs) ∧ (res ≠ 0 → v' = v) := by
  unfold vectorEraseMulti
  by_cases heq : first = last
  · refine ⟨0, v, if_pos heq, hv, rfl, ?_, fun _ => rfl⟩
    subst heq
    simpa using hxs
  rw [if_neg heq]
  by_cases hgt : first > last
  · exact ⟨1, v, if_pos hgt, hv, rfl, by rwa [if_neg (by omega)], fun _ => rfl⟩
  rw [if_neg hgt]
  by_cases hout : last > v.size
  · exact ⟨1, v, if_pos hout, hv, rfl, by rwa [if_neg (by omega)], fun _ => rfl⟩
  rw [if_neg hout, if_pos (by omega)]
  have hsize := hv.size_le
  obtain ⟨bs, hdata, hbs⟩ := hv.live (by omega)
  have hend := hv.end_le
  have hfits := hv.fits
  have hfirst : first * v.itemSize ≤ last * v.itemSize := Nat.mul_le_mul_right _ (by omega)
  have hlast : last * v.itemSize ≤ v.size * v.itemSize := Nat.mul_le_mul_right _ (by omega)
  have hrest : (v.size - last) * v.itemSize = v.size * v.itemSize - last * v.itemSize := Nat.sub_mul ..
  have hdiff : vectorAddrDiff (vectorAt v last) (vectorEnd v) = (v.size - last) * v.itemSize := by
    rw [hv.end_eq, hv.at_eq (by omega), addrDiff_eq hlast (by omega), hrest]
  have hmove : v.data.move (vectorAt v first) (vectorAt v last) (vectorAddrDiff (vectorAt v last) (vectorEnd v)) =
      .ok (.live (store bs (first * v.itemSize) (load bs (last * v.itemSize) ((v.size - last) * v.itemSize)))) := by
    rw [hdiff, hv.at_eq (by omega), hv.at_eq (by omega), hdata]
    exact move_inside (by omega) (by omega)
  have htail : load bs (last * v.itemSize) ((v.size - last) * v.itemSize) = (xs.drop last).flatten := by
    have hfilled := hxs.filled
    rw [Vec.filled, hdata, bytes_live] at hfilled
    rw [← drop_flatten last hxs.item, ← hfilled, load_drop, zero_add, hrest]
  obtain ⟨hsound, hholds⟩ := @sound_store v xs first (v.size - last) bs _ hv hdata (load_length (by omega)) (by omega)
    (by omega) hxs _ htail (by rw [List.length_drop, hxs.count]) fun x hx => hxs.item x (List.mem_of_mem_drop hx)
  have hsz : v.size - (last - first) = first + (v.size - last) := by omega
  refine ⟨0, _, ?_, hsound, rfl, hholds, fun hres => absurd rfl hres⟩
  simp only [hmove, ok_bind, hsz]

/-- **Taking the last item off.** -/
theorem popBack_spec (hv : Sound v) (hxs : Holds v xs) (calls : ℕ) : ∃ res v',
    vectorPopBack v calls = .ok (xs.getLast?, res, v', calls) ∧ Sound v' ∧ v'.itemSize = v.itemSize ∧
      Holds v' xs.dropLast ∧ (res ≠ 0 → v' = v) := by
  have hcount := hxs.count
  unfold vectorPopBack
  rcases List.eq_nil_or_concat xs with rfl | ⟨ys, x, rfl⟩
  · have hempty : v.size < 1 := by
      rw [← hcount]
      simp
    exact ⟨1, v, if_pos hempty, hv, rfl, hxs, fun _ => rfl⟩
  rw [List.concat_eq_append] at hxs hcount ⊢
  rw [List.length_append, List.length_singleton] at hcount
  have hsize := hv.size_le
  have hlt := hv.size_lt
  obtain ⟨bs, hdata, hbs⟩ := hv.live (by omega)
  obtain ⟨res, v', hrun, hv', hitem, hholds, hres⟩ := eraseMulti_spec hv hxs calls (v.size - 1) v.size
  have hend := hv.end_le
  have hone : (v.size - 1) * v.itemSize + v.itemSize = v.size * v.itemSize := by
    rw [← Nat.succ_mul, Nat.succ_eq_add_one, Nat.sub_add_cancel (by omega)]
  have hread : v.data.read (vectorBack v) v.itemSize = .ok x := by
    have hfilled := hxs.filled
    rw [Vec.filled, hdata, bytes_live] at hfilled
    have hlast : load bs ((v.size - 1) * v.itemSize) v.itemSize = x := by
      have hdrop := drop_flatten (v.size - 1) hxs.item
      have hlen : v.size - 1 = ys.length := by omega
      have hwidth : v.size * v.itemSize - (v.size - 1) * v.itemSize = v.itemSize := by omega
      rw [← hfilled, load_drop, zero_add, hwidth] at hdrop
      rw [hdrop, hlen, List.drop_left, List.flatten_cons, List.flatten_nil, List.append_nil]
    rw [vectorBack, hv.at_eq (by omega), hdata, read_inside (by omega), hlast]
  have herase : vectorErase v calls (v.size - 1) = .ok (res, v', calls) := by
    rw [vectorErase, Nat.sub_add_cancel (by omega), Nat.mod_eq_of_lt (by omega)]
    exact hrun
  refine ⟨res, v', ?_, hv', hitem, ?_, hres⟩
  · rw [if_neg (by omega), hread, ok_bind, herase, ok_bind, List.getLast?_concat]
  · rw [if_pos (by omega)] at hholds
    have htake : v.size - 1 = ys.length := by omega
    have hdrop : (ys ++ [x]).drop v.size = [] := List.drop_of_length_le (by simp; omega)
    rw [List.dropLast_concat]
    rwa [htake, List.take_left, hdrop, List.append_nil] at hholds

/-- **Resizing** cuts off, or fills up with zero items. -/
theorem resize_spec (hv : Sound v) (hxs : Holds v xs) (calls : ℕ) {n : ℕ}
    (hyes : ∀ k, ¬ Refused grants k n v.itemSize) : ∃ calls' v', vectorResize grants v calls n = .ok (0, v', calls') ∧
      Sound v' ∧ v'.itemSize = v.itemSize ∧
        Holds v' (xs.take n ++ List.replicate (n - v.size) (List.replicate v.itemSize 0)) := by
  obtain ⟨calls', v', hres, hv', hcap, hsame⟩ := @reserve_granted _ _ calls _ hv hyes
  have hxs' := hxs.same hsame
  have hsize := hsame.size
  have hcount := hxs.count
  unfold vectorResize
  simp only [hres, ok_bind, ne_eq, not_true_eq_false, if_false]
  by_cases hgrow : v'.size < n
  · obtain ⟨bs, hdata, hbs⟩ := hv'.live (by omega)
    have hroom : v'.size * v'.itemSize + (n - v'.size) * v'.itemSize ≤ v'.capacity * v'.itemSize := by
      rw [← Nat.add_mul]
      exact Nat.mul_le_mul_right _ (by omega)
    have hfits := hv'.fits
    have hlen : (List.replicate ((n - v'.size) * v'.itemSize) (0 : UInt8)).length = (n - v'.size) * v'.itemSize := by simp
    have hzero : List.replicate ((n - v'.size) * v'.itemSize) (0 : UInt8) =
        (List.replicate (n - v'.size) (List.replicate v'.itemSize 0)).flatten := by simp
    obtain ⟨hsound, hholds⟩ := @sound_store v' xs v'.size (n - v'.size) bs _ hv' hdata hlen le_rfl (by omega) hxs' _ hzero
      (by simp) fun y hy => by rw [List.eq_of_mem_replicate hy, List.length_replicate]
    have hwrite : v'.data.write (vectorEnd v') (List.replicate ((n - v'.size) * v'.itemSize % 2 ^ 64) 0) =
        .ok (.live (store bs (v'.size * v'.itemSize) (List.replicate ((n - v'.size) * v'.itemSize) 0))) := by
      rw [Nat.mod_eq_of_lt (by omega), hv'.end_eq, hdata]
      apply write_inside
      rw [hlen, hbs]
      exact hroom
    have hsum : v'.size + (n - v'.size) = n := by omega
    rw [hsum] at hsound hholds
    refine ⟨calls', _, ?_, hsound, hsame.itemSize, ?_⟩
    · simp only [if_pos hgrow, hwrite, ok_bind]
    · have hall : xs.take n = xs := List.take_of_length_le (by omega)
      have hall' : xs.take v'.size = xs := List.take_of_length_le (by omega)
      rw [hall'] at hholds
      rwa [hall, ← hsize, ← hsame.itemSize]
  · have hle : n * v'.itemSize ≤ v'.size * v'.itemSize := Nat.mul_le_mul_right _ (by omega)
    refine ⟨calls', { v' with size := n }, if_neg hgrow, ⟨hv'.item, hv'.word, hcap, hv'.room, hv'.alive, hv'.fits⟩,
      hsame.itemSize, ?_⟩
    have hnone : n - v.size = 0 := by omega
    rw [hnone, List.replicate_zero, List.append_nil]
    refine ⟨?_, ?_, fun x hx => hxs'.item x (List.mem_of_mem_take hx)⟩
    · have hfilled := hxs'.filled
      rw [← take_flatten n hxs'.item, ← hfilled, Vec.filled, Vec.filled, load_take _ _ hle]
    · rw [List.length_take]
      dsimp only
      omega

end Spec

end Vectors

end Retif
