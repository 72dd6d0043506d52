/-
# The vector over whole runs

Any sequence of the operations on a vector, next to the same operations on a
list of items. While the system has memory and nothing is inserted before the
end, the first `size` items are that list and no move leaves the block; an
insertion before the end always does (`vector_refines_list`).

Key definitions: `Op`, `exec`, `Op.onList`, `Allowed`, `AtEnd`, `Models`.
Key theorems: `holds_items`, `exec_spec`, `exec_returns_iff`, `vector_refines_list`.
-/
import Retif.Vectors
import Retif.Lib.Unwinding

namespace Retif

namespace Vectors

open Blocks Memory

/-! ### Operations -/

inductive Op where
  | init (itemSize : ℕ)
  | pushBack (value : ℕ → UInt8)
  | insert (pos : ℕ) (value : ℕ → UInt8)
  | insertNcopies (pos count : ℕ) (value : ℕ → UInt8)
  | insertMulti (pos : ℕ) (src : ℕ → UInt8) (first last : ℕ)
  | erase (pos : ℕ)
  | eraseMulti (first last : ℕ)
  | popBack
  | resize (desSize : ℕ)
  | reserve (newCap : ℕ)
  | shrinkToFit
  | clear

/-- One call: what it returns, and the vector after it. -/
def exec (grants : Grants) (s : Vec × ℕ) : Op → Outcome
  | .init itemSize => .ok (0, vectorInitialize itemSize, s.2)
  | .pushBack value => vectorPushBack grants s.1 s.2 value
  | .insert pos value => vectorInsert grants s.1 s.2 pos value
  | .insertNcopies pos count value => vectorInsertNcopies grants s.1 s.2 pos count value
  | .insertMulti pos src first last => vectorInsertMulti grants s.1 s.2 pos src first last
  | .erase pos => vectorErase s.1 s.2 pos
  | .eraseMulti first last => vectorEraseMulti s.1 s.2 first last
  | .popBack => do
    let (_, after) ← vectorPopBack s.1 s.2
    .ok after
  | .resize desSize => vectorResize grants s.1 s.2 desSize
  | .reserve newCap => vectorReserve grants s.1 s.2 newCap
  | .shrinkToFit => vectorShrinkToFit grants s.1 s.2
  | .clear => vectorClear grants s.1 s.2

/-- The items that lie between two addresses. -/
def itemsBetween (src : ℕ → UInt8) (itemSize first last : ℕ) : List (List UInt8) :=
  (List.range ((last - first) / itemSize)).map fun i => bytesBetween src (first + i * itemSize) (first + (i + 1) * itemSize)

/-- What an operation is on a list of items, next to the size of one; positions
that are not there change nothing. -/
def Op.onList : Op → ℕ × List (List UInt8) → ℕ × List (List UInt8)
  | .init itemSize, _ => (itemSize, [])
  | .pushBack value, (n, xs) => (n, xs ++ [bytesBetween value 0 n])
  | .insert pos value, (n, xs) => (n, if pos ≤ xs.length then xs.take pos ++ [bytesBetween value 0 n] ++ xs.drop pos else xs)
  | .insertNcopies pos count value, (n, xs) =>
    (n, if pos ≤ xs.length then xs.take pos ++ List.replicate count (bytesBetween value 0 n) ++ xs.drop pos else xs)
  | .insertMulti pos src first last, (n, xs) =>
    (n, if pos ≤ xs.length then xs.take pos ++ itemsBetween src n first last ++ xs.drop pos else xs)
  | .erase pos, (n, xs) => (n, xs.eraseIdx pos)
  | .eraseMulti first last, (n, xs) =>
    (n, if first ≤ last ∧ last ≤ xs.length then xs.take first ++ xs.drop last else xs)
  | .popBack, (n, xs) => (n, xs.dropLast)
  | .resize desSize, (n, xs) => (n, xs.take desSize ++ List.replicate (desSize - xs.length) (List.replicate n 0))
  | .reserve _, (n, xs) | .shrinkToFit, (n, xs) => (n, xs)
  | .clear, (n, _) => (n, [])

/-- The call is for whole items, of which there can be so many in memory, and not
for a vector of no capacity at all. -/
def Allowed (s : Vec × ℕ) : Op → Prop
  | .init itemSize => 0 < itemSize ∧ itemSize < 2 ^ 64
  | .pushBack _ | .insert _ _ => (s.1.size + 1) * s.1.itemSize < 2 ^ 63
  | .insertNcopies _ count _ => (s.1.size + count) * s.1.itemSize < 2 ^ 63
  | .insertMulti _ _ first last => s.1.itemSize ∣ last - first ∧ s.1.size * s.1.itemSize + (last - first) < 2 ^ 63
  | .resize n | .reserve n => n * s.1.itemSize < 2 ^ 63
  | .shrinkToFit => s.1.size ≠ 0 ∨ s.1.capacity = 0
  | .erase _ | .eraseMulti _ _ | .popBack | .clear => True

/-- Nothing is inserted before the end. -/
def AtEnd (s : Vec × ℕ) : Op → Prop
  | .insert pos _ => s.1.size ≤ pos
  | .insertNcopies pos count _ => s.1.size < pos ∨ count = 0 ∨ count = 1 ∧ pos = s.1.size
  | .insertMulti pos _ first last => s.1.size ≤ pos ∨ last ≤ first
  | .init _ | .pushBack _ | .erase _ | .eraseMulti _ _ | .popBack | .resize _ | .reserve _ | .shrinkToFit | .clear =>
    True

section Spec

variable {grants : Grants} {v : Vec} {calls : ℕ} {xs : List (List UInt8)} {op : Op}

/-! ### Items -/

/-- Where the vector holds `xs`, these are its items. -/
theorem holds_items (hxs : Holds v xs) : v.items = xs := by
  apply List.ext_getElem
  · simp [Vec.items, hxs.count]
  intro i hi hi'
  have hpos : i < v.size := by
    rw [← hxs.count]
    exact hi'
  have hone : i * v.itemSize + v.itemSize ≤ v.size * v.itemSize := by
    rw [← Nat.succ_mul]
    exact Nat.mul_le_mul_right _ hpos
  have hdrop := drop_flatten i hxs.item
  rw [← hxs.filled, Vec.filled, load_drop, zero_add] at hdrop
  have htake := @take_flatten v.itemSize 1 (xs.drop i) fun x hx => hxs.item x (List.mem_of_mem_drop hx)
  rw [Nat.one_mul, ← hdrop, load_take _ _ (by omega), List.drop_eq_getElem_cons hi', List.take_succ_cons, List.take_zero,
    List.flatten_cons, List.flatten_nil, List.append_nil] at htake
  simpa [Vec.items] using htake

theorem itemsBetween_flatten {src : ℕ → UInt8} {first last n : ℕ} (hn : n ∣ last - first) :
    bytesBetween src first last = (itemsBetween src n first last).flatten := by
  have hblocks : ∀ k, (List.range (k * n)).map (fun i => src (first + i)) =
      ((List.range k).map fun i => bytesBetween src (first + i * n) (first + (i + 1) * n)).flatten := by
    intro k
    induction k with
    | zero => simp
    | succ k ih =>
      have hwidth : first + (k + 1) * n - (first + k * n) = n := by
        rw [Nat.succ_mul]
        omega
      rw [Nat.succ_mul, List.range_add, List.map_append, ih, List.range_succ, List.map_append, List.flatten_append,
        List.map_singleton, List.flatten_singleton, bytesBetween, hwidth, List.map_map]
      simp [Function.comp_def, Nat.add_assoc]
  have hall := hblocks ((last - first) / n)
  rwa [Nat.div_mul_cancel hn] at hall

theorem itemsBetween_item {src : ℕ → UInt8} {first last n : ℕ} : ∀ y ∈ itemsBetween src n first last, y.length = n := by
  intro y hy
  obtain ⟨i, -, rfl⟩ := List.mem_map.mp hy
  rw [bytesBetween_length, Nat.succ_mul]
  omega

theorem itemsBetween_length {src : ℕ → UInt8} {first last n : ℕ} :
    (itemsBetween src n first last).length = (last - first) / n := by simp [itemsBetween]

/-- Where the system has memory, a request is refused only if it is too large. -/
theorem not_refused (hgr : ∀ k, grants k ≠ none) {n size : ℕ} (hfits : n * size < 2 ^ 63) (k : ℕ) :
    ¬ Refused grants k n size := by
  rintro (hnone | hbig)
  · exact hgr k hnone
  · omega

/-! ### One call -/

/-- An insertion of one item at the end. -/
theorem insert_end (hv : Sound v) (hxs : Holds v xs) (hgr : ∀ k, grants k ≠ none)
    (hfits : (v.size + 1) * v.itemSize < 2 ^ 63) (value : ℕ → UInt8) : ∃ calls' v',
      vectorInsert grants v calls v.size value = .ok (0, v', calls') ∧ Sound v' ∧ v'.itemSize = v.itemSize ∧
        Holds v' (xs ++ [bytesBetween value 0 v.itemSize]) := by
  refine insertMulti_end hv hxs ?_ ?_ (Nat.zero_le _) (not_refused hgr hfits)
  · simp
  · simp

theorem insert_beyond {pos : ℕ} {value : ℕ → UInt8} (hv : Sound v) (hpos : v.size < pos) :
    vectorInsert grants v calls pos value = .ok (1, v, calls) := by
  have hitem := hv.item
  simp only [vectorInsert, vectorInsertMulti, if_neg hitem.ne, if_neg (not_lt.mpr hitem.le), gt_iff_lt, if_pos hpos]

/-- Where the system has memory, an insertion before the end leaves the block. -/
theorem insertMulti_leaves {pos first last : ℕ} {src : ℕ → UInt8} (hv : Sound v) (hpos : pos < v.size) (hlt : first < last)
    (hsrc : last - first < 2 ^ 63) (hyes : ∀ k, ¬ Refused grants k (v.size + (last - first) / v.itemSize) v.itemSize) :
    vectorInsertMulti grants v calls pos src first last = .error .outside := by
  have hsum := size_lt_of_not_refused hv.item (hyes 0)
  obtain ⟨calls', hno, -⟩ | ⟨calls', v', -, hrun⟩ :=
    @insertMulti_middle v pos first last src hv grants calls hpos hlt (by omega) (by omega)
  · obtain ⟨calls'', v', hres, -⟩ := @reserve_granted _ _ calls _ hv hyes
    rw [hno] at hres
    cases hres
  · exact hrun

theorem insert_leaves {pos : ℕ} {value : ℕ → UInt8} (hv : Sound v) (hgr : ∀ k, grants k ≠ none)
    (hfits : (v.size + 1) * v.itemSize < 2 ^ 63) (hpos : pos < v.size) :
    vectorInsert grants v calls pos value = .error .outside := by
  have hone : 1 * v.itemSize ≤ (v.size + 1) * v.itemSize := Nat.mul_le_mul_right _ (by omega)
  refine insertMulti_leaves hv hpos hv.item (by omega) ?_
  rw [Nat.sub_zero, Nat.div_self hv.item]
  exact not_refused hgr hfits

/-- The call returns, with a sound vector that holds what the operation makes of the list. -/
def Models (grants : Grants) (v : Vec) (calls : ℕ) (xs : List (List UInt8)) (op : Op) : Prop :=
  ∃ res v' calls', exec grants (v, calls) op = .ok (res, v', calls') ∧ Sound v' ∧
    v'.itemSize = (op.onList (v.itemSize, xs)).1 ∧ Holds v' (op.onList (v.itemSize, xs)).2

/-- A call that changes nothing, where nothing is to change. -/
theorem models_same {res : ℕ} (hv : Sound v) (hxs : Holds v xs) (hrun : exec grants (v, calls) op = .ok (res, v, calls))
    (hsame : op.onList (v.itemSize, xs) = (v.itemSize, xs)) : Models grants v calls xs op := by
  refine ⟨res, v, calls, hrun, hv, ?_, ?_⟩
  · rw [hsame]
  · rwa [hsame]

theorem insert_models {pos : ℕ} {value : ℕ → UInt8} (hv : Sound v) (hxs : Holds v xs) (hgr : ∀ k, grants k ≠ none)
    (hop : Allowed (v, calls) (.insert pos value)) (hend : v.size ≤ pos) : Models grants v calls xs (.insert pos value) := by
  have hcount := hxs.count
  rcases hend.eq_or_lt with rfl | hlt
  · obtain ⟨calls', v', hrun, hv', hitem, hholds⟩ := insert_end hv hxs hgr hop value
    refine ⟨0, v', calls', hrun, hv', hitem, ?_⟩
    simpa [Op.onList, ← hcount] using hholds
  · have hout : ¬ pos ≤ xs.length := by omega
    exact models_same hv hxs (insert_beyond hv hlt) (by simp [Op.onList, hout])

theorem insertNcopies_models {pos count : ℕ} {value : ℕ → UInt8} (hv : Sound v) (hxs : Holds v xs)
    (hgr : ∀ k, grants k ≠ none) (hop : Allowed (v, calls) (.insertNcopies pos count value))
    (hend : AtEnd (v, calls) (.insertNcopies pos count value)) : Models grants v calls xs (.insertNcopies pos count value) := by
  have hcount := hxs.count
  rcases hend with hlt | rfl | ⟨rfl, rfl⟩
  · have hout : ¬ pos ≤ xs.length := by
      rw [hcount]
      exact not_le.mpr hlt
    have hsame : (Op.insertNcopies pos count value).onList (v.itemSize, xs) = (v.itemSize, xs) := by simp [Op.onList, hout]
    cases count with
    | zero => exact models_same hv hxs rfl hsame
    | succ count =>
      refine @models_same _ _ _ _ _ 1 hv hxs ?_ hsame
      simp only [exec, vectorInsertNcopies, insert_beyond hv hlt, ok_bind, one_ne_zero, if_false]
  · exact models_same hv hxs rfl (by simp [Op.onList])
  · obtain ⟨calls', v', hrun, hv', hitem, hholds⟩ := @insert_end _ _ calls _ hv hxs hgr hop value
    refine ⟨0, v', calls', ?_, hv', hitem, ?_⟩
    · simp only [exec, vectorInsertNcopies, hrun, ok_bind, if_true]
    · simpa [Op.onList, ← hcount] using hholds

theorem insertMulti_models {pos first last : ℕ} {src : ℕ → UInt8} (hv : Sound v) (hxs : Holds v xs)
    (hgr : ∀ k, grants k ≠ none) (hop : Allowed (v, calls) (.insertMulti pos src first last))
    (hend : v.size ≤ pos ∨ last ≤ first) : Models grants v calls xs (.insertMulti pos src first last) := by
  have hcount := hxs.count
  obtain ⟨hdvd, hfits⟩ := hop
  dsimp only at hdvd hfits
  rcases Nat.lt_or_ge first last with hlt | hge
  · rcases (hend.resolve_right (not_le.mpr hlt)).eq_or_lt with rfl | hout
    · have hbytes : (v.size + (itemsBetween src v.itemSize first last).length) * v.itemSize < 2 ^ 63 := by
        rwa [itemsBetween_length, Nat.add_mul, Nat.div_mul_cancel hdvd]
      obtain ⟨calls', v', hrun, hv', hitem, hholds⟩ := @insertMulti_end _ _ calls _ _ _ _ _ hv hxs
        (itemsBetween_flatten hdvd) itemsBetween_item hlt.le (not_refused hgr hbytes)
      refine ⟨0, v', calls', hrun, hv', hitem, ?_⟩
      simpa [Op.onList, ← hcount] using hholds
    · have hnot : ¬ pos ≤ xs.length := by omega
      refine @models_same _ _ _ _ _ 1 hv hxs ?_ (by simp [Op.onList, hnot])
      simp only [exec, vectorInsertMulti, if_neg hlt.ne, if_neg (not_lt.mpr hlt.le), gt_iff_lt, if_pos hout]
  · have hnone : itemsBetween src v.itemSize first last = [] := by
      rw [itemsBetween, Nat.sub_eq_zero_of_le hge, Nat.zero_div]
      rfl
    have hsame : (Op.insertMulti pos src first last).onList (v.itemSize, xs) = (v.itemSize, xs) := by simp [Op.onList, hnone]
    rcases hge.eq_or_lt with rfl | hgt
    · exact models_same hv hxs (if_pos rfl) hsame
    · refine @models_same _ _ _ _ _ 1 hv hxs ?_ hsame
      simp only [exec, vectorInsertMulti, if_neg hgt.ne', gt_iff_lt, if_pos hgt]

/-- **One call** that is allowed and inserts nothing before the end does what it
does to a list. -/
theorem exec_spec (hv : Sound v) (hxs : Holds v xs) (hgr : ∀ k, grants k ≠ none) (hop : Allowed (v, calls) op)
    (hend : AtEnd (v, calls) op) : Models grants v calls xs op := by
  have hcount := hxs.count
  cases op with
  | init itemSize =>
    refine ⟨0, _, _, rfl, initialize_sound hop.1 hop.2, rfl, ?_⟩
    exact ⟨by simp [vectorInitialize, Vec.filled, load, Op.onList], rfl, by simp [Op.onList]⟩
  | pushBack value =>
    obtain ⟨calls', v', hrun, hv', hitem, hholds⟩ := insert_end hv hxs hgr hop value
    exact ⟨0, v', calls', hrun, hv', hitem, hholds⟩
  | insert pos value => exact insert_models hv hxs hgr hop hend
  | insertNcopies pos count value => exact insertNcopies_models hv hxs hgr hop hend
  | insertMulti pos src first last => exact insertMulti_models hv hxs hgr hop hend
  | erase pos =>
    obtain ⟨res, v', hrun, hv', hitem, hholds, -⟩ := eraseMulti_spec hv hxs calls pos ((pos + 1) % 2 ^ 64)
    refine ⟨res, v', calls, hrun, hv', hitem, ?_⟩
    have hlt := hv.size_lt
    rcases Nat.lt_or_ge pos v.size with hin | hout
    · rw [Nat.mod_eq_of_lt (by omega), if_pos (by omega)] at hholds
      rwa [Op.onList, List.eraseIdx_eq_take_drop_succ]
    · rw [if_neg (by omega)] at hholds
      rwa [Op.onList, List.eraseIdx_of_length_le (by omega)]
  | eraseMulti first last =>
    obtain ⟨res, v', hrun, hv', hitem, hholds, -⟩ := eraseMulti_spec hv hxs calls first last
    refine ⟨res, v', calls, hrun, hv', hitem, ?_⟩
    rw [← hcount] at hholds
    exact hholds
  | popBack =>
    obtain ⟨res, v', hrun, hv', hitem, hholds, -⟩ := popBack_spec hv hxs calls
    refine ⟨res, v', calls, ?_, hv', hitem, hholds⟩
    simp only [exec, hrun, ok_bind]
  | resize desSize =>
    obtain ⟨calls', v', hrun, hv', hitem, hholds⟩ := @resize_spec _ _ _ hv hxs calls _ (not_refused hgr hop)
    rw [← hcount] at hholds
    exact ⟨0, v', calls', hrun, hv', hitem, hholds⟩
  | reserve newCap =>
    obtain ⟨calls', v', hrun, hv', -, hsame⟩ := @reserve_granted _ _ calls _ hv (not_refused hgr hop)
    exact ⟨0, v', calls', hrun, hv', hsame.itemSize, hxs.same hsame⟩
  | shrinkToFit =>
    by_cases hfull : v.capacity = v.size
    · exact ⟨0, v, calls, if_pos hfull, hv, rfl, hxs⟩
    · have hle := hv.size_le
      have hbytes := lt_of_le_of_lt hv.end_le hv.fits
      have hop : v.size ≠ 0 ∨ v.capacity = 0 := hop
      have hsome : 0 < v.size := by omega
      obtain ⟨v', hrun, hv', -, hsame⟩ := realloc_granted hv hfull le_rfl hsome (not_refused hgr hbytes calls)
      exact ⟨0, v', calls + 1, hrun, hv', hsame.itemSize, hxs.same hsame⟩
  | clear =>
    have hzero : 0 * v.itemSize < 2 ^ 63 := by omega
    obtain ⟨calls', v', hrun, hv', hitem, hholds⟩ := @resize_spec _ _ _ hv hxs calls _ (not_refused hgr hzero)
    refine ⟨0, v', calls', hrun, hv', hitem, ?_⟩
    simpa [Op.onList] using hholds

/-- A call that is allowed but inserts before the end leaves the block. -/
theorem exec_leaves (hv : Sound v) (hxs : Holds v xs) (hgr : ∀ k, grants k ≠ none) (hop : Allowed (v, calls) op)
    (hend : ¬ AtEnd (v, calls) op) : exec grants (v, calls) op = .error .outside := by
  cases op with
  | insert pos value => exact insert_leaves hv hgr hop (not_le.mp hend)
  | insertNcopies pos count value =>
    simp only [AtEnd, not_or, not_lt] at hend
    obtain ⟨hpos, hcount, hone⟩ := hend
    obtain ⟨count, rfl⟩ := Nat.exists_eq_succ_of_ne_zero hcount
    have hfits : (v.size + (count + 1)) * v.itemSize < 2 ^ 63 := hop
    have hfirst : (v.size + 1) * v.itemSize ≤ (v.size + (count + 1)) * v.itemSize := Nat.mul_le_mul_right _ (by omega)
    rcases hpos.eq_or_lt with rfl | hlt
    · -- the first copy is appended, and the second comes before it
      obtain ⟨calls', v', hrun, hv', hitem, hholds⟩ := @insert_end _ _ calls _ hv hxs hgr (by omega) value
      have hsize : v'.size = v.size + 1 := by
        rw [← hholds.count, List.length_append, hxs.count, List.length_singleton]
      obtain ⟨count, rfl⟩ := Nat.exists_eq_succ_of_ne_zero (show count ≠ 0 by omega)
      have hsecond : (v'.size + 1) * v'.itemSize < 2 ^ 63 := by
        refine lt_of_le_of_lt ?_ hfits
        rw [hitem]
        exact Nat.mul_le_mul_right _ (by omega)
      have hleaves := @insert_leaves _ _ calls' v.size value hv' hgr hsecond (by omega)
      simp only [exec, vectorInsertNcopies, hrun, ok_bind, if_true, hleaves, error_bind]
    · simp only [exec, vectorInsertNcopies, insert_leaves hv hgr (by omega) hlt, error_bind]
  | insertMulti pos src first last =>
    simp only [AtEnd, not_or, not_le] at hend
    obtain ⟨hdvd, hfits⟩ := hop
    dsimp only at hdvd hfits
    refine insertMulti_leaves hv hend.1 hend.2 (by omega) (not_refused hgr ?_)
    rwa [Nat.add_mul, Nat.div_mul_cancel hdvd]
  | init _ | pushBack _ | erase _ | eraseMulti _ _ | popBack | resize _ | reserve _ | shrinkToFit | clear =>
    exact absurd trivial hend

/-! ### Runs -/

/-- **The vector is a list.** In every run that inserts nothing before the end, the
first `size` items are what the operations make of a list, the size is within the
capacity, and a call stays in the block just when it does not insert before the end. -/
theorem vector_refines_list {n : ℕ} (hn : 0 < n ∧ n < 2 ^ 64) (hgr : ∀ k, grants k ≠ none) {ops : List Op} {s : Vec × ℕ}
    (h : Runs (exec grants) (fun s op => Allowed s op ∧ AtEnd s op) (vectorInitialize n, 0) ops s) :
    (s.1.itemSize, s.1.items) = ops.foldl (fun a op => op.onList a) (n, []) ∧ s.1.size ≤ s.1.capacity ∧
      ∀ op, Allowed s op → ((∃ r, exec grants s op = .ok r) ↔ AtEnd s op) := by
  have hinv : Sound s.1 ∧ s.1.itemSize = (ops.foldl (fun a op => op.onList a) (n, [])).1 ∧
      Holds s.1 (ops.foldl (fun a op => op.onList a) (n, [])).2 := by
    induction h with
    | nil =>
      refine ⟨initialize_sound hn.1 hn.2, rfl, ?_⟩
      exact ⟨by simp [vectorInitialize, Vec.filled, load], rfl, by simp⟩
    | @snoc os op s s' r _ hgood hstep ih =>
      obtain ⟨hv, hitem, hxs⟩ := ih
      obtain ⟨res, v', calls', hrun, hv', hitem', hholds⟩ := exec_spec hv hxs hgr hgood.1 hgood.2
      obtain ⟨-, rfl⟩ := Prod.mk.inj (Except.ok.inj (hstep.symm.trans hrun))
      rw [List.foldl_append, List.foldl_cons, List.foldl_nil]
      rw [hitem] at hitem' hholds
      exact ⟨hv', hitem', hholds⟩
  obtain ⟨hv, hitem, hxs⟩ := hinv
  refine ⟨Prod.ext hitem (holds_items hxs), hv.size_le, ?_⟩
  intro op hop
  constructor
  · rintro ⟨r, hr⟩
    by_contra hend
    rw [exec_leaves hv hxs hgr hop hend] at hr
    cases hr
  · intro hend
    obtain ⟨res, v', calls', hrun, -⟩ := exec_spec hv hxs hgr hop hend
    exact ⟨_, hrun⟩

end Spec

/-- Memory that there always is, with zeros in it. -/
def zeros : Grants := fun _ => some fun _ => 0

/-- Three items of two bytes, of which the middle one is erased, and a resize to three again. -/
def threeItems : List Op := [.pushBack fun _ => 7, .pushBack fun _ => 8, .pushBack fun _ => 9, .erase 1, .resize 3]

theorem vector_refines_list_three : ∃ s : Vec × ℕ, (s.1.itemSize, s.1.items) = (2, [[7, 7], [9, 9], [0, 0]]) ∧
    s.1.size ≤ s.1.capacity ∧ ∀ op, Allowed s op → ((∃ r, exec zeros s op = .ok r) ↔ AtEnd s op) := by
  have hfirst : exec zeros (vectorInitialize 2, 0) (.pushBack fun _ => 7) = .ok (0, ⟨1, 2, 1, .live [7, 7]⟩, 1) := rfl
  have hsecond : exec zeros (⟨1, 2, 1, .live [7, 7]⟩, 1) (.pushBack fun _ => 8) =
      .ok (0, ⟨2, 2, 2, .live [7, 7, 8, 8]⟩, 2) := rfl
  have hthird : exec zeros (⟨2, 2, 2, .live [7, 7, 8, 8]⟩, 2) (.pushBack fun _ => 9) =
      .ok (0, ⟨4, 2, 3, .live [7, 7, 8, 8, 9, 9, 0, 0]⟩, 3) := rfl
  have herase : exec zeros (⟨4, 2, 3, .live [7, 7, 8, 8, 9, 9, 0, 0]⟩, 3) (.erase 1) =
      .ok (0, ⟨4, 2, 2, .live [7, 7, 9, 9, 9, 9, 0, 0]⟩, 3) := rfl
  have hresize : exec zeros (⟨4, 2, 2, .live [7, 7, 9, 9, 9, 9, 0, 0]⟩, 3) (.resize 3) =
      .ok (0, ⟨4, 2, 3, .live [7, 7, 9, 9, 0, 0, 0, 0]⟩, 3) := rfl
  have hruns : Runs (exec zeros) (fun s op => Allowed s op ∧ AtEnd s op) (vectorInitialize 2, 0) threeItems
      (⟨4, 2, 3, .live [7, 7, 9, 9, 0, 0, 0, 0]⟩, 3) := by
    refine ((((Runs.nil.snoc ?_ hfirst).snoc ?_ hsecond).snoc ?_ hthird).snoc ?_ herase).snoc ?_ hresize
    all_goals
      simp [Allowed, AtEnd, vectorInitialize]
  exact ⟨_, vector_refines_list (by decide) (fun _ => Option.some_ne_none _) hruns⟩

/-- After two items a third one in front of them: the call leaves the block. -/
theorem vector_not_list : ∃ s : Vec × ℕ,
    Runs (exec zeros) Allowed (vectorInitialize 1, 0) [.pushBack fun _ => 7, .pushBack fun _ => 8] s ∧
      Allowed s (.insert 0 fun _ => 9) ∧ exec zeros s (.insert 0 fun _ => 9) = .error .outside := by
  have hfirst : exec zeros (vectorInitialize 1, 0) (.pushBack fun _ => 7) = .ok (0, ⟨1, 1, 1, .live [7]⟩, 1) := rfl
  have hsecond : exec zeros (⟨1, 1, 1, .live [7]⟩, 1) (.pushBack fun _ => 8) = .ok (0, ⟨2, 1, 2, .live [7, 8]⟩, 2) := rfl
  have hone : Runs (exec zeros) Allowed (vectorInitialize 1, 0) [.pushBack fun _ => 7] (⟨1, 1, 1, .live [7]⟩, 1) :=
    Runs.nil.snoc (by simp [Allowed, vectorInitialize]) hfirst
  exact ⟨_, hone.snoc (by simp [Allowed]) hsecond, by simp [Allowed], rfl⟩

end Vectors

end Retif
