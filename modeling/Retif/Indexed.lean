/-
# Access by index

`rtf_taskset_get_i_node` and `rtf_taskset_get_i_task` next to the iterator of a
taskset. The bound is checked as `list_get_size(l) < i + 1` on unsigned numbers:
for the last index the sum is 0, the check passes, and the walk runs off the end
of the chain. The task function returns the address of the field of the node
that holds the task, not the task.

Key definitions: `listGetINodeAt`, `listGetIElemAt`, `iteratorAfter`, `NodeRight`,
`TaskRight`.
Key theorems: `walk_inside`, `walk_outside`, `indexed_iff`.
-/
import Retif.Nodes

namespace Retif

open Chains

/-! ### The functions -/

section Functions

variable {α : Type}

/-- The loop of `list_get_i_node`: `j` is an `int`, the comparison unsigned. -/
def walkLoop (h : Cells α) (i : UInt32) : ℕ → Int32 → Option ℕ → Except Stop (Option ℕ)
  | 0, _, _ => .error .turns
  | fuel + 1, j, n =>
    if j.toUInt32 < i then do
      let node ← deref h n
      walkLoop h i fuel (j + 1) node.next
    else .ok n

/-- `list_get_i_node`. -/
def listGetINodeAt (fuel : ℕ) (h : Cells α) (l : StructList) (i : UInt32) : Except Stop (Option ℕ) :=
  if l.getSize.toUInt32 < i + 1 then .ok none else walkLoop h i fuel 0 l.root

/-- What an `any_t` of a taskset points to: a task, or the field `elem` of a node. -/
inductive AnyT where
  | task (a : Addr)
  | elemField (node : ℕ)
  deriving DecidableEq

/-- `list_get_i_elem`: `&(n->elem)`. -/
def listGetIElemAt (fuel : ℕ) (h : Cells Addr) (l : StructList) (i : UInt32) : Except Stop (Option AnyT) := do
  let n ← listGetINodeAt fuel h l i
  .ok (n.map .elemField)

/-- `rtf_taskset_get_i_node`. -/
def rtfTasksetGetINode (fuel : ℕ) (h : Cells Addr) (ts : StructList) (i : UInt32) : Except Stop (Option ℕ) :=
  listGetINodeAt fuel h ts i

/-- `rtf_taskset_get_i_task`. -/
def rtfTasksetGetITask (fuel : ℕ) (h : Cells Addr) (ts : StructList) (i : UInt32) : Except Stop (Option AnyT) :=
  listGetIElemAt fuel h ts i

def rtfTasksetIteratorInit (ts : StructList) : Option ℕ := ts.root

def rtfTasksetIteratorGetNext (h : Cells Addr) (iterator : Option ℕ) : Except Stop (Option ℕ) := do
  let node ← deref h iterator
  .ok node.next

def rtfTasksetIteratorGetElem (h : Cells Addr) (iterator : Option ℕ) : Except Stop AnyT := do
  let node ← deref h iterator
  .ok (.task node.elem)

/-- The iterator after some steps. -/
def iteratorAfter (h : Cells Addr) : ℕ → Option ℕ → Except Stop (Option ℕ)
  | 0, iterator => .ok iterator
  | k + 1, iterator => do
    let iterator ← rtfTasksetIteratorGetNext h iterator
    iteratorAfter h k iterator

end Functions

section Spec

variable {h : Cells Addr} {p : Option ℕ} {xs : List (ℕ × Addr)} {ts : StructList} {i : UInt32}

/-! ### The walk -/

theorem toUInt32_ofNat {m : ℕ} (hm : m < 2 ^ 31) : (Int32.ofNat m).toUInt32.toNat = m := by
  change (BitVec.ofNat 32 m).toNat = m
  rw [BitVec.toNat_ofNat]
  omega

theorem ofNat_succ (m : ℕ) : Int32.ofNat m + 1 = Int32.ofNat (m + 1) := (Int32.ofNat_add m 1).symm

/-- The size as the unsigned number it is compared as. -/
theorem getSize_toNat (hts : InMemory h ts xs) : ts.getSize.toUInt32.toNat = xs.length := by
  have hlt := hts.length_lt
  have hn : ts.n = Int32.ofNat xs.length := by
    rw [← Int32.toInt_inj, hts.count, Int32.toInt_ofNat_of_lt hlt]
  rw [StructList.getSize, hn, toUInt32_ofNat hlt]

/-- The walk is at the node with the number `i` when it ends. -/
theorem walk_inside {m k : ℕ} (hp : Seg h p xs none) (hk : m + k = i.toNat) (hle : k ≤ xs.length)
    (hlt : m + xs.length < 2 ^ 31) : ∃ mid, Seg h mid (xs.drop k) none ∧ iteratorAfter h k p = .ok mid ∧
      ∀ fuel, k < fuel → walkLoop h i fuel (Int32.ofNat m) p = .ok mid := by
  induction k generalizing m p xs with
  | zero =>
    refine ⟨p, hp, rfl, fun fuel hfuel => ?_⟩
    obtain ⟨fuel, rfl⟩ := Nat.exists_eq_succ_of_ne_zero hfuel.ne'
    have hstop : ¬ (Int32.ofNat m).toUInt32 < i := by
      rw [UInt32.lt_iff_toNat_lt, toUInt32_ofNat (by omega)]
      omega
    rw [walkLoop, if_neg hstop]
  | succ k ih =>
    rcases xs with _ | ⟨⟨a, x⟩, xs⟩
    · simp at hle
    obtain ⟨rfl, next, hcell, hrest⟩ := hp
    simp only [List.length_cons] at hle hlt
    obtain ⟨mid, hmid, hiter, hwalk⟩ := @ih next xs (m + 1) hrest (by omega) (by omega) (by omega)
    refine ⟨mid, hmid, ?_, fun fuel hfuel => ?_⟩
    · simp only [iteratorAfter, rtfTasksetIteratorGetNext, deref_cell hcell, ok_bind]
      exact hiter
    · obtain ⟨fuel, rfl⟩ := Nat.exists_eq_succ_of_ne_zero (Nat.ne_zero_of_lt hfuel)
      have hgo : (Int32.ofNat m).toUInt32 < i := by
        rw [UInt32.lt_iff_toNat_lt, toUInt32_ofNat (by omega)]
        omega
      rw [walkLoop, if_pos hgo, deref_cell hcell, ok_bind, ofNat_succ]
      exact hwalk fuel (by omega)

/-- Past the end of the chain the walk does not end. -/
theorem walk_outside {m : ℕ} (hp : Seg h p xs none) (hi : m + xs.length < i.toNat) (hlt : m + xs.length < 2 ^ 31)
    (fuel : ℕ) (r : Option ℕ) : walkLoop h i fuel (Int32.ofNat m) p ≠ .ok r := by
  induction fuel generalizing m p xs with
  | zero => simp [walkLoop]
  | succ fuel ih =>
    have hgo : (Int32.ofNat m).toUInt32 < i := by
      rw [UInt32.lt_iff_toNat_lt, toUInt32_ofNat (by omega)]
      omega
    rw [walkLoop, if_pos hgo]
    rcases xs with _ | ⟨⟨a, x⟩, xs⟩
    · obtain rfl : p = none := hp
      simp [deref]
    · obtain ⟨rfl, next, hcell, hrest⟩ := hp
      simp only [List.length_cons] at hi hlt
      rw [deref_cell hcell, ok_bind, ofNat_succ]
      exact @ih next xs (m + 1) hrest (by omega) (by omega)

/-! ### The two functions -/

/-- The node function: `NULL` just from the number of tasks on, else the node
that the iterator comes to. -/
def NodeRight (h : Cells Addr) (ts : StructList) (xs : List (ℕ × Addr)) (i : UInt32) : Prop :=
  ∃ r, Returns (fun fuel => rtfTasksetGetINode fuel h ts i) r ∧ (r = none ↔ xs.length ≤ i.toNat) ∧
    (r ≠ none → iteratorAfter h i.toNat (rtfTasksetIteratorInit ts) = .ok r)

/-- The task function: `NULL` just from the number of tasks on, else the task
that the iterator comes to. -/
def TaskRight (h : Cells Addr) (ts : StructList) (xs : List (ℕ × Addr)) (i : UInt32) : Prop :=
  ∃ r, Returns (fun fuel => rtfTasksetGetITask fuel h ts i) r ∧ (r = none ↔ xs.length ≤ i.toNat) ∧
    ∀ task, r = some task →
      (iteratorAfter h i.toNat (rtfTasksetIteratorInit ts) >>= rtfTasksetIteratorGetElem h) = .ok task

/-- What the walk of the node function comes to, for every index but the last. -/
theorem getINode_spec (hts : InMemory h ts xs) (hi : i ≠ UInt32.ofNat (2 ^ 32 - 1)) : ∃ r,
    Returns (fun fuel => listGetINodeAt fuel h ts i) r ∧ (r = none ↔ xs.length ≤ i.toNat) ∧
      (r ≠ none → iteratorAfter h i.toNat ts.root = .ok r) := by
  have hmax : i.toNat ≠ 2 ^ 32 - 1 := fun heq => hi (UInt32.toNat_inj.mp heq)
  have hbound : ts.getSize.toUInt32 < i + 1 ↔ xs.length ≤ i.toNat := by
    have hlt := i.toNat_lt
    have hsucc : (i + 1).toNat = i.toNat + 1 := by
      rw [UInt32.toNat_add, UInt32.toNat_one]
      omega
    rw [UInt32.lt_iff_toNat_lt, getSize_toNat hts, hsucc, Nat.lt_succ_iff]
  by_cases hle : xs.length ≤ i.toNat
  · refine ⟨none, ⟨0, fun fuel _ => ?_⟩, by simpa using hle, by simp⟩
    simp only [listGetINodeAt, if_pos (hbound.mpr hle)]
  · obtain ⟨mid, hmid, hiter, hwalk⟩ := @walk_inside h _ xs i 0 i.toNat hts.chain (by simp) (by omega)
      (by simpa using hts.length_lt)
    refine ⟨mid, ⟨i.toNat + 1, fun fuel hfuel => ?_⟩, ?_, fun _ => hiter⟩
    · simp only [listGetINodeAt, if_neg (mt hbound.mp hle)]
      exact hwalk fuel hfuel
    · rw [List.drop_eq_getElem_cons (by omega)] at hmid
      simp [hmid.1, hle]

/-- For the last index there is no answer. -/
theorem getINode_last (hts : InMemory h ts xs) (hi : i = UInt32.ofNat (2 ^ 32 - 1)) (fuel : ℕ) (r : Option ℕ) :
    listGetINodeAt fuel h ts i ≠ .ok r := by
  have hpass : ¬ ts.getSize.toUInt32 < i + 1 := by
    subst hi
    exact UInt32.not_lt_zero
  have hlt := hts.length_lt
  have hlast : i.toNat = 2 ^ 32 - 1 := by
    subst hi
    rfl
  rw [listGetINodeAt, if_neg hpass]
  exact @walk_outside h _ xs i 0 hts.chain (by omega) (by omega) fuel r

theorem nodeRight_iff (hts : InMemory h ts xs) : NodeRight h ts xs i ↔ i ≠ UInt32.ofNat (2 ^ 32 - 1) := by
  constructor
  · rintro ⟨r, ⟨turns, hrun⟩, -⟩ hi
    exact getINode_last hts hi turns r (hrun turns le_rfl)
  · exact getINode_spec hts

/-- The iterator gives a task, never a place in a node. -/
theorem iteratorGetElem_ne {iterator : Option ℕ} (node : ℕ) :
    rtfTasksetIteratorGetElem h iterator ≠ .ok (.elemField node) := by
  intro helem
  obtain ⟨cell, -, heq⟩ := bind_ok.mp helem
  cases heq

theorem taskRight_iff (hts : InMemory h ts xs) :
    TaskRight h ts xs i ↔ xs.length ≤ i.toNat ∧ i ≠ UInt32.ofNat (2 ^ 32 - 1) := by
  constructor
  · rintro ⟨r, ⟨turns, hrun⟩, hnone, htask⟩
    have hlast : i ≠ UInt32.ofNat (2 ^ 32 - 1) := by
      intro hi
      obtain ⟨n, hn, -⟩ := bind_ok.mp (hrun turns le_rfl)
      exact getINode_last hts hi turns n hn
    refine ⟨?_, hlast⟩
    obtain ⟨n, ⟨turns', hwalk⟩, hn, -⟩ := getINode_spec hts hlast
    obtain ⟨n', hn', hr⟩ := bind_ok.mp (hrun (max turns turns') (le_max_left ..))
    obtain rfl : n' = n := Except.ok.inj (hn'.symm.trans (hwalk _ (le_max_right ..)))
    cases n' with
    | none => exact hn.mp rfl
    | some n =>
      obtain ⟨iterator, -, helem⟩ := bind_ok.mp (htask (.elemField n) (Except.ok.inj hr).symm)
      exact absurd helem (iteratorGetElem_ne n)
  · rintro ⟨hle, hi⟩
    obtain ⟨n, ⟨turns, hwalk⟩, hn, -⟩ := getINode_spec hts hi
    obtain rfl := hn.mpr hle
    refine ⟨none, ⟨turns, fun fuel hfuel => ?_⟩, by simpa using hle, by simp⟩
    exact bind_ok.mpr ⟨none, hwalk fuel hfuel, rfl⟩

/-- **Access by index.** The node function is right for every index but
2 ^ 32 - 1, both functions are only where there is no task. -/
theorem indexed_iff (hts : InMemory h ts xs) (i : UInt32) :
    (NodeRight h ts xs i ∧ TaskRight h ts xs i ↔ xs.length ≤ i.toNat ∧ i ≠ UInt32.ofNat (2 ^ 32 - 1)) ∧
      (NodeRight h ts xs i ↔ i ≠ UInt32.ofNat (2 ^ 32 - 1)) := by
  refine ⟨?_, nodeRight_iff hts⟩
  rw [taskRight_iff hts]
  exact and_iff_right_of_imp fun hright => (nodeRight_iff hts).mpr hright.2

/-- The nodes of a taskset with the tasks 10, 20 and 30. -/
def threeNodes : Cells Addr := fun a =>
  if a = 1 then some ⟨some 3, 10⟩ else if a = 3 then some ⟨some 2, 20⟩ else if a = 2 then some ⟨none, 30⟩ else none

theorem threeNodes_inMemory : InMemory threeNodes ⟨3, some 1⟩ [(1, 10), (3, 20), (2, 30)] :=
  ⟨⟨rfl, some 3, rfl, rfl, some 2, rfl, rfl, none, rfl, rfl⟩, by decide⟩

/-- The task in the middle. -/
theorem indexed_three :
    (NodeRight threeNodes ⟨3, some 1⟩ [(1, 10), (3, 20), (2, 30)] 1 ∧
        TaskRight threeNodes ⟨3, some 1⟩ [(1, 10), (3, 20), (2, 30)] 1 ↔
      [(1, 10), (3, 20), (2, 30)].length ≤ (1 : UInt32).toNat ∧ (1 : UInt32) ≠ UInt32.ofNat (2 ^ 32 - 1)) ∧
    (NodeRight threeNodes ⟨3, some 1⟩ [(1, 10), (3, 20), (2, 30)] 1 ↔ (1 : UInt32) ≠ UInt32.ofNat (2 ^ 32 - 1)) :=
  indexed_iff threeNodes_inMemory 1

/-- The node of a taskset with the task 10 alone. -/
def oneNode : Cells Addr := fun a => if a = 1 then some ⟨none, 10⟩ else none

theorem oneNode_inMemory : InMemory oneNode ⟨1, some 1⟩ [(1, 10)] := ⟨⟨rfl, none, rfl, rfl⟩, by decide⟩

/-- The task with the index 0 is not the one that is returned; and the node with
the last index is looked for behind the end of the chain. -/
theorem not_indexed : InMemory oneNode ⟨1, some 1⟩ [(1, 10)] ∧ ¬ TaskRight oneNode ⟨1, some 1⟩ [(1, 10)] 0 ∧
    ¬ NodeRight oneNode ⟨1, some 1⟩ [(1, 10)] (UInt32.ofNat (2 ^ 32 - 1)) := by
  refine ⟨oneNode_inMemory, ?_, ?_⟩
  · rw [taskRight_iff oneNode_inMemory]
    decide
  · rw [nodeRight_iff oneNode_inMemory]
    exact fun hne => hne rfl

example : rtfTasksetGetITask 2 oneNode ⟨1, some 1⟩ 0 = .ok (some (.elemField 1)) := by rfl

end Spec

end Retif
