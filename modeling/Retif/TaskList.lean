/-
# The linked list and the taskset

`list.c` and the wrappers of `retif_taskset.c`, on the sequence of elements
the chain from `root` holds. The stored counter `n` is a field of its own and
agrees with the chain by construction, so `list_is_empty`, which looks at `n`
only, is a case split on the chain. The elements of a taskset are the
addresses of its tasks; the comparison functions read the records there.

Key definitions: `CList`, `listAddSorted`, `listRemove`, `listSearchElem`.
Key theorems: `addSeek_spec`, `addSeek_perm`, `listRemove_eq`, `listSearchElem_eq`.
-/
import Retif.Task
import Mathlib.Data.List.Perm.Basic

namespace Retif

/-- `struct list`: the counter and the chain. -/
structure CList (α : Type) where
  n : ℕ
  root : List α
  n_eq : n = root.length

namespace CList

variable {α : Type}

@[ext] theorem ext {l l' : CList α} (h : l.root = l'.root) : l = l' := by
  obtain ⟨n, r, hn⟩ := l
  obtain ⟨n', r', hn'⟩ := l'
  simp only at h
  subst h hn hn'
  rfl

/-- `list_init`. -/
def listInit : CList α := ⟨0, [], rfl⟩

def listGetSize (l : CList α) : ℕ := l.n

def listAddTop (l : CList α) (elem : α) : CList α := ⟨l.n + 1, elem :: l.root, by simp [l.n_eq]⟩

@[simp] theorem listInit_root : (listInit : CList α).root = [] := rfl

@[simp] theorem listAddTop_root (l : CList α) (elem : α) : (listAddTop l elem).root = elem :: l.root := rfl

/-! ### Sorted insertion -/

/-- The scan of `list_add_sorted` from a node on: the chain with `elem` put
before the first element it does not exceed, and the chain behind the new
node (`inserted->next`). -/
def addSeek (elem : α) (cmpfun : α → α → ℤ) : List α → List α × List α
  | [] => ([elem], [])
  | x :: xs =>
    if cmpfun elem x > 0 then (x :: (addSeek elem cmpfun xs).1, (addSeek elem cmpfun xs).2)
    else (elem :: x :: xs, x :: xs)

theorem addSeek_perm (elem : α) (cmpfun : α → α → ℤ) (xs : List α) :
    (addSeek elem cmpfun xs).1.Perm (elem :: xs) := by
  induction xs with
  | nil => exact .refl _
  | cons x xs ih =>
    unfold addSeek
    split
    · exact (ih.cons x).trans (.swap elem x xs)
    · exact .refl _

/-- The new element goes behind a prefix it exceeds, in front of the rest. -/
theorem addSeek_spec (elem : α) (cmpfun : α → α → ℤ) (xs : List α) : ∃ pre,
    xs = pre ++ (addSeek elem cmpfun xs).2 ∧
      (addSeek elem cmpfun xs).1 = pre ++ elem :: (addSeek elem cmpfun xs).2 ∧
      (∀ x ∈ pre, 0 < cmpfun elem x) ∧ ∀ x ∈ (addSeek elem cmpfun xs).2.head?, cmpfun elem x ≤ 0 := by
  induction xs with
  | nil => exact ⟨[], rfl, rfl, by simp, by simp [addSeek]⟩
  | cons x xs ih =>
    unfold addSeek
    split
    · rename_i h
      obtain ⟨pre, h1, h2, h3, h4⟩ := ih
      refine ⟨x :: pre, by simp only [List.cons_append, ← h1], by simp only [h2, List.cons_append], ?_, h4⟩
      intro y hy
      rcases List.mem_cons.mp hy with rfl | hy
      · exact h
      · exact h3 y hy
    · rename_i h
      exact ⟨[], rfl, rfl, by simp, by simpa using h⟩

/-- The list with `elem` inserted, and the chain behind the node returned. -/
def listAddSorted (l : CList α) (elem : α) (cmpfun : α → α → ℤ) : CList α × List α :=
  match h : l.root with
  | [] => (listAddTop l elem, l.root)
  | x :: xs =>
    if cmpfun elem x ≤ 0 then (listAddTop l elem, l.root)
    else
      (⟨l.n + 1, x :: (addSeek elem cmpfun xs).1, by
        simp [l.n_eq, h, (addSeek_perm elem cmpfun xs).length_eq]⟩, (addSeek elem cmpfun xs).2)

/-- The head case is the scan's own. -/
theorem listAddSorted_eq (l : CList α) (elem : α) (cmpfun : α → α → ℤ) :
    (listAddSorted l elem cmpfun).1.root = (addSeek elem cmpfun l.root).1 ∧
      (listAddSorted l elem cmpfun).2 = (addSeek elem cmpfun l.root).2 := by
  unfold listAddSorted
  split
  · rename_i h
    simp [h, addSeek]
  · rename_i x xs h
    by_cases hx : cmpfun elem x ≤ 0
    · simp [hx, h, addSeek, Int.not_lt.mpr hx]
    · simp [hx, h, addSeek, Int.lt_of_not_ge hx]

/-! ### Removal and search -/

/-- `list_remove_top`. -/
def listRemoveTop (l : CList α) : Option α × CList α :=
  match h : l.root with
  | [] => (none, l)
  | x :: xs => (some x, ⟨l.n - 1, xs, by simp [l.n_eq, h]⟩)

/-- The scan of `list_remove`: the first element with `key`, and the chain
without it. -/
def removeSeek (key : α → Bool) : List α → Option (α × List α)
  | [] => none
  | x :: xs => if key x then some (x, xs) else (removeSeek key xs).map fun r => (r.1, x :: r.2)

theorem removeSeek_eq (key : α → Bool) (xs : List α) :
    removeSeek key xs = (xs.find? key).map fun x => (x, xs.eraseP key) := by
  induction xs with
  | nil => rfl
  | cons x xs ih =>
    unfold removeSeek
    by_cases h : key x
    · simp [h]
    · simp [h, ih, Function.comp_def]

theorem removeSeek_length {key : α → Bool} {xs : List α} {r : α × List α} (h : removeSeek key xs = some r) :
    r.2.length = xs.length - 1 := by
  rw [removeSeek_eq] at h
  obtain ⟨x, hx, rfl⟩ := Option.map_eq_some_iff.mp h
  exact List.length_eraseP_of_mem (List.mem_of_find?_eq_some hx) (List.find?_some hx)

/-- `list_remove`: the first element with `key` leaves. -/
def listRemove (l : CList α) (key : α → Bool) : Option α × CList α :=
  match h : removeSeek key l.root with
  | none => (none, l)
  | some r => (some r.1, ⟨l.n - 1, r.2, by rw [removeSeek_length h, l.n_eq]⟩)

theorem listRemove_eq (l : CList α) (key : α → Bool) :
    (listRemove l key).1 = l.root.find? key ∧ (listRemove l key).2.root = l.root.eraseP key := by
  unfold listRemove
  split
  · rename_i h
    rw [removeSeek_eq, Option.map_eq_none_iff] at h
    refine ⟨h.symm, (List.eraseP_of_forall_not ?_).symm⟩
    simpa using h
  · rename_i r h
    rw [removeSeek_eq] at h
    obtain ⟨x, hx, rfl⟩ := Option.map_eq_some_iff.mp h
    exact ⟨hx.symm, rfl⟩

/-- `list_search_elem`: the first element with `key`. -/
def searchSeek (key : α → Bool) : List α → Option α
  | [] => none
  | x :: xs => if key x then some x else searchSeek key xs

def listSearchElem (l : CList α) (key : α → Bool) : Option α := searchSeek key l.root

theorem listSearchElem_eq (l : CList α) (key : α → Bool) : listSearchElem l key = l.root.find? key := by
  unfold listSearchElem
  induction l.root with
  | nil => rfl
  | cons x xs ih =>
    unfold searchSeek
    by_cases h : key x <;> simp [h, ih]

end CList

/-! ### The taskset -/

/-- The task records, by address. -/
abbrev Heap := Addr → Task

abbrev Taskset := CList Addr

open CList

def rtfTasksetAddTop (ts : Taskset) (task : Addr) : Taskset := listAddTop ts task

/-- Sorted by period, the longest first. -/
def rtfTasksetAddSortedPr (heap : Heap) (ts : Taskset) (task : Addr) : Taskset × List Addr :=
  listAddSorted ts task fun a b => taskCmp (heap a) (heap b) .period .dsc

/-- Sorted by declared priority, the lowest first. -/
def rtfTasksetAddSortedPrio (heap : Heap) (ts : Taskset) (task : Addr) : Taskset × List Addr :=
  listAddSorted ts task fun a b => taskCmp (heap a) (heap b) .priority .asc

def rtfTasksetSearch (heap : Heap) (ts : Taskset) (rsvid : UInt32) : Option Addr :=
  listSearchElem ts fun a => (heap a).id == rsvid

def rtfTasksetRemoveByPpid (heap : Heap) (ts : Taskset) (ppid : Pid) : Option Addr × Taskset :=
  listRemove ts fun a => (heap a).ptid == ppid

def rtfTasksetRemoveByRsvid (heap : Heap) (ts : Taskset) (rsvid : UInt32) : Option Addr × Taskset :=
  listRemove ts fun a => (heap a).id == rsvid

/-- A removal that finds nothing changes nothing; one that finds `a` takes out
`a`, the first with the key. -/
theorem listRemove_cases (ts : Taskset) (key : Addr → Bool) :
    (listRemove ts key = (none, ts) ∧ ∀ a ∈ ts.root, key a = false) ∨
      ∃ a ts', listRemove ts key = (some a, ts') ∧ a ∈ ts.root ∧ key a = true ∧
        ts'.root = ts.root.eraseP key ∧ ts.root.Perm (a :: ts'.root) := by
  obtain ⟨h1, h2⟩ := listRemove_eq ts key
  cases hf : ts.root.find? key with
  | none =>
    left
    have hn : ∀ a ∈ ts.root, key a = false := by simpa using hf
    refine ⟨Prod.ext (h1.trans hf) (CList.ext ?_), hn⟩
    rw [h2, List.eraseP_of_forall_not (by simpa using hf)]
  | some a =>
    right
    refine ⟨a, (listRemove ts key).2, Prod.ext (h1.trans hf) rfl, List.mem_of_find?_eq_some hf,
      List.find?_some hf, h2, ?_⟩
    rw [h2]
    obtain ⟨hk, l₁, l₂, hl, hn⟩ := List.find?_eq_some_iff_append.mp hf
    have hn' : ∀ b ∈ l₁, ¬ key b := by simpa using hn
    rw [hl, List.eraseP_append_right _ hn', List.eraseP_cons_of_pos hk]
    exact List.perm_middle

theorem rtfTasksetSearch_some {heap : Heap} {ts : Taskset} {rsvid : UInt32} {a : Addr}
    (h : rtfTasksetSearch heap ts rsvid = some a) : a ∈ ts.root ∧ (heap a).id = rsvid := by
  rw [rtfTasksetSearch, listSearchElem_eq] at h
  exact ⟨List.mem_of_find?_eq_some h, by simpa using List.find?_some h⟩

end Retif
