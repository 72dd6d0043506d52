/-
# Sorted insertion

What the RM and RR plugins take from `list_add_sorted`: the list stays sorted,
and the new node stands in front of every element equal to it, the opposite of
what the comment of the function says. So the node behind the one that is
returned holds an equal element just when there was one, and a plugin that finds
it can tell whether the period or the priority is new.

Key definitions: `Behind`.
Key theorems: `taskCmp_preorder`, `addSorted_order`.
-/
import Retif.Lib.Compare
import Retif.Nodes

namespace Retif

open Chains Compare

theorem cmpNat_preorder : TotalPreorder cmpNat :=
  .of_key id (fun _ _ => cmpNat_pos) fun _ _ => cmpNat_neg

/-- Each of the comparison functions of a taskset orders the tasks. -/
theorem taskCmp_preorder (heap : Heap) (p : Param) (flag : Order) :
    TotalPreorder fun a b => taskCmp (heap a) (heap b) p flag := by
  have hkey : TotalPreorder fun a b => cmpNat (p.of (heap a)) (p.of (heap b)) :=
    .of_key (fun a => p.of (heap a)) (fun _ _ => cmpNat_pos) fun _ _ => cmpNat_neg
  simp only [taskCmp_eq]
  cases flag with
  | asc => simpa only [Order.sign, one_mul] using hkey
  | dsc => exact hkey.neg

section Insertion

variable {α : Type} {h h' : Cells α} {l : StructList} {xs : List (ℕ × α)} {new : ℕ} {elem : α} {cmpfun : α → α → ℤ}

/-- The node at `node` holds `elem`; the one behind it holds an equal element if
there is one among `olds`, and else is missing or holds a greater one. -/
def Behind (h : Cells α) (cmpfun : α → α → ℤ) (node : ℕ) (elem : α) (olds : List α) : Prop :=
  ∃ next, h node = some ⟨next, elem⟩ ∧
    ((∃ y ∈ olds, cmpfun elem y = 0) → ∃ b cell, next = some b ∧ h b = some cell ∧ cmpfun elem cell.elem = 0) ∧
      ((¬ ∃ y ∈ olds, cmpfun elem y = 0) → next = none ∨ ∃ b cell, next = some b ∧ h b = some cell ∧ cmpfun elem cell.elem < 0)

/-- **Sorted insertion.** For every total preorder and every list sorted by it:
the call ends, the list is sorted with the element added, the node returned is
the new one, and it stands in front of all that are equal to it. -/
theorem addSorted_order (hcmp : TotalPreorder cmpfun) (hl : InMemory h l xs) (hord : Ordered cmpfun (xs.map Prod.snd))
    (hnew : h new = none) : ∃ h' l' pre post,
      Returns (fun fuel => listAddSortedAt fuel h l new elem cmpfun) (some new, h', l') ∧ xs = pre ++ post ∧
        Seg h' l'.root (pre ++ (new, elem) :: post) none ∧
          Ordered cmpfun ((pre ++ (new, elem) :: post).map Prod.snd) ∧
            (∀ c ∈ xs, cmpfun elem c.2 = 0 → c ∈ post) ∧ Behind h' cmpfun new elem (xs.map Prod.snd) := by
  obtain ⟨h', l', pre, post, hrun, rfl, hpre, hhead, hchain, -, -⟩ := addSorted_nodes elem cmpfun hl hnew
  have hpre' : ∀ y ∈ pre.map Prod.snd, 0 < cmpfun elem y := List.forall_mem_map.mpr hpre
  have hhead' : ∀ y ∈ (post.map Prod.snd).head?, cmpfun elem y ≤ 0 := by
    intro y hy
    rw [List.head?_map] at hy
    obtain ⟨c, hc, rfl⟩ := Option.map_eq_some_iff.mp hy
    exact hhead c hc
  rw [List.map_append] at hord
  refine ⟨h', l', pre, post, ⟨_, hrun⟩, rfl, hchain, ?_, ?_, ?_⟩
  · rw [List.map_append]
    exact hord.insert hcmp hpre' hhead'
  · intro c hc heq
    rcases List.mem_append.mp hc with hc | hc
    · have hpos := hpre c hc
      omega
    · exact hc
  · obtain ⟨_, -, -, next, hcell, hrest⟩ := seg_append.mp hchain
    refine ⟨next, hcell, fun hequal => ?_, fun hnone => ?_⟩
    · rw [List.map_append] at hequal
      obtain ⟨y, hy, heq⟩ := hord.equal_next hcmp hpre' hhead' hequal
      rcases post with _ | ⟨⟨b, z⟩, post⟩
      · cases hy
      · obtain ⟨rfl, next', hb, -⟩ := hrest
        cases hy
        exact ⟨b, _, rfl, hb, heq⟩
    · rcases post with _ | ⟨⟨b, z⟩, post⟩
      · exact .inl hrest
      · obtain ⟨rfl, next', hb, -⟩ := hrest
        refine .inr ⟨b, _, rfl, hb, lt_of_le_of_ne (hhead (b, z) rfl) fun heq => hnone ⟨z, ?_, heq⟩⟩
        simp

/-- A list of two nodes with the keys 3 and 5, and another 5. -/
theorem addSorted_order_two : ∃ h' l' pre post,
    Returns (fun fuel => listAddSortedAt fuel
      (fun a => if a = 1 then some ⟨some 2, 3⟩ else if a = 2 then some ⟨none, 5⟩ else none) ⟨2, some 1⟩ 7 5 cmpNat)
        (some 7, h', l') ∧ [(1, 3), (2, 5)] = pre ++ post ∧
      Seg h' l'.root (pre ++ (7, 5) :: post) none ∧ Ordered cmpNat ((pre ++ (7, 5) :: post).map Prod.snd) ∧
        (∀ c ∈ [(1, 3), (2, 5)], cmpNat 5 c.2 = 0 → c ∈ post) ∧ Behind h' cmpNat 7 5 [3, 5] := by
  refine addSorted_order cmpNat_preorder ⟨⟨rfl, some 2, rfl, rfl, none, rfl, rfl⟩, by decide⟩ ?_ rfl
  simp [Ordered, cmpNat]

end Insertion

end Retif
