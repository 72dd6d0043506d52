/-
# Sorting a list

`merge_sort` of `list.c`, on the nodes in memory. It comes to an end on every
chain and the chain it leaves is in order, but not with all its nodes: where one
of the two halves is used up, `merge` gives that empty half back instead of the
rest of the other. Every merge of two chains that have a node loses one, so a
sort keeps its list just when there is nothing to sort (`sorts_iff`).

Key definitions: `mergeAt`, `splitAt`, `mergeSortAt`, `listSortAt`, `Sorts`.
Key theorems: `splitAt_chain`, `mergeAt_chain`, `mergeSortAt_chain`, `sorts_iff`.
-/
import Retif.Insertion

namespace Retif

open Chains Compare

/-! ### The functions -/

section Functions

variable {α : Type}

/-- The loop of `split`: `fast` goes two nodes for one of `slow`. -/
def splitLoop (h : Cells α) : ℕ → Option ℕ → Option ℕ → Except Stop (Option ℕ)
  | 0, _, _ => .error .turns
  | fuel + 1, slow, fast =>
    if fast = none then .ok slow
    else do
      let node ← deref h fast
      let fast := node.next
      if fast = none then splitLoop h fuel slow fast
      else do
        let node ← deref h slow
        let slow := node.next
        let node ← deref h fast
        splitLoop h fuel slow node.next

/-- `split`: the front and the back half, cut apart. -/
def splitAt (fuel : ℕ) (h : Cells α) (l : Option ℕ) : Except Stop (Cells α × Option ℕ × Option ℕ) := do
  let node ← deref h l
  let slow ← splitLoop h fuel l node.next
  let node ← deref h slow
  let h ← setNext h slow none
  .ok (h, l, node.next)

/-- `merge`. Where one of the two is `NULL`, it is what is returned. -/
def mergeAt (cmpfun : α → α → ℤ) : ℕ → Cells α → Option ℕ → Option ℕ → Except Stop (Cells α × Option ℕ)
  | 0, _, _, _ => .error .turns
  | fuel + 1, h, l1, l2 =>
    if l1 = none then .ok (h, l1)
    else if l2 = none then .ok (h, l2)
    else do
      let node1 ← deref h l1
      let node2 ← deref h l2
      if cmpfun node1.elem node2.elem < 0 then do
        let (h, rest) ← mergeAt cmpfun fuel h node1.next l2
        let h ← setNext h l1 rest
        .ok (h, l1)
      else do
        let (h, rest) ← mergeAt cmpfun fuel h l1 node2.next
        let h ← setNext h l2 rest
        .ok (h, l2)

/-- `merge_sort`. -/
def mergeSortAt (cmpfun : α → α → ℤ) : ℕ → Cells α → Option ℕ → Except Stop (Cells α × Option ℕ)
  | 0, _, _ => .error .turns
  | fuel + 1, h, l =>
    if l = none then .ok (h, l)
    else do
      let node ← deref h l
      if node.next = none then .ok (h, l)
      else do
        let (h, l1, l2) ← splitAt fuel h l
        let (h, l1) ← mergeSortAt cmpfun fuel h l1
        let (h, l2) ← mergeSortAt cmpfun fuel h l2
        mergeAt cmpfun fuel h l1 l2

/-- `list_sort`: the counter stays as it is. -/
def listSortAt (fuel : ℕ) (h : Cells α) (l : StructList) (cmpfun : α → α → ℤ) : Except Stop (Cells α × StructList) := do
  let (h, root) ← mergeSortAt cmpfun fuel h l.root
  .ok (h, { l with root := root })

/-- `rtf_taskset_sort`. -/
def rtfTasksetSortAt (fuel : ℕ) (heap : Heap) (h : Cells Addr) (ts : StructList) (p : Param) (flag : Order) :
    Except Stop (Cells Addr × StructList) :=
  listSortAt fuel h ts fun a b => taskCmp (heap a) (heap b) p flag

end Functions

section Spec

variable {α : Type} {h : Cells α} {p q : Option ℕ} {xs ys zs : List (ℕ × α)} {cmpfun : α → α → ℤ}

/-! ### The halves -/

/-- While `fast` goes to the end, `slow` goes half as far. -/
theorem splitLoop_chain {slow fast : Option ℕ} (hslow : Seg h slow xs none) (hfast : Seg h fast ys none)
    (hle : ys.length ≤ xs.length) : ∃ mid, Seg h slow (xs.take (ys.length / 2)) mid ∧
      Seg h mid (xs.drop (ys.length / 2)) none ∧ ∀ fuel, ys.length < fuel → splitLoop h fuel slow fast = .ok mid := by
  induction hn : ys.length using Nat.strong_induction_on generalizing slow fast xs ys with
  | _ n ih =>
    subst hn
    rcases ys with _ | ⟨⟨b, y⟩, _ | ⟨⟨c, z⟩, ys⟩⟩
    · obtain rfl : fast = none := hfast
      refine ⟨slow, by simp, by simpa using hslow, fun fuel hfuel => ?_⟩
      obtain ⟨fuel, rfl⟩ := Nat.exists_eq_succ_of_ne_zero (Nat.ne_zero_of_lt hfuel)
      rfl
    · obtain ⟨rfl, next, hb, hnext⟩ := hfast
      obtain rfl : next = none := hnext
      refine ⟨slow, by simp, by simpa using hslow, fun fuel hfuel => ?_⟩
      obtain ⟨fuel, rfl⟩ : ∃ k, fuel = k + 2 := ⟨fuel - 2, by simp at hfuel; omega⟩
      simp [splitLoop, deref_cell hb]
    · obtain ⟨rfl, next, hb, rfl, next', hc, hrest⟩ := hfast
      rcases xs with _ | ⟨⟨a, x⟩, xs⟩
      · simp at hle
      obtain ⟨rfl, snext, ha, hxs⟩ := hslow
      obtain ⟨mid, hfront, hback, hloop⟩ := ih ys.length (by simp) hxs hrest (by simp at hle; omega) rfl
      have hhalf : ((b, y) :: (c, z) :: ys).length / 2 = ys.length / 2 + 1 := by
        simp only [List.length_cons]
        omega
      refine ⟨mid, ?_, ?_, fun fuel hfuel => ?_⟩
      · rw [hhalf, List.take_succ_cons]
        exact ⟨rfl, snext, ha, hfront⟩
      · rwa [hhalf, List.drop_succ_cons]
      · obtain ⟨fuel, rfl⟩ := Nat.exists_eq_succ_of_ne_zero (Nat.ne_zero_of_lt hfuel)
        simp only [splitLoop, reduceCtorEq, if_false, deref_cell hb, deref_cell ha, deref_cell hc, ok_bind]
        exact hloop fuel (by simp at hfuel; omega)

/-- The front half has the node in the middle. -/
theorem splitAt_chain {c : ℕ × α} (hxs : Seg h p (c :: ys) none) : ∃ h' mid,
    (∀ fuel, ys.length < fuel → splitAt fuel h p = .ok (h', p, mid)) ∧
      Seg h' p ((c :: ys).take (ys.length / 2 + 1)) none ∧ Seg h' mid ((c :: ys).drop (ys.length / 2 + 1)) none ∧
        ∀ b, b ∉ addrs (c :: ys) → h' b = h b := by
  obtain ⟨rfl, next, hcell, hrest⟩ := id hxs
  obtain ⟨slow, hfront, hback, hloop⟩ := splitLoop_chain hxs hrest (by simp)
  have hlt : ys.length / 2 < (c :: ys).length := by
    simp only [List.length_cons]
    omega
  obtain ⟨d, hd⟩ : ∃ d, (c :: ys)[ys.length / 2]? = some d := ⟨_, List.getElem?_eq_getElem hlt⟩
  have hdrop : (c :: ys).drop (ys.length / 2) = d :: (c :: ys).drop (ys.length / 2 + 1) := by
    rw [List.drop_eq_getElem?_toList_append, hd]
    rfl
  have htake : (c :: ys).take (ys.length / 2 + 1) = (c :: ys).take (ys.length / 2) ++ [d] := by
    rw [List.take_add_one, hd]
    rfl
  rw [hdrop] at hback
  obtain ⟨rfl, mid, hmid, hbehind⟩ := hback
  have hnodup := hxs.nodup
  rw [← List.take_append_drop (ys.length / 2) (c :: ys), hdrop] at hnodup
  simp only [addrs, List.map_append, List.map_cons, List.nodup_append, List.nodup_cons] at hnodup
  obtain ⟨-, ⟨hdback, -⟩, hdfront⟩ := hnodup
  have hend : Seg h (some c.1) ((c :: ys).take (ys.length / 2) ++ [d]) mid := seg_append.mpr ⟨_, hfront, rfl, mid, hmid, rfl⟩
  refine ⟨Function.update h d.1 (some ⟨none, d.2⟩), mid, fun fuel hfuel => ?_, ?_, hbehind.frame hdback, ?_⟩
  · simp only [splitAt, deref_cell hcell, ok_bind, hloop fuel hfuel, deref_cell hmid, setNext_cell hmid]
  · rw [htake]
    exact hend.relink fun hmem => hdfront d.1 hmem d.1 (List.mem_cons_self ..) rfl
  · intro b hb
    apply Function.update_of_ne
    rintro rfl
    exact hb (List.mem_map_of_mem (List.mem_of_getElem? hd))

/-! ### The merge -/

/-- The nodes that `merge` keeps: it goes on until one of the two is used up,
and with it goes the rest of the other. -/
def merged (cmpfun : α → α → ℤ) : List (ℕ × α) → List (ℕ × α) → List (ℕ × α)
  | [], _ => []
  | _ :: _, [] => []
  | x :: xs, y :: ys =>
    if cmpfun x.2 y.2 < 0 then x :: merged cmpfun xs (y :: ys) else y :: merged cmpfun (x :: xs) ys
termination_by xs ys => xs.length + ys.length

theorem merged_subperm (cmpfun : α → α → ℤ) (xs ys : List (ℕ × α)) : (merged cmpfun xs ys).Subperm (xs ++ ys) := by
  fun_induction merged cmpfun xs ys with
  | case1 ys => exact List.nil_subperm
  | case2 x xs => exact List.nil_subperm
  | case3 x xs y ys hlt ih => exact (List.subperm_cons x).mpr ih
  | case4 x xs y ys hlt ih =>
    have hperm : (x :: xs ++ y :: ys).Perm (y :: (x :: xs ++ ys)) := List.perm_middle
    exact ((List.subperm_cons y).mpr ih).trans hperm.symm.subperm

/-- A merge of anything loses a node. -/
theorem merged_length (cmpfun : α → α → ℤ) (xs ys : List (ℕ × α)) (hne : 0 < xs.length + ys.length) :
    (merged cmpfun xs ys).length < xs.length + ys.length := by
  fun_induction merged cmpfun xs ys with
  | case1 ys => exact hne
  | case2 x xs => exact hne
  | case3 x xs y ys hlt ih =>
    have hshort := ih (by simp)
    simp only [List.length_cons] at hshort ⊢
    omega
  | case4 x xs y ys hlt ih =>
    have hshort := ih (by simp)
    simp only [List.length_cons] at hshort ⊢
    omega

theorem merged_ordered (hcmp : TotalPreorder cmpfun) (hxs : Ordered cmpfun (xs.map Prod.snd))
    (hys : Ordered cmpfun (ys.map Prod.snd)) : Ordered cmpfun ((merged cmpfun xs ys).map Prod.snd) := by
  fun_induction merged cmpfun xs ys with
  | case1 ys => exact List.Pairwise.nil
  | case2 x xs => exact List.Pairwise.nil
  | case3 x xs y ys hlt ih =>
    obtain ⟨hx, hxs⟩ := List.pairwise_cons.mp hxs
    refine List.pairwise_cons.mpr ⟨List.forall_mem_map.mpr fun c hc => ?_, ih hxs hys⟩
    rcases List.mem_append.mp ((merged_subperm cmpfun xs (y :: ys)).subset hc) with hc | hc
    · exact hx _ (List.mem_map_of_mem hc)
    · rcases List.mem_cons.mp hc with rfl | hc
      · exact hlt.le
      · exact hcmp.trans _ _ _ hlt.le ((List.pairwise_cons.mp hys).1 _ (List.mem_map_of_mem hc))
  | case4 x xs y ys hlt ih =>
    obtain ⟨hy, hys⟩ := List.pairwise_cons.mp hys
    have hyx := hcmp.le_of_not_lt hlt
    refine List.pairwise_cons.mpr ⟨List.forall_mem_map.mpr fun c hc => ?_, ih hxs hys⟩
    rcases List.mem_append.mp ((merged_subperm cmpfun (x :: xs) ys).subset hc) with hc | hc
    · rcases List.mem_cons.mp hc with rfl | hc
      · exact hyx
      · exact hcmp.trans _ _ _ hyx ((List.pairwise_cons.mp hxs).1 _ (List.mem_map_of_mem hc))
    · exact hy _ (List.mem_map_of_mem hc)

theorem addrs_subperm (hsub : xs.Subperm ys) : (addrs xs).Subperm (addrs ys) := by
  obtain ⟨zs, hperm, hsublist⟩ := hsub
  exact ⟨addrs zs, hperm.map _, hsublist.map _⟩

/-- The node taken is put in front of what the rest of the merge has left. -/
theorem link_merged {h' : Cells α} {a : ℕ} {x : α} {next r : Option ℕ} (hcell : h a = some ⟨next, x⟩)
    (hframe : ∀ b, b ∉ addrs xs → b ∉ addrs ys → h' b = h b) (hseg : Seg h' r (merged cmpfun xs ys) none)
    (hoxs : a ∉ addrs xs) (hoys : a ∉ addrs ys) :
    setNext h' (some a) r = .ok (Function.update h' a (some ⟨r, x⟩)) ∧
      Seg (Function.update h' a (some ⟨r, x⟩)) (some a) ((a, x) :: merged cmpfun xs ys) none := by
  have hcell' : h' a = some ⟨next, x⟩ := (hframe a hoxs hoys).trans hcell
  have hout : a ∉ addrs (merged cmpfun xs ys) := by
    intro hmem
    obtain ⟨c, hc, rfl⟩ := List.mem_map.mp hmem
    rcases List.mem_append.mp ((merged_subperm cmpfun xs ys).subset hc) with hc | hc
    · exact hoxs (List.mem_map_of_mem hc)
    · exact hoys (List.mem_map_of_mem hc)
  exact ⟨setNext_cell hcell', rfl, r, Function.update_self .., hseg.frame hout⟩

/-- `merge` leaves the nodes that it keeps, and writes to no others. -/
theorem mergeAt_chain (cmpfun : α → α → ℤ) (hxs : Seg h p xs none) (hys : Seg h q ys none)
    (hdisj : (addrs xs).Disjoint (addrs ys)) : ∃ h' r,
      (∀ fuel, xs.length + ys.length < fuel → mergeAt cmpfun fuel h p q = .ok (h', r)) ∧
        Seg h' r (merged cmpfun xs ys) none ∧ ∀ b, b ∉ addrs xs → b ∉ addrs ys → h' b = h b := by
  fun_induction merged cmpfun xs ys generalizing p q with
  | case1 ys =>
    obtain rfl : p = none := hxs
    refine ⟨h, none, fun fuel hfuel => ?_, rfl, fun _ _ _ => rfl⟩
    obtain ⟨fuel, rfl⟩ := Nat.exists_eq_succ_of_ne_zero (Nat.ne_zero_of_lt hfuel)
    rfl
  | case2 x xs =>
    obtain ⟨rfl, -⟩ := hxs
    obtain rfl : q = none := hys
    refine ⟨h, none, fun fuel hfuel => ?_, rfl, fun _ _ _ => rfl⟩
    obtain ⟨fuel, rfl⟩ := Nat.exists_eq_succ_of_ne_zero (Nat.ne_zero_of_lt hfuel)
    rfl
  | case3 x xs y ys hlt ih =>
    obtain ⟨rfl, nextx, hx, hxs'⟩ := id hxs
    obtain ⟨rfl, nexty, hy, -⟩ := id hys
    have hoxs : x.1 ∉ addrs xs := (List.nodup_cons.mp hxs.nodup).1
    have hoys : x.1 ∉ addrs (y :: ys) := fun hmem => hdisj (List.mem_cons_self ..) hmem
    obtain ⟨h', r, hrun, hseg, hframe⟩ := ih hxs' hys (List.disjoint_of_disjoint_cons_left hdisj)
    obtain ⟨hset, hlinked⟩ := link_merged hx hframe hseg hoxs hoys
    refine ⟨_, some x.1, fun fuel hfuel => ?_, hlinked, fun b hbx hby => ?_⟩
    · obtain ⟨fuel, rfl⟩ := Nat.exists_eq_succ_of_ne_zero (Nat.ne_zero_of_lt hfuel)
      have hrun' := hrun fuel (by simp at hfuel ⊢; omega)
      simp only [mergeAt, reduceCtorEq, if_false, deref_cell hx, deref_cell hy, ok_bind, if_pos hlt, hrun', hset]
    · have hne : b ≠ x.1 := fun heq => hbx (heq ▸ List.mem_cons_self ..)
      rw [Function.update_of_ne hne]
      exact hframe b (fun hmem => hbx (List.mem_cons_of_mem _ hmem)) hby
  | case4 x xs y ys hlt ih =>
    obtain ⟨rfl, nextx, hx, -⟩ := id hxs
    obtain ⟨rfl, nexty, hy, hys'⟩ := id hys
    have hoxs : y.1 ∉ addrs (x :: xs) := fun hmem => hdisj hmem (List.mem_cons_self ..)
    have hoys : y.1 ∉ addrs ys := (List.nodup_cons.mp hys.nodup).1
    obtain ⟨h', r, hrun, hseg, hframe⟩ := ih hxs hys' (List.disjoint_of_disjoint_cons_right hdisj)
    obtain ⟨hset, hlinked⟩ := link_merged hy hframe hseg hoxs hoys
    refine ⟨_, some y.1, fun fuel hfuel => ?_, hlinked, fun b hbx hby => ?_⟩
    · obtain ⟨fuel, rfl⟩ := Nat.exists_eq_succ_of_ne_zero (Nat.ne_zero_of_lt hfuel)
      have hrun' := hrun fuel (by simp at hfuel ⊢; omega)
      simp only [mergeAt, reduceCtorEq, if_false, deref_cell hx, deref_cell hy, ok_bind, if_neg hlt, hrun', hset]
    · have hne : b ≠ y.1 := fun heq => hby (heq ▸ List.mem_cons_self ..)
      rw [Function.update_of_ne hne]
      exact hframe b hbx fun hmem => hby (List.mem_cons_of_mem _ hmem)

/-! ### The sort -/

/-- What `merge_sort` does on every chain: it ends, writes to no other node, and
leaves some of the nodes, in order; of two or more, never all. -/
theorem mergeSortAt_chain (cmpfun : α → α → ℤ) (hxs : Seg h p xs none) : ∃ h' r zs,
    (∀ fuel, xs.length + 1 < fuel → mergeSortAt cmpfun fuel h p = .ok (h', r)) ∧ Seg h' r zs none ∧ zs.Subperm xs ∧
      (TotalPreorder cmpfun → Ordered cmpfun (zs.map Prod.snd)) ∧ (xs.length ≤ 1 → zs = xs) ∧
        (1 < xs.length → zs.length < xs.length) ∧ ∀ b, b ∉ addrs xs → h' b = h b := by
  induction hn : xs.length using Nat.strong_induction_on generalizing h p xs with
  | _ n ih =>
    subst hn
    rcases xs with _ | ⟨c, _ | ⟨d, ys⟩⟩
    · obtain rfl : p = none := hxs
      refine ⟨h, none, [], fun fuel hfuel => ?_, rfl, .refl _, fun _ => .nil, fun _ => rfl, by simp, fun _ _ => rfl⟩
      obtain ⟨fuel, rfl⟩ := Nat.exists_eq_succ_of_ne_zero (Nat.ne_zero_of_lt hfuel)
      rfl
    · obtain ⟨rfl, next, hcell, hnext⟩ := id hxs
      obtain rfl : next = none := hnext
      refine ⟨h, some c.1, [c], fun fuel hfuel => ?_, hxs, .refl _, fun _ => List.pairwise_singleton .., fun _ => rfl,
        by simp, fun _ _ => rfl⟩
      obtain ⟨fuel, rfl⟩ := Nat.exists_eq_succ_of_ne_zero (Nat.ne_zero_of_lt hfuel)
      simp [mergeSortAt, deref_cell hcell]
    · obtain ⟨rfl, next, hcell, hrest⟩ := id hxs
      obtain ⟨rfl, -⟩ := id hrest
      obtain ⟨h₀, mid, hsplit, hfront, hback, hframe₀⟩ := splitAt_chain hxs
      set k := (d :: ys).length / 2 + 1 with hk
      have hklt : k < (c :: d :: ys).length := by
        simp only [List.length_cons] at hk ⊢
        omega
      have hparts := List.take_append_drop k (c :: d :: ys)
      have hnodup : (addrs ((c :: d :: ys).take k) ++ addrs ((c :: d :: ys).drop k)).Nodup := by
        rw [← List.map_append, hparts]
        exact hxs.nodup
      have hdisj := List.disjoint_of_nodup_append hnodup
      -- the front half is sorted; the back half is still there, and sorted then
      obtain ⟨h₁, r₁, zs₁, hrun₁, hseg₁, hsub₁, hord₁, -, -, hframe₁⟩ := ih ((c :: d :: ys).take k).length
        (by rw [List.length_take]; omega) hfront rfl
      have hback₁ := hback.congr fun a ha => hframe₁ a fun hmem => hdisj hmem ha
      obtain ⟨h₂, r₂, zs₂, hrun₂, hseg₂, hsub₂, hord₂, -, -, hframe₂⟩ := ih ((c :: d :: ys).drop k).length
        (by rw [List.length_drop]; omega) hback₁ rfl
      have hin₁ : ∀ a ∈ addrs zs₁, a ∈ addrs ((c :: d :: ys).take k) := fun a ha => (addrs_subperm hsub₁).subset ha
      have hin₂ : ∀ a ∈ addrs zs₂, a ∈ addrs ((c :: d :: ys).drop k) := fun a ha => (addrs_subperm hsub₂).subset ha
      have hfront₂ := hseg₁.congr fun a ha => hframe₂ a fun hmem => hdisj (hin₁ a ha) hmem
      obtain ⟨h₃, r₃, hrun₃, hseg₃, hframe₃⟩ := mergeAt_chain cmpfun hfront₂ hseg₂ fun a ha hb =>
        hdisj (hin₁ a ha) (hin₂ a hb)
      have hlen₁ := hsub₁.length_le
      have hlen₂ := hsub₂.length_le
      have hlen : ((c :: d :: ys).take k).length + ((c :: d :: ys).drop k).length = (c :: d :: ys).length := by
        rw [← List.length_append, hparts]
      refine ⟨h₃, r₃, merged cmpfun zs₁ zs₂, fun fuel hfuel => ?_, hseg₃, ?_, ?_, by simp, fun _ => ?_, ?_⟩
      · obtain ⟨fuel, rfl⟩ := Nat.exists_eq_succ_of_ne_zero (Nat.ne_zero_of_lt hfuel)
        have hturns : (c :: d :: ys).length < fuel := by omega
        simp only [mergeSortAt, reduceCtorEq, if_false, deref_cell hcell, ok_bind,
          hsplit fuel (by simp at hturns ⊢; omega), hrun₁ fuel (by rw [List.length_take]; omega),
          hrun₂ fuel (by rw [List.length_drop]; omega)]
        exact hrun₃ fuel (by omega)
      · rw [← hparts]
        exact (merged_subperm cmpfun zs₁ zs₂).trans (hsub₁.append hsub₂)
      · exact fun hcmp => merged_ordered hcmp (hord₁ hcmp) (hord₂ hcmp)
      · by_cases hnone : zs₁.length + zs₂.length = 0
        · have hle := (merged_subperm cmpfun zs₁ zs₂).length_le
          rw [List.length_append, hnone] at hle
          simp only [List.length_cons]
          omega
        · have hlt := merged_length cmpfun zs₁ zs₂ (by omega)
          omega
      · intro b hb
        have hout : b ∉ addrs ((c :: d :: ys).take k) ∧ b ∉ addrs ((c :: d :: ys).drop k) := by
          rw [← not_or, ← List.mem_append, ← List.map_append, hparts]
          exact hb
        rw [hframe₃ b (fun hmem => hout.1 (hin₁ b hmem)) fun hmem => hout.2 (hin₂ b hmem), hframe₂ b hout.2,
          hframe₁ b hout.1, hframe₀ b hb]

/-- The list that a sort leaves. -/
theorem listSortAt_chain (cmpfun : α → α → ℤ) {l : StructList} (hl : InMemory h l xs) : ∃ h' root zs,
    Returns (fun fuel => listSortAt fuel h l cmpfun) (h', ⟨l.n, root⟩) ∧ Seg h' root zs none ∧ zs.Subperm xs ∧
      (TotalPreorder cmpfun → Ordered cmpfun (zs.map Prod.snd)) ∧ (xs.length ≤ 1 → zs = xs) ∧
        (1 < xs.length → zs.length < xs.length) := by
  obtain ⟨h', r, zs, hrun, hseg, hsub, hord, hsame, hlost, -⟩ := mergeSortAt_chain cmpfun hl.chain
  refine ⟨h', r, zs, ⟨xs.length + 2, fun fuel hfuel => ?_⟩, hseg, hsub, hord, hsame, hlost⟩
  simp only [listSortAt, hrun fuel hfuel, ok_bind]

/-- A sort of the list with the nodes `xs` ends, and leaves all of them: in order,
and as many as the counter says. -/
def Sorts (sort : ℕ → Except Stop (Cells α × StructList)) (cmpfun : α → α → ℤ) (xs : List (ℕ × α)) : Prop :=
  ∃ h' l' ys, Returns sort (h', l') ∧ InMemory h' l' ys ∧ ys.Perm xs ∧
    (ys.map Prod.snd).IsChain fun a b => ¬ 0 < cmpfun a b

theorem sorts_of_short {l : StructList} (hl : InMemory h l xs) (hshort : xs.length ≤ 1) :
    Sorts (fun fuel => listSortAt fuel h l cmpfun) cmpfun xs := by
  obtain ⟨h', root, zs, hrun, hseg, -, -, hsame, -⟩ := listSortAt_chain cmpfun hl
  obtain rfl := hsame hshort
  refine ⟨h', ⟨l.n, root⟩, zs, hrun, ⟨hseg, hl.count⟩, .refl _, ?_⟩
  rcases zs with _ | ⟨c, _ | ⟨d, zs⟩⟩
  · exact .nil
  · exact .singleton _
  · simp at hshort

theorem not_sorts {l : StructList} (hl : InMemory h l xs) (hlong : 1 < xs.length) :
    ¬ Sorts (fun fuel => listSortAt fuel h l cmpfun) cmpfun xs := by
  rintro ⟨h', l', ys, hrun', hys, hperm, -⟩
  obtain ⟨h'', root, zs, hrun, hseg, -, -, -, hlost⟩ := listSortAt_chain cmpfun hl
  obtain ⟨rfl, rfl⟩ := Prod.mk.inj (hrun'.unique hrun)
  have hlt := hlost hlong
  rw [hys.chain.unique hseg] at hperm
  exact absurd hperm.length_eq hlt.ne

/-- **A sort keeps its list just when there is nothing to sort**, for every
comparison function, and so for a taskset whatever the key and the direction. -/
theorem sorts_iff (cmpfun : α → α → ℤ) {l : StructList} (hl : InMemory h l xs) (heap : Heap) (key : Param) (flag : Order)
    {nodes : Cells Addr} {ts : StructList} {tasks : List (ℕ × Addr)} (hts : InMemory nodes ts tasks) :
    (Sorts (fun fuel => listSortAt fuel h l cmpfun) cmpfun xs ↔ xs.length ≤ 1) ∧
      (Sorts (fun fuel => rtfTasksetSortAt fuel heap nodes ts key flag)
        (fun a b => taskCmp (heap a) (heap b) key flag) tasks ↔ tasks.length ≤ 1) := by
  constructor
  · exact ⟨fun hsorts => not_lt.mp fun hlong => not_sorts hl hlong hsorts, sorts_of_short hl⟩
  · exact ⟨fun hsorts => not_lt.mp fun hlong => not_sorts hts hlong hsorts, sorts_of_short hts⟩

/-- Two tasks, the first with the shorter period. -/
def twoTasks : Heap := fun a => { Task.zero with params := { Params.zero with period := UInt64.ofNat a } }

/-- The two nodes of a taskset with the tasks 10 and 20. -/
def twoNodes : Cells Addr := fun a => if a = 1 then some ⟨some 2, 10⟩ else if a = 2 then some ⟨none, 20⟩ else none

theorem twoNodes_inMemory : InMemory twoNodes ⟨2, some 1⟩ [(1, 10), (2, 20)] :=
  ⟨⟨rfl, some 2, rfl, rfl, none, rfl, rfl⟩, by decide⟩

theorem sorts_iff_two : (Sorts (fun fuel => listSortAt fuel twoNodes ⟨2, some 1⟩ cmpNat) cmpNat [(1, 10), (2, 20)] ↔
      [(1, 10), (2, 20)].length ≤ 1) ∧
    (Sorts (fun fuel => rtfTasksetSortAt fuel twoTasks twoNodes ⟨2, some 1⟩ .period .asc)
      (fun a b => taskCmp (twoTasks a) (twoTasks b) .period .asc) [(1, 10), (2, 20)] ↔ [(1, 10), (2, 20)].length ≤ 1) :=
  sorts_iff cmpNat twoNodes_inMemory twoTasks .period .asc twoNodes_inMemory

/-- Sorting two tasks that are in order already loses one. -/
theorem sort_loses_task : InMemory twoNodes ⟨2, some 1⟩ [(1, 10), (2, 20)] ∧
    ¬ Sorts (fun fuel => rtfTasksetSortAt fuel twoTasks twoNodes ⟨2, some 1⟩ .period .asc)
      (fun a b => taskCmp (twoTasks a) (twoTasks b) .period .asc) [(1, 10), (2, 20)] :=
  ⟨twoNodes_inMemory, not_sorts twoNodes_inMemory (by decide)⟩

end Spec

end Retif
