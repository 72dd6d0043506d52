/-
# The linked list in memory

`list.c` on the nodes it allocates: a node has the address of the next one, a
list its counter and the address of its root. `TaskList` has the same
operations on the sequence of elements; here each of them is shown to do to the
chain in memory what it does there (`addSorted_nodes`, `remove_nodes`,
`search_nodes`), for any fuel from the length of the chain on.

`alloc` either gives a block that is not in use or ends the program; the block
is an argument. The counter is an `int`.

Key definitions: `StructList`, `seekLoop`, `listAddSortedAt`, `listRemoveAt`,
`listSearchAt`, `InMemory`.
Key theorems: `seekLoop_chain`, `addSorted_nodes`, `remove_nodes`, `search_nodes`.
-/
import Retif.Lib.Chain
import Retif.Lib.Runs
import Retif.TaskList

namespace Retif

open Chains CList

/-- `struct list`. -/
structure StructList where
  n : Int32
  root : Option ℕ

/-- Why an operation does not come to an end: it follows a link that leads to no
node, or it has turned as often as it was allowed to. -/
inductive Stop where
  | link
  | turns

/-! ### The operations -/

section Operations

variable {α : Type}

/-- A link is followed. -/
def deref (h : Cells α) : Option ℕ → Except Stop (Cell α)
  | none => .error .link
  | some a => match h a with
    | none => .error .link
    | some node => .ok node

/-- `node->next = next`. -/
def setNext (h : Cells α) (link next : Option ℕ) : Except Stop (Cells α) :=
  match link with
  | none => .error .link
  | some a => match h a with
    | none => .error .link
    | some node => .ok (Function.update h a (some { node with next := next }))

/-- `free`. -/
def freeNode (h : Cells α) (a : ℕ) : Cells α := Function.update h a none

/-- `list_init`. -/
def StructList.init : StructList := ⟨0, none⟩

def StructList.isEmpty (l : StructList) : Bool := l.n == 0

/-- `list_get_size`. -/
def StructList.getSize (l : StructList) : Int32 := l.n

/-- `list_add_top`, in the block `new`. -/
def listAddTopAt (h : Cells α) (l : StructList) (new : ℕ) (elem : α) : Cells α × StructList :=
  (Function.update h new (some ⟨l.root, elem⟩), ⟨l.n + 1, some new⟩)

/-- The loop of `list_add_sorted` and `list_remove`: `seek` goes on while its
element is to be passed, `prec` follows. -/
def seekLoop (h : Cells α) (pass : α → Bool) : ℕ → Option ℕ → Option ℕ → Except Stop (Option ℕ × Option ℕ)
  | 0, _, _ => .error .turns
  | fuel + 1, prec, seek =>
    if seek = none then .ok (prec, seek)
    else do
      let node ← deref h seek
      if pass node.elem then do
        let before ← deref h prec
        seekLoop h pass fuel before.next node.next
      else .ok (prec, seek)

/-- `list_add_sorted`, in the block `new`: the node it returns, and what it leaves. -/
def listAddSortedAt (fuel : ℕ) (h : Cells α) (l : StructList) (new : ℕ) (elem : α) (cmpfun : α → α → ℤ) :
    Except Stop (Option ℕ × Cells α × StructList) :=
  let top := listAddTopAt h l new elem
  if l.isEmpty then .ok (top.2.root, top)
  else do
    let root ← deref h l.root
    if cmpfun elem root.elem ≤ 0 then .ok (top.2.root, top)
    else do
      let h := Function.update h new (some ⟨none, elem⟩)
      let (prec, seek) ← seekLoop h (fun x => decide (cmpfun elem x > 0)) fuel l.root root.next
      let h ← setNext h prec (some new)
      let h ← setNext h (some new) seek
      .ok (some new, h, ⟨l.n + 1, l.root⟩)

/-- `list_remove_top`. -/
def listRemoveTopAt (h : Cells α) (l : StructList) : Except Stop (Option α × Cells α × StructList) :=
  if l.isEmpty then .ok (none, h, l)
  else
    match l.root with
    | none => .error .link
    | some n => do
      let node ← deref h (some n)
      .ok (some node.elem, freeNode h n, ⟨l.n - 1, node.next⟩)

/-- `list_remove`; `key` tells whether `cmpfun` gives something else than 0. -/
def listRemoveAt (fuel : ℕ) (h : Cells α) (l : StructList) (key : α → Bool) :
    Except Stop (Option α × Cells α × StructList) :=
  if l.isEmpty then .ok (none, h, l)
  else do
    let root ← deref h l.root
    if key root.elem then listRemoveTopAt h l
    else do
      let (prec, seek) ← seekLoop h (fun x => !key x) fuel l.root root.next
      match seek with
      | none => .ok (none, h, l)
      | some n => do
        let node ← deref h (some n)
        let h ← setNext h prec node.next
        .ok (some node.elem, freeNode h n, ⟨l.n - 1, l.root⟩)

/-- The loop of `list_search_elem`. -/
def searchLoop (h : Cells α) (key : α → Bool) : ℕ → Option ℕ → Except Stop (Option α)
  | 0, _ => .error .turns
  | fuel + 1, n =>
    if n = none then .ok none
    else do
      let node ← deref h n
      if key node.elem then .ok (some node.elem) else searchLoop h key fuel node.next

/-- `list_search_elem`. -/
def listSearchAt (fuel : ℕ) (h : Cells α) (l : StructList) (key : α → Bool) : Except Stop (Option α) :=
  searchLoop h key fuel l.root

end Operations

/-! ### What the list holds -/

/-- The cells of the list are `xs`, and the counter is their number. -/
structure InMemory {α : Type} (h : Cells α) (l : StructList) (xs : List (ℕ × α)) : Prop where
  chain : Seg h l.root xs none
  count : l.n.toInt = xs.length

section Spec

variable {α : Type} {h : Cells α} {l : StructList} {xs : List (ℕ × α)} {p : Option ℕ} {a new : ℕ} {x elem : α}

@[simp] theorem deref_cell {next : Option ℕ} (hcell : h a = some ⟨next, x⟩) : deref h (some a) = .ok ⟨next, x⟩ := by
  simp [deref, hcell]

@[simp] theorem setNext_cell {next link : Option ℕ} (hcell : h a = some ⟨next, x⟩) :
    setNext h (some a) link = .ok (Function.update h a (some ⟨link, x⟩)) := by
  simp [setNext, hcell]

/-- An `int` that counts is 0 just where nothing is counted. -/
theorem InMemory.isEmpty_iff (hl : InMemory h l xs) : l.isEmpty = true ↔ xs = [] := by
  unfold StructList.isEmpty
  rw [beq_iff_eq, ← Int32.toInt_inj, hl.count, ← List.length_eq_zero_iff]
  simp

theorem InMemory.root_cons (hl : InMemory h l ((a, x) :: xs)) : l.isEmpty = false := by
  rw [Bool.eq_false_iff, ne_eq, hl.isEmpty_iff]
  simp

/-- The number of cells is an `int`. -/
theorem InMemory.length_lt (hl : InMemory h l xs) : xs.length < 2 ^ 31 := by
  have hcount := hl.count
  have hlt := l.n.toInt_lt
  omega

theorem toInt_succ {n : Int32} {k : ℕ} (hn : n.toInt = k) (hk : k + 1 < 2 ^ 31) : (n + 1).toInt = (k + 1 : ℕ) := by
  rw [Int32.toInt_add, hn, Int32.toInt_one, Int.bmod_eq_of_le] <;> omega

theorem toInt_pred {n : Int32} {k : ℕ} (hn : n.toInt = (k + 1 : ℕ)) : (n - 1).toInt = k := by
  have hlt := n.toInt_lt
  rw [Int32.toInt_sub, hn, Int32.toInt_one, Int.bmod_eq_of_le] <;> omega

/-- **The scan** stops in front of the first element that is not to be passed,
with `prec` on the cell before it. -/
theorem seekLoop_chain (pass : α → Bool) {first : ℕ × α} {seek : Option ℕ}
    (hprec : h first.1 = some ⟨seek, first.2⟩) (hseek : Seg h seek xs none) :
    ∃ pre rest last seek', xs = pre ++ rest ∧ (∀ y ∈ pre, pass y.2) ∧ (∀ y ∈ rest.head?, ¬ pass y.2) ∧
      (first :: pre).getLast? = some last ∧
        (∀ fuel, xs.length < fuel → seekLoop h pass fuel (some first.1) seek = .ok (some last.1, seek')) ∧
          Seg h seek pre seek' ∧ Seg h seek' rest none := by
  induction xs generalizing first seek with
  | nil =>
    obtain rfl : seek = none := hseek
    refine ⟨[], [], first, none, rfl, by simp, by simp, rfl, ?_, rfl, rfl⟩
    intro fuel hfuel
    obtain ⟨fuel, rfl⟩ := Nat.exists_eq_succ_of_ne_zero hfuel.ne'
    rfl
  | cons cell xs ih =>
    obtain ⟨b, y⟩ := cell
    obtain ⟨rfl, next, hcell, hrest⟩ := hseek
    have hturn : ∀ fuel, seekLoop h pass (fuel + 1) (some first.1) (some b) =
        if pass y then seekLoop h pass fuel (some b) next else .ok (some first.1, some b) := by
      intro fuel
      have hfirst : deref h (some first.1) = .ok ⟨some b, first.2⟩ := deref_cell hprec
      simp only [seekLoop, reduceCtorEq, if_false, deref_cell hcell, hfirst, ok_bind]
    by_cases hpass : pass y = true
    · obtain ⟨pre, rest, last, seek', rfl, hpre, hhead, hlast, hloop, hseg, hchain⟩ := @ih (b, y) next hcell hrest
      refine ⟨(b, y) :: pre, rest, last, seek', rfl, ?_, hhead, ?_, ?_, ⟨rfl, next, hcell, hseg⟩, hchain⟩
      · intro z hz
        rcases List.mem_cons.mp hz with rfl | hz
        · exact hpass
        · exact hpre z hz
      · rw [List.getLast?_cons_cons, hlast]
      · intro fuel hfuel
        obtain ⟨fuel, rfl⟩ := Nat.exists_eq_succ_of_ne_zero (Nat.ne_zero_of_lt hfuel)
        rw [hturn, if_pos hpass]
        exact hloop fuel (by simpa using hfuel)
    · refine ⟨[], (b, y) :: xs, first, some b, rfl, by simp, by simpa using hpass, rfl, ?_, rfl, rfl, next, hcell, hrest⟩
      intro fuel hfuel
      obtain ⟨fuel, rfl⟩ := Nat.exists_eq_succ_of_ne_zero (Nat.ne_zero_of_lt hfuel)
      rw [hturn, if_neg hpass]

/-- **Sorted insertion** puts the new node behind the cells that `elem` exceeds,
in front of the first that it does not; nothing else is written. -/
theorem addSorted_nodes (elem : α) (cmpfun : α → α → ℤ) (hl : InMemory h l xs) (hnew : h new = none) : ∃ h' l' pre rest,
    (∀ fuel, xs.length ≤ fuel → listAddSortedAt fuel h l new elem cmpfun = .ok (some new, h', l')) ∧
      xs = pre ++ rest ∧ (∀ y ∈ pre, 0 < cmpfun elem y.2) ∧ (∀ y ∈ rest.head?, cmpfun elem y.2 ≤ 0) ∧
        Seg h' l'.root (pre ++ (new, elem) :: rest) none ∧ l'.n = l.n + 1 ∧
          ∀ b, b ∉ addrs xs → b ≠ new → h' b = h b := by
  have hchain := hl.chain
  have hout : new ∉ addrs xs := fun hmem => hchain.alloc hmem hnew
  have htop : Seg (listAddTopAt h l new elem).1 (listAddTopAt h l new elem).2.root ((new, elem) :: xs) none :=
    ⟨rfl, l.root, Function.update_self .., hchain.frame hout⟩
  have hkept : ∀ b, b ∉ addrs xs → b ≠ new → (listAddTopAt h l new elem).1 b = h b :=
    fun b _ hne => Function.update_of_ne hne _ _
  rcases xs with _ | ⟨⟨a, x⟩, xs⟩
  · have hempty := hl.isEmpty_iff.mpr rfl
    refine ⟨_, _, [], [], ?_, rfl, by simp, by simp, htop, rfl, hkept⟩
    intro fuel _
    simp only [listAddSortedAt, hempty, if_true]
    rfl
  · obtain ⟨hroot, next, hcell, hrest⟩ := id hchain
    simp only [listAddSortedAt, hl.root_cons, Bool.false_eq_true, if_false, hroot, deref_cell hcell, ok_bind]
    by_cases hle : cmpfun elem x ≤ 0
    · refine ⟨_, _, [], (a, x) :: xs, ?_, rfl, by simp, by simpa using hle, htop, rfl, hkept⟩
      intro fuel _
      rw [if_pos hle]
      rfl
    · simp only [if_neg hle]
      have hnea : a ≠ new := fun heq => hout (heq ▸ List.mem_cons_self ..)
      have houts : new ∉ addrs xs := fun hmem => hout (List.mem_cons_of_mem _ hmem)
      -- the loop runs with the new node already there, but not linked
      set h1 := Function.update h new (some ⟨none, elem⟩) with hh1
      have hcell1 : h1 a = some ⟨next, x⟩ := by rw [hh1, Function.update_of_ne hnea, hcell]
      have hxs1 : Seg h1 next xs none := hrest.frame houts
      obtain ⟨pre, rest, ⟨b, y⟩, seek, rfl, hpre, hhead, hlast, hloop, hseg, hend⟩ :=
        @seekLoop_chain α h1 xs (fun x => decide (cmpfun elem x > 0)) (a, x) next hcell1 hxs1
      obtain ⟨init, hinit⟩ := List.getLast?_eq_some_iff.mp hlast
      have hsplit : (a, x) :: (pre ++ rest) = init ++ (b, y) :: rest := by
        rw [← List.cons_append, hinit, List.append_assoc, List.singleton_append]
      -- the cells before the new one, and `b` the last of them
      have hbefore : Seg h1 (some a) (init ++ [(b, y)]) seek := by
        rw [← hinit]
        exact ⟨rfl, next, hcell1, hseg⟩
      have hb : h1 b = some ⟨seek, y⟩ := by
        obtain ⟨_, -, rfl, _, hb, hseek⟩ := seg_append.mp hbefore
        rw [hb, show _ = seek from hseek]
      have hperm : (addrs (init ++ (b, y) :: (new, elem) :: rest)).Perm (new :: addrs ((a, x) :: (pre ++ rest))) := by
        rw [hsplit]
        simpa using (@List.perm_middle ℕ new (init.map Prod.fst ++ [b]) (rest.map Prod.fst))
      have hnodup : (addrs (init ++ (b, y) :: (new, elem) :: rest)).Nodup :=
        hperm.nodup_iff.mpr (List.nodup_cons.mpr ⟨hout, hchain.nodup⟩)
      have hne : new ≠ b := by
        rintro rfl
        exact hout (by rw [hsplit]; simp)
      have hlinked := Seg.insert hnodup hbefore hend
      have hfresh : Function.update h1 b (some ⟨some new, y⟩) new = some ⟨none, elem⟩ := by
        rw [Function.update_of_ne hne, hh1, Function.update_self]
      refine ⟨Function.update (Function.update h1 b (some ⟨some new, y⟩)) new (some ⟨seek, elem⟩), ⟨l.n + 1, some a⟩,
        (a, x) :: pre, rest, ?_, rfl, ?_, by simpa using hhead, ?_, rfl, ?_⟩
      · intro fuel hfuel
        rw [hloop fuel (by simpa using hfuel), ok_bind]
        dsimp only
        rw [setNext_cell hb, ok_bind, setNext_cell hfresh, ok_bind]
      · intro z hz
        rcases List.mem_cons.mp hz with rfl | hz
        · exact not_le.mp hle
        · simpa using hpre z hz
      · rw [hinit, List.append_assoc]
        exact hlinked
      · intro c hc hcnew
        have hcb : c ≠ b := by
          rintro rfl
          exact hc (by rw [hsplit]; simp)
        rw [Function.update_of_ne hcnew, Function.update_of_ne hcb, hh1, Function.update_of_ne hcnew]

/-- The first node is taken off and given back. -/
theorem removeTop_nodes (hl : InMemory h l xs) : ∃ h' l',
    listRemoveTopAt h l = .ok ((xs.map Prod.snd).head?, h', l') ∧ InMemory h' l' xs.tail ∧ ∀ b, b ∉ addrs xs → h' b = h b := by
  rcases xs with _ | ⟨⟨a, x⟩, xs⟩
  · refine ⟨h, l, ?_, hl, fun _ _ => rfl⟩
    rw [listRemoveTopAt, if_pos (hl.isEmpty_iff.mpr rfl)]
    rfl
  · obtain ⟨hroot, next, hcell, hrest⟩ := id hl.chain
    have ha : a ∉ addrs xs := (List.nodup_cons.mp hl.chain.nodup).1
    refine ⟨freeNode h a, ⟨l.n - 1, next⟩, ?_, ⟨hrest.frame ha, toInt_pred hl.count⟩, ?_⟩
    · simp only [listRemoveTopAt, hl.root_cons, Bool.false_eq_true, if_false, hroot, deref_cell hcell, ok_bind,
        List.map_cons, List.head?_cons]
    · intro b hb
      apply Function.update_of_ne
      rintro rfl
      exact hb (List.mem_cons_self ..)

/-- **Removal** takes out the first node that has the key, and gives its element
back; if there is none, nothing is written. -/
theorem remove_nodes (key : α → Bool) (hl : InMemory h l xs) : ∃ h' l',
    (∀ fuel, xs.length ≤ fuel → listRemoveAt fuel h l key = .ok ((xs.map Prod.snd).find? key, h', l')) ∧
      InMemory h' l' (xs.eraseP fun c => key c.2) ∧ ∀ b, b ∉ addrs xs → h' b = h b := by
  rcases xs with _ | ⟨⟨a, x⟩, xs⟩
  · refine ⟨h, l, ?_, hl, fun _ _ => rfl⟩
    intro fuel _
    rw [listRemoveAt, if_pos (hl.isEmpty_iff.mpr rfl)]
    rfl
  obtain ⟨hroot, next, hcell, hrest⟩ := id hl.chain
  simp only [listRemoveAt, hl.root_cons, Bool.false_eq_true, if_false, hroot, deref_cell hcell, ok_bind]
  by_cases hkey : key x = true
  · obtain ⟨h', l', hrun, hl', hframe⟩ := removeTop_nodes hl
    refine ⟨h', l', ?_, ?_, hframe⟩
    · intro fuel _
      rw [if_pos hkey, hrun, List.map_cons, List.find?_cons_of_pos hkey]
      rfl
    · rwa [List.eraseP_cons_of_pos (p := fun c : ℕ × α => key c.2) hkey]
  · simp only [if_neg hkey]
    obtain ⟨pre, rest, ⟨b, y⟩, seek, rfl, hpre, hhead, hlast, hloop, hseg, hend⟩ :=
      @seekLoop_chain α h xs (fun x => !key x) (a, x) next hcell hrest
    obtain ⟨init, hinit⟩ := List.getLast?_eq_some_iff.mp hlast
    have hpass : ∀ c ∈ (a, x) :: pre, ¬ key c.2 = true := by
      intro c hc
      rcases List.mem_cons.mp hc with rfl | hc
      · exact hkey
      · simpa using hpre c hc
    rcases rest with _ | ⟨⟨n, z⟩, rest⟩
    · obtain rfl : seek = none := hend
      have hnone : ∀ c ∈ (a, x) :: (pre ++ []), ¬ key c.2 = true := by simpa using hpass
      refine ⟨h, l, ?_, ?_, fun _ _ => rfl⟩
      · intro fuel hfuel
        rw [hloop fuel (by simpa using hfuel), ok_bind, List.find?_eq_none.mpr]
        exact List.forall_mem_map.mpr hnone
      · rwa [List.eraseP_of_forall_not hnone]
    · have hkeyz : key z = true := by simpa using hhead
      obtain ⟨rfl, next', hcelln, hrest'⟩ := hend
      have hsplit : (a, x) :: (pre ++ (n, z) :: rest) = init ++ (b, y) :: (n, z) :: rest := by
        rw [← List.cons_append, hinit, List.append_assoc, List.singleton_append]
      have hbefore : Seg h (some a) (init ++ [(b, y)]) (some n) := by
        rw [← hinit]
        exact ⟨rfl, next, hcell, hseg⟩
      have hb : h b = some ⟨some n, y⟩ := by
        obtain ⟨_, -, rfl, _, hb, hseek⟩ := seg_append.mp hbefore
        rw [hb, show _ = some n from hseek]
      have hnodup := hl.chain.nodup
      rw [hsplit] at hnodup
      have hremoved := Seg.remove hnodup hbefore hrest'
      have herase : ((a, x) :: (pre ++ (n, z) :: rest)).eraseP (fun c => key c.2) = init ++ (b, y) :: rest := by
        rw [← List.cons_append, List.eraseP_append_right _ hpass,
          List.eraseP_cons_of_pos (p := fun c : ℕ × α => key c.2) hkeyz, hinit, List.append_assoc, List.singleton_append]
      refine ⟨freeNode (Function.update h b (some ⟨next', y⟩)) n, ⟨l.n - 1, some a⟩, ?_, ?_, ?_⟩
      · intro fuel hfuel
        rw [hloop fuel (by simpa using hfuel), ok_bind]
        dsimp only
        rw [deref_cell hcelln, ok_bind, setNext_cell hb, ok_bind, ← List.cons_append, List.map_append,
          List.find?_append, List.find?_eq_none.mpr, List.map_cons, List.find?_cons_of_pos hkeyz]
        · rfl
        · exact List.forall_mem_map.mpr hpass
      · rw [herase]
        refine ⟨hremoved, toInt_pred (hl.count.trans ?_)⟩
        rw [hsplit]
        simp
        omega
      · intro c hc
        rw [hsplit] at hc
        simp only [addrs, List.map_append, List.map_cons, List.mem_append, List.mem_cons, not_or] at hc
        obtain ⟨-, hcb, hcn, -⟩ := hc
        rw [freeNode, Function.update_of_ne hcn, Function.update_of_ne hcb]

/-- **The search** gives the first element that has the key. -/
theorem search_nodes (key : α → Bool) {fuel : ℕ} (hseg : Seg h p xs none) (hfuel : xs.length < fuel) :
    searchLoop h key fuel p = .ok ((xs.map Prod.snd).find? key) := by
  induction xs generalizing p fuel with
  | nil =>
    obtain rfl : p = none := hseg
    obtain ⟨fuel, rfl⟩ := Nat.exists_eq_succ_of_ne_zero (by omega : fuel ≠ 0)
    rfl
  | cons cell xs ih =>
    obtain ⟨a, x⟩ := cell
    obtain ⟨rfl, next, hcell, hrest⟩ := hseg
    obtain ⟨fuel, rfl⟩ := Nat.exists_eq_succ_of_ne_zero (by omega : fuel ≠ 0)
    simp only [searchLoop, reduceCtorEq, if_false, deref_cell hcell, ok_bind, List.map_cons]
    by_cases hkey : key x = true
    · rw [if_pos hkey, List.find?_cons_of_pos hkey]
    · rw [if_neg hkey, List.find?_cons_of_neg hkey]
      exact ih hrest (by simpa using hfuel)

/-! ### The sequence of elements -/

/-- The elements of the chain are those of `c`. -/
def Carries (h : Cells α) (l : StructList) (c : CList α) : Prop := ∃ xs, InMemory h l xs ∧ xs.map Prod.snd = c.root

theorem addSeek_append {cmpfun : α → α → ℤ} {pre rest : List α} (hpre : ∀ y ∈ pre, 0 < cmpfun elem y)
    (hhead : ∀ y ∈ rest.head?, cmpfun elem y ≤ 0) : addSeek elem cmpfun (pre ++ rest) = (pre ++ elem :: rest, rest) := by
  induction pre with
  | nil =>
    rcases rest with _ | ⟨y, rest⟩
    · rfl
    · have hle : ¬ cmpfun elem y > 0 := not_lt.mpr (hhead y rfl)
      rw [List.nil_append, addSeek, if_neg hle]
      rfl
  | cons x pre ih =>
    have hx : cmpfun elem x > 0 := hpre x (List.mem_cons_self ..)
    rw [List.cons_append, addSeek, if_pos hx, ih fun y hy => hpre y (List.mem_cons_of_mem _ hy)]
    rfl

theorem InMemory.of_perm {h' : Cells α} {l' : StructList} {ys : List (ℕ × α)} (hl : InMemory h l xs)
    (hchain : Seg h' l'.root ys none) (hperm : ys.Perm ((new, elem) :: xs)) (hn : l'.n = l.n + 1)
    (hroom : l.n.toInt + 1 < 2 ^ 31) : InMemory h' l' ys := by
  refine ⟨hchain, ?_⟩
  have hcount := hl.count
  rw [hn, hperm.length_eq, toInt_succ hcount (by omega), List.length_cons]

/-- In memory, sorted insertion is the one on sequences, and from the node it
returns the chain goes on as it does there. -/
theorem Carries.addSorted {c : CList α} (cmpfun : α → α → ℤ) (hc : Carries h l c) (hnew : h new = none)
    (hroom : l.n.toInt + 1 < 2 ^ 31) :
    ∃ h' l', Returns (fun fuel => listAddSortedAt fuel h l new elem cmpfun) (some new, h', l') ∧
      Carries h' l' (listAddSorted c elem cmpfun).1 ∧ ∃ behind, Seg h' (some new) ((new, elem) :: behind) none ∧
        behind.map Prod.snd = (listAddSorted c elem cmpfun).2 := by
  obtain ⟨xs, hl, hroot⟩ := hc
  obtain ⟨h', l', pre, rest, hrun, rfl, hpre, hhead, hchain, hn, -⟩ :=
    addSorted_nodes elem cmpfun hl hnew
  have hseek : addSeek elem cmpfun c.root = ((pre ++ (new, elem) :: rest).map Prod.snd, rest.map Prod.snd) := by
    rw [← hroot, List.map_append, addSeek_append]
    · simp
    · exact List.forall_mem_map.mpr hpre
    · intro y hy
      rw [List.head?_map] at hy
      obtain ⟨cell, hcell, rfl⟩ := Option.map_eq_some_iff.mp hy
      exact hhead cell hcell
  obtain ⟨hlist, hbehind⟩ := listAddSorted_eq c elem cmpfun
  refine ⟨h', l', ⟨_, hrun⟩, ⟨_, hl.of_perm hchain List.perm_middle hn hroom, ?_⟩, rest, ?_, ?_⟩
  · rw [hlist, hseek]
  · obtain ⟨_, -, rfl, hnext⟩ := seg_append.mp hchain
    exact ⟨rfl, hnext⟩
  · rw [hbehind, hseek]

/-- In memory, removal is the one on sequences. -/
theorem Carries.remove {c : CList α} (key : α → Bool) (hc : Carries h l c) :
    ∃ h' l', Returns (fun fuel => listRemoveAt fuel h l key) ((listRemove c key).1, h', l') ∧
      Carries h' l' (listRemove c key).2 := by
  obtain ⟨xs, hl, hroot⟩ := hc
  obtain ⟨h', l', hrun, hl', -⟩ := remove_nodes key hl
  obtain ⟨hfound, hleft⟩ := listRemove_eq c key
  refine ⟨h', l', ⟨xs.length, ?_⟩, _, hl', ?_⟩
  · rw [hfound, ← hroot]
    exact hrun
  · rw [hleft, ← hroot, List.eraseP_map]
    rfl

/-- In memory, the search is the one on sequences. -/
theorem Carries.search {c : CList α} (key : α → Bool) (hc : Carries h l c) :
    Returns (fun fuel => listSearchAt fuel h l key) (listSearchElem c key) := by
  obtain ⟨xs, hl, hroot⟩ := hc
  refine ⟨xs.length + 1, fun fuel hfuel => ?_⟩
  rw [listSearchElem_eq, ← hroot]
  exact search_nodes key hl.chain hfuel

end Spec

end Retif
