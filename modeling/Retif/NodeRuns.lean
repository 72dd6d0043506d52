/-
# Lists over whole runs

Any number of lists in one memory, and any sequence of the operations of
`list.c` on them. The lists stay chains of their own (`Represents`), each with
its counter right, and every operation does to the sequence what its name says
(`Does`), whatever the others do. The one thing that ends this is the counter:
it is an `int`, so a list of `INT_MAX` elements must not be added to; with one
more the counter is negative.

Key definitions: `Op`, `Store`, `Runs`, `Does`, `Represents`.
Key theorems: `Represents.runs`, `lists_refine`, `list_counter_overflows`.
-/
import Retif.Nodes

namespace Retif

namespace Lists

open Chains

/-! ### Operations and runs -/

section Model

variable {α : Type}

/-- The operations; those that allocate have the block that `calloc` gives them. -/
inductive Op (α : Type) where
  | init
  | addTop (new : ℕ) (elem : α)
  | addSorted (new : ℕ) (elem : α) (cmpfun : α → α → ℤ)
  | removeTop
  | remove (key : α → Bool)
  | search (key : α → Bool)

/-- The block that the call allocates. -/
def Op.block : Op α → Option ℕ
  | .addTop new _ | .addSorted new _ _ => some new
  | .init | .removeTop | .remove _ | .search _ => none

/-- What a call gives back: nothing, a node, or an element or `NULL`. -/
inductive Answer (α : Type) where
  | nothing
  | node (a : Option ℕ)
  | elem (x : Option α)

/-- One call on a list, that may turn `fuel` times. -/
def Op.on (fuel : ℕ) (h : Cells α) (l : StructList) : Op α → Except Stop (Answer α × Cells α × StructList)
  | .init => .ok (.nothing, h, .init)
  | .addTop new elem => .ok (.nothing, listAddTopAt h l new elem)
  | .addSorted new elem cmpfun => do
    let (node, after) ← listAddSortedAt fuel h l new elem cmpfun
    .ok (.node node, after)
  | .removeTop => do
    let (x, after) ← listRemoveTopAt h l
    .ok (.elem x, after)
  | .remove key => do
    let (x, after) ← listRemoveAt fuel h l key
    .ok (.elem x, after)
  | .search key => do
    let x ← listSearchAt fuel h l key
    .ok (.elem x, h, l)

/-- Memory, and the lists in it that are initialised. -/
structure Store (α : Type) where
  nodes : Cells α
  lists : ℕ → Option StructList

/-- The nodes and the list `ℓ` after a call. -/
def Store.put (s : Store α) (ℓ : ℕ) (nodes : Cells α) (l : StructList) : Store α :=
  ⟨nodes, Function.update s.lists ℓ (some l)⟩

/-- One call on the list `ℓ`. -/
def Store.exec (fuel : ℕ) (s : Store α) (ℓ : ℕ) (op : Op α) : Except Stop (Answer α × Store α) :=
  match s.lists ℓ, op with
  | none, .init => .ok (.nothing, s.put ℓ s.nodes .init)
  | none, _ => .error .link
  | some l, op => do
    let (r, nodes, l) ← op.on fuel s.nodes l
    .ok (r, s.put ℓ nodes l)

/-- The call comes to an end and gives `r`. -/
def Runs (s : Store α) (ℓ : ℕ) (op : Op α) (r : Answer α) (s' : Store α) : Prop :=
  Returns (fun fuel => s.exec fuel ℓ op) (r, s')

/-- The list is initialised before it is used, and `calloc` gives a block that
nobody has. -/
def Usable (s : Store α) (ℓ : ℕ) (op : Op α) : Prop :=
  (s.lists ℓ = none → op = .init) ∧ ∀ new, op.block = some new → s.nodes new = none

/-- An element is added to a list of `INT_MAX`. -/
def Overfills (s : Store α) (ℓ : ℕ) (op : Op α) : Prop :=
  op.block ≠ none ∧ ∃ l, s.lists ℓ = some l ∧ l.n = Int32.maxValue

/-- The stores that a run of calls leads to, each call usable and `allowed`. -/
inductive Reached (allowed : Store α → ℕ → Op α → Prop) (s₀ : Store α) : Store α → Prop
  | start : Reached allowed s₀ s₀
  | step {s s' : Store α} {ℓ : ℕ} {op : Op α} {r : Answer α} : Reached allowed s₀ s → Usable s ℓ op →
      allowed s ℓ op → Runs s ℓ op r s' → Reached allowed s₀ s'

/-! ### What a call does -/

/-- What an operation does to the sequence of nodes `xs`: it gives `r` and leaves `ys`. -/
def Does (op : Op α) (xs : List (ℕ × α)) (r : Answer α) (ys : List (ℕ × α)) : Prop :=
  match op with
  | .init => r = .nothing ∧ ys = []
  | .addTop new elem => r = .nothing ∧ ys = (new, elem) :: xs
  | .addSorted new elem cmpfun => r = .node (some new) ∧ ∃ pre post, xs = pre ++ post ∧ ys = pre ++ (new, elem) :: post ∧
      (∀ y ∈ pre, 0 < cmpfun elem y.2) ∧ ∀ y ∈ post.head?, cmpfun elem y.2 ≤ 0
  | .removeTop => r = .elem (xs.map Prod.snd).head? ∧ ys = xs.tail
  | .remove key => r = .elem ((xs.map Prod.snd).find? key) ∧ ys = xs.eraseP fun c => key c.2
  | .search key => r = .elem ((xs.map Prod.snd).find? key) ∧ ys = xs

/-- The nodes `seqs ℓ` are those of the list `ℓ`, and no node is in two lists. -/
structure Represents (s : Store α) (seqs : ℕ → List (ℕ × α)) : Prop where
  inMemory : ∀ ℓ l, s.lists ℓ = some l → InMemory s.nodes l (seqs ℓ)
  unused : ∀ ℓ, s.lists ℓ = none → seqs ℓ = []
  disjoint : ∀ ℓ ℓ', ℓ ≠ ℓ' → (addrs (seqs ℓ)).Disjoint (addrs (seqs ℓ'))

variable {s s' s₀ : Store α} {ℓ : ℕ} {op : Op α} {seqs : ℕ → List (ℕ × α)}

/-- An `int` that is not `INT_MAX` can count one more. -/
theorem succ_lt {n : Int32} (hn : n ≠ Int32.maxValue) : n.toInt + 1 < 2 ^ 31 := by
  have hne : n.toInt ≠ Int32.maxValue.toInt := fun heq => hn (Int32.toInt_inj.mp heq)
  have hmax : Int32.maxValue.toInt = 2 ^ 31 - 1 := by decide
  have hlt := n.toInt_lt
  omega

theorem usable_init : Usable s ℓ .init := ⟨fun _ => rfl, by simp [Op.block]⟩

theorem inMemory_init {h : Cells α} : InMemory h .init [] := ⟨rfl, rfl⟩

/-- A call on one list: it ends, does what its name says, and writes to no node
but those of the list and the one it allocates. -/
theorem Op.on_spec {h : Cells α} {l : StructList} {xs : List (ℕ × α)} (hl : InMemory h l xs)
    (hfree : ∀ new, op.block = some new → h new = none) (hroom : op.block ≠ none → l.n ≠ Int32.maxValue) :
    ∃ r h' l' ys, Returns (fun fuel => op.on fuel h l) (r, h', l') ∧ Does op xs r ys ∧ InMemory h' l' ys ∧
      (∀ b ∈ addrs ys, b ∈ addrs xs ∨ h b = none) ∧ ∀ b, b ∉ addrs xs → h b ≠ none → h' b = h b := by
  cases op with
  | init =>
    refine ⟨_, h, .init, [], ⟨0, fun _ _ => rfl⟩, ⟨rfl, rfl⟩, inMemory_init, ?_, fun _ _ _ => rfl⟩
    intro b hb
    exact absurd hb List.not_mem_nil
  | addTop new elem =>
    have hfree := hfree new rfl
    have hout : new ∉ addrs xs := fun hmem => hl.chain.alloc hmem hfree
    have hchain : Seg (listAddTopAt h l new elem).1 (listAddTopAt h l new elem).2.root ((new, elem) :: xs) none :=
      ⟨rfl, l.root, Function.update_self .., hl.chain.frame hout⟩
    refine ⟨_, _, _, _, ⟨0, fun _ _ => rfl⟩, ⟨rfl, rfl⟩, hl.of_perm hchain (.refl _) rfl (succ_lt (hroom (Option.some_ne_none _))), ?_, ?_⟩
    · intro b hb
      rcases List.mem_cons.mp hb with rfl | hb
      · exact .inr hfree
      · exact .inl hb
    · intro b _ hb
      apply Function.update_of_ne
      rintro rfl
      exact hb hfree
  | addSorted new elem cmpfun =>
    have hfree := hfree new rfl
    obtain ⟨h', l', pre, post, hrun, rfl, hpre, hhead, hchain, hn, hframe⟩ :=
      addSorted_nodes elem cmpfun hl hfree
    refine ⟨.node (some new), h', l', _, ⟨(pre ++ post).length, fun fuel hfuel => ?_⟩,
      ⟨rfl, pre, post, rfl, rfl, hpre, hhead⟩,
      hl.of_perm hchain List.perm_middle hn (succ_lt (hroom (Option.some_ne_none _))), ?_, ?_⟩
    · simp only [Op.on, hrun fuel hfuel, ok_bind]
    · intro b hb
      have hmem : b = new ∨ b ∈ addrs (pre ++ post) := by
        simpa [or_left_comm] using hb
      rcases hmem with rfl | hmem
      · exact .inr hfree
      · exact .inl hmem
    · intro b hb halloc
      apply hframe b hb
      rintro rfl
      exact halloc hfree
  | removeTop =>
    obtain ⟨h', l', hrun, hl', hframe⟩ := removeTop_nodes hl
    refine ⟨_, h', l', _, ⟨0, fun fuel _ => ?_⟩, ⟨rfl, rfl⟩, hl', ?_, fun b hb _ => hframe b hb⟩
    · simp only [Op.on, hrun, ok_bind]
    · intro b hb
      exact .inl ((xs.tail_sublist.map Prod.fst).subset hb)
  | remove key =>
    obtain ⟨h', l', hrun, hl', hframe⟩ := remove_nodes key hl
    refine ⟨_, h', l', _, ⟨xs.length, fun fuel hfuel => ?_⟩, ⟨rfl, rfl⟩, hl', ?_, fun b hb _ => hframe b hb⟩
    · simp only [Op.on, hrun fuel hfuel, ok_bind]
    · intro b hb
      exact .inl ((List.eraseP_sublist.map Prod.fst).subset hb)
  | search key =>
    refine ⟨_, h, l, xs, ⟨xs.length + 1, fun fuel hfuel => ?_⟩, ⟨rfl, rfl⟩, hl, fun _ => .inl, fun _ _ _ => rfl⟩
    simp only [Op.on, listSearchAt, search_nodes key hl.chain hfuel, ok_bind]

/-- The lists after a call on one of them that touched no node of another. -/
theorem Represents.put {h' : Cells α} {l' : StructList} {ys : List (ℕ × α)} (hs : Represents s seqs)
    (hl' : InMemory h' l' ys) (hys : ∀ b ∈ addrs ys, b ∈ addrs (seqs ℓ) ∨ s.nodes b = none)
    (hframe : ∀ b, b ∉ addrs (seqs ℓ) → s.nodes b ≠ none → h' b = s.nodes b) :
    Represents (s.put ℓ h' l') (Function.update seqs ℓ ys) := by
  -- a node of another list is allocated, and not one of this list
  have hother : ∀ ℓ', ℓ' ≠ ℓ → ∀ b ∈ addrs (seqs ℓ'), b ∉ addrs (seqs ℓ) ∧ s.nodes b ≠ none := by
    intro ℓ' hne b hb
    refine ⟨fun hmem => hs.disjoint ℓ' ℓ hne hb hmem, ?_⟩
    cases hlist : s.lists ℓ' with
    | none =>
      rw [hs.unused ℓ' hlist] at hb
      exact absurd hb List.not_mem_nil
    | some l => exact (hs.inMemory ℓ' l hlist).chain.alloc hb
  have hapart : ∀ ℓ', ℓ' ≠ ℓ → (addrs ys).Disjoint (addrs (seqs ℓ')) := by
    intro ℓ' hne b hb hb'
    obtain ⟨hout, halloc⟩ := hother ℓ' hne b hb'
    exact (hys b hb).elim hout halloc
  refine ⟨?_, ?_, ?_⟩
  · intro ℓ' l hlist
    by_cases hne : ℓ' = ℓ
    · subst hne
      obtain rfl : l' = l := by simpa [Store.put] using hlist
      rwa [Function.update_self]
    · rw [Function.update_of_ne hne]
      have hl := hs.inMemory ℓ' l (by simpa [Store.put, hne] using hlist)
      refine ⟨hl.chain.congr fun b hb => ?_, hl.count⟩
      obtain ⟨hout, halloc⟩ := hother ℓ' hne b hb
      exact hframe b hout halloc
  · intro ℓ' hlist
    by_cases hne : ℓ' = ℓ
    · subst hne
      simp [Store.put] at hlist
    · rw [Function.update_of_ne hne]
      exact hs.unused ℓ' (by simpa [Store.put, hne] using hlist)
  · intro ℓ₁ ℓ₂ hne
    by_cases h1 : ℓ₁ = ℓ
    · subst h1
      rw [Function.update_self, Function.update_of_ne hne.symm]
      exact hapart ℓ₂ hne.symm
    · rw [Function.update_of_ne h1]
      by_cases h2 : ℓ₂ = ℓ
      · subst h2
        rw [Function.update_self]
        exact (hapart ℓ₁ h1).symm
      · rw [Function.update_of_ne h2]
        exact hs.disjoint ℓ₁ ℓ₂ hne

/-- **One call**: it ends, does to its list what its name says, and leaves the
others as they are. -/
theorem Represents.runs (hs : Represents s seqs) (husable : Usable s ℓ op) (hroom : ¬ Overfills s ℓ op) :
    ∃ r s' ys, Runs s ℓ op r s' ∧ Does op (seqs ℓ) r ys ∧ Represents s' (Function.update seqs ℓ ys) := by
  cases hlist : s.lists ℓ with
  | none =>
    obtain rfl := husable.1 hlist
    refine ⟨.nothing, s.put ℓ s.nodes .init, [], ⟨0, fun fuel _ => ?_⟩, ⟨rfl, rfl⟩, ?_⟩
    · simp only [Store.exec, hlist]
    · exact hs.put inMemory_init (by simp) fun _ _ _ => rfl
  | some l =>
    have hl := hs.inMemory ℓ l hlist
    obtain ⟨r, h', l', ys, ⟨turns, hrun⟩, hdoes, hl', hys, hframe⟩ := Op.on_spec hl husable.2 fun hblock hmax =>
      hroom ⟨hblock, l, hlist, hmax⟩
    refine ⟨r, s.put ℓ h' l', ys, ⟨turns, fun fuel hfuel => ?_⟩, hdoes, hs.put hl' hys hframe⟩
    simp only [Store.exec, hlist, hrun fuel hfuel, ok_bind]

/-- **The lists are sequences.** In every run that adds to no list of `INT_MAX`
elements, each list is a chain that ends and passes no node twice, its counter is
its length, and every call ends and does to the sequence what its name says. -/
theorem lists_refine (h0 : ∀ ℓ, s₀.lists ℓ = none) (h : Reached (fun s ℓ op => ¬ Overfills s ℓ op) s₀ s) :
    ∃ seqs, Represents s seqs ∧
      (∀ ℓ l, s.lists ℓ = some l → (addrs (seqs ℓ)).Nodup ∧ (l.isEmpty = true ↔ seqs ℓ = [])) ∧
        ∀ ℓ op, Usable s ℓ op → ¬ Overfills s ℓ op → ∃ r s' ys, Runs s ℓ op r s' ∧ Does op (seqs ℓ) r ys ∧
          Represents s' (Function.update seqs ℓ ys) := by
  have hinv : ∃ seqs, Represents s seqs := by
    induction h with
    | start =>
      refine ⟨fun _ => [], ?_, fun _ _ => rfl, fun _ _ _ => List.disjoint_nil_left _⟩
      intro ℓ l hl
      rw [h0 ℓ] at hl
      cases hl
    | step _ husable hroom hruns ih =>
      obtain ⟨seqs, hs⟩ := ih
      obtain ⟨r, s', ys, hruns', -, hs'⟩ := hs.runs husable hroom
      obtain ⟨rfl, rfl⟩ := Prod.mk.inj (hruns.unique hruns')
      exact ⟨_, hs'⟩
  obtain ⟨seqs, hs⟩ := hinv
  refine ⟨seqs, hs, ?_, fun ℓ op => hs.runs⟩
  intro ℓ l hl
  exact ⟨(hs.inMemory ℓ l hl).chain.nodup, (hs.inMemory ℓ l hl).isEmpty_iff⟩

/-- Memory without lists. -/
def noLists : Store ℕ := ⟨fun _ => none, fun _ => none⟩

/-- A list of 10, 20 and 30. -/
def threeElems : Store ℕ where
  nodes := Function.update (Function.update (Function.update (fun _ => none) 7 (some ⟨none, 30⟩)) 8 (some ⟨some 7, 20⟩)) 9
    (some ⟨some 8, 10⟩)
  lists := Function.update (Function.update (Function.update (Function.update (fun _ => none) 0 (some .init)) 0
    (some ⟨1, some 7⟩)) 0 (some ⟨2, some 8⟩)) 0 (some ⟨3, some 9⟩)

theorem runs_addTop {s : Store ℕ} {l : StructList} {new x : ℕ} (hlist : s.lists 0 = some l) :
    Runs s 0 (.addTop new x) .nothing (s.put 0 (listAddTopAt s.nodes l new x).1 (listAddTopAt s.nodes l new x).2) := by
  refine ⟨0, fun fuel _ => ?_⟩
  simp only [Store.exec, hlist, Op.on, ok_bind]

/-- An element is added on top of a list that has room. -/
theorem Reached.addTop {l : StructList} {new x : ℕ} {s₀ s : Store ℕ}
    (h : Reached (fun s ℓ op => ¬ Overfills s ℓ op) s₀ s) (hlist : s.lists 0 = some l) (hnew : s.nodes new = none)
    (hroom : l.n ≠ Int32.maxValue) : Reached (fun s ℓ op => ¬ Overfills s ℓ op) s₀
      (s.put 0 (listAddTopAt s.nodes l new x).1 (listAddTopAt s.nodes l new x).2) := by
  refine h.step ⟨?_, ?_⟩ ?_ (runs_addTop hlist)
  · simp [hlist]
  · intro b hb
    cases hb
    exact hnew
  · rintro ⟨-, l', hl', hmax⟩
    obtain rfl := Option.some.inj (hlist.symm.trans hl')
    exact hroom hmax

theorem reached_threeElems : Reached (fun s ℓ op => ¬ Overfills s ℓ op) noLists threeElems := by
  have hinit : Runs noLists 0 .init .nothing (noLists.put 0 noLists.nodes .init) := ⟨0, fun _ _ => rfl⟩
  have hempty : Reached (fun s ℓ op => ¬ Overfills s ℓ op) noLists (noLists.put 0 noLists.nodes .init) :=
    Reached.start.step usable_init (fun hfull => hfull.1 rfl) hinit
  have hone := @Reached.addTop .init 7 30 _ _ hempty rfl rfl (by decide)
  have htwo := @Reached.addTop ⟨1, some 7⟩ 8 20 _ _ hone rfl rfl (by decide)
  exact @Reached.addTop ⟨2, some 8⟩ 9 10 _ _ htwo rfl rfl (by decide)

/-- The element in the middle is removed. -/
def twoElems : Store ℕ :=
  threeElems.put 0 (freeNode (Function.update threeElems.nodes 9 (some ⟨some 7, 10⟩)) 8) ⟨2, some 9⟩

theorem lists_refine_two : ∃ seqs, Represents twoElems seqs ∧ ∀ ℓ op, Usable twoElems ℓ op → ¬ Overfills twoElems ℓ op →
    ∃ r s' ys, Runs twoElems ℓ op r s' ∧ Does op (seqs ℓ) r ys ∧ Represents s' (Function.update seqs ℓ ys) := by
  have hruns : Runs threeElems 0 (.remove fun x => x == 20) (.elem (some 20)) twoElems := by
    refine ⟨2, fun fuel hfuel => ?_⟩
    obtain ⟨k, rfl⟩ := Nat.exists_eq_add_of_le' hfuel
    rfl
  have husable : Usable threeElems 0 (.remove fun x => x == 20) := ⟨by simp [threeElems], by simp [Op.block]⟩
  obtain ⟨seqs, hs, -, hcalls⟩ :=
    lists_refine (fun _ => rfl) (reached_threeElems.step husable (fun hfull => hfull.1 rfl) hruns)
  exact ⟨seqs, hs, hcalls⟩

/-- `k` calls of `list_add_top`: the counter goes round, the chain does not. -/
theorem addTop_run (k : ℕ) : ∃ (s : Store ℕ) (l : StructList) (xs : List (ℕ × ℕ)),
    Reached (fun _ _ _ => True) ⟨fun _ => none, fun _ => none⟩ s ∧ s.lists 0 = some l ∧
      Seg s.nodes l.root xs none ∧ xs.length = k ∧ l.n = Int32.ofNat k ∧ ∀ a, k ≤ a → s.nodes a = none := by
  induction k with
  | zero =>
    let s₀ : Store ℕ := ⟨fun _ => none, fun _ => none⟩
    have hinit : Runs s₀ 0 .init .nothing (s₀.put 0 s₀.nodes .init) := ⟨0, fun _ _ => rfl⟩
    exact ⟨_, .init, [], Reached.start.step usable_init trivial hinit, by simp [Store.put], rfl, rfl, rfl, fun _ _ => rfl⟩
  | succ k ih =>
    obtain ⟨s, l, xs, hreached, hlist, hchain, hlen, hn, hfree⟩ := ih
    have hout : k ∉ addrs xs := fun hmem => hchain.alloc hmem (hfree k le_rfl)
    refine ⟨_, (listAddTopAt s.nodes l k 0).2, (k, 0) :: xs, hreached.step ⟨?_, ?_⟩ trivial (@runs_addTop s l k 0 hlist),
      ?_, ?_, ?_, ?_, ?_⟩
    · simp [hlist]
    · intro new hnew
      cases hnew
      exact hfree k le_rfl
    · simp [Store.put]
    · exact ⟨rfl, l.root, Function.update_self .., hchain.frame hout⟩
    · rw [List.length_cons, hlen]
    · rw [listAddTopAt, hn, Int32.ofNat_add]
      rfl
    · intro a ha
      have hne : a ≠ k := by omega
      exact (Function.update_of_ne hne ..).trans (hfree a (by omega))

/-- Without the condition the counter is wrong: after 2 ^ 31 calls of
`list_add_top` it is negative. -/
theorem list_counter_overflows : ∃ (s : Store ℕ) (l : StructList) (xs : List (ℕ × ℕ)),
    Reached (fun _ _ _ => True) ⟨fun _ => none, fun _ => none⟩ s ∧ s.lists 0 = some l ∧
      Seg s.nodes l.root xs none ∧ l.n.toInt ≠ xs.length := by
  obtain ⟨s, l, xs, hreached, hlist, hchain, hlen, hn, -⟩ := addTop_run (2 ^ 31)
  refine ⟨s, l, xs, hreached, hlist, hchain, ?_⟩
  rw [hlen, hn]
  have hlt := (Int32.ofNat (2 ^ 31)).toInt_lt
  omega

end Model

end Lists

end Retif
