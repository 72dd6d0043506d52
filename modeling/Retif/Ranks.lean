/-
# The priorities a walk hands out

`assign_priorities` walks a list and takes the next priority whenever the key
differs from the one it remembers, of which it keeps the low 32 bits. `changes`
counts how often that happens, from the keys alone. The rank of a task is the
number of changes up to it (`rankAt`), and the priority it gets is that of its
rank (`rankLoop_rankAt`).

On a sorted list whose neighbours the walk tells apart the changes are the
distinct keys (`changes_discerned`); of small keys this is what RR counts in
`dist_prio` (`changes_sorted`).

Key definitions: `changes`, `rankAt`, `Discerned`.
Key theorems: `rankLoop_rankAt`, `countLoop_rankAt`, `rankAt_succ`,
`changes_discerned`, `changes_sorted`, `addSeek_sorted`, `addSeek_next`.
-/
import Retif.Plugin
import Mathlib.Data.Finset.Card
import Mathlib.Data.Finset.Dedup

namespace Retif

open CList

/-- How often a walk over `keys` that remembers `prec` takes a new priority. -/
def changes (prec : UInt32) : List ℕ → ℕ
  | [] => 0
  | x :: xs => if prec.toNat = x then changes prec xs else changes (UInt32.ofNat x) xs + 1

/-! ### What a walk hands out -/

section Walk

variable {key : Task → ℕ} {next : UInt32 → UInt32 → UInt32}

/-- The keys of a list in a heap. -/
def keysOf (key : Task → ℕ) (heap : Heap) (as : List Addr) : List ℕ := as.map fun a => key (heap a)

theorem keysOf_getElem {heap : Heap} {as : List Addr} {i : ℕ} (hi : i < as.length)
    (hk : i < (keysOf key heap as).length) : (keysOf key heap as)[i] = key (heap as[i]) := List.getElem_map ..

theorem keysOf_length {heap : Heap} {as : List Addr} : (keysOf key heap as).length = as.length := List.length_map ..

theorem keysOf_congr {heap heap' : Heap} {as : List Addr} (h : ∀ a ∈ as, heap' a = heap a) :
    keysOf key heap' as = keysOf key heap as := by
  unfold keysOf
  refine List.map_congr_left ?_
  intro a ha
  rw [h a ha]

theorem keysOf_update (key : Task → ℕ) (heap : Heap) (t : Task) {a : Addr} {as : List Addr} (ha : a ∉ as) :
    keysOf key (Function.update heap a t) as = keysOf key heap as := by
  refine keysOf_congr ?_
  intro b hb
  have hne : b ≠ a := fun hba => ha (hba ▸ hb)
  rw [Function.update_of_ne hne]

theorem mapLoop_prio {prio : Task → UInt32} {as : List Addr} {heap : Heap} (hnd : as.Nodup) :
    ∀ a ∈ as, ((mapLoop prio as heap) a).schedprio = prio (heap a) := by
  induction as generalizing heap with
  | nil => simp
  | cons b as ih =>
    intro a ha
    obtain ⟨hb, hnd⟩ := List.nodup_cons.mp hnd
    unfold mapLoop
    rcases List.mem_cons.mp ha with rfl | ha
    · rw [mapLoop_frame prio as _ hb, Function.update_self]
    · have hne : a ≠ b := fun hab => hb (hab ▸ ha)
      rw [ih hnd a ha, Function.update_of_ne hne]

end Walk

/-! ### Where a task stands -/

/-- What the walk remembers behind `keys`: the low 32 bits of the last one. -/
def lastSeen (prec : UInt32) : List ℕ → UInt32
  | [] => prec
  | x :: xs => lastSeen (UInt32.ofNat x) xs

theorem lastSeen_concat (prec : UInt32) (xs : List ℕ) (x : ℕ) : lastSeen prec (xs ++ [x]) = UInt32.ofNat x := by
  induction xs generalizing prec with
  | nil => rfl
  | cons y xs ih => exact ih _

theorem changes_cons (prec : UInt32) (x : ℕ) (xs : List ℕ) :
    changes prec (x :: xs) = changes (UInt32.ofNat x) xs + if prec.toNat = x then 0 else 1 := by
  show (if prec.toNat = x then changes prec xs else changes (UInt32.ofNat x) xs + 1) = _
  by_cases h : prec.toNat = x
  · rw [if_pos h, if_pos h, ← h, UInt32.ofNat_toNat, Nat.add_zero]
  · rw [if_neg h, if_neg h]

/-- One more key is one more change unless it is the one remembered. -/
theorem changes_concat (prec : UInt32) (xs : List ℕ) (y : ℕ) :
    changes prec (xs ++ [y]) = changes prec xs + if (lastSeen prec xs).toNat = y then 0 else 1 := by
  induction xs generalizing prec with
  | nil =>
    rw [List.nil_append, changes_cons]
    rfl
  | cons x xs ih =>
    rw [List.cons_append, changes_cons, changes_cons, ih, lastSeen]
    exact Nat.add_right_comm ..

/-- The rank of the `i`-th task: the changes up to it. -/
def rankAt (prec : UInt32) (keys : List ℕ) (i : ℕ) : ℕ := changes prec (keys.take (i + 1))

theorem rankAt_zero {prec : UInt32} {keys : List ℕ} (h : 0 < keys.length) :
    rankAt prec keys 0 = if prec.toNat = keys[0] then 0 else 1 := by
  rcases keys with _ | ⟨x, xs⟩
  · exact absurd h (lt_irrefl 0)
  · simp [rankAt, changes_cons, changes]

theorem rankAt_cons_succ (prec : UInt32) (x : ℕ) (xs : List ℕ) (i : ℕ) :
    rankAt prec (x :: xs) (i + 1) = rankAt (UInt32.ofNat x) xs i + if prec.toNat = x then 0 else 1 := by
  unfold rankAt
  rw [List.take_succ_cons, changes_cons]

/-- From one task to the next the rank grows unless the key is what is remembered of the one before. -/
theorem rankAt_succ {prec : UInt32} {keys : List ℕ} {i : ℕ} (h : i + 1 < keys.length) :
    rankAt prec keys (i + 1) = rankAt prec keys i + if keys[i] % 2 ^ 32 = keys[i + 1] then 0 else 1 := by
  have hi : keys.take (i + 1) = keys.take i ++ [keys[i]] := List.take_succ_eq_append_getElem (by omega)
  unfold rankAt
  rw [List.take_succ_eq_append_getElem h, changes_concat, hi, lastSeen_concat, UInt32.toNat_ofNat']

theorem rankAt_last {prec : UInt32} {keys : List ℕ} {i : ℕ} (h : i + 1 = keys.length) :
    rankAt prec keys i = changes prec keys := by
  rw [rankAt, h, List.take_length]

theorem rankAt_mono {prec : UInt32} {keys : List ℕ} {i j : ℕ} (hij : i ≤ j) (hj : j < keys.length) :
    rankAt prec keys i ≤ rankAt prec keys j := by
  induction j with
  | zero =>
    obtain rfl := Nat.le_zero.mp hij
    exact le_rfl
  | succ j ih =>
    rcases Nat.lt_or_ge j i with hlt | hge
    · obtain rfl : i = j + 1 := by omega
      exact le_rfl
    · rw [rankAt_succ hj]
      exact (ih hge (by omega)).trans (Nat.le_add_right ..)

theorem rankAt_le {prec : UInt32} {keys : List ℕ} {i : ℕ} (hi : i < keys.length) :
    rankAt prec keys i ≤ changes prec keys := by
  rw [← @rankAt_last prec keys _ (Nat.succ_pred_eq_of_pos (Nat.zero_lt_of_lt hi))]
  exact rankAt_mono (Nat.le_pred_of_lt hi) (Nat.pred_lt (Nat.ne_zero_of_lt hi))

/-- Ranks start at 1 when the first key is not the one remembered. -/
theorem rankAt_pos {prec : UInt32} {keys : List ℕ} (hfirst : ∀ x ∈ keys.head?, prec.toNat ≠ x) {i : ℕ}
    (hi : i < keys.length) : 1 ≤ rankAt prec keys i := by
  have hpos : 0 < keys.length := by omega
  have hhead : keys[0] ∈ keys.head? := by
    rw [List.head?_eq_getElem?, List.getElem?_eq_getElem hpos]
    rfl
  have hzero : rankAt prec keys 0 = 1 := by rw [rankAt_zero hpos, if_neg (hfirst _ hhead)]
  rw [← hzero]
  exact rankAt_mono (Nat.zero_le i) hi

/-- The rank has grown where some key is not what is remembered of the one before. -/
theorem rankAt_lt {prec : UInt32} {keys : List ℕ} {i l j : ℕ} (hil : i ≤ l) (hlj : l < j) (hj : j < keys.length)
    (h : keys[l] % 2 ^ 32 ≠ keys[l + 1]) : rankAt prec keys i < rankAt prec keys j := by
  have hl : rankAt prec keys (l + 1) = rankAt prec keys l + 1 := by
    rw [rankAt_succ (by omega), if_neg h]
  have h1 : rankAt prec keys i ≤ rankAt prec keys l := rankAt_mono hil (by omega)
  have h2 : rankAt prec keys (l + 1) ≤ rankAt prec keys j := rankAt_mono hlj hj
  omega

/-- Between two different keys there are two different neighbours. -/
theorem exists_step {keys : List ℕ} {i j : ℕ} (hij : i ≤ j) (hj : j < keys.length) (hne : keys[i] ≠ keys[j]) :
    ∃ l, ∃ hl : l + 1 < keys.length, i ≤ l ∧ l < j ∧ keys[l] ≠ keys[l + 1] := by
  induction j with
  | zero =>
    obtain rfl := Nat.le_zero.mp hij
    exact absurd rfl hne
  | succ j ih =>
    rcases Nat.eq_or_lt_of_le hij with rfl | hij
    · exact absurd rfl hne
    · have hij := Nat.le_of_lt_succ hij
      by_cases heq : keys[j] = keys[j + 1]
      · obtain ⟨l, hl, h1, h2, h3⟩ := ih hij (by omega) (by rw [heq]; exact hne)
        exact ⟨l, hl, h1, by omega, h3⟩
      · exact ⟨j, hj, hij, Nat.lt_succ_self j, heq⟩

/-- The walk tells neighbours apart: what it remembers of a key is the next one exactly when they are the same. -/
def Discerned (keys : List ℕ) : Prop := keys.IsChain fun x y => x % 2 ^ 32 = y ↔ x = y

theorem discerned_small {keys : List ℕ} (h : ∀ x ∈ keys, x < 2 ^ 32) : Discerned keys := by
  rw [Discerned, List.isChain_iff_getElem]
  intro i hi
  rw [Nat.mod_eq_of_lt (h _ (List.getElem_mem _))]

section Sorted

variable {r : ℕ → ℕ → Prop} {prec : UInt32} {keys : List ℕ} {i l j : ℕ}

/-- On a sorted list all keys between two equal ones are the same. -/
theorem eq_between (hanti : ∀ x y, r x y → r y x → x = y) (hs : keys.Pairwise r) (hil : i ≤ l) (hlj : l ≤ j)
    (hj : j < keys.length) (h : keys[i] = keys[j]) : keys[l] = keys[i] := by
  rw [List.pairwise_iff_getElem] at hs
  rcases Nat.eq_or_lt_of_le hil with rfl | hil
  · rfl
  · rcases Nat.eq_or_lt_of_le hlj with rfl | hlj
    · exact h.symm
    · refine (hanti _ _ (hs i l (by omega) (by omega) hil) ?_).symm
      rw [h]
      exact hs l j (by omega) hj hlj

/-- What the neighbours between two equal keys have in common, the two have. -/
theorem const_between {α : Type} {f : ℕ → α} (hanti : ∀ x y, r x y → r y x → x = y) (hs : keys.Pairwise r)
    (hij : i ≤ j) (hj : j < keys.length) (h : keys[i] = keys[j])
    (hf : ∀ l (hl : l + 1 < keys.length), keys[l] = keys[l + 1] → f l = f (l + 1)) : f i = f j := by
  induction j with
  | zero =>
    obtain rfl := Nat.le_zero.mp hij
    rfl
  | succ j ih =>
    rcases Nat.eq_or_lt_of_le hij with rfl | hij
    · rfl
    · have hij := Nat.le_of_lt_succ hij
      have hmid : keys[j] = keys[i] := eq_between hanti hs hij (Nat.le_succ j) hj h
      exact (ih hij (by omega) hmid.symm hf).trans (hf j hj (hmid.trans h))

/-- Equal keys stand at one rank. -/
theorem rankAt_eq (hanti : ∀ x y, r x y → r y x → x = y) (hs : keys.Pairwise r) (hd : Discerned keys) (hij : i ≤ j)
    (hj : j < keys.length) (h : keys[i] = keys[j]) : rankAt prec keys i = rankAt prec keys j := by
  refine const_between hanti hs hij hj h ?_
  intro l hl heq
  rw [rankAt_succ hl, if_pos ((List.isChain_iff_getElem.mp hd l hl).mpr heq), Nat.add_zero]

/-- Different keys stand at different ranks. -/
theorem rankAt_ne (hd : Discerned keys) (hij : i ≤ j) (hj : j < keys.length) (h : keys[i] ≠ keys[j]) :
    rankAt prec keys i < rankAt prec keys j := by
  obtain ⟨l, hl, h1, h2, h3⟩ := exists_step hij hj h
  exact rankAt_lt h1 h2 hj fun he => h3 ((List.isChain_iff_getElem.mp hd l hl).mp he)

end Sorted

/-- On a list sorted by non-decreasing keys that are small, the ranks follow the keys. -/
theorem rankAt_sorted {prec : UInt32} {keys : List ℕ} {i j : ℕ} (hs : keys.Pairwise (· ≤ ·))
    (hlt : ∀ x ∈ keys, x < 2 ^ 32) (hi : i < keys.length) (hj : j < keys.length) (hle : keys[i] ≤ keys[j]) :
    rankAt prec keys i ≤ rankAt prec keys j := by
  rcases Nat.lt_or_ge j i with hji | hij
  · have heq : keys[j] = keys[i] := le_antisymm (List.pairwise_iff_getElem.mp hs j i hj hi hji) hle
    exact (rankAt_eq (fun _ _ => le_antisymm) hs (discerned_small hlt) hji.le hi heq).ge
  · exact rankAt_mono hij hj

/-- Every rank up to the last is some task's. -/
theorem rankAt_attained {prec : UInt32} {keys : List ℕ} {k : ℕ} (h1 : 1 ≤ k) (h2 : k ≤ changes prec keys) :
    ∃ i, i < keys.length ∧ rankAt prec keys i = k := by
  induction keys generalizing prec k with
  | nil =>
    simp only [changes] at h2
    omega
  | cons x xs ih =>
    rw [changes_cons] at h2
    by_cases hx : prec.toNat = x
    · rw [if_pos hx, Nat.add_zero] at h2
      obtain ⟨i, hi, hr⟩ := ih h1 h2
      refine ⟨i + 1, Nat.succ_lt_succ hi, ?_⟩
      rw [rankAt_cons_succ, if_pos hx, hr, Nat.add_zero]
    · rw [if_neg hx] at h2
      rcases Nat.lt_or_ge 1 k with hlt | hge
      · obtain ⟨i, hi, hr⟩ := @ih (UInt32.ofNat x) (k - 1) (by omega) (by omega)
        refine ⟨i + 1, Nat.succ_lt_succ hi, ?_⟩
        rw [rankAt_cons_succ, if_neg hx, hr]
        omega
      · refine ⟨0, Nat.succ_pos _, ?_⟩
        rw [rankAt_zero (List.length_pos_of_ne_nil (List.cons_ne_nil _ _)), List.getElem_cons_zero, if_neg hx]
        omega

/-- **A walk gives every task the priority of its rank**, when each priority is the next of the one before. -/
theorem rankLoop_rankAt {key : Task → ℕ} {next : UInt32 → UInt32 → UInt32} {R : ℕ → UInt32} {as : List Addr}
    {heap : Heap} {prec : UInt32} {k : ℕ} (hnd : as.Nodup) (hR : ∀ j, R (j + 1) = next (UInt32.ofNat j) (R j))
    {i : ℕ} (hi : i < as.length) :
    (rankLoop key next as heap (R k) prec (UInt32.ofNat k) as[i]).schedprio =
      R (k + rankAt prec (keysOf key heap as) i) := by
  induction as generalizing heap prec k i with
  | nil => exact absurd hi (Nat.not_lt_zero i)
  | cons b as ih =>
    obtain ⟨hb, hnd⟩ := List.nodup_cons.mp hnd
    have hkeys : keysOf key heap (b :: as) = key (heap b) :: keysOf key heap as := rfl
    rw [hkeys]
    unfold rankLoop
    cases i with
    | zero =>
      rw [List.getElem_cons_zero, rankAt_zero (List.length_pos_of_ne_nil (List.cons_ne_nil _ _)), List.getElem_cons_zero]
      split
      · rw [rankLoop_frame key next as _ _ _ _ hb, Function.update_self]
        rfl
      · rw [rankLoop_frame key next as _ _ _ _ hb, Function.update_self]
        exact (hR k).symm
    | succ i =>
      have hi' : i < as.length := Nat.lt_of_succ_lt_succ hi
      rw [List.getElem_cons_succ, rankAt_cons_succ]
      by_cases hkey : prec.toNat = key (heap b)
      · rw [if_pos hkey, if_pos hkey, Nat.add_zero, ← hkey, UInt32.ofNat_toNat]
        have hk := keysOf_update key heap { heap b with schedprio := R k } hb
        rw [← hk]
        exact ih hnd hi'
      · rw [if_neg hkey, if_neg hkey]
        have hk := keysOf_update key heap { heap b with schedprio := next (UInt32.ofNat k) (R k) } hb
        have hidx : UInt32.ofNat k + 1 = UInt32.ofNat (k + 1) := by
          rw [UInt32.ofNat_add]
          rfl
        rw [← hk, hidx, ← hR k]
        refine (ih hnd hi').trans ?_
        congr 1
        omega

/-- `j` priorities above `start`, one at a time. -/
def countUp (start : UInt32) : ℕ → UInt32
  | 0 => start
  | j + 1 => countUp start j + 1

theorem countUp_toNat {start : UInt32} {j : ℕ} (h : start.toNat + j < 2 ^ 32) :
    (countUp start j).toNat = start.toNat + j := by
  induction j with
  | zero => rfl
  | succ j ih =>
    have hone : (1 : UInt32).toNat = 1 := rfl
    rw [countUp, UInt32.toNat_add, ih (by omega), hone]
    omega

/-- Counting up from `start`, the task of rank `j` gets `start + j`. -/
theorem countLoop_rankAt {key : Task → ℕ} {as : List Addr} {heap : Heap} {start prec : UInt32} (hnd : as.Nodup)
    {i : ℕ} (hi : i < as.length) :
    (rankLoop key (fun _ curr => curr + 1) as heap start prec 0 as[i]).schedprio =
      countUp start (rankAt prec (keysOf key heap as) i) := by
  have h := @rankLoop_rankAt key (fun _ curr => curr + 1) (countUp start) as heap prec 0 hnd (fun _ => rfl) i hi
  rwa [Nat.zero_add] at h

/-! ### Sorted keys -/

theorem card_insert_eq (s : Finset ℕ) (x : ℕ) : (insert x s).card = (s.erase x).card + 1 := by
  rw [← Finset.erase_insert_eq_erase s x, Finset.card_erase_add_one (Finset.mem_insert_self x s)]

/-- Behind a key, the changes of a sorted list are its other keys. -/
theorem changes_behind {r : ℕ → ℕ → Prop} {xs : List ℕ} {x : ℕ} (hanti : ∀ x y, r x y → r y x → x = y)
    (hs : (x :: xs).Pairwise r) (hd : Discerned (x :: xs)) :
    changes (UInt32.ofNat x) xs = (xs.toFinset.erase x).card := by
  induction xs generalizing x with
  | nil => simp [changes]
  | cons y xs ih =>
    obtain ⟨hx, hs'⟩ := List.pairwise_cons.mp hs
    obtain ⟨hxy, hd'⟩ := List.isChain_cons_cons.mp hd
    have hseen : (UInt32.ofNat x).toNat = y ↔ x = y := by
      rw [UInt32.toNat_ofNat']
      exact hxy
    rw [changes_cons, ih hs' hd']
    by_cases he : x = y
    · subst he
      rw [if_pos (hseen.mpr rfl), List.toFinset_cons, Finset.erase_insert_eq_erase, Nat.add_zero]
    · rw [if_neg fun h => he (hseen.mp h)]
      -- `x` does not come back behind `y`
      have hy := (List.pairwise_cons.mp hs').1
      have hnot : x ∉ (y :: xs).toFinset := by
        rw [List.mem_toFinset]
        intro hm
        rcases List.mem_cons.mp hm with h | hm
        · exact he h
        · exact he (hanti x y (hx y (List.mem_cons_self ..)) (hy x hm))
      rw [Finset.erase_eq_of_notMem hnot, List.toFinset_cons, card_insert_eq]

/-- The changes of a sorted list whose neighbours are told apart are its distinct keys. -/
theorem changes_discerned {r : ℕ → ℕ → Prop} {xs : List ℕ} {prec : UInt32} (hanti : ∀ x y, r x y → r y x → x = y)
    (hs : xs.Pairwise r) (hfirst : ∀ x ∈ xs.head?, prec.toNat ≠ x) (hd : Discerned xs) :
    changes prec xs = xs.toFinset.card := by
  rcases xs with _ | ⟨x, xs⟩
  · rfl
  · rw [changes_cons, if_neg (hfirst x rfl), changes_behind hanti hs hd, List.toFinset_cons, card_insert_eq]

/-- The changes of a sorted list of small keys are its distinct keys. -/
theorem changes_sorted {xs : List ℕ} {prec : UInt32} (hs : xs.Pairwise (· ≤ ·)) (hlt : ∀ y ∈ xs, y < prec.toNat) :
    changes prec xs = xs.toFinset.card := by
  have hprec := prec.toNat_lt
  refine changes_discerned (fun _ _ => le_antisymm) hs ?_ (discerned_small fun y hy => (hlt y hy).trans hprec)
  intro x hx
  exact (hlt x (List.mem_of_mem_head? hx)).ne'

/-- Inserting where the scan stops keeps a list sorted, when the comparison is that of a key. -/
theorem addSeek_sorted {key : Addr → ℕ} {cmpfun : Addr → Addr → ℤ} (a : Addr) {xs : List Addr}
    (hcmp : ∀ x, 0 < cmpfun a x ↔ key x < key a) (hs : xs.Pairwise fun x y => key x ≤ key y) :
    (addSeek a cmpfun xs).1.Pairwise fun x y => key x ≤ key y := by
  obtain ⟨pre, h1, h2, h3, h4⟩ := addSeek_spec a cmpfun xs
  rw [h1] at hs
  obtain ⟨hpre, hrest, hcross⟩ := List.pairwise_append.mp hs
  have hbehind : ∀ y ∈ (addSeek a cmpfun xs).2, key a ≤ key y := by
    intro y hy
    rcases hr : (addSeek a cmpfun xs).2 with _ | ⟨z, zs⟩
    · rw [hr] at hy
      cases hy
    · rw [hr] at hy hrest h4
      have hz : key a ≤ key z := by
        have := h4 z (by simp)
        have hn : ¬ 0 < cmpfun a z := by omega
        rw [hcmp] at hn
        omega
      rcases List.mem_cons.mp hy with rfl | hy
      · exact hz
      · exact hz.trans ((List.pairwise_cons.mp hrest).1 y hy)
  rw [h2]
  refine List.pairwise_append.mpr ⟨hpre, List.pairwise_cons.mpr ⟨hbehind, hrest⟩, ?_⟩
  intro x hx y hy
  have hxa : key x < key a := (hcmp x).mp (h3 x hx)
  rcases List.mem_cons.mp hy with rfl | hy
  · omega
  · exact hcross x hx y hy

/-- A key is on a sorted list exactly when the node behind a new one with that key has it. -/
theorem addSeek_next {key : Addr → ℕ} {cmpfun : Addr → Addr → ℤ} (a : Addr) {xs : List Addr}
    (hcmp : ∀ x, 0 < cmpfun a x ↔ key x < key a) (hs : xs.Pairwise fun x y => key x ≤ key y) :
    (∃ x ∈ xs, key x = key a) ↔ ∃ y rest, (addSeek a cmpfun xs).2 = y :: rest ∧ key y = key a := by
  obtain ⟨pre, h1, -, h3, h4⟩ := addSeek_spec a cmpfun xs
  constructor
  · rintro ⟨x, hx, hxa⟩
    rw [h1] at hx hs
    rcases List.mem_append.mp hx with hx | hx
    · have := (hcmp x).mp (h3 x hx)
      omega
    · obtain ⟨-, hrest, -⟩ := List.pairwise_append.mp hs
      rcases hr : (addSeek a cmpfun xs).2 with _ | ⟨y, rest⟩
      · rw [hr] at hx
        cases hx
      · rw [hr] at hx hrest h4
        refine ⟨y, rest, rfl, ?_⟩
        -- the scan stopped at `y`, and `y` comes before `x`
        have hya : ¬ key y < key a := by
          rw [← hcmp y]
          have := h4 y (by simp)
          omega
        rcases List.mem_cons.mp hx with rfl | hx
        · exact hxa
        · have := (List.pairwise_cons.mp hrest).1 x hx
          omega
  · rintro ⟨y, rest, hr, hya⟩
    refine ⟨y, ?_, hya⟩
    rw [h1, hr]
    simp

end Retif
