/-
# Comparison functions

A comparison function as C has them: an integer, negative when the first
argument comes before the second, positive when it comes behind, 0 when they
are equal. `TotalPreorder` is what makes one usable for sorting; equal elements
need not be the same.

Key definitions: `TotalPreorder`, `Ordered`.
Key theorems: `TotalPreorder.of_key`, `Ordered.insert`, `Ordered.equal_next`.
-/
import Mathlib.Tactic

namespace Compare

variable {α : Type} {cmp : α → α → ℤ}

/-- The signs of the two directions are opposite, and not being behind is transitive. -/
structure TotalPreorder (cmp : α → α → ℤ) : Prop where
  swap : ∀ a b, 0 < cmp a b ↔ cmp b a < 0
  trans : ∀ a b c, cmp a b ≤ 0 → cmp b c ≤ 0 → cmp a c ≤ 0

/-- A key that is compared the way the function says. -/
theorem TotalPreorder.of_key {κ : Type} [LinearOrder κ] (key : α → κ) (hpos : ∀ a b, 0 < cmp a b ↔ key b < key a)
    (hneg : ∀ a b, cmp a b < 0 ↔ key a < key b) : TotalPreorder cmp := by
  have hle : ∀ a b, cmp a b ≤ 0 ↔ key a ≤ key b := by
    intro a b
    rw [← not_lt, hpos, not_lt]
  constructor
  · intro a b
    rw [hpos, hneg]
  · intro a b c hab hbc
    rw [hle] at hab hbc ⊢
    exact hab.trans hbc

/-- Going the other way is a preorder too. -/
theorem TotalPreorder.neg (hcmp : TotalPreorder cmp) : TotalPreorder fun a b => -1 * cmp a b := by
  have hle : ∀ a b, -1 * cmp a b ≤ 0 ↔ cmp b a ≤ 0 := by
    intro a b
    have hswap := hcmp.swap b a
    omega
  constructor
  · intro a b
    have hab := hcmp.swap a b
    have hba := hcmp.swap b a
    omega
  · intro a b c hab hbc
    rw [hle] at hab hbc ⊢
    exact hcmp.trans _ _ _ hbc hab

theorem TotalPreorder.le_of_not_lt (hcmp : TotalPreorder cmp) {a b : α} (h : ¬ cmp a b < 0) : cmp b a ≤ 0 := by
  have hswap := hcmp.swap b a
  omega

/-- Nothing in the sequence comes behind what follows it. -/
def Ordered (cmp : α → α → ℤ) (xs : List α) : Prop := xs.Pairwise fun a b => cmp a b ≤ 0

section Insert

variable {elem : α} {pre post : List α}

/-- An element goes behind those it exceeds, in front of the first that it does not. -/
theorem Ordered.insert (hcmp : TotalPreorder cmp) (hord : Ordered cmp (pre ++ post))
    (hpre : ∀ y ∈ pre, 0 < cmp elem y) (hhead : ∀ y ∈ post.head?, cmp elem y ≤ 0) :
    Ordered cmp (pre ++ elem :: post) := by
  obtain ⟨hordpre, hordpost, hbetween⟩ := List.pairwise_append.mp hord
  have hbehind : ∀ y ∈ post, cmp elem y ≤ 0 := by
    rcases post with _ | ⟨z, post⟩
    · simp
    · intro y hy
      have hz := hhead z rfl
      rcases List.mem_cons.mp hy with rfl | hy
      · exact hz
      · exact hcmp.trans _ _ _ hz ((List.pairwise_cons.mp hordpost).1 y hy)
  refine List.pairwise_append.mpr ⟨hordpre, List.pairwise_cons.mpr ⟨hbehind, hordpost⟩, ?_⟩
  intro x hx y hy
  rcases List.mem_cons.mp hy with rfl | hy
  · exact ((hcmp.swap _ _).mp (hpre x hx)).le
  · exact hbetween x hx y hy

/-- If anything equals the element, what it is put in front of does. -/
theorem Ordered.equal_next (hcmp : TotalPreorder cmp) (hord : Ordered cmp (pre ++ post))
    (hpre : ∀ y ∈ pre, 0 < cmp elem y) (hhead : ∀ y ∈ post.head?, cmp elem y ≤ 0)
    (hequal : ∃ y ∈ pre ++ post, cmp elem y = 0) : ∃ y, post.head? = some y ∧ cmp elem y = 0 := by
  obtain ⟨x, hx, heq⟩ := hequal
  have hmem : x ∈ post := by
    rcases List.mem_append.mp hx with hx | hx
    · have hpos := hpre x hx
      omega
    · exact hx
  rcases post with _ | ⟨y, post⟩
  · cases hmem
  refine ⟨y, rfl, le_antisymm (hhead y rfl) ?_⟩
  -- `x` is not behind the element, and `y` is not behind `x`
  rcases List.mem_cons.mp hmem with rfl | hmem
  · exact heq.ge
  · have hyx := (List.pairwise_cons.mp (List.pairwise_append.mp hord).2.1).1 x hmem
    by_contra hneg
    have hback : cmp x elem ≤ 0 := by
      have hswap := hcmp.swap x elem
      omega
    have hle := hcmp.trans _ _ _ hyx hback
    have hswap := hcmp.swap y elem
    omega

end Insert

end Compare
