/-
# Chains of cells in memory

Cells at addresses, each with a value and the address of the next cell or none.
`Seg h p xs q` says that the links from `p` lead along the cells `xs` to `q`; a
chain is a segment that leads to none. A chain is determined by where it starts
and passes no address twice, and writing elsewhere leaves it as it is.

Key definitions: `Cell`, `Cells`, `Seg`, `addrs`.
Key theorems: `seg_append`, `Seg.frame`, `Seg.unique`, `Seg.nodup`, `Seg.insert`,
`Seg.remove`.
-/
import Mathlib.Tactic

namespace Chains

/-- A cell: its value, and where the next one is. -/
structure Cell (α : Type) where
  next : Option ℕ
  elem : α

/-- Memory: the cells that are allocated, by address. -/
abbrev Cells (α : Type) := ℕ → Option (Cell α)

variable {α : Type} {h h' : Cells α} {p q q' : Option ℕ} {xs ys : List (ℕ × α)} {a : ℕ} {x : α}

/-- Following the links from `p` along the cells `xs` leads to `q`. -/
def Seg (h : Cells α) : Option ℕ → List (ℕ × α) → Option ℕ → Prop
  | p, [], q => p = q
  | p, (a, x) :: xs, q => p = some a ∧ ∃ next, h a = some ⟨next, x⟩ ∧ Seg h next xs q

/-- The addresses of the cells. -/
abbrev addrs (xs : List (ℕ × α)) : List ℕ := xs.map Prod.fst

@[simp] theorem seg_nil : Seg h p [] q ↔ p = q := Iff.rfl

@[simp] theorem seg_cons : Seg h p ((a, x) :: xs) q ↔ p = some a ∧ ∃ next, h a = some ⟨next, x⟩ ∧ Seg h next xs q := Iff.rfl

theorem seg_append : Seg h p (xs ++ ys) q ↔ ∃ mid, Seg h p xs mid ∧ Seg h mid ys q := by
  induction xs generalizing p with
  | nil => simp
  | cons cell xs ih =>
    obtain ⟨a, x⟩ := cell
    simp only [List.cons_append, seg_cons, ih]
    constructor
    · rintro ⟨hp, next, hcell, mid, hxs, hys⟩
      exact ⟨mid, ⟨hp, next, hcell, hxs⟩, hys⟩
    · rintro ⟨mid, ⟨hp, next, hcell, hxs⟩, hys⟩
      exact ⟨hp, next, hcell, mid, hxs, hys⟩

/-- Memory that is the same at the cells holds the same segment. -/
theorem Seg.congr (hsame : ∀ a ∈ addrs xs, h' a = h a) (hseg : Seg h p xs q) : Seg h' p xs q := by
  induction xs generalizing p with
  | nil => exact hseg
  | cons cell xs ih =>
    obtain ⟨a, x⟩ := cell
    obtain ⟨hp, next, hcell, hrest⟩ := hseg
    refine ⟨hp, next, ?_, ih (fun b hb => hsame b (List.mem_cons_of_mem _ hb)) hrest⟩
    rw [hsame a (List.mem_cons_self ..), hcell]

/-- Writing elsewhere leaves a segment as it is. -/
theorem Seg.frame {c : Option (Cell α)} (ha : a ∉ addrs xs) (hseg : Seg h p xs q) : Seg (Function.update h a c) p xs q := by
  apply hseg.congr
  intro b hb
  apply Function.update_of_ne
  rintro rfl
  exact ha hb

/-- The cells of a segment are allocated. -/
theorem Seg.alloc (hseg : Seg h p xs q) (ha : a ∈ addrs xs) : h a ≠ none := by
  induction xs generalizing p with
  | nil => exact absurd ha List.not_mem_nil
  | cons cell xs ih =>
    obtain ⟨b, x⟩ := cell
    obtain ⟨-, next, hcell, hrest⟩ := hseg
    rcases List.mem_cons.mp ha with rfl | ha
    · rw [hcell]
      exact Option.some_ne_none _
    · exact ih hrest ha

/-- A chain is determined by where it starts. -/
theorem Seg.unique (hxs : Seg h p xs none) (hys : Seg h p ys none) : xs = ys := by
  induction xs generalizing p ys with
  | nil =>
    obtain rfl : p = none := hxs
    rcases ys with _ | ⟨⟨a, x⟩, ys⟩
    · rfl
    · cases hys.1
  | cons cell xs ih =>
    obtain ⟨a, x⟩ := cell
    obtain ⟨rfl, next, hcell, hrest⟩ := hxs
    rcases ys with _ | ⟨⟨b, y⟩, ys⟩
    · cases hys
    · obtain ⟨hb, next', hcell', hrest'⟩ := hys
      obtain rfl := Option.some.inj hb
      cases hcell.symm.trans hcell'
      rw [ih hrest hrest']

/-- A chain passes no address twice: it would go on as it did before. -/
theorem Seg.nodup (hseg : Seg h p xs none) : (addrs xs).Nodup := by
  induction xs generalizing p with
  | nil => exact List.nodup_nil
  | cons cell xs ih =>
    obtain ⟨a, x⟩ := cell
    obtain ⟨rfl, next, hcell, hrest⟩ := id hseg
    refine List.nodup_cons.mpr ⟨?_, ih hrest⟩
    intro ha
    obtain ⟨⟨a', y⟩, hmem, rfl⟩ := List.mem_map.mp ha
    obtain ⟨before, after, rfl⟩ := List.append_of_mem hmem
    obtain ⟨mid, -, hagain⟩ := seg_append.mp hrest
    obtain ⟨hmid, -⟩ := id hagain
    rw [hmid] at hagain
    have hsame := congrArg List.length (hseg.unique hagain)
    simp at hsame
    omega

/-- Where the last cell leads to can be changed. -/
theorem Seg.relink (ha : a ∉ addrs xs) (hseg : Seg h p (xs ++ [(a, x)]) q) :
    Seg (Function.update h a (some ⟨q', x⟩)) p (xs ++ [(a, x)]) q' := by
  obtain ⟨mid, hxs, rfl, -⟩ := seg_append.mp hseg
  refine seg_append.mpr ⟨some a, hxs.frame ha, rfl, q', ?_, rfl⟩
  exact Function.update_self ..

/-- A segment goes on where its last cell leads to now. -/
theorem Seg.splice {r : Option ℕ} (hinit : a ∉ addrs xs) (hrest : a ∉ addrs ys) (hseg : Seg h p (xs ++ [(a, x)]) q)
    (hys : Seg h q' ys r) : Seg (Function.update h a (some ⟨q', x⟩)) p (xs ++ (a, x) :: ys) r := by
  have hsplit : xs ++ (a, x) :: ys = xs ++ [(a, x)] ++ ys := by simp
  rw [hsplit]
  exact seg_append.mpr ⟨q', hseg.relink hinit, hys.frame hrest⟩

section Surgery

variable {b new : ℕ} {y elem : α} {init rest : List (ℕ × α)} {r : Option ℕ}

/-- A cell is put in behind `b`, and `b` made to lead to it. -/
theorem Seg.insert (hnodup : (addrs (init ++ (b, y) :: (new, elem) :: rest)).Nodup)
    (hseg : Seg h p (init ++ [(b, y)]) q) (hrest : Seg h q rest r) :
    Seg (Function.update (Function.update h b (some ⟨some new, y⟩)) new (some ⟨q, elem⟩)) p
      (init ++ (b, y) :: (new, elem) :: rest) r := by
  simp only [addrs, List.map_append, List.map_cons, List.nodup_append, List.nodup_cons, List.mem_cons] at hnodup
  obtain ⟨-, ⟨hb, hnew, -⟩, hdisj⟩ := hnodup
  have hne : b ≠ new := fun heq => hb (.inl heq)
  have hinit : ∀ c, c = b ∨ c = new → c ∉ addrs init := fun c hc hmem =>
    hdisj c hmem c (hc.imp_right fun hc => .inl hc) rfl
  have houtb : b ∉ addrs ((new, elem) :: rest) := by simpa using hb
  have houtn : new ∉ addrs (init ++ [(b, y)]) := by
    simpa [hne.symm] using hinit new (.inr rfl)
  rw [Function.update_comm hne]
  refine Seg.splice (hinit b (.inl rfl)) houtb (hseg.frame houtn) ⟨rfl, q, ?_, hrest.frame hnew⟩
  exact Function.update_self ..

/-- The cell behind `b` is taken out, and its block given back. -/
theorem Seg.remove {z : α} {n : ℕ} {next : Option ℕ} (hnodup : (addrs (init ++ (b, y) :: (n, z) :: rest)).Nodup)
    (hseg : Seg h p (init ++ [(b, y)]) q) (hrest : Seg h next rest r) :
    Seg (Function.update (Function.update h b (some ⟨next, y⟩)) n none) p (init ++ (b, y) :: rest) r := by
  simp only [addrs, List.map_append, List.map_cons, List.nodup_append, List.nodup_cons, List.mem_cons] at hnodup
  obtain ⟨-, ⟨hb, hn, -⟩, hdisj⟩ := hnodup
  have hne : b ≠ n := fun heq => hb (.inl heq)
  have hinit : ∀ c, c = b ∨ c = n → c ∉ addrs init := fun c hc hmem =>
    hdisj c hmem c (hc.imp_right fun hc => .inl hc) rfl
  have houtn : n ∉ addrs (init ++ (b, y) :: rest) := by
    simp only [addrs, List.map_append, List.map_cons, List.mem_append, List.mem_cons, not_or]
    exact ⟨hinit n (.inr rfl), hne.symm, hn⟩
  exact (hseg.splice (hinit b (.inl rfl)) (fun hmem => hb (.inr hmem)) hrest).frame houtn

end Surgery

end Chains
