/-
# Paths

A path is cut at its slashes; its components are what is not empty between them,
so it makes no difference how many slashes stand in a row. A path with a
component is `a`, slashes, a name, slashes, where `a` does not end in one
(`parts`), and `dirname` cuts it behind `a`: it writes a NUL there and returns
its argument, except for a path with no slash in front of the name, where it
returns a string of its own and leaves the argument as it was. That is how glibc
does it, on the bytes.

Key definitions: `components`, `strrchr`, `runStart`, `dirnameCut`, `dirname`, `dirnameText`.
Key theorems: `components_append`, `parts`, `components_name`, `dirname_cases`, `dirname_holds`.
-/
import Retif.Lib.Strings
import Mathlib.Data.List.DropRight

namespace Paths

open Blocks

/-- `/`. -/
abbrev slash : UInt8 := 47

/-- What stands between the slashes. -/
def components (p : List UInt8) : List (List UInt8) := (p.splitOn slash).filter (· ≠ [])

section Components

variable {a b name : List UInt8} {n : ℕ}

@[simp] theorem components_nil : components [] = [] := rfl

theorem components_append (a b : List UInt8) : components (a ++ slash :: b) = components a ++ components b := by
  unfold components
  rw [List.splitOn_append_cons_self, List.filter_append]

theorem components_single (hne : name ≠ []) (hfree : slash ∉ name) : components name = [name] := by
  unfold components
  rw [List.splitOn_eq_singleton hfree]
  simp [hne]

theorem components_append_slashes (a b : List UInt8) :
    components (a ++ List.replicate (n + 1) slash ++ b) = components a ++ components b := by
  induction n generalizing a with
  | zero => simpa using components_append a b
  | succ n ih =>
    have hmove : a ++ List.replicate (n + 1 + 1) slash ++ b = (a ++ [slash]) ++ List.replicate (n + 1) slash ++ b := by
      simp [List.replicate_succ]
    rw [hmove, ih, components_append, components_nil, List.append_nil]

theorem components_slashes (n : ℕ) : components (List.replicate n slash) = [] := by
  cases n with
  | zero => rfl
  | succ n => simpa using @components_append_slashes n [] []

theorem components_trailing (a : List UInt8) (n : ℕ) : components (a ++ List.replicate n slash) = components a := by
  cases n with
  | zero => simp
  | succ n => simpa using @components_append_slashes n a []

/-- A name behind slashes is the last component. -/
theorem components_name (a : List UInt8) (m : ℕ) (hne : name ≠ []) (hfree : slash ∉ name) (n : ℕ) :
    components (a ++ List.replicate (m + 1) slash ++ name ++ List.replicate n slash) = components a ++ [name] := by
  rw [components_trailing, components_append_slashes, components_single hne hfree]

end Components

/-! ### The parts of a path -/

/-- A path does not end in a slash. -/
def EndsOff (a : List UInt8) : Prop := a.getLast? ≠ some slash

/-- The slashes a path ends in are taken off. -/
theorem trailing (s : List UInt8) : ∃ a n, EndsOff a ∧ s = a ++ List.replicate n slash := by
  induction s using List.reverseRecOn with
  | nil => exact ⟨[], 0, by simp [EndsOff], rfl⟩
  | append_singleton s c ih =>
    by_cases hc : c = slash
    · obtain ⟨a, n, ha, rfl⟩ := ih
      refine ⟨a, n + 1, ha, ?_⟩
      rw [hc, List.replicate_succ', List.append_assoc]
    · refine ⟨s ++ [c], 0, ?_, by simp⟩
      simpa [EndsOff] using hc

/-- The name a path ends in is taken off. -/
theorem lastName (s : List UInt8) : ∃ a name, slash ∉ name ∧ s = a ++ name ∧ (a = [] ∨ a.getLast? = some slash) := by
  induction s using List.reverseRecOn with
  | nil => exact ⟨[], [], List.not_mem_nil, rfl, .inl rfl⟩
  | append_singleton s c ih =>
    by_cases hc : c = slash
    · exact ⟨s ++ [c], [], List.not_mem_nil, by simp, .inr (by simp [hc])⟩
    · obtain ⟨a, name, hfree, rfl, ha⟩ := ih
      refine ⟨a, name ++ [c], ?_, List.append_assoc .., ha⟩
      simpa [hfree] using Ne.symm hc

/-- **The parts of a path**: it is all slashes, or it is a name with slashes
around it and, if there are some in front of it, what these separate it from. -/
theorem parts (s : List UInt8) :
    (∃ n, s = List.replicate n slash) ∨
      ∃ a m name n, EndsOff a ∧ name ≠ [] ∧ slash ∉ name ∧ (m = 0 → a = []) ∧
        s = a ++ List.replicate m slash ++ name ++ List.replicate n slash := by
  obtain ⟨b, n, hb, rfl⟩ := trailing s
  obtain ⟨c, name, hfree, rfl, hc⟩ := lastName b
  obtain ⟨a, m, ha, rfl⟩ := trailing c
  by_cases hname : name = []
  · subst hname
    rcases hc with hc | hc
    · exact .inl ⟨n, by simp [hc]⟩
    · exact absurd (by simpa using hc) hb
  · refine .inr ⟨a, m, name, n, ha, hname, hfree, ?_, rfl⟩
    rintro rfl
    rcases hc with hc | hc
    · simpa using hc
    · exact absurd (by simpa using hc) ha

/-- A path that is not empty and does not end in a slash has a component. -/
theorem components_ne_nil {a : List UInt8} (hne : a ≠ []) (ha : EndsOff a) : components a ≠ [] := by
  rcases parts a with ⟨n, rfl⟩ | ⟨b, m, name, n, -, hname, hfree, hm, rfl⟩
  · obtain ⟨k, rfl⟩ : ∃ k, n = k + 1 := Nat.exists_eq_succ_of_ne_zero fun hn => hne (by simp [hn])
    exact absurd (by simp [List.replicate_succ']) ha
  · cases m with
    | zero =>
      obtain rfl := hm rfl
      simp [components_trailing, components_single hname hfree]
    | succ m =>
      rw [components_name b m hname hfree n]
      simp

/-! ### `dirname` -/

/-- The position of the last `c`. -/
def strrchr (c : UInt8) : List UInt8 → Option ℕ
  | [] => none
  | x :: s =>
    match strrchr c s with
    | some i => some (i + 1)
    | none => if x = c then some 0 else none

/-- Where the slashes that end at a position begin. -/
def runStart (s : List UInt8) : ℕ → ℕ
  | 0 => 0
  | i + 1 => if s[i]? = some slash then runStart s i else i + 1

/-- The slash in front of the name: not one of those the path ends in, unless it is made of slashes alone. -/
def lastSlash (s : List UInt8) : Option ℕ :=
  match strrchr slash s with
  | none => none
  | some i =>
    if i ≠ 0 ∧ i + 1 = s.length ∧ runStart s i ≠ 0 then strrchr slash (s.take (runStart s i)) else some i

/-- Where `dirname` writes its NUL; two slashes at the start are kept, more of them are not. -/
def dirnameCut (s : List UInt8) : Option ℕ :=
  (lastSlash s).map fun i => if runStart s i = 0 then (if i = 1 then 2 else 1) else runStart s i

/-- What `dirname` does to its argument. -/
def dirname (path : Block) : Except Misuse Block := do
  let s ← path.text
  match dirnameCut s with
  | none => .ok path
  | some i => path.write i [0]

section Dirname

variable {a b name : List UInt8} {m n : ℕ}

theorem strrchr_free {s : List UInt8} (h : slash ∉ s) : strrchr slash s = none := by
  induction s with
  | nil => rfl
  | cons x s ih =>
    simp only [List.mem_cons, not_or] at h
    simp [strrchr, ih h.2, Ne.symm h.1]

theorem strrchr_append (a : List UInt8) (hb : slash ∉ b) : strrchr slash (a ++ b) = strrchr slash a := by
  induction a with
  | nil => exact strrchr_free hb
  | cons x a ih => simp [strrchr, ih]

theorem strrchr_concat (a : List UInt8) : strrchr slash (a ++ [slash]) = some a.length := by
  induction a with
  | nil => rfl
  | cons x a ih => simp [strrchr, ih]

theorem strrchr_lt {s : List UInt8} {i : ℕ} (h : strrchr slash s = some i) : i < s.length := by
  induction s generalizing i with
  | nil => cases h
  | cons x s ih =>
    unfold strrchr at h
    split at h
    next j hj =>
      obtain rfl := Option.some.inj h
      simpa using ih hj
    next =>
      split_ifs at h
      obtain rfl := Option.some.inj h
      simp

/-- The loop stops behind a path that does not end in a slash. -/
theorem runStart_behind (ha : EndsOff a) (m : ℕ) (rest : List UInt8) :
    runStart (a ++ List.replicate m slash ++ rest) (a.length + m) = a.length := by
  induction m generalizing rest with
  | zero =>
    rcases List.eq_nil_or_concat a with rfl | ⟨front, c, rfl⟩
    · rfl
    · have hc : c ≠ slash := by simpa [EndsOff] using ha
      simp [runStart, hc]
  | succ m ih =>
    have hmove : a ++ List.replicate (m + 1) slash ++ rest = a ++ List.replicate m slash ++ slash :: rest := by
      simp [List.replicate_succ']
    have hat : (a ++ List.replicate m slash ++ slash :: rest)[a.length + m]? = some slash := by
      have hlength : (a ++ List.replicate m slash).length = a.length + m := by simp
      rw [← hlength, List.getElem?_append_right le_rfl]
      simp
    rw [hmove, ← Nat.add_assoc, runStart, if_pos hat, ih]

/-- The slash in front of the name is the last one in front of it. -/
theorem lastSlash_name (front : List UInt8) (hne : name ≠ []) (hfree : slash ∉ name) (n : ℕ) :
    lastSlash (front ++ name ++ List.replicate n slash) = strrchr slash front := by
  have hpos : 0 < name.length := List.length_pos_iff.mpr hne
  unfold lastSlash
  cases n with
  | zero =>
    simp only [List.replicate_zero, List.append_nil, strrchr_append front hfree]
    cases hlast : strrchr slash front with
    | none => rfl
    | some i =>
      have hlt := strrchr_lt hlast
      have hnot : ¬ (i ≠ 0 ∧ i + 1 = (front ++ name).length ∧ runStart (front ++ name) i ≠ 0) := by
        rw [List.length_append]
        omega
      simp only [if_neg hnot]
  | succ n =>
    have hoff : EndsOff (front ++ name) := by
      intro hlast
      rw [List.getLast?_append_of_ne_nil _ hne] at hlast
      exact hfree (List.mem_of_getLast? hlast)
    have hlast : strrchr slash (front ++ name ++ List.replicate (n + 1) slash) = some ((front ++ name).length + n) := by
      rw [List.replicate_succ', ← List.append_assoc, strrchr_concat]
      simp [Nat.add_assoc]
    have hrun : runStart (front ++ name ++ List.replicate (n + 1) slash) ((front ++ name).length + n) =
        (front ++ name).length := by
      rw [List.replicate_succ', ← List.append_assoc]
      exact runStart_behind hoff n [slash]
    have hcond : (front ++ name).length + n ≠ 0 ∧
        (front ++ name).length + n + 1 = (front ++ name ++ List.replicate (n + 1) slash).length ∧
        (front ++ name).length ≠ 0 := by
      simp only [List.length_append, List.length_replicate]
      omega
    simp only [hlast, hrun, if_pos hcond]
    rw [List.take_left, strrchr_append front hfree]

/-- No slash in front of the name: `dirname` leaves the path as it is. -/
theorem dirnameCut_plain (hne : name ≠ []) (hfree : slash ∉ name) (n : ℕ) :
    dirnameCut (name ++ List.replicate n slash) = none := by
  have h := lastSlash_name [] hne hfree n
  simp only [List.nil_append] at h
  simp [dirnameCut, h, strrchr]

/-- What the slashes separate the name from is what is left of the path, or else one slash or two. -/
theorem dirnameCut_behind (ha : EndsOff a) (m : ℕ) (hne : name ≠ []) (hfree : slash ∉ name) (n : ℕ) :
    dirnameCut (a ++ List.replicate (m + 1) slash ++ name ++ List.replicate n slash) =
      some (if a.length = 0 then (if m = 1 then 2 else 1) else a.length) := by
  have hlast : strrchr slash (a ++ List.replicate (m + 1) slash) = some (a.length + m) := by
    rw [List.replicate_succ', ← List.append_assoc, strrchr_concat]
    simp
  have hrun : runStart (a ++ List.replicate (m + 1) slash ++ name ++ List.replicate n slash) (a.length + m) =
      a.length := by
    have hmove : a ++ List.replicate (m + 1) slash ++ name ++ List.replicate n slash =
        a ++ List.replicate m slash ++ (slash :: (name ++ List.replicate n slash)) := by
      simp [List.replicate_succ']
    rw [hmove]
    exact runStart_behind ha m _
  rw [dirnameCut, lastSlash_name _ hne hfree, hlast, Option.map_some, hrun]
  by_cases hzero : a.length = 0
  · simp [hzero]
  · simp [hzero]

theorem dirnameCut_slashes (n : ℕ) : dirnameCut (List.replicate (n + 1) slash) = some (if n = 1 then 2 else 1) := by
  have hlast : strrchr slash (List.replicate (n + 1) slash) = some n := by
    rw [List.replicate_succ', strrchr_concat]
    simp
  have hrun : runStart (List.replicate (n + 1) slash) n = 0 := by
    have h := @runStart_behind [] (by simp [EndsOff]) n [slash]
    rw [List.replicate_succ']
    simpa using h
  have hnot : ¬ (n ≠ 0 ∧ n + 1 = (List.replicate (n + 1) slash).length ∧ (0 : ℕ) ≠ 0) := by simp
  have hslash : lastSlash (List.replicate (n + 1) slash) = some n := by
    simp only [lastSlash, hlast, hrun, if_neg hnot]
  simp [dirnameCut, hslash, hrun]

/-- What is left of the path. -/
def dirnameText (s : List UInt8) : List UInt8 := (dirnameCut s).elim s fun i => s.take i

/-- **What `dirname` leaves**, by the parts of the path: all of it, one slash or
two, or what is in front of the name. -/
theorem dirname_cases (s : List UInt8) :
    (s = [] ∧ dirnameCut s = none) ∨
    (∃ name n, name ≠ [] ∧ slash ∉ name ∧ s = name ++ List.replicate n slash ∧ dirnameCut s = none) ∨
    (∃ n, s = List.replicate (n + 1) slash ∧ dirnameCut s = some (if n = 1 then 2 else 1)) ∨
    (∃ m name n, name ≠ [] ∧ slash ∉ name ∧ s = List.replicate (m + 1) slash ++ name ++ List.replicate n slash ∧
      dirnameCut s = some (if m = 1 then 2 else 1)) ∨
    ∃ a m name n, a ≠ [] ∧ EndsOff a ∧ name ≠ [] ∧ slash ∉ name ∧
      s = a ++ List.replicate (m + 1) slash ++ name ++ List.replicate n slash ∧ dirnameCut s = some a.length := by
  rcases parts s with ⟨n, rfl⟩ | ⟨a, m, name, n, ha, hne, hfree, hm, rfl⟩
  · cases n with
    | zero => exact .inl ⟨rfl, rfl⟩
    | succ n => exact .inr (.inr (.inl ⟨n, rfl, dirnameCut_slashes n⟩))
  · cases m with
    | zero =>
      obtain rfl := hm rfl
      refine .inr (.inl ⟨name, n, hne, hfree, by simp, ?_⟩)
      simpa using dirnameCut_plain hne hfree n
    | succ m =>
      have hcut := dirnameCut_behind ha m hne hfree n
      by_cases hnil : a = []
      · subst hnil
        refine .inr (.inr (.inr (.inl ⟨m, name, n, hne, hfree, by simp, ?_⟩)))
        simpa using hcut
      · refine .inr (.inr (.inr (.inr ⟨a, m, name, n, hnil, ha, hne, hfree, rfl, ?_⟩)))
        simpa [hnil] using hcut

theorem dirnameCut_le {s : List UInt8} {i : ℕ} (h : dirnameCut s = some i) : i ≤ s.length := by
  rcases dirname_cases s with ⟨-, hcut⟩ | ⟨name, n, -, -, -, hcut⟩ | ⟨n, rfl, hcut⟩ | ⟨m, name, n, hne, -, rfl, hcut⟩ |
    ⟨a, m, name, n, -, -, -, -, rfl, hcut⟩ <;> rw [hcut] at h
  · cases h
  · cases h
  · obtain rfl := Option.some.inj h
    rw [List.length_replicate]
    split <;> omega
  · have hpos : 0 < name.length := List.length_pos_iff.mpr hne
    obtain rfl := Option.some.inj h
    simp only [List.length_append, List.length_replicate]
    split <;> omega
  · obtain rfl := Option.some.inj h
    simp only [List.length_append]
    omega

/-- The block holds what is left. -/
theorem dirname_holds {path : Block} {size : ℕ} {s : List UInt8} (h : Holds path size s) :
    ∃ path', dirname path = .ok path' ∧ Holds path' size (dirnameText s) := by
  unfold dirname dirnameText
  simp only [h.text, bind, Except.bind]
  cases hcut : dirnameCut s with
  | none => exact ⟨path, rfl, h⟩
  | some i => exact terminate_holds h (dirnameCut_le hcut)

end Dirname

end Paths
