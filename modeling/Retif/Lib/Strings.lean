/-
# Strings in a block

`strcpy` and `strcat` on allocated memory. A string ends at the first NUL, which
has to be in its block; what they write behind the end of the block is a misuse.
A block that holds a string (`Holds`) is one whose bytes up to the first NUL are
that string, and the operations are what they do to the string held.

Key definitions: `Block.calloc`, `Block.text`, `Block.strcpy`, `Block.strcat`, `Holds`.
Key theorems: `Holds.text`, `strcpy_holds`, `strcat_holds`, `strcat_outside`, `terminate_holds`.
-/
import Retif.Lib.Block
import Retif.Lib.CString

namespace Blocks

open Memory CString

namespace Block

/-- `calloc` that gets its memory. -/
def calloc (n : ℕ) : Block := .live (List.replicate n 0)

/-- The string at the start of the block. -/
def text (b : Block) : Except Misuse (List UInt8) := do
  let bs ← b.access
  if 0 ∈ bs then .ok (cstr bs) else .error .outside

def strcpy (b : Block) (s : List UInt8) : Except Misuse Block := b.write 0 (s ++ [0])

def strcat (b : Block) (s : List UInt8) : Except Misuse Block := do
  let t ← b.text
  b.write t.length (s ++ [0])

end Block

/-- A block of `n` bytes with the string `s` in it. -/
def Holds (b : Block) (n : ℕ) (s : List UInt8) : Prop :=
  0 ∉ s ∧ ∃ rest, b = .live (s ++ 0 :: rest) ∧ (s ++ 0 :: rest).length = n

section Spec

variable {b : Block} {n k : ℕ} {s t : List UInt8}

theorem Holds.lt (h : Holds b n s) : s.length < n := by
  obtain ⟨-, rest, -, rfl⟩ := h
  simp

theorem cstr_append_nul (hs : 0 ∉ s) (rest : List UInt8) : cstr (s ++ 0 :: rest) = s := by
  have hpos : ∀ c ∈ s, decide (c ≠ 0) = true := by
    intro c hc
    simpa using ne_of_mem_of_not_mem hc hs
  unfold cstr
  rw [List.takeWhile_append_of_pos hpos]
  simp

/-- The string held is the one that is read. -/
theorem Holds.text (h : Holds b n s) : b.text = .ok s := by
  obtain ⟨hs, rest, rfl, -⟩ := h
  simp [Block.text, Block.access, bind, Except.bind, cstr_append_nul hs]

theorem calloc_holds (hn : 0 < n) : Holds (Block.calloc n) n [] := by
  refine ⟨List.not_mem_nil, List.replicate (n - 1) 0, ?_, ?_⟩
  · obtain ⟨m, rfl⟩ : ∃ m, n = m + 1 := ⟨n - 1, by omega⟩
    simp [Block.calloc, List.replicate_succ]
  · simp
    omega

/-- A string written over bytes of a block, with what it leaves of them. -/
theorem store_string (u v : List UInt8) (t : List UInt8) :
    store (u ++ v) u.length (t ++ [0]) = (u ++ t) ++ 0 :: v.drop (t.length + 1) := by
  unfold store
  simp [List.drop_append]

/-- A string with room for it is written behind `u`. -/
theorem write_string {u v : List UInt8} (hu : 0 ∉ u) (ht : 0 ∉ t) (hfit : t.length < v.length) :
    ∃ b', (Block.live (u ++ v)).write u.length (t ++ [0]) = .ok b' ∧ Holds b' (u ++ v).length (u ++ t) := by
  have hinside : u.length + (t ++ [0]).length ≤ (u ++ v).length := by
    simp only [List.length_append, List.length_singleton]
    omega
  refine ⟨_, write_inside hinside, ?_, v.drop (t.length + 1), ?_, ?_⟩
  · simp [hu, ht]
  · rw [store_string]
  · simp only [List.length_append, List.length_cons, List.length_drop]
    omega

theorem strcpy_holds (hs : 0 ∉ s) (hfit : s.length < n) :
    ∃ b', (Block.calloc n).strcpy s = .ok b' ∧ Holds b' n s := by
  have hlength : s.length < (List.replicate n (0 : UInt8)).length := by simpa using hfit
  obtain ⟨b', hwrite, hb'⟩ := write_string (u := []) List.not_mem_nil hs hlength
  refine ⟨b', hwrite, ?_⟩
  simpa using hb'

theorem strcat_holds (h : Holds b n s) (ht : 0 ∉ t) (hfit : s.length + t.length < n) :
    ∃ b', b.strcat t = .ok b' ∧ Holds b' n (s ++ t) := by
  have htext := h.text
  obtain ⟨hs, rest, rfl, rfl⟩ := h
  have hroom : t.length < (0 :: rest).length := by
    simp only [List.length_append] at hfit
    omega
  obtain ⟨b', hwrite, hb'⟩ := write_string hs ht hroom
  refine ⟨b', ?_, hb'⟩
  simp only [Block.strcat, htext, bind, Except.bind]
  exact hwrite

/-- There is no room for the NUL behind both strings. -/
theorem strcat_outside (h : Holds b n s) (hfull : n ≤ s.length + t.length) : b.strcat t = .error .outside := by
  have htext := h.text
  obtain ⟨-, rest, rfl, rfl⟩ := h
  have hnot : ¬ s.length + (t ++ [0]).length ≤ (s ++ 0 :: rest).length := by
    simp only [List.length_append, List.length_cons, List.length_nil] at hfull ⊢
    omega
  have hne : t ++ [0] ≠ [] := by simp
  simp only [Block.strcat, htext, bind, Except.bind, Block.write, if_neg hne, Block.access, if_neg hnot]

/-- A NUL written into the string ends it there. -/
theorem terminate_holds (h : Holds b n s) (hk : k ≤ s.length) :
    ∃ b', b.write k [0] = .ok b' ∧ Holds b' n (s.take k) := by
  obtain ⟨hs, rest, rfl, rfl⟩ := h
  have hsplit : s ++ 0 :: rest = s.take k ++ (s.drop k ++ 0 :: rest) := by
    rw [← List.append_assoc, List.take_append_drop]
  have hlength : (s.take k).length = k := List.length_take_of_le hk
  have hbefore : 0 ∉ s.take k := fun hmem => hs (List.mem_of_mem_take hmem)
  have hroom : ([] : List UInt8).length < (s.drop k ++ 0 :: rest).length := by simp
  obtain ⟨b', hwrite, hb'⟩ := write_string hbefore List.not_mem_nil hroom
  rw [hlength, ← hsplit] at hwrite
  refine ⟨b', hwrite, ?_⟩
  rw [hsplit]
  simpa using hb'

end Spec

end Blocks
