/-
# A block of memory

What a pointer to allocated memory is good for: it is null, or leads to a block
of so many bytes, or to one that has been given back. `move`, `write` and `read`
are `memmove`, `memset` and the like on the block; they are refused where they
would leave it. `realloc` is the one of glibc: without memory it leaves the
block as it is, but asked for no bytes at all it gives the block back and
returns null all the same.

Key definitions: `Block`, `Block.move`, `Block.write`, `Block.read`, `Block.realloc`.
Key theorems: `move_inside`, `move_outside`, `write_inside`, `realloc_null`,
`realloc_some`.
-/
import Retif.Lib.Memory

namespace Blocks

open Memory

/-- What a pointer leads to. -/
inductive Block where
  | null
  | live (bytes : List UInt8)
  | freed
  deriving DecidableEq

/-- An access outside of the block, or to one that is not there any more. -/
inductive Misuse where
  | outside
  | dangling
  deriving DecidableEq

namespace Block

/-- The bytes of the block, if there is one. -/
def bytes : Block → List UInt8
  | live bs => bs
  | null | freed => []

/-- The bytes for an access that is not empty. -/
def access : Block → Except Misuse (List UInt8)
  | live bs => .ok bs
  | null => .error .outside
  | freed => .error .dangling

/-- `memmove` within the block: `n` bytes from the offset `src` to the offset `dst`. -/
def move (b : Block) (dst src n : ℕ) : Except Misuse Block :=
  if n = 0 then .ok b
  else do
    let bs ← b.access
    if dst + n ≤ bs.length ∧ src + n ≤ bs.length then .ok (.live (store bs dst (load bs src n))) else .error .outside

/-- The bytes `content` are written at the offset `dst`. -/
def write (b : Block) (dst : ℕ) (content : List UInt8) : Except Misuse Block :=
  if content = [] then .ok b
  else do
    let bs ← b.access
    if dst + content.length ≤ bs.length then .ok (.live (store bs dst content)) else .error .outside

/-- `n` bytes are read at the offset `src`. -/
def read (b : Block) (src n : ℕ) : Except Misuse (List UInt8) :=
  if n = 0 then .ok []
  else do
    let bs ← b.access
    if src + n ≤ bs.length then .ok (load bs src n) else .error .outside

/-- What the system has for one call of `realloc`: nothing, or a block with these bytes in it. -/
abbrev Grant := Option (ℕ → UInt8)

/-- `realloc` to `n` bytes: what it returns, and the old block after it. More than
half of the address space is never given. -/
def realloc (b : Block) (n : ℕ) (grant : Grant) : Except Misuse (Option Block × Block) :=
  match b with
  | freed => .error .dangling
  | null =>
    match grant with
    | none => .ok (none, null)
    | some fresh => if 2 ^ 63 ≤ n then .ok (none, null) else .ok (some (live ((List.range n).map fresh)), null)
  | live bs =>
    if n = 0 then .ok (none, freed)
    else
      match grant with
      | none => .ok (none, live bs)
      | some fresh =>
        if 2 ^ 63 ≤ n then .ok (none, live bs)
        else .ok (some (live (bs.take n ++ (List.range (n - bs.length)).map fresh)), freed)

/-- `reallocarray`: the product must not overflow. -/
def reallocarray (b : Block) (n size : ℕ) (grant : Grant) : Except Misuse (Option Block × Block) :=
  if 2 ^ 64 ≤ n * size then
    match b with
    | freed => .error .dangling
    | null | live _ => .ok (none, b)
  else b.realloc (n * size) grant

end Block

section Spec

variable {b : Block} {bs content : List UInt8} {dst src n : ℕ}

@[simp] theorem bytes_live : (Block.live bs).bytes = bs := rfl

/-- Nothing is moved. -/
@[simp] theorem move_zero : b.move dst src 0 = .ok b := rfl

@[simp] theorem write_nil : b.write dst [] = .ok b := rfl

/-- A move that stays inside. -/
theorem move_inside (hdst : dst + n ≤ bs.length) (hsrc : src + n ≤ bs.length) :
    (Block.live bs).move dst src n = .ok (.live (store bs dst (load bs src n))) := by
  unfold Block.move
  split_ifs with hn
  · subst hn
    simp [load, store]
  · simp only [Block.access, bind, Except.bind, if_pos (And.intro hdst hsrc)]

/-- A move that leaves the block, or has none. -/
theorem move_outside (hn : n ≠ 0) (hfreed : b ≠ .freed) (hout : b.bytes.length < dst + n ∨ b.bytes.length < src + n) :
    b.move dst src n = .error .outside := by
  unfold Block.move
  rw [if_neg hn]
  cases b with
  | null => rfl
  | live bs =>
    have hnot : ¬ (dst + n ≤ bs.length ∧ src + n ≤ bs.length) := by
      simp only [bytes_live] at hout
      omega
    simp only [Block.access, bind, Except.bind, if_neg hnot]
  | freed => exact absurd rfl hfreed

/-- A write that stays inside. -/
theorem write_inside (hdst : dst + content.length ≤ bs.length) :
    (Block.live bs).write dst content = .ok (.live (store bs dst content)) := by
  unfold Block.write
  split_ifs with hnil
  · subst hnil
    simp [store]
  · simp only [Block.access, bind, Except.bind, if_pos hdst]

/-- A read that stays inside. -/
theorem read_inside (hsrc : src + n ≤ bs.length) : (Block.live bs).read src n = .ok (load bs src n) := by
  unfold Block.read
  split_ifs with hn
  · subst hn
    simp [load]
  · simp only [Block.access, bind, Except.bind, if_pos hsrc]

/-- A call that gets nothing: the block is as it was. -/
theorem reallocarray_refused {size : ℕ} {grant : Block.Grant} (hpos : 0 < n * size) (hfreed : b ≠ .freed)
    (hno : grant = none ∨ 2 ^ 63 ≤ n * size) : b.reallocarray n size grant = .ok (none, b) := by
  unfold Block.reallocarray
  split_ifs with hover
  · cases b with
    | freed => exact absurd rfl hfreed
    | null | live bs => rfl
  · have hbig : ∀ fresh, grant = some fresh → 2 ^ 63 ≤ n * size := by
      rintro fresh rfl
      exact hno.resolve_left (Option.some_ne_none _)
    cases b with
    | freed => exact absurd rfl hfreed
    | null =>
      cases grant with
      | none => rfl
      | some fresh => simp only [Block.realloc, if_pos (hbig fresh rfl)]
    | live bs =>
      cases grant with
      | none => simp only [Block.realloc, if_neg hpos.ne']
      | some fresh => simp only [Block.realloc, if_neg hpos.ne', if_pos (hbig fresh rfl)]

/-- A call that gets a block: it has the bytes of the old one, as far as there is room. -/
theorem reallocarray_granted {size : ℕ} {fresh : ℕ → UInt8} (hpos : 0 < n * size) (hlt : n * size < 2 ^ 63)
    (hfreed : b ≠ .freed) : ∃ bs old, b.reallocarray n size (some fresh) = .ok (some (.live bs), old) ∧
      bs.length = n * size ∧ bs.take b.bytes.length = b.bytes.take (n * size) := by
  have hover : ¬ 2 ^ 64 ≤ n * size := by omega
  have hbig : ¬ 2 ^ 63 ≤ n * size := by omega
  cases b with
  | freed => exact absurd rfl hfreed
  | null =>
    refine ⟨(List.range (n * size)).map fresh, .null, ?_, ?_, ?_⟩
    · simp only [Block.reallocarray, if_neg hover, Block.realloc, if_neg hbig]
    · simp
    · simp [Block.bytes]
  | live bs =>
    refine ⟨bs.take (n * size) ++ (List.range (n * size - bs.length)).map fresh, .freed, ?_, ?_, ?_⟩
    · simp only [Block.reallocarray, if_neg hover, Block.realloc, if_neg hpos.ne', if_neg hbig]
    · simp only [List.length_append, List.length_take, List.length_map, List.length_range]
      omega
    · rw [bytes_live, List.take_append, List.length_take, List.take_take]
      rcases Nat.le_total bs.length (n * size) with hle | hle
      · rw [Nat.min_eq_right hle, Nat.sub_self, List.take_zero, List.append_nil, Nat.min_eq_left hle,
          List.take_of_length_le (le_refl bs.length), List.take_of_length_le hle]
      · rw [Nat.sub_eq_zero_of_le hle, List.range_zero, List.map_nil, List.take_nil, List.append_nil, Nat.min_eq_right hle]

/-- A call for no bytes gives the block back, and returns null. -/
theorem reallocarray_zero {size : ℕ} {grant : Block.Grant} (hzero : n * size = 0) :
    (Block.live bs).reallocarray n size grant = .ok (none, .freed) := by
  simp [Block.reallocarray, Block.realloc, hzero]

end Spec

end Blocks
