/-
# The cores an entry lists

`retifconf.yaml` asks for ascending cores, as a scalar like that of `taskset
-c` or as a list (`Expands`). On what it asks for,
`parse_conf_plugins_item_cores` gives the cores the text stands for, in order.
Whatever else it finds it notes in a variable and then returns 0
(`parseCores_ret`).

`errno` is 0 on entry.

Key definitions: `upTo`, `CoreText`, `IntegerText`, `Expands`, `ReadsCores`.
Key theorems: `coreText_cores`, `coreList_cores`, `readsCores_iff`, `not_readsCores`.
-/
import Retif.Priorities

namespace Retif

open CString

/-! ### What is allowed -/

/-- The cores from `a` to `b`. -/
def upTo (a b : ℤ) : List ℤ := (List.range (b + 1 - a).toNat).map fun i : ℕ => a + i

/-- A core, or a range of cores. -/
inductive CoreItem : List UInt8 → List ℤ → Prop where
  | single {s : List UInt8} {n : ℤ} : Decimal s n → CoreItem s [n]
  | range {s t : List UInt8} {a b : ℤ} : Decimal s a → Decimal t b → a < b → CoreItem (s ++ 45 :: t) (upTo a b)

/-- Items, with commas between them, and the cores they stand for. -/
inductive CoreText : List UInt8 → List ℤ → Prop where
  | last {s : List UInt8} {cores : List ℤ} : CoreItem s cores → CoreText s cores
  | more {s t : List UInt8} {cores rest : List ℤ} :
      CoreItem s cores → CoreText t rest → CoreText (s ++ 44 :: t) (cores ++ rest)

/-- An integer that fits in an `int`, with a sign or without. -/
inductive IntegerText : List UInt8 → ℤ → Prop where
  | unsigned {s : List UInt8} {n : ℤ} : Decimal s n → IntegerText s n
  | plus {s : List UInt8} {n : ℤ} : Decimal s n → IntegerText (43 :: s) n
  | minus {s : List UInt8} : s ≠ [] → (∀ d ∈ s, isdigit d = true) → number s ≤ 2 ^ 31 → IntegerText (45 :: s) (-number s)

/-- A node with an integer. -/
def IntegerItem (document : Document) (item : ℕ) (n : ℤ) : Prop :=
  ∃ value, document.node item = some (.scalar value) ∧ IntegerText value n

/-- The node stands for these cores, and they ascend. -/
def Expands (document : Document) (node : Node) (cores : List ℤ) : Prop :=
  cores.Pairwise (· < ·) ∧
    match node with
    | .scalar value => CoreText value cores
    | .sequence items => List.Forall₂ (IntegerItem document) items cores
    | .mapping _ => False

/-- **The parser reads ascending core lists**: from one it stores the cores,
and any other node it rejects. -/
def ReadsCores (document : Document) (node : Node) (out : ConfPlugin) : Prop :=
  (∀ cores, Expands document node cores →
    ∃ errno, parseConfPluginsItemCores document node false out = some ⟨0, errno, { out with cores := cores }⟩) ∧
  ((¬ ∃ cores, Expands document node cores) →
    ∃ r, r.ret ≠ 0 ∧ parseConfPluginsItemCores document node false out = some r)

/-! ### Scalars -/

theorem coresAfter_eq (turns : ℕ) (back : ℤ) : coresAfter turns back = (List.range turns).map fun i : ℕ => back + 1 + i := by
  induction turns generalizing back with
  | zero => rfl
  | succ turns ih =>
    rw [coresAfter, ih, List.range_succ_eq_map, List.map_cons, List.map_map]
    simp only [Nat.cast_zero, add_zero, List.cons.injEq, true_and]
    apply List.map_congr_left
    intro i _
    simp only [Function.comp_apply, Nat.cast_succ]
    ring

theorem coresAfter_getLast {k : ℕ} {back : ℤ} : (coresAfter k back).getLast? = if k = 0 then none else some (back + k) := by
  induction k generalizing back with
  | zero => rfl
  | succ k ih =>
    rw [coresAfter, List.getLast?_cons, ih]
    split
    · rename_i hk
      simp [hk]
    · simp only [Option.getD_some, Nat.add_eq_zero_iff, one_ne_zero, and_false, if_false, Option.some.injEq]
      push_cast
      ring

/-- The cores a range leaves end with its upper end. -/
theorem coresAfter_last {cores : List ℤ} {back value : ℤ} (hback : cores.getLast? = some back) (hle : back ≤ value) :
    (cores ++ coresAfter (value - back).toNat back).getLast? = some value := by
  rw [List.getLast?_append, coresAfter_getLast, hback]
  split
  · simp only [Option.none_or, Option.some.injEq]
    omega
  · simp only [Option.some_or, Option.some.injEq]
    omega

/-- A range is its first core and those after it. -/
theorem upTo_eq {a b : ℤ} (hab : a < b) : upTo a b = a :: coresAfter (b - a).toNat a := by
  have hlen : (b + 1 - a).toNat = (b - a).toNat + 1 := by omega
  rw [upTo, hlen, List.range_succ_eq_map, List.map_cons, List.map_map, coresAfter_eq]
  simp only [Nat.cast_zero, add_zero, List.cons.injEq, true_and]
  apply List.map_congr_left
  intro i _
  simp only [Function.comp_apply, Nat.cast_succ]
  ring

section Scalars

variable {s t : List UInt8} {d : Option UInt8} {rest : List (List UInt8 × Option UInt8)} {cores : List ℤ} {n : ℤ}

/-- What the delimiter behind a token decides: whether a range is open next, or
that the loop ends. -/
def opens (d : Option UInt8) (inRange : Bool) : Option Bool :=
  if d = some 44 then some false else if d = some 45 then if inRange then none else some true else some inRange

/-- **A turn** of the loop over the tokens. -/
theorem coresTokens_cons {inRange errno : Bool} {token : List UInt8} {d : Option UInt8} {rest : List (List UInt8 × Option UInt8)}
    {cores : List ℤ} :
    coresTokens ((token, d) :: rest) inRange errno cores = match stringToLong token errno with
      | (.error _, errno) => some (errno, cores)
      | (.ok value, errno) =>
        if cores.getLast?.any (value ≤ ·) then some (errno, cores)
        else (pushCores inRange cores value).bind fun cores =>
          (opens d inRange).elim (some (errno, cores)) fun inRange => coresTokens rest inRange errno cores := by
  unfold opens
  rw [coresTokens]
  rcases stringToLong token errno with ⟨ret | value, e⟩
  · rfl
  · dsimp only
    congr 1
    apply bind_congr
    intro cores
    split_ifs <;> rfl

/-- No core is there yet, or the last one is below `n`. -/
def Below (cores : List ℤ) (n : ℤ) : Prop := ∀ back ∈ cores.getLast?, back < n

theorem below_of_ascending {more : List ℤ} (h : (cores ++ n :: more).Pairwise (· < ·)) : Below cores n := by
  intro back hback
  have hmem : back ∈ cores := List.mem_of_getLast? hback
  exact (List.pairwise_append.mp h).2.2 back hmem n (List.mem_cons_self ..)

/-- A turn over a number that ascends. -/
theorem coresTokens_turn (hs : Decimal s n) (hbelow : Below cores n) (inRange : Bool) :
    coresTokens ((s, d) :: rest) inRange false cores = (pushCores inRange cores n).bind fun cores =>
      (opens d inRange).elim (some (false, cores)) fun inRange => coresTokens rest inRange false cores := by
  have hbegins := hs.begins
  have hlast : ¬ cores.getLast?.any (n ≤ ·) := by
    rcases hback : cores.getLast? with _ | back
    · simp
    · have hlt := hbelow back hback
      simpa using hlt
  rw [coresTokens_cons, stringToLong_numeric hbegins.numeric, ← hbegins.value]
  dsimp only
  rw [if_neg hlast]

/-- A single core is pushed. -/
theorem coresTokens_single (hs : Decimal s n) (hbelow : Below cores n) :
    (∀ rest, coresTokens ((s, some 44) :: rest) false false cores = coresTokens rest false false (cores ++ [n])) ∧
      (∀ rest, coresTokens ((s, some 45) :: rest) false false cores = coresTokens rest true false (cores ++ [n])) ∧
        coresTokens [(s, none)] false false cores = some (false, cores ++ [n]) := by
  have hpush : pushCores false cores n = some (cores ++ [n]) := by simp [pushCores, hs.narrow_eq]
  refine ⟨fun rest => ?_, fun rest => ?_, ?_⟩ <;> rw [coresTokens_turn hs hbelow, hpush] <;> simp [opens, coresTokens]

/-- The end of a range: the cores up to it are pushed. -/
theorem coresTokens_range {a : ℤ} (ht : Decimal t n) (han : a < n) :
    (∀ rest, coresTokens ((t, some 44) :: rest) true false (cores ++ [a]) =
      coresTokens rest false false (cores ++ upTo a n)) ∧
      coresTokens [(t, none)] true false (cores ++ [a]) = some (false, cores ++ upTo a n) := by
  have hbelow : Below (cores ++ [a]) n := by
    intro back hback
    simp only [List.getLast?_append, List.getLast?_singleton, Option.some_or, Option.mem_some_iff] at hback
    omega
  have hpush : pushCores true (cores ++ [a]) n = some (cores ++ upTo a n) := by
    have hmax : ¬ n > 2 ^ 31 - 1 := by
      have hn := ht.fits
      omega
    simp only [pushCores, fillRange, if_true, List.getLast?_append, List.getLast?_singleton, Option.some_or,
      Option.bind_eq_bind, Option.bind_some, hmax, if_false, upTo_eq han, List.append_assoc, List.singleton_append]
  refine ⟨fun rest => ?_, ?_⟩ <;> rw [coresTokens_turn ht hbelow, hpush] <;> simp [opens, coresTokens]

theorem delim_isdigit : ∀ d ∈ ",-".toUTF8.toList, isdigit d = false := by decide +kernel

theorem comma_mem : (44 : UInt8) ∈ ",-".toUTF8.toList := by decide +kernel

theorem hyphen_mem : (45 : UInt8) ∈ ",-".toUTF8.toList := by decide +kernel

/-- **An item** gives its cores, at the end of a text and before a comma. -/
theorem coreItem_cores {text : List UInt8} {item before : List ℤ} (more : List ℤ) (h : CoreItem text item)
    (hasc : (before ++ item ++ more).Pairwise (· < ·)) :
    coresTokens (tokens ",-".toUTF8.toList text) false false before = some (false, before ++ item) ∧
      ∀ t, coresTokens (tokens ",-".toUTF8.toList (text ++ 44 :: t)) false false before =
        coresTokens (tokens ",-".toUTF8.toList t) false false (before ++ item) := by
  cases h with
  | single hs =>
    have hbelow : Below before _ := below_of_ascending (by simpa using hasc)
    have hfree := hs.free delim_isdigit
    refine ⟨?_, ?_⟩
    · rw [tokens_single hs.ne hfree]
      exact (coresTokens_single hs hbelow).2.2
    · intro t
      rw [tokens_append hs.ne hfree comma_mem]
      exact (coresTokens_single hs hbelow).1 _
  | @range s t a b hs ht hab =>
    have hbelow : Below before a := by
      rw [upTo_eq hab] at hasc
      exact below_of_ascending (by simpa using hasc)
    have hfree := hs.free delim_isdigit
    have hfree' := ht.free delim_isdigit
    refine ⟨?_, ?_⟩
    · rw [tokens_append hs.ne hfree hyphen_mem, tokens_single ht.ne hfree', (coresTokens_single hs hbelow).2.1]
      exact (coresTokens_range ht hab).2
    · intro t'
      rw [List.append_assoc, List.cons_append, tokens_append hs.ne hfree hyphen_mem, tokens_append ht.ne hfree' comma_mem,
        (coresTokens_single hs hbelow).2.1]
      exact (coresTokens_range ht hab).1 _

/-- **A text** gives its cores, behind those that are there. -/
theorem coreText_cores {text : List UInt8} {listed before : List ℤ} (h : CoreText text listed)
    (hasc : (before ++ listed).Pairwise (· < ·)) :
    coresTokens (tokens ",-".toUTF8.toList text) false false before = some (false, before ++ listed) := by
  induction h generalizing before with
  | last hitem => exact (coreItem_cores [] hitem (by simpa using hasc)).1
  | more hitem htext ih =>
    rw [← List.append_assoc] at hasc ⊢
    rw [(coreItem_cores _ hitem hasc).2]
    exact ih hasc

theorem CoreItem.nul_free {text : List UInt8} {item : List ℤ} (h : CoreItem text item) : ∀ b ∈ text, b ≠ 0 := by
  have hdigits : ∀ {s : List UInt8} {n : ℤ}, Decimal s n → ∀ b ∈ s, b ≠ 0 :=
    fun hs b hb => isdigit_ne (hs.digits b hb) (by decide)
  intro b hb
  cases h with
  | single hs => exact hdigits hs b hb
  | range hs ht hab =>
    simp only [List.mem_append, List.mem_cons] at hb
    rcases hb with hb | rfl | hb
    · exact hdigits hs b hb
    · decide
    · exact hdigits ht b hb

theorem CoreText.nul_free {text : List UInt8} {listed : List ℤ} (h : CoreText text listed) : ∀ b ∈ text, b ≠ 0 := by
  induction h with
  | last hitem => exact hitem.nul_free
  | more hitem htext ih =>
    intro b hb
    simp only [List.mem_append, List.mem_cons] at hb
    rcases hb with hb | rfl | hb
    · exact hitem.nul_free b hb
    · decide
    · exact ih b hb

end Scalars

/-! ### Sequences -/

theorem IntegerText.nul_free {s : List UInt8} {n : ℤ} (h : IntegerText s n) : ∀ b ∈ s, b ≠ 0 := by
  intro b hb
  cases h with
  | unsigned hs => exact isdigit_ne (hs.digits b hb) (by decide)
  | plus hs =>
    rcases List.mem_cons.mp hb with rfl | hb
    · decide
    · exact isdigit_ne (hs.digits b hb) (by decide)
  | minus _ hdigits _ =>
    rcases List.mem_cons.mp hb with rfl | hb
    · decide
    · exact isdigit_ne (hdigits b hb) (by decide)

/-- An integer is read, and stored as it is. -/
theorem IntegerText.read {s : List UInt8} {n : ℤ} (h : IntegerText s n) :
    stringToLong s false = (.ok n, false) ∧ narrow n = n := by
  have hfit : ∀ {s : List UInt8} {n : ℤ}, Decimal s n → number s < 2 ^ 63 := by
    intro s n hs
    have hn := hs.fits
    rw [hs.value] at hn
    omega
  cases h with
  | unsigned hs =>
    have hbegins := hs.begins
    refine ⟨?_, hs.narrow_eq⟩
    rw [stringToLong_numeric hbegins.numeric, ← hbegins.value]
  | plus hs =>
    refine ⟨?_, hs.narrow_eq⟩
    simp [stringToLong, converted, strtol_plus hs.ne hs.digits (hfit hs), hs.value]
  | @minus s hne hdigits hmax =>
    refine ⟨?_, ?_⟩
    · simp [stringToLong, converted, strtol_minus hne hdigits (by omega)]
    · unfold narrow
      rw [Int.bmod_eq_of_le] <;> omega

/-- **The items of a list** give its cores. -/
theorem coreList_cores {document : Document} {items : List ℕ} {listed before : List ℤ}
    (h : List.Forall₂ (IntegerItem document) items listed) :
    coresItems document items false before = some (false, before ++ listed) := by
  induction h generalizing before with
  | nil => simp [coresItems]
  | @cons item n items listed hitem _ ih =>
    obtain ⟨value, hnode, htext⟩ := hitem
    have hcstr := cstr_eq_self htext.nul_free
    have hget : yamlGetLong (.scalar value) false = (.ok n, false) := by
      simp [yamlGetLong, yamlGetString, hcstr, htext.read.1]
    simp only [coresItems, hnode, Option.bind_eq_bind, Option.bind_some, hget, htext.read.2]
    rw [ih, List.append_assoc, List.singleton_append]

/-! ### The parser -/

section Parser

variable {document : Document} {node : Node} {out : ConfPlugin}

/-- Whatever it finds, it returns 0. -/
theorem parseCores_ret {errno : Bool} {r : Parsed ConfPlugin}
    (h : parseConfPluginsItemCores document node errno out = some r) : r.ret = 0 := by
  rcases node with value | items | pairs
  · obtain ⟨⟨e, cores⟩, -, hr⟩ := Option.bind_eq_some_iff.mp h
    rw [← Option.some.inj hr]
  · obtain ⟨⟨e, cores⟩, -, hr⟩ := Option.bind_eq_some_iff.mp h
    rw [← Option.some.inj hr]
  · rw [← Option.some.inj h]

theorem expands_parse {cores : List ℤ} (h : Expands document node cores) :
    parseConfPluginsItemCores document node false out = some ⟨0, false, { out with cores := cores }⟩ := by
  obtain ⟨hasc, hnode⟩ := h
  rcases node with value | items | pairs
  · have htext : CoreText value cores := hnode
    have hcores := @coreText_cores value cores [] htext (by simpa using hasc)
    have hcstr : cstr value = value := cstr_eq_self htext.nul_free
    simp only [parseConfPluginsItemCores, hcstr, hcores, Option.bind_eq_bind, Option.bind_some, List.nil_append]
  · have hcores := @coreList_cores document items cores [] hnode
    simp only [parseConfPluginsItemCores, hcores, Option.bind_eq_bind, Option.bind_some, List.nil_append]
  · exact hnode.elim

/-- Nothing is rejected, so a node that is read rightly is allowed. -/
theorem ReadsCores.expands (h : ReadsCores document node out) : ∃ cores, Expands document node cores := by
  by_contra hnot
  obtain ⟨r, hret, hparse⟩ := h.2 hnot
  exact hret (parseCores_ret hparse)

/-- The parser reads the node rightly exactly where it is an ascending core list. -/
theorem readsCores_iff : ReadsCores document node out ↔ ∃ cores, Expands document node cores := by
  constructor
  · exact ReadsCores.expands
  · intro hexpands
    exact ⟨fun cores h => ⟨false, expands_parse h⟩, fun hnot => absurd hexpands hnot⟩

end Parser

/-- A text of cores begins with a digit. -/
theorem CoreText.head_isdigit {text : List UInt8} {listed : List ℤ} (h : CoreText text listed) :
    text.head?.any isdigit = true := by
  have hdecimal : ∀ {s rest : List UInt8} {n : ℤ}, Decimal s n → (s ++ rest).head?.any isdigit = true := by
    intro s rest n hs
    obtain ⟨d, s, rfl⟩ := List.exists_cons_of_ne_nil hs.ne
    exact hs.digits d (List.mem_cons_self ..)
  have hitem : ∀ {s rest : List UInt8} {item : List ℤ}, CoreItem s item → (s ++ rest).head?.any isdigit = true := by
    intro s rest item hs
    cases hs with
    | single hs => exact hdecimal hs
    | range hs ht hab =>
      rw [List.append_assoc]
      exact hdecimal hs
  cases h with
  | last hs => simpa using @hitem _ [] _ hs
  | more hs htext => exact hitem hs

/-- `x` is taken for no cores at all. -/
theorem not_readsCores : ¬ ∀ (document : Document) (node : Node) (out : ConfPlugin), ReadsCores document node out := by
  intro h
  obtain ⟨cores, -, hnode⟩ := (h ⟨[]⟩ (.scalar "x".toUTF8.toList) ⟨[], [], 0, 0, []⟩).expands
  have hdigit := CoreText.head_isdigit hnode
  exact absurd hdigit (by decide +kernel)

end Retif
