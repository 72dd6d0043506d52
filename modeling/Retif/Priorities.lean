/-
# The priorities an entry declares

`retifconf.yaml` allows a single priority, a list of two, or `min-max`
(`Denotes`). `parse_conf_plugins_item_priority` cuts a scalar at its dashes and
looks at the first two tokens, `strtol` reads what a token begins with, and a
`long` is stored in an `int`: what it takes (`Lenient`) is more than what is
allowed.

`errno` is 0 on entry. The items of a sequence are nodes of its document, as
`yaml_parser_load` leaves them.

Key definitions: `Decimal`, `Denotes`, `Lenient`, `ReadsPriority`.
Key theorems: `parsePriority_lenient`, `parsePriority_reject`, `denotes_lenient`,
`readsPriority_iff`, `not_readsPriority`.
-/
import Retif.Parse

namespace Retif

open CString

/-! ### What is allowed -/

/-- A decimal number that fits in an `int`. -/
structure Decimal (s : List UInt8) (n : ℤ) : Prop where
  ne : s ≠ []
  digits : ∀ d ∈ s, isdigit d = true
  value : n = number s
  fits : n < 2 ^ 31

/-- A node with a decimal number. -/
def DecimalItem (document : Document) (item : ℕ) (n : ℤ) : Prop :=
  ∃ value, document.node item = some (.scalar value) ∧ Decimal value n

/-- One number, or `min-max`. -/
inductive PriorityText : List UInt8 → ℤ → ℤ → Prop where
  | single {s : List UInt8} {n : ℤ} : Decimal s n → PriorityText s n n
  | range {s t : List UInt8} {min max : ℤ} : Decimal s min → Decimal t max → PriorityText (s ++ 45 :: t) min max

/-- One number, or two. -/
inductive PriorityList (document : Document) : List ℕ → ℤ → ℤ → Prop where
  | single {item : ℕ} {n : ℤ} : DecimalItem document item n → PriorityList document [item] n n
  | pair {first second : ℕ} {min max : ℤ} :
      DecimalItem document first min → DecimalItem document second max → PriorityList document [first, second] min max

/-- The node is a priority range, from `min` to `max`. -/
def Denotes (document : Document) : Node → ℤ → ℤ → Prop
  | .scalar value => PriorityText value
  | .sequence items => PriorityList document items
  | .mapping _ => fun _ _ => False

/-- **The parser reads priority ranges**: it stores the two ends of one, and
rejects any other node and stores nothing. -/
def ReadsPriority (document : Document) (node : Node) (out : ConfPlugin) : Prop :=
  (∀ min max, Denotes document node min max →
    ∃ errno, parseConfPluginsItemPriority document node false out =
      some ⟨0, errno, { out with priorityMin := min, priorityMax := max }⟩) ∧
  ((¬ ∃ min max, Denotes document node min max) →
    ∃ ret errno, ret ≠ 0 ∧ parseConfPluginsItemPriority document node false out = some ⟨ret, errno, out⟩)

/-! ### What is taken -/

/-- `strtol` finds a number at the start, and it fits in a `long`. -/
structure Numeric (s : List UInt8) : Prop where
  used : (strtol s).used = true
  fits : (strtol s).range = false

instance (s : List UInt8) : Decidable (Numeric s) :=
  decidable_of_iff ((strtol s).used = true ∧ (strtol s).range = false) ⟨fun h => ⟨h.1, h.2⟩, fun h => ⟨h.used, h.fits⟩⟩

/-- It begins with `n`, which is not negative. -/
structure Begins (s : List UInt8) (n : ℤ) : Prop where
  numeric : Numeric s
  value : n = (strtol s).value
  nonneg : 0 ≤ n

/-- A scalar that begins with `n`. -/
def BeginsItem (document : Document) (item : ℕ) (n : ℤ) : Prop :=
  ∃ value, document.node item = some (.scalar value) ∧ Begins (cstr value) n

/-- The first token begins with `min`, and the second with `max` if there is one. -/
def LenientTokens : List (List UInt8 × Option UInt8) → ℤ → ℤ → Prop
  | [], _, _ => False
  | [first], min, max => Begins first.1 min ∧ max = min
  | first :: second :: _, min, max => Begins first.1 min ∧ Begins second.1 max

/-- One item, or two. -/
def LenientList (document : Document) : List ℕ → ℤ → ℤ → Prop
  | [first], min, max => BeginsItem document first min ∧ max = min
  | [first, second], min, max => BeginsItem document first min ∧ BeginsItem document second max
  | _, _, _ => False

/-- The node is taken for a range from `min` to `max`. -/
def Lenient (document : Document) : Node → ℤ → ℤ → Prop
  | .scalar value => LenientTokens (tokens "-".toUTF8.toList (cstr value))
  | .sequence items => LenientList document items
  | .mapping _ => fun _ _ => False

/-- The items of a sequence are nodes of the document. -/
def Node.Within (document : Document) : Node → Prop
  | .sequence items => ∀ item ∈ items, ∃ node, document.node item = some node
  | _ => True

theorem stringToLong_numeric {s : List UInt8} (h : Numeric s) : stringToLong s false = (.ok (strtol s).value, false) := by
  simp [stringToLong, converted, h.used, h.fits]

theorem stringToLong_reject {s : List UInt8} (h : ¬ Numeric s) :
    ∃ ret errno, ret ≠ 0 ∧ stringToLong s false = (.error ret, errno) := by
  unfold stringToLong converted
  split_ifs with hrange hused
  · exact ⟨2, true, by decide, rfl⟩
  · exact ⟨3, false, by decide, rfl⟩
  · exact absurd ⟨by simpa using hused, by simpa using hrange⟩ h

section Parser

variable {document : Document} {out : ConfPlugin} {min max : ℤ}

theorem setPriority_nonneg (hmin : 0 ≤ min) (hmax : 0 ≤ max) : setPriority min max false out =
    some ⟨0, false, { out with priorityMin := narrow min, priorityMax := narrow max }⟩ := by
  unfold setPriority
  rw [if_neg (by omega)]

theorem setPriority_neg (h : min < 0 ∨ max < 0) : setPriority min max false out = some ⟨1, false, out⟩ := by
  unfold setPriority
  rw [if_pos h]

/-- An item is read like this, or the parser stops. -/
theorem yamlGetLong_cases {item : ℕ} {node : Node} (hnode : document.node item = some node) :
    (∃ value, node = .scalar value ∧ Numeric (cstr value) ∧ yamlGetLong node false = (.ok (strtol (cstr value)).value, false)) ∨
      ((¬ ∃ n, BeginsItem document item n) ∧ ∃ ret errno, ret ≠ 0 ∧ yamlGetLong node false = (.error ret, errno)) := by
  have hno : (∀ value, node ≠ .scalar value) → ¬ ∃ n, BeginsItem document item n := by
    rintro hne ⟨n, value, hvalue, -⟩
    exact hne value (Option.some.inj (hnode.symm.trans hvalue))
  rcases node with value | items | pairs
  · by_cases hnum : Numeric (cstr value)
    · exact .inl ⟨value, rfl, hnum, stringToLong_numeric hnum⟩
    · refine .inr ⟨?_, stringToLong_reject hnum⟩
      rintro ⟨n, value', hvalue', hbegins⟩
      cases hnode.symm.trans hvalue'
      exact hnum hbegins.numeric
  · exact .inr ⟨hno (by simp), 1, false, by decide, rfl⟩
  · exact .inr ⟨hno (by simp), 1, false, by decide, rfl⟩

/-- **What is taken is stored**, as `int`s. -/
theorem parsePriority_lenient {node : Node} (h : Lenient document node min max) :
    parseConfPluginsItemPriority document node false out =
      some ⟨0, false, { out with priorityMin := narrow min, priorityMax := narrow max }⟩ := by
  rcases node with value | items | pairs
  · have htokens : LenientTokens (tokens "-".toUTF8.toList (cstr value)) min max := h
    show parsePriorityScalar (cstr value) false out = _
    unfold parsePriorityScalar
    generalize tokens "-".toUTF8.toList (cstr value) = ts at htokens ⊢
    rcases ts with _ | ⟨⟨first, d⟩, _ | ⟨⟨second, d'⟩, more⟩⟩
    · exact htokens.elim
    · obtain ⟨⟨hnum, rfl, h0⟩, rfl⟩ := htokens
      simp only [stringToLong_numeric hnum]
      exact setPriority_nonneg h0 h0
    · obtain ⟨⟨hnum, rfl, h0⟩, ⟨hnum', rfl, h0'⟩⟩ := htokens
      simp only [stringToLong_numeric hnum, stringToLong_numeric hnum']
      exact setPriority_nonneg h0 h0'
  · have hlist : LenientList document items min max := h
    show parsePrioritySequence document items false out = _
    have hget : ∀ {value : List UInt8}, Numeric (cstr value) →
        yamlGetLong (.scalar value) false = (.ok (strtol (cstr value)).value, false) := fun hnum => stringToLong_numeric hnum
    rcases items with _ | ⟨first, _ | ⟨second, _ | ⟨third, more⟩⟩⟩
    · exact hlist.elim
    · obtain ⟨⟨value, hnode, hnum, rfl, h0⟩, rfl⟩ := hlist
      simp only [parsePrioritySequence, hnode, Option.bind_eq_bind, Option.bind_some, hget hnum]
      exact setPriority_nonneg h0 h0
    · obtain ⟨⟨value, hnode, hnum, rfl, h0⟩, ⟨value', hnode', hnum', rfl, h0'⟩⟩ := hlist
      simp only [parsePrioritySequence, hnode, hnode', Option.bind_eq_bind, Option.bind_some, hget hnum, hget hnum',
        if_true]
      exact setPriority_nonneg h0 h0'
    · exact hlist.elim
  · exact h.elim

/-- A token has no dash in it, so what it begins with is not negative. -/
theorem begins_token {s : List UInt8} {t : List UInt8 × Option UInt8} (ht : t ∈ tokens "-".toUTF8.toList s)
    (hnum : Numeric t.1) : Begins t.1 (strtol t.1).value :=
  ⟨hnum, rfl, strtol_nonneg fun hm => tokens_free t ht 45 hm (by decide +kernel)⟩

/-- **What is not taken is rejected**, and nothing is stored: a scalar. -/
theorem parsePriorityScalar_reject {s : List UInt8} (h : ¬ ∃ min max, LenientTokens (tokens "-".toUTF8.toList s) min max) :
    ∃ ret errno, ret ≠ 0 ∧ parsePriorityScalar s false out = some ⟨ret, errno, out⟩ := by
  have hbegins := @begins_token s
  unfold parsePriorityScalar
  generalize tokens "-".toUTF8.toList s = ts at h hbegins ⊢
  rcases ts with _ | ⟨⟨first, d⟩, rest⟩
  · exact ⟨1, false, by decide, rfl⟩
  by_cases hnum : Numeric first
  · have hfirst := @hbegins (first, d) (List.mem_cons_self ..) hnum
    simp only [stringToLong_numeric hnum]
    rcases rest with _ | ⟨⟨second, d'⟩, more⟩
    · exact absurd ⟨_, _, hfirst, rfl⟩ h
    · by_cases hnum' : Numeric second
      · have hsecond := @hbegins (second, d') (List.mem_cons_of_mem _ (List.mem_cons_self ..)) hnum'
        exact absurd ⟨_, _, hfirst, hsecond⟩ h
      · obtain ⟨ret, errno, hret, hsecond⟩ := stringToLong_reject hnum'
        exact ⟨ret, errno, hret, by simp only [hsecond]⟩
  · obtain ⟨ret, errno, hret, hfirst⟩ := stringToLong_reject hnum
    exact ⟨ret, errno, hret, by simp only [hfirst]⟩

/-- A sequence; its third item is one too many, whatever the others are. -/
theorem parsePrioritySequence_reject {items : List ℕ} (hwithin : (Node.sequence items).Within document)
    (h : ¬ ∃ min max, LenientList document items min max) :
    ∃ ret errno, ret ≠ 0 ∧ parsePrioritySequence document items false out = some ⟨ret, errno, out⟩ := by
  rcases items with _ | ⟨first, rest⟩
  · exact ⟨1, false, by decide, rfl⟩
  obtain ⟨node, hnode⟩ := hwithin first (List.mem_cons_self ..)
  unfold parsePrioritySequence
  simp only [hnode, Option.bind_eq_bind, Option.bind_some]
  rcases yamlGetLong_cases hnode with ⟨value, rfl, hnum, hget⟩ | ⟨-, ret, errno, hret, hget⟩
  · simp only [hget]
    rcases rest with _ | ⟨second, more⟩
    · by_cases h0 : 0 ≤ (strtol (cstr value)).value
      · exact absurd ⟨_, _, ⟨value, hnode, hnum, rfl, h0⟩, rfl⟩ h
      · exact ⟨1, false, by decide, setPriority_neg (.inl (not_le.mp h0))⟩
    · obtain ⟨node', hnode'⟩ := hwithin second (List.mem_cons_of_mem _ (List.mem_cons_self ..))
      simp only [hnode', Option.bind_some]
      rcases yamlGetLong_cases hnode' with ⟨value', rfl, hnum', hget'⟩ | ⟨-, ret, errno, hret, hget'⟩
      · simp only [hget']
        rcases more with _ | ⟨third, more⟩
        · rw [if_pos rfl]
          by_cases h0 : 0 ≤ (strtol (cstr value)).value ∧ 0 ≤ (strtol (cstr value')).value
          · exact absurd ⟨_, _, ⟨value, hnode, hnum, rfl, h0.1⟩, ⟨value', hnode', hnum', rfl, h0.2⟩⟩ h
          · exact ⟨1, false, by decide, setPriority_neg (by omega)⟩
        · exact ⟨1, false, by decide, by rw [if_neg (by simp)]⟩
      · exact ⟨ret, errno, hret, by simp only [hget']⟩
  · exact ⟨ret, errno, hret, by simp only [hget]⟩

theorem parsePriority_reject {node : Node} (hwithin : node.Within document)
    (h : ¬ ∃ min max, Lenient document node min max) :
    ∃ ret errno, ret ≠ 0 ∧ parseConfPluginsItemPriority document node false out = some ⟨ret, errno, out⟩ := by
  rcases node with value | items | pairs
  · exact parsePriorityScalar_reject h
  · exact parsePrioritySequence_reject hwithin h
  · exact ⟨1, false, by decide, rfl⟩

end Parser

/-! ### Where the two agree -/

section Allowed

variable {document : Document} {s : List UInt8} {n min max : ℤ}

theorem Decimal.cstr_eq (h : Decimal s n) : cstr s = s :=
  cstr_eq_self fun b hb => isdigit_ne (h.digits b hb) (by decide)

/-- A delimiter that is no digit is not in a number. -/
theorem Decimal.free {delim : List UInt8} (h : Decimal s n) (hdelim : ∀ d ∈ delim, isdigit d = false) :
    ∀ b ∈ s, b ∉ delim := fun b hb hmem => isdigit_ne (h.digits b hb) (hdelim b hmem) rfl

theorem dash_isdigit : ∀ d ∈ "-".toUTF8.toList, isdigit d = false := by decide +kernel

theorem Decimal.nonneg (h : Decimal s n) : 0 ≤ n := by
  rw [h.value]
  exact Int.natCast_nonneg _

theorem Decimal.begins (h : Decimal s n) : Begins s n := by
  have hfit : number s < 2 ^ 63 := by
    have hn := h.fits
    rw [h.value] at hn
    omega
  have hconv := strtol_digits h.ne h.digits hfit
  refine ⟨⟨by rw [hconv], by rw [hconv]⟩, ?_, h.nonneg⟩
  rw [hconv, h.value]

theorem Decimal.narrow_eq (h : Decimal s n) : narrow n = n := by
  have h0 := h.nonneg
  have hn := h.fits
  unfold narrow
  rw [Int.bmod_eq_of_le] <;> omega

theorem DecimalItem.begins {item : ℕ} (h : DecimalItem document item n) : BeginsItem document item n := by
  obtain ⟨value, hnode, hdec⟩ := h
  refine ⟨value, hnode, ?_⟩
  rw [hdec.cstr_eq]
  exact hdec.begins

/-- **What is allowed is taken**, and its ends fit in an `int`. -/
theorem denotes_lenient {node : Node} (h : Denotes document node min max) :
    Lenient document node min max ∧ narrow min = min ∧ narrow max = max := by
  rcases node with value | items | pairs
  · have htext : PriorityText value min max := h
    show LenientTokens (tokens "-".toUTF8.toList (cstr value)) min max ∧ _
    cases htext with
    | single hs =>
      rw [hs.cstr_eq, tokens_single hs.ne (hs.free dash_isdigit)]
      exact ⟨⟨hs.begins, rfl⟩, hs.narrow_eq, hs.narrow_eq⟩
    | @range s t min max hs ht =>
      have hcstr : cstr (s ++ 45 :: t) = s ++ 45 :: t := by
        apply cstr_eq_self
        intro b hb
        rcases List.mem_append.mp hb with hb | hb
        · exact isdigit_ne (hs.digits b hb) (by decide)
        · rcases List.mem_cons.mp hb with rfl | hb
          · decide
          · exact isdigit_ne (ht.digits b hb) (by decide)
      rw [hcstr, tokens_append hs.ne (hs.free dash_isdigit) (by decide +kernel),
        tokens_single ht.ne (ht.free dash_isdigit)]
      exact ⟨⟨hs.begins, ht.begins⟩, hs.narrow_eq, ht.narrow_eq⟩
  · have hlist : PriorityList document items min max := h
    cases hlist with
    | single hitem =>
      obtain ⟨value, -, hdec⟩ := id hitem
      exact ⟨⟨hitem.begins, rfl⟩, hdec.narrow_eq, hdec.narrow_eq⟩
    | pair hfirst hsecond =>
      obtain ⟨value, -, hdec⟩ := id hfirst
      obtain ⟨value', -, hdec'⟩ := id hsecond
      exact ⟨⟨hfirst.begins, hsecond.begins⟩, hdec.narrow_eq, hdec'.narrow_eq⟩
  · exact h.elim

/-- What is taken and read rightly is allowed. -/
theorem ReadsPriority.denotes {node : Node} {out : ConfPlugin} {min max : ℤ} (h : ReadsPriority document node out)
    (htaken : Lenient document node min max) : ∃ min max, Denotes document node min max := by
  by_contra hallowed
  obtain ⟨ret, errno, hret, hparse⟩ := h.2 hallowed
  rw [parsePriority_lenient htaken] at hparse
  exact hret (congrArg Parsed.ret (Option.some.inj hparse)).symm

/-- The parser reads the node rightly exactly where the node is a priority range,
or is not taken for one. -/
theorem readsPriority_iff {node : Node} {out : ConfPlugin} (hwithin : node.Within document) :
    ReadsPriority document node out ↔
      (∃ min max, Denotes document node min max) ∨ ¬ ∃ min max, Lenient document node min max := by
  constructor
  · intro h
    by_contra hnot
    rw [not_or, not_not] at hnot
    obtain ⟨hallowed, min, max, htaken⟩ := hnot
    exact hallowed (h.denotes htaken)
  · intro hcond
    refine ⟨?_, ?_⟩
    · intro min max h
      obtain ⟨htaken, hmin, hmax⟩ := denotes_lenient h
      refine ⟨false, ?_⟩
      rw [parsePriority_lenient htaken, hmin, hmax]
    · intro hnot
      exact parsePriority_reject hwithin (hcond.resolve_left hnot)

end Allowed

/-! ### A priority with something behind its number -/

/-- The sequence `[10, 20]`. -/
theorem readsPriority_sequence :
    ReadsPriority ⟨[.scalar "10".toUTF8.toList, .scalar "20".toUTF8.toList, .sequence [1, 2]]⟩ (.sequence [1, 2])
      ⟨[], [], 0, 0, []⟩ := by
  have h10 : Decimal "10".toUTF8.toList 10 := ⟨by decide +kernel, by decide +kernel, by decide +kernel, by decide⟩
  have h20 : Decimal "20".toUTF8.toList 20 := ⟨by decide +kernel, by decide +kernel, by decide +kernel, by decide⟩
  refine (readsPriority_iff ?_).mpr (.inl ⟨10, 20, ?_⟩)
  · -- its items are the first two nodes
    intro item hitem
    rcases List.mem_pair.mp hitem with rfl | rfl
    · exact ⟨_, rfl⟩
    · exact ⟨_, rfl⟩
  · exact .pair ⟨_, rfl, h10⟩ ⟨_, rfl, h20⟩

/-- `5x` is taken for 5. -/
theorem not_readsPriority : ¬ ∀ (document : Document) (node : Node) (out : ConfPlugin), node.Within document →
    ReadsPriority document node out := by
  intro h
  have hwithin : (Node.scalar "5x".toUTF8.toList).Within ⟨[]⟩ := trivial
  have hreads := h _ _ ⟨[], [], 0, 0, []⟩ hwithin
  have htokens : tokens "-".toUTF8.toList (cstr "5x".toUTF8.toList) = [("5x".toUTF8.toList, none)] := by decide +kernel
  have htaken : Lenient ⟨[]⟩ (.scalar "5x".toUTF8.toList) 5 5 := by
    show LenientTokens (tokens "-".toUTF8.toList (cstr "5x".toUTF8.toList)) 5 5
    rw [htokens]
    exact ⟨⟨by decide +kernel, by decide +kernel, by decide⟩, rfl⟩
  obtain ⟨min, max, hdenotes⟩ := hreads.denotes htaken
  have htext : PriorityText "5x".toUTF8.toList min max := hdenotes
  generalize hs : "5x".toUTF8.toList = s at htext
  cases htext with
  | single hdec =>
    rw [← hs] at hdec
    exact absurd hdec.digits (by decide +kernel)
  | @range s t =>
    have hdash : 45 ∈ "5x".toUTF8.toList := by rw [hs]; simp
    exact absurd hdash (by decide +kernel)

end Retif
