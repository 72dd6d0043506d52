/-
# Reading a YAML document

`retif_yaml.h`: the nodes of a loaded document, the scalars read from them and
the two loops over a mapping and over a list. A node that does not exist is
NULL, and reading it ends the program (`none`). `errno` is looked at after
every conversion and set back by no one; only whether it is 0 matters.

Key definitions: `Node`, `Document`, `Parsed`, `Parser`, `yamlGetString`,
`stringToLong`, `yamlParseMapping`, `yamlParseList`, `Parser.Follows`.
Key theorems: `yamlParseMapping_follows`, `yamlParseList_follows`, `parsePairs_cons`.
-/
import Retif.Lib.CString

namespace Retif

open CString

/-- `yaml_node_t`; items and pairs name the nodes by their index. -/
inductive Node where
  | scalar (value : List UInt8)
  | sequence (items : List ℕ)
  | mapping (pairs : List (ℕ × ℕ))

/-- `yaml_document_t`. -/
structure Document where
  nodes : List Node

/-- `yaml_document_get_node`: the first node has index 1. -/
def Document.node (document : Document) (index : ℕ) : Option Node :=
  if index = 0 then none else document.nodes[index - 1]?

/-- `yaml_document_get_root_node`. -/
def Document.root (document : Document) : Option Node := document.nodes.head?

/-! ### Scalars -/

/-- `yaml_get_string`, and what it returns. -/
def yamlGetString : Node → Except ℕ (List UInt8)
  | .scalar value => .ok (CString.cstr value)
  | _ => .error 1

theorem yamlGetString_error {node : Node} {ret : ℕ} (h : yamlGetString node = .error ret) : ret ≠ 0 := by
  rcases node with _ | _ | _
  · cases h
  · cases h
    decide
  · cases h
    decide

/-- `string_to_long` and `string_to_double`, after the conversion. -/
def converted {α : Type} (c : Conversion α) (errno : Bool) : Except ℕ α × Bool :=
  if errno || c.range then (.error 2, true)
  else if !c.used then (.error 3, false)
  else (.ok c.value, false)

def stringToLong (s : List UInt8) (errno : Bool) : Except ℕ ℤ × Bool := converted (strtol s) errno

def yamlGetLong (node : Node) (errno : Bool) : Except ℕ ℤ × Bool :=
  match yamlGetString node with
  | .error ret => (.error ret, errno)
  | .ok s => stringToLong s errno

def yamlGetDouble (strtod : List UInt8 → Conversion ℚ) (node : Node) (errno : Bool) : Except ℕ ℚ × Bool :=
  match yamlGetString node with
  | .error ret => (.error ret, errno)
  | .ok s => converted (strtod s) errno

/-! ### Mappings and lists -/

/-- What a parser leaves: its result, `errno` and the structure it fills in. -/
structure Parsed (α : Type) where
  ret : ℕ
  errno : Bool
  out : α

/-- A value that was read is stored, a failure is handed on. -/
def stored {α β : Type} (out : α) (set : β → α) : Except ℕ β × Bool → Option (Parsed α)
  | (.error ret, errno) => some ⟨ret, errno, out⟩
  | (.ok value, errno) => some ⟨0, errno, set value⟩

/-- `yaml_parser_fn_t`. -/
abbrev Parser (α : Type) := Node → Bool → α → Option (Parsed α)

/-- The loop of `yaml_parse_mapping`: the first entry of the table with the key
is called, a key that is not in it is passed over. -/
def parsePairs {α : Type} (document : Document) (keys : List (List UInt8 × Parser α)) :
    List (ℕ × ℕ) → Bool → α → Option (Parsed α)
  | [], errno, out => some ⟨0, errno, out⟩
  | (k, v) :: pairs, errno, out => do
    let key ← document.node k
    match yamlGetString key with
    | .error ret => some ⟨ret, errno, out⟩
    | .ok key =>
      match keys.find? (·.1 == key) with
      | none => parsePairs document keys pairs errno out
      | some (_, parser) =>
        let value ← document.node v
        let r ← parser value errno out
        if r.ret ≠ 0 then some r else parsePairs document keys pairs r.errno r.out

def yamlParseMapping {α : Type} (document : Document) (keys : List (List UInt8 × Parser α)) : Parser α
  | .mapping pairs, errno, out => parsePairs document keys pairs errno out
  | _, errno, out => some ⟨1, errno, out⟩

/-- The loop of `yaml_parse_list`; `fresh i` is what `malloc` leaves in the element for
item `i`, as some `α`. Which fields are set after it is told by the parsers of `Drafts`. -/
def parseItems {α : Type} (document : Document) (parser : Parser α) (fresh : ℕ → α) :
    List ℕ → ℕ → Bool → List α → Option (Parsed (List α))
  | [], _, errno, vector => some ⟨0, errno, vector⟩
  | item :: items, i, errno, vector => do
    let node ← document.node item
    let r ← parser node errno (fresh i)
    if r.ret ≠ 0 then some ⟨r.ret, r.errno, vector⟩
    else parseItems document parser fresh items (i + 1) r.errno (vector ++ [r.out])

def yamlParseList {α : Type} (document : Document) (parser : Parser α) (fresh : ℕ → α) : Parser (List α)
  | .sequence items, errno, vector => parseItems document parser fresh items 0 errno vector
  | _, errno, vector => some ⟨1, errno, vector⟩

/-! ### Two parsers in step -/

section Follows

variable {α β : Type} {R : α → β → Prop}

/-- Where `p` returns, `q` returns the same result, and related structures stay related. -/
def Parser.Follows (R : α → β → Prop) (p : Parser α) (q : Parser β) : Prop :=
  ∀ node errno a b r, R a b → p node errno a = some r →
    ∃ out, q node errno b = some ⟨r.ret, r.errno, out⟩ ∧ R r.out out

/-- Two tables with the same keys and parsers in step. -/
abbrev TableFollows (R : α → β → Prop) (keys : List (List UInt8 × Parser α)) (keys' : List (List UInt8 × Parser β)) :
    Prop := List.Forall₂ (fun k k' => k.1 = k'.1 ∧ k.2.Follows R k'.2) keys keys'

theorem Parser.Follows.refl (p : Parser α) : p.Follows Eq p := by
  rintro node errno a _ r rfl h
  exact ⟨r.out, h, rfl⟩

/-- With the same structure, `q` returns what `p` returns. -/
theorem Parser.Follows.eq {p q : Parser α} (h : p.Follows Eq q) {node : Node} {errno : Bool} {out : α} {r : Parsed α}
    (hp : p node errno out = some r) : q node errno out = some r := by
  obtain ⟨_, hq, rfl⟩ := h node errno out out r rfl hp
  exact hq

/-- A value that is stored in both structures. -/
theorem stored_follows {γ : Type} {set : α → γ → α} {set' : β → γ → β}
    (get : Node → Bool → Except ℕ γ × Bool) (hset : ∀ a b s, R a b → R (set a s) (set' b s)) :
    Parser.Follows R (fun node errno a => stored a (set a) (get node errno))
      (fun node errno b => stored b (set' b) (get node errno)) := by
  intro node errno a b r hR h
  rcases hget : get node errno with ⟨ret | s, e⟩ <;> simp only [hget, stored, Option.some.injEq] at h ⊢
  · subst h
    exact ⟨b, rfl, hR⟩
  · subst h
    exact ⟨set' b s, rfl, hset a b s hR⟩

theorem find_follows {keys : List (List UInt8 × Parser α)} {keys' : List (List UInt8 × Parser β)}
    (h : TableFollows R keys keys') (key : List UInt8) :
    Option.Rel (fun k k' => k.2.Follows R k'.2) (keys.find? (·.1 == key)) (keys'.find? (·.1 == key)) := by
  induction h with
  | nil => exact .none
  | @cons k k' keys keys' hk _ ih =>
    obtain ⟨hname, hfollows⟩ := hk
    rw [List.find?_cons, List.find?_cons, hname]
    split
    · exact .some hfollows
    · exact ih

theorem parsePairs_follows {document : Document} {keys : List (List UInt8 × Parser α)}
    {keys' : List (List UInt8 × Parser β)} (hkeys : TableFollows R keys keys') {pairs : List (ℕ × ℕ)} {errno : Bool}
    {a : α} {b : β} {r : Parsed α} (hR : R a b) (h : parsePairs document keys pairs errno a = some r) :
    ∃ out, parsePairs document keys' pairs errno b = some ⟨r.ret, r.errno, out⟩ ∧ R r.out out := by
  induction pairs generalizing errno a b with
  | nil =>
    obtain rfl := Option.some.inj h
    exact ⟨b, rfl, hR⟩
  | cons pair pairs ih =>
    obtain ⟨k, v⟩ := pair
    obtain ⟨node, hnode, h⟩ := Option.bind_eq_some_iff.mp h
    simp only [parsePairs, hnode, Option.bind_eq_bind, Option.bind_some]
    rcases hkey : yamlGetString node with ret | key <;> rw [hkey] at h <;> dsimp only at h ⊢
    · obtain rfl := Option.some.inj h
      exact ⟨b, rfl, hR⟩
    · have hfind := find_follows hkeys key
      rcases hk : keys.find? (·.1 == key) with _ | ⟨name, parser⟩ <;> rw [hk] at h hfind
      · rcases hk' : keys'.find? (·.1 == key) with _ | _ <;> rw [hk'] at hfind ⊢
        · exact ih hR h
        · cases hfind
      · rcases hk' : keys'.find? (·.1 == key) with _ | ⟨name', parser'⟩ <;> rw [hk'] at hfind ⊢
        · cases hfind
        · cases hfind with
          | some hfollows =>
            obtain ⟨value, hvalue, h⟩ := Option.bind_eq_some_iff.mp h
            obtain ⟨r', hr', h⟩ := Option.bind_eq_some_iff.mp h
            obtain ⟨out, hout, hR'⟩ := hfollows value errno a b r' hR hr'
            have hq : parser' value errno b = some ⟨r'.ret, r'.errno, out⟩ := hout
            simp only [hvalue, hq, Option.bind_some]
            split at h
            · rename_i hret
              obtain rfl := Option.some.inj h
              rw [if_pos hret]
              exact ⟨out, rfl, hR'⟩
            · rename_i hret
              rw [if_neg hret]
              exact ih hR' h

/-- **A mapping** is parsed in step where its entries are. -/
theorem yamlParseMapping_follows {document : Document} {keys : List (List UInt8 × Parser α)}
    {keys' : List (List UInt8 × Parser β)} (hkeys : TableFollows R keys keys') :
    (yamlParseMapping document keys).Follows R (yamlParseMapping document keys') := by
  intro node errno a b r hR h
  rcases node with _ | _ | pairs
  · obtain rfl := Option.some.inj h
    exact ⟨b, rfl, hR⟩
  · obtain rfl := Option.some.inj h
    exact ⟨b, rfl, hR⟩
  · exact parsePairs_follows hkeys hR h

theorem parseItems_follows {document : Document} {p : Parser α} {q : Parser β} (hpq : p.Follows R q) {fresh : ℕ → α}
    {fresh' : ℕ → β} (hfresh : ∀ i, R (fresh i) (fresh' i)) {items : List ℕ} {i : ℕ} {errno : Bool} {vector : List α}
    {vector' : List β} {r : Parsed (List α)} (hR : List.Forall₂ R vector vector')
    (h : parseItems document p fresh items i errno vector = some r) :
    ∃ out, parseItems document q fresh' items i errno vector' = some ⟨r.ret, r.errno, out⟩ ∧
      List.Forall₂ R r.out out := by
  induction items generalizing i errno vector vector' with
  | nil =>
    obtain rfl := Option.some.inj h
    exact ⟨vector', rfl, hR⟩
  | cons item items ih =>
    obtain ⟨node, hnode, h⟩ := Option.bind_eq_some_iff.mp h
    obtain ⟨r', hr', h⟩ := Option.bind_eq_some_iff.mp h
    obtain ⟨out, hout, hR'⟩ := hpq node errno _ _ r' (hfresh i) hr'
    simp only [parseItems, hnode, hout, Option.bind_eq_bind, Option.bind_some]
    split at h
    · rename_i hret
      obtain rfl := Option.some.inj h
      rw [if_pos hret]
      exact ⟨vector', rfl, hR⟩
    · rename_i hret
      rw [if_neg hret]
      exact ih (List.rel_append hR (.cons hR' .nil)) h

/-- **A list** is parsed in step where its items are. -/
theorem yamlParseList_follows {document : Document} {p : Parser α} {q : Parser β} (hpq : p.Follows R q) {fresh : ℕ → α}
    {fresh' : ℕ → β} (hfresh : ∀ i, R (fresh i) (fresh' i)) :
    (yamlParseList document p fresh).Follows (List.Forall₂ R) (yamlParseList document q fresh') := by
  intro node errno vector vector' r hR h
  rcases node with _ | items | _
  · obtain rfl := Option.some.inj h
    exact ⟨vector', rfl, hR⟩
  · exact parseItems_follows hpq hfresh hR h
  · obtain rfl := Option.some.inj h
    exact ⟨vector', rfl, hR⟩

end Follows

/-! ### What is pushed -/

section Pushed

variable {α : Type} {document : Document} {p : Parser α} {fresh : ℕ → α}

theorem parseItems_append {items : List ℕ} {i : ℕ} {errno : Bool} {vector more : List α} {r : Parsed (List α)}
    (h : parseItems document p fresh items i errno more = some r) :
    parseItems document p fresh items i errno (vector ++ more) = some ⟨r.ret, r.errno, vector ++ r.out⟩ := by
  induction items generalizing i errno more with
  | nil =>
    obtain rfl := Option.some.inj h
    rfl
  | cons item items ih =>
    obtain ⟨node, hnode, h⟩ := Option.bind_eq_some_iff.mp h
    obtain ⟨r', hr', h⟩ := Option.bind_eq_some_iff.mp h
    simp only [parseItems, hnode, hr', Option.bind_eq_bind, Option.bind_some]
    split at h
    · rename_i hret
      obtain rfl := Option.some.inj h
      rw [if_pos hret]
    · rename_i hret
      rw [if_neg hret, List.append_assoc]
      exact ih h

/-- What a list adds does not depend on what the vector holds. -/
theorem yamlParseList_append {node : Node} {errno : Bool} {r : Parsed (List α)}
    (h : yamlParseList document p fresh node errno [] = some r) (vector : List α) :
    yamlParseList document p fresh node errno vector = some ⟨r.ret, r.errno, vector ++ r.out⟩ := by
  rcases node with _ | items | _
  · obtain rfl := Option.some.inj h
    simp [yamlParseList]
  · have happend := @parseItems_append α document p fresh items 0 errno vector [] r h
    rwa [List.append_nil] at happend
  · obtain rfl := Option.some.inj h
    simp [yamlParseList]

/-- The elements of a list have `P` where the nodes of its items have `Q`. -/
theorem parseItems_pushed {P : α → Prop} {Q : Node → Prop}
    (hp : ∀ node errno i r, p node errno (fresh i) = some r → r.ret = 0 → (P r.out ↔ Q node))
    {items : List ℕ} {i : ℕ} {errno : Bool} {vector : List α} {r : Parsed (List α)}
    (h : parseItems document p fresh items i errno vector = some r) (hret : r.ret = 0) :
    (∀ a ∈ r.out, P a) ↔ (∀ a ∈ vector, P a) ∧ ∀ item ∈ items, ∃ node, document.node item = some node ∧ Q node := by
  induction items generalizing i errno vector with
  | nil =>
    rw [← Option.some.inj h]
    simp
  | cons item items ih =>
    obtain ⟨node, hnode, h⟩ := Option.bind_eq_some_iff.mp h
    obtain ⟨r', hr', h⟩ := Option.bind_eq_some_iff.mp h
    split at h
    · rename_i hne
      rw [← Option.some.inj h] at hret
      exact absurd hret hne
    · rename_i hzero
      have hitem : P r'.out ↔ ∃ node, document.node item = some node ∧ Q node := by
        rw [hp node errno i r' hr' (not_not.mp hzero)]
        simp [hnode]
      rw [ih h, List.forall_mem_append, List.forall_mem_singleton, List.forall_mem_cons, hitem, and_assoc]

end Pushed

/-! ### What a key does -/

/-- The text of a key. -/
def keyText (document : Document) (k : ℕ) : Option (List UInt8) :=
  (document.node k).bind fun node => (yamlGetString node).toOption

/-- **A pair of a mapping that is parsed to its end**: its key is a text, and
either in no entry of the table or in one whose parser accepts the value. -/
theorem parsePairs_cons {α : Type} {document : Document} {keys : List (List UInt8 × Parser α)} {k v : ℕ}
    {pairs : List (ℕ × ℕ)} {errno : Bool} {out : α} {r : Parsed α}
    (h : parsePairs document keys ((k, v) :: pairs) errno out = some r) (hret : r.ret = 0) :
    ∃ key, keyText document k = some key ∧
      ((keys.find? (·.1 == key) = none ∧ parsePairs document keys pairs errno out = some r) ∨
        ∃ parser value next, (key, parser) ∈ keys ∧ document.node v = some value ∧
          parser value errno out = some next ∧ next.ret = 0 ∧
            parsePairs document keys pairs next.errno next.out = some r) := by
  obtain ⟨node, hnode, h⟩ := Option.bind_eq_some_iff.mp h
  rcases hkey : yamlGetString node with ret | key <;> rw [hkey] at h <;> dsimp only at h
  · obtain rfl := Option.some.inj h
    obtain rfl : ret = 0 := hret
    rcases node with _ | _ | _ <;> simp [yamlGetString] at hkey
  · have htext : keyText document k = some key := by
      simp only [keyText, hnode, Option.bind_some, hkey]
      rfl
    refine ⟨key, htext, ?_⟩
    rcases hk : keys.find? (·.1 == key) with _ | ⟨name, parser⟩ <;> rw [hk] at h
    · exact .inl ⟨hk, h⟩
    · obtain ⟨value, hvalue, h⟩ := Option.bind_eq_some_iff.mp h
      obtain ⟨next, hnext, h⟩ := Option.bind_eq_some_iff.mp h
      have hname : name = key := by simpa using List.find?_some hk
      split at h
      · rename_i hne
        obtain rfl := Option.some.inj h
        exact absurd hret hne
      · rename_i hzero
        refine .inr ⟨parser, value, next, ?_, hvalue, hnext, not_not.mp hzero, h⟩
        rw [← hname]
        exact List.mem_of_find?_eq_some hk

end Retif
