/-
# What the loops of the YAML parsers call

The loop over a mapping, and that over a list, first goes through the pairs or
items before one and then comes to it. On a document in which every index leads
to a node, each is parsed to its end exactly where the parsers it calls return
(`parsePairs_ends`, `parseItems_ends`).

Key definitions: `Document.Closed`, `Parser.Steady`, `Parser.Accepts`.
Key theorems: `parsePairs_append`, `parseItems_after`, `parsePairs_ends`, `parseItems_ends`.
-/
import Retif.Yaml

namespace Retif

open CString

/-! ### Documents as they are loaded -/

/-- Every index in the node leads to a node. -/
def Node.Closed (document : Document) : Node → Prop
  | .scalar _ => True
  | .sequence items => ∀ item ∈ items, ∃ node, document.node item = some node
  | .mapping pairs =>
    ∀ pair ∈ pairs, (∃ key, document.node pair.1 = some key) ∧ ∃ value, document.node pair.2 = some value

/-- Every index in the document leads to a node. -/
def Document.Closed (document : Document) : Prop := ∀ node ∈ document.nodes, node.Closed document

theorem node_mem {document : Document} {i : ℕ} {node : Node} (h : document.node i = some node) :
    node ∈ document.nodes := by
  unfold Document.node at h
  split at h
  · cases h
  · exact List.mem_of_getElem? h

/-! ### Parsers -/

section Parsers

variable {α : Type} {p : Parser α} {node : Node} {errno : Bool} {out : α} {r : Parsed α}

/-- What is returned, and `errno`, does not depend on the structure to be filled in. -/
abbrev Parser.Steady (p : Parser α) : Prop := p.Follows (fun _ _ => True) p

/-- The parser returns 0, and takes `errno` from the one value to the other. -/
def Parser.Accepts (p : Parser α) (node : Node) (errno errno' : Bool) : Prop :=
  ∃ out out', p node errno out = some ⟨0, errno', out'⟩

theorem Parser.Steady.returns (hp : p.Steady) (h : p node errno out = some r) (out' : α) :
    ∃ out'', p node errno out' = some ⟨r.ret, r.errno, out''⟩ := by
  obtain ⟨out'', hout, -⟩ := hp node errno out out' r trivial h
  exact ⟨out'', hout⟩

theorem Parser.Accepts.of_ret (h : p node errno out = some r) (hret : r.ret = 0) : p.Accepts node errno r.errno := by
  refine ⟨out, r.out, ?_⟩
  rw [h, ← hret]

/-- Where the parser accepts, it does so with any structure, and in no other way. -/
theorem Parser.Accepts.eq {errno' : Bool} (hp : p.Steady) (hacc : p.Accepts node errno errno')
    (h : p node errno out = some r) : r.ret = 0 ∧ r.errno = errno' := by
  obtain ⟨out₀, out₁, hrun⟩ := hacc
  obtain ⟨out₂, hout⟩ := hp.returns hrun out
  cases h.symm.trans hout
  exact ⟨rfl, rfl⟩

theorem Parser.Accepts.run {errno' : Bool} (hp : p.Steady) (hacc : p.Accepts node errno errno') (out : α) :
    ∃ out', p node errno out = some ⟨0, errno', out'⟩ := by
  obtain ⟨out₀, out₁, hrun⟩ := hacc
  exact hp.returns hrun out

/-- A value that is stored is read in the same way for any structure. -/
theorem stored_steady {γ : Type} (set : α → γ → α) (get : Node → Bool → Except ℕ γ × Bool) :
    Parser.Steady fun node errno a => stored a (set a) (get node errno) :=
  stored_follows get fun _ _ _ _ => trivial

end Parsers

/-! ### The loop over a mapping -/

section Mapping

variable {α : Type} {document : Document} {keys : List (List UInt8 × Parser α)} {before after pairs : List (ℕ × ℕ)}
  {errno : Bool} {out : α}

/-- In a table without two entries of one name, the entry is found. -/
theorem find_of_mem {key : List UInt8} {parser : Parser α} (hnodup : (keys.map Prod.fst).Nodup)
    (hmem : (key, parser) ∈ keys) : keys.find? (·.1 == key) = some (key, parser) := by
  induction keys with
  | nil => exact absurd hmem List.not_mem_nil
  | cons entry keys ih =>
    obtain ⟨hnot, hnodup⟩ := List.nodup_cons.mp hnodup
    rcases List.mem_cons.mp hmem with rfl | hmem
    · exact List.find?_cons_of_pos (by simp)
    · have hne : entry.1 ≠ key := by
        rintro rfl
        exact hnot (List.mem_map.mpr ⟨_, hmem, rfl⟩)
      rw [List.find?_cons_of_neg (by simpa using hne)]
      exact ih hnodup hmem

theorem find_none {key : List UInt8} (hnot : key ∉ keys.map Prod.fst) : keys.find? (·.1 == key) = none := by
  refine List.find?_eq_none.mpr fun entry hentry heq => hnot ?_
  rw [← eq_of_beq heq]
  exact List.mem_map_of_mem hentry

/-- First the pairs before, then those after. -/
theorem parsePairs_append : parsePairs document keys (before ++ after) errno out =
    (parsePairs document keys before errno out).bind fun r =>
      if r.ret ≠ 0 then some r else parsePairs document keys after r.errno r.out := by
  induction before generalizing errno out with
  | nil => rfl
  | cons pair before ih =>
    obtain ⟨k, v⟩ := pair
    simp only [List.cons_append, parsePairs, Option.bind_eq_bind, Option.bind_assoc]
    refine congrArg _ (funext fun node => ?_)
    rcases hkey : yamlGetString node with ret | key
    · simp [yamlGetString_error hkey]
    · dsimp only
      rcases hfind : keys.find? (·.1 == key) with _ | ⟨name, parser⟩ <;> rw [hfind]
      · exact ih
      · simp only [Option.bind_assoc]
        refine congrArg _ (funext fun value => congrArg _ (funext fun r => ?_))
        split
        · rename_i hret
          simp [hret]
        · exact ih

theorem keyText_string {k : ℕ} {key : List UInt8} (hkey : keyText document k = some key) :
    ∃ node, document.node k = some node ∧ yamlGetString node = .ok key := by
  obtain ⟨node, hnode, htext⟩ := Option.bind_eq_some_iff.mp hkey
  refine ⟨node, hnode, ?_⟩
  cases hstring : yamlGetString node with
  | error ret =>
    rw [hstring] at htext
    cases htext
  | ok s =>
    rw [hstring] at htext
    exact congrArg _ (Option.some.inj htext)

/-- The pair the loop comes to. -/
theorem parsePairs_known {k v : ℕ} {key : List UInt8} {parser : Parser α} {value : Node}
    (hkey : keyText document k = some key) (hfind : keys.find? (·.1 == key) = some (key, parser))
    (hvalue : document.node v = some value) : parsePairs document keys ((k, v) :: pairs) errno out =
      (parser value errno out).bind fun r => if r.ret ≠ 0 then some r else parsePairs document keys pairs r.errno r.out := by
  obtain ⟨node, hnode, hstring⟩ := keyText_string hkey
  simp only [parsePairs, hnode, Option.bind_eq_bind, Option.bind_some, hstring, hfind, hvalue]

/-- A key that is in no entry of the table. -/
theorem parsePairs_unknown {k v : ℕ} {key : List UInt8} (hkey : keyText document k = some key)
    (hfind : keys.find? (·.1 == key) = none) :
    parsePairs document keys ((k, v) :: pairs) errno out = parsePairs document keys pairs errno out := by
  obtain ⟨node, hnode, hstring⟩ := keyText_string hkey
  simp only [parsePairs, hnode, Option.bind_eq_bind, Option.bind_some, hstring, hfind]

/-- **A mapping** is parsed to its end exactly where each parser it comes to returns. -/
theorem parsePairs_ends (hclosed : (Node.mapping pairs).Closed document) :
    (∃ r, parsePairs document keys pairs errno out = some r) ↔
      ∀ before k v after errno' out', pairs = before ++ (k, v) :: after →
        parsePairs document keys before errno out = some ⟨0, errno', out'⟩ →
          ∀ key parser value, keyText document k = some key → keys.find? (·.1 == key) = some (key, parser) →
            document.node v = some value → ∃ r, parser value errno' out' = some r := by
  constructor
  · rintro ⟨r, hr⟩ before k v after errno' out' rfl hbefore key parser value hkey hfind hvalue
    rw [parsePairs_append, hbefore, Option.bind_some, if_neg (not_not.mpr rfl), parsePairs_known hkey hfind hvalue] at hr
    obtain ⟨r', hr', -⟩ := Option.bind_eq_some_iff.mp hr
    exact ⟨r', hr'⟩
  · intro hall
    -- by induction on the pairs that are left, behind those that were read
    suffices hrest : ∀ rest before errno' out', pairs = before ++ rest →
        parsePairs document keys before errno out = some ⟨0, errno', out'⟩ →
          ∃ r, parsePairs document keys rest errno' out' = some r from hrest pairs [] errno out rfl rfl
    intro rest
    induction rest with
    | nil => exact fun before errno' out' _ _ => ⟨_, rfl⟩
    | cons pair rest ih =>
      intro before errno' out' heq hbefore
      obtain ⟨k, v⟩ := pair
      have hsplit : pairs = (before ++ [(k, v)]) ++ rest := by rw [heq, List.append_assoc, List.singleton_append]
      obtain ⟨⟨node, hnode⟩, ⟨value, hvalue⟩⟩ := hclosed (k, v) (by simp [heq])
      have hnext : ∀ r, parsePairs document keys [(k, v)] errno' out' = some r → r.ret = 0 →
          ∃ r', parsePairs document keys rest r.errno r.out = some r' := by
        intro r hr hret
        refine ih (before ++ [(k, v)]) r.errno r.out hsplit ?_
        rw [parsePairs_append, hbefore, Option.bind_some, if_neg (not_not.mpr rfl), hr, ← hret]
      rcases hstring : yamlGetString node with ret | key
      · refine ⟨⟨ret, errno', out'⟩, ?_⟩
        simp only [parsePairs, hnode, Option.bind_eq_bind, Option.bind_some, hstring]
      · have hkey : keyText document k = some key := by
          simp only [keyText, hnode, Option.bind_some, hstring]
          rfl
        rcases hfind : keys.find? (·.1 == key) with _ | ⟨name, parser⟩
        · rw [parsePairs_unknown hkey hfind]
          exact hnext ⟨0, errno', out'⟩ (parsePairs_unknown hkey hfind) rfl
        · obtain rfl : name = key := by simpa using List.find?_some hfind
          obtain ⟨r, hr⟩ := hall before k v rest errno' out' heq hbefore name parser value hkey hfind hvalue
          rw [parsePairs_known hkey hfind hvalue, hr, Option.bind_some]
          by_cases hret : r.ret = 0
          · rw [if_neg (not_not.mpr hret)]
            refine hnext r ?_ hret
            rw [parsePairs_known hkey hfind hvalue, hr, Option.bind_some, if_neg (not_not.mpr hret)]
            simp [parsePairs, ← hret]
          · exact ⟨r, if_pos hret⟩

end Mapping

/-! ### The loop over a list -/

section Sequence

variable {α : Type} {document : Document} {p : Parser α} {fresh : ℕ → α} {before after items : List ℕ}
  {i : ℕ} {errno : Bool} {vector : List α}

/-- First the items before, then those after. -/
theorem parseItems_after : parseItems document p fresh (before ++ after) i errno vector =
    (parseItems document p fresh before i errno vector).bind fun r =>
      if r.ret ≠ 0 then some r else parseItems document p fresh after (i + before.length) r.errno r.out := by
  induction before generalizing i errno vector with
  | nil => rfl
  | cons item before ih =>
    simp only [List.cons_append, parseItems, Option.bind_eq_bind, Option.bind_assoc]
    refine congrArg _ (funext fun node => congrArg _ (funext fun r => ?_))
    split
    · rename_i hret
      simp [hret]
    · rw [ih, List.length_cons, Nat.add_assoc, Nat.add_comm 1]

/-- **A list** is parsed to its end exactly where the parser returns on each item it comes to. -/
theorem parseItems_ends (hclosed : (Node.sequence items).Closed document) :
    (∃ r, parseItems document p fresh items i errno vector = some r) ↔
      ∀ before item after errno' vector', items = before ++ item :: after →
        parseItems document p fresh before i errno vector = some ⟨0, errno', vector'⟩ →
          ∀ node, document.node item = some node → ∃ r, p node errno' (fresh (i + before.length)) = some r := by
  constructor
  · rintro ⟨r, hr⟩ before item after errno' vector' rfl hbefore node hnode
    rw [parseItems_after, hbefore, Option.bind_some, if_neg (not_not.mpr rfl)] at hr
    simp only [parseItems, hnode, Option.bind_eq_bind, Option.bind_some] at hr
    obtain ⟨r', hr', -⟩ := Option.bind_eq_some_iff.mp hr
    exact ⟨r', hr'⟩
  · intro hall
    suffices hrest : ∀ rest before errno' vector', items = before ++ rest →
        parseItems document p fresh before i errno vector = some ⟨0, errno', vector'⟩ →
          ∃ r, parseItems document p fresh rest (i + before.length) errno' vector' = some r from
      hrest items [] errno vector rfl rfl
    intro rest
    induction rest with
    | nil => exact fun before errno' vector' _ _ => ⟨_, rfl⟩
    | cons item rest ih =>
      intro before errno' vector' heq hbefore
      have hsplit : items = (before ++ [item]) ++ rest := by rw [heq, List.append_assoc, List.singleton_append]
      obtain ⟨node, hnode⟩ := hclosed item (by simp [heq])
      obtain ⟨r, hr⟩ := hall before item rest errno' vector' heq hbefore node hnode
      simp only [parseItems, hnode, hr, Option.bind_eq_bind, Option.bind_some]
      by_cases hret : r.ret = 0
      · rw [if_neg (not_not.mpr hret)]
        obtain ⟨r', hr'⟩ := ih (before ++ [item]) r.errno (vector' ++ [r.out]) hsplit (by
          rw [parseItems_after, hbefore, Option.bind_some, if_neg (not_not.mpr rfl)]
          simp [parseItems, hnode, hr, hret])
        rw [List.length_append, List.length_singleton, ← Nat.add_assoc] at hr'
        exact ⟨r', hr'⟩
      · exact ⟨_, if_pos hret⟩

end Sequence

end Retif
