/-
# Configurations inside of configurations

One of the keys of `parse_conf` is `configuration`, and its value is parsed by
`parse_conf` again. The value is given by the index of a node, and an alias may
give that of a mapping it stands in: on `&a {configuration: *a}` the calls never
end (`not_parseConf_ends`).

`parse_conf` comes to an end exactly where no call it makes leads back to itself
and no range of cores it comes to goes on for ever (`parseConf_ends_iff`). A call
is its node and `errno`; it makes another for a key `configuration`, if all pairs
before that one are read.

Key definitions: `Reads`, `Calls`, `EntryStalls`, `PluginsStall`, `Stalls`.
Key theorems: `entryStalls_iff`, `pluginsStall_iff`, `Reads.run`, `parseConf_reads`,
`calls_returned`, `returned_of_calls`, `parseConf_ends_iff`, `not_parseConf_ends`.
-/
import Retif.Callees
import Retif.Drafts
import Retif.Overlap
import Retif.Ranges
import Retif.Lib.Acyclic

namespace Retif

open CString

/-! ### Which keys are read -/

/-- The keys of `parse_conf` that do not call it again. -/
def otherKeys (document : Document) (strtod : List UInt8 → Conversion ℚ) (fresh : ℕ → ConfPlugin) :
    List (List UInt8 × Parser FullConfiguration) :=
  [("system".toUTF8.toList, parseConfSystem document strtod), ("plugins".toUTF8.toList, parseConfPlugins document fresh),
   ("rules".toUTF8.toList, parseConfAclRules)]

/-- The keys of `parse_conf`. -/
def confNames : List (List UInt8) :=
  ["configuration".toUTF8.toList, "system".toUTF8.toList, "plugins".toUTF8.toList, "rules".toUTF8.toList]

/-- The pairs are all read without an error, which takes `errno` from the one value to the other. -/
inductive Reads (document : Document) (strtod : List UInt8 → Conversion ℚ) (fresh : ℕ → ConfPlugin) :
    List (ℕ × ℕ) → Bool → Bool → Prop where
  | nil {errno : Bool} : Reads document strtod fresh [] errno errno
  | unknown {k v : ℕ} {key : List UInt8} {pairs : List (ℕ × ℕ)} {errno errno' : Bool} :
      keyText document k = some key → key ∉ confNames → Reads document strtod fresh pairs errno errno' →
        Reads document strtod fresh ((k, v) :: pairs) errno errno'
  | other {k v : ℕ} {key : List UInt8} {parser : Parser FullConfiguration} {value : Node} {pairs : List (ℕ × ℕ)}
      {errno errno₁ errno' : Bool} : keyText document k = some key → (key, parser) ∈ otherKeys document strtod fresh →
        document.node v = some value → parser.Accepts value errno errno₁ → Reads document strtod fresh pairs errno₁ errno' →
          Reads document strtod fresh ((k, v) :: pairs) errno errno'
  | configuration {k v : ℕ} {inner pairs : List (ℕ × ℕ)} {errno errno₁ errno' : Bool} :
      keyText document k = some "configuration".toUTF8.toList → document.node v = some (.mapping inner) →
        Reads document strtod fresh inner errno errno₁ → Reads document strtod fresh pairs errno₁ errno' →
          Reads document strtod fresh ((k, v) :: pairs) errno errno'

/-- A call of `parse_conf`: its node, and whether `errno` is set. -/
abbrev ConfCall := Node × Bool

/-- One call comes to another: there is a key `configuration` behind pairs that are read. -/
inductive Calls (document : Document) (strtod : List UInt8 → Conversion ℚ) (fresh : ℕ → ConfPlugin) : ConfCall → ConfCall → Prop where
  | configuration {before after : List (ℕ × ℕ)} {k v : ℕ} {node : Node} {errno errno' : Bool} :
      Reads document strtod fresh before errno errno' → keyText document k = some "configuration".toUTF8.toList →
        document.node v = some node → Calls document strtod fresh (.mapping (before ++ (k, v) :: after), errno) (node, errno')

/-! ### Ranges that do not end -/

/-- The scalar has a range that goes beyond what an `int` can be. -/
def Endless (value : List UInt8) (errno : Bool) : Prop :=
  ¬ Fillable (fun _ => true) (tokens ",-".toUTF8.toList (cstr value)) false errno none 0

/-- `parse_conf_plugins_item` comes to such a scalar. -/
inductive EntryStalls (document : Document) : Node → Bool → Prop where
  | cores {before after : List (ℕ × ℕ)} {k v : ℕ} {value : List UInt8} {errno errno' : Bool} :
      (parseConfPluginsItem document).Accepts (.mapping before) errno errno' →
        keyText document k = some "cores".toUTF8.toList → document.node v = some (.scalar value) → Endless value errno' →
          EntryStalls document (.mapping (before ++ (k, v) :: after)) errno

/-- `parse_conf_plugins` comes to such an entry. -/
inductive PluginsStall (document : Document) (fresh : ℕ → ConfPlugin) : Node → Bool → Prop where
  | item {before after : List ℕ} {item : ℕ} {node : Node} {errno errno' : Bool} :
      (parseConfPlugins document fresh).Accepts (.sequence before) errno errno' → document.node item = some node →
        EntryStalls document node errno' → PluginsStall document fresh (.sequence (before ++ item :: after)) errno

/-- The call of `parse_conf` comes to such plugins. -/
inductive Stalls (document : Document) (strtod : List UInt8 → Conversion ℚ) (fresh : ℕ → ConfPlugin) : ConfCall → Prop where
  | plugins {before after : List (ℕ × ℕ)} {k v : ℕ} {node : Node} {errno errno' : Bool} :
      Reads document strtod fresh before errno errno' → keyText document k = some "plugins".toUTF8.toList →
        document.node v = some node → PluginsStall document fresh node errno' →
          Stalls document strtod fresh (.mapping (before ++ (k, v) :: after), errno)

section Entries

variable {document : Document} {fresh : ℕ → ConfPlugin} {node : Node} {errno : Bool}

/-! ### The parsers of a plugin -/

theorem parseConfPluginsItemPriority_steady : (parseConfPluginsItemPriority document).Steady := by
  intro node errno out out' r _ h
  rw [parsePriority_frame] at h
  obtain ⟨r', hr', rfl⟩ := Option.map_eq_some_iff.mp h
  refine ⟨(written out' r').out, ?_, trivial⟩
  rw [parsePriority_frame, hr']
  rfl

theorem parseConfPluginsItemCores_steady : (parseConfPluginsItemCores document).Steady := by
  intro node errno out out' r _ h
  rw [parseCores_frame] at h
  obtain ⟨r', hr', rfl⟩ := Option.map_eq_some_iff.mp h
  refine ⟨{ out' with cores := r'.out.cores }, ?_, trivial⟩
  rw [parseCores_frame, hr']
  rfl

theorem parseConfPluginsItem_steady : (parseConfPluginsItem document).Steady := by
  apply yamlParseMapping_follows
  refine .cons ⟨rfl, ?_⟩ (.cons ⟨rfl, ?_⟩ (.cons ⟨rfl, ?_⟩ (.cons ⟨rfl, ?_⟩ .nil)))
  · exact stored_steady _ fun node errno => (yamlGetString node, errno)
  · exact stored_steady _ fun node errno => (yamlGetString node, errno)
  · exact parseConfPluginsItemPriority_steady
  · exact parseConfPluginsItemCores_steady

theorem parseConfPlugins_steady : (parseConfPlugins document fresh).Steady := by
  intro node errno out out' r _ h
  obtain ⟨r', hr', h⟩ := Option.bind_eq_some_iff.mp h
  obtain rfl := Option.some.inj h
  refine ⟨{ out' with plugins := r'.out }, ?_, trivial⟩
  simp only [parseConfPlugins, hr', Option.bind_eq_bind, Option.bind_some]

theorem stored_returns {α β : Type} (out : α) (set : β → α) (x : Except ℕ β × Bool) : ∃ r, stored out set x = some r := by
  rcases x with ⟨ret | value, e⟩
  · exact ⟨_, rfl⟩
  · exact ⟨_, rfl⟩

/-- The parser of priorities reads at most two items. -/
theorem parseConfPluginsItemPriority_returns (hclosed : node.Closed document) (out : ConfPlugin) :
    ∃ r, parseConfPluginsItemPriority document node errno out = some r := by
  have hset : ∀ min max e, ∃ r, setPriority min max e out = some r := by
    intro min max e
    unfold setPriority
    split
    · exact ⟨_, rfl⟩
    · exact ⟨_, rfl⟩
  rcases node with value | items | pairs
  · simp only [parseConfPluginsItemPriority, parsePriorityScalar]
    rcases tokens "-".toUTF8.toList (cstr value) with _ | ⟨⟨first, d⟩, rest⟩
    · exact ⟨_, rfl⟩
    · dsimp only
      rcases stringToLong first errno with ⟨ret | min, e⟩
      · exact ⟨_, rfl⟩
      · rcases rest with _ | ⟨⟨second, d'⟩, more⟩
        · exact hset min min e
        · dsimp only
          rcases stringToLong second e with ⟨ret | max, e'⟩
          · exact ⟨_, rfl⟩
          · exact hset min max e'
  · simp only [parseConfPluginsItemPriority, parsePrioritySequence]
    rcases items with _ | ⟨first, rest⟩
    · exact ⟨_, rfl⟩
    · obtain ⟨node, hnode⟩ := hclosed first (List.mem_cons_self ..)
      simp only [hnode, Option.bind_eq_bind, Option.bind_some]
      rcases yamlGetLong node errno with ⟨ret | min, e⟩
      · exact ⟨_, rfl⟩
      · rcases rest with _ | ⟨second, more⟩
        · exact hset min min e
        · obtain ⟨node', hnode'⟩ := hclosed second (by simp)
          simp only [hnode', Option.bind_some]
          rcases yamlGetLong node' e with ⟨ret | max, e'⟩
          · exact ⟨_, rfl⟩
          · dsimp only
            split
            · exact hset min max e'
            · exact ⟨_, rfl⟩
  · exact ⟨_, rfl⟩

theorem coresItems_returns {items : List ℕ} {cores : List ℤ} (hclosed : (Node.sequence items).Closed document) :
    ∃ r, coresItems document items errno cores = some r := by
  induction items generalizing errno cores with
  | nil => exact ⟨_, rfl⟩
  | cons item items ih =>
    obtain ⟨node, hnode⟩ := hclosed item (List.mem_cons_self ..)
    simp only [coresItems, hnode, Option.bind_eq_bind, Option.bind_some]
    rcases yamlGetLong node errno with ⟨ret | value, e⟩
    · exact ⟨_, rfl⟩
    · exact ih fun item hitem => hclosed item (List.mem_cons_of_mem _ hitem)

/-- The parser of cores returns, unless the scalar is endless. -/
theorem parseConfPluginsItemCores_returns (hclosed : node.Closed document) (out : ConfPlugin) :
    (∃ r, parseConfPluginsItemCores document node errno out = some r) ↔
      ∀ value, node = .scalar value → ¬ Endless value errno := by
  rcases node with value | items | pairs
  · have hends : (∃ r, coresTokens (tokens ",-".toUTF8.toList (cstr value)) false errno [] = some r) ↔ ¬ Endless value errno := by
      have hint : IntSized (⟨[], 0⟩ : Filling).cores := by simp [IntSized]
      have hfill : _ ↔ Fillable (fun _ => true) (tokens ",-".toUTF8.toList (cstr value)) false errno none 0 :=
        scalarCores_iff hint
      rw [Endless, not_not, ← hfill]
      constructor
      · rintro ⟨⟨e, cores⟩, hcores⟩
        obtain ⟨fuel, calls, hrun⟩ := (scalarCores_push hint).mpr hcores
        exact ⟨fuel, _, hrun⟩
      · rintro ⟨fuel, ⟨e, ⟨cores, calls⟩⟩, hrun⟩
        exact ⟨(e, cores), (scalarCores_push hint).mp ⟨fuel, calls, hrun⟩⟩
    simp only [Node.scalar.injEq, forall_eq', ← hends, parseConfPluginsItemCores]
    constructor
    · rintro ⟨r, hr⟩
      obtain ⟨r', hr', -⟩ := Option.bind_eq_some_iff.mp hr
      exact ⟨r', hr'⟩
    · rintro ⟨r, hr⟩
      rw [hr]
      exact ⟨_, rfl⟩
  · obtain ⟨r, hr⟩ := @coresItems_returns document errno items [] hclosed
    refine iff_of_true ?_ (by simp)
    simp only [parseConfPluginsItemCores, hr]
    exact ⟨_, rfl⟩
  · exact iff_of_true ⟨_, rfl⟩ (by simp)

/-- The table of `parse_conf_plugins_item`. -/
def itemKeys (document : Document) : List (List UInt8 × Parser ConfPlugin) :=
  [("name".toUTF8.toList, parseConfPluginsItemName), ("plugin".toUTF8.toList, parseConfPluginsItemPluginPath),
   ("priority".toUTF8.toList, parseConfPluginsItemPriority document), ("cores".toUTF8.toList, parseConfPluginsItemCores document)]

/-- **An entry** is parsed to its end, unless it comes to an endless scalar. -/
theorem entryStalls_iff (hdoc : document.Closed) (hclosed : node.Closed document) (out : ConfPlugin) :
    (∃ r, parseConfPluginsItem document node errno out = some r) ↔ ¬ EntryStalls document node errno := by
  rcases node with value | items | pairs
  · refine iff_of_true ⟨_, rfl⟩ ?_
    intro hstalls
    cases hstalls
  · refine iff_of_true ⟨_, rfl⟩ ?_
    intro hstalls
    cases hstalls
  have hends := @parsePairs_ends ConfPlugin document (itemKeys document) pairs errno out hclosed
  constructor
  · intro hreturns hstalls
    cases hstalls with
    | cores hacc hkey hvalue hendless =>
      obtain ⟨out', hrun⟩ := hacc.run parseConfPluginsItem_steady out
      have hmem : ("cores".toUTF8.toList, parseConfPluginsItemCores document) ∈ itemKeys document := by simp [itemKeys]
      have hcores := hends.mp hreturns _ _ _ _ _ _ rfl hrun _ _ _ hkey (find_of_mem keys_nodup hmem) hvalue
      exact (parseConfPluginsItemCores_returns (hdoc _ (node_mem hvalue)) out').mp hcores _ rfl hendless
  · intro hnot
    refine hends.mpr ?_
    rintro before k v after errno' out' rfl hbefore key parser value hkey hfind hvalue
    have hinner := hdoc value (node_mem hvalue)
    have hmem := List.mem_of_find?_eq_some hfind
    simp only [itemKeys, List.mem_cons, Prod.mk.injEq, List.not_mem_nil, or_false] at hmem
    rcases hmem with ⟨rfl, rfl⟩ | ⟨rfl, rfl⟩ | ⟨rfl, rfl⟩ | ⟨rfl, rfl⟩
    · exact stored_returns _ _ _
    · exact stored_returns _ _ _
    · exact parseConfPluginsItemPriority_returns hinner out'
    · refine (parseConfPluginsItemCores_returns hinner out').mpr ?_
      rintro value rfl hendless
      exact hnot (.cores ⟨out, out', hbefore⟩ hkey hvalue hendless)

/-- The plugins are those of the list. -/
theorem parseConfPlugins_items {items : List ℕ} {out : FullConfiguration} {r : Parsed FullConfiguration} :
    parseConfPlugins document fresh (.sequence items) errno out = some r ↔
      ∃ r', parseItems document (parseConfPluginsItem document) fresh items 0 errno [] = some r' ∧
        r = ⟨r'.ret, r'.errno, { out with plugins := r'.out }⟩ := by
  simp only [parseConfPlugins, yamlParseList, Option.bind_eq_bind, Option.bind_eq_some_iff, Option.some.injEq]
  exact exists_congr fun r' => and_congr_right fun _ => eq_comm

/-- **A list of plugins** is parsed to its end, unless it comes to such an entry. -/
theorem pluginsStall_iff (hdoc : document.Closed) (hclosed : node.Closed document) (out : FullConfiguration) :
    (∃ r, parseConfPlugins document fresh node errno out = some r) ↔ ¬ PluginsStall document fresh node errno := by
  rcases node with value | items | pairs
  · refine iff_of_true ⟨_, rfl⟩ ?_
    intro hstalls
    cases hstalls
  · have hends := @parseItems_ends ConfPlugin document (parseConfPluginsItem document) fresh items 0 errno [] hclosed
    have hlist : (∃ r, parseConfPlugins document fresh (.sequence items) errno out = some r) ↔
        ∃ r, parseItems document (parseConfPluginsItem document) fresh items 0 errno [] = some r := by
      constructor
      · rintro ⟨r, hr⟩
        obtain ⟨r', hr', -⟩ := parseConfPlugins_items.mp hr
        exact ⟨r', hr'⟩
      · rintro ⟨r, hr⟩
        exact ⟨_, parseConfPlugins_items.mpr ⟨r, hr, rfl⟩⟩
    rw [hlist]
    constructor
    · intro hreturns hstalls
      cases hstalls with
      | item hacc hnode hentry =>
        obtain ⟨out', hrun⟩ := hacc.run parseConfPlugins_steady out
        obtain ⟨⟨ret, e, vector⟩, hbefore, heq⟩ := parseConfPlugins_items.mp hrun
        obtain ⟨rfl, rfl, -⟩ := Parsed.mk.inj heq
        have hitem := hends.mp hreturns _ _ _ _ _ rfl hbefore _ hnode
        exact (entryStalls_iff hdoc (hdoc _ (node_mem hnode)) _).mp hitem hentry
    · intro hnot
      refine hends.mpr ?_
      rintro before item after errno' vector' rfl hbefore node hnode
      refine (entryStalls_iff hdoc (hdoc _ (node_mem hnode)) _).mpr fun hentry => hnot (.item ?_ hnode hentry)
      exact ⟨out, _, parseConfPlugins_items.mpr ⟨_, hbefore, rfl⟩⟩
  · refine iff_of_true ⟨_, rfl⟩ ?_
    intro hstalls
    cases hstalls

end Entries

section Calls

variable {document : Document} {strtod : List UInt8 → Conversion ℚ} {fresh : ℕ → ConfPlugin} {fuel : ℕ}
  {node : Node} {errno errno' : Bool} {out : FullConfiguration} {pairs : List (ℕ × ℕ)} {call call' : ConfCall}

/-! ### The keys that do not call again -/

theorem parseConfSystem_steady : (parseConfSystem document strtod).Steady := by
  apply yamlParseMapping_follows
  refine .cons ⟨rfl, ?_⟩ (.cons ⟨rfl, ?_⟩ .nil)
  · exact stored_steady _ yamlGetLong
  · exact stored_steady _ (yamlGetDouble strtod)

theorem parseConfSystem_returns (hclosed : node.Closed document) (out : FullConfiguration) :
    ∃ r, parseConfSystem document strtod node errno out = some r := by
  rcases node with value | items | pairs
  · exact ⟨_, rfl⟩
  · exact ⟨_, rfl⟩
  refine (parsePairs_ends hclosed).mpr ?_
  intro before k v after errno' out' _ _ key parser value _ hfind _
  have hmem := List.mem_of_find?_eq_some hfind
  simp only [List.mem_cons, Prod.mk.injEq, List.not_mem_nil, or_false] at hmem
  rcases hmem with ⟨-, rfl⟩ | ⟨-, rfl⟩
  · exact stored_returns _ _ _
  · exact stored_returns _ _ _

theorem parseConfAclRules_steady : parseConfAclRules.Steady := by
  intro node errno out out' r _ h
  rw [← Option.some.inj h]
  exact ⟨out', rfl, trivial⟩

theorem otherKeys_steady {key : List UInt8} {parser : Parser FullConfiguration}
    (hmem : (key, parser) ∈ otherKeys document strtod fresh) : parser.Steady := by
  simp only [otherKeys, List.mem_cons, Prod.mk.injEq, List.not_mem_nil, or_false] at hmem
  rcases hmem with ⟨-, rfl⟩ | ⟨-, rfl⟩ | ⟨-, rfl⟩
  · exact parseConfSystem_steady
  · exact parseConfPlugins_steady
  · exact parseConfAclRules_steady

/-! ### The table of `parse_conf` -/

/-- The table of `parse_conf`. -/
def confKeys (document : Document) (strtod : List UInt8 → Conversion ℚ) (fresh : ℕ → ConfPlugin) (fuel : ℕ) :
    List (List UInt8 × Parser FullConfiguration) :=
  ("configuration".toUTF8.toList, parseConf document strtod fresh fuel) :: otherKeys document strtod fresh

theorem parseConf_mapping : parseConf document strtod fresh (fuel + 1) (.mapping pairs) errno out =
    parsePairs document (confKeys document strtod fresh fuel) pairs errno out := rfl

theorem confKeys_names : (confKeys document strtod fresh fuel).map Prod.fst = confNames := rfl

theorem confKeys_nodup : ((confKeys document strtod fresh fuel).map Prod.fst).Nodup := by
  rw [confKeys_names]
  decide +kernel

theorem parseConf_steady : (parseConf document strtod fresh fuel).Steady := by
  induction fuel with
  | zero =>
    intro node errno out out' r _ h
    cases h
  | succ fuel ih =>
    apply yamlParseMapping_follows
    refine .cons ⟨rfl, ih⟩ (.cons ⟨rfl, ?_⟩ (.cons ⟨rfl, ?_⟩ (.cons ⟨rfl, ?_⟩ .nil)))
    · exact parseConfSystem_steady
    · exact parseConfPlugins_steady
    · exact parseConfAclRules_steady

/-! ### What is read -/

/-- Pairs that are read: if `parse_conf` comes to their end, it is with 0, and with that `errno`. -/
theorem Reads.run (h : Reads document strtod fresh pairs errno errno') {r : Parsed FullConfiguration}
    (hrun : parsePairs document (confKeys document strtod fresh fuel) pairs errno out = some r) :
    r.ret = 0 ∧ r.errno = errno' := by
  induction h generalizing fuel out r with
  | nil =>
    rw [← Option.some.inj hrun]
    exact ⟨rfl, rfl⟩
  | unknown hkey hnot _ ih =>
    rw [← @confKeys_names document strtod fresh fuel] at hnot
    rw [parsePairs_unknown hkey (find_none hnot)] at hrun
    exact ih hrun
  | other hkey hmem hvalue hacc _ ih =>
    rw [parsePairs_known hkey (find_of_mem confKeys_nodup (.tail _ hmem)) hvalue] at hrun
    obtain ⟨r', hr', hrun⟩ := Option.bind_eq_some_iff.mp hrun
    obtain ⟨hret, rfl⟩ := hacc.eq (otherKeys_steady hmem) hr'
    rw [if_neg (not_not.mpr hret)] at hrun
    exact ih hrun
  | configuration hkey hvalue _ _ ihinner ih =>
    rw [parsePairs_known hkey (find_of_mem confKeys_nodup (.head _)) hvalue] at hrun
    obtain ⟨r', hr', hrun⟩ := Option.bind_eq_some_iff.mp hrun
    cases fuel with
    | zero => cases hr'
    | succ fuel =>
      obtain ⟨hret, rfl⟩ := ihinner hr'
      rw [if_neg (not_not.mpr hret)] at hrun
      exact ih hrun

/-- The pairs of a mapping are read where `parse_conf` returns 0, if they are
where it does inside. -/
theorem parsePairs_reads (hinner : ∀ node errno out r, parseConf document strtod fresh fuel node errno out = some r →
      r.ret = 0 → ∃ inner, node = .mapping inner ∧ Reads document strtod fresh inner errno r.errno)
    {r : Parsed FullConfiguration} (hrun : parsePairs document (confKeys document strtod fresh fuel) pairs errno out = some r)
    (hret : r.ret = 0) : Reads document strtod fresh pairs errno r.errno := by
  induction pairs generalizing errno out with
  | nil =>
    rw [← Option.some.inj hrun]
    exact .nil
  | cons pair pairs ih =>
    obtain ⟨k, v⟩ := pair
    obtain ⟨key, hkey, ⟨hnone, hrest⟩ | ⟨parser, value, next, hmem, hvalue, hnext, hzero, hrest⟩⟩ := parsePairs_cons hrun hret
    · refine .unknown hkey ?_ (ih hrest)
      rw [← confKeys_names]
      intro hname
      obtain ⟨entry, hentry, rfl⟩ := List.mem_map.mp hname
      exact List.find?_eq_none.mp hnone entry hentry (beq_self_eq_true _)
    · rcases List.mem_cons.mp hmem with heq | hmem
      · obtain ⟨rfl, rfl⟩ := Prod.mk.inj heq
        obtain ⟨inner, rfl, hreads⟩ := hinner value errno out next hnext hzero
        exact .configuration hkey hvalue hreads (ih hrest)
      · exact .other hkey hmem hvalue (.of_ret hnext hzero) (ih hrest)

/-- **What `parse_conf` accepts** is a mapping of pairs that are read. -/
theorem parseConf_reads {r : Parsed FullConfiguration} (hrun : parseConf document strtod fresh fuel node errno out = some r)
    (hret : r.ret = 0) : ∃ inner, node = .mapping inner ∧ Reads document strtod fresh inner errno r.errno := by
  induction fuel generalizing node errno out r with
  | zero => cases hrun
  | succ fuel ih =>
    rcases node with value | items | pairs
    · exact absurd hret (ret_ne one_ne_zero hrun)
    · exact absurd hret (ret_ne one_ne_zero hrun)
    · exact ⟨pairs, rfl, parsePairs_reads (fun node errno out r => ih) hrun hret⟩

/-! ### Calls that return -/

/-- The call returns, with so much fuel. -/
def Returned (document : Document) (strtod : List UInt8 → Conversion ℚ) (fresh : ℕ → ConfPlugin) (fuel : ℕ) (call : ConfCall) :
    Prop := ∃ out r, parseConf document strtod fresh fuel call.1 call.2 out = some r

theorem Returned.run (h : Returned document strtod fresh fuel call) (out : FullConfiguration) :
    ∃ r, parseConf document strtod fresh fuel call.1 call.2 out = some r := by
  obtain ⟨out', r, hr⟩ := h
  obtain ⟨out'', hout⟩ := parseConf_steady.returns hr out
  exact ⟨_, hout⟩

/-- A call returns only if it returns for each key it comes to. -/
theorem returned_key {before after : List (ℕ × ℕ)} {k v : ℕ} {key : List UInt8} {parser : Parser FullConfiguration}
    (hreads : Reads document strtod fresh before errno errno') (hkey : keyText document k = some key)
    (hmem : (key, parser) ∈ confKeys document strtod fresh fuel) (hvalue : document.node v = some node)
    (h : Returned document strtod fresh (fuel + 1) (.mapping (before ++ (k, v) :: after), errno)) :
    ∃ out r, parser node errno' out = some r := by
  obtain ⟨out, r, hr⟩ := h
  rw [parseConf_mapping, parsePairs_append] at hr
  obtain ⟨r', hr', hr⟩ := Option.bind_eq_some_iff.mp hr
  obtain ⟨hret, rfl⟩ := hreads.run hr'
  rw [if_neg (not_not.mpr hret), parsePairs_known hkey (find_of_mem confKeys_nodup hmem) hvalue] at hr
  obtain ⟨next, hnext, -⟩ := Option.bind_eq_some_iff.mp hr
  exact ⟨r'.out, next, hnext⟩

/-- **A call that returns** has those it makes return before it. -/
theorem calls_returned (h : Returned document strtod fresh fuel call) (hcalls : Calls document strtod fresh call call') :
    ∃ fuel' < fuel, Returned document strtod fresh fuel' call' := by
  cases hcalls with
  | configuration hreads hkey hvalue =>
    cases fuel with
    | zero =>
      obtain ⟨out, r, hr⟩ := h
      cases hr
    | succ fuel => exact ⟨fuel, Nat.lt_succ_self fuel, returned_key hreads hkey (.head _) hvalue h⟩

theorem returned_reached (h : Returned document strtod fresh fuel call)
    (hcall : Relation.ReflTransGen (Calls document strtod fresh) call call') :
    ∃ fuel', Returned document strtod fresh fuel' call' := by
  induction hcall with
  | refl => exact ⟨fuel, h⟩
  | tail _ hcalls ih =>
    obtain ⟨fuel', hreturned⟩ := ih
    obtain ⟨fuel'', -, hreturned'⟩ := calls_returned hreturned hcalls
    exact ⟨fuel'', hreturned'⟩

theorem not_stalls (hdoc : document.Closed) (h : Returned document strtod fresh fuel call) :
    ¬ Stalls document strtod fresh call := by
  intro hstalls
  cases hstalls with
  | plugins hreads hkey hvalue hstall =>
    cases fuel with
    | zero =>
      obtain ⟨out, r, hr⟩ := h
      cases hr
    | succ fuel =>
      obtain ⟨out, hreturns⟩ := returned_key hreads hkey (.tail _ (.tail _ (.head _))) hvalue h
      exact (pluginsStall_iff hdoc (hdoc _ (node_mem hvalue)) out).mp hreturns hstall

/-- The calls that are made are on nodes of the document. -/
theorem calls_mem (h : Relation.ReflTransGen (Calls document strtod fresh) call call') (hmem : call.1 ∈ document.nodes) :
    call'.1 ∈ document.nodes := by
  induction h with
  | refl => exact hmem
  | tail _ hcalls _ =>
    cases hcalls with
    | configuration _ _ hvalue => exact node_mem hvalue

theorem calls_finite (hmem : call.1 ∈ document.nodes) :
    {call' | Relation.ReflTransGen (Calls document strtod fresh) call call'}.Finite := by
  have hall : (Set.univ : Set Bool).Finite := Set.finite_univ
  refine ((List.finite_toSet document.nodes).prod hall).subset ?_
  intro call' hcall
  exact ⟨calls_mem hcall hmem, Set.mem_univ _⟩

/-- Where all calls that are made return, they do with one fuel. -/
theorem returned_uniform (hmem : call.1 ∈ document.nodes)
    (hcalls : ∀ call', Calls document strtod fresh call call' → ∃ fuel, Returned document strtod fresh fuel call') :
    ∃ fuel, ∀ call', Calls document strtod fresh call call' → Returned document strtod fresh fuel call' := by
  have hfin : {call' | Calls document strtod fresh call call'}.Finite := (calls_finite hmem).subset fun _ h => .single h
  choose! enough henough using hcalls
  obtain ⟨fuel, hfuel⟩ := (hfin.image enough).bddAbove
  refine ⟨fuel, fun call' hcall => ?_⟩
  obtain ⟨out, r, hr⟩ := henough call' hcall
  exact ⟨out, r, parseConf_mono (hfuel (Set.mem_image_of_mem enough hcall)) hr⟩

/-- **A call returns** where those it makes do, and no plugins stall it. -/
theorem returned_of_calls (hdoc : document.Closed) (hmem : call.1 ∈ document.nodes) (out : FullConfiguration)
    (hcalls : ∀ call', Calls document strtod fresh call call' → ∃ fuel, Returned document strtod fresh fuel call')
    (hstalls : ¬ Stalls document strtod fresh call) : ∃ fuel, Returned document strtod fresh fuel call := by
  obtain ⟨fuel, hfuel⟩ := returned_uniform hmem hcalls
  refine ⟨fuel + 1, out, ?_⟩
  obtain ⟨node, errno⟩ := call
  rcases node with value | items | pairs
  · exact ⟨_, rfl⟩
  · exact ⟨_, rfl⟩
  refine (@parsePairs_ends _ document (confKeys document strtod fresh fuel) pairs errno out (hdoc _ hmem)).mpr ?_
  rintro before k v after errno' out' rfl hbefore key parser value hkey hfind hvalue
  have hreads : Reads document strtod fresh before errno errno' := parsePairs_reads (fun _ _ _ _ => parseConf_reads) hbefore rfl
  have hclosed := hdoc value (node_mem hvalue)
  rcases List.mem_cons.mp (List.mem_of_find?_eq_some hfind) with heq | hother
  · obtain ⟨rfl, rfl⟩ := Prod.mk.inj heq
    exact (hfuel _ (.configuration hreads hkey hvalue)).run out'
  · simp only [otherKeys, List.mem_cons, Prod.mk.injEq, List.not_mem_nil, or_false] at hother
    rcases hother with ⟨rfl, rfl⟩ | ⟨rfl, rfl⟩ | ⟨rfl, rfl⟩
    · exact parseConfSystem_returns hclosed out'
    · exact (pluginsStall_iff hdoc hclosed out').mpr fun hstall => hstalls (.plugins hreads hkey hvalue hstall)
    · exact ⟨_, rfl⟩

/-- **`parse_conf` comes to an end** on a document exactly where no call it makes
leads back to itself, or comes to a range that does not end. -/
theorem parseConf_ends_iff {root : Node} (hdoc : document.Closed) (hroot : root ∈ document.nodes) (conf : FullConfiguration) :
    (∃ fuel r, parseConf document strtod fresh fuel root errno conf = some r) ↔
      ∀ call, Relation.ReflTransGen (Calls document strtod fresh) (root, errno) call →
        ¬ Relation.TransGen (Calls document strtod fresh) call call ∧ ¬ Stalls document strtod fresh call := by
  have hacyclic := Acyclic.acc_iff_acyclic (@calls_finite document strtod fresh (root, errno) hroot)
  constructor
  · rintro ⟨fuel, r, hr⟩ call hcall
    have hreturned : Returned document strtod fresh fuel (root, errno) := ⟨conf, r, hr⟩
    have hacc : Acc (flip (Calls document strtod fresh)) (root, errno) :=
      Acyclic.acc_of_count (fun _ _ _ => calls_returned) hreturned
    obtain ⟨fuel', hreturned'⟩ := returned_reached hreturned hcall
    exact ⟨hacyclic.mp hacc call hcall, not_stalls hdoc hreturned'⟩
  · intro hall
    have hacc := hacyclic.mpr fun call hcall => (hall call hcall).1
    suffices hends : ∀ call, Acc (flip (Calls document strtod fresh)) call →
        Relation.ReflTransGen (Calls document strtod fresh) (root, errno) call →
          ∃ fuel, Returned document strtod fresh fuel call by
      obtain ⟨fuel, hreturned⟩ := hends _ hacc .refl
      exact ⟨fuel, hreturned.run conf⟩
    intro call hacc
    induction hacc with
    | intro call _ ih =>
      intro hcall
      refine returned_of_calls hdoc (calls_mem hcall hroot) conf ?_ (hall call hcall).2
      exact fun call' hcalls => ih call' hcalls (hcall.tail hcalls)

end Calls

namespace CycleExample

/-- `{configuration: {}}`. -/
def nested : Document := ⟨[.mapping [(2, 3)], .scalar "configuration".toUTF8.toList, .mapping []]⟩

/-- `&a {configuration: *a}`. -/
def cyclic : Document := ⟨[.mapping [(2, 1)], .scalar "configuration".toUTF8.toList]⟩

end CycleExample

open CycleExample OverlapExample in
theorem parseConf_ends_nested : (∃ fuel r, parseConf nested strtod (fun _ => blank) fuel (.mapping [(2, 3)]) false zero = some r) ↔
    ∀ call, Relation.ReflTransGen (Calls nested strtod fun _ => blank) (.mapping [(2, 3)], false) call →
      ¬ Relation.TransGen (Calls nested strtod fun _ => blank) call call ∧ ¬ Stalls nested strtod (fun _ => blank) call := by
  have hclosed : nested.Closed := by simp [Document.Closed, Node.Closed, Document.node, nested]
  exact parseConf_ends_iff hclosed (.head _) zero

/-- On a mapping that is its own `configuration`, no fuel is enough. -/
theorem not_parseConf_ends : ¬ ∀ (document : Document) (strtod : List UInt8 → Conversion ℚ) (fresh : ℕ → ConfPlugin)
    (root : Node) (errno : Bool) (conf : FullConfiguration), document.Closed → document.root = some root →
      ∃ fuel r, parseConf document strtod fresh fuel root errno conf = some r := by
  intro h
  have hclosed : CycleExample.cyclic.Closed := by simp [Document.Closed, Node.Closed, Document.node, CycleExample.cyclic]
  have hkey : keyText CycleExample.cyclic 2 = some "configuration".toUTF8.toList := by decide +kernel
  obtain ⟨fuel, r, hr⟩ := h CycleExample.cyclic OverlapExample.strtod (fun _ => OverlapExample.blank) (.mapping [(2, 1)])
    false OverlapExample.zero hclosed rfl
  induction fuel generalizing r with
  | zero => cases hr
  | succ fuel ih =>
    rw [parseConf_mapping, parsePairs_known hkey (find_of_mem confKeys_nodup (.head _)) rfl] at hr
    obtain ⟨r', hr', -⟩ := Option.bind_eq_some_iff.mp hr
    exact ih r' hr'

end Retif
