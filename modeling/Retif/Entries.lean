/-
# Which plugin entries are complete

`parse_conf` accepts a plugin entry whatever keys it has. `logConf` goes through
the document as it does and keeps every element pushed into `conf->plugins`,
over all `plugins` keys and through any nesting of `configuration`, with `none`
in the fields that no parser has set (`logConf_follows`).

All of them are complete exactly where every item the document holds is a
complete entry (`complete_iff`). An entry with a name and nothing else is
accepted too (`not_complete`).

Key definitions: `logConf`, `Logs`, `HoldsItem`, `CompleteItem`.
Key theorems: `logConf_follows`, `logConf_pushed`, `complete_iff`, `not_complete`.
-/
import Retif.Drafts
import Retif.Overlap

namespace Retif

open CString

/-! ### Every element that is pushed -/

/-- `parse_conf_system` pushes nothing. -/
def logSystem (document : Document) (strtod : List UInt8 → Conversion ℚ) : Parser (List Draft) :=
  yamlParseMapping document
    [("rr_timeslice".toUTF8.toList, fun node errno log => stored log (fun _ => log) (yamlGetLong node errno)),
     ("sched_max_util".toUTF8.toList, fun node errno log => stored log (fun _ => log) (yamlGetDouble strtod node errno))]

/-- `parse_conf_plugins`, with the elements pushed behind those of the lists before. -/
def logPlugins (document : Document) : Parser (List Draft) :=
  yamlParseList document (Draft.item document) fun _ => Draft.unset

/-- `parse_conf`, with all that is ever pushed. -/
def logConf (document : Document) (strtod : List UInt8 → Conversion ℚ) : ℕ → Parser (List Draft)
  | 0 => fun _ _ _ => none
  | fuel + 1 =>
    yamlParseMapping document
      [("configuration".toUTF8.toList, logConf document strtod fuel), ("system".toUTF8.toList, logSystem document strtod),
       ("plugins".toUTF8.toList, logPlugins document), ("rules".toUTF8.toList, fun _ errno log => some ⟨0, errno, log⟩)]

/-- The log ends with the plugins there are now, unless those are the ones from `before`. -/
def Logs (before : List ConfPlugin) (conf : FullConfiguration) (log : List Draft) : Prop :=
  conf.plugins = before ∨ ∃ last, last <:+ log ∧ List.Forall₂ Over conf.plugins last

section Follows

variable {document : Document} {strtod : List UInt8 → Conversion ℚ} {fresh : ℕ → ConfPlugin} {before : List ConfPlugin}

theorem logSystem_follows : (parseConfSystem document strtod).Follows (Logs before) (logSystem document strtod) := by
  apply yamlParseMapping_follows
  refine .cons ⟨rfl, ?_⟩ (.cons ⟨rfl, ?_⟩ .nil)
  · exact stored_follows yamlGetLong fun _ _ _ hlogs => hlogs
  · exact stored_follows (yamlGetDouble strtod) fun _ _ _ hlogs => hlogs

theorem logPlugins_follows : (parseConfPlugins document fresh).Follows (Logs before) (logPlugins document) := by
  intro node errno conf log r _ h
  obtain ⟨vector, hvector, hr⟩ := Option.bind_eq_some_iff.mp h
  have hfresh : ∀ i, Over (fresh i) Draft.unset := fun i => ⟨fresh i, rfl⟩
  obtain ⟨last, hlast, hover⟩ := yamlParseList_follows item_follows hfresh node errno [] [] vector .nil hvector
  rw [← Option.some.inj hr]
  exact ⟨log ++ last, yamlParseList_append hlast log, .inr ⟨last, List.suffix_append log last, hover⟩⟩

/-- **The log is that of `parse_conf`**: it returns the same, and its last
elements are the plugins that are left, over some garbage. -/
theorem logConf_follows {fuel : ℕ} :
    (parseConf document strtod fresh fuel).Follows (Logs before) (logConf document strtod fuel) := by
  induction fuel with
  | zero =>
    intro node errno conf log r _ h
    cases h
  | succ fuel ih =>
    apply yamlParseMapping_follows
    refine .cons ⟨rfl, ih⟩ (.cons ⟨rfl, logSystem_follows⟩ (.cons ⟨rfl, logPlugins_follows⟩ (.cons ⟨rfl, ?_⟩ .nil)))
    intro node errno conf log r hlogs h
    rw [← Option.some.inj h]
    exact ⟨log, rfl, hlogs⟩

end Follows

/-! ### Every item of the document -/

/-- The node holds the item in a list of plugins. -/
inductive HoldsItem (document : Document) : Node → ℕ → Prop where
  | plugins {pairs : List (ℕ × ℕ)} {items : List ℕ} {k v item : ℕ} : (k, v) ∈ pairs →
      keyText document k = some "plugins".toUTF8.toList → document.node v = some (.sequence items) → item ∈ items →
        HoldsItem document (.mapping pairs) item
  | configuration {pairs : List (ℕ × ℕ)} {node : Node} {k v item : ℕ} : (k, v) ∈ pairs →
      keyText document k = some "configuration".toUTF8.toList → document.node v = some node → HoldsItem document node item →
        HoldsItem document (.mapping pairs) item

/-- The item is a complete entry. -/
def CompleteItem (document : Document) (item : ℕ) : Prop :=
  ∃ node, document.node item = some node ∧ CompleteEntry document node

/-- A pair with this key holds the item. -/
def ItemAt (document : Document) (key : List UInt8) (v item : ℕ) : Prop :=
  (key = "plugins".toUTF8.toList ∧ ∃ items, document.node v = some (.sequence items) ∧ item ∈ items) ∨
    (key = "configuration".toUTF8.toList ∧ ∃ node, document.node v = some node ∧ HoldsItem document node item)

section Items

variable {document : Document} {k v item : ℕ}

theorem holdsItem_nil : ¬ HoldsItem document (.mapping []) item := by
  intro h
  cases h with
  | plugins hmem => exact absurd hmem List.not_mem_nil
  | configuration hmem => exact absurd hmem List.not_mem_nil

theorem holdsItem_cons {pairs : List (ℕ × ℕ)} {key : List UInt8} (hkey : keyText document k = some key) :
    HoldsItem document (.mapping ((k, v) :: pairs)) item ↔ ItemAt document key v item ∨ HoldsItem document (.mapping pairs) item := by
  constructor
  · intro h
    cases h with
    | plugins hmem htext hnode hitem =>
      rcases List.mem_cons.mp hmem with heq | hmem
      · obtain ⟨rfl, rfl⟩ := Prod.mk.inj heq
        exact .inl (.inl ⟨Option.some.inj (hkey.symm.trans htext), _, hnode, hitem⟩)
      · exact .inr (.plugins hmem htext hnode hitem)
    | configuration hmem htext hnode hholds =>
      rcases List.mem_cons.mp hmem with heq | hmem
      · obtain ⟨rfl, rfl⟩ := Prod.mk.inj heq
        exact .inl (.inr ⟨Option.some.inj (hkey.symm.trans htext), _, hnode, hholds⟩)
      · exact .inr (.configuration hmem htext hnode hholds)
  · rintro ((⟨rfl, items, hnode, hitem⟩ | ⟨rfl, node, hnode, hholds⟩) | h)
    · exact .plugins (List.mem_cons_self ..) hkey hnode hitem
    · exact .configuration (List.mem_cons_self ..) hkey hnode hholds
    · cases h with
      | plugins hmem htext hnode hitem => exact .plugins (List.mem_cons_of_mem _ hmem) htext hnode hitem
      | configuration hmem htext hnode hholds => exact .configuration (List.mem_cons_of_mem _ hmem) htext hnode hholds

/-- A key that neither holds plugins nor another configuration. -/
theorem not_itemAt {key : List UInt8} (hplugins : key ≠ "plugins".toUTF8.toList)
    (hconfiguration : key ≠ "configuration".toUTF8.toList) : ¬ ItemAt document key v item := by
  rintro (⟨h, -⟩ | ⟨h, -⟩)
  · exact hplugins h
  · exact hconfiguration h

theorem itemAt_plugins {items : List ℕ} (hnode : document.node v = some (.sequence items)) :
    ItemAt document "plugins".toUTF8.toList v item ↔ item ∈ items := by
  constructor
  · rintro (⟨-, items', hitems', hitem⟩ | ⟨hne, -⟩)
    · cases hnode.symm.trans hitems'
      exact hitem
    · exact absurd hne (by decide +kernel)
  · exact fun hitem => .inl ⟨rfl, items, hnode, hitem⟩

theorem itemAt_configuration {node : Node} (hnode : document.node v = some node) :
    ItemAt document "configuration".toUTF8.toList v item ↔ HoldsItem document node item := by
  constructor
  · rintro (⟨hne, -⟩ | ⟨-, node', hnode', hholds⟩)
    · exact absurd hne (by decide +kernel)
    · cases hnode.symm.trans hnode'
      exact hholds
  · exact fun hholds => .inr ⟨rfl, node, hnode, hholds⟩

end Items

section Pushed

variable {document : Document} {strtod : List UInt8 → Conversion ℚ} {fresh : ℕ → ConfPlugin}
  {errno : Bool} {log : List Draft} {r : Parsed (List Draft)}

theorem logSystem_log {node : Node} (h : logSystem document strtod node errno log = some r) : r.out = log := by
  have hkept : (logSystem document strtod).Follows (fun a _ => a = log) (logSystem document strtod) := by
    apply yamlParseMapping_follows
    refine .cons ⟨rfl, ?_⟩ (.cons ⟨rfl, ?_⟩ .nil)
    · exact stored_follows yamlGetLong fun _ _ _ hlog => hlog
    · exact stored_follows (yamlGetDouble strtod) fun _ _ _ hlog => hlog
  obtain ⟨_, -, hlog⟩ := hkept node errno log log r rfl h
  exact hlog

theorem logPlugins_pushed {v : ℕ} {node : Node} (hnode : document.node v = some node)
    (h : logPlugins document node errno log = some r) (hret : r.ret = 0) :
    (∀ e ∈ r.out, e.Complete) ↔ (∀ e ∈ log, e.Complete) ∧
      ∀ item, ItemAt document "plugins".toUTF8.toList v item → CompleteItem document item := by
  rcases node with _ | items | _
  · exact absurd hret (ret_ne (by decide) h)
  · simp only [itemAt_plugins hnode]
    exact parseItems_pushed (p := Draft.item document) (fun _ _ _ _ => item_complete) h hret
  · exact absurd hret (ret_ne (by decide) h)

/-- **What a run pushes** is complete exactly where the items of the node are. -/
theorem logConf_pushed {fuel : ℕ} {node : Node} (h : logConf document strtod fuel node errno log = some r)
    (hret : r.ret = 0) : (∀ e ∈ r.out, e.Complete) ↔
      (∀ e ∈ log, e.Complete) ∧ ∀ item, HoldsItem document node item → CompleteItem document item := by
  induction fuel generalizing node errno log r with
  | zero => cases h
  | succ fuel ih =>
    rcases node with value | items | pairs
    · exact absurd hret (ret_ne (by decide) h)
    · exact absurd hret (ret_ne (by decide) h)
    simp only [logConf, yamlParseMapping] at h
    induction pairs generalizing errno log with
    | nil =>
      rw [← Option.some.inj h]
      simp [holdsItem_nil]
    | cons pair pairs ihpairs =>
      obtain ⟨k, v⟩ := pair
      obtain ⟨key, hkey, ⟨hnone, hrest⟩ | ⟨parser, value, next, hmem, hvalue, hnext, hzero, hrest⟩⟩ :=
        parsePairs_cons h hret
      · have hholds : ∀ item, ¬ ItemAt document key v item := by
          intro item
          have hnot := List.find?_eq_none.mp hnone
          apply not_itemAt
          · rintro rfl
            exact hnot _ (.tail _ (.tail _ (.head _))) (by simp)
          · rintro rfl
            exact hnot _ (.head _) (by simp)
        rw [ihpairs hrest]
        simp [holdsItem_cons hkey, hholds]
      · have hstep : (∀ e ∈ next.out, e.Complete) ↔
            (∀ e ∈ log, e.Complete) ∧ ∀ item, ItemAt document key v item → CompleteItem document item := by
          simp only [List.mem_cons, Prod.mk.injEq, List.not_mem_nil, or_false] at hmem
          rcases hmem with ⟨rfl, rfl⟩ | ⟨rfl, rfl⟩ | ⟨rfl, rfl⟩ | ⟨rfl, rfl⟩
          · simp only [itemAt_configuration hvalue]
            exact ih hnext hzero
          · rw [logSystem_log hnext]
            have hholds : ∀ item, ¬ ItemAt document "system".toUTF8.toList v item := fun item =>
              not_itemAt (by decide +kernel) (by decide +kernel)
            simp only [hholds, false_implies, implies_true, and_true]
          · exact logPlugins_pushed hvalue hnext hzero
          · rw [← Option.some.inj hnext]
            have hholds : ∀ item, ¬ ItemAt document "rules".toUTF8.toList v item := fun item =>
              not_itemAt (by decide +kernel) (by decide +kernel)
            simp only [hholds, false_implies, implies_true, and_true]
        rw [ihpairs hrest, hstep]
        simp [holdsItem_cons hkey, or_imp, forall_and, and_assoc]

/-- **The elements `parse_conf` pushes** have every field set by its parsers
exactly where each item that the node holds is a complete entry. -/
theorem complete_iff {fuel : ℕ} {node : Node} {conf : FullConfiguration} {r : Parsed FullConfiguration}
    (h : parseConf document strtod fresh fuel node errno conf = some r) (hret : r.ret = 0) :
    ∃ log, logConf document strtod fuel node errno [] = some ⟨0, r.errno, log⟩ ∧ Logs conf.plugins r.out log ∧
      ((∀ e ∈ log, e.Complete) ↔ ∀ item, HoldsItem document node item → CompleteItem document item) := by
  obtain ⟨log, hlog, hlogs⟩ := logConf_follows node errno conf [] r (.inl rfl) h
  rw [hret] at hlog
  refine ⟨log, hlog, hlogs, ?_⟩
  have hpushed := logConf_pushed hlog rfl
  simpa using hpushed

end Pushed

/-! ### A name and nothing else -/

open OverlapExample in
theorem complete_overlap : ∃ root r, document.root = some root ∧
    parseConf document strtod (fun _ => blank) 2 root false zero = some r ∧
      ∃ log, logConf document strtod 2 root false [] = some ⟨0, r.errno, log⟩ ∧ Logs zero.plugins r.out log ∧
        ((∀ e ∈ log, e.Complete) ↔ ∀ item, HoldsItem document root item → CompleteItem document item) := by
  have hend : (parseConf document strtod (fun _ => blank) 2 (.mapping [(2, 3)]) false zero).map (·.ret) = some 0 := by
    decide +kernel
  obtain ⟨r, hr, hret⟩ := Option.map_eq_some_iff.mp hend
  exact ⟨.mapping [(2, 3)], r, rfl, hr, complete_iff hr hret⟩

namespace EntryExample

/-- `plugins: [{name: A}]`. -/
def document : Document :=
  ⟨[.mapping [(2, 3)], .scalar "plugins".toUTF8.toList, .sequence [4], .mapping [(5, 6)], .scalar "name".toUTF8.toList,
    .scalar "A".toUTF8.toList]⟩

end EntryExample

/-- The entry is accepted, with the rest as `malloc` left it. -/
theorem not_complete : ¬ ∀ (document : Document) (strtod : List UInt8 → Conversion ℚ) (fresh : ℕ → ConfPlugin) (fuel : ℕ)
    (root : Node) (conf : FullConfiguration) (r : Parsed FullConfiguration) (s : Parsed (List Draft)),
      document.root = some root → parseConf document strtod fresh fuel root false conf = some r → r.ret = 0 →
        logConf document strtod fuel root false [] = some s → ∀ e ∈ s.out, e.Complete := by
  intro h
  have hend : (parseConf EntryExample.document OverlapExample.strtod (fun _ => OverlapExample.blank) 1
      (.mapping [(2, 3)]) false OverlapExample.zero).map (·.ret) = some 0 := by decide +kernel
  have hpushed : (logConf EntryExample.document OverlapExample.strtod 1 (.mapping [(2, 3)]) false []).map (·.out) =
      some [⟨some "A".toUTF8.toList, none, none, none, none⟩] := by decide +kernel
  obtain ⟨r, hr, hret⟩ := Option.map_eq_some_iff.mp hend
  obtain ⟨s, hs, hout⟩ := Option.map_eq_some_iff.mp hpushed
  have hcomplete := h _ _ _ _ _ _ r s rfl hr hret hs
  rw [hout] at hcomplete
  have hpath := (hcomplete _ (List.mem_singleton_self _)).pluginPath
  cases hpath

end Retif
