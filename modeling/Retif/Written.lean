/-
# Which configurations a file can say

The parser of the configuration has no counterpart that writes one. `confDocument`
is what `libyaml` loads from a file that spells a configuration out: every key
once, the numbers as `%ld` prints them, windows and cores as sequences. It is
read back (`confDocument_means`), into whatever the configuration held before and
whatever `malloc` left in the entries. And no file says more: what a document
means (`Means`) is valid and spelled by its own `confDocument` (`means_iff`).

A bound of a window may be negative, as an `int`: it is written as the `long`
that narrows to it (`widen`).

Key definitions: `confDocument`, `Means`, `ConfPlugin.Typed`, `FullConfiguration.Typed`.
Key theorems: `entry_read`, `entries_read`, `confDocument_means`, `parseConf_typed`, `means_iff`.
-/
import Retif.Cycles
import Retif.Lib.Decimal

namespace Retif

open CString

/-! ### What is written -/

/-- The first `long` from 0 on that is stored as `c`. -/
def widen (c : ℤ) : ℤ := c % 2 ^ 32

/-- The nodes of an entry, the first of them at `base`. -/
def entryNodes (base : ℕ) (p : ConfPlugin) : List Node :=
  [.mapping [(base + 1, base + 2), (base + 3, base + 4), (base + 5, base + 6), (base + 9, base + 10)],
   .scalar "name".toUTF8.toList, .scalar p.name,
   .scalar "plugin".toUTF8.toList, .scalar p.pluginPath,
   .scalar "priority".toUTF8.toList, .sequence [base + 7, base + 8],
   .scalar (printLong (widen p.priorityMin)), .scalar (printLong (widen p.priorityMax)),
   .scalar "cores".toUTF8.toList, .sequence (List.range' (base + 11) p.cores.length)] ++
  p.cores.map fun c => .scalar (printLong c)

/-- The nodes of the entries, one entry behind the other. -/
def entriesNodes : ℕ → List ConfPlugin → List Node
  | _, [] => []
  | base, p :: ps => entryNodes base p ++ entriesNodes (base + (entryNodes base p).length) ps

/-- Where the entries begin. -/
def entryBases : ℕ → List ConfPlugin → List ℕ
  | _, [] => []
  | base, p :: ps => base :: entryBases (base + (entryNodes base p).length) ps

/-- The nodes of the kernel's parameters, with `util` for `sched_max_util`. -/
def systemNodes (util : List UInt8) (conf : FullConfiguration) : List Node :=
  [.scalar "rr_timeslice".toUTF8.toList, .scalar (printLong conf.rrTimeslice),
   .scalar "sched_max_util".toUTF8.toList, .scalar util]

/-- The key of the entries, their list, and the entries. -/
def pluginsNodes (base : ℕ) (ps : List ConfPlugin) : List Node :=
  [.scalar "plugins".toUTF8.toList, .sequence (entryBases (base + 2) ps)] ++ entriesNodes (base + 2) ps

/-- The document of a configuration. -/
def confDocument (util : List UInt8) (conf : FullConfiguration) : Document where
  nodes :=
    [.mapping [(2, 3)], .scalar "configuration".toUTF8.toList, .mapping [(4, 5), (10, 11)],
     .scalar "system".toUTF8.toList, .mapping [(6, 7), (8, 9)]] ++
    (systemNodes util conf ++ pluginsNodes 10 conf.plugins)

/-! ### What a document means -/

/-- The document is read as `conf`, whatever was there before. -/
def Means (numProcs : ℕ) (strtod : List UInt8 → Conversion ℚ) (document : Document) (conf : FullConfiguration) : Prop :=
  ∀ fresh conf₀, ∃ fuel, parseConfiguration numProcs strtod fresh fuel (some document) false conf₀ = some (0, conf)

/-- A value of type `int`. -/
def IsInt (c : ℤ) : Prop := -2 ^ 31 ≤ c ∧ c < 2 ^ 31

/-- A value of type `char *`. -/
def IsText (s : List UInt8) : Prop := ∀ b ∈ s, b ≠ 0

/-- The values of `conf_plugin_t` have their types. -/
structure ConfPlugin.Typed (p : ConfPlugin) : Prop where
  name : IsText p.name
  pluginPath : IsText p.pluginPath
  priorityMin : IsInt p.priorityMin
  priorityMax : IsInt p.priorityMax
  cores : ∀ c ∈ p.cores, IsInt c

/-- `strtod` reads `s` as `u`, and all is well. -/
def ReadsUtil (strtod : List UInt8 → Conversion ℚ) (s : List UInt8) (u : ℚ) : Prop := strtod (CString.cstr s) = ⟨u, true, false⟩

/-- The values of `configuration_t` have their types; `sched_max_util` is one that `strtod` gives. -/
structure FullConfiguration.Typed (strtod : List UInt8 → Conversion ℚ) (conf : FullConfiguration) : Prop where
  rrTimeslice : -2 ^ 63 ≤ conf.rrTimeslice ∧ conf.rrTimeslice < 2 ^ 63
  schedMaxUtil : ∃ s, ReadsUtil strtod s conf.schedMaxUtil
  plugins : ∀ p ∈ conf.plugins, p.Typed

/-! ### Nodes in a row -/

/-- The nodes are in the document, the first of them at `base`. -/
def Document.Has (document : Document) (base : ℕ) (nodes : List Node) : Prop :=
  ∀ j node, nodes[j]? = some node → document.node (base + j) = some node

section Has

variable {document : Document} {base : ℕ} {before after : List Node}

theorem Document.Has.left (h : document.Has base (before ++ after)) : document.Has base before := by
  intro j node hj
  refine h j node ?_
  rw [List.getElem?_append_left (List.getElem?_eq_some_iff.mp hj).1]
  exact hj

theorem Document.Has.right (h : document.Has base (before ++ after)) : document.Has (base + before.length) after := by
  intro j node hj
  rw [Nat.add_assoc]
  refine h (before.length + j) node ?_
  rw [List.getElem?_append_right (Nat.le_add_right ..), Nat.add_sub_cancel_left]
  exact hj

theorem Document.Has.tail {node : Node} (h : document.Has base (node :: after)) : document.Has (base + 1) after := by
  have hsplit : document.Has base ([node] ++ after) := h
  exact hsplit.right

/-- A document has its nodes, from 1 on. -/
theorem has_nodes (document : Document) : document.Has 1 document.nodes := by
  intro j node hj
  unfold Document.node
  rw [if_neg (by omega), Nat.add_sub_cancel_left]
  exact hj

end Has

/-! ### Reading what is written -/

section Read

variable {document : Document} {strtod : List UInt8 → Conversion ℚ}

theorem stringToLong_printLong {v : ℤ} (h : -2 ^ 63 ≤ v ∧ v < 2 ^ 63) :
    stringToLong (printLong v) false = (.ok v, false) := by
  simp [stringToLong, strtol_printLong h, converted]

theorem yamlGetLong_printLong {v : ℤ} (h : -2 ^ 63 ≤ v ∧ v < 2 ^ 63) :
    yamlGetLong (.scalar (printLong v)) false = (.ok v, false) := by
  simp [yamlGetLong, yamlGetString, cstr_printLong, stringToLong_printLong h]

theorem IsInt.long {c : ℤ} (h : IsInt c) : -2 ^ 63 ≤ c ∧ c < 2 ^ 63 := by
  obtain ⟨hlo, hhi⟩ := h
  constructor <;> omega

theorem IsInt.narrow_eq {c : ℤ} (h : IsInt c) : narrow c = c := by
  obtain ⟨hlo, hhi⟩ := h
  unfold narrow
  rw [Int.bmod_eq_of_le] <;> omega

theorem widen_bounds (c : ℤ) : 0 ≤ widen c ∧ widen c < 2 ^ 32 := by
  unfold widen
  omega

theorem IsInt.narrow_widen {c : ℤ} (h : IsInt c) : narrow (widen c) = c := by
  have hbmod : Int.bmod (c % ((2 ^ 32 : ℕ) : ℤ)) (2 ^ 32) = Int.bmod c (2 ^ 32) := Int.emod_bmod ..
  unfold widen
  exact hbmod.trans h.narrow_eq

theorem IsText.cstr_eq {s : List UInt8} (h : IsText s) : CString.cstr s = s := cstr_eq_self h

/-- A pair that the table knows, and whose value is taken. -/
theorem parsePairs_taken {α : Type} {keys : List (List UInt8 × Parser α)} {k v : ℕ} {pairs : List (ℕ × ℕ)}
    {errno errno' : Bool} {out out' : α} {key : List UInt8} {parser : Parser α} {value : Node}
    (hkey : document.node k = some (.scalar key)) (htext : CString.cstr key = key) (hvalue : document.node v = some value)
    (hfind : keys.find? (·.1 == key) = some (key, parser)) (hp : parser value errno out = some ⟨0, errno', out'⟩) :
    parsePairs document keys ((k, v) :: pairs) errno out = parsePairs document keys pairs errno' out' := by
  have hname : keyText document k = some key := by
    have hstring : yamlGetString (.scalar key) = .ok key := congrArg _ htext
    simp only [keyText, hkey, Option.bind_some, hstring]
    rfl
  rw [parsePairs_known hname hfind hvalue, hp]
  rfl

theorem coresItems_read {cs cores : List ℤ} {base : ℕ} (hcs : ∀ c ∈ cs, IsInt c)
    (h : document.Has base (cs.map fun c => .scalar (printLong c))) :
    coresItems document (List.range' base cs.length) false cores = some (false, cores ++ cs) := by
  induction cs generalizing base cores with
  | nil => simp [coresItems]
  | cons c cs ih =>
    have hc := hcs c (List.mem_cons_self ..)
    have hnode : document.node base = some (.scalar (printLong c)) := h 0 _ rfl
    rw [List.length_cons, List.range'_succ]
    unfold coresItems
    simp only [hnode, Option.bind_eq_bind, Option.bind_some, yamlGetLong_printLong hc.long, hc.narrow_eq]
    rw [ih (fun d hd => hcs d (List.mem_cons_of_mem _ hd)) h.tail, List.append_assoc]
    rfl

/-- The table of `parse_conf_plugins_item`. -/
def entryKeys (document : Document) : List (List UInt8 × Parser ConfPlugin) :=
  [("name".toUTF8.toList, parseConfPluginsItemName),
   ("plugin".toUTF8.toList, parseConfPluginsItemPluginPath),
   ("priority".toUTF8.toList, parseConfPluginsItemPriority document),
   ("cores".toUTF8.toList, parseConfPluginsItemCores document)]

theorem entryKeys_nodup : ((entryKeys document).map Prod.fst).Nodup := keys_nodup

/-- **An entry is read back**, over anything. -/
theorem entry_read {p fresh : ConfPlugin} {base : ℕ} (hp : p.Typed) (h : document.Has base (entryNodes base p)) :
    ∃ node, document.node base = some node ∧ parseConfPluginsItem document node false fresh = some ⟨0, false, p⟩ := by
  have hname : parseConfPluginsItemName (.scalar p.name) false fresh = some ⟨0, false, { fresh with name := p.name }⟩ := by
    simp only [parseConfPluginsItemName, yamlGetString, hp.name.cstr_eq, stored]
  have hpath : parseConfPluginsItemPluginPath (.scalar p.pluginPath) false { fresh with name := p.name } =
      some ⟨0, false, { fresh with name := p.name, pluginPath := p.pluginPath }⟩ := by
    simp only [parseConfPluginsItemPluginPath, yamlGetString, hp.pluginPath.cstr_eq, stored]
  have hpriority : parseConfPluginsItemPriority document (.sequence [base + 7, base + 8]) false
      { fresh with name := p.name, pluginPath := p.pluginPath } = some ⟨0, false, { p with cores := fresh.cores }⟩ := by
    have hmin : document.node (base + 7) = some (.scalar (printLong (widen p.priorityMin))) := h.left 7 _ rfl
    have hmax : document.node (base + 8) = some (.scalar (printLong (widen p.priorityMax))) := h.left 8 _ rfl
    have hlo := widen_bounds p.priorityMin
    have hhi := widen_bounds p.priorityMax
    simp only [parseConfPluginsItemPriority, parsePrioritySequence, hmin, hmax, Option.bind_eq_bind, Option.bind_some,
      yamlGetLong_printLong (v := widen p.priorityMin) (by omega),
      yamlGetLong_printLong (v := widen p.priorityMax) (by omega), if_true, setPriority]
    rw [if_neg (by omega), hp.priorityMin.narrow_widen, hp.priorityMax.narrow_widen]
  have hcores : parseConfPluginsItemCores document (.sequence (List.range' (base + 11) p.cores.length)) false
      { p with cores := fresh.cores } = some ⟨0, false, p⟩ := by
    have hread := @coresItems_read document p.cores [] (base + 11) hp.cores h.right
    simp [parseConfPluginsItemCores, hread]
  refine ⟨_, h.left 0 _ rfl, ?_⟩
  show parsePairs document (entryKeys document) _ false fresh = _
  rw [parsePairs_taken (h.left 1 _ rfl) (by decide +kernel) (h.left 2 _ rfl)
      (find_of_mem entryKeys_nodup (.head _)) hname,
    parsePairs_taken (h.left 3 _ rfl) (by decide +kernel) (h.left 4 _ rfl)
      (find_of_mem entryKeys_nodup (.tail _ (.head _))) hpath,
    parsePairs_taken (h.left 5 _ rfl) (by decide +kernel) (h.left 6 _ rfl)
      (find_of_mem entryKeys_nodup (.tail _ (.tail _ (.head _)))) hpriority,
    parsePairs_taken (h.left 9 _ rfl) (by decide +kernel) (h.left 10 _ rfl)
      (find_of_mem entryKeys_nodup (.tail _ (.tail _ (.tail _ (.head _))))) hcores]
  rfl

/-- **The entries are read back**, in their order. -/
theorem entries_read {ps vector : List ConfPlugin} {fresh : ℕ → ConfPlugin} {base i : ℕ} (hps : ∀ p ∈ ps, p.Typed)
    (h : document.Has base (entriesNodes base ps)) :
    parseItems document (parseConfPluginsItem document) fresh (entryBases base ps) i false vector =
      some ⟨0, false, vector ++ ps⟩ := by
  induction ps generalizing base i vector with
  | nil => simp [entryBases, parseItems]
  | cons p ps ih =>
    obtain ⟨node, hnode, hread⟩ := @entry_read document p (fresh i) base (hps p (List.mem_cons_self ..)) h.left
    unfold entryBases parseItems
    simp only [hnode, hread, Option.bind_eq_bind, Option.bind_some, ne_eq, not_true_eq_false, if_false]
    rw [ih (fun q hq => hps q (List.mem_cons_of_mem _ hq)) h.right, List.append_assoc]
    rfl

/-- The table of `parse_conf_system`. -/
def systemKeys (strtod : List UInt8 → Conversion ℚ) : List (List UInt8 × Parser FullConfiguration) :=
  [("rr_timeslice".toUTF8.toList, parseConfSystemRrTimeslice),
   ("sched_max_util".toUTF8.toList, parseConfSystemSchedMaxUtil strtod)]

theorem systemKeys_nodup : ((systemKeys strtod).map Prod.fst).Nodup := by
  show List.Nodup ["rr_timeslice".toUTF8.toList, "sched_max_util".toUTF8.toList]
  decide +kernel

/-- The part of the kernel's parameters. -/
theorem system_read {base : ℕ} {util : List UInt8} {conf conf₀ : FullConfiguration}
    (htime : -2 ^ 63 ≤ conf.rrTimeslice ∧ conf.rrTimeslice < 2 ^ 63) (hutil : ReadsUtil strtod util conf.schedMaxUtil)
    (h : document.Has base (systemNodes util conf)) :
    parseConfSystem document strtod (.mapping [(base, base + 1), (base + 2, base + 3)]) false conf₀ =
      some ⟨0, false, { conf with plugins := conf₀.plugins }⟩ := by
  have hslice : parseConfSystemRrTimeslice (.scalar (printLong conf.rrTimeslice)) false conf₀ =
      some ⟨0, false, { conf₀ with rrTimeslice := conf.rrTimeslice }⟩ := by
    simp only [parseConfSystemRrTimeslice, yamlGetLong_printLong htime, stored]
  have hmax : parseConfSystemSchedMaxUtil strtod (.scalar util) false { conf₀ with rrTimeslice := conf.rrTimeslice } =
      some ⟨0, false, { conf with plugins := conf₀.plugins }⟩ := by
    unfold ReadsUtil at hutil
    simp [parseConfSystemSchedMaxUtil, yamlGetDouble, yamlGetString, hutil, converted, stored]
  have hfirst : document.node base = some (.scalar "rr_timeslice".toUTF8.toList) := h 0 _ rfl
  show parsePairs document (systemKeys strtod) _ false conf₀ = _
  rw [parsePairs_taken hfirst (by decide +kernel) (h 1 _ rfl) (find_of_mem systemKeys_nodup (.head _)) hslice,
    parsePairs_taken (h 2 _ rfl) (by decide +kernel) (h 3 _ rfl)
      (find_of_mem systemKeys_nodup (.tail _ (.head _))) hmax]
  rfl

theorem plugins_read {base : ℕ} {fresh : ℕ → ConfPlugin} {conf conf₀ : FullConfiguration}
    (hps : ∀ p ∈ conf.plugins, p.Typed) (h : document.Has base (pluginsNodes base conf.plugins)) :
    parseConfPlugins document fresh (.sequence (entryBases (base + 2) conf.plugins)) false conf₀ =
      some ⟨0, false, { conf₀ with plugins := conf.plugins }⟩ := by
  have hread := @entries_read document conf.plugins [] fresh (base + 2) 0 hps h.right
  simp [parseConfPlugins, yamlParseList, hread]

end Read

/-- **A configuration is read back** from what is written of it, over anything. -/
theorem parseConf_confDocument {strtod : List UInt8 → Conversion ℚ} {util : List UInt8} {conf conf₀ : FullConfiguration}
    {fresh : ℕ → ConfPlugin} (hT : conf.Typed strtod) (hutil : ReadsUtil strtod util conf.schedMaxUtil) :
    ∃ root, (confDocument util conf).root = some root ∧
      parseConf (confDocument util conf) strtod fresh 2 root false conf₀ = some ⟨0, false, conf⟩ := by
  have hall : (confDocument util conf).Has 1 (confDocument util conf).nodes := has_nodes _
  have hsystem : parseConfSystem (confDocument util conf) strtod (.mapping [(6, 7), (8, 9)]) false conf₀ =
      some ⟨0, false, { conf with plugins := conf₀.plugins }⟩ := system_read hT.rrTimeslice hutil hall.right.left
  have hplugins : parseConfPlugins (confDocument util conf) fresh (.sequence (entryBases 12 conf.plugins)) false
      { conf with plugins := conf₀.plugins } = some ⟨0, false, conf⟩ := plugins_read hT.plugins hall.right.right
  have hkey : (confDocument util conf).node 10 = some (.scalar "plugins".toUTF8.toList) := hall.right.right.left 0 _ rfl
  have hlist : (confDocument util conf).node 11 = some (.sequence (entryBases 12 conf.plugins)) :=
    hall.right.right.left 1 _ rfl
  have hinner : parseConf (confDocument util conf) strtod fresh 1 (.mapping [(4, 5), (10, 11)]) false conf₀ =
      some ⟨0, false, conf⟩ := by
    rw [parseConf_mapping, parsePairs_taken (hall.left 3 _ rfl) (by decide +kernel) (hall.left 4 _ rfl)
        (find_of_mem confKeys_nodup (.tail _ (.head _))) hsystem,
      parsePairs_taken hkey (by decide +kernel) hlist (find_of_mem confKeys_nodup (.tail _ (.tail _ (.head _))))
        hplugins]
    rfl
  refine ⟨_, rfl, ?_⟩
  rw [parseConf_mapping, parsePairs_taken (hall.left 1 _ rfl) (by decide +kernel) (hall.left 2 _ rfl)
    (find_of_mem confKeys_nodup (.head _)) hinner]
  rfl

/-- A typed and valid configuration is what the file written of it means. -/
theorem confDocument_means {numProcs : ℕ} {strtod : List UInt8 → Conversion ℚ} {util : List UInt8}
    {conf : FullConfiguration} (hT : conf.Typed strtod) (hutil : ReadsUtil strtod util conf.schedMaxUtil)
    (hvalid : configurationValid numProcs conf.toConfiguration = true) :
    Means numProcs strtod (confDocument util conf) conf := by
  intro fresh conf₀
  obtain ⟨root, hroot, hread⟩ := @parseConf_confDocument strtod util conf conf₀ fresh hT hutil
  refine ⟨2, ?_⟩
  simp [parseConfiguration, hroot, hread, hvalid]

/-! ### What is read has its type -/

section Keeps

variable {α : Type} {P : α → Prop}

/-- What the parser leaves has `P` if what it was given has it. -/
def Parser.Keeps (P : α → Prop) (p : Parser α) : Prop :=
  ∀ node errno out r, P out → p node errno out = some r → P r.out

/-- One structure, with `P`. -/
def Same (P : α → Prop) (a b : α) : Prop := P a ∧ a = b

theorem Parser.Keeps.follows {p : Parser α} (h : p.Keeps P) : p.Follows (Same P) p := by
  rintro node errno a _ r ⟨ha, rfl⟩ hp
  exact ⟨r.out, hp, h node errno a r ha hp, rfl⟩

theorem mapping_keeps {document : Document} {keys : List (List UInt8 × Parser α)} (h : ∀ k ∈ keys, k.2.Keeps P) :
    (yamlParseMapping document keys).Keeps P := by
  intro node errno out r hout hp
  have hkeys : TableFollows (Same P) keys keys :=
    List.forall₂_same.mpr fun k hk => ⟨rfl, (h k hk).follows⟩
  obtain ⟨-, -, hP, -⟩ := yamlParseMapping_follows hkeys node errno out out r ⟨hout, rfl⟩ hp
  exact hP

theorem list_keeps {document : Document} {p : Parser α} {fresh : ℕ → α} (h : p.Keeps P) (hfresh : ∀ i, P (fresh i))
    {node : Node} {errno : Bool} {r : Parsed (List α)} (hp : yamlParseList document p fresh node errno [] = some r) :
    ∀ a ∈ r.out, P a := by
  obtain ⟨out, -, hall⟩ := yamlParseList_follows h.follows (fun i => ⟨hfresh i, rfl⟩) node errno [] [] r .nil hp
  exact (List.forall₂_and_left r.out out |>.mp hall).1

theorem stored_keeps {β : Type} {set : α → β → α} (get : Node → Bool → Except ℕ β × Bool)
    (hset : ∀ out node errno v e, P out → get node errno = (.ok v, e) → P (set out v)) :
    Parser.Keeps P fun node errno out => stored out (set out) (get node errno) := by
  intro node errno out r hout h
  rcases hget : get node errno with ⟨ret | v, e⟩ <;> simp only [hget, stored, Option.some.injEq] at h <;> subst h
  · exact hout
  · exact hset out node errno v e hout hget

end Keeps

theorem isText_cstr (s : List UInt8) : IsText (CString.cstr s) := by
  intro b hb
  simpa using List.mem_takeWhile_imp hb

theorem isInt_narrow (v : ℤ) : IsInt (narrow v) := narrow_bounds v

theorem yamlGetString_text {node : Node} {s : List UInt8} (h : yamlGetString node = .ok s) : IsText s := by
  rcases node with value | _ | _
  · obtain rfl := Except.ok.inj h
    exact isText_cstr value
  · cases h
  · cases h

section Entry

variable {document : Document}

theorem setPriority_keeps {min max : ℤ} {errno : Bool} {out : ConfPlugin} {r : Parsed ConfPlugin} (hout : out.Typed)
    (h : setPriority min max errno out = some r) : r.out.Typed := by
  unfold setPriority at h
  split at h
  · obtain rfl := Option.some.inj h
    exact hout
  · obtain rfl := Option.some.inj h
    exact ⟨hout.name, hout.pluginPath, isInt_narrow min, isInt_narrow max, hout.cores⟩

theorem parsePriority_keeps : (parseConfPluginsItemPriority document).Keeps ConfPlugin.Typed := by
  intro node errno out r hout h
  have hsame : ∀ ret e, some ⟨ret, e, out⟩ = some r → r.out.Typed := by
    intro ret e hr
    obtain rfl := Option.some.inj hr
    exact hout
  rcases node with value | items | pairs
  · change parsePriorityScalar _ _ _ = _ at h
    unfold parsePriorityScalar at h
    split at h
    · exact hsame _ _ h
    split at h
    · exact hsame _ _ h
    split at h
    · exact setPriority_keeps hout h
    split at h
    · exact hsame _ _ h
    · exact setPriority_keeps hout h
  · change parsePrioritySequence _ _ _ _ = _ at h
    unfold parsePrioritySequence at h
    split at h
    · exact hsame _ _ h
    obtain ⟨node, -, h⟩ := Option.bind_eq_some_iff.mp h
    split at h
    · exact hsame _ _ h
    split at h
    · exact setPriority_keeps hout h
    obtain ⟨node', -, h⟩ := Option.bind_eq_some_iff.mp h
    split at h
    · exact hsame _ _ h
    split at h
    · exact setPriority_keeps hout h
    · exact hsame _ _ h
  · exact hsame _ _ h

/-- What a value adds to cores of type `int` has that type: a range ends at an `int`. -/
theorem pushCores_ints {inRange : Bool} {cores next : List ℤ} {value : ℤ} (hcores : ∀ c ∈ cores, IsInt c)
    (h : pushCores inRange cores value = some next) : ∀ c ∈ next, IsInt c := by
  unfold pushCores fillRange at h
  split at h
  · obtain ⟨back, hback, h⟩ := Option.bind_eq_some_iff.mp h
    obtain ⟨hlo, hhi⟩ := hcores back (List.mem_of_getLast? hback)
    split at h
    · cases h
    · obtain rfl := Option.some.inj h
      refine List.forall_mem_append.mpr ⟨hcores, ?_⟩
      intro c hc
      have hc := coresAfter_mem hc
      unfold IsInt
      omega
  · obtain rfl := Option.some.inj h
    exact List.forall_mem_append.mpr ⟨hcores, List.forall_mem_singleton.mpr (isInt_narrow value)⟩

theorem coresTokens_ints {ts : List (List UInt8 × Option UInt8)} {inRange errno errno' : Bool} {cores out : List ℤ}
    (hcores : ∀ c ∈ cores, IsInt c) (h : coresTokens ts inRange errno cores = some (errno', out)) :
    ∀ c ∈ out, IsInt c := by
  induction ts generalizing inRange errno cores with
  | nil =>
    simp only [coresTokens, Option.some.injEq, Prod.mk.injEq] at h
    rw [← h.2]
    exact hcores
  | cons head rest ih =>
    obtain ⟨token, d⟩ := head
    have hstop : ∀ {e : Bool} {cs : List ℤ}, (∀ c ∈ cs, IsInt c) → some (e, cs) = some (errno', out) →
        ∀ c ∈ out, IsInt c := by
      intro e cs hcs heq
      obtain ⟨-, rfl⟩ := Prod.mk.inj (Option.some.inj heq)
      exact hcs
    unfold coresTokens at h
    split at h
    · exact hstop hcores h
    · split at h
      · exact hstop hcores h
      · obtain ⟨next, hnext, h⟩ := Option.bind_eq_some_iff.mp h
        have hints := pushCores_ints hcores hnext
        split at h
        · exact ih hints h
        · split at h
          · split at h
            · exact hstop hints h
            · exact ih hints h
          · exact ih hints h

theorem coresItems_ints {items : List ℕ} {errno errno' : Bool} {cores out : List ℤ} (hcores : ∀ c ∈ cores, IsInt c)
    (h : coresItems document items errno cores = some (errno', out)) : ∀ c ∈ out, IsInt c := by
  induction items generalizing errno cores with
  | nil =>
    obtain ⟨-, rfl⟩ := Prod.mk.inj (Option.some.inj h)
    exact hcores
  | cons item items ih =>
    obtain ⟨node, -, h⟩ := Option.bind_eq_some_iff.mp h
    split at h
    · obtain ⟨-, rfl⟩ := Prod.mk.inj (Option.some.inj h)
      exact hcores
    · rename_i value _ _
      exact ih (List.forall_mem_append.mpr ⟨hcores, List.forall_mem_singleton.mpr (isInt_narrow value)⟩) h

theorem parseCores_keeps : (parseConfPluginsItemCores document).Keeps ConfPlugin.Typed := by
  intro node errno out r hout h
  have hcores : ∀ c ∈ r.out.cores, IsInt c := by
    rcases node with value | items | pairs
    · obtain ⟨⟨e, cores⟩, hc, h⟩ := Option.bind_eq_some_iff.mp h
      obtain rfl := Option.some.inj h
      exact coresTokens_ints (by simp) hc
    · obtain ⟨⟨e, cores⟩, hc, h⟩ := Option.bind_eq_some_iff.mp h
      obtain rfl := Option.some.inj h
      exact coresItems_ints (by simp) hc
    · obtain rfl := Option.some.inj h
      simp
  -- the other fields stay
  rw [parseCores_frame] at h
  obtain ⟨r', -, rfl⟩ := Option.map_eq_some_iff.mp h
  exact ⟨hout.name, hout.pluginPath, hout.priorityMin, hout.priorityMax, hcores⟩

theorem item_keeps : (parseConfPluginsItem document).Keeps ConfPlugin.Typed := by
  apply mapping_keeps
  simp only [List.forall_mem_cons, List.not_mem_nil, false_implies, implies_true, and_true]
  refine ⟨?_, ?_, parsePriority_keeps, parseCores_keeps⟩
  · refine stored_keeps (fun node errno => (yamlGetString node, errno)) ?_
    intro out node errno s e hout hget
    exact ⟨yamlGetString_text (Prod.mk.inj hget).1, hout.pluginPath, hout.priorityMin, hout.priorityMax, hout.cores⟩
  · refine stored_keeps (fun node errno => (yamlGetString node, errno)) ?_
    intro out node errno s e hout hget
    exact ⟨hout.name, yamlGetString_text (Prod.mk.inj hget).1, hout.priorityMin, hout.priorityMax, hout.cores⟩

end Entry

/-- The configuration has its types, where `u₀` is the `sched_max_util` it had at first. -/
structure FullConfiguration.TypedOver (strtod : List UInt8 → Conversion ℚ) (u₀ : ℚ) (conf : FullConfiguration) : Prop where
  rrTimeslice : -2 ^ 63 ≤ conf.rrTimeslice ∧ conf.rrTimeslice < 2 ^ 63
  schedMaxUtil : conf.schedMaxUtil = u₀ ∨ ∃ s, ReadsUtil strtod s conf.schedMaxUtil
  plugins : ∀ p ∈ conf.plugins, p.Typed

section Whole

variable {document : Document} {strtod : List UInt8 → Conversion ℚ} {u₀ : ℚ} {fresh : ℕ → ConfPlugin}

theorem yamlGetLong_long {node : Node} {errno e : Bool} {v : ℤ} (h : yamlGetLong node errno = (.ok v, e)) :
    -2 ^ 63 ≤ v ∧ v < 2 ^ 63 := by
  unfold yamlGetLong at h
  split at h
  · cases h
  · rw [stringToLong_ok h]
    exact strtol_long _

theorem yamlGetDouble_util {node : Node} {errno e : Bool} {v : ℚ} (h : yamlGetDouble strtod node errno = (.ok v, e)) :
    ∃ s, ReadsUtil strtod s v := by
  rcases node with value | _ | _
  · refine ⟨value, ?_⟩
    simp only [yamlGetDouble, yamlGetString, converted] at h
    unfold ReadsUtil
    generalize strtod (CString.cstr value) = c at h
    obtain ⟨u, used, range⟩ := c
    split_ifs at h with hrange hused
    · cases h
    · cases h
    · simp only [Bool.or_eq_true, not_or, Bool.not_eq_true] at hrange
      simp only [Prod.mk.injEq, Except.ok.injEq] at h
      simp_all
  · cases h
  · cases h

theorem system_keeps : (parseConfSystem document strtod).Keeps (FullConfiguration.TypedOver strtod u₀) := by
  apply mapping_keeps
  simp only [List.forall_mem_cons, List.not_mem_nil, false_implies, implies_true, and_true]
  constructor
  · refine stored_keeps yamlGetLong ?_
    intro out node errno v e hout hget
    exact ⟨yamlGetLong_long hget, hout.schedMaxUtil, hout.plugins⟩
  · refine stored_keeps (yamlGetDouble strtod) ?_
    intro out node errno v e hout hget
    exact ⟨hout.rrTimeslice, .inr (yamlGetDouble_util hget), hout.plugins⟩

theorem plugins_keeps (hfresh : ∀ i, (fresh i).Typed) :
    (parseConfPlugins document fresh).Keeps (FullConfiguration.TypedOver strtod u₀) := by
  intro node errno out r hout h
  obtain ⟨r', hr', h⟩ := Option.bind_eq_some_iff.mp h
  obtain rfl := Option.some.inj h
  exact ⟨hout.rrTimeslice, hout.schedMaxUtil, list_keeps item_keeps hfresh hr'⟩

/-- **What is read has its type**, to whatever depth `configuration` is nested. -/
theorem parseConf_typed (hfresh : ∀ i, (fresh i).Typed) {fuel : ℕ} :
    (parseConf document strtod fresh fuel).Keeps (FullConfiguration.TypedOver strtod u₀) := by
  induction fuel with
  | zero =>
    intro node errno out r _ h
    cases h
  | succ fuel ih =>
    apply mapping_keeps
    simp only [List.forall_mem_cons, List.not_mem_nil, false_implies, implies_true, and_true]
    refine ⟨ih, system_keeps, plugins_keeps hfresh, ?_⟩
    intro node errno out r hout h
    obtain rfl := Option.some.inj h
    exact hout

end Whole

/-- What a document means has its types, and is valid. -/
theorem Means.typed {numProcs : ℕ} {strtod : List UInt8 → Conversion ℚ} {document : Document} {conf : FullConfiguration}
    (h : Means numProcs strtod document conf) :
    configurationValid numProcs conf.toConfiguration = true ∧ conf.Typed strtod := by
  -- read over a `sched_max_util` that is not the one meant
  have hfresh : (⟨[], [], 0, 0, []⟩ : ConfPlugin).Typed := by
    refine ⟨by simp [IsText], by simp [IsText], by simp [IsInt], by simp [IsInt], by simp⟩
  have hempty : (⟨⟨conf.schedMaxUtil + 1, []⟩, 0⟩ : FullConfiguration).TypedOver strtod (conf.schedMaxUtil + 1) := by
    refine ⟨by norm_num, .inl rfl, by simp⟩
  obtain ⟨fuel, hparse⟩ := h (fun _ => ⟨[], [], 0, 0, []⟩) ⟨⟨conf.schedMaxUtil + 1, []⟩, 0⟩
  obtain ⟨root, -, hparse⟩ := Option.bind_eq_some_iff.mp hparse
  obtain ⟨r, hr, hparse⟩ := Option.bind_eq_some_iff.mp hparse
  have hover := parseConf_typed (fun _ => hfresh) root false _ r hempty hr
  split at hparse
  · rename_i hret
    exact absurd (Prod.mk.inj (Option.some.inj hparse)).1 hret
  split at hparse
  · rename_i hvalid
    obtain ⟨-, rfl⟩ := Prod.mk.inj (Option.some.inj hparse)
    refine ⟨hvalid, hover.rrTimeslice, hover.schedMaxUtil.resolve_left ?_, hover.plugins⟩
    intro heq
    linarith
  · cases hparse

/-- **A file can say exactly the valid configurations**: if a configuration is
meant by some document, it is read back from the one written of it, whatever
the structures held before; and this is the case for every configuration that
passes the checks and whose values have the types of its fields. -/
theorem means_iff (numProcs : ℕ) (strtod : List UInt8 → Conversion ℚ) (conf : FullConfiguration) :
    ((∃ document, Means numProcs strtod document conf) ↔
      ∃ util, Means numProcs strtod (confDocument util conf) conf) ∧
    ((∃ util, Means numProcs strtod (confDocument util conf) conf) ↔
      configurationValid numProcs conf.toConfiguration = true ∧ conf.Typed strtod) := by
  have hwritten : configurationValid numProcs conf.toConfiguration = true ∧ conf.Typed strtod →
      ∃ util, Means numProcs strtod (confDocument util conf) conf := by
    rintro ⟨hvalid, hT⟩
    obtain ⟨util, hutil⟩ := hT.schedMaxUtil
    exact ⟨util, confDocument_means hT hutil hvalid⟩
  refine ⟨⟨?_, ?_⟩, ?_, hwritten⟩
  · rintro ⟨document, h⟩
    exact hwritten h.typed
  · rintro ⟨util, h⟩
    exact ⟨_, h⟩
  · rintro ⟨util, h⟩
    exact h.typed

end Retif
