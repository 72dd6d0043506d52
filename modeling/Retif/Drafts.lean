/-
# What a plugin entry leaves unset

`yaml_parse_list` gives each plugin entry a record that `malloc` has not
cleared, and `yaml_parse_mapping` is content with any keys. Here the parsers of
an entry work on a record whose fields are `none` until they are set; laid over
what `malloc` left they are those of `Parse` (`item_follows`).

A field is set exactly where the entry has its key (`item_complete`). A core is
listed exactly where the last `cores` of the entry begins with one, as long as
no number of an earlier `cores` was out of the range of a `long`: `errno` would
stay set, and `string_to_long` accept nothing any more.

Key definitions: `Draft`, `Draft.Complete`, `Draft.item`, `CompleteEntry`.
Key theorems: `item_follows`, `draft_field`, `draft_cores`, `item_complete`.
-/
import Retif.CoreLists

namespace Retif

open CString

/-! ### Records with unset fields -/

/-- `conf_plugin_t`; `none` is a field no parser has written. -/
structure Draft where
  name : Option (List UInt8)
  pluginPath : Option (List UInt8)
  priorityMin : Option ℤ
  priorityMax : Option ℤ
  cores : Option (List ℤ)
deriving DecidableEq

/-- A record as `malloc` gives it. -/
def Draft.unset : Draft := ⟨none, none, none, none, none⟩

/-- The record in memory, when `malloc` left `garbage`. -/
def Draft.over (e : Draft) (garbage : ConfPlugin) : ConfPlugin where
  name := e.name.getD garbage.name
  pluginPath := e.pluginPath.getD garbage.pluginPath
  priorityMin := e.priorityMin.getD garbage.priorityMin
  priorityMax := e.priorityMax.getD garbage.priorityMax
  cores := e.cores.getD garbage.cores

/-- A core is listed. -/
def Draft.Listed (e : Draft) : Prop := ∃ cores, e.cores = some cores ∧ cores ≠ []

/-- **Every field is set**, the cores to some core at least. -/
structure Draft.Complete (e : Draft) : Prop where
  name : e.name.isSome
  pluginPath : e.pluginPath.isSome
  priorityMin : e.priorityMin.isSome
  priorityMax : e.priorityMax.isSome
  cores : e.Listed

/-- A record the parsers of `Parse` can start from; they do not read it. -/
def scratch : ConfPlugin := ⟨[], [], 0, 0, []⟩

namespace Draft

def itemName : Parser Draft := fun node errno e =>
  stored e (fun s => { e with name := some s }) (yamlGetString node, errno)

def itemPluginPath : Parser Draft := fun node errno e =>
  stored e (fun s => { e with pluginPath := some s }) (yamlGetString node, errno)

def itemPriority (document : Document) : Parser Draft := fun node errno e =>
  (parseConfPluginsItemPriority document node errno scratch).map fun r =>
    ⟨r.ret, r.errno,
      if r.ret = 0 then { e with priorityMin := some r.out.priorityMin, priorityMax := some r.out.priorityMax } else e⟩

def itemCores (document : Document) : Parser Draft := fun node errno e =>
  (parseConfPluginsItemCores document node errno scratch).map fun r =>
    ⟨r.ret, r.errno, { e with cores := some r.out.cores }⟩

/-- The table of `parse_conf_plugins_item`. -/
def keys (document : Document) : List (List UInt8 × Parser Draft) :=
  [("name".toUTF8.toList, itemName), ("plugin".toUTF8.toList, itemPluginPath),
   ("priority".toUTF8.toList, itemPriority document), ("cores".toUTF8.toList, itemCores document)]

/-- `parse_conf_plugins_item`. -/
def item (document : Document) : Parser Draft := yamlParseMapping document (keys document)

end Draft

/-- The record in memory is the entry over some garbage. -/
def Over (c : ConfPlugin) (e : Draft) : Prop := ∃ garbage, c = e.over garbage

section Frames

variable {document : Document} {node : Node} {errno : Bool}

/-- What a result of the parser of priorities makes of another record. -/
def written (out : ConfPlugin) (r : Parsed ConfPlugin) : Parsed ConfPlugin :=
  ⟨r.ret, r.errno,
    if r.ret = 0 then { out with priorityMin := r.out.priorityMin, priorityMax := r.out.priorityMax } else out⟩

theorem written_error {ret : ℕ} (hret : ret ≠ 0) (out out' : ConfPlugin) :
    written out ⟨ret, errno, out'⟩ = ⟨ret, errno, out⟩ := by
  simp [written, hret]

theorem setPriority_frame (min max : ℤ) (out : ConfPlugin) :
    setPriority min max errno out = (setPriority min max errno scratch).map (written out) := by
  unfold setPriority written
  split <;> simp

theorem stringToLong_error {s : List UInt8} {ret : ℕ} {e : Bool} (h : stringToLong s errno = (.error ret, e)) :
    ret ≠ 0 := by
  unfold stringToLong converted at h
  split_ifs at h <;> simp only [Prod.mk.injEq, Except.error.injEq, reduceCtorEq, false_and] at h <;> omega

theorem yamlGetLong_error {ret : ℕ} {e : Bool} (h : yamlGetLong node errno = (.error ret, e)) : ret ≠ 0 := by
  rcases node with value | _ | _
  · exact stringToLong_error h
  · cases h
    decide
  · cases h
    decide

/-- The parser of priorities writes the two priorities, and only when it returns 0. -/
theorem parsePriority_frame (out : ConfPlugin) :
    parseConfPluginsItemPriority document node errno out =
      (parseConfPluginsItemPriority document node errno scratch).map (written out) := by
  rcases node with value | items | pairs
  · simp only [parseConfPluginsItemPriority, parsePriorityScalar]
    rcases tokens "-".toUTF8.toList (cstr value) with _ | ⟨⟨first, d⟩, rest⟩
    · rfl
    · dsimp only
      rcases hfirst : stringToLong first errno with ⟨ret | min, e⟩
      · simp [written_error (stringToLong_error hfirst)]
      · rcases rest with _ | ⟨⟨second, d'⟩, more⟩
        · exact setPriority_frame min min out
        · dsimp only
          rcases hsecond : stringToLong second e with ⟨ret | max, e⟩
          · simp [written_error (stringToLong_error hsecond)]
          · exact setPriority_frame min max out
  · simp only [parseConfPluginsItemPriority, parsePrioritySequence]
    rcases items with _ | ⟨first, rest⟩
    · rfl
    · dsimp only
      rcases hnode : document.node first with _ | node
      · rfl
      · simp only [Option.bind_eq_bind, Option.bind_some]
        rcases hfirst : yamlGetLong node errno with ⟨ret | min, e⟩
        · simp [written_error (yamlGetLong_error hfirst)]
        · rcases rest with _ | ⟨second, more⟩
          · exact setPriority_frame min min out
          · dsimp only
            rcases hnode' : document.node second with _ | node'
            · rfl
            · simp only [Option.bind_some]
              rcases hsecond : yamlGetLong node' e with ⟨ret | max, e⟩
              · simp [written_error (yamlGetLong_error hsecond)]
              · dsimp only
                split
                · exact setPriority_frame min max out
                · rfl
  · rfl

/-- The parser of cores writes the cores. -/
theorem parseCores_frame (out : ConfPlugin) :
    parseConfPluginsItemCores document node errno out =
      (parseConfPluginsItemCores document node errno scratch).map fun r =>
        ⟨r.ret, r.errno, { out with cores := r.out.cores }⟩ := by
  rcases node with value | items | pairs
  · simp only [parseConfPluginsItemCores]
    rcases coresTokens (tokens ",-".toUTF8.toList (cstr value)) false errno [] with _ | ⟨e, cores⟩ <;> rfl
  · simp only [parseConfPluginsItemCores]
    rcases coresItems document items errno [] with _ | ⟨e, cores⟩ <;> rfl
  · rfl

/-- **The parsers of an entry** leave unset what they leave as `malloc` gave it. -/
theorem item_follows : (parseConfPluginsItem document).Follows Over (Draft.item document) := by
  apply yamlParseMapping_follows
  refine .cons ⟨rfl, ?_⟩ (.cons ⟨rfl, ?_⟩ (.cons ⟨rfl, ?_⟩ (.cons ⟨rfl, ?_⟩ .nil)))
  · apply stored_follows fun node errno => (yamlGetString node, errno)
    rintro _ e s ⟨garbage, rfl⟩
    exact ⟨garbage, rfl⟩
  · apply stored_follows fun node errno => (yamlGetString node, errno)
    rintro _ e s ⟨garbage, rfl⟩
    exact ⟨garbage, rfl⟩
  · rintro node errno _ e r ⟨garbage, rfl⟩ h
    have hframe : parseConfPluginsItemPriority document node errno (e.over garbage) = some r := h
    rw [parsePriority_frame] at hframe
    obtain ⟨r', hr', rfl⟩ := Option.map_eq_some_iff.mp hframe
    have hitem : Draft.itemPriority document node errno e = some ⟨r'.ret, r'.errno, if r'.ret = 0 then
        { e with priorityMin := some r'.out.priorityMin, priorityMax := some r'.out.priorityMax } else e⟩ := by
      simp only [Draft.itemPriority, hr', Option.map_some]
    refine ⟨_, hitem, garbage, ?_⟩
    unfold written
    dsimp only
    split <;> rfl
  · rintro node errno _ e r ⟨garbage, rfl⟩ h
    have hframe : parseConfPluginsItemCores document node errno (e.over garbage) = some r := h
    rw [parseCores_frame] at hframe
    obtain ⟨r', hr', rfl⟩ := Option.map_eq_some_iff.mp hframe
    have hitem : Draft.itemCores document node errno e =
        some ⟨r'.ret, r'.errno, { e with cores := some r'.out.cores }⟩ := by
      simp only [Draft.itemCores, hr', Option.map_some]
    exact ⟨_, hitem, garbage, rfl⟩

end Frames

/-! ### Which cores are listed -/

/-- The first thing the parser of cores looks at is a number. -/
def BeginsCores (document : Document) : Node → Prop
  | .scalar value => ∃ t ∈ (tokens ",-".toUTF8.toList (cstr value)).head?, Numeric t.1
  | .sequence items => ∃ item ∈ items.head?, ∃ value, document.node item = some (.scalar value) ∧ Numeric (cstr value)
  | .mapping _ => False

/-- The tokens ascend to one out of the range of a `long`; `last` is the core before them. -/
def TokensOverflow : List (List UInt8 × Option UInt8) → Bool → Option ℤ → Prop
  | [], _, _ => False
  | (token, d) :: rest, inRange, last =>
    let value := (strtol token).value
    (strtol token).range = true ∨
      (Numeric token ∧ ¬ last.any (value ≤ ·) ∧
        (opens d inRange).elim False fun next => TokensOverflow rest next (some (if inRange then value else narrow value)))

/-- Up to an item out of the range of a `long` there are numbers. -/
def ItemsOverflow (document : Document) : List ℕ → Prop
  | [] => False
  | item :: items => ∃ value, document.node item = some (.scalar value) ∧
      ((strtol (cstr value)).range = true ∨ (Numeric (cstr value) ∧ ItemsOverflow document items))

/-- The parser of cores comes to a number out of the range of a `long`, and `errno` stays set. -/
def Overflows (document : Document) : Node → Prop
  | .scalar value => TokensOverflow (tokens ",-".toUTF8.toList (cstr value)) false none
  | .sequence items => ItemsOverflow document items
  | .mapping _ => False

/-- The last of the nodes begins with a core, and none before it overflows. -/
def ListsCore (document : Document) : List Node → Prop
  | [] => False
  | [node] => BeginsCores document node
  | node :: nodes => ¬ Overflows document node ∧ ListsCore document nodes

section Cores

variable {document : Document} {node : Node} {errno : Bool}

/-- A number is read only where `errno` was not set. -/
theorem stringToLong_errno {s : List UInt8} {value : ℤ} {e : Bool} (h : stringToLong s errno = (.ok value, e)) :
    errno = false ∧ e = false ∧ Numeric s := by
  unfold stringToLong converted at h
  split_ifs at h with hrange hused
  · simp at h
  · simp at h
  · simp only [Bool.or_eq_true, not_or, Bool.not_eq_true] at hrange
    simp only [Prod.mk.injEq] at h
    exact ⟨hrange.1, h.2.symm, by simpa using hused, hrange.2⟩

theorem pushCores_extends {inRange : Bool} {cores next : List ℤ} {value : ℤ}
    (h : pushCores inRange cores value = some next) : cores <+: next := by
  unfold pushCores at h
  split at h
  · obtain ⟨back, -, h⟩ := Option.bind_eq_some_iff.mp h
    split at h
    · cases h
    · rw [← Option.some.inj h]
      exact List.prefix_append _ _
  · rw [← Option.some.inj h]
    exact List.prefix_append _ _

/-- No token takes a core away. -/
theorem coresTokens_extends {ts : List (List UInt8 × Option UInt8)} {inRange e : Bool} {cores out : List ℤ}
    (h : coresTokens ts inRange errno cores = some (e, out)) : cores <+: out := by
  induction ts generalizing inRange errno cores with
  | nil =>
    obtain ⟨-, rfl⟩ := Prod.mk.inj (Option.some.inj h)
    exact List.prefix_rfl
  | cons head rest ih =>
    obtain ⟨token, d⟩ := head
    rw [coresTokens_cons] at h
    rcases hconv : stringToLong token errno with ⟨ret | value, e'⟩ <;> rw [hconv] at h <;> dsimp only at h
    · obtain ⟨-, rfl⟩ := Prod.mk.inj (Option.some.inj h)
      exact List.prefix_rfl
    · split at h
      · obtain ⟨-, rfl⟩ := Prod.mk.inj (Option.some.inj h)
        exact List.prefix_rfl
      · obtain ⟨next, hnext, h⟩ := Option.bind_eq_some_iff.mp h
        have hpush := pushCores_extends hnext
        rcases hopens : opens d inRange with _ | inRange <;> rw [hopens] at h
        · obtain ⟨-, rfl⟩ := Prod.mk.inj (Option.some.inj h)
          exact hpush
        · exact hpush.trans (ih h)

theorem coresItems_extends {items : List ℕ} {e : Bool} {cores out : List ℤ}
    (h : coresItems document items errno cores = some (e, out)) : cores <+: out := by
  induction items generalizing errno cores with
  | nil =>
    obtain ⟨-, rfl⟩ := Prod.mk.inj (Option.some.inj h)
    exact List.prefix_rfl
  | cons item items ih =>
    obtain ⟨node, -, h⟩ := Option.bind_eq_some_iff.mp h
    rcases hlong : yamlGetLong node errno with ⟨ret | value, e'⟩ <;> rw [hlong] at h <;> dsimp only at h
    · obtain ⟨-, rfl⟩ := Prod.mk.inj (Option.some.inj h)
      exact List.prefix_rfl
    · exact (List.prefix_append _ _).trans (ih h)

theorem ne_nil_of_first {core : ℤ} {out : List ℤ} (h : [core] <+: out) : out ≠ [] := by
  rintro rfl
  exact absurd (List.prefix_nil.mp h) (by simp)

/-- A scalar of which the first token is no number lists nothing. -/
theorem coresTokens_listed {ts : List (List UInt8 × Option UInt8)} {e : Bool} {out : List ℤ}
    (h : coresTokens ts false errno [] = some (e, out)) : out ≠ [] ↔ errno = false ∧ ∃ t ∈ ts.head?, Numeric t.1 := by
  rcases ts with _ | ⟨⟨token, d⟩, rest⟩
  · obtain ⟨-, rfl⟩ := Prod.mk.inj (Option.some.inj h)
    simp
  · rw [coresTokens_cons] at h
    rcases hconv : stringToLong token errno with ⟨ret | value, e'⟩ <;> rw [hconv] at h <;> dsimp only at h
    · obtain ⟨-, rfl⟩ := Prod.mk.inj (Option.some.inj h)
      simp only [ne_eq, not_true_eq_false, false_iff, not_and, List.head?_cons, Option.mem_some_iff, exists_eq_left']
      rintro rfl hnum
      rw [stringToLong_numeric hnum] at hconv
      cases hconv
    · obtain ⟨rfl, rfl, hnum⟩ := stringToLong_errno hconv
      have hlisted : [narrow value] <+: out := by
        have hpush : pushCores false [] value = some [narrow value] := rfl
        rw [if_neg (by simp), hpush, Option.bind_some] at h
        rcases hopens : opens d false with _ | inRange <;> rw [hopens] at h
        · obtain ⟨-, rfl⟩ := Prod.mk.inj (Option.some.inj h)
          exact List.prefix_rfl
        · exact coresTokens_extends h
      exact iff_of_true (ne_nil_of_first hlisted) ⟨rfl, _, rfl, hnum⟩

theorem coresItems_listed {items : List ℕ} {e : Bool} {out : List ℤ}
    (h : coresItems document items errno [] = some (e, out)) :
    out ≠ [] ↔ errno = false ∧ BeginsCores document (.sequence items) := by
  rcases items with _ | ⟨item, items⟩
  · obtain ⟨-, rfl⟩ := Prod.mk.inj (Option.some.inj h)
    simp [BeginsCores]
  · obtain ⟨node, hnode, hrest⟩ := Option.bind_eq_some_iff.mp h
    rcases hlong : yamlGetLong node errno with ⟨ret | value, e'⟩ <;> rw [hlong] at hrest <;> dsimp only at hrest
    · obtain ⟨-, rfl⟩ := Prod.mk.inj (Option.some.inj hrest)
      simp only [ne_eq, not_true_eq_false, false_iff, not_and]
      rintro rfl ⟨item', hitem', value, hvalue, hnum⟩
      obtain rfl := Option.some.inj hitem'
      obtain rfl := Option.some.inj (hnode.symm.trans hvalue)
      have hread : yamlGetLong (.scalar value) false = (.ok (strtol (cstr value)).value, false) :=
        stringToLong_numeric hnum
      rw [hread] at hlong
      cases hlong
    · rcases node with value' | _ | _
      · obtain ⟨rfl, -, hnum⟩ := stringToLong_errno hlong
        have hlisted : [narrow value] <+: out := coresItems_extends hrest
        exact iff_of_true (ne_nil_of_first hlisted) ⟨rfl, item, rfl, value', hnode, hnum⟩
      · cases hlong
      · cases hlong

/-- **Some core is listed** exactly where the node begins with one and `errno` is 0. -/
theorem parseCores_listed {out : ConfPlugin} {r : Parsed ConfPlugin}
    (h : parseConfPluginsItemCores document node errno out = some r) :
    r.out.cores ≠ [] ↔ errno = false ∧ BeginsCores document node := by
  rcases node with value | items | pairs
  · obtain ⟨⟨e, cores⟩, hcores, hr⟩ := Option.bind_eq_some_iff.mp h
    rw [← Option.some.inj hr]
    exact coresTokens_listed hcores
  · obtain ⟨⟨e, cores⟩, hcores, hr⟩ := Option.bind_eq_some_iff.mp h
    rw [← Option.some.inj hr]
    exact coresItems_listed hcores
  · rw [← Option.some.inj h]
    simp [BeginsCores]

theorem stringToLong_set (s : List UInt8) : stringToLong s true = (.error 2, true) := rfl

/-- Once `errno` is set it stays so. -/
theorem parseCores_errno {out : ConfPlugin} {r : Parsed ConfPlugin}
    (h : parseConfPluginsItemCores document node true out = some r) : r.errno = true := by
  rcases node with value | items | pairs
  · obtain ⟨⟨e, cores⟩, hcores, hr⟩ := Option.bind_eq_some_iff.mp h
    rw [← Option.some.inj hr]
    generalize tokens ",-".toUTF8.toList (cstr value) = ts at hcores
    rcases ts with _ | ⟨⟨token, d⟩, rest⟩
    · exact (Prod.mk.inj (Option.some.inj hcores)).1.symm
    · rw [coresTokens_cons, stringToLong_set] at hcores
      exact (Prod.mk.inj (Option.some.inj hcores)).1.symm
  · obtain ⟨⟨e, cores⟩, hcores, hr⟩ := Option.bind_eq_some_iff.mp h
    rw [← Option.some.inj hr]
    rcases items with _ | ⟨item, items⟩
    · exact (Prod.mk.inj (Option.some.inj hcores)).1.symm
    · obtain ⟨node, -, hcores⟩ := Option.bind_eq_some_iff.mp hcores
      rcases node with value | _ | _ <;> exact (Prod.mk.inj (Option.some.inj hcores)).1.symm
  · rw [← Option.some.inj h]

/-- What a conversion does when `errno` is 0. -/
theorem stringToLong_cases (s : List UInt8) :
    ((strtol s).range = true ∧ stringToLong s false = (.error 2, true)) ∨
      (Numeric s ∧ stringToLong s false = (.ok (strtol s).value, false)) ∨
        ((strtol s).range = false ∧ ¬ Numeric s ∧ stringToLong s false = (.error 3, false)) := by
  rcases hrange : (strtol s).range with _ | _
  · by_cases hnum : Numeric s
    · exact .inr (.inl ⟨hnum, stringToLong_numeric hnum⟩)
    · have hused : (strtol s).used = false := by
        by_contra hused
        exact hnum ⟨by simpa using hused, hrange⟩
      exact .inr (.inr ⟨rfl, hnum, by simp [stringToLong, converted, hrange, hused]⟩)
  · exact .inl ⟨rfl, by simp [stringToLong, converted, hrange]⟩

/-- The core that a value leaves behind. -/
theorem pushCores_last {inRange : Bool} {cores next : List ℤ} {value : ℤ} (hlast : ¬ cores.getLast?.any (value ≤ ·))
    (h : pushCores inRange cores value = some next) :
    next.getLast? = some (if inRange then value else narrow value) := by
  rcases inRange with _ | _
  · rw [← Option.some.inj h]
    simp
  · obtain ⟨back, hback, h⟩ := Option.bind_eq_some_iff.mp h
    have hlt : back < value := by simpa [hback] using hlast
    split at h
    · cases h
    · rw [← Option.some.inj h, if_pos rfl, coresAfter_last hback (by omega)]

theorem coresTokens_overflow {ts : List (List UInt8 × Option UInt8)} {inRange e : Bool} {cores out : List ℤ}
    (h : coresTokens ts inRange false cores = some (e, out)) : e = true ↔ TokensOverflow ts inRange cores.getLast? := by
  induction ts generalizing inRange cores with
  | nil =>
    obtain ⟨rfl, -⟩ := Prod.mk.inj (Option.some.inj h)
    simp [TokensOverflow]
  | cons head rest ih =>
    obtain ⟨token, d⟩ := head
    rw [coresTokens_cons] at h
    unfold TokensOverflow
    rcases stringToLong_cases token with ⟨hrange, hconv⟩ | ⟨hnum, hconv⟩ | ⟨hrange, hnum, hconv⟩ <;> rw [hconv] at h <;>
      dsimp only at h ⊢
    · obtain ⟨rfl, -⟩ := Prod.mk.inj (Option.some.inj h)
      simp [hrange]
    · simp only [hnum.fits, Bool.false_eq_true, hnum, false_or, true_and]
      split at h
      · rename_i hlast
        obtain ⟨rfl, -⟩ := Prod.mk.inj (Option.some.inj h)
        simp [hlast]
      · rename_i hlast
        obtain ⟨next, hnext, h⟩ := Option.bind_eq_some_iff.mp h
        have hnextLast := pushCores_last hlast hnext
        rcases hopens : opens d inRange with _ | open' <;> rw [hopens] at h
        · obtain ⟨rfl, -⟩ := Prod.mk.inj (Option.some.inj h)
          simp
        · rw [ih h, hnextLast]
          simp [hlast]
    · obtain ⟨rfl, -⟩ := Prod.mk.inj (Option.some.inj h)
      simp [hrange, hnum]

theorem coresItems_overflow {items : List ℕ} {e : Bool} {cores out : List ℤ}
    (h : coresItems document items false cores = some (e, out)) : e = true ↔ ItemsOverflow document items := by
  induction items generalizing cores with
  | nil =>
    obtain ⟨rfl, -⟩ := Prod.mk.inj (Option.some.inj h)
    simp [ItemsOverflow]
  | cons item items ih =>
    obtain ⟨node, hnode, h⟩ := Option.bind_eq_some_iff.mp h
    unfold ItemsOverflow
    rcases node with value | _ | _
    · have hlong : yamlGetLong (.scalar value) false = stringToLong (cstr value) false := rfl
      rw [hlong] at h
      rcases stringToLong_cases (cstr value) with ⟨hrange, hconv⟩ | ⟨hnum, hconv⟩ | ⟨hrange, hnum, hconv⟩ <;>
        rw [hconv] at h <;> dsimp only at h
      · obtain ⟨rfl, -⟩ := Prod.mk.inj (Option.some.inj h)
        simp [hnode, hrange]
      · rw [ih h]
        simp [hnode, hnum, hnum.fits]
      · obtain ⟨rfl, -⟩ := Prod.mk.inj (Option.some.inj h)
        simp [hnode, hrange, hnum]
    · obtain ⟨rfl, -⟩ := Prod.mk.inj (Option.some.inj h)
      simp [hnode]
    · obtain ⟨rfl, -⟩ := Prod.mk.inj (Option.some.inj h)
      simp [hnode]

/-- The parser of cores sets `errno` where the node overflows. -/
theorem parseCores_overflow {out : ConfPlugin} {r : Parsed ConfPlugin}
    (h : parseConfPluginsItemCores document node false out = some r) : r.errno = true ↔ Overflows document node := by
  rcases node with value | items | pairs
  · obtain ⟨⟨e, cores⟩, hcores, hr⟩ := Option.bind_eq_some_iff.mp h
    rw [← Option.some.inj hr]
    exact coresTokens_overflow hcores
  · obtain ⟨⟨e, cores⟩, hcores, hr⟩ := Option.bind_eq_some_iff.mp h
    rw [← Option.some.inj hr]
    exact coresItems_overflow hcores
  · rw [← Option.some.inj h]
    simp [Overflows]

end Cores

section Priority

variable {document : Document} {node : Node} {errno : Bool} {out : ConfPlugin} {r : Parsed ConfPlugin}

theorem yamlGetLong_errno {value : ℤ} {e : Bool} (h : yamlGetLong node errno = (.ok value, e)) :
    errno = false ∧ e = false := by
  rcases node with s | _ | _
  · obtain ⟨herrno, he, -⟩ := stringToLong_errno h
    exact ⟨herrno, he⟩
  · cases h
  · cases h

theorem setPriority_errno {min max : ℤ} (h : setPriority min max errno out = some r) : r.errno = errno := by
  unfold setPriority at h
  split at h <;> rw [← Option.some.inj h]

theorem ret_ne {α : Type} {out : α} {r : Parsed α} {ret : ℕ} {e : Bool} (hret : ret ≠ 0) (h : some ⟨ret, e, out⟩ = some r) : r.ret ≠ 0 := by
  rw [← Option.some.inj h]
  exact hret

theorem parsePriorityScalar_errno {s : List UInt8} (h : parsePriorityScalar s errno out = some r) (hret : r.ret = 0) :
    errno = false ∧ r.errno = false := by
  unfold parsePriorityScalar at h
  rcases hts : tokens "-".toUTF8.toList s with _ | ⟨⟨first, d⟩, rest⟩ <;> rw [hts] at h <;> dsimp only at h
  · exact absurd hret (ret_ne (by decide) h)
  rcases hfirst : stringToLong first errno with ⟨ret | min, e⟩ <;> rw [hfirst] at h <;> dsimp only at h
  · exact absurd hret (ret_ne (stringToLong_error hfirst) h)
  obtain ⟨herrno, rfl, -⟩ := stringToLong_errno hfirst
  refine ⟨herrno, ?_⟩
  rcases rest with _ | ⟨⟨second, d'⟩, more⟩ <;> dsimp only at h
  · exact setPriority_errno h
  rcases hsecond : stringToLong second false with ⟨ret | max, e⟩ <;> rw [hsecond] at h <;> dsimp only at h
  · exact absurd hret (ret_ne (stringToLong_error hsecond) h)
  obtain ⟨-, rfl, -⟩ := stringToLong_errno hsecond
  exact setPriority_errno h

theorem parsePrioritySequence_errno {items : List ℕ} (h : parsePrioritySequence document items errno out = some r)
    (hret : r.ret = 0) : errno = false ∧ r.errno = false := by
  unfold parsePrioritySequence at h
  rcases items with _ | ⟨first, rest⟩ <;> dsimp only at h
  · exact absurd hret (ret_ne (by decide) h)
  obtain ⟨node, -, h⟩ := Option.bind_eq_some_iff.mp h
  rcases hfirst : yamlGetLong node errno with ⟨ret | min, e⟩ <;> rw [hfirst] at h <;> dsimp only at h
  · exact absurd hret (ret_ne (yamlGetLong_error hfirst) h)
  obtain ⟨herrno, rfl⟩ := yamlGetLong_errno hfirst
  refine ⟨herrno, ?_⟩
  rcases rest with _ | ⟨second, more⟩ <;> dsimp only at h
  · exact setPriority_errno h
  obtain ⟨node', -, h⟩ := Option.bind_eq_some_iff.mp h
  rcases hsecond : yamlGetLong node' false with ⟨ret | max, e⟩ <;> rw [hsecond] at h <;> dsimp only at h
  · exact absurd hret (ret_ne (yamlGetLong_error hsecond) h)
  obtain ⟨-, rfl⟩ := yamlGetLong_errno hsecond
  split at h
  · exact setPriority_errno h
  · exact absurd hret (ret_ne (by decide) h)

/-- A priority is accepted only where `errno` was not set. -/
theorem parsePriority_errno (h : parseConfPluginsItemPriority document node errno out = some r) (hret : r.ret = 0) :
    errno = false ∧ r.errno = false := by
  rcases node with value | items | pairs
  · exact parsePriorityScalar_errno h hret
  · exact parsePrioritySequence_errno h hret
  · exact absurd hret (ret_ne (by decide) h)

end Priority

/-! ### What the pairs of an entry set -/

/-- Some pair has the key `name`. -/
def HasKey (document : Document) (name : List UInt8) (pairs : List (ℕ × ℕ)) : Prop :=
  ∃ kv ∈ pairs, keyText document kv.1 = some name

/-- The values of the key `cores`, in their order. -/
def coresNodes (document : Document) (pairs : List (ℕ × ℕ)) : List Node :=
  pairs.filterMap fun kv => if keyText document kv.1 = some "cores".toUTF8.toList then document.node kv.2 else none

/-- **A complete entry** has the four keys, and the last of its cores nodes begins with a core. -/
def CompleteEntry (document : Document) : Node → Prop
  | .mapping pairs =>
    HasKey document "name".toUTF8.toList pairs ∧ HasKey document "plugin".toUTF8.toList pairs ∧
      HasKey document "priority".toUTF8.toList pairs ∧ ListsCore document (coresNodes document pairs)
  | _ => False

/-- What an accepted pair with this key does to `errno` and to the record. -/
inductive DraftStep (document : Document) : List UInt8 → ℕ → Bool → Draft → Bool → Draft → Prop where
  | other {key : List UInt8} {v : ℕ} {errno : Bool} {e : Draft} :
      (∀ k ∈ ["name", "plugin", "priority", "cores"], key ≠ k.toUTF8.toList) → DraftStep document key v errno e errno e
  | name {v : ℕ} {errno : Bool} {e : Draft} (s : List UInt8) :
      DraftStep document "name".toUTF8.toList v errno e errno { e with name := some s }
  | pluginPath {v : ℕ} {errno : Bool} {e : Draft} (s : List UInt8) :
      DraftStep document "plugin".toUTF8.toList v errno e errno { e with pluginPath := some s }
  | priority {v : ℕ} {e : Draft} (min max : ℤ) :
      DraftStep document "priority".toUTF8.toList v false e false
        { e with priorityMin := some min, priorityMax := some max }
  | cores {v : ℕ} {errno : Bool} {e : Draft} {node : Node} {r : Parsed ConfPlugin} : document.node v = some node →
      parseConfPluginsItemCores document node errno scratch = some r →
        DraftStep document "cores".toUTF8.toList v errno e r.errno { e with cores := some r.out.cores }

section Pairs

variable {document : Document} {pairs : List (ℕ × ℕ)} {errno : Bool} {e : Draft} {r : Parsed Draft}

theorem stored_ret {γ : Type} {set : γ → Draft} {get : Except ℕ γ} {next : Parsed Draft}
    (hget : ∀ ret, get = .error ret → ret ≠ 0) (h : stored e set (get, errno) = some next) (hret : next.ret = 0) :
    ∃ s, next = ⟨0, errno, set s⟩ := by
  rcases hs : get with ret | s <;> rw [hs] at h <;> obtain rfl := Option.some.inj h
  · exact absurd hret (hget ret hs)
  · exact ⟨s, rfl⟩

/-- **A pair** of an entry that is accepted, and the rest of them. -/
theorem draft_step {k v : ℕ} (h : parsePairs document (Draft.keys document) ((k, v) :: pairs) errno e = some r)
    (hret : r.ret = 0) : ∃ key errno' e', keyText document k = some key ∧ DraftStep document key v errno e errno' e' ∧
      parsePairs document (Draft.keys document) pairs errno' e' = some r := by
  obtain ⟨key, hkey, ⟨hnone, hrest⟩ | ⟨parser, value, next, hmem, hvalue, hnext, hzero, hrest⟩⟩ := parsePairs_cons h hret
  · refine ⟨key, errno, e, hkey, .other ?_, hrest⟩
    intro name hname heq
    have hnot := List.find?_eq_none.mp hnone
    have hmem : ∃ parser, (name.toUTF8.toList, parser) ∈ Draft.keys document := by
      simp only [List.mem_cons, List.not_mem_nil, or_false] at hname
      rcases hname with rfl | rfl | rfl | rfl
      · exact ⟨_, .head _⟩
      · exact ⟨_, .tail _ (.head _)⟩
      · exact ⟨_, .tail _ (.tail _ (.head _))⟩
      · exact ⟨_, .tail _ (.tail _ (.tail _ (.head _)))⟩
    obtain ⟨parser, hmem⟩ := hmem
    exact hnot _ hmem (by simp [heq])
  · simp only [Draft.keys, List.mem_cons, Prod.mk.injEq, List.not_mem_nil, or_false] at hmem
    rcases hmem with ⟨rfl, rfl⟩ | ⟨rfl, rfl⟩ | ⟨rfl, rfl⟩ | ⟨rfl, rfl⟩
    · obtain ⟨s, rfl⟩ := stored_ret (fun _ => yamlGetString_error) hnext hzero
      exact ⟨_, _, _, hkey, .name s, hrest⟩
    · obtain ⟨s, rfl⟩ := stored_ret (fun _ => yamlGetString_error) hnext hzero
      exact ⟨_, _, _, hkey, .pluginPath s, hrest⟩
    · obtain ⟨r', hr', rfl⟩ := Option.map_eq_some_iff.mp hnext
      have hzero' : r'.ret = 0 := hzero
      obtain ⟨rfl, herrno⟩ := parsePriority_errno hr' hzero'
      dsimp only at hrest
      rw [herrno, if_pos hzero'] at hrest
      exact ⟨_, _, _, hkey, .priority _ _, hrest⟩
    · obtain ⟨r', hr', rfl⟩ := Option.map_eq_some_iff.mp hnext
      exact ⟨_, _, _, hkey, .cores hvalue hr', hrest⟩

/-- The keys that set a field. -/
theorem draft_field {F : Draft → Prop} {name : List UInt8}
    (hset : ∀ key v errno e errno' e', DraftStep document key v errno e errno' e' → (F e' ↔ F e ∨ key = name))
    (h : parsePairs document (Draft.keys document) pairs errno e = some r) (hret : r.ret = 0) :
    F r.out ↔ F e ∨ HasKey document name pairs := by
  induction pairs generalizing errno e with
  | nil =>
    rw [← Option.some.inj h]
    simp [HasKey]
  | cons pair pairs ih =>
    obtain ⟨k, v⟩ := pair
    obtain ⟨key, errno', e', hkey, hstep, hrest⟩ := draft_step h hret
    have hcons : HasKey document name ((k, v) :: pairs) ↔ key = name ∨ HasKey document name pairs := by
      simp [HasKey, hkey]
    rw [ih hrest, hset key v errno e errno' e' hstep, hcons, or_assoc]

/-- A priority that was accepted shows that `errno` was not set before. -/
theorem draft_errno (h : parsePairs document (Draft.keys document) pairs errno e = some r) (hret : r.ret = 0)
    (hkey : HasKey document "priority".toUTF8.toList pairs) : errno = false := by
  induction pairs generalizing errno e with
  | nil => simp [HasKey] at hkey
  | cons pair pairs ih =>
    obtain ⟨k, v⟩ := pair
    obtain ⟨key, errno', e', htext, hstep, hrest⟩ := draft_step h hret
    have hcons : key = "priority".toUTF8.toList ∨ HasKey document "priority".toUTF8.toList pairs := by
      simpa [HasKey, htext] using hkey
    cases hstep with
    | other hother => exact ih hrest (hcons.resolve_left (hother "priority" (by simp)))
    | name s => exact ih hrest (hcons.resolve_left (by decide +kernel))
    | pluginPath s => exact ih hrest (hcons.resolve_left (by decide +kernel))
    | priority min max => rfl
    | cores hnode hr =>
      have hlater := ih hrest (hcons.resolve_left (by decide +kernel))
      by_contra hset
      rw [Bool.not_eq_false] at hset
      subst hset
      rw [parseCores_errno hr] at hlater
      cases hlater

/-- **The cores an entry lists** are those of its last cores node. -/
theorem draft_cores (h : parsePairs document (Draft.keys document) pairs errno e = some r) (hret : r.ret = 0) :
    r.out.Listed ↔ (coresNodes document pairs = [] ∧ e.Listed) ∨
      (errno = false ∧ ListsCore document (coresNodes document pairs)) := by
  induction pairs generalizing errno e with
  | nil =>
    rw [← Option.some.inj h]
    simp [coresNodes, ListsCore]
  | cons pair pairs ih =>
    obtain ⟨k, v⟩ := pair
    obtain ⟨key, errno', e', htext, hstep, hrest⟩ := draft_step h hret
    have hskip : key ≠ "cores".toUTF8.toList → coresNodes document ((k, v) :: pairs) = coresNodes document pairs := by
      intro hne
      simp only [coresNodes, List.filterMap_cons, htext, Option.some.injEq, hne, if_false]
    rw [ih hrest]
    cases hstep with
    | other hother => rw [hskip (hother "cores" (by simp))]
    | name s =>
      rw [hskip (by decide +kernel)]
      rfl
    | pluginPath s =>
      rw [hskip (by decide +kernel)]
      rfl
    | priority min max =>
      rw [hskip (by decide +kernel)]
      rfl
    | @cores _ _ _ node c hnode hc =>
      have hnodes : coresNodes document ((k, v) :: pairs) = node :: coresNodes document pairs := by
        simp only [coresNodes, List.filterMap_cons, htext, if_true, hnode]
      have hlisted : (Draft.Listed { e with cores := some c.out.cores }) ↔ errno = false ∧ BeginsCores document node := by
        rw [← parseCores_listed hc]
        simp [Draft.Listed]
      rw [hnodes, hlisted]
      rcases errno with _ | _
      · have hover := (parseCores_overflow hc).symm
        rcases hlater : coresNodes document pairs with _ | ⟨next, nodes⟩
        · simp [ListsCore]
        · simp [ListsCore, hover]
      · simp [parseCores_errno hc]

theorem keys_nodup : List.Nodup
    ["name".toUTF8.toList, "plugin".toUTF8.toList, "priority".toUTF8.toList, "cores".toUTF8.toList] := by decide +kernel

/-- The field a pair sets is that of its key. -/
theorem draftStep_field {key : List UInt8} {v : ℕ} {errno errno' : Bool} {e e' : Draft}
    (h : DraftStep document key v errno e errno' e') :
    (e'.name.isSome ↔ e.name.isSome ∨ key = "name".toUTF8.toList) ∧
      (e'.pluginPath.isSome ↔ e.pluginPath.isSome ∨ key = "plugin".toUTF8.toList) ∧
      (e'.priorityMin.isSome ↔ e.priorityMin.isSome ∨ key = "priority".toUTF8.toList) ∧
      (e'.priorityMax.isSome ↔ e.priorityMax.isSome ∨ key = "priority".toUTF8.toList) := by
  have hne := keys_nodup
  have hne' := List.nodup_reverse.mpr keys_nodup
  cases h with
  | other hother => simp_all
  | name s => simp_all
  | pluginPath s => simp_all
  | priority min max => simp_all
  | cores hnode hr => simp_all

/-- **An accepted entry** has every field set exactly where it is complete. -/
theorem item_complete {node : Node} (h : Draft.item document node errno Draft.unset = some r) (hret : r.ret = 0) :
    r.out.Complete ↔ CompleteEntry document node := by
  rcases node with value | items | pairs
  · exact absurd hret (ret_ne (by decide) h)
  · exact absurd hret (ret_ne (by decide) h)
  have hname := draft_field (fun _ _ _ _ _ _ hstep => (draftStep_field hstep).1) h hret
  have hpath := draft_field (fun _ _ _ _ _ _ hstep => (draftStep_field hstep).2.1) h hret
  have hmin := draft_field (fun _ _ _ _ _ _ hstep => (draftStep_field hstep).2.2.1) h hret
  have hmax := draft_field (fun _ _ _ _ _ _ hstep => (draftStep_field hstep).2.2.2) h hret
  have hcores := draft_cores h hret
  simp only [Draft.unset, Option.isSome_none, Bool.false_eq_true, false_or, Draft.Listed, reduceCtorEq, false_and,
    exists_false, and_false] at hname hpath hmin hmax hcores
  constructor
  · intro hcomplete
    have hpriority := hmin.mp hcomplete.priorityMin
    exact ⟨hname.mp hcomplete.name, hpath.mp hcomplete.pluginPath, hpriority, (hcores.mp hcomplete.cores).2⟩
  · rintro ⟨hnamed, hplugin, hpriority, hlists⟩
    exact ⟨hname.mpr hnamed, hpath.mpr hplugin, hmin.mpr hpriority, hmax.mpr hpriority,
      hcores.mpr ⟨draft_errno h hret hpriority, hlists⟩⟩

end Pairs

end Retif
