/-
# Reading the configuration

The parsers of `retif_config.c` and `parse_configuration`. What
`parse_conf_plugins_item_cores` finds wrong it keeps to itself: it always
returns 0, with the cores it has read so far.

A scalar of cores has to ascend, as `long`s; stored, a core is an `int`. The
items of a sequence are taken as they come.

Key definitions: `parseConfPluginsItemCores`, `parseConf`,
`parseConfiguration`, `OrderedCores`.
Key theorems: `cores_ascending`.
-/
import Retif.Config
import Retif.Yaml

namespace Retif

open CString

/-- A `long` stored in an `int`. -/
def narrow (value : ℤ) : ℤ := Int.bmod value (2 ^ 32)

/-! ### The entry of a plugin -/

def parseConfPluginsItemName : Parser ConfPlugin := fun node errno out =>
  stored out (fun s => { out with name := s }) (yamlGetString node, errno)

def parseConfPluginsItemPluginPath : Parser ConfPlugin := fun node errno out =>
  stored out (fun s => { out with pluginPath := s }) (yamlGetString node, errno)

/-- The end of both forms of `parse_conf_plugins_item_priority`. -/
def setPriority (min max : ℤ) (errno : Bool) (out : ConfPlugin) : Option (Parsed ConfPlugin) :=
  if min < 0 ∨ max < 0 then some ⟨1, errno, out⟩
  else some ⟨0, errno, { out with priorityMin := narrow min, priorityMax := narrow max }⟩

/-- A single value, or `min-max`. -/
def parsePriorityScalar (s : List UInt8) (errno : Bool) (out : ConfPlugin) : Option (Parsed ConfPlugin) :=
  match tokens "-".toUTF8.toList s with
  | [] => some ⟨1, errno, out⟩
  | (first, _) :: rest =>
    match stringToLong first errno with
    | (.error ret, errno) => some ⟨ret, errno, out⟩
    | (.ok min, errno) =>
      match rest with
      | [] => setPriority min min errno out
      | (second, _) :: _ =>
        match stringToLong second errno with
        | (.error ret, errno) => some ⟨ret, errno, out⟩
        | (.ok max, errno) => setPriority min max errno out

/-- A single value, or `[min, max]`. -/
def parsePrioritySequence (document : Document) (items : List ℕ) (errno : Bool) (out : ConfPlugin) :
    Option (Parsed ConfPlugin) :=
  match items with
  | [] => some ⟨1, errno, out⟩
  | first :: rest => do
    match yamlGetLong (← document.node first) errno with
    | (.error ret, errno) => some ⟨ret, errno, out⟩
    | (.ok min, errno) =>
      match rest with
      | [] => setPriority min min errno out
      | second :: more =>
        match yamlGetLong (← document.node second) errno with
        | (.error ret, errno) => some ⟨ret, errno, out⟩
        | (.ok max, errno) => if more = [] then setPriority min max errno out else some ⟨1, errno, out⟩

def parseConfPluginsItemPriority (document : Document) : Parser ConfPlugin
  | .scalar value, errno, out => parsePriorityScalar (cstr value) errno out
  | .sequence items, errno, out => parsePrioritySequence document items errno out
  | .mapping _, errno, out => some ⟨1, errno, out⟩

/-! ### Its cores -/

/-- The cores that follow `back`, `turns` of them. -/
def coresAfter : ℕ → ℤ → List ℤ
  | 0, _ => []
  | turns + 1, back => (back + 1) :: coresAfter turns (back + 1)

/-- The loop over a range. An `int` does not reach a value above `INT_MAX`, and
the loop does not end. -/
def fillRange (cores : List ℤ) (value : ℤ) : Option (List ℤ) := do
  let back ← cores.getLast?
  if value > 2 ^ 31 - 1 then none else some (cores ++ coresAfter (value - back).toNat back)

/-- What a value adds to the cores: itself, or the range up to it. -/
def pushCores (inRange : Bool) (cores : List ℤ) (value : ℤ) : Option (List ℤ) :=
  if inRange then fillRange cores value else some (cores ++ [narrow value])

/-- The loop over the tokens of a scalar; a failure ends it. -/
def coresTokens : List (List UInt8 × Option UInt8) → Bool → Bool → List ℤ → Option (Bool × List ℤ)
  | [], _, errno, cores => some (errno, cores)
  | (token, d) :: rest, inRange, errno, cores =>
    match stringToLong token errno with
    | (.error _, errno) => some (errno, cores)
    | (.ok value, errno) =>
      if cores.getLast?.any (value ≤ ·) then some (errno, cores)
      else do
        let cores ← pushCores inRange cores value
        if d = some 44 then coresTokens rest false errno cores
        else if d = some 45 then if inRange then some (errno, cores) else coresTokens rest true errno cores
        else coresTokens rest inRange errno cores

/-- The loop over the items of a sequence; a failure ends it. -/
def coresItems (document : Document) : List ℕ → Bool → List ℤ → Option (Bool × List ℤ)
  | [], errno, cores => some (errno, cores)
  | item :: items, errno, cores => do
    match yamlGetLong (← document.node item) errno with
    | (.error _, errno) => some (errno, cores)
    | (.ok value, errno) => coresItems document items errno (cores ++ [narrow value])

/-- `ret` is dropped: the result is 0 whatever was found. -/
def parseConfPluginsItemCores (document : Document) : Parser ConfPlugin
  | .scalar value, errno, out => do
    let (errno, cores) ← coresTokens (tokens ",-".toUTF8.toList (cstr value)) false errno []
    some ⟨0, errno, { out with cores := cores }⟩
  | .sequence items, errno, out => do
    let (errno, cores) ← coresItems document items errno []
    some ⟨0, errno, { out with cores := cores }⟩
  | .mapping _, errno, out => some ⟨0, errno, { out with cores := [] }⟩

def parseConfPluginsItem (document : Document) : Parser ConfPlugin :=
  yamlParseMapping document
    [("name".toUTF8.toList, parseConfPluginsItemName),
     ("plugin".toUTF8.toList, parseConfPluginsItemPluginPath),
     ("priority".toUTF8.toList, parseConfPluginsItemPriority document),
     ("cores".toUTF8.toList, parseConfPluginsItemCores document)]

/-! ### The whole configuration -/

/-- `configuration_t`, with the part of it that the checks do not look at. -/
structure FullConfiguration extends Configuration where
  rrTimeslice : ℤ

def parseConfPlugins (document : Document) (fresh : ℕ → ConfPlugin) : Parser FullConfiguration :=
  fun node errno out => do
    let r ← yamlParseList document (parseConfPluginsItem document) fresh node errno []
    some ⟨r.ret, r.errno, { out with plugins := r.out }⟩

def parseConfAclRules : Parser FullConfiguration := fun _ errno out => some ⟨0, errno, out⟩

def parseConfSystemRrTimeslice : Parser FullConfiguration := fun node errno out =>
  stored out (fun v => { out with rrTimeslice := v }) (yamlGetLong node errno)

def parseConfSystemSchedMaxUtil (strtod : List UInt8 → Conversion ℚ) : Parser FullConfiguration :=
  fun node errno out => stored out (fun v => { out with schedMaxUtil := v }) (yamlGetDouble strtod node errno)

def parseConfSystem (document : Document) (strtod : List UInt8 → Conversion ℚ) : Parser FullConfiguration :=
  yamlParseMapping document
    [("rr_timeslice".toUTF8.toList, parseConfSystemRrTimeslice),
     ("sched_max_util".toUTF8.toList, parseConfSystemSchedMaxUtil strtod)]

/-- `parse_conf`; `fuel` bounds how deep `configuration` is nested in itself. -/
def parseConf (document : Document) (strtod : List UInt8 → Conversion ℚ) (fresh : ℕ → ConfPlugin) :
    ℕ → Parser FullConfiguration
  | 0 => fun _ _ _ => none
  | fuel + 1 =>
    yamlParseMapping document
      [("configuration".toUTF8.toList, parseConf document strtod fresh fuel),
       ("system".toUTF8.toList, parseConfSystem document strtod),
       ("plugins".toUTF8.toList, parseConfPlugins document fresh),
       ("rules".toUTF8.toList, parseConfAclRules)]

/-- Once `parse_conf` returns, a deeper bound changes nothing. -/
theorem parseConf_deeper {document : Document} {strtod : List UInt8 → Conversion ℚ} {fresh : ℕ → ConfPlugin} {fuel : ℕ} :
    (parseConf document strtod fresh fuel).Follows Eq (parseConf document strtod fresh (fuel + 1)) := by
  induction fuel with
  | zero =>
    intro node errno a b r _ h
    cases h
  | succ fuel ih =>
    apply yamlParseMapping_follows
    exact .cons ⟨rfl, ih⟩ (.cons ⟨rfl, .refl _⟩ (.cons ⟨rfl, .refl _⟩ (.cons ⟨rfl, .refl _⟩ .nil)))

theorem parseConf_mono {document : Document} {strtod : List UInt8 → Conversion ℚ} {fresh : ℕ → ConfPlugin}
    {fuel fuel' : ℕ} (hle : fuel ≤ fuel') {node : Node} {errno : Bool} {out : FullConfiguration}
    {r : Parsed FullConfiguration} (h : parseConf document strtod fresh fuel node errno out = some r) :
    parseConf document strtod fresh fuel' node errno out = some r := by
  induction hle with
  | refl => exact h
  | step _ ih => exact parseConf_deeper.eq ih

/-- `parse_configuration`, on what `yaml_parser_load` has loaded: when it fails
it returns 0, and that is handed on. -/
def parseConfiguration (numProcs : ℕ) (strtod : List UInt8 → Conversion ℚ) (fresh : ℕ → ConfPlugin) (fuel : ℕ)
    (loaded : Option Document) (errno : Bool) (conf : FullConfiguration) : Option (ℕ × FullConfiguration) :=
  match loaded with
  | none => some (0, conf)
  | some document => do
    let root ← document.root
    let r ← parseConf document strtod fresh fuel root errno conf
    if r.ret ≠ 0 then some (r.ret, r.out)
    else if configurationValid numProcs r.out.toConfiguration then some (0, r.out)
    else some (1, r.out)

/-! ### Which cores ascend -/

/-- The number an item of a sequence stands for. -/
def itemValue (document : Document) (item : ℕ) : Option ℤ :=
  match document.node item with
  | some (.scalar value) => some (strtol (cstr value)).value
  | _ => none

/-- Of a scalar the numbers fit in an `int`, of a sequence they ascend. -/
def OrderedCores (document : Document) : Node → Prop
  | .scalar value => ∀ t ∈ tokens ",-".toUTF8.toList (cstr value), (strtol t.1).value < 2 ^ 31
  | .sequence items => ((items.filterMap (itemValue document)).map narrow).Pairwise (· < ·)
  | .mapping _ => True

theorem stringToLong_ok {s : List UInt8} {errno errno' : Bool} {value : ℤ}
    (h : stringToLong s errno = (.ok value, errno')) : value = (strtol s).value := by
  unfold stringToLong converted at h
  split_ifs at h <;> simp only [Prod.mk.injEq, reduceCtorEq, false_and, Except.ok.injEq] at h
  exact h.1.symm

/-- A range goes on where the cores end, up to its value. -/
theorem coresAfter_mem {turns : ℕ} {back c : ℤ} (h : c ∈ coresAfter turns back) : back < c ∧ c ≤ back + turns := by
  induction turns generalizing back with
  | zero => exact absurd h List.not_mem_nil
  | succ turns ih =>
    rcases List.mem_cons.mp h with rfl | h
    · constructor <;> push_cast <;> omega
    · have := ih h
      push_cast
      omega

theorem coresAfter_ascending {turns : ℕ} {back : ℤ} : (coresAfter turns back).Pairwise (· < ·) := by
  induction turns generalizing back with
  | zero => exact List.Pairwise.nil
  | succ turns ih =>
    apply List.pairwise_cons.mpr
    exact ⟨fun _ hc => (coresAfter_mem hc).1, ih⟩

/-- Ascending cores stay so with larger ones behind them. -/
theorem ascending_append {cores more : List ℤ} {back : ℤ} (hback : cores.getLast? = some back)
    (hcores : cores.Pairwise (· < ·)) (hmore : more.Pairwise (· < ·)) (hlt : ∀ c ∈ more, back < c) :
    (cores ++ more).Pairwise (· < ·) := by
  refine List.pairwise_append.mpr ⟨hcores, hmore, ?_⟩
  intro a ha b hb
  obtain ⟨init, rfl⟩ := List.getLast?_eq_some_iff.mp hback
  have hab := hlt b hb
  rcases List.mem_append.mp ha with ha | ha
  · exact ((List.pairwise_append.mp hcores).2.2 a ha back (List.mem_singleton_self _)).trans hab
  · rwa [List.mem_singleton.mp ha]

/-- What is pushed is above the last core. -/
theorem pushCores_ascending {inRange : Bool} {cores next : List ℤ} {value : ℤ} (h0 : 0 ≤ value) (hmax : value < 2 ^ 31)
    (hlast : ¬ cores.getLast?.any (value ≤ ·)) (hasc : cores.Pairwise (· < ·))
    (h : pushCores inRange cores value = some next) : next.Pairwise (· < ·) := by
  unfold pushCores fillRange at h
  rcases hback : cores.getLast? with _ | back
  · rw [List.getLast?_eq_none_iff.mp hback] at h
    split at h
    · cases h
    · obtain rfl := Option.some.inj h
      exact List.pairwise_singleton _ _
  · have hlt : back < value := by simpa [hback] using hlast
    rw [hback] at h
    split at h
    · simp only [Option.bind_eq_bind, Option.bind_some] at h
      split at h
      · cases h
      · obtain rfl := Option.some.inj h
        exact ascending_append hback hasc coresAfter_ascending fun c hc => (coresAfter_mem hc).1
    · obtain rfl := Option.some.inj h
      have hnarrow : narrow value = value := by
        unfold narrow
        rw [Int.bmod_eq_of_le] <;> omega
      refine ascending_append hback hasc (List.pairwise_singleton _ _) ?_
      intro c hc
      rw [List.mem_singleton.mp hc, hnarrow]
      exact hlt

theorem coresTokens_ascending {ts : List (List UInt8 × Option UInt8)} {inRange errno errno' : Bool}
    {cores out : List ℤ} (hts : ∀ t ∈ ts, 0 ≤ (strtol t.1).value ∧ (strtol t.1).value < 2 ^ 31)
    (hasc : cores.Pairwise (· < ·)) (h : coresTokens ts inRange errno cores = some (errno', out)) :
    out.Pairwise (· < ·) := by
  induction ts generalizing inRange errno cores with
  | nil =>
    simp only [coresTokens, Option.some.injEq, Prod.mk.injEq] at h
    rw [← h.2]
    exact hasc
  | cons head rest ih =>
    obtain ⟨token, d⟩ := head
    unfold coresTokens at h
    have hrest := fun t ht => hts t (List.mem_cons_of_mem _ ht)
    rcases hconv : stringToLong token errno with ⟨ret | value, e⟩ <;> rw [hconv] at h <;> dsimp only at h
    · simp only [Option.some.injEq, Prod.mk.injEq] at h
      rw [← h.2]
      exact hasc
    · obtain ⟨h0, hmax⟩ := hts _ (List.mem_cons_self ..)
      rw [← stringToLong_ok hconv] at h0 hmax
      split at h
      · simp only [Option.some.injEq, Prod.mk.injEq] at h
        rw [← h.2]
        exact hasc
      · rename_i hlast
        obtain ⟨next, hnext, h⟩ := Option.bind_eq_some_iff.mp h
        have hnext := pushCores_ascending h0 hmax hlast hasc hnext
        split at h
        · exact ih hrest hnext h
        · split at h
          · split at h
            · simp only [Option.some.injEq, Prod.mk.injEq] at h
              rw [← h.2]
              exact hnext
            · exact ih hrest hnext h
          · exact ih hrest hnext h

/-- The cores of a sequence are the beginning of its numbers. -/
theorem coresItems_grows {document : Document} {items : List ℕ} {errno errno' : Bool} {cores out : List ℤ}
    (h : coresItems document items errno cores = some (errno', out)) :
    out <+: cores ++ (items.filterMap (itemValue document)).map narrow := by
  induction items generalizing errno cores with
  | nil =>
    simp only [coresItems, Option.some.injEq, Prod.mk.injEq] at h
    simp [h.2]
  | cons item items ih =>
    obtain ⟨node, hnode, h⟩ := Option.bind_eq_some_iff.mp h
    rcases hlong : yamlGetLong node errno with ⟨ret | value, e⟩ <;> rw [hlong] at h <;> dsimp only at h
    · simp only [Option.some.injEq, Prod.mk.injEq] at h
      rw [← h.2]
      exact List.prefix_append _ _
    · have hvalue : itemValue document item = some value := by
        unfold itemValue
        rw [hnode]
        unfold yamlGetLong at hlong
        rcases node with s | _ | _
        · exact congrArg some (stringToLong_ok hlong).symm
        · simp [yamlGetString] at hlong
        · simp [yamlGetString] at hlong
      have hgrows := ih h
      rwa [List.filterMap_cons_some hvalue, List.map_cons, ← List.singleton_append, ← List.append_assoc]

/-- **What the parser orders**: cores ascend where the numbers of a scalar fit
in an `int`, and where the items of a sequence ascend already. -/
theorem cores_ascending {document : Document} {node : Node} {errno : Bool} {out : ConfPlugin}
    {r : Parsed ConfPlugin} (ho : OrderedCores document node)
    (h : parseConfPluginsItemCores document node errno out = some r) : r.out.cores.Pairwise (· < ·) := by
  rcases node with value | items | pairs
  · obtain ⟨⟨e, cores⟩, hcores, hr⟩ := Option.bind_eq_some_iff.mp h
    obtain rfl := Option.some.inj hr
    refine coresTokens_ascending ?_ List.Pairwise.nil hcores
    intro t ht
    refine ⟨strtol_nonneg fun hm => ?_, ho t ht⟩
    -- the minus sign is a delimiter
    exact tokens_free t ht 45 hm (by decide +kernel)
  · obtain ⟨⟨e, cores⟩, hcores, hr⟩ := Option.bind_eq_some_iff.mp h
    obtain rfl := Option.some.inj hr
    exact ho.sublist (coresItems_grows hcores).sublist
  · obtain rfl := Option.some.inj h
    exact List.Pairwise.nil

end Retif
