/-
# What the checks read

An entry needs no key, so `configuration_valid` may come to a name or to a list
of cores that is still as `malloc` gave it. Such a pointer leads anywhere: a
check that comes to one has no result here (`validSet`), and `parse_configuration`
none with it (`Env.parseSet`). An unset priority is some number. Where nothing
unset is read the checks are those of `Config` (`validSet_eq`), and with the
names and the cores of all entries set nothing unset is read (`validSet_isSome`),
as where all entries are complete (`checksSet_of_complete`).

`parse_configuration` reports success for accepted files only where it comes to
the end of all this with a document that was loaded (`reported_iff`): what
`yaml_parser_load` returns for a malformed file is handed on as success
(`not_reported`).

Key definitions: `draftConf`, `validSet`, `Env.parseSet`, `Accepted`, `Reported`.
Key theorems: `draftConf_follows`, `validSet_eq`, `validSet_isSome`,
`returns_iff`, `reported_iff`, `checksSet_of_complete`, `not_reported`.
-/
import Retif.Startup
import Retif.Entries

namespace Retif

open CString

/-! ### The plugins that are left -/

/-- `parse_conf_plugins`: the list before is forgotten. -/
def draftPlugins (document : Document) : Parser (List Draft) := fun node errno _ =>
  yamlParseList document (Draft.item document) (fun _ => Draft.unset) node errno []

/-- `parse_conf`, with what it sets of the plugins. -/
def draftConf (document : Document) (strtod : List UInt8 → Conversion ℚ) : ℕ → Parser (List Draft)
  | 0 => fun _ _ _ => none
  | fuel + 1 =>
    yamlParseMapping document
      [("configuration".toUTF8.toList, draftConf document strtod fuel),
       ("system".toUTF8.toList, logSystem document strtod),
       ("plugins".toUTF8.toList, draftPlugins document),
       ("rules".toUTF8.toList, fun _ errno drafts => some ⟨0, errno, drafts⟩)]

/-- The plugins in memory are those set, over some garbage. -/
def OverPlugins (conf : FullConfiguration) (drafts : List Draft) : Prop := List.Forall₂ Over conf.plugins drafts

section Follows

variable {document : Document} {strtod : List UInt8 → Conversion ℚ} {fresh : ℕ → ConfPlugin}

theorem draftSystem_follows : (parseConfSystem document strtod).Follows OverPlugins (logSystem document strtod) := by
  apply yamlParseMapping_follows
  refine .cons ⟨rfl, ?_⟩ (.cons ⟨rfl, ?_⟩ .nil)
  · exact stored_follows yamlGetLong fun _ _ _ hover => hover
  · exact stored_follows (yamlGetDouble strtod) fun _ _ _ hover => hover

theorem draftPlugins_follows : (parseConfPlugins document fresh).Follows OverPlugins (draftPlugins document) := by
  intro node errno conf drafts r _ h
  obtain ⟨vector, hvector, hr⟩ := Option.bind_eq_some_iff.mp h
  have hfresh : ∀ i, Over (fresh i) Draft.unset := fun i => ⟨fresh i, rfl⟩
  obtain ⟨last, hlast, hover⟩ := yamlParseList_follows item_follows hfresh node errno [] [] vector .nil hvector
  rw [← Option.some.inj hr]
  exact ⟨last, hlast, hover⟩

theorem draftConf_follows {fuel : ℕ} :
    (parseConf document strtod fresh fuel).Follows OverPlugins (draftConf document strtod fuel) := by
  induction fuel with
  | zero =>
    intro node errno conf drafts r _ h
    cases h
  | succ fuel ih =>
    apply yamlParseMapping_follows
    refine .cons ⟨rfl, ih⟩ (.cons ⟨rfl, draftSystem_follows⟩ (.cons ⟨rfl, draftPlugins_follows⟩
      (.cons ⟨rfl, ?_⟩ .nil)))
    intro node errno conf drafts r hover h
    rw [← Option.some.inj h]
    exact ⟨drafts, rfl, hover⟩

/-- They are the last of all that was ever pushed, or those from `before`. -/
theorem draftConf_log {before : List Draft} {fuel : ℕ} : (draftConf document strtod fuel).Follows
    (fun drafts log => drafts = before ∨ drafts <:+ log) (logConf document strtod fuel) := by
  induction fuel with
  | zero =>
    intro node errno drafts log r _ h
    cases h
  | succ fuel ih =>
    apply yamlParseMapping_follows
    refine .cons ⟨rfl, ih⟩ (.cons ⟨rfl, ?_⟩ (.cons ⟨rfl, ?_⟩ (.cons ⟨rfl, ?_⟩ .nil)))
    · apply yamlParseMapping_follows
      refine .cons ⟨rfl, ?_⟩ (.cons ⟨rfl, ?_⟩ .nil)
      · exact stored_follows yamlGetLong fun _ _ _ hlast => hlast
      · exact stored_follows (yamlGetDouble strtod) fun _ _ _ hlast => hlast
    · intro node errno drafts log r _ h
      exact ⟨log ++ r.out, yamlParseList_append h log, .inr (List.suffix_append log r.out)⟩
    · intro node errno drafts log r hlast h
      rw [← Option.some.inj h]
      exact ⟨log, rfl, hlast⟩

end Follows

/-! ### Checks that read -/

/-- A plugin in memory, and what of it the parsers have set. -/
structure Filled where
  record : ConfPlugin
  draft : Draft

/-- The second is asked after the first has held. -/
def andThen (first second : Option Bool) : Option Bool := do
  if ← first then second else some false

/-- The first that fails ends the loop. -/
def allRead {α : Type} (check : α → Option Bool) : List α → Option Bool
  | [] => some true
  | e :: es => andThen (check e) (allRead check es)

/-- The loop over the pairs of indices `high < low`. -/
def pairsRead {α : Type} (check : α → α → Option Bool) : List α → Option Bool
  | [] => some true
  | p :: ps => andThen (allRead (check p) ps) (pairsRead check ps)

namespace Filled

/-- `check_cpus` of an entry; what it complains about it logs by name. -/
def checkCpus (numProcs : ℕ) (e : Filled) : Option Bool := do
  let cores ← e.draft.cores
  if cores.all fun c => !decide (toSizeT c ≥ numProcs) then some true
  else e.draft.name.map fun _ => false

/-- `check_minmax_priorities` of an entry. -/
def checkMinmaxPriorities (e : Filled) : Option Bool :=
  if e.record.priorityMin > e.record.priorityMax then e.draft.name.map fun _ => false else some true

/-- `check_priority_windows` of two entries. Their cores have all been read by `check_cpus`. -/
def checkPriorityWindows (phigh plow : Filled) : Option Bool := do
  let high ← phigh.draft.cores
  let low ← plow.draft.cores
  if commonFrom (high.length + low.length) high low &&
      decide (phigh.record.priorityMin ≤ plow.record.priorityMax) then do
    let _ ← phigh.draft.name
    plow.draft.name.map fun _ => false
  else some true

/-- `check_plugin_names` of two entries. -/
def checkPluginNames (phigh plow : Filled) : Option Bool := do
  let high ← phigh.draft.name
  let low ← plow.draft.name
  some (!(high == low))

/-- What is set is what is in memory. -/
def Sound (e : Filled) : Prop := Over e.record e.draft

/-- The pointers that the checks follow are set. -/
def Named (e : Filled) : Prop := e.draft.name.isSome ∧ e.draft.cores.isSome

end Filled

/-- `configuration_valid`. -/
def validSet (numProcs : ℕ) (schedMaxUtil : ℚ) (entries : List Filled) : Option Bool :=
  andThen (some (checkMaxUtil ⟨schedMaxUtil, []⟩)) <|
    andThen (allRead (Filled.checkCpus numProcs) entries) <|
      andThen (allRead Filled.checkMinmaxPriorities entries) <|
        andThen (pairsRead Filled.checkPriorityWindows entries) (pairsRead Filled.checkPluginNames entries)

section Reads

theorem andThen_some {first second : Option Bool} {b : Bool} (h : andThen first second = some b) :
    (first = some false ∧ b = false) ∨ (first = some true ∧ second = some b) := by
  unfold andThen at h
  rcases first with _ | _ | _
  · cases h
  · exact .inl ⟨rfl, (Option.some.inj h).symm⟩
  · exact .inr ⟨rfl, h⟩

/-- Checks that agree where they have a result. -/
theorem andThen_eq {first second : Option Bool} {b x y : Bool} (hx : ∀ b, first = some b → b = x)
    (hy : ∀ b, second = some b → b = y) (h : andThen first second = some b) : b = (x && y) := by
  rcases andThen_some h with ⟨hfirst, rfl⟩ | ⟨hfirst, hsecond⟩
  · rw [← hx _ hfirst, Bool.false_and]
  · rw [← hx _ hfirst, ← hy _ hsecond, Bool.true_and]

theorem andThen_isSome {first second : Option Bool} (h : first.isSome) (h' : second.isSome) :
    (andThen first second).isSome := by
  obtain ⟨b, rfl⟩ := Option.isSome_iff_exists.mp h
  cases b
  · rfl
  · exact h'

variable {α : Type} {es : List α}

theorem allRead_eq {check : α → Option Bool} {holds : α → Bool}
    (hcheck : ∀ e ∈ es, ∀ b, check e = some b → b = holds e) :
    ∀ b, allRead check es = some b → b = es.all holds := by
  induction es with
  | nil => exact fun b h => (Option.some.inj h).symm
  | cons e es ih =>
    intro b h
    rw [List.all_cons]
    exact andThen_eq (hcheck e (List.mem_cons_self ..)) (ih fun x hx => hcheck x (List.mem_cons_of_mem e hx)) h

theorem allRead_isSome {check : α → Option Bool} (hcheck : ∀ e ∈ es, (check e).isSome) : (allRead check es).isSome := by
  induction es with
  | nil => rfl
  | cons e es ih =>
    exact andThen_isSome (hcheck e (List.mem_cons_self ..)) (ih fun x hx => hcheck x (List.mem_cons_of_mem e hx))

theorem pairsRead_eq {entries : List Filled} {check : Filled → Filled → Option Bool}
    {bad : ConfPlugin → ConfPlugin → Bool}
    (hcheck : ∀ p ∈ entries, ∀ q ∈ entries, ∀ b, check p q = some b → b = !bad p.record q.record) :
    ∀ b, pairsRead check entries = some b → b = checkPairs bad (entries.map Filled.record) := by
  induction entries with
  | nil => exact fun b h => (Option.some.inj h).symm
  | cons p ps ih =>
    intro b h
    have hrow : ∀ b, allRead (check p) ps = some b → b = (ps.map Filled.record).all fun q => !bad p.record q := by
      rw [List.all_map]
      exact allRead_eq fun q hq => hcheck p (List.mem_cons_self ..) q (List.mem_cons_of_mem p hq)
    exact andThen_eq hrow (ih fun x hx y hy => hcheck x (List.mem_cons_of_mem p hx) y (List.mem_cons_of_mem p hy)) h

theorem pairsRead_isSome {check : α → α → Option Bool} (hcheck : ∀ p ∈ es, ∀ q ∈ es, (check p q).isSome) :
    (pairsRead check es).isSome := by
  induction es with
  | nil => rfl
  | cons p ps ih =>
    apply andThen_isSome
    · exact allRead_isSome fun q hq => hcheck p (List.mem_cons_self ..) q (List.mem_cons_of_mem p hq)
    · exact ih fun x hx y hy => hcheck x (List.mem_cons_of_mem p hx) y (List.mem_cons_of_mem p hy)

end Reads

namespace Filled

variable {e phigh plow : Filled}

theorem Sound.name (h : e.Sound) {name : List UInt8} (hname : e.draft.name = some name) : e.record.name = name := by
  obtain ⟨garbage, hrecord⟩ := h
  rw [hrecord, Draft.over, hname]
  rfl

theorem Sound.cores (h : e.Sound) {cores : List ℤ} (hcores : e.draft.cores = some cores) : e.record.cores = cores := by
  obtain ⟨garbage, hrecord⟩ := h
  rw [hrecord, Draft.over, hcores]
  rfl

theorem checkCpus_eq (h : e.Sound) {numProcs : ℕ} (b : Bool) (hb : e.checkCpus numProcs = some b) :
    b = e.record.cores.all fun c => !decide (toSizeT c ≥ numProcs) := by
  obtain ⟨cores, hcores, hb⟩ := Option.bind_eq_some_iff.mp hb
  rw [h.cores hcores]
  split at hb
  · rename_i hall
    rw [hall]
    exact (Option.some.inj hb).symm
  · rename_i hall
    obtain ⟨_, -, rfl⟩ := Option.map_eq_some_iff.mp hb
    exact (Bool.eq_false_iff.mpr hall).symm

theorem checkMinmaxPriorities_eq (b : Bool) (hb : e.checkMinmaxPriorities = some b) :
    b = !decide (e.record.priorityMin > e.record.priorityMax) := by
  unfold checkMinmaxPriorities at hb
  split at hb
  · rename_i hgt
    obtain ⟨_, -, rfl⟩ := Option.map_eq_some_iff.mp hb
    simp [hgt]
  · rename_i hle
    rw [← Option.some.inj hb]
    simp [hle]

theorem checkPriorityWindows_eq (hhigh : phigh.Sound) (hlow : plow.Sound) (b : Bool)
    (hb : phigh.checkPriorityWindows plow = some b) :
    b = !(pluginsHaveCommonCpus phigh.record plow.record &&
      decide (phigh.record.priorityMin ≤ plow.record.priorityMax)) := by
  obtain ⟨high, hhighCores, hb⟩ := Option.bind_eq_some_iff.mp hb
  obtain ⟨low, hlowCores, hb⟩ := Option.bind_eq_some_iff.mp hb
  rw [pluginsHaveCommonCpus, hhigh.cores hhighCores, hlow.cores hlowCores]
  split at hb
  · rename_i hoverlap
    obtain ⟨_, -, hb⟩ := Option.bind_eq_some_iff.mp hb
    obtain ⟨_, -, rfl⟩ := Option.map_eq_some_iff.mp hb
    rw [hoverlap]
    rfl
  · rename_i hapart
    rw [Bool.eq_false_iff.mpr hapart]
    exact (Option.some.inj hb).symm

theorem checkPluginNames_eq (hhigh : phigh.Sound) (hlow : plow.Sound) (b : Bool)
    (hb : phigh.checkPluginNames plow = some b) : b = !(phigh.record.name == plow.record.name) := by
  obtain ⟨high, hhighName, hb⟩ := Option.bind_eq_some_iff.mp hb
  obtain ⟨low, hlowName, hb⟩ := Option.bind_eq_some_iff.mp hb
  rw [hhigh.name hhighName, hlow.name hlowName]
  exact (Option.some.inj hb).symm

theorem Named.checkCpus (h : e.Named) (numProcs : ℕ) : (e.checkCpus numProcs).isSome := by
  obtain ⟨name, hname⟩ := Option.isSome_iff_exists.mp h.1
  obtain ⟨cores, hcores⟩ := Option.isSome_iff_exists.mp h.2
  simp only [Filled.checkCpus, hname, hcores, Option.bind_eq_bind, Option.bind_some, Option.map_some]
  split <;> rfl

theorem Named.checkMinmaxPriorities (h : e.Named) : e.checkMinmaxPriorities.isSome := by
  obtain ⟨name, hname⟩ := Option.isSome_iff_exists.mp h.1
  simp only [Filled.checkMinmaxPriorities, hname]
  split <;> rfl

theorem Named.checkPriorityWindows (hhigh : phigh.Named) (hlow : plow.Named) :
    (phigh.checkPriorityWindows plow).isSome := by
  obtain ⟨name, hname⟩ := Option.isSome_iff_exists.mp hhigh.1
  obtain ⟨high, hhighCores⟩ := Option.isSome_iff_exists.mp hhigh.2
  obtain ⟨name', hname'⟩ := Option.isSome_iff_exists.mp hlow.1
  obtain ⟨low, hlowCores⟩ := Option.isSome_iff_exists.mp hlow.2
  simp only [Filled.checkPriorityWindows, hname, hhighCores, hname', hlowCores, Option.bind_eq_bind, Option.bind_some,
    Option.map_some]
  split <;> rfl

theorem Named.checkPluginNames (hhigh : phigh.Named) (hlow : plow.Named) : (phigh.checkPluginNames plow).isSome := by
  obtain ⟨name, hname⟩ := Option.isSome_iff_exists.mp hhigh.1
  obtain ⟨name', hname'⟩ := Option.isSome_iff_exists.mp hlow.1
  simp only [Filled.checkPluginNames, hname, hname']
  rfl

end Filled

section Valid

variable {numProcs : ℕ} {schedMaxUtil : ℚ} {entries : List Filled}

/-- **The checks are those of `Config`** wherever they read nothing unset. -/
theorem validSet_eq (hsound : ∀ e ∈ entries, e.Sound) {b : Bool} (h : validSet numProcs schedMaxUtil entries = some b) :
    b = configurationValid numProcs ⟨schedMaxUtil, entries.map Filled.record⟩ := by
  have hcpus : ∀ b, allRead (Filled.checkCpus numProcs) entries = some b →
      b = entries.all fun e => e.record.cores.all fun c => !decide (toSizeT c ≥ numProcs) :=
    allRead_eq fun e he => Filled.checkCpus_eq (hsound e he)
  have hminmax : ∀ b, allRead Filled.checkMinmaxPriorities entries = some b →
      b = entries.all fun e => !decide (e.record.priorityMin > e.record.priorityMax) :=
    allRead_eq fun _ _ => Filled.checkMinmaxPriorities_eq
  have hwindows : ∀ b, pairsRead Filled.checkPriorityWindows entries = some b → b = checkPairs (fun phigh plow =>
      pluginsHaveCommonCpus phigh plow && decide (phigh.priorityMin ≤ plow.priorityMax)) (entries.map Filled.record) :=
    pairsRead_eq fun p hp q hq => Filled.checkPriorityWindows_eq (hsound p hp) (hsound q hq)
  have hnames : ∀ b, pairsRead Filled.checkPluginNames entries = some b →
      b = checkPairs (fun phigh plow => phigh.name == plow.name) (entries.map Filled.record) :=
    pairsRead_eq fun p hp q hq => Filled.checkPluginNames_eq (hsound p hp) (hsound q hq)
  have hvalid := andThen_eq (fun b hb => (Option.some.inj hb).symm)
    (fun b => andThen_eq hcpus (fun b => andThen_eq hminmax (fun b => andThen_eq hwindows hnames))) h
  rw [hvalid]
  simp only [configurationValid, checkCpus, checkMinmaxPriorities, checkPriorityWindows, checkPluginNames, List.all_map,
    Bool.and_assoc]
  rfl

/-- With names and cores set nothing unset is read. -/
theorem validSet_isSome (hnamed : ∀ e ∈ entries, e.Named) : (validSet numProcs schedMaxUtil entries).isSome := by
  apply andThen_isSome rfl
  apply andThen_isSome
  · exact allRead_isSome fun e he => (hnamed e he).checkCpus numProcs
  apply andThen_isSome
  · exact allRead_isSome fun e he => (hnamed e he).checkMinmaxPriorities
  apply andThen_isSome
  · exact pairsRead_isSome fun p hp q hq => (hnamed p hp).checkPriorityWindows (hnamed q hq)
  · exact pairsRead_isSome fun p hp q hq => (hnamed p hp).checkPluginNames (hnamed q hq)

end Valid

/-! ### What `parse_configuration` reports -/

/-- An element of the configuration before, with every field set. -/
def Draft.ofPlugin (c : ConfPlugin) : Draft :=
  ⟨some c.name, some c.pluginPath, some c.priorityMin, some c.priorityMax, some c.cores⟩

/-- The plugins `parse_conf` leaves in `conf`, and what it has set of them. -/
def Env.filled (env : Env) (document : Document) (root : Node) (fuel : ℕ) (conf : FullConfiguration) :
    Option (List Filled) := do
  let d ← draftConf document env.strtod fuel root env.errno (env.conf.plugins.map Draft.ofPlugin)
  some (List.zipWith Filled.mk conf.plugins d.out)

/-- `parse_configuration`, with no result where a check comes to something unset. -/
def Env.parseSet (env : Env) (fuel : ℕ) : Option (ℕ × FullConfiguration) :=
  match env.loaded with
  | none => some (0, env.conf)
  | some document => do
    let root ← document.root
    let r ← parseConf document env.strtod env.fresh fuel root env.errno env.conf
    if r.ret ≠ 0 then some (r.ret, r.out)
    else do
      let entries ← env.filled document root fuel r.out
      let valid ← validSet env.numProcs r.out.schedMaxUtil entries
      some (if valid then 0 else 1, r.out)

/-- `parse_configuration` returns `ret` and leaves `conf`, and has read nothing unset. -/
def Env.Returns (env : Env) (ret : ℕ) (conf : FullConfiguration) : Prop := ∃ fuel, env.parseSet fuel = some (ret, conf)

/-- On what `parse_conf` leaves, the checks read nothing unset. -/
def ChecksSet (env : Env) (document : Document) (root : Node) (r : Parsed FullConfiguration) : Prop :=
  ∃ fuel entries, parseConf document env.strtod env.fresh fuel root env.errno env.conf = some r ∧
    env.filled document root fuel r.out = some entries ∧ (validSet env.numProcs r.out.schedMaxUtil entries).isSome

/-- The file is loaded, parsed to its end, and valid. -/
def Accepted (env : Env) : Prop := ∃ document root e conf, env.loaded = some document ∧ document.root = some root ∧
  ParseConf env document root ⟨0, e, conf⟩ ∧ configurationValid env.numProcs conf.toConfiguration = true

/-- **Success for accepted files only**: `parse_configuration` returns, and 0 just
for an accepted file; with any other file the daemon does not start. -/
def Reported (env : Env) : Prop := ∃ ret conf, env.Returns ret conf ∧ (ret = 0 ↔ Accepted env) ∧
  (¬ Accepted env → ∀ fs, env.Starts fs (.error fs))

section Reports

variable {env : Env}

theorem zip_sound {plugins : List ConfPlugin} {drafts : List Draft} (h : List.Forall₂ Over plugins drafts) :
    (∀ e ∈ List.zipWith Filled.mk plugins drafts, e.Sound) ∧
      (List.zipWith Filled.mk plugins drafts).map Filled.record = plugins := by
  induction h with
  | nil => exact ⟨fun e he => absurd he List.not_mem_nil, rfl⟩
  | cons hover _ ih =>
    obtain ⟨hsound, hrecords⟩ := ih
    refine ⟨List.forall_mem_cons.mpr ⟨hover, hsound⟩, ?_⟩
    rw [List.zipWith_cons_cons, List.map_cons, hrecords]

theorem draft_mem {plugins : List ConfPlugin} {drafts : List Draft} {e : Filled}
    (h : e ∈ List.zipWith Filled.mk plugins drafts) : e.draft ∈ drafts := by
  rw [← List.map_uncurry_zip_eq_zipWith] at h
  obtain ⟨⟨c, d⟩, hcd, rfl⟩ := List.mem_map.mp h
  exact (List.of_mem_zip hcd).2

theorem over_ofPlugin (plugins : List ConfPlugin) : List.Forall₂ Over plugins (plugins.map Draft.ofPlugin) := by
  induction plugins with
  | nil => exact .nil
  | cons c plugins ih => exact .cons ⟨c, rfl⟩ ih

/-- What is known of the plugins goes with them. -/
theorem filled_sound {document : Document} {root : Node} {fuel : ℕ} {r : Parsed FullConfiguration}
    (h : parseConf document env.strtod env.fresh fuel root env.errno env.conf = some r) :
    ∃ entries, env.filled document root fuel r.out = some entries ∧ (∀ e ∈ entries, e.Sound) ∧
      entries.map Filled.record = r.out.plugins := by
  obtain ⟨drafts, hdrafts, hover⟩ := draftConf_follows root env.errno env.conf _ r (over_ofPlugin env.conf.plugins) h
  refine ⟨List.zipWith Filled.mk r.out.plugins drafts, ?_, zip_sound hover⟩
  simp only [Env.filled, hdrafts, Option.bind_eq_bind, Option.bind_some]

/-- **What it returns**, stage by stage, having read nothing unset. -/
theorem returns_iff {ret : ℕ} {conf : FullConfiguration} : env.Returns ret conf ↔
    (env.loaded = none ∧ ret = 0 ∧ conf = env.conf) ∨
      ∃ document root r, env.loaded = some document ∧ document.root = some root ∧ ParseConf env document root r ∧
        (r.ret = 0 → ChecksSet env document root r) ∧ conf = r.out ∧ ret =
          if r.ret ≠ 0 then r.ret else if configurationValid env.numProcs r.out.toConfiguration then 0 else 1 := by
  have hjudge : ∀ {document root fuel r entries valid},
      parseConf document env.strtod env.fresh fuel root env.errno env.conf = some r →
        env.filled document root fuel r.out = some entries →
          validSet env.numProcs r.out.schedMaxUtil entries = some valid →
            valid = configurationValid env.numProcs r.out.toConfiguration := by
    intro document root fuel r entries valid hr hentries hvalid
    obtain ⟨entries', hentries', hsound, hrecords⟩ := filled_sound hr
    obtain rfl := Option.some.inj (hentries.symm.trans hentries')
    rw [validSet_eq hsound hvalid, hrecords]
  unfold Env.Returns Env.parseSet
  rcases env.loaded with _ | document
  · constructor
    · rintro ⟨_, h⟩
      obtain ⟨rfl, rfl⟩ := Prod.mk.inj (Option.some.inj h)
      exact .inl ⟨rfl, rfl, rfl⟩
    · rintro (⟨-, rfl, rfl⟩ | ⟨document, -, -, hload, -⟩)
      · exact ⟨0, rfl⟩
      · cases hload
  · simp only [reduceCtorEq, false_and, false_or, Option.some.injEq, Option.bind_eq_bind, Option.bind_eq_some_iff]
    constructor
    · rintro ⟨fuel, root, hroot, r, hr, h⟩
      refine ⟨document, root, r, rfl, hroot, ⟨fuel, hr⟩, ?_⟩
      by_cases hret : r.ret = 0
      · rw [if_neg (not_not.mpr hret)] at h
        obtain ⟨entries, hentries, h⟩ := Option.bind_eq_some_iff.mp h
        obtain ⟨valid, hvalid, h⟩ := Option.bind_eq_some_iff.mp h
        obtain ⟨rfl, rfl⟩ := Prod.mk.inj (Option.some.inj h)
        refine ⟨fun _ => ⟨fuel, entries, hr, hentries, by rw [hvalid]; rfl⟩, rfl, ?_⟩
        rw [if_neg (not_not.mpr hret), hjudge hr hentries hvalid]
      · rw [if_pos hret] at h ⊢
        obtain ⟨rfl, rfl⟩ := Prod.mk.inj (Option.some.inj h)
        exact ⟨fun h0 => absurd h0 hret, rfl, rfl⟩
    · rintro ⟨_, root, r, rfl, hroot, ⟨fuel, hr⟩, hset, rfl, rfl⟩
      by_cases hret : r.ret = 0
      · obtain ⟨fuel, entries, hr, hentries, hsome⟩ := hset hret
        obtain ⟨valid, hvalid⟩ := Option.isSome_iff_exists.mp hsome
        refine ⟨fuel, root, hroot, r, hr, ?_⟩
        rw [if_neg (not_not.mpr hret), if_neg (not_not.mpr hret), hentries, Option.bind_some, hvalid, Option.bind_some,
          hjudge hr hentries hvalid]
      · refine ⟨fuel, root, hroot, r, hr, ?_⟩
        rw [if_pos hret, if_pos hret]

/-- What it returns is what `Parse` has it return. -/
theorem Env.Returns.parses {ret : ℕ} {conf : FullConfiguration} (h : env.Returns ret conf) : env.Parses ret conf := by
  rcases returns_iff.mp h with hnone | ⟨document, root, r, hload, hroot, hr, -, hconf, hret⟩
  · exact parses_iff.mpr (.inl hnone)
  · exact parses_iff.mpr (.inr ⟨document, root, r, hload, hroot, hr, hconf, hret⟩)

/-- The 0 of `yaml_parser_load` is handed on, so a file that does not load is not reported. -/
theorem Reported.loaded (h : Reported env) : ∃ document, env.loaded = some document := by
  obtain ⟨ret, conf, hreturns, hret, -⟩ := h
  rcases returns_iff.mp hreturns with ⟨-, rfl, -⟩ | ⟨document, root, r, hload, -⟩
  · obtain ⟨document, -, -, -, hload, -⟩ := hret.mp rfl
    exact ⟨document, hload⟩
  · exact ⟨document, hload⟩

/-- It reports rightly exactly where the file loads, has a root, `parse_conf`
returns on it, and the checks on a file without complaints read nothing unset. -/
theorem reported_iff : Reported env ↔ ∃ document root r, env.loaded = some document ∧ document.root = some root ∧
    ParseConf env document root r ∧ (r.ret = 0 → ChecksSet env document root r) := by
  constructor
  · intro h
    obtain ⟨document, hload⟩ := h.loaded
    obtain ⟨ret, conf, hreturns, -⟩ := h
    rcases returns_iff.mp hreturns with ⟨hnone, -⟩ | ⟨document, root, r, hload, hroot, hr, hset, -⟩
    · simp [hnone] at hload
    · exact ⟨document, root, r, hload, hroot, hr, hset⟩
  · rintro ⟨document, root, r, hload, hroot, hr, hset⟩
    have haccepted : Accepted env ↔ r.ret = 0 ∧ configurationValid env.numProcs r.out.toConfiguration = true := by
      constructor
      · rintro ⟨document', root', e, conf, hload', hroot', hr', hvalid⟩
        obtain rfl := Option.some.inj (hload.symm.trans hload')
        obtain rfl := Option.some.inj (hroot.symm.trans hroot')
        obtain rfl := hr.unique hr'
        exact ⟨rfl, hvalid⟩
      · rintro ⟨hzero, hvalid⟩
        obtain ⟨ret, e, conf⟩ := r
        obtain rfl : ret = 0 := hzero
        exact ⟨document, root, e, conf, hload, hroot, hr, hvalid⟩
    have hreturns := returns_iff.mpr (.inr ⟨document, root, r, hload, hroot, hr, hset, rfl, rfl⟩)
    refine ⟨_, r.out, hreturns, ?_, ?_⟩
    · rw [haccepted]
      split_ifs <;> simp_all
    · intro hnot fs
      apply starts_iff.mpr
      refine ⟨_, r.out, hreturns.parses, ?_⟩
      rw [if_pos]
      rw [haccepted] at hnot
      split_ifs <;> simp_all

/-- Where every item of the document is a complete entry, nothing unset is read. -/
theorem checksSet_of_complete {document : Document} {root : Node} {r : Parsed FullConfiguration}
    (h : ParseConf env document root r) (hret : r.ret = 0)
    (hall : ∀ item, HoldsItem document root item → CompleteItem document item) : ChecksSet env document root r := by
  obtain ⟨fuel, hr⟩ := h
  obtain ⟨drafts, hdrafts, -⟩ := draftConf_follows root env.errno env.conf _ r (over_ofPlugin env.conf.plugins) hr
  obtain ⟨log, hlog, hlast⟩ := draftConf_log root env.errno _ [] _ (.inl rfl) hdrafts
  have hcomplete := (logConf_pushed hlog hret).mpr ⟨fun e he => absurd he List.not_mem_nil, hall⟩
  have hentries : env.filled document root fuel r.out = some (List.zipWith Filled.mk r.out.plugins drafts) := by
    simp only [Env.filled, hdrafts, Option.bind_eq_bind, Option.bind_some]
  refine ⟨fuel, _, hr, hentries, validSet_isSome ?_⟩
  intro e he
  have hdraft := draft_mem he
  rcases hlast with hbefore | hsuffix
  · dsimp only at hbefore
    rw [hbefore] at hdraft
    obtain ⟨c, -, hc⟩ := List.mem_map.mp hdraft
    exact ⟨by rw [← hc]; rfl, by rw [← hc]; rfl⟩
  · have hd := hcomplete e.draft (hsuffix.subset hdraft)
    obtain ⟨cores, hcores, -⟩ := hd.cores
    exact ⟨hd.name, by rw [hcores]; rfl⟩

end Reports

/-! ### A malformed file, and an entry without cores -/

open StartupExample in
/-- The malformed file is no accepted one, and 0 is returned. -/
theorem not_reported : ¬ ∀ env : Env, Reported env := by
  intro h
  obtain ⟨document, hload⟩ := (h malformed).loaded
  simp [malformed] at hload

/-- An entry with a name only: `check_cpus` comes to the cores. -/
example : (draftConf EntryExample.document OverlapExample.strtod 1 (.mapping [(2, 3)]) false []).map (·.out) =
      some [⟨some "A".toUTF8.toList, none, none, none, none⟩] ∧
    validSet 4 1 [⟨OverlapExample.blank, ⟨some "A".toUTF8.toList, none, none, none, none⟩⟩] = none := by
  constructor <;> decide +kernel

end Retif
