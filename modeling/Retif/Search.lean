/-
# Where the plugins are loaded from

`retif_plugin.c` from `find_and_open_plugin` down, on the buffers it uses. A path
that begins with a slash is opened as it is; any other is looked for in the
directory of the configuration file, which is made in place, by `dirname` in a
copy of its path, and then in the directory plugins are installed in. The first
place where there is a file decides: one that does not load is not looked for
elsewhere.

`find_and_open_plugin` does not look at what `dirname` returns, and there is room
for the slash behind the directory only if `dirname` has shortened the copy. It
has not for a file named without a directory (`Overruns`): there the slash takes
the place of the NUL, and the NUL is written behind the block.

Key definitions: `Files`, `fullpath`, `openPluginDll`, `findAndOpenPlugin`,
`searchPlugins`, `Overruns`, `DirectoryOf`, `Files.search`.
Key theorems: `curpath_holds`, `curpath_outside`, `findAndOpenPlugin_relative`, `plugins_searched`.
-/
import Retif.Scheduler
import Retif.Lib.Paths

namespace Retif

open Blocks Paths

/-! ### The code -/

/-- What the calls on paths answer, and `PLUGIN_DEFAULT_INSTALLPATH`. -/
structure Files where
  access : List UInt8 → Bool
  dlopen : List UInt8 → Option Image
  installpath : List UInt8

/-- `fullpath`, its `calloc` granted. -/
def fullpath (path relpath : List UInt8) : Except Misuse Block := do
  let fpath := Block.calloc (path.length + relpath.length + 1)
  let fpath ← fpath.strcat path
  fpath.strcat relpath

/-- 0, -1 and -2. -/
inductive Opening where
  | opened (img : Image)
  | unloadable
  | missing

def openPluginDll (files : Files) (path relpath : List UInt8) : Except Misuse Opening := do
  let fpath ← fullpath path relpath
  let name ← fpath.text
  if files.access name = false then .ok .missing
  else
    match files.dlopen name with
    | none => .ok .unloadable
    | some img => .ok (.opened img)

/-- `curpath`, before a plugin is looked for in it. -/
def curpath (confFilePath : List UInt8) : Except Misuse Block := do
  let curpath ← (Block.calloc (confFilePath.length + 1)).strcpy confFilePath
  -- What `dirname` returns is not used.
  let curpath ← dirname curpath
  curpath.strcat [slash]

/-- The image of the plugin, or -1. -/
def findAndOpenPlugin (files : Files) (confFilePath path : List UInt8) : Except Misuse (Option Image) :=
  if path.length < 1 then .ok none
  else if path.head? = some slash then do
    match ← openPluginDll files [] path with
    | .missing => .ok none
    | .unloadable => .ok none
    | .opened img => .ok (some img)
  else do
    let curpath ← curpath confFilePath
    let dir ← curpath.text
    match ← openPluginDll files dir path with
    | .opened img => .ok (some img)
    | .unloadable => do
      -- For the message.
      let _ ← fullpath dir path
      .ok none
    | .missing =>
      match ← openPluginDll files files.installpath path with
      | .opened img => .ok (some img)
      | .unloadable => do
        let _ ← fullpath files.installpath path
        .ok none
      | .missing => .ok none

/-- The loop of `rtf_plugins_init` from index `i` on, with the search in it. -/
def searchPluginsFrom (files : Files) (confFilePath : List UInt8) :
    ℕ → List ConfPlugin → Except Misuse (Option (List Plugin))
  | _, [] => .ok (some [])
  | i, c :: cs => do
    match ← findAndOpenPlugin files confFilePath c.pluginPath with
    | none => .ok none
    | some img => do
      let plgs ← searchPluginsFrom files confFilePath (i + 1) cs
      .ok (plgs.map (initPlugin byPosition i c img :: ·))

/-- `rtf_plugins_init`. -/
def searchPlugins (files : Files) (confFilePath : List UInt8) (confs : List ConfPlugin) :
    Except Misuse (Option (List Plugin)) :=
  searchPluginsFrom files confFilePath 0 confs

/-! ### What it is for -/

/-- The first of the places where there is a file decides. -/
def Files.firstOf (files : Files) (places : List (List UInt8)) : Option Image :=
  (places.find? files.access).bind files.dlopen

/-- A plugin is looked for in `dir`, then where plugins are installed. -/
def Files.search (files : Files) (dir path : List UInt8) : Option Image :=
  if path = [] then none
  else if path.head? = some slash then files.firstOf [path]
  else files.firstOf [dir ++ path, files.installpath ++ path]

/-- `dir`, with a slash behind it, is the directory of the file `path`. -/
structure DirectoryOf (path dir : List UInt8) : Prop where
  ends : dir.getLast? = some slash
  absolute : dir.head? = some slash ↔ path.head? = some slash
  components : components dir = (components path).dropLast

/-- `dirname` leaves all of the path: a file without a directory, or the root by its shortest names. -/
def Overruns (path : List UInt8) : Prop :=
  (path.head? ≠ some slash ∧ (components path).length ≤ 1) ∨ path = [slash] ∨ path = [slash, slash]

instance (path : List UInt8) : Decidable (Overruns path) := by
  unfold Overruns; infer_instance

/-- Not empty, and not from the root. -/
def Relative (path : List UInt8) : Prop := path ≠ [] ∧ path.head? ≠ some slash

/-- The loop comes to an entry with a relative path. -/
def ComesToRelative (files : Files) (confs : List ConfPlugin) : Prop :=
  ∃ before c after, confs = before ++ c :: after ∧ Relative c.pluginPath ∧
    ∀ b ∈ before, b.pluginPath.head? = some slash ∧ (files.firstOf [b.pluginPath]).isSome

/-! ### The directory -/

section Directory

variable {path : List UInt8}

theorem dirnameText_none (h : dirnameCut path = none) : dirnameText path = path := by
  simp [dirnameText, h]

theorem dirnameText_some {i : ℕ} (h : dirnameCut path = some i) : dirnameText path = path.take i := by
  simp [dirnameText, h]

theorem not_overruns (hne : components path ≠ []) (h : path.head? = some slash ∨ 2 ≤ (components path).length) :
    ¬ Overruns path := by
  rintro (⟨hhead, hshort⟩ | rfl | rfl)
  · rcases h with h | h
    · exact hhead h
    · omega
  · exact hne rfl
  · exact hne rfl

/-- The copy is as long as the path exactly where the slash has no room. -/
theorem overruns_iff : Overruns path ↔ path.length ≤ (dirnameText path).length := by
  rcases dirname_cases path with ⟨rfl, -⟩ | ⟨name, n, hne, hfree, rfl, hcut⟩ | ⟨n, rfl, hcut⟩ |
    ⟨m, name, n, hne, hfree, rfl, hcut⟩ | ⟨a, m, name, n, hnil, ha, hne, hfree, rfl, hcut⟩
  · exact iff_of_true (by decide) (by decide)
  · rw [dirnameText_none hcut]
    have hhead : (name ++ List.replicate n slash).head? ≠ some slash := by
      obtain ⟨c, name, rfl⟩ := List.exists_cons_of_ne_nil hne
      simp only [List.mem_cons, not_or] at hfree
      simpa using Ne.symm hfree.1
    refine iff_of_true (.inl ⟨hhead, ?_⟩) le_rfl
    rw [components_trailing, components_single hne hfree, List.length_singleton]
  · rw [dirnameText_some hcut]
    rcases n with _ | _ | n
    · exact iff_of_true (by decide) (by decide)
    · exact iff_of_true (by decide) (by decide)
    · refine iff_of_false ?_ ?_
      · rintro (⟨hhead, -⟩ | h | h)
        · exact hhead rfl
        · simpa using congrArg List.length h
        · simpa using congrArg List.length h
      · simp
  · have hpos : 0 < name.length := List.length_pos_iff.mpr hne
    have hcomponents := components_name [] m hne hfree n
    simp only [List.nil_append, components_nil] at hcomponents
    refine iff_of_false (not_overruns ?_ (.inl rfl)) ?_
    · rw [hcomponents]
      simp
    · rw [dirnameText_some hcut]
      simp only [List.length_take, List.length_append, List.length_replicate]
      split <;> omega
  · have hpos : 0 < name.length := List.length_pos_iff.mpr hne
    have hcomponents := components_name a m hne hfree n
    have ha := List.length_pos_iff.mpr (components_ne_nil hnil ha)
    refine iff_of_false (not_overruns ?_ (.inr ?_)) ?_
    · rw [hcomponents]
      simp
    · rw [hcomponents, List.length_append, List.length_singleton]
      omega
    · rw [dirnameText_some hcut]
      simp only [List.length_take, List.length_append, List.length_replicate]
      omega

/-- The directory of what is in the root. -/
theorem directoryOf_root (hhead : path.head? = some slash) (hlast : (components path).dropLast = []) (k : ℕ) :
    DirectoryOf path (List.replicate (k + 1) slash ++ [slash]) := by
  refine ⟨by simp, iff_of_true rfl hhead, ?_⟩
  rw [hlast, ← List.replicate_succ', components_slashes]

/-- Where it has room, what is left of the copy is the directory. -/
theorem directoryOf_dirnameText (h : ¬ Overruns path) : DirectoryOf path (dirnameText path ++ [slash]) := by
  rcases dirname_cases path with ⟨rfl, -⟩ | ⟨name, n, hne, hfree, rfl, hcut⟩ | ⟨n, rfl, hcut⟩ |
    ⟨m, name, n, hne, hfree, rfl, hcut⟩ | ⟨a, m, name, n, hnil, ha, hne, hfree, rfl, hcut⟩
  · exact absurd (by decide) h
  · exact absurd (overruns_iff.mpr (congrArg List.length (dirnameText_none hcut)).ge) h
  · rw [dirnameText_some hcut]
    rcases n with _ | _ | n
    · exact absurd (by decide) h
    · exact absurd (by decide) h
    · exact directoryOf_root rfl (by rw [components_slashes]; rfl) 0
  · have hcomponents := components_name [] m hne hfree n
    simp only [List.nil_append, components_nil] at hcomponents
    have hlast : (components (List.replicate (m + 1) slash ++ name ++ List.replicate n slash)).dropLast = [] := by
      rw [hcomponents, List.dropLast_singleton]
    rw [dirnameText_some hcut]
    by_cases hm : m = 1
    · subst hm
      exact directoryOf_root rfl hlast 1
    · rw [if_neg hm]
      exact directoryOf_root rfl hlast 0
  · have hbehind : dirnameText (a ++ List.replicate (m + 1) slash ++ name ++ List.replicate n slash) = a := by
      rw [dirnameText_some hcut, List.append_assoc, List.append_assoc, List.take_left]
    have hcomponents := components_name a m hne hfree n
    rw [hbehind]
    refine ⟨by simp, ?_, ?_⟩
    · obtain ⟨c, a, rfl⟩ := List.exists_cons_of_ne_nil hnil
      exact Iff.rfl
    · rw [hcomponents, List.dropLast_concat]
      exact components_trailing a 1

end Directory

/-! ### One plugin -/

section One

variable {files : Files} {confFilePath dir path relpath : List UInt8}

/-- There is room for both. -/
theorem fullpath_holds (hpath : 0 ∉ path) (hrelpath : 0 ∉ relpath) :
    ∃ b, fullpath path relpath = .ok b ∧ Holds b (path.length + relpath.length + 1) (path ++ relpath) := by
  obtain ⟨b, hb, hheld⟩ := strcat_holds (calloc_holds (Nat.succ_pos (path.length + relpath.length))) hpath
    (by rw [List.length_nil]; omega)
  obtain ⟨b', hb', hheld'⟩ := strcat_holds hheld hrelpath (by rw [List.nil_append]; omega)
  refine ⟨b', ?_, hheld'⟩
  simp only [fullpath, hb, bind, Except.bind]
  exact hb'

/-- What opening the file at a place comes to. -/
def Files.opening (files : Files) (place : List UInt8) : Opening :=
  if files.access place = false then .missing
  else
    match files.dlopen place with
    | none => .unloadable
    | some img => .opened img

theorem openPluginDll_eq (hpath : 0 ∉ path) (hrelpath : 0 ∉ relpath) :
    openPluginDll files path relpath = .ok (files.opening (path ++ relpath)) := by
  obtain ⟨b, hb, hheld⟩ := fullpath_holds hpath hrelpath
  simp only [openPluginDll, hb, hheld.text, bind, Except.bind, Files.opening]
  split
  · rfl
  · split <;> rfl

theorem firstOf_nil : files.firstOf [] = none := rfl

theorem firstOf_cons (place : List UInt8) (places : List (List UInt8)) :
    files.firstOf (place :: places) =
      match files.opening place with
      | .opened img => some img
      | .unloadable => none
      | .missing => files.firstOf places := by
  unfold Files.firstOf Files.opening
  cases haccess : files.access place with
  | false => simp [haccess]
  | true =>
    simp only [List.find?_cons, haccess, Option.bind_some, Bool.true_eq_false, if_false]
    cases files.dlopen place <;> rfl

/-- The copy holds what `dirname` has left, before the slash is put behind it. -/
theorem curpath_eq (hconf : 0 ∉ confFilePath) :
    ∃ b, curpath confFilePath = b.strcat [slash] ∧ Holds b (confFilePath.length + 1) (dirnameText confFilePath) := by
  obtain ⟨b, hb, hheld⟩ := strcpy_holds hconf (Nat.lt_succ_self _)
  obtain ⟨b', hb', hheld'⟩ := dirname_holds hheld
  refine ⟨b', ?_, hheld'⟩
  simp only [curpath, hb, hb', bind, Except.bind]

theorem curpath_outside (hconf : 0 ∉ confFilePath) (h : Overruns confFilePath) :
    curpath confFilePath = .error .outside := by
  obtain ⟨b, hb, hheld⟩ := curpath_eq hconf
  rw [hb]
  exact strcat_outside hheld (Nat.succ_le_succ (overruns_iff.mp h))

theorem curpath_holds (hconf : 0 ∉ confFilePath) (h : ¬ Overruns confFilePath) :
    ∃ b, curpath confFilePath = .ok b ∧
      Holds b (confFilePath.length + 1) (dirnameText confFilePath ++ [slash]) := by
  obtain ⟨b, hb, hheld⟩ := curpath_eq hconf
  have hroom := mt overruns_iff.mpr h
  obtain ⟨b', hb', hheld'⟩ := strcat_holds hheld (by decide : 0 ∉ [slash])
    (by rw [List.length_singleton]; omega)
  exact ⟨b', hb.trans hb', hheld'⟩

/-- Where `dir` makes no difference. -/
theorem search_rooted (h : ¬ Relative path) (dir : List UInt8) :
    (files.search dir path).isSome ↔ path.head? = some slash ∧ (files.firstOf [path]).isSome := by
  unfold Files.search
  by_cases hnil : path = []
  · simp [hnil]
  · have hhead : path.head? = some slash := by
      by_contra hhead
      exact h ⟨hnil, hhead⟩
    rw [if_neg hnil, if_pos hhead]
    exact (and_iff_right hhead).symm

/-- `curpath` is not needed: the path is empty, or begins at the root. -/
theorem findAndOpenPlugin_rooted (hpath : 0 ∉ path) (h : ¬ Relative path) (dir : List UInt8) :
    findAndOpenPlugin files confFilePath path = .ok (files.search dir path) := by
  unfold findAndOpenPlugin Files.search
  by_cases hnil : path = []
  · simp [hnil]
  · have hlength : ¬ path.length < 1 := by simpa [List.length_pos_iff] using hnil
    have hhead : path.head? = some slash := by
      by_contra hhead
      exact h ⟨hnil, hhead⟩
    simp only [if_neg hlength, if_pos hhead, if_neg hnil, openPluginDll_eq List.not_mem_nil hpath, List.nil_append,
      bind, Except.bind, firstOf_cons]
    cases files.opening path <;> rfl

theorem findAndOpenPlugin_overruns (hconf : 0 ∉ confFilePath) (ho : Overruns confFilePath) (h : Relative path) :
    findAndOpenPlugin files confFilePath path = .error .outside := by
  have hlength : ¬ path.length < 1 := by simpa [List.length_pos_iff] using h.1
  simp only [findAndOpenPlugin, if_neg hlength, if_neg h.2, curpath_outside hconf ho, bind, Except.bind]

/-- A relative path is looked for in the directory, then where plugins are installed. -/
theorem findAndOpenPlugin_relative (hconf : 0 ∉ confFilePath) (hinstall : 0 ∉ files.installpath) (hpath : 0 ∉ path)
    (ho : ¬ Overruns confFilePath) (h : Relative path) :
    findAndOpenPlugin files confFilePath path = .ok (files.search (dirnameText confFilePath ++ [slash]) path) := by
  have hlength : ¬ path.length < 1 := by simpa [List.length_pos_iff] using h.1
  obtain ⟨b, hb, hheld⟩ := curpath_holds hconf ho
  have hdir := hheld.1
  obtain ⟨b₁, hb₁, -⟩ := fullpath_holds hdir hpath
  obtain ⟨b₂, hb₂, -⟩ := fullpath_holds hinstall hpath
  simp only [findAndOpenPlugin, if_neg hlength, if_neg h.2, hb, hheld.text, openPluginDll_eq hdir hpath,
    openPluginDll_eq hinstall hpath, hb₁, hb₂, bind, Except.bind, Files.search, if_neg h.1, firstOf_cons, firstOf_nil]
  cases files.opening (dirnameText confFilePath ++ [slash] ++ path) with
  | opened img => rfl
  | unloadable => rfl
  | missing => cases files.opening (files.installpath ++ path) <;> rfl

end One

/-! ### All of them -/

section All

variable {files : Files} {confFilePath : List UInt8} {i : ℕ} {c : ConfPlugin} {confs : List ConfPlugin}

/-- The loop is that of `rtfPluginsInit`, where the search comes to an end. -/
theorem searchPluginsFrom_eq {load : List UInt8 → Option Image}
    (h : ∀ c ∈ confs, findAndOpenPlugin files confFilePath c.pluginPath = .ok (load c.pluginPath)) (i : ℕ) :
    searchPluginsFrom files confFilePath i confs = .ok (initPlugins byPosition load i confs) := by
  induction confs generalizing i with
  | nil => rfl
  | cons c confs ih =>
    have hrest := ih (fun c' hc' => h c' (List.mem_cons_of_mem _ hc')) (i + 1)
    simp only [searchPluginsFrom, initPlugins, h c (List.mem_cons_self ..), bind, Except.bind, Option.bind]
    cases load c.pluginPath with
    | none => rfl
    | some img =>
      simp only [hrest]
      cases initPlugins byPosition load (i + 1) confs <;> rfl

theorem comesToRelative_cons : ComesToRelative files (c :: confs) ↔
    Relative c.pluginPath ∨
      (c.pluginPath.head? = some slash ∧ (files.firstOf [c.pluginPath]).isSome) ∧ ComesToRelative files confs := by
  constructor
  · rintro ⟨before, d, after, heq, hd, hbefore⟩
    cases before with
    | nil =>
      obtain ⟨rfl, -⟩ := List.cons.inj heq
      exact .inl hd
    | cons b before =>
      obtain ⟨rfl, rfl⟩ := List.cons.inj heq
      obtain ⟨hb, hbefore⟩ := List.forall_mem_cons.mp hbefore
      exact .inr ⟨hb, before, d, after, rfl, hd, hbefore⟩
  · rintro (hc | ⟨hc, before, d, after, rfl, hd, hbefore⟩)
    · exact ⟨[], c, confs, rfl, hc, by simp⟩
    · exact ⟨c :: before, d, after, rfl, hd, List.forall_mem_cons.mpr ⟨hc, hbefore⟩⟩

/-- Where the copy is not shortened, the loop ends in the first relative path it comes to. -/
theorem searchPluginsFrom_overruns (hconf : 0 ∉ confFilePath) (hconfs : ∀ c ∈ confs, 0 ∉ c.pluginPath)
    (ho : Overruns confFilePath) (dir : List UInt8) (i : ℕ) :
    (ComesToRelative files confs → searchPluginsFrom files confFilePath i confs = .error .outside) ∧
      (¬ ComesToRelative files confs →
        searchPluginsFrom files confFilePath i confs = .ok (initPlugins byPosition (files.search dir) i confs)) := by
  induction confs generalizing i with
  | nil => exact ⟨fun ⟨before, c, after, heq, _⟩ => by simp at heq, fun _ => rfl⟩
  | cons c confs ih =>
    obtain ⟨hc, hconfs⟩ := List.forall_mem_cons.mp hconfs
    obtain ⟨hcomes, hnot⟩ := ih hconfs (i + 1)
    by_cases hrelative : Relative c.pluginPath
    · have hfind := @findAndOpenPlugin_overruns files _ _ hconf ho hrelative
      have hcons : ComesToRelative files (c :: confs) := comesToRelative_cons.mpr (.inl hrelative)
      refine ⟨fun _ => ?_, fun h => absurd hcons h⟩
      simp only [searchPluginsFrom, hfind, bind, Except.bind]
    · have hfind := @findAndOpenPlugin_rooted files confFilePath _ hc hrelative dir
      have hopens := @search_rooted files _ hrelative dir
      simp only [comesToRelative_cons, hrelative, false_or, ← hopens, searchPluginsFrom, initPlugins, hfind, bind,
        Except.bind, Option.bind]
      cases files.search dir c.pluginPath with
      | none => simp
      | some img =>
        refine ⟨fun h => ?_, fun h => ?_⟩
        · simp only [hcomes h.2]
        · simp only [hnot fun h' => h ⟨rfl, h'⟩]
          cases initPlugins byPosition (files.search dir) (i + 1) confs <;> rfl

/-- **Where the plugins are loaded from.** `rtf_plugins_init` writes behind a
block exactly if the configuration file is named without a directory and the
loop comes to a plugin with a relative path. Otherwise it is `rtfPluginsInit`
with each plugin searched for: from the root, or next to the configuration file
and then where plugins are installed. -/
theorem plugins_searched (files : Files) {confFilePath : List UInt8} {confs : List ConfPlugin}
    (hinstall : 0 ∉ files.installpath) (hconf : 0 ∉ confFilePath) (hconfs : ∀ c ∈ confs, 0 ∉ c.pluginPath) :
    (searchPlugins files confFilePath confs = .error .outside ↔
      Overruns confFilePath ∧ ComesToRelative files confs) ∧
    (Overruns confFilePath → ¬ ComesToRelative files confs → ∀ dir,
      searchPlugins files confFilePath confs = .ok (rtfPluginsInit byPosition (files.search dir) confs)) ∧
    (¬ Overruns confFilePath → ∃ dir, DirectoryOf confFilePath dir ∧
      searchPlugins files confFilePath confs = .ok (rtfPluginsInit byPosition (files.search dir) confs)) := by
  have hfound : ¬ Overruns confFilePath → searchPlugins files confFilePath confs =
      .ok (rtfPluginsInit byPosition (files.search (dirnameText confFilePath ++ [slash])) confs) := by
    intro ho
    apply searchPluginsFrom_eq
    intro c hc
    by_cases hrelative : Relative c.pluginPath
    · exact findAndOpenPlugin_relative hconf hinstall (hconfs c hc) ho hrelative
    · exact findAndOpenPlugin_rooted (hconfs c hc) hrelative _
  have hover := fun ho dir => @searchPluginsFrom_overruns files confFilePath confs hconf hconfs ho dir 0
  refine ⟨⟨?_, ?_⟩, ?_, ?_⟩
  · intro herror
    have ho : Overruns confFilePath := by
      by_contra ho
      simp [hfound ho] at herror
    refine ⟨ho, ?_⟩
    by_contra hcomes
    have hok : searchPlugins files confFilePath confs = _ := (hover ho []).2 hcomes
    simp [hok] at herror
  · rintro ⟨ho, hcomes⟩
    exact (hover ho []).1 hcomes
  · intro ho hcomes dir
    exact (hover ho dir).2 hcomes
  · intro ho
    exact ⟨_, directoryOf_dirnameText ho, hfound ho⟩

end All

namespace SearchExample

/-- One plugin, next to `conf/retifconf.yaml`. -/
def files : Files where
  access name := name == "conf/sched_EDF.so".toUTF8.toList
  dlopen _ := some ⟨.edf, 0⟩
  installpath := "/usr/lib/retif/".toUTF8.toList

def entry : ConfPlugin := ⟨"EDF".toUTF8.toList, "sched_EDF.so".toUTF8.toList, 1, 99, [0]⟩

end SearchExample

open SearchExample in
/-- The daemon told to read `retifconf.yaml` runs over its copy; told to read
`conf/retifconf.yaml`, it finds the plugin. -/
theorem plugins_searched_entry :
    searchPlugins files "retifconf.yaml".toUTF8.toList [entry] = .error .outside ∧
    ∃ dir, DirectoryOf "conf/retifconf.yaml".toUTF8.toList dir ∧
      searchPlugins files "conf/retifconf.yaml".toUTF8.toList [entry] =
        .ok (rtfPluginsInit byPosition (files.search dir) [entry]) := by
  have hinstall : 0 ∉ files.installpath := by decide +kernel
  have hconfs : ∀ c ∈ [entry], 0 ∉ c.pluginPath := by decide +kernel
  have hrelative : Relative entry.pluginPath := by unfold Relative; decide +kernel
  constructor
  · refine (plugins_searched files hinstall (by decide +kernel) hconfs).1.mpr ⟨by decide +kernel, ?_⟩
    exact ⟨[], entry, [], rfl, hrelative, by simp⟩
  · exact (plugins_searched files hinstall (by decide +kernel) hconfs).2.2 (by decide +kernel)

end Retif
