/-
# Indices into the tables

`rtf_plugins_init` gives the per-core tables of a plugin `cputot` entries, one
for each position of `cpulist`; the plugins index them by core id. The two
agree where the cores of a plugin are below the number of its cores
(`Compact`), so are `0, ..., cputot - 1`. Then no operation indexes a table out
of range, as long as a plugin that takes over a changed task has an entry for
the core the task comes from.

Key definitions: `OutOfTable`, `Compact`, `Seated`, `InRange`.
Key theorems: `seated_step`, `indices_run`, `not_indices_run`.
-/
import Retif.Placement
import Retif.Config

namespace Retif

open CList

/-- An index past the end of a per-core table, or of a static one. -/
def OutOfTable : Fault → Prop
  | .table | .core => True
  | _ => False

/-- Every task sits on a core of the plugin it names, and every plugin has room
for its cores. -/
structure Seated (s : Sched) : Prop where
  sane : Sane s
  held : ∀ a ∈ s.taskset.root, ∃ i < s.numOfPlugins, (s.heap a).pluginid = i ∧ (s.heap a).cpu ∈ (s.plugin i).cpulist
  roomy : ∀ i < s.numOfPlugins, Roomy (s.plugin i).toPluginInfo

/-- The plugin that takes over a changed task has an entry for the core the
task comes from. -/
def InRange (s : Sched) : Op → Prop
  | .change _ id => ∀ a ∈ rtfTasksetSearch s.heap s.taskset id, ∀ c ∈ taker s a,
      (s.plugin c.1).InTable (s.heap a).cpu ∧ ((s.plugin c.1).kind.keepsList → (s.heap a).cpu < MAX_CPU)
  | _ => True

instance (s : Sched) (o : Op) : Decidable (InRange s o) :=
  match o with
  | .change _ id =>
    inferInstanceAs (Decidable (∀ a ∈ rtfTasksetSearch s.heap s.taskset id, ∀ c ∈ taker s a,
      (s.plugin c.1).InTable (s.heap a).cpu ∧ ((s.plugin c.1).kind.keepsList → (s.heap a).cpu < MAX_CPU)))
  | .create _ _ | .attach _ _ | .detach _ | .destroy _ | .delete _ => inferInstanceAs (Decidable True)

theorem outOfTable_indexing : Indexing OutOfTable :=
  ⟨by simp [OutOfTable], by simp [OutOfTable], by simp [OutOfTable]⟩

section Operations

variable {s s' : Sched} {o : Op} {r : Res}

theorem Seated.rooms (hS : Seated s) : Rooms OutOfTable s := by
  intro i hi c hc
  obtain ⟨h1, h2⟩ := hS.roomy i hi c hc
  exact ⟨fun _ => h1, fun _ => h2⟩

theorem InRange.placeable (hg : InRange s o) : Placeable OutOfTable s o := by
  rcases o with _ | ⟨tp, id⟩ | _ | _ | _ | _
  · trivial
  · intro a ha c hc
    obtain ⟨h1, h2⟩ := hg a ha c hc
    exact ⟨fun _ => h1, fun _ => h2⟩
  all_goals trivial

/-- Where tasks sit does not depend on how the indices are used. -/
theorem seated_step (hS : Seated s) (h : step s o = .ok (r, s')) : Seated s' := by
  obtain ⟨hsane, hheld⟩ := held_step ⟨hS.sane, hS.held⟩ h
  obtain ⟨hn, hinfo⟩ := sameConfig_step h
  refine ⟨hsane, hheld, ?_⟩
  intro i hi
  rw [hinfo i]
  exact hS.roomy i (hn ▸ hi)

end Operations

/-! ### Runs -/

/-- The cores of every plugin are below the number of its cores, and those of RM
and RR below the size of the static tables. -/
def Compact (load : List UInt8 → Option Image) (confs : List ConfPlugin) : Prop :=
  ∀ c ∈ confs, (∀ x ∈ c.cores, x < c.cores.length) ∧
    ∀ img ∈ load c.pluginPath, img.kind.keepsList → ∀ x ∈ c.cores, x < MAX_CPU

theorem seated_start {load : List UInt8 → Option Image} {confs : List ConfPlugin} {plgs : List Plugin}
    (h : rtfPluginsInit byPosition load confs = some plgs) (hc : Compact load confs) (k : Kernel) :
    Seated (Sched.start plgs k) := by
  refine ⟨sane_start h k, by simp [Sched.start], ?_⟩
  intro i hi
  obtain ⟨c, img, hci, himg, hp⟩ := start_plugin h k hi
  have hmem : c ∈ confs := List.mem_of_getElem? hci
  obtain ⟨hsmall, hstatic⟩ := hc c hmem
  rw [hp]
  intro d hd
  obtain ⟨x, hx, rfl⟩ := List.mem_map.mp hd
  have hlt := hsmall x hx
  refine ⟨?_, ?_⟩
  · intro n hn
    cases hn
    have hpos := List.length_pos_of_mem hx
    omega
  · intro hk
    have hmax := hstatic img himg hk x hx
    have hpos : 0 < MAX_CPU := by decide
    omega

/-- **No index out of range**, in every run in which a plugin that takes over a
task has an entry for its core, where the cores of every plugin are `0, ...,
cputot - 1` and those of RM and RR below `MAX_CPU`. -/
theorem indices_run {load : List UInt8 → Option Image} {confs : List ConfPlugin} {plgs : List Plugin}
    {k : Kernel} {s : Sched} {o : Op} (hinit : rtfPluginsInit byPosition load confs = some plgs)
    (hc : Compact load confs) (hrun : Reach step InRange (Sched.start plgs k) s) (ho : InRange s o) :
    Avoids OutOfTable (step s o) := by
  have hS : Seated s := hrun.inv (seated_start hinit hc k) fun _ _ _ _ hI _ hs => seated_step hI hs
  exact step_avoids outOfTable_indexing ⟨hS.sane, hS.held⟩ hS.rooms ho.placeable

/-! ### A plugin that starts at core 1 -/

namespace IndicesExample

/-- RM on cores 0 and 1. -/
def confs : List ConfPlugin := [⟨"RM".toUTF8.toList, [2], 10, 20, [0, 1]⟩]

def plgs : List Plugin := (rtfPluginsInit byPosition BooksExample.load confs).getD []

theorem init_plgs : rtfPluginsInit byPosition BooksExample.load confs = some plgs := rfl

/-- FP on core 1 only. -/
def shifted : List ConfPlugin := [⟨"FP".toUTF8.toList, [4], 10, 20, [1]⟩]

def shiftedPlgs : List Plugin := (rtfPluginsInit byPosition BooksExample.load shifted).getD []

theorem init_shiftedPlgs : rtfPluginsInit byPosition BooksExample.load shifted = some shiftedPlgs := rfl

theorem compact_confs : Compact BooksExample.load confs := by
  intro c hc
  obtain rfl := List.mem_singleton.mp hc
  refine ⟨by decide, ?_⟩
  intro img _ _
  decide

end IndicesExample

open BooksExample IndicesExample

theorem indices_create : ∃ s, runGood step InRange [.create (params 10) 1, .change (params 10) 1]
    (Sched.start IndicesExample.plgs kernel) = some s ∧ Avoids OutOfTable (step s (.destroy 1)) := by
  have hsome : (runGood step InRange [.create (params 10) 1, .change (params 10) 1]
      (Sched.start IndicesExample.plgs kernel)).isSome := by decide +kernel
  obtain ⟨s, hs⟩ := Option.isSome_iff_exists.mp hsome
  exact ⟨s, hs, indices_run IndicesExample.init_plgs compact_confs (reach_runGood hs) trivial⟩

/-- The one entry of the tables is that of core 0; the plugin reads that of core 1. -/
theorem not_indices_run : ¬ ∀ (load : List UInt8 → Option Image) (numProcs : ℕ) (util : ℚ)
    (confs : List ConfPlugin) (plgs : List Plugin) (k : Kernel) (s : Sched) (o : Op),
      configurationValid numProcs ⟨util, confs⟩ = true →
        (∀ c ∈ confs, c.cores ≠ [] ∧ c.cores.Pairwise (· < ·)) →
          rtfPluginsInit byPosition load confs = some plgs →
            Reach step (fun _ _ => True) (Sched.start plgs k) s → Avoids OutOfTable (step s o) := by
  intro h
  have hstep : ∀ e, step (Sched.start shiftedPlgs kernel) (.create (params 10) 1) = .error e → ¬ OutOfTable e :=
    h load 2 1 shifted shiftedPlgs kernel _ _ (by decide +kernel) (by decide) init_shiftedPlgs Reach.start
  exact hstep .table rfl trivial

end Retif
