/-
# Windows of an accepted document

`retifconf.yaml` asks for windows that do not overlap where plugins share
cores, the plugins of higher priority first, and for cores in ascending order.
The first is checked with a merge that relies on the second, and the second is
checked for some scalars only: two entries that share a core and overlap get
past the check where no common core leads both lists.

Key definitions: `Overlap`, `WindowsApart`, `Clash`, `Seen`.
Key theorems: `apart_iff`, `apart_ascending`, `not_apart`.
-/
import Retif.Parse

namespace Retif

open CString

/-- The window of the first entry is not above that of the second. -/
def Overlap (p q : ConfPlugin) : Prop := p.priorityMin ≤ q.priorityMax

/-- The two entries have a core in common. -/
def Shares (p q : ConfPlugin) : Prop := ∃ c ∈ p.cores, c ∈ q.cores

/-- They have one that comes after smaller cores only, in both lists. -/
def Seen (p q : ConfPlugin) : Prop := ∃ c, Leads c p.cores ∧ Leads c q.cores

/-- **Windows apart**: of two entries that share a core, the first one's window
is above the second one's. -/
def WindowsApart (ps : List ConfPlugin) : Prop := ps.Pairwise fun p q => Shares p q → q.priorityMax < p.priorityMin

/-- Some two entries overlap and are related by `R`. -/
def Clash (R : ConfPlugin → ConfPlugin → Prop) (ps : List ConfPlugin) : Prop :=
  ¬ ps.Pairwise fun p q => Overlap p q → ¬ R p q

/-- The checks of `configuration_valid` other than that of the windows. -/
def otherChecks (numProcs : ℕ) (conf : Configuration) : Bool :=
  checkMaxUtil conf && checkCpus numProcs conf && checkMinmaxPriorities conf && checkPluginNames conf

/-- The check of the windows finds the clashes on a core that leads. -/
theorem checkPriorityWindows_iff {conf : Configuration} :
    checkPriorityWindows conf = true ↔ ¬ Clash Seen conf.plugins := by
  unfold checkPriorityWindows Clash
  rw [checkPairs_iff, not_not]
  apply List.Pairwise.iff
  intro p q
  rw [Bool.and_eq_false_iff, decide_eq_false_iff_not, ← Bool.not_eq_true, commonCpus_iff]
  unfold Overlap Seen
  rw [or_comm, imp_iff_not_or]

theorem configurationValid_iff {numProcs : ℕ} {conf : Configuration} :
    configurationValid numProcs conf = true ↔ otherChecks numProcs conf = true ∧ ¬ Clash Seen conf.plugins := by
  rw [← checkPriorityWindows_iff]
  unfold configurationValid otherChecks
  simp only [Bool.and_eq_true]
  tauto

theorem windowsApart_iff {ps : List ConfPlugin} : WindowsApart ps ↔ ¬ Clash Shares ps := by
  unfold WindowsApart Clash
  rw [not_not]
  apply List.Pairwise.iff
  intro p q
  unfold Overlap
  rw [← not_le]
  tauto

section Documents

variable {numProcs : ℕ} {strtod : List UInt8 → Conversion ℚ} {fresh : ℕ → ConfPlugin} {fuel : ℕ}
  {document : Document} {errno : Bool} {conf out : FullConfiguration}

/-- A document is accepted when it parses and the checks hold. -/
theorem parseConfiguration_ok :
    parseConfiguration numProcs strtod fresh fuel (some document) errno conf = some (0, out) ↔
      ∃ root e, document.root = some root ∧ parseConf document strtod fresh fuel root errno conf = some ⟨0, e, out⟩ ∧
        configurationValid numProcs out.toConfiguration = true := by
  unfold parseConfiguration
  constructor
  · intro h
    obtain ⟨root, hroot, h⟩ := Option.bind_eq_some_iff.mp h
    obtain ⟨⟨ret, e, parsed⟩, hparse, h⟩ := Option.bind_eq_some_iff.mp h
    dsimp only at h
    split at h
    · rename_i hret
      simp only [Option.some.injEq, Prod.mk.injEq] at h
      exact absurd h.1 hret
    · rename_i hret
      obtain rfl : ret = 0 := not_not.mp hret
      split at h
      · rename_i hvalid
        simp only [Option.some.injEq, Prod.mk.injEq, true_and] at h
        subst h
        exact ⟨root, e, hroot, hparse, hvalid⟩
      · simp at h
  · rintro ⟨root, e, hroot, hparse, hvalid⟩
    simp [hroot, hparse, hvalid]

/-- **Windows of accepted documents are apart** exactly when a clash on a common
core is a clash on one that leads, or another check fails. -/
theorem apart_iff :
    (∀ out, parseConfiguration numProcs strtod fresh fuel (some document) errno conf = some (0, out) →
      WindowsApart out.plugins) ↔
    ∀ root ∈ document.root, ∀ e out, parseConf document strtod fresh fuel root errno conf = some ⟨0, e, out⟩ →
      otherChecks numProcs out.toConfiguration = true → Clash Shares out.plugins → Clash Seen out.plugins := by
  constructor
  · intro h root hroot e out hparse hother hshares
    by_contra hseen
    have hvalid := configurationValid_iff.mpr ⟨hother, hseen⟩
    exact windowsApart_iff.mp (h out (parseConfiguration_ok.mpr ⟨root, e, hroot, hparse, hvalid⟩)) hshares
  · intro h out hok
    obtain ⟨root, e, hroot, hparse, hvalid⟩ := parseConfiguration_ok.mp hok
    obtain ⟨hother, hseen⟩ := configurationValid_iff.mp hvalid
    apply windowsApart_iff.mpr
    intro hshares
    exact hseen (h root hroot e out hparse hother hshares)

/-- Ascending cores are enough. -/
theorem apart_ascending (hasc : ∀ p ∈ out.plugins, p.cores.Pairwise (· < ·))
    (h : parseConfiguration numProcs strtod fresh fuel (some document) errno conf = some (0, out)) :
    WindowsApart out.plugins := by
  obtain ⟨-, -, -, -, hvalid⟩ := parseConfiguration_ok.mp h
  have hseen := (configurationValid_iff.mp hvalid).2
  exact windows_apart (checkPriorityWindows_iff.mpr hseen) hasc

end Documents

/-! ### Cores in descending order -/

namespace OverlapExample

/-- `configuration: plugins: [{name: A, …}, {name: B, …}]` with windows 5-9 and 1-7,
the cores of the first `[2, 1]`, those of the second `1`. -/
def document : Document :=
  ⟨[.mapping [(2, 3)], .scalar "configuration".toUTF8.toList, .mapping [(4, 5)], .scalar "plugins".toUTF8.toList,
    .sequence [6, 7], .mapping [(8, 9), (10, 11), (12, 13), (14, 15)], .mapping [(8, 18), (10, 11), (12, 19), (14, 17)],
    .scalar "name".toUTF8.toList, .scalar "A".toUTF8.toList, .scalar "plugin".toUTF8.toList,
    .scalar "sched_RR.so".toUTF8.toList, .scalar "priority".toUTF8.toList, .scalar "5-9".toUTF8.toList,
    .scalar "cores".toUTF8.toList, .sequence [16, 17], .scalar "2".toUTF8.toList, .scalar "1".toUTF8.toList,
    .scalar "B".toUTF8.toList, .scalar "1-7".toUTF8.toList]⟩

def blank : ConfPlugin := ⟨[], [], 0, 0, []⟩

def zero : FullConfiguration := ⟨⟨0, []⟩, 0⟩

def strtod (_ : List UInt8) : Conversion ℚ := ⟨0, false, false⟩

def entries : List ConfPlugin :=
  [⟨"A".toUTF8.toList, "sched_RR.so".toUTF8.toList, 5, 9, [2, 1]⟩,
    ⟨"B".toUTF8.toList, "sched_RR.so".toUTF8.toList, 1, 7, [1]⟩]

end OverlapExample

open OverlapExample

/-- The merge drops the 1 of the second list for the 2 of the first. -/
theorem not_apart : ¬ ∀ (numProcs : ℕ) (strtod : List UInt8 → Conversion ℚ) (fresh : ℕ → ConfPlugin) (fuel : ℕ)
    (document : Document) (errno : Bool) (conf out : FullConfiguration),
      parseConfiguration numProcs strtod fresh fuel (some document) errno conf = some (0, out) →
        WindowsApart out.plugins := by
  intro h
  have hend : (parseConfiguration 4 OverlapExample.strtod (fun _ => blank) 2 (some OverlapExample.document) false
      OverlapExample.zero).map (fun r => (r.1, r.2.plugins)) = some (0, entries) := by decide +kernel
  obtain ⟨⟨ret, out⟩, hrun, hv⟩ := Option.map_eq_some_iff.mp hend
  simp only [Prod.mk.injEq] at hv
  obtain ⟨rfl, hplugins⟩ := hv
  have hapart := h _ _ _ _ _ _ _ out hrun
  rw [hplugins] at hapart
  have hpair := (List.pairwise_cons.mp hapart).1 _ (List.mem_singleton_self _) ⟨1, by decide, by decide⟩
  exact absurd hpair (by decide)

end Retif
