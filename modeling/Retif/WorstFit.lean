/-
# Worst-fit placement

`least_loaded_cpu` of the four plugins compares every core with the first one
and keeps the last that beats it (`leastLoaded_eq`). That core is a best one
exactly when the scan does not stop short: each core that beats the first and
is itself beaten has a core behind it that beats the first too (`EndsOnBest`).
With one or two cores that is always so.

Key definitions: `Best`, `EndsOnBest`.
Key theorems: `leastLoaded_returns`, `leastLoaded_best_iff`, `worst_fit_iff`.
-/
import Retif.Scheduler

namespace Retif

section Scan

variable {α : Type} {this : Plugin} {table : ℕ → α} {better : α → α → Bool}

/-- `c` is a core of the plugin that no other one beats. -/
def Best (this : Plugin) (table : ℕ → α) (better : α → α → Bool) (c : ℕ) : Prop :=
  c ∈ this.cpulist ∧ ∀ d ∈ this.cpulist, better (table d) (table c) = false

/-- Behind every core that beats the first and is not a best one, there is
another that beats the first. -/
def EndsOnBest (this : Plugin) (table : ℕ → α) (better : α → α → Bool) : Prop :=
  ∀ c₀ pre d post, this.cpulist = c₀ :: (pre ++ d :: post) → better (table d) (table c₀) = true →
    ¬ Best this table better d → ∃ e ∈ post, better (table e) (table c₀) = true

theorem scanCpus_returns {best : α} {cs : List ℕ} {cpu : ℕ} (h : ∀ c ∈ cs, this.InTable c) :
    ∃ c, scanCpus this table better best cs cpu = .ok c := by
  induction cs generalizing cpu with
  | nil => exact ⟨cpu, rfl⟩
  | cons d cs ih =>
    have hread : this.read table d = .ok (table d) := read_ok.mpr ⟨h d (by simp), rfl⟩
    obtain ⟨c, hc⟩ := @ih (if better (table d) best then d else cpu) fun e he => h e (by simp [he])
    exact ⟨c, bind_ok.mpr ⟨_, hread, hc⟩⟩

/-- With a core, and an entry for every core, the search returns. -/
theorem leastLoaded_returns (hne : this.cpulist ≠ []) (h : ∀ c ∈ this.cpulist, this.InTable c) :
    ∃ c, leastLoaded this table better = .ok c := by
  unfold leastLoaded
  split
  · rename_i hl
    exact absurd hl hne
  · rename_i c₀ cs hl
    rw [hl] at h
    obtain ⟨c, hc⟩ : ∃ c, scanCpus this table better (table c₀) cs c₀ = .ok c :=
      scanCpus_returns fun d hd => h d (List.mem_cons_of_mem c₀ hd)
    exact ⟨c, bind_ok.mpr ⟨_, read_ok.mpr ⟨h c₀ List.mem_cons_self, rfl⟩, hc⟩⟩

/-- What the scan ends on: the first core if none beats it, or the last that does. -/
theorem leastLoaded_last {c : ℕ} (h : leastLoaded this table better = .ok c) :
    ∃ c₀ cs, this.cpulist = c₀ :: cs ∧
      ((c = c₀ ∧ ∀ d ∈ cs, better (table d) (table c₀) = false) ∨
        ∃ pre post, cs = pre ++ c :: post ∧ better (table c) (table c₀) = true ∧
          ∀ d ∈ post, better (table d) (table c₀) = false) := by
  obtain ⟨c₀, cs, hl, hc, -⟩ := leastLoaded_eq h
  refine ⟨c₀, cs, hl, ?_⟩
  rw [List.getLastD_eq_getLast?] at hc
  cases hf : (cs.filter fun d => better (table d) (table c₀)).getLast? with
  | none =>
    left
    rw [hf, Option.getD_none] at hc
    rw [List.getLast?_eq_none_iff] at hf
    exact ⟨hc, by simpa [List.filter_eq_nil_iff] using hf⟩
  | some d =>
    right
    obtain rfl : c = d := by rw [hc, hf, Option.getD_some]
    obtain ⟨ys, hys⟩ := List.getLast?_eq_some_iff.mp hf
    obtain ⟨pre, rest, rfl, -, hrest⟩ := List.filter_eq_append_iff.mp hys
    obtain ⟨pre', post, rfl, -, hbeat, hpost⟩ := List.filter_eq_cons_iff.mp hrest
    exact ⟨pre ++ pre', post, by simp, hbeat, by simpa [List.filter_eq_nil_iff] using hpost⟩

/-- **The core returned is a best one** exactly when the scan ends on one. -/
theorem leastLoaded_best_iff (hirr : ∀ v, better v v = false) {c : ℕ} (h : leastLoaded this table better = .ok c) :
    Best this table better c ↔ EndsOnBest this table better := by
  obtain ⟨c₀, cs, hl, ⟨rfl, hnone⟩ | ⟨pre, post, rfl, hbeat, hpost⟩⟩ := leastLoaded_last h
  · -- nothing beats the first core
    refine iff_of_true ⟨by simp [hl], ?_⟩ ?_
    · simpa [hl, hirr] using hnone
    · intro c₁ pre d post hl' hd _
      rw [hl, List.cons.injEq] at hl'
      obtain ⟨rfl, rfl⟩ := hl'
      rw [hnone d (by simp)] at hd
      cases hd
  · constructor
    · intro hbest c₁ pre' d post' hl' hd hnot
      rw [hl, List.cons.injEq] at hl'
      obtain ⟨rfl, hsplit⟩ := hl'
      by_contra hlast
      simp only [not_exists, not_and] at hlast
      -- both are the last core that beats the first, so they are one
      have hsame : c = d := by
        rcases List.append_eq_append_iff.mp hsplit with ⟨mid, -, hmid⟩ | ⟨mid, -, hmid⟩
        · rcases mid with _ | ⟨x, mid⟩
          · exact (List.cons.inj hmid).1
          · obtain ⟨rfl, hpost'⟩ := List.cons.inj hmid
            have hmem : d ∈ post := by simp [hpost']
            rw [hpost d hmem] at hd
            cases hd
        · rcases mid with _ | ⟨x, mid⟩
          · exact (List.cons.inj hmid).1.symm
          · obtain ⟨rfl, hpost'⟩ := List.cons.inj hmid
            exact absurd hbeat (hlast c (by simp [hpost']))
      exact hnot (hsame ▸ hbest)
    · intro hends
      by_contra hnot
      obtain ⟨e, he, hbe⟩ := hends c₀ pre c post hl hbeat hnot
      rw [hpost e he] at hbe
      cases hbe

end Scan

/-! ### The four plugins -/

/-- More free utilisation. -/
def moreFree (v best : ℚ) : Bool := decide (v > best)

/-- Fewer tasks. -/
def fewerTasks (v best : ℤ) : Bool := decide (v < best)

/-- No core of the plugin has more free utilisation than `c`. -/
def MostFree (this : Plugin) (c : ℕ) : Prop :=
  c ∈ this.cpulist ∧ ∀ d ∈ this.cpulist, this.utilFreePercpu d ≤ this.utilFreePercpu c

/-- No core of the plugin has fewer tasks than `c`. -/
def FewestTasks (this : Plugin) (c : ℕ) : Prop :=
  c ∈ this.cpulist ∧ ∀ d ∈ this.cpulist, this.taskCountPercpu c ≤ this.taskCountPercpu d

theorem best_moreFree {this : Plugin} {c : ℕ} : Best this this.utilFreePercpu moreFree c ↔ MostFree this c := by
  simp [Best, MostFree, moreFree]

theorem best_fewerTasks {this : Plugin} {c : ℕ} :
    Best this this.taskCountPercpu fewerTasks c ↔ FewestTasks this c := by
  simp [Best, FewestTasks, fewerTasks]

theorem mostFree_iff {this : Plugin} (hne : this.cpulist ≠ []) (htab : ∀ c ∈ this.cpulist, this.InTable c) :
    ∃ c, mostFree this = .ok c ∧ (MostFree this c ↔ EndsOnBest this this.utilFreePercpu moreFree) := by
  obtain ⟨c, hc⟩ : ∃ c, leastLoaded this this.utilFreePercpu moreFree = .ok c := leastLoaded_returns hne htab
  have hiff := leastLoaded_best_iff (by simp [moreFree]) hc
  exact ⟨c, hc, best_moreFree.symm.trans hiff⟩

theorem fewestTasks_iff {this : Plugin} (hne : this.cpulist ≠ []) (htab : ∀ c ∈ this.cpulist, this.InTable c) :
    ∃ c, fewestTasks this = .ok c ∧ (FewestTasks this c ↔ EndsOnBest this this.taskCountPercpu fewerTasks) := by
  obtain ⟨c, hc⟩ : ∃ c, leastLoaded this this.taskCountPercpu fewerTasks = .ok c := leastLoaded_returns hne htab
  have hiff := leastLoaded_best_iff (by simp [fewerTasks]) hc
  exact ⟨c, hc, best_fewerTasks.symm.trans hiff⟩

/-- **Worst-fit placement**, in each of the four plugins, exactly when the scan
ends on a best core. -/
theorem worst_fit_iff (this : Plugin) (hne : this.cpulist ≠ []) (htab : ∀ c ∈ this.cpulist, this.InTable c) :
    (∃ c, EDF.leastLoadedCpu this = .ok c ∧ (MostFree this c ↔ EndsOnBest this this.utilFreePercpu moreFree)) ∧
    (∃ c, RM.leastLoadedCpu this = .ok c ∧ (MostFree this c ↔ EndsOnBest this this.utilFreePercpu moreFree)) ∧
    (∃ c, RR.leastLoadedCpu this = .ok c ∧
      (FewestTasks this c ↔ EndsOnBest this this.taskCountPercpu fewerTasks)) ∧
    ∃ c, FP.leastLoadedCpu this = .ok c ∧
      (FewestTasks this c ↔ EndsOnBest this this.taskCountPercpu fewerTasks) :=
  ⟨mostFree_iff hne htab, mostFree_iff hne htab, fewestTasks_iff hne htab, fewestTasks_iff hne htab⟩

namespace WorstFitExample

/-- Three cores, the tables as maps from core id. -/
def plugin (free : ℕ → ℚ) (count : ℕ → ℤ) : Plugin :=
  { initPlugin (fun _ => none) 0 ⟨[], [], 10, 20, [0, 1, 2]⟩ ⟨.edf, 0⟩ with
    utilFreePercpu := free
    taskCountPercpu := count }

/-- The second core beats the first, and the third does too, but not the second. -/
def free : ℕ → ℚ := fun c => if c = 1 then 9 / 10 else if c = 2 then 5 / 10 else 1 / 10

def count : ℕ → ℤ := fun c => if c = 1 then 0 else if c = 2 then 1 else 2

end WorstFitExample

open WorstFitExample

theorem worst_fit_iff_three :
    (∃ c, EDF.leastLoadedCpu (plugin free count) = .ok c ∧
      (MostFree (plugin free count) c ↔ EndsOnBest (plugin free count) free moreFree)) ∧
    (∃ c, RM.leastLoadedCpu (plugin free count) = .ok c ∧
      (MostFree (plugin free count) c ↔ EndsOnBest (plugin free count) free moreFree)) ∧
    (∃ c, RR.leastLoadedCpu (plugin free count) = .ok c ∧
      (FewestTasks (plugin free count) c ↔ EndsOnBest (plugin free count) count fewerTasks)) ∧
    ∃ c, FP.leastLoadedCpu (plugin free count) = .ok c ∧
      (FewestTasks (plugin free count) c ↔ EndsOnBest (plugin free count) count fewerTasks) :=
  worst_fit_iff (plugin free count) (by decide) (by decide)

/-- Free 0.1, 0.9 and 0.5, with 2, 0 and 1 tasks: all four plugins return the third core. -/
theorem not_worst_fit :
    (¬ ∀ this : Plugin, this.cpulist ≠ [] → (∀ c ∈ this.cpulist, this.InTable c) →
      ∃ c, EDF.leastLoadedCpu this = .ok c ∧ MostFree this c) ∧
    (¬ ∀ this : Plugin, this.cpulist ≠ [] → (∀ c ∈ this.cpulist, this.InTable c) →
      ∃ c, RM.leastLoadedCpu this = .ok c ∧ MostFree this c) ∧
    (¬ ∀ this : Plugin, this.cpulist ≠ [] → (∀ c ∈ this.cpulist, this.InTable c) →
      ∃ c, RR.leastLoadedCpu this = .ok c ∧ FewestTasks this c) ∧
    ¬ ∀ this : Plugin, this.cpulist ≠ [] → (∀ c ∈ this.cpulist, this.InTable c) →
      ∃ c, FP.leastLoadedCpu this = .ok c ∧ FewestTasks this c := by
  have hfree : mostFree (plugin free count) = .ok 2 := by decide +kernel
  have hcount : fewestTasks (plugin free count) = .ok 2 := by decide +kernel
  have hmost : ∀ c, mostFree (plugin free count) = .ok c → ¬ MostFree (plugin free count) c := by
    intro c hc hbest
    obtain rfl := Except.ok.inj (hfree.symm.trans hc)
    exact absurd (hbest.2 1 (by decide)) (by decide +kernel)
  have hfewest : ∀ c, fewestTasks (plugin free count) = .ok c → ¬ FewestTasks (plugin free count) c := by
    intro c hc hbest
    obtain rfl := Except.ok.inj (hcount.symm.trans hc)
    exact absurd (hbest.2 1 (by decide)) (by decide +kernel)
  refine ⟨?_, ?_, ?_, ?_⟩ <;> intro h
  · obtain ⟨c, hc, hbest⟩ := h (plugin free count) (by decide) (by decide)
    exact hmost c hc hbest
  · obtain ⟨c, hc, hbest⟩ := h (plugin free count) (by decide) (by decide)
    exact hmost c hc hbest
  · obtain ⟨c, hc, hbest⟩ := h (plugin free count) (by decide) (by decide)
    exact hfewest c hc hbest
  · obtain ⟨c, hc, hbest⟩ := h (plugin free count) (by decide) (by decide)
    exact hfewest c hc hbest

end Retif
