/-
# The checks on a configuration

`configuration_valid` and the five checks it runs, in its order. The check of
the windows looks for a common core with a merge, which finds one that comes in
both lists after smaller cores only; on ascending lists that is every one.

Key definitions: `Configuration`, `configurationValid`, `Leads`.
Key theorems: `checkCpus_iff`, `commonFrom_iff`, `windows_apart`.
-/
import Retif.Scheduler

namespace Retif

/-- `configuration_t`: `system.sched_max_util` and the plugins. -/
structure Configuration where
  schedMaxUtil : ℚ
  plugins : List ConfPlugin

/-- An `int` compared with a `size_t`. -/
def toSizeT (c : ℤ) : ℕ := (c % 2 ^ 64).toNat

def checkMaxUtil (conf : Configuration) : Bool :=
  !(decide (conf.schedMaxUtil < 0) || decide (conf.schedMaxUtil > 1))

def checkCpus (numProcs : ℕ) (conf : Configuration) : Bool :=
  conf.plugins.all fun p => p.cores.all fun c => !decide (toSizeT c ≥ numProcs)

def checkMinmaxPriorities (conf : Configuration) : Bool :=
  conf.plugins.all fun p => !decide (p.priorityMin > p.priorityMax)

/-- The merge of `plugins_have_common_cpus`; a turn drops a core, so the
lengths bound the turns. -/
def commonFrom : ℕ → List ℤ → List ℤ → Bool
  | fuel + 1, x :: xs, y :: ys =>
    if x < y then commonFrom fuel xs (y :: ys) else if x > y then commonFrom fuel (x :: xs) ys else true
  | _, _, _ => false

def pluginsHaveCommonCpus (p1 p2 : ConfPlugin) : Bool :=
  commonFrom (p1.cores.length + p2.cores.length) p1.cores p2.cores

/-- The loop over the pairs of indices `high < low`. -/
def checkPairs (bad : ConfPlugin → ConfPlugin → Bool) : List ConfPlugin → Bool
  | [] => true
  | p :: ps => ps.all (fun q => !bad p q) && checkPairs bad ps

def checkPriorityWindows (conf : Configuration) : Bool :=
  checkPairs (fun phigh plow => pluginsHaveCommonCpus phigh plow && decide (phigh.priorityMin ≤ plow.priorityMax))
    conf.plugins

def checkPluginNames (conf : Configuration) : Bool :=
  checkPairs (fun phigh plow => phigh.name == plow.name) conf.plugins

def configurationValid (numProcs : ℕ) (conf : Configuration) : Bool :=
  checkMaxUtil conf && checkCpus numProcs conf && checkMinmaxPriorities conf && checkPriorityWindows conf &&
    checkPluginNames conf

/-! ### What the checks establish -/

theorem toSizeT_lt {c : ℤ} {n : ℕ} (hc : -2 ^ 31 ≤ c ∧ c < 2 ^ 31) (hn : n < 2 ^ 31) :
    toSizeT c < n ↔ 0 ≤ c ∧ c < n := by
  unfold toSizeT
  omega

/-- Every core asked for exists; a negative one, seen as a `size_t`, does not. -/
theorem checkCpus_iff {numProcs : ℕ} {conf : Configuration} (hn : numProcs < 2 ^ 31)
    (hint : ∀ p ∈ conf.plugins, ∀ c ∈ p.cores, -2 ^ 31 ≤ c ∧ c < 2 ^ 31) :
    checkCpus numProcs conf = true ↔ ∀ p ∈ conf.plugins, ∀ c ∈ p.cores, 0 ≤ c ∧ c < numProcs := by
  unfold checkCpus
  simp only [List.all_eq_true, Bool.not_eq_true', decide_eq_false_iff_not, ge_iff_le, not_le]
  constructor
  · intro h p hp c hc
    exact (toSizeT_lt (hint p hp c hc) hn).mp (h p hp c hc)
  · intro h p hp c hc
    exact (toSizeT_lt (hint p hp c hc) hn).mpr (h p hp c hc)

/-- `c` leads `xs`: it is there, and every core listed before it is smaller. -/
def Leads (c : ℤ) (xs : List ℤ) : Prop := ∃ before after, xs = before ++ c :: after ∧ ∀ x ∈ before, x < c

theorem Leads.mem {c : ℤ} {xs : List ℤ} (h : Leads c xs) : c ∈ xs := by
  obtain ⟨before, after, rfl, -⟩ := h
  exact List.mem_append_right _ (List.mem_cons_self ..)

theorem not_leads_nil {c : ℤ} : ¬ Leads c [] := fun h => List.not_mem_nil h.mem

theorem leads_cons {c x : ℤ} {xs : List ℤ} : Leads c (x :: xs) ↔ c = x ∨ x < c ∧ Leads c xs := by
  constructor
  · rintro ⟨_ | ⟨y, before⟩, after, heq, hlt⟩
    · exact .inl (List.cons.inj heq).1.symm
    · obtain ⟨rfl, rfl⟩ := List.cons.inj heq
      exact .inr ⟨hlt x (List.mem_cons_self ..), before, after, rfl, fun z hz => hlt z (List.mem_cons_of_mem _ hz)⟩
  · rintro (rfl | ⟨hx, before, after, rfl, hlt⟩)
    · exact ⟨[], xs, rfl, by simp⟩
    · refine ⟨x :: before, after, rfl, ?_⟩
      intro z hz
      rcases List.mem_cons.mp hz with rfl | hz
      · exact hx
      · exact hlt z hz

/-- In an ascending list every core leads. -/
theorem leads_of_mem {c : ℤ} {xs : List ℤ} (hasc : xs.Pairwise (· < ·)) (hc : c ∈ xs) : Leads c xs := by
  obtain ⟨before, after, rfl⟩ := List.append_of_mem hc
  refine ⟨before, after, rfl, ?_⟩
  intro x hx
  exact (List.pairwise_append.mp hasc).2.2 x hx c (List.mem_cons_self ..)

/-- **What the merge finds**: a common core that leads both lists. -/
theorem commonFrom_iff {fuel : ℕ} {xs ys : List ℤ} (hfuel : xs.length + ys.length ≤ fuel) :
    commonFrom fuel xs ys = true ↔ ∃ c, Leads c xs ∧ Leads c ys := by
  induction fuel generalizing xs ys with
  | zero =>
    obtain rfl : xs = [] := List.length_eq_zero_iff.mp (by omega)
    simp [commonFrom, not_leads_nil]
  | succ fuel ih =>
    rcases xs with _ | ⟨x, xs⟩
    · simp [commonFrom, not_leads_nil]
    rcases ys with _ | ⟨y, ys⟩
    · simp [commonFrom, not_leads_nil]
    simp only [List.length_cons] at hfuel
    unfold commonFrom
    split
    · -- `x` is below all that leads the second list
      rename_i hlt
      rw [ih (by simp only [List.length_cons]; omega)]
      refine exists_congr fun c => and_congr_left fun hc => ?_
      have hxc : x < c := by
        rcases leads_cons.mp hc with rfl | ⟨hy, -⟩
        · exact hlt
        · exact hlt.trans hy
      simp [leads_cons, hxc, hxc.ne']
    · split
      · rename_i _ hgt
        rw [ih (by simp only [List.length_cons]; omega)]
        refine exists_congr fun c => and_congr_right fun hc => ?_
        have hyc : y < c := by
          rcases leads_cons.mp hc with rfl | ⟨hx, -⟩
          · exact hgt
          · exact lt_trans hgt hx
        simp [leads_cons, hyc, hyc.ne']
      · rename_i hle hge
        obtain rfl : x = y := le_antisymm (not_lt.mp hge) (not_lt.mp hle)
        simp only [true_iff]
        exact ⟨x, leads_cons.mpr (.inl rfl), leads_cons.mpr (.inl rfl)⟩

theorem commonCpus_iff {p1 p2 : ConfPlugin} :
    pluginsHaveCommonCpus p1 p2 = true ↔ ∃ c, Leads c p1.cores ∧ Leads c p2.cores := commonFrom_iff le_rfl

/-- The loop over the pairs finds no bad one. -/
theorem checkPairs_iff {bad : ConfPlugin → ConfPlugin → Bool} {ps : List ConfPlugin} :
    checkPairs bad ps = true ↔ ps.Pairwise fun p q => bad p q = false := by
  induction ps with
  | nil => simp [checkPairs]
  | cons p ps ih => simp [checkPairs, ih]

/-- Two plugins that share a core have windows apart, the first one's above. -/
theorem windows_apart {conf : Configuration} (h : checkPriorityWindows conf = true)
    (hasc : ∀ p ∈ conf.plugins, p.cores.Pairwise (· < ·)) :
    conf.plugins.Pairwise fun p q => (∃ c ∈ p.cores, c ∈ q.cores) → q.priorityMax < p.priorityMin := by
  refine (checkPairs_iff.mp h).imp_of_mem ?_
  rintro p q hp hq hbad ⟨c, hcp, hcq⟩
  by_contra hle
  have hcommon : pluginsHaveCommonCpus p q = true :=
    commonCpus_iff.mpr ⟨c, leads_of_mem (hasc p hp) hcp, leads_of_mem (hasc q hq) hcq⟩
  simp [hcommon, not_lt.mp hle] at hbad

end Retif
