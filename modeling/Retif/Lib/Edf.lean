/-
# Earliest deadline first on one processor

Time is slots; a schedule says which job runs in each slot. A job that is
released and has not had its cost is pending, and `IsEdf` is the preemptive
schedule that never idles while a job is pending and always runs one with the
earliest deadline. When the jobs that fall into any window, released and due
in it, never ask for more slots than it has, such a schedule meets every
deadline (`IsEdf.meets`): before a miss there would be a window in which only
such jobs run.

The jobs of sporadic tasks fall into a window as often as the demand bound of
their task says (`demand_le`), which is at most the task's density, cost over
the smaller of deadline and period, times the window (`dbf_le`). So tasks
whose densities sum to 1 at most are feasible (`IsEdf.meets_of_density`).

Key definitions: `Jobs`, `IsEdf`, `Bounded`, `Sporadic`, `Sporadic.dbf`, `Arrive`.
Key theorems: `served_of_busy`, `IsEdf.meets`, `card_apart`, `demand_le`, `dbf_le`,
`IsEdf.meets_of_density`.
-/
import Mathlib.Tactic
import Mathlib.Algebra.Order.BigOperators.Group.Finset

namespace Edf

variable {ι κ : Type*}

/-! ### Schedules -/

/-- When each job arrives, when it has to be done, and the slots it needs. -/
structure Jobs (κ : Type*) where
  release : κ → ℕ
  deadline : κ → ℕ
  cost : κ → ℕ

open Classical in
/-- The slots before `t` in which `k` runs. -/
noncomputable def service (run : ℕ → Option κ) (k : κ) (t : ℕ) : ℕ :=
  ((Finset.range t).filter fun u => run u = some k).card

/-- Job `k` has arrived and is not done. -/
def Pending (J : Jobs κ) (run : ℕ → Option κ) (k : κ) (t : ℕ) : Prop :=
  J.release k ≤ t ∧ service run k t < J.cost k

/-- The schedule runs pending jobs only, the earliest deadline first, and
idles only when none is pending. -/
structure IsEdf (J : Jobs κ) (run : ℕ → Option κ) : Prop where
  pending : ∀ t k, run t = some k → Pending J run k t
  earliest : ∀ t k k', run t = some k → Pending J run k' t → J.deadline k ≤ J.deadline k'
  busy : ∀ t k, run t = none → ¬ Pending J run k t

/-- The jobs released and due in a window do not ask for more than its slots. -/
def Bounded (J : Jobs κ) : Prop :=
  ∀ (t₀ d : ℕ) (K : Finset κ), (∀ k ∈ K, t₀ ≤ J.release k ∧ J.deadline k ≤ d) → t₀ ≤ d → ∑ k ∈ K, J.cost k ≤ d - t₀

section Schedule

variable {J : Jobs κ} {run : ℕ → Option κ} {k : κ} {t u : ℕ}

open Classical in
theorem service_succ : service run k (t + 1) = service run k t + if run t = some k then 1 else 0 := by
  unfold service
  rw [Finset.range_add_one, Finset.filter_insert]
  split
  · rw [Finset.card_insert_of_notMem (by simp)]
  · rfl

open Classical in
theorem service_mono (h : t ≤ u) : service run k t ≤ service run k u :=
  Finset.card_le_card (Finset.filter_subset_filter _ (Finset.range_mono h))

/-- No job runs longer than it costs, when only pending jobs run. -/
theorem service_le (h : ∀ t k, run t = some k → Pending J run k t) (k : κ) (t : ℕ) : service run k t ≤ J.cost k := by
  induction t with
  | zero => simp [service]
  | succ t ih =>
    rw [service_succ]
    split
    · rename_i hr
      have := (h t k hr).2
      omega
    · simpa using ih

/-- **A window in which only jobs with `C` run** has done all of them at its
end, when they do not ask for more than its slots. -/
theorem served_of_busy (hle : ∀ k t, service run k t ≤ J.cost k) {C : κ → Prop} {t₀ d : ℕ}
    (hbusy : ∀ t, t₀ ≤ t → t < d → ∃ k, run t = some k ∧ C k)
    (hcost : ∀ K : Finset κ, (∀ k ∈ K, C k) → ∑ k ∈ K, J.cost k ≤ d - t₀) {j : κ} (hj : C j) :
    service run j d = J.cost j := by
  classical
  by_contra hne
  have hmiss : service run j d < J.cost j := lt_of_le_of_ne (hle j d) hne
  -- the jobs that run in the window, and the one that is not done
  let K := insert j ((Finset.Ico t₀ d).biUnion fun t => (run t).toFinset)
  have hK : ∀ k ∈ K, C k := by
    intro k hk
    simp only [K, Finset.mem_insert, Finset.mem_biUnion, Finset.mem_Ico, Option.mem_toFinset, Option.mem_def] at hk
    rcases hk with rfl | ⟨t, ⟨ht, htd⟩, hr⟩
    · exact hj
    · obtain ⟨k', hr', hC⟩ := hbusy t ht htd
      rw [hr] at hr'
      cases hr'
      exact hC
  have hmaps : Set.MapsTo run (Finset.Ico t₀ d) (K.map .some) := by
    intro t ht
    have ht' := Finset.mem_Ico.mp (Finset.mem_coe.mp ht)
    obtain ⟨k, hr, -⟩ := hbusy t ht'.1 ht'.2
    simp only [Finset.coe_map, Set.mem_image, K]
    refine ⟨k, Finset.mem_coe.mpr (Finset.mem_insert_of_mem (Finset.mem_biUnion.mpr ⟨t, ?_, ?_⟩)), hr.symm⟩
    · exact Finset.mem_coe.mp ht
    · simp [hr]
  have hslots := Finset.card_eq_sum_card_fiberwise hmaps
  rw [Nat.card_Ico, Finset.sum_map] at hslots
  have hpart : ∀ k, ((Finset.Ico t₀ d).filter fun t => run t = some k).card ≤ service run k d := by
    intro k
    refine Finset.card_le_card ?_
    intro t ht
    simp only [Finset.mem_filter, Finset.mem_Ico, Finset.mem_range] at ht ⊢
    exact ⟨ht.1.2, ht.2⟩
  have hless : ∑ k ∈ K, ((Finset.Ico t₀ d).filter fun t => run t = some k).card < ∑ k ∈ K, J.cost k := by
    refine Finset.sum_lt_sum (fun k _ => (hpart k).trans (hle k _)) ?_
    exact ⟨j, Finset.mem_insert_self .., (hpart j).trans_lt hmiss⟩
  have := hcost K hK
  simp only [Function.Embedding.some_apply] at hslots
  omega

/-- What holds at 0 holds for the last time up to `d`. -/
theorem exists_last {P : ℕ → Prop} (h0 : P 0) (d : ℕ) : ∃ t₀ ≤ d, P t₀ ∧ ∀ t, t₀ < t → t ≤ d → ¬ P t := by
  classical
  refine ⟨Nat.findGreatest P d, Nat.findGreatest_le d, Nat.findGreatest_spec (Nat.zero_le d) h0, ?_⟩
  intro t ht htd
  exact Nat.findGreatest_is_greatest ht htd

/-- At `t`, every job that is due by `d` and arrived before is done. -/
def Clear (J : Jobs κ) (run : ℕ → Option κ) (d t : ℕ) : Prop :=
  ∀ k, J.release k < t → J.deadline k ≤ d → J.cost k ≤ service run k t

/-- The last clear instant up to `d`. -/
theorem exists_last_clear (J : Jobs κ) (run : ℕ → Option κ) (d : ℕ) : ∃ t₀ ≤ d, Clear J run d t₀ ∧
    ∀ t, t₀ < t → t ≤ d → ¬ Clear J run d t :=
  exists_last (fun _ hk => absurd hk (Nat.not_lt_zero _)) d

/-- From the last clear instant on, only jobs that arrive after it and are due by `d` run. -/
theorem IsEdf.busy_window (h : IsEdf J run) {t₀ d : ℕ} (hc : Clear J run d t₀)
    (hlast : ∀ t, t₀ < t → t ≤ d → ¬ Clear J run d t) (ht : t₀ ≤ t) (htd : t < d) :
    ∃ k, run t = some k ∧ t₀ ≤ J.release k ∧ J.deadline k ≤ d := by
  have hnot := hlast (t + 1) (by omega) (by omega)
  unfold Clear at hnot
  push Not at hnot
  obtain ⟨k', hrel, hdue, hleft⟩ := hnot
  have hpend : Pending J run k' t := ⟨by omega, (service_mono (Nat.le_succ t)).trans_lt hleft⟩
  rcases hr : run t with _ | k
  · exact absurd hpend (h.busy t k' hr)
  · refine ⟨k, rfl, ?_, (h.earliest t k k' hr hpend).trans hdue⟩
    by_contra hlt
    -- a job from before the clear instant would be done by now
    have hdone := hc k (by omega) ((h.earliest t k k' hr hpend).trans hdue)
    have hrun := (h.pending t k hr).2
    have := @service_mono κ run k t₀ t ht
    omega

/-- **No deadline is missed** when no window is asked for more than its slots. -/
theorem IsEdf.meets (h : IsEdf J run) (hb : Bounded J) (j : κ) : service run j (J.deadline j) = J.cost j := by
  by_contra hne
  have hmiss : service run j (J.deadline j) < J.cost j := lt_of_le_of_ne (service_le h.pending j _) hne
  obtain ⟨t₀, hle, hc, hlast⟩ := exists_last_clear J run (J.deadline j)
  have hj : t₀ ≤ J.release j := by
    by_contra hlt
    have := hc j (by omega) le_rfl
    have := @service_mono κ run j t₀ _ hle
    omega
  have hbusy : ∀ t, t₀ ≤ t → t < J.deadline j →
      ∃ k, run t = some k ∧ t₀ ≤ J.release k ∧ J.deadline k ≤ J.deadline j :=
    fun t ht htd => h.busy_window hc hlast ht htd
  exact hne (served_of_busy (service_le h.pending) hbusy (fun K hK => hb t₀ _ K hK hle) ⟨hj, le_rfl⟩)

end Schedule

/-! ### Sporadic tasks -/

/-- A task: each of its jobs costs `cost` at most and is due `deadline` after it
arrives, and its jobs arrive `period` apart at least. -/
structure Sporadic where
  cost : ℕ
  deadline : ℕ
  period : ℕ

/-- What the jobs of the task that arrive and are due in a window of length `l` cost at most. -/
def Sporadic.dbf (τ : Sporadic) (l : ℕ) : ℕ :=
  if l < τ.deadline then 0 else ((l - τ.deadline) / τ.period + 1) * τ.cost

/-- Cost over the smaller of deadline and period. -/
def Sporadic.density (τ : Sporadic) : ℚ := τ.cost / (min τ.deadline τ.period : ℕ)

/-- The jobs are jobs of the tasks `T i`, `i ∈ s`. -/
structure Arrive (s : Finset ι) (T : ι → Sporadic) (J : Jobs κ) (task : κ → ι) : Prop where
  mem : ∀ k, task k ∈ s
  cost : ∀ k, J.cost k ≤ (T (task k)).cost
  due : ∀ k, J.deadline k = J.release k + (T (task k)).deadline
  apart : ∀ k k', k ≠ k' → task k = task k' → J.release k ≤ J.release k' →
    J.release k + (T (task k)).period ≤ J.release k'

section Tasks

variable {s : Finset ι} {T : ι → Sporadic} {J : Jobs κ} {task : κ → ι} {t₀ d : ℕ} {K : Finset κ}

/-- At most `n` jobs of one task arrive in `n` periods. -/
theorem card_apart (hA : Arrive s T J task) {i : ι} (hp : 0 < (T i).period) {n : ℕ}
    (hK : ∀ k ∈ K, t₀ ≤ J.release k ∧ J.release k < t₀ + n * (T i).period) (hi : ∀ k ∈ K, task k = i) :
    K.card ≤ n := by
  -- which period of the window a job arrives in
  refine (Finset.card_le_card_of_injOn (fun k => (J.release k - t₀) / (T i).period) (t := Finset.range n) ?_ ?_).trans
    (Finset.card_range _).le
  · intro k hk
    have := hK k hk
    exact Finset.mem_coe.mpr (Finset.mem_range.mpr ((Nat.div_lt_iff_lt_mul hp).mpr (by omega)))
  · intro k hk k' hk' heq
    by_contra hne
    have hlater : ∀ k ∈ K, ∀ k' ∈ K, k ≠ k' → J.release k ≤ J.release k' →
        (J.release k - t₀) / (T i).period < (J.release k' - t₀) / (T i).period := by
      intro k hk k' hk' hkk hle
      have hap := hA.apart k k' hkk ((hi k hk).trans (hi k' hk').symm) hle
      rw [hi k hk] at hap
      have h0 := (hK k hk).1
      calc (J.release k - t₀) / (T i).period < (J.release k - t₀) / (T i).period + 1 := Nat.lt_succ_self _
        _ = (J.release k - t₀ + (T i).period) / (T i).period := (Nat.add_div_right _ hp).symm
        _ ≤ (J.release k' - t₀) / (T i).period := Nat.div_le_div_right (by omega)
    rcases Nat.le_total (J.release k) (J.release k') with hle | hle
    · exact (hlater k hk k' hk' hne hle).ne heq
    · exact (hlater k' hk' k hk (Ne.symm hne) hle).ne heq.symm

/-- The jobs of one task that fall into a window. -/
theorem card_window (hA : Arrive s T J task) {i : ι} (hp : 0 < (T i).period)
    (hK : ∀ k ∈ K, t₀ ≤ J.release k ∧ J.deadline k ≤ d) (hi : ∀ k ∈ K, task k = i) (hne : K.Nonempty) :
    (T i).deadline ≤ d - t₀ ∧ K.card ≤ (d - t₀ - (T i).deadline) / (T i).period + 1 := by
  have hdue : ∀ k ∈ K, J.release k + (T i).deadline ≤ d := by
    intro k hk
    have := hA.due k
    rw [hi k hk] at this
    have := (hK k hk).2
    omega
  refine ⟨?_, ?_⟩
  · obtain ⟨k, hk⟩ := hne
    have := hdue k hk
    have := (hK k hk).1
    omega
  · have hlast := Nat.lt_div_mul_add (a := d - t₀ - (T i).deadline) hp
    have hin : ∀ k ∈ K, t₀ ≤ J.release k ∧
        J.release k < t₀ + ((d - t₀ - (T i).deadline) / (T i).period + 1) * (T i).period := by
      intro k hk
      have := hdue k hk
      have := (hK k hk).1
      rw [Nat.add_mul, Nat.one_mul]
      omega
    exact card_apart hA hp hin hi

/-- **Demand**: what falls into a window is bounded task by task. -/
theorem demand_le (hA : Arrive s T J task) (hp : ∀ i ∈ s, 0 < (T i).period)
    (hK : ∀ k ∈ K, t₀ ≤ J.release k ∧ J.deadline k ≤ d) : ∑ k ∈ K, J.cost k ≤ ∑ i ∈ s, (T i).dbf (d - t₀) := by
  classical
  rw [← Finset.sum_fiberwise_of_maps_to (g := task) (t := s) fun k _ => hA.mem k]
  refine Finset.sum_le_sum ?_
  intro i his
  have hsub : ∀ k ∈ K.filter fun k => task k = i, k ∈ K ∧ task k = i := fun k hk => Finset.mem_filter.mp hk
  rcases (K.filter fun k => task k = i).eq_empty_or_nonempty with hempty | hne
  · rw [hempty]
    simp
  · obtain ⟨h1, h2⟩ := card_window hA (hp i his) (fun k hk => hK k (hsub k hk).1) (fun k hk => (hsub k hk).2) hne
    unfold Sporadic.dbf
    rw [if_neg (by omega)]
    calc ∑ k ∈ K with task k = i, J.cost k ≤ (K.filter fun k => task k = i).card • (T i).cost := by
          refine Finset.sum_le_card_nsmul _ _ _ ?_
          intro k hk
          rw [← (hsub k hk).2]
          exact hA.cost k
      _ = (K.filter fun k => task k = i).card * (T i).cost := smul_eq_mul ..
      _ ≤ ((d - t₀ - (T i).deadline) / (T i).period + 1) * (T i).cost := Nat.mul_le_mul_right _ h2

/-- The demand of a task is at most its share of the window. -/
theorem dbf_le {τ : Sporadic} (hp : 0 < τ.period) (hd : 0 < τ.deadline) (l : ℕ) : (τ.dbf l : ℚ) ≤ τ.density * l := by
  have hm : (0 : ℚ) < (min τ.deadline τ.period : ℕ) := by exact_mod_cast lt_min hd hp
  unfold Sporadic.dbf Sporadic.density
  split
  · have : (0 : ℚ) ≤ τ.cost / (min τ.deadline τ.period : ℕ) * l := by positivity
    simpa using this
  · rename_i hl
    -- every job of the window has `min deadline period` slots of it to itself
    have hjobs : ((l - τ.deadline) / τ.period + 1) * min τ.deadline τ.period ≤ l := by
      have hdiv : (l - τ.deadline) / τ.period * τ.period ≤ l - τ.deadline := Nat.div_mul_le_self ..
      calc ((l - τ.deadline) / τ.period + 1) * min τ.deadline τ.period
          = (l - τ.deadline) / τ.period * min τ.deadline τ.period + min τ.deadline τ.period := by ring
        _ ≤ (l - τ.deadline) / τ.period * τ.period + τ.deadline :=
            Nat.add_le_add (Nat.mul_le_mul_left _ (min_le_right ..)) (min_le_left ..)
        _ ≤ l := by omega
    have hjobs' : (((l - τ.deadline) / τ.period + 1 : ℕ) : ℚ) * (min τ.deadline τ.period : ℕ) ≤ l := by
      exact_mod_cast hjobs
    rw [div_mul_eq_mul_div, le_div_iff₀ hm]
    calc ((((l - τ.deadline) / τ.period + 1) * τ.cost : ℕ) : ℚ) * (min τ.deadline τ.period : ℕ)
        = τ.cost * ((((l - τ.deadline) / τ.period + 1 : ℕ) : ℚ) * (min τ.deadline τ.period : ℕ)) := by
          push_cast
          ring
      _ ≤ τ.cost * l := mul_le_mul_of_nonneg_left hjobs' (Nat.cast_nonneg _)

/-- **Feasibility**: tasks whose densities sum to 1 at most meet every deadline. -/
theorem IsEdf.meets_of_density {run : ℕ → Option κ} (h : IsEdf J run) (hA : Arrive s T J task)
    (hp : ∀ i ∈ s, 0 < (T i).period) (hd : ∀ i ∈ s, 0 < (T i).deadline) (hsum : ∑ i ∈ s, (T i).density ≤ 1)
    (k : κ) : service run k (J.deadline k) = J.cost k := by
  refine h.meets ?_ k
  intro t₀ d K hK _
  have hdemand : ((∑ i ∈ s, (T i).dbf (d - t₀) : ℕ) : ℚ) ≤ ((d - t₀ : ℕ) : ℚ) := by
    calc ((∑ i ∈ s, (T i).dbf (d - t₀) : ℕ) : ℚ) = ∑ i ∈ s, ((T i).dbf (d - t₀) : ℚ) := by push_cast; rfl
      _ ≤ ∑ i ∈ s, (T i).density * (d - t₀ : ℕ) := Finset.sum_le_sum fun i hi => dbf_le (hp i hi) (hd i hi) _
      _ = (∑ i ∈ s, (T i).density) * (d - t₀ : ℕ) := (Finset.sum_mul ..).symm
      _ ≤ 1 * (d - t₀ : ℕ) := mul_le_mul_of_nonneg_right hsum (Nat.cast_nonneg _)
      _ = (d - t₀ : ℕ) := one_mul _
  exact (demand_le hA hp hK).trans (by exact_mod_cast hdemand)

end Tasks

end Edf
