/-
# Fixed priorities on one processor

`IsFixed` is the preemptive schedule that never idles while a job is pending and
always runs one with the highest priority. A job is done `L` slots after it
arrives if the jobs that are not below it never ask, those of them that arrive
in a window of `L` slots, for more than `L` (`IsFixed.done`): from the last
instant at which nothing of them was left until `L` slots later, nothing else
runs, and then nothing is left.

For sporadic tasks that is the response-time test (`IsFixed.responds`). Where a
task has a period that those above it divide, its period passes the test as soon
as the utilisations sum to 1 at most (`IsFixed.meets_of_harmonic`); for other
periods they would have to sum to less.

Key definitions: `IsFixed`.
Key theorems: `IsFixed.done`, `IsFixed.responds`, `IsFixed.meets_of_harmonic`.
-/
import Retif.Lib.Edf
import Mathlib.Algebra.Order.Floor.Div

namespace FixedPriority

open Edf

variable {ι κ : Type*}

/-- The schedule runs pending jobs only, the highest priority first, and idles
only when none is pending. Jobs of one priority run in any order. -/
structure IsFixed (J : Jobs κ) (prio : κ → ℕ) (run : ℕ → Option κ) : Prop where
  pending : ∀ t k, run t = some k → Pending J run k t
  highest : ∀ t k k', run t = some k → Pending J run k' t → prio k' ≤ prio k
  busy : ∀ t k, run t = none → ¬ Pending J run k t

section Schedule

variable {J : Jobs κ} {prio : κ → ℕ} {run : ℕ → Option κ} {j : κ} {L : ℕ}

/-- At `t`, every job that is not below `p` and arrived before is done. -/
def Clear (J : Jobs κ) (prio : κ → ℕ) (run : ℕ → Option κ) (p t : ℕ) : Prop :=
  ∀ k, p ≤ prio k → J.release k < t → J.cost k ≤ service run k t

/-- While one that is not below `p` is pending, one that has arrived since the clear instant runs. -/
theorem IsFixed.runs_since (h : IsFixed J prio run) {p t₀ t : ℕ} (hc : Clear J prio run p t₀) (ht : t₀ ≤ t) {k' : κ}
    (hp : p ≤ prio k') (hpend : Pending J run k' t) :
    ∃ k, run t = some k ∧ p ≤ prio k ∧ t₀ ≤ J.release k ∧ J.release k ≤ t := by
  rcases hr : run t with _ | k
  · exact absurd hpend (h.busy t k' hr)
  · have hprio := hp.trans (h.highest t k k' hr hpend)
    obtain ⟨hrel, hleft⟩ := h.pending t k hr
    refine ⟨k, rfl, hprio, ?_, hrel⟩
    by_contra hlt
    have hdone := hc k hprio (not_le.mp hlt)
    have := @service_mono κ run k t₀ t ht
    omega

/-- **A job is done** `L` slots after it arrives, if no `L` slots bring more work that is not below it. -/
theorem IsFixed.done (h : IsFixed J prio run) (hL : 0 < L)
    (hwork : ∀ (t₀ : ℕ) (K : Finset κ), (∀ k ∈ K, prio j ≤ prio k ∧ t₀ ≤ J.release k ∧ J.release k < t₀ + L) →
      ∑ k ∈ K, J.cost k ≤ L) : service run j (J.release j + L) = J.cost j := by
  by_contra hne
  have hmiss : service run j (J.release j + L) < J.cost j := lt_of_le_of_ne (service_le h.pending j _) hne
  have hzero : Clear J prio run (prio j) 0 := fun _ _ hk => absurd hk (Nat.not_lt_zero _)
  obtain ⟨t₀, hle, hc, hlast⟩ := exists_last hzero (J.release j)
  have hbusy : ∀ t, t₀ ≤ t → t < t₀ + L →
      ∃ k, run t = some k ∧ prio j ≤ prio k ∧ t₀ ≤ J.release k ∧ J.release k < t₀ + L := by
    intro t ht htL
    have hpend : ∃ k', prio j ≤ prio k' ∧ Pending J run k' t := by
      by_cases hbefore : t < J.release j
      · -- not clear yet
        have hnot := hlast (t + 1) (by omega) (by omega)
        unfold Clear at hnot
        push Not at hnot
        obtain ⟨k', hp, hrel, hleft⟩ := hnot
        exact ⟨k', hp, by omega, (service_mono (Nat.le_succ t)).trans_lt hleft⟩
      · exact ⟨j, le_rfl, not_lt.mp hbefore, (service_mono (by omega)).trans_lt hmiss⟩
    obtain ⟨k', hp, hpend⟩ := hpend
    obtain ⟨k, hr, hprio, hsince, hrel⟩ := h.runs_since hc ht hp hpend
    exact ⟨k, hr, hprio, hsince, by omega⟩
  have hdone : ∀ k, (prio j ≤ prio k ∧ t₀ ≤ J.release k ∧ J.release k < t₀ + L) →
      service run k (t₀ + L) = J.cost k := by
    intro k hk
    refine served_of_busy (service_le h.pending) hbusy ?_ hk
    intro K hK
    rw [Nat.add_sub_cancel_left]
    exact hwork t₀ K hK
  by_cases hin : J.release j < t₀ + L
  · have := hdone j ⟨le_rfl, hle, hin⟩
    have := @service_mono κ run j (t₀ + L) (J.release j + L) (by omega)
    omega
  · -- it would be clear again before the job arrives
    refine hlast (t₀ + L) (by omega) (not_lt.mp hin) ?_
    intro k hp hrel
    by_cases hold : J.release k < t₀
    · exact (hc k hp hold).trans (service_mono (Nat.le_add_right ..))
    · exact (hdone k ⟨hp, not_lt.mp hold, hrel⟩).ge

end Schedule

/-! ### Sporadic tasks -/

section Tasks

variable {s : Finset ι} {T : ι → Sporadic} {J : Jobs κ} {task : κ → ι} {p : ι → ℕ} {run : ℕ → Option κ} {j : κ} {L : ℕ}

/-- **The response-time test**: the tasks that are not below ask for no more than
`L` with all the jobs they may have in `L` slots. -/
theorem IsFixed.responds (h : IsFixed J (fun k => p (task k)) run) (hA : Arrive s T J task)
    (hp : ∀ i ∈ s, 0 < (T i).period) (hL : 0 < L)
    (htest : ∑ i ∈ s with p (task j) ≤ p i, (L ⌈/⌉ (T i).period) * (T i).cost ≤ L) :
    service run j (J.release j + L) = J.cost j := by
  classical
  apply h.done hL
  intro t₀ K hK
  refine le_trans ?_ htest
  have hmaps : ∀ k ∈ K, task k ∈ s.filter fun i => p (task j) ≤ p i :=
    fun k hk => Finset.mem_filter.mpr ⟨hA.mem k, (hK k hk).1⟩
  rw [← Finset.sum_fiberwise_of_maps_to hmaps]
  refine Finset.sum_le_sum ?_
  intro i hi
  have hpos := hp i (Finset.mem_filter.mp hi).1
  have hsub : ∀ k ∈ K.filter fun k => task k = i, k ∈ K ∧ task k = i := fun k hk => Finset.mem_filter.mp hk
  have hin : ∀ k ∈ K.filter fun k => task k = i,
      t₀ ≤ J.release k ∧ J.release k < t₀ + (L ⌈/⌉ (T i).period) * (T i).period := by
    intro k hk
    obtain ⟨-, hfrom, hto⟩ := hK k (hsub k hk).1
    have hceil : L ≤ (T i).period • (L ⌈/⌉ (T i).period) := le_smul_ceilDiv hpos
    rw [smul_eq_mul, Nat.mul_comm] at hceil
    omega
  calc ∑ k ∈ K with task k = i, J.cost k ≤ (K.filter fun k => task k = i).card • (T i).cost := by
        refine Finset.sum_le_card_nsmul _ _ _ ?_
        intro k hk
        rw [← (hsub k hk).2]
        exact hA.cost k
    _ = (K.filter fun k => task k = i).card * (T i).cost := smul_eq_mul ..
    _ ≤ (L ⌈/⌉ (T i).period) * (T i).cost :=
        Nat.mul_le_mul_right _ (card_apart hA hpos hin fun k hk => (hsub k hk).2)

/-- **Harmonic periods**: where the periods that are not below divide those that
are not above, every job is done in its period if the utilisations sum to 1 at most. -/
theorem IsFixed.meets_of_harmonic (h : IsFixed J (fun k => p (task k)) run) (hA : Arrive s T J task)
    (hp : ∀ i ∈ s, 0 < (T i).period) (hdvd : ∀ i ∈ s, ∀ l ∈ s, p i ≤ p l → (T l).period ∣ (T i).period)
    (hsum : ∑ i ∈ s, ((T i).cost : ℚ) / (T i).period ≤ 1) (j : κ) :
    service run j (J.release j + (T (task j)).period) = J.cost j := by
  classical
  have hj := hA.mem j
  apply h.responds hA hp (hp _ hj)
  have hshare : ∀ i ∈ s.filter fun i => p (task j) ≤ p i,
      ((((T (task j)).period ⌈/⌉ (T i).period) * (T i).cost : ℕ) : ℚ) =
        (T (task j)).period * (((T i).cost : ℚ) / (T i).period) := by
    intro i hi
    obtain ⟨his, hprio⟩ := Finset.mem_filter.mp hi
    obtain ⟨q, hq⟩ := hdvd _ hj i his hprio
    have hpos := hp i his
    have hceil : (T (task j)).period ⌈/⌉ (T i).period = q := by
      rw [hq, ← smul_eq_mul, smul_ceilDiv hpos]
    have hne : ((T i).period : ℚ) ≠ 0 := by exact_mod_cast hpos.ne'
    rw [hceil, hq]
    push_cast
    field_simp
  have hcast : ((∑ i ∈ s with p (task j) ≤ p i, ((T (task j)).period ⌈/⌉ (T i).period) * (T i).cost : ℕ) : ℚ) ≤
      ((T (task j)).period : ℚ) := by
    rw [Nat.cast_sum]
    calc ∑ i ∈ s with p (task j) ≤ p i, ((((T (task j)).period ⌈/⌉ (T i).period) * (T i).cost : ℕ) : ℚ)
        = ∑ i ∈ s with p (task j) ≤ p i, (T (task j)).period * (((T i).cost : ℚ) / (T i).period) :=
          Finset.sum_congr rfl hshare
      _ = (T (task j)).period * ∑ i ∈ s with p (task j) ≤ p i, ((T i).cost : ℚ) / (T i).period :=
          (Finset.mul_sum ..).symm
      _ ≤ (T (task j)).period * ∑ i ∈ s, ((T i).cost : ℚ) / (T i).period := by
          refine mul_le_mul_of_nonneg_left ?_ (Nat.cast_nonneg _)
          refine Finset.sum_le_sum_of_subset_of_nonneg (Finset.filter_subset ..) ?_
          intro i _ _
          positivity
      _ ≤ (T (task j)).period * 1 := mul_le_mul_of_nonneg_left hsum (Nat.cast_nonneg _)
      _ = (T (task j)).period := mul_one _
  exact_mod_cast hcast

end Tasks

end FixedPriority
