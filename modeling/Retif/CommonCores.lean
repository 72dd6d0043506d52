/-
# The merge by index

`plugins_have_common_cpus` as the source has it: two `int` indices into the
arrays of the cores, compared with their sizes as `size_t`. `Config` has the
merge on what is left of the two lists; the loop does the same
(`commonLoop_eq`), because a list of core numbers that ascends is not longer
than an `int` counts, and so it ends with the right answer.

Key definitions: `commonLoop`.
Key theorems: `commonLoop_eq`, `common_cores_iff`.
-/
import Retif.Config
import Retif.Nodes

namespace Retif

/-- The loop of `plugins_have_common_cpus`, from the indices `i` and `j` on. -/
def commonLoop (xs ys : List ℤ) : ℕ → Int32 → Int32 → Except Stop Bool
  | 0, _, _ => .error .turns
  | fuel + 1, i, j =>
    if toSizeT i.toInt < xs.length ∧ toSizeT j.toInt < ys.length then
      match xs[toSizeT i.toInt]?, ys[toSizeT j.toInt]? with
      | some x, some y =>
        if x < y then commonLoop xs ys fuel (i + 1) j
        else if x > y then commonLoop xs ys fuel i (j + 1)
        else .ok true
      | _, _ => .error .link
    else .ok false

section Merge

variable {xs ys : List ℤ} {m n : ℕ}

/-- An ascending list of numbers that an `int` holds, none negative. -/
theorem cores_length_le (hasc : xs.Pairwise (· < ·)) (hint : ∀ c ∈ xs, 0 ≤ c ∧ c < 2 ^ 31) : xs.length ≤ 2 ^ 31 := by
  have hnodup : xs.Nodup := hasc.imp fun hlt => hlt.ne
  have hsub : xs.toFinset ⊆ Finset.Ico (0 : ℤ) (2 ^ 31) := by
    intro c hc
    exact Finset.mem_Ico.mpr (hint c (List.mem_toFinset.mp hc))
  have hcard := Finset.card_le_card hsub
  rwa [List.toFinset_card_of_nodup hnodup, Int.card_Ico] at hcard

/-- The index is compared as what it counts; one past the greatest `int`, it is
past the end of the list too. -/
theorem index_lt (hm : m ≤ xs.length) (hlen : xs.length ≤ 2 ^ 31) :
    toSizeT (Int32.ofNat m).toInt < xs.length ↔ m < xs.length := by
  rcases Nat.lt_or_ge m (2 ^ 31) with hlt | hge
  · rw [Int32.toInt_ofNat_of_lt hlt, toSizeT]
    omega
  · obtain rfl : m = 2 ^ 31 := by omega
    have hneg : toSizeT (Int32.ofNat (2 ^ 31)).toInt = 2 ^ 64 - 2 ^ 31 := by decide
    rw [hneg]
    omega

theorem index_eq (hm : m < xs.length) (hlen : xs.length ≤ 2 ^ 31) : toSizeT (Int32.ofNat m).toInt = m := by
  rw [Int32.toInt_ofNat_of_lt (by omega), toSizeT]
  omega

/-- The loop is at what is left of the two lists. -/
theorem commonLoop_eq (hx : xs.length ≤ 2 ^ 31) (hy : ys.length ≤ 2 ^ 31) {fuel : ℕ} (hm : m ≤ xs.length)
    (hn : n ≤ ys.length) (hfuel : (xs.length - m) + (ys.length - n) < fuel) :
    commonLoop xs ys fuel (Int32.ofNat m) (Int32.ofNat n) = .ok (commonFrom fuel (xs.drop m) (ys.drop n)) := by
  induction fuel generalizing m n with
  | zero => omega
  | succ fuel ih =>
    have hi := index_lt hm hx
    have hj := index_lt hn hy
    rcases hm.lt_or_eq with hm' | rfl
    · rcases hn.lt_or_eq with hn' | rfl
      · rw [commonLoop, if_pos ⟨hi.mpr hm', hj.mpr hn'⟩, index_eq hm' hx, index_eq hn' hy, List.getElem?_eq_getElem hm',
          List.getElem?_eq_getElem hn', List.drop_eq_getElem_cons hm', List.drop_eq_getElem_cons hn', commonFrom]
        dsimp only
        split_ifs with hlt hgt
        · have hstep := @ih (m + 1) n hm' hn (by omega)
          rw [List.drop_eq_getElem_cons hn'] at hstep
          rw [← hstep, Int32.ofNat_add]
          rfl
        · have hstep := @ih m (n + 1) hm hn' (by omega)
          rw [List.drop_eq_getElem_cons hm'] at hstep
          rw [← hstep, Int32.ofNat_add]
          rfl
        · rfl
      · rw [commonLoop, if_neg fun hin => lt_irrefl _ (hj.mp hin.2), List.drop_length]
        cases xs.drop m <;> rfl
    · rw [commonLoop, if_neg fun hin => lt_irrefl _ (hi.mp hin.1), List.drop_length]
      rfl

end Merge

/-- The numbers that `check_cpus`, which runs first, has let pass. -/
theorem cores_checked {numProcs : ℕ} {conf : Configuration} (hn : numProcs < 2 ^ 31)
    (hint : ∀ p ∈ conf.plugins, ∀ c ∈ p.cores, -2 ^ 31 ≤ c ∧ c < 2 ^ 31) (hok : checkCpus numProcs conf = true) :
    ∀ p ∈ conf.plugins, ∀ c ∈ p.cores, 0 ≤ c ∧ c < 2 ^ 31 := by
  intro p hp c hc
  obtain ⟨h0, hlt⟩ := (checkCpus_iff hn hint).mp hok p hp c hc
  exact ⟨h0, by omega⟩

/-- **Common cores.** For any two lists of core numbers that ascend, the loop
ends, and says whether a core is in both. -/
theorem common_cores_iff {p1 p2 : ConfPlugin} (hasc1 : p1.cores.Pairwise (· < ·)) (hasc2 : p2.cores.Pairwise (· < ·))
    (hint1 : ∀ c ∈ p1.cores, 0 ≤ c ∧ c < 2 ^ 31) (hint2 : ∀ c ∈ p2.cores, 0 ≤ c ∧ c < 2 ^ 31) :
    ∃ b, Returns (fun fuel => commonLoop p1.cores p2.cores fuel 0 0) b ∧
      (b = true ↔ ∃ c, c ∈ p1.cores ∧ c ∈ p2.cores) := by
  refine ⟨pluginsHaveCommonCpus p1 p2, ⟨p1.cores.length + p2.cores.length + 1, fun fuel hfuel => ?_⟩, ?_⟩
  · have hloop := @commonLoop_eq _ _ 0 0 (cores_length_le hasc1 hint1) (cores_length_le hasc2 hint2) fuel (by omega)
      (by omega) (by omega)
    have hsame : commonFrom fuel p1.cores p2.cores = pluginsHaveCommonCpus p1 p2 := by
      rw [Bool.eq_iff_iff, commonFrom_iff (by omega), commonCpus_iff]
    exact hloop.trans (congrArg Except.ok hsame)
  · rw [commonCpus_iff]
    constructor
    · rintro ⟨c, hc1, hc2⟩
      exact ⟨c, hc1.mem, hc2.mem⟩
    · rintro ⟨c, hc1, hc2⟩
      exact ⟨c, leads_of_mem hasc1 hc1, leads_of_mem hasc2 hc2⟩

theorem common_cores_two : ∃ b, Returns (fun fuel => commonLoop [0, 2] [1, 2, 3] fuel 0 0) b ∧
    (b = true ↔ ∃ c, c ∈ [0, 2] ∧ c ∈ [1, 2, (3 : ℤ)]) :=
  @common_cores_iff ⟨[], [], 1, 1, [0, 2]⟩ ⟨[], [], 1, 1, [1, 2, 3]⟩ (by decide) (by decide) (by decide) (by decide)

end Retif
