/-
# The utilisation a task declares

`rtf_task_get_util` and `rtf_task_get_des_util` divide a budget by the minimum
of period and deadline, which they take into an `int` first. The quotient is
the declared one as long as that minimum is below `2 ^ 31`. Beyond, it is
negative or too large, or missing where the low 32 bits are 0, and a task with
a negative one makes room on the core that takes it.

Key definitions: `leastDeclared`, `ExactUtil`, `SoundUtil`.
Key theorems: `exactUtil_iff`, `schedule_takes`, `utilisation_iff`,
`not_utilisation`.
-/
import Retif.Admission

namespace Retif

/-- The smaller of period and deadline, of those that are not 0; 0 if both are. -/
def leastDeclared (p : Params) : ℕ := ([p.period.toNat, p.deadline.toNat].filter (· ≠ 0)).min?.getD 0

/-- `u` is the utilisation of a budget: the quotient, and -1 only where there is none. -/
structure ExactUtil (budget : UInt64) (p : Params) (u : ℚ) : Prop where
  quotient : budget ≠ 0 → leastDeclared p ≠ 0 → u = (budget.toNat : ℚ) / (leastDeclared p : ℚ)
  absent : u = -1 ↔ budget = 0 ∨ leastDeclared p = 0

/-- **What the two getters are for**: the utilisations are those declared, so
that of a task with a runtime and a period is positive, and a plugin that takes
a task in has no more free afterwards on any core. -/
structure SoundUtil (t : Task) : Prop where
  util : ExactUtil t.params.runtime t.params (rtfTaskGetUtil t)
  desUtil : ExactUtil t.params.desRuntime t.params (rtfTaskGetDesUtil t)
  positive : t.params.runtime ≠ 0 → t.params.period ≠ 0 → 0 < rtfTaskGetUtil t
  takes : ∀ (w w' : World) (i : ℕ) (a : Addr) (r : Res), (w.heap a).params = t.params →
    rtfPlgTaskAccept (w.plugin i) (w.heap a) = .ok r → r ≠ .no → rtfPlgTaskSchedule w i a = .ok w' →
      ∀ c, (w'.plugin i).utilFreePercpu c ≤ (w.plugin i).utilFreePercpu c

/-! ### The minimum as an `int` -/

theorem minDeclared_toNat (t : Task) : (rtfTaskGetMinDeclared t).toNat = leastDeclared t.params := by
  have hzero : ∀ x : UInt64, x = 0 ↔ x.toNat = 0 := fun x => UInt64.toNat_inj.symm
  unfold rtfTaskGetMinDeclared leastDeclared
  by_cases hp : t.params.period = 0
  · rw [if_pos hp]
    by_cases hd : t.params.deadline = 0
    · simp [hp, hd]
    · have hd' := mt (hzero _).mpr hd
      simp [hp, hd']
  · have hp' := mt (hzero _).mpr hp
    rw [if_neg hp]
    by_cases hd : t.params.deadline = 0
    · rw [if_pos hd]
      simp [hd, hp']
    · have hd' := mt (hzero _).mpr hd
      rw [if_neg hd]
      split
      · rename_i hlt
        have := UInt64.lt_iff_toNat_lt.mp hlt
        simp [hp', hd']
        omega
      · rename_i hge
        have := mt UInt64.lt_iff_toNat_lt.mpr hge
        simp [hp', hd']
        omega

/-- An `int` holds a value below `2 ^ 31`, and no other. -/
theorem toInt_eq_iff (x : UInt64) : toInt x = x.toNat ↔ x.toNat < 2 ^ 31 := by
  unfold toInt
  constructor
  · intro h
    have := Int.bmod_lt (x := (x.toNat : ℤ)) (m := 2 ^ 32) (by norm_num)
    omega
  · intro h
    rw [Int.bmod_eq_of_le] <;> omega

/-- **When a utilisation is exact**: there is no budget, or the minimum is below `2 ^ 31`. -/
theorem exactUtil_iff (budget : UInt64) (t : Task) :
    ExactUtil budget t.params (utilOf budget t) ↔ budget = 0 ∨ leastDeclared t.params < 2 ^ 31 := by
  have hint := toInt_eq_iff (rtfTaskGetMinDeclared t)
  rw [minDeclared_toNat] at hint
  constructor
  · intro h
    by_contra hn
    obtain ⟨hb, hlarge⟩ := not_or.mp hn
    have hm : leastDeclared t.params ≠ 0 := by omega
    have hquot := h.quotient hb hm
    have hne : utilOf budget t ≠ -1 := by
      intro hu
      rcases h.absent.mp hu with h0 | h0
      · exact hb h0
      · exact hm h0
    obtain ⟨hmin, -, hu⟩ := utilOf_ne hne
    rw [hquot] at hu
    have hb' : (budget.toNat : ℚ) ≠ 0 := by
      have : budget.toNat ≠ 0 := fun he => hb (UInt64.toNat_inj.mp he)
      exact_mod_cast this
    have hm' : (leastDeclared t.params : ℚ) ≠ 0 := by exact_mod_cast hm
    have hmin' : (toInt (rtfTaskGetMinDeclared t) : ℚ) ≠ 0 := by exact_mod_cast hmin
    rw [div_eq_div_iff hm' hmin', mul_right_inj' hb'] at hu
    exact hlarge (hint.mp (by exact_mod_cast hu))
  · rintro (rfl | hsmall)
    · have hu : utilOf 0 t = -1 := by simp [utilOf]
      exact ⟨fun h => absurd rfl h, iff_of_true hu (.inl rfl)⟩
    · have hmin := hint.mpr hsmall
      unfold utilOf
      rw [hmin]
      refine ⟨?_, ?_⟩
      · intro hb hm
        rw [if_neg (by simp [hb, hm])]
        simp
      · split
        · rename_i hzero
          refine iff_of_true rfl ?_
          rcases hzero with h0 | h0
          · exact .inr (by exact_mod_cast h0)
          · exact .inl h0
        · rename_i hn
          obtain ⟨hm, hb⟩ := not_or.mp hn
          have hnonneg : (0 : ℚ) ≤ (budget.toNat : ℚ) / ((leastDeclared t.params : ℤ) : ℚ) := by positivity
          refine iff_of_false (by linarith) ?_
          rintro (h0 | h0)
          · exact hb h0
          · exact hm (by exact_mod_cast h0)

/-! ### What admission takes -/

section Takes

variable {w w' : World} {i : ℕ} {a : Addr} {r : Res}

/-- With a minimum that keeps its sign, a task that is accepted and placed takes
nothing negative. -/
theorem schedule_takes (hsign : (w.heap a).params.runtime = 0 ∨ 0 ≤ toInt (rtfTaskGetMinDeclared (w.heap a)))
    (hk : (w.plugin i).kind.keepsUtil) (hacc : rtfPlgTaskAccept (w.plugin i) (w.heap a) = .ok r) (hr : r ≠ .no)
    (h : rtfPlgTaskSchedule w i a = .ok w') : 0 ≤ (w'.heap a).acceptedu := by
  unfold rtfPlgTaskAccept at hacc
  unfold rtfPlgTaskSchedule at h
  rcases hkind : (w.plugin i).kind with _ | _ | _ | _ <;> rw [hkind] at hk hacc h
  · obtain ⟨c, t, -, -, -, ht, rfl⟩ := EDF.schedule_ok h
    simp only [World.setPlugin, World.setTask, Function.update_self]
    have hne := (EDF.accept_ne_no hacc hr).1
    have hpos : 0 < rtfTaskGetUtil (w.heap a) := (utilOf_pos hsign).resolve_left hne
    rcases EDF.grant_cases ht with ⟨hgr, -⟩ | hgr
    · rw [hgr]
      exact hpos.le
    · rw [hgr]
      exact div_nonneg (Nat.cast_nonneg _) (Nat.cast_nonneg _)
  · obtain ⟨c, st, heap, u, -, -, -, hgranted, rfl⟩ := RM.schedule_ok h
    simp only [World.setPlugin, World.setTask, World.setStatics, Function.update_self, hgranted]
    split
    · rename_i hne
      have hpos : 0 < rtfTaskGetUtil (w.heap a) := (utilOf_pos hsign).resolve_left hne
      exact hpos.le
    · exact le_rfl
  · simp [Kind.keepsUtil] at hk
  · simp [Kind.keepsUtil] at hk

/-- So no core has more free than before. -/
theorem schedule_util_le (hsign : (w.heap a).params.runtime = 0 ∨ 0 ≤ toInt (rtfTaskGetMinDeclared (w.heap a)))
    (hacc : rtfPlgTaskAccept (w.plugin i) (w.heap a) = .ok r) (hr : r ≠ .no)
    (h : rtfPlgTaskSchedule w i a = .ok w') (c : ℕ) :
    (w'.plugin i).utilFreePercpu c ≤ (w.plugin i).utilFreePercpu c := by
  obtain ⟨d, hP⟩ := schedule_placed h
  rw [hP.util]
  split
  · rename_i hk
    have htaken := schedule_takes hsign hk hacc hr h
    by_cases hc : c = d
    · subst hc
      rw [Function.update_self]
      linarith
    · rw [Function.update_of_ne hc]
  · exact le_rfl

end Takes

/-- **When the utilisations are those declared**: neither budget is given, or the
smaller of period and deadline is below `2 ^ 31`. -/
theorem utilisation_iff (t : Task) : SoundUtil t ↔
    (t.params.runtime = 0 ∧ t.params.desRuntime = 0) ∨ leastDeclared t.params < 2 ^ 31 := by
  have hutil : ExactUtil t.params.runtime t.params (rtfTaskGetUtil t) ↔
      t.params.runtime = 0 ∨ leastDeclared t.params < 2 ^ 31 := exactUtil_iff _ t
  have hdes : ExactUtil t.params.desRuntime t.params (rtfTaskGetDesUtil t) ↔
      t.params.desRuntime = 0 ∨ leastDeclared t.params < 2 ^ 31 := exactUtil_iff _ t
  constructor
  · intro h
    rcases hutil.mp h.util with hr | hm
    · rcases hdes.mp h.desUtil with hd | hm
      · exact .inl ⟨hr, hd⟩
      · exact .inr hm
    · exact .inr hm
  · intro h
    have hrun : t.params.runtime = 0 ∨ leastDeclared t.params < 2 ^ 31 := h.imp_left And.left
    have hsign : ∀ u : Task, u.params = t.params →
        u.params.runtime = 0 ∨ 0 ≤ toInt (rtfTaskGetMinDeclared u) := by
      intro u hu
      rw [hu]
      refine hrun.imp_right fun hm => ?_
      rw [(toInt_eq_iff _).mpr (by rwa [minDeclared_toNat, hu])]
      exact Int.natCast_nonneg _
    refine ⟨hutil.mpr hrun, hdes.mpr (h.imp_left And.right), ?_, ?_⟩
    · intro hr hp
      rcases utilOf_pos (hsign t rfl) with hu | hpos
      · have hnone := ((hutil.mpr hrun).absent.mp hu).resolve_left hr
        rw [← minDeclared_toNat] at hnone
        have hzero : rtfTaskGetMinDeclared t = 0 := UInt64.toNat_inj.mp hnone
        unfold rtfTaskGetMinDeclared at hzero
        split_ifs at hzero with h0 h1 hlt
        · exact absurd h0 hp
        · exact absurd hzero hp
        · exact absurd hzero h1
        · exact absurd hzero hp
      · exact hpos
    · intro w w' i a r hparams hacc hr hs c
      exact schedule_util_le (hsign _ hparams) hacc hr hs c

/-- A period of `2 ^ 32 - 100` is -100 as an `int`: the task has the utilisation -1/10. -/
theorem not_utilisation : ¬ ∀ t : Task, SoundUtil t := by
  intro h
  have hpos := (h { Task.zero with params := { Params.zero with runtime := 10, period := 0xffffff9c } }).positive
    (by decide) (by decide)
  exact absurd hpos (by decide +kernel)

end Retif
