/-
# What EDF grants

A task EDF has accepted is put on the core `least_loaded_cpu` names and is
given its runtime, its desired runtime, or what is left of that core. The
admission test asked for some core; the runtime booked is that of the
utilisation as an `int` sees the minimum of period and deadline, and with the
desired runtime goes the utilisation of the plain one. So a grant is sound on
a condition of its own in each of the three branches (`GrantsSoundly`).

Key definitions: `EDF.granted`, `Granted`, `GrantsSoundly`.
Key theorems: `EDF.grant_returns`, `granted_iff`, `edf_grants_iff`.
-/
import Retif.Admission
import Retif.Faults
import Retif.WorstFit

namespace Retif

section Returns

variable {this : Plugin}

/-! ### The tests return -/

theorem fitsSome_returns {u : ℚ} {cs : List ℕ} (h : ∀ c ∈ cs, this.InTable c) : ∃ b, fitsSome this u cs = .ok b := by
  induction cs with
  | nil => exact ⟨false, rfl⟩
  | cons c cs ih =>
    unfold fitsSome
    refine bind_returns ⟨_, read_ok.mpr ⟨h c (by simp), rfl⟩⟩ fun free _ => ?_
    split
    · exact ⟨true, rfl⟩
    · exact ih fun d hd => h d (by simp [hd])

theorem evalUtilMissing_returns (hne : this.cpulist ≠ []) (h : ∀ c ∈ this.cpulist, this.InTable c) (u : ℚ) :
    ∃ m, evalUtilMissing this u = .ok m := by
  refine bind_returns (fitsSome_returns h) fun fits _ => ?_
  split
  · exact ⟨0, rfl⟩
  · refine bind_returns (leastLoaded_returns hne h) fun c hc => ?_
    exact bind_returns ⟨_, read_ok.mpr ⟨(leastLoaded_mem hc).2, rfl⟩⟩ fun _ _ => ⟨_, rfl⟩

theorem desiredUtilizationTest_returns (hne : this.cpulist ≠ []) (h : ∀ c ∈ this.cpulist, this.InTable c) (u d : ℚ) :
    ∃ r, desiredUtilizationTest this u d = .ok r := by
  refine bind_returns (evalUtilMissing_returns hne h u) fun m _ => ?_
  refine bind_returns (evalUtilMissing_returns hne h d) fun n _ => ?_
  split_ifs
  · exact ⟨_, rfl⟩
  · exact ⟨_, rfl⟩
  · exact ⟨_, rfl⟩

/-- Without a core no task is accepted: the search for the least loaded one stops. -/
theorem EDF.accept_cpulist {t : Task} {r : Res} (h : EDF.rtfPlgTaskAccept this t = .ok r) (hr : r ≠ .no) :
    this.cpulist ≠ [] := by
  intro hnil
  have hmissing : ∀ u, evalUtilMissing this u = .error .cpulist := by
    intro u
    simp [evalUtilMissing, hnil, fitsSome, mostFree, leastLoaded]
  unfold EDF.rtfPlgTaskAccept at h
  split_ifs at h
  · exact hr (Except.ok.inj h).symm
  · exact hr (Except.ok.inj h).symm
  · exact hr (Except.ok.inj h).symm
  · obtain ⟨res, hadm, -⟩ := bind_ok.mp h
    unfold EDF.admission utilizationTest desiredUtilizationTest at hadm
    split at hadm
    · simp [hmissing] at hadm
    · simp [hmissing] at hadm

end Returns

/-! ### The three branches -/

/-- The record after the grant of `EDF`, on core `t.cpu`. -/
def EDF.granted (this : Plugin) (t : Task) : Task :=
  if rtfTaskGetDesUtil t = -1 then
    { t with acceptedt := rtfTaskGetRuntime t, acceptedu := rtfTaskGetUtil t }
  else if Fits this (rtfTaskGetDesUtil t) then
    { t with acceptedt := rtfTaskGetDesRuntime t, acceptedu := rtfTaskGetUtil t }
  else
    { t with
      acceptedt := toU64 (this.utilFreePercpu t.cpu * (rtfTaskGetMinDeclared t).toNat)
      acceptedu := (toU64 (this.utilFreePercpu t.cpu * (rtfTaskGetMinDeclared t).toNat)).toNat /
        (rtfTaskGetMinDeclared t).toNat }

theorem EDF.grant_returns {this : Plugin} {t : Task} (hne : this.cpulist ≠ [])
    (htab : ∀ c ∈ this.cpulist, this.InTable c) (hcpu : this.InTable t.cpu) :
    EDF.grant this t = .ok (EDF.granted this t) := by
  unfold EDF.grant EDF.granted
  by_cases hdes : rtfTaskGetDesUtil t = -1
  · rw [if_pos hdes, if_pos hdes]
  · rw [if_neg hdes, if_neg hdes]
    obtain ⟨res, hres⟩ := desiredUtilizationTest_returns hne htab (rtfTaskGetUtil t) (rtfTaskGetDesUtil t)
    have htest := desiredUtilizationTest_ok hres
    rw [hres, ok_bind]
    by_cases hfits : Fits this (rtfTaskGetDesUtil t)
    · rw [if_pos hfits] at htest
      rw [if_pos htest, if_pos hfits]
    · rw [if_neg hfits] at htest
      have hnok : res ≠ .ok := by
        rw [htest]
        split <;> simp
      rw [if_neg hnok, if_neg hfits]
      exact bind_ok.mpr ⟨_, read_ok.mpr ⟨hcpu, rfl⟩, rfl⟩

/-- The grant `t'` of the task `t`: at least the runtime, at most the larger of
runtime and desired runtime, booked over the declared minimum, and no more
than was free on the core. -/
structure Granted (this : Plugin) (t t' : Task) : Prop where
  least : t.params.runtime.toNat ≤ t'.acceptedt.toNat
  most : t'.acceptedt.toNat ≤ max t.params.runtime.toNat t.params.desRuntime.toNat
  booked : t'.acceptedu = (t'.acceptedt.toNat : ℚ) / ((rtfTaskGetMinDeclared t).toNat : ℚ)
  free : t'.acceptedu ≤ this.utilFreePercpu t'.cpu

/-- What is left of core `c` in the minimum of period and deadline. -/
def leftOver (this : Plugin) (t : Task) (c : ℕ) : ℚ := this.utilFreePercpu c * (rtfTaskGetMinDeclared t).toNat

/-- When the grant of `t` on core `c` is sound, branch by branch: without a
desired runtime, the minimum must be its own value as an `int`; where the
desired one fits somewhere, it must take the utilisation that is booked; and
what is granted must fit in core `c`. -/
def GrantsSoundly (this : Plugin) (t : Task) (c : ℕ) : Prop :=
  if rtfTaskGetDesUtil t = -1 then
    toInt (rtfTaskGetMinDeclared t) = (rtfTaskGetMinDeclared t).toNat ∧ t.params.runtime.toNat ≤ leftOver this t c
  else if Fits this (rtfTaskGetDesUtil t) then
    t.params.runtime ≤ t.params.desRuntime ∧
      t.params.runtime.toNat * (rtfTaskGetMinDeclared t).toNat =
        t.params.desRuntime.toNat * toInt (rtfTaskGetMinDeclared t) ∧
      t.params.desRuntime.toNat ≤ leftOver this t c
  else
    t.params.runtime.toNat ≤ leftOver this t c ∧
      ⌊leftOver this t c⌋ ≤ max t.params.runtime.toNat t.params.desRuntime.toNat

section Branches

variable {this : Plugin} {t : Task}

/-- A minimum that is not 0 as an `int` is not 0. -/
theorem minDeclared_pos (h : toInt (rtfTaskGetMinDeclared t) ≠ 0) :
    (0 : ℚ) < ((rtfTaskGetMinDeclared t).toNat : ℚ) := by
  have hne : (rtfTaskGetMinDeclared t).toNat ≠ 0 := by
    intro he
    have hzero : rtfTaskGetMinDeclared t = 0 := UInt64.toNat_inj.mp he
    rw [hzero] at h
    exact h toInt_zero
  exact_mod_cast Nat.pos_of_ne_zero hne

theorem granted_fields (x : UInt64) (u : ℚ) :
    Granted this t { t with acceptedt := x, acceptedu := u } ↔
      t.params.runtime.toNat ≤ x.toNat ∧ x.toNat ≤ max t.params.runtime.toNat t.params.desRuntime.toNat ∧
        u = (x.toNat : ℚ) / ((rtfTaskGetMinDeclared t).toNat : ℚ) ∧ u ≤ this.utilFreePercpu t.cpu :=
  ⟨fun h => ⟨h.least, h.most, h.booked, h.free⟩, fun ⟨h1, h2, h3, h4⟩ => ⟨h1, h2, h3, h4⟩⟩

/-- A budget over the minimum fits in a core when the budget fits in what is left of it. -/
theorem fits_left_iff (hm0 : (0 : ℚ) < ((rtfTaskGetMinDeclared t).toNat : ℚ)) (x : UInt64) (c : ℕ) :
    (x.toNat : ℚ) / ((rtfTaskGetMinDeclared t).toNat : ℚ) ≤ this.utilFreePercpu c ↔ x.toNat ≤ leftOver this t c :=
  div_le_iff₀ hm0

/-- No desired runtime: the runtime is granted, and booked over the `int`. -/
theorem granted_plain (hutil : rtfTaskGetUtil t ≠ -1) (hdes : rtfTaskGetDesUtil t = -1) :
    Granted this t (EDF.granted this t) ↔
      toInt (rtfTaskGetMinDeclared t) = (rtfTaskGetMinDeclared t).toNat ∧
        t.params.runtime.toNat ≤ leftOver this t t.cpu := by
  obtain ⟨hmin, hb, hu⟩ := utilOf_ne hutil
  have hgrant : EDF.granted this t = { t with acceptedt := rtfTaskGetRuntime t, acceptedu := rtfTaskGetUtil t } :=
    if_pos hdes
  have hm0 : (0 : ℚ) < ((rtfTaskGetMinDeclared t).toNat : ℚ) := minDeclared_pos hmin
  have hrun : (t.params.runtime.toNat : ℚ) ≠ 0 := by
    have : t.params.runtime.toNat ≠ 0 := fun he => hb (UInt64.toNat_inj.mp he)
    exact_mod_cast this
  have hz : (toInt (rtfTaskGetMinDeclared t) : ℚ) ≠ 0 := by exact_mod_cast hmin
  have hutil_eq : rtfTaskGetUtil t = (t.params.runtime.toNat : ℚ) / (toInt (rtfTaskGetMinDeclared t) : ℚ) := hu
  have hbooked : rtfTaskGetUtil t = (t.params.runtime.toNat : ℚ) / ((rtfTaskGetMinDeclared t).toNat : ℚ) ↔
      toInt (rtfTaskGetMinDeclared t) = (rtfTaskGetMinDeclared t).toNat := by
    rw [hutil_eq, div_eq_div_iff hz hm0.ne', mul_right_inj' hrun]
    constructor
    · intro he
      exact_mod_cast he.symm
    · intro he
      exact_mod_cast he.symm
  rw [hgrant, granted_fields]
  constructor
  · rintro ⟨-, -, hbk, hfree⟩
    refine ⟨hbooked.mp hbk, ?_⟩
    rw [hbk] at hfree
    exact (fits_left_iff hm0 _ _).mp hfree
  · rintro ⟨hint, hleft⟩
    have hbk := hbooked.mpr hint
    refine ⟨le_rfl, le_max_left _ _, hbk, ?_⟩
    rw [hbk]
    exact (fits_left_iff hm0 _ _).mpr hleft

/-- The desired runtime fits on some core: it is granted, and the utilisation
of the runtime is booked. -/
theorem granted_desired (hutil : rtfTaskGetUtil t ≠ -1) (hdes : rtfTaskGetDesUtil t ≠ -1)
    (hfits : Fits this (rtfTaskGetDesUtil t)) :
    Granted this t (EDF.granted this t) ↔
      t.params.runtime ≤ t.params.desRuntime ∧
        t.params.runtime.toNat * (rtfTaskGetMinDeclared t).toNat =
          t.params.desRuntime.toNat * toInt (rtfTaskGetMinDeclared t) ∧
        t.params.desRuntime.toNat ≤ leftOver this t t.cpu := by
  obtain ⟨hmin, -, hu⟩ := utilOf_ne hutil
  have hgrant : EDF.granted this t =
      { t with acceptedt := rtfTaskGetDesRuntime t, acceptedu := rtfTaskGetUtil t } := by
    unfold EDF.granted
    rw [if_neg hdes, if_pos hfits]
  have hm0 : (0 : ℚ) < ((rtfTaskGetMinDeclared t).toNat : ℚ) := minDeclared_pos hmin
  have hz : (toInt (rtfTaskGetMinDeclared t) : ℚ) ≠ 0 := by exact_mod_cast hmin
  have hutil_eq : rtfTaskGetUtil t = (t.params.runtime.toNat : ℚ) / (toInt (rtfTaskGetMinDeclared t) : ℚ) := hu
  have hbooked : rtfTaskGetUtil t = (t.params.desRuntime.toNat : ℚ) / ((rtfTaskGetMinDeclared t).toNat : ℚ) ↔
      t.params.runtime.toNat * (rtfTaskGetMinDeclared t).toNat =
        t.params.desRuntime.toNat * toInt (rtfTaskGetMinDeclared t) := by
    rw [hutil_eq, div_eq_div_iff hz hm0.ne']
    exact_mod_cast Iff.rfl
  rw [hgrant, granted_fields]
  constructor
  · rintro ⟨hleast, -, hbk, hfree⟩
    refine ⟨UInt64.le_iff_toNat_le.mpr hleast, hbooked.mp hbk, ?_⟩
    rw [hbk] at hfree
    exact (fits_left_iff hm0 _ _).mp hfree
  · rintro ⟨hle, hratio, hleft⟩
    have hbk := hbooked.mpr hratio
    refine ⟨UInt64.le_iff_toNat_le.mp hle, le_max_right _ _, hbk, ?_⟩
    rw [hbk]
    exact (fits_left_iff hm0 _ _).mpr hleft

/-- The desired runtime fits nowhere: what is left of the core is granted. -/
theorem granted_left (hutil : rtfTaskGetUtil t ≠ -1) (hdes : rtfTaskGetDesUtil t ≠ -1)
    (hfits : ¬ Fits this (rtfTaskGetDesUtil t)) (h0 : 0 ≤ this.utilFreePercpu t.cpu)
    (h1 : this.utilFreePercpu t.cpu ≤ 1) :
    Granted this t (EDF.granted this t) ↔
      t.params.runtime.toNat ≤ leftOver this t t.cpu ∧
        ⌊leftOver this t t.cpu⌋ ≤ max t.params.runtime.toNat t.params.desRuntime.toNat := by
  obtain ⟨hmin, -, -⟩ := utilOf_ne hutil
  have hgrant : EDF.granted this t =
      { t with acceptedt := toU64 (leftOver this t t.cpu)
               acceptedu := (toU64 (leftOver this t t.cpu)).toNat / (rtfTaskGetMinDeclared t).toNat } := by
    unfold EDF.granted
    rw [if_neg hdes, if_neg hfits]
    rfl
  have hm : rtfTaskGetMinDeclared t ≠ 0 := by
    intro he
    rw [he] at hmin
    exact hmin toInt_zero
  have hcut : ((toU64 (leftOver this t t.cpu)).toNat : ℤ) = ⌊leftOver this t t.cpu⌋ :=
    leftover_toNat (mul_nonneg h0 (Nat.cast_nonneg _)) h1
  have hfree : ((toU64 (leftOver this t t.cpu)).toNat : ℚ) / ((rtfTaskGetMinDeclared t).toNat : ℚ) ≤
      this.utilFreePercpu t.cpu := (leftover_le h0 h1 hm).2
  have hleast : t.params.runtime.toNat ≤ (toU64 (leftOver this t t.cpu)).toNat ↔
      t.params.runtime.toNat ≤ leftOver this t t.cpu := by
    have hfl : ((t.params.runtime.toNat : ℤ) ≤ ⌊leftOver this t t.cpu⌋) ↔
        ((t.params.runtime.toNat : ℤ) : ℚ) ≤ leftOver this t t.cpu := Int.le_floor
    rw [← hcut] at hfl
    exact_mod_cast hfl
  rw [hgrant, granted_fields]
  constructor
  · rintro ⟨hl, hmost, -, -⟩
    refine ⟨hleast.mp hl, ?_⟩
    rw [← hcut]
    exact_mod_cast hmost
  · rintro ⟨hl, hmost⟩
    rw [← hcut] at hmost
    exact ⟨hleast.mpr hl, by exact_mod_cast hmost, rfl, hfree⟩

/-- The three branches together. -/
theorem granted_iff (hutil : rtfTaskGetUtil t ≠ -1) (h0 : 0 ≤ this.utilFreePercpu t.cpu)
    (h1 : this.utilFreePercpu t.cpu ≤ 1) : Granted this t (EDF.granted this t) ↔ GrantsSoundly this t t.cpu := by
  unfold GrantsSoundly
  by_cases hdes : rtfTaskGetDesUtil t = -1
  · rw [if_pos hdes]
    exact granted_plain hutil hdes
  · rw [if_neg hdes]
    by_cases hfits : Fits this (rtfTaskGetDesUtil t)
    · rw [if_pos hfits]
      exact granted_desired hutil hdes hfits
    · rw [if_neg hfits]
      exact granted_left hutil hdes hfits h0 h1

theorem EDF.granted_cpu : (EDF.granted this t).cpu = t.cpu := by
  unfold EDF.granted
  split_ifs <;> rfl

end Branches

/-! ### The schedule -/

/-- What a grant is measured against is declared. -/
theorem minDeclared_congr {t₁ t₂ : Task} (h : t₁.params = t₂.params) :
    rtfTaskGetMinDeclared t₁ = rtfTaskGetMinDeclared t₂ := by
  unfold rtfTaskGetMinDeclared
  rw [h]

theorem desUtil_congr {t₁ t₂ : Task} (h : t₁.params = t₂.params) : rtfTaskGetDesUtil t₁ = rtfTaskGetDesUtil t₂ := by
  unfold rtfTaskGetDesUtil utilOf
  rw [minDeclared_congr h, h]

theorem Granted.congr {this : Plugin} {t₁ t₂ t' : Task} (h : t₁.params = t₂.params) (hg : Granted this t₁ t') :
    Granted this t₂ t' := by
  obtain ⟨h1, h2, h3, h4⟩ := hg
  rw [h] at h1 h2
  rw [minDeclared_congr h] at h3
  exact ⟨h1, h2, h3, h4⟩

theorem grantsSoundly_congr {this : Plugin} {t₁ t₂ : Task} {c : ℕ} (h : t₁.params = t₂.params) :
    GrantsSoundly this t₁ c ↔ GrantsSoundly this t₂ c := by
  unfold GrantsSoundly leftOver
  rw [desUtil_congr h, minDeclared_congr h, h]

section Schedule

variable {w : World} {i : ℕ} {a : Addr}

/-- With an entry for the core, what is granted is scheduled. -/
theorem EDF.schedule_returns {c : ℕ} {t : Task} (hc : EDF.leastLoadedCpu (w.plugin i) = .ok c)
    (ht : EDF.grant (w.plugin i) { w.heap a with cpu := c, pluginid := (w.plugin i).id } = .ok t)
    (hin : (w.plugin i).InTable t.cpu) : ∃ w', EDF.rtfPlgTaskSchedule w i a = .ok w' ∧ w'.heap a = t := by
  have hreturns : ∃ w', EDF.rtfPlgTaskSchedule w i a = .ok w' := by
    refine bind_returns ⟨c, hc⟩ fun c' hc' => ?_
    obtain rfl := Except.ok.inj (hc.symm.trans hc')
    refine bind_returns ⟨t, ht⟩ fun t' ht' => ?_
    obtain rfl := Except.ok.inj (ht.symm.trans ht')
    refine bind_returns (addUtil_returns hin _) fun p hp => ?_
    obtain ⟨-, rfl⟩ := addUtil_ok hp
    exact bind_returns (addCount_returns (by exact hin) _) fun _ _ => ⟨_, rfl⟩
  obtain ⟨w', hw'⟩ := hreturns
  refine ⟨w', hw', ?_⟩
  obtain ⟨c', hc', h⟩ := bind_ok.mp hw'
  obtain rfl := Except.ok.inj (hc.symm.trans hc')
  obtain ⟨t', ht', h⟩ := bind_ok.mp h
  obtain rfl := Except.ok.inj (ht.symm.trans ht')
  obtain ⟨p, -, h⟩ := bind_ok.mp h
  obtain ⟨p', -, h⟩ := bind_ok.mp h
  rw [← Except.ok.inj h]
  simp [World.setPlugin, World.setTask]

/-- **What EDF grants**, after it has accepted the task: sound exactly when the
branch it takes is. -/
theorem edf_grants_iff {r : Res} (htab : ∀ c ∈ (w.plugin i).cpulist, (w.plugin i).InTable c)
    (hfree : ∀ c ∈ (w.plugin i).cpulist, 0 ≤ (w.plugin i).utilFreePercpu c ∧ (w.plugin i).utilFreePercpu c ≤ 1)
    (hacc : EDF.rtfPlgTaskAccept (w.plugin i) (w.heap a) = .ok r) (hr : r ≠ .no) :
    ∃ c w', EDF.leastLoadedCpu (w.plugin i) = .ok c ∧ EDF.rtfPlgTaskSchedule w i a = .ok w' ∧
      (Granted (w.plugin i) (w.heap a) (w'.heap a) ↔ GrantsSoundly (w.plugin i) (w.heap a) c) := by
  have hne := EDF.accept_cpulist hacc hr
  obtain ⟨hutil, -⟩ := EDF.accept_ne_no hacc hr
  obtain ⟨c, hc⟩ : ∃ c, EDF.leastLoadedCpu (w.plugin i) = .ok c := leastLoaded_returns hne htab
  obtain ⟨hmem, hin⟩ := leastLoaded_mem hc
  -- the grant looks at the parameters only, and at the core just chosen
  obtain ⟨t, ht⟩ : ∃ t : Task, { w.heap a with cpu := c, pluginid := (w.plugin i).id } = t := ⟨_, rfl⟩
  have hcpu : t.cpu = c := by rw [← ht]
  have hparams : t.params = (w.heap a).params := by rw [← ht]
  have hutil' : rtfTaskGetUtil t ≠ -1 := by rwa [← ht]
  have hgrant : EDF.grant (w.plugin i) t = .ok (EDF.granted (w.plugin i) t) :=
    EDF.grant_returns hne htab (by rwa [hcpu])
  have hiff : Granted (w.plugin i) t (EDF.granted (w.plugin i) t) ↔ GrantsSoundly (w.plugin i) t t.cpu :=
    granted_iff hutil' (by rw [hcpu]; exact (hfree c hmem).1) (by rw [hcpu]; exact (hfree c hmem).2)
  obtain ⟨w', hw', hheap⟩ : ∃ w', EDF.rtfPlgTaskSchedule w i a = .ok w' ∧ w'.heap a = EDF.granted (w.plugin i) t :=
    EDF.schedule_returns hc (by rw [ht, hgrant]) (by rw [EDF.granted_cpu, hcpu]; exact hin)
  refine ⟨c, w', hc, hw', ?_⟩
  rw [hheap, ← grantsSoundly_congr hparams, ← hcpu, ← hiff]
  exact ⟨fun hg => hg.congr hparams.symm, fun hg => hg.congr hparams⟩

end Schedule

namespace GrantsExample

/-- EDF on one core, all free. -/
def plugin : Plugin := initPlugin (fun _ => none) 0 ⟨[], [], 0, 0, [0]⟩ ⟨.edf, 0⟩

/-- A world with that plugin alone, and the task `t`. -/
def world (t : Task) : World := ⟨fun _ => plugin, fun _ => ⟨fun _ => 0, fun _ _ => 0⟩, fun _ => t, BooksExample.kernel⟩

/-- 10 of 100, and `desired` if there is room. -/
def task (desired : UInt64) : Task :=
  { Task.zero with params := { Params.zero with runtime := 10, desRuntime := desired, period := 100 } }

end GrantsExample

open GrantsExample

/-- Without a desired runtime. -/
theorem edf_grants_plain : ∃ c w', EDF.leastLoadedCpu ((world (task 0)).plugin 0) = .ok c ∧
    EDF.rtfPlgTaskSchedule (world (task 0)) 0 0 = .ok w' ∧
      (Granted ((world (task 0)).plugin 0) ((world (task 0)).heap 0) (w'.heap 0) ↔
        GrantsSoundly ((world (task 0)).plugin 0) ((world (task 0)).heap 0) c) :=
  edf_grants_iff (by decide) (by decide +kernel)
    (show EDF.rtfPlgTaskAccept plugin (task 0) = .ok .ok by decide +kernel) (by decide)

/-- 20 of 100 are granted, and the utilisation of 10 of 100 is booked. -/
theorem not_edf_grants : ¬ ∀ (w : World) (i : ℕ) (a : Addr) (r : Res),
    (∀ c ∈ (w.plugin i).cpulist, (w.plugin i).InTable c) →
      (∀ c ∈ (w.plugin i).cpulist, 0 ≤ (w.plugin i).utilFreePercpu c ∧ (w.plugin i).utilFreePercpu c ≤ 1) →
        EDF.rtfPlgTaskAccept (w.plugin i) (w.heap a) = .ok r → r ≠ .no →
          ∃ w', EDF.rtfPlgTaskSchedule w i a = .ok w' ∧ Granted (w.plugin i) (w.heap a) (w'.heap a) := by
  intro h
  obtain ⟨w', hw', hG⟩ := h (world (task 20)) 0 0 .ok (by decide) (by decide +kernel)
    (show EDF.rtfPlgTaskAccept plugin (task 20) = .ok .ok by decide +kernel) (by decide)
  have hend : (EDF.rtfPlgTaskSchedule (world (task 20)) 0 0).toOption.map
      (fun w => ((w.heap 0).acceptedt, (w.heap 0).acceptedu)) = some (20, 1 / 10) := by decide +kernel
  rw [hw'] at hend
  obtain ⟨ht, hu⟩ := Prod.mk.inj (Option.some.inj hend)
  have hbooked := hG.booked
  rw [ht, hu] at hbooked
  exact absurd hbooked (by decide +kernel)

end Retif
