/-
# Admission control

EDF and RM accept a task when some core has its utilisation free, and then put
it on the core `least_loaded_cpu` names. That is the last core with more free
than the first (`leastLoaded_eq`), which need not have the most. Where it has
(`LastIsMost`), where the minimum of period and deadline keeps its sign in an
`int`, and where EDF is not asked for less than the runtime, no core is given
away twice: its free utilisation stays between 0 and 1.

Key definitions: `pick`, `LastIsMost`, `Fair`, `Admits`.
Key theorems: `schedule_fits`, `admission_run`, `not_admission_run`.
-/
import Retif.Books

namespace Retif

/-- The last core with more free than the first, or the first. -/
def pick (this : Plugin) : Option ℕ :=
  match this.cpulist with
  | [] => none
  | c :: cs => some ((cs.filter fun d => decide (this.utilFreePercpu d > this.utilFreePercpu c)).getLastD c)

/-- No core has more free than the last one with more than the first. -/
def LastIsMost (this : Plugin) : Prop :=
  ∀ c ∈ pick this, ∀ d ∈ this.cpulist, this.utilFreePercpu d ≤ this.utilFreePercpu c

/-- What the admission test says of a task holds where the task is put. -/
structure Fair (this : Plugin) (t : Task) : Prop where
  /-- the minimum of period and deadline is not negative as an `int` -/
  sign : t.params.runtime = 0 ∨ 0 ≤ toInt (rtfTaskGetMinDeclared t)
  /-- the desired runtime, which EDF tests alone, is not below the runtime -/
  desired : this.kind = .edf → t.params.desRuntime = 0 ∨ t.params.runtime ≤ t.params.desRuntime
  most : LastIsMost this

instance (this : Plugin) : Decidable (LastIsMost this) := by unfold LastIsMost; infer_instance

instance (this : Plugin) (t : Task) : Decidable (Fair this t) :=
  decidable_of_iff ((t.params.runtime = 0 ∨ 0 ≤ toInt (rtfTaskGetMinDeclared t)) ∧
      (this.kind = .edf → t.params.desRuntime = 0 ∨ t.params.runtime ≤ t.params.desRuntime) ∧ LastIsMost this)
    ⟨fun h => ⟨h.1, h.2.1, h.2.2⟩, fun h => ⟨h.sign, h.desired, h.most⟩⟩

/-- What `mostFree` picks has the most, where `LastIsMost` says so. -/
theorem mostFree_fits {this : Plugin} {c : ℕ} {u : ℚ} (hc : mostFree this = .ok c) (hm : LastIsMost this)
    (hf : Fits this u) : u ≤ this.utilFreePercpu c := by
  obtain ⟨c₀, cs, hl, hc, -⟩ := leastLoaded_eq hc
  obtain ⟨d, hd, hu⟩ := hf
  have hp : pick this = some c := by
    unfold pick
    rw [hl, hc]
  exact hu.trans (hm c (by rw [hp]; rfl) d hd)

/-! ### Utilisations -/

/-- Without a sign lost in the narrowing, a utilisation is positive or absent. -/
theorem utilOf_pos {budget : UInt64} {t : Task} (h : budget = 0 ∨ 0 ≤ toInt (rtfTaskGetMinDeclared t)) :
    utilOf budget t = -1 ∨ 0 < utilOf budget t := by
  unfold utilOf
  split
  · exact .inl rfl
  · rename_i hn
    right
    push Not at hn
    obtain ⟨hmin, hb⟩ := hn
    have h0 : 0 ≤ toInt (rtfTaskGetMinDeclared t) := by
      rcases h with h | h
      · exact absurd h hb
      · exact h
    have h1 : (0 : ℚ) < (toInt (rtfTaskGetMinDeclared t) : ℚ) := by
      exact_mod_cast lt_of_le_of_ne h0 (Ne.symm hmin)
    have h2 : (0 : ℚ) < (budget.toNat : ℚ) := by
      have : budget.toNat ≠ 0 := fun he => hb (UInt64.toNat_inj.mp he)
      exact_mod_cast Nat.pos_of_ne_zero this
    exact div_pos h2 h1

theorem utilOf_ne {budget : UInt64} {t : Task} (h : utilOf budget t ≠ -1) :
    toInt (rtfTaskGetMinDeclared t) ≠ 0 ∧ budget ≠ 0 ∧
      utilOf budget t = (budget.toNat : ℚ) / (toInt (rtfTaskGetMinDeclared t) : ℚ) := by
  unfold utilOf at h ⊢
  split at h
  · exact absurd rfl h
  · rename_i hn
    rw [if_neg hn]
    push Not at hn
    exact ⟨hn.1, hn.2, rfl⟩

/-- More budget, more utilisation. -/
theorem utilOf_mono {b b' : UInt64} {t : Task} (h0 : 0 ≤ toInt (rtfTaskGetMinDeclared t)) (hb : b ≤ b')
    (h : utilOf b t ≠ -1) (h' : utilOf b' t ≠ -1) : utilOf b t ≤ utilOf b' t := by
  rw [(utilOf_ne h).2.2, (utilOf_ne h').2.2]
  have h1 : (0 : ℚ) ≤ (toInt (rtfTaskGetMinDeclared t) : ℚ) := by exact_mod_cast h0
  have h2 : (b.toNat : ℚ) ≤ (b'.toNat : ℚ) := by exact_mod_cast UInt64.le_iff_toNat_le.mp hb
  exact div_le_div_of_nonneg_right h2 h1

theorem toInt_zero : toInt 0 = 0 := by decide

/-- What is left of a core, cut off to whole microseconds: it fits in 64 bits. -/
theorem leftover_toNat {free : ℚ} {m : UInt64} (h0 : 0 ≤ free * m.toNat) (h1 : free ≤ 1) :
    ((toU64 (free * m.toNat)).toNat : ℤ) = ⌊free * (m.toNat : ℚ)⌋ := by
  have hfl : (⌊free * (m.toNat : ℚ)⌋ : ℚ) ≤ ((m.toNat : ℤ) : ℚ) := by
    calc (⌊free * (m.toNat : ℚ)⌋ : ℚ) ≤ free * m.toNat := Int.floor_le _
      _ ≤ 1 * m.toNat := mul_le_mul_of_nonneg_right h1 (Nat.cast_nonneg _)
      _ = ((m.toNat : ℤ) : ℚ) := by simp
  have hle : ⌊free * (m.toNat : ℚ)⌋ ≤ m.toNat := Int.cast_le.mp hfl
  have hlt := m.toNat_lt
  exact toU64_toNat h0 (by omega)

/-- It is at most what is left. -/
theorem leftover_le {free : ℚ} {m : UInt64} (h0 : 0 ≤ free) (h1 : free ≤ 1) (hm : m ≠ 0) :
    0 ≤ ((toU64 (free * m.toNat)).toNat : ℚ) / (m.toNat : ℚ) ∧
      ((toU64 (free * m.toNat)).toNat : ℚ) / (m.toNat : ℚ) ≤ free := by
  have hmpos : (0 : ℚ) < (m.toNat : ℚ) := by
    have : m.toNat ≠ 0 := fun he => hm (UInt64.toNat_inj.mp he)
    exact_mod_cast Nat.pos_of_ne_zero this
  have hq0 : 0 ≤ free * m.toNat := mul_nonneg h0 hmpos.le
  have hcast : ((toU64 (free * m.toNat)).toNat : ℚ) = (⌊free * (m.toNat : ℚ)⌋ : ℚ) := by
    exact_mod_cast leftover_toNat hq0 h1
  refine ⟨div_nonneg (Nat.cast_nonneg _) hmpos.le, ?_⟩
  rw [div_le_iff₀ hmpos, hcast]
  exact Int.floor_le _

/-! ### One placement -/

section Placement

variable {w w' : World} {i : ℕ} {a : Addr} {r : Res}

/-- What EDF accepts has a utilisation, and the one it tests fits somewhere. -/
theorem EDF.accept_ne_no {this : Plugin} {t : Task} (hacc : EDF.rtfPlgTaskAccept this t = .ok r) (hr : r ≠ .no) :
    rtfTaskGetUtil t ≠ -1 ∧ (rtfTaskGetDesUtil t = -1 → Fits this (rtfTaskGetUtil t)) := by
  unfold EDF.rtfPlgTaskAccept at hacc
  split at hacc
  · cases hacc
    exact absurd rfl hr
  split at hacc
  · cases hacc
    exact absurd rfl hr
  split at hacc
  · cases hacc
    exact absurd rfl hr
  rename_i hne
  obtain ⟨r', hadm, hacc⟩ := bind_ok.mp hacc
  cases hacc
  rw [ne_eq, demote_no] at hr
  refine ⟨hne, fun hdes => ?_⟩
  unfold EDF.admission at hadm
  rw [if_pos hdes] at hadm
  rw [utilizationTest_ok hadm] at hr
  by_contra hn
  exact hr (if_neg hn)

/-- EDF grants the utilisation of the runtime, or what is left of the core. -/
theorem EDF.grant_cases {this : Plugin} {t t' : Task} (h : EDF.grant this t = .ok t') :
    (t'.acceptedu = rtfTaskGetUtil t ∧ (rtfTaskGetDesUtil t = -1 ∨ Fits this (rtfTaskGetDesUtil t))) ∨
      t'.acceptedu = ((toU64 (this.utilFreePercpu t.cpu * (rtfTaskGetMinDeclared t).toNat)).toNat : ℚ) /
        ((rtfTaskGetMinDeclared t).toNat : ℚ) := by
  unfold EDF.grant at h
  split at h
  · rename_i hdes
    cases h
    exact .inl ⟨by dsimp only, .inl hdes⟩
  · obtain ⟨res, hres, h⟩ := bind_ok.mp h
    split at h
    · rename_i hok
      cases h
      refine .inl ⟨by dsimp only, .inr ?_⟩
      have hres' := desiredUtilizationTest_ok hres
      rw [hok] at hres'
      by_contra hn
      rw [if_neg hn] at hres'
      split at hres' <;> cases hres'
    · obtain ⟨free, hfree, h⟩ := bind_ok.mp h
      obtain ⟨-, rfl⟩ := read_ok.mp hfree
      cases h
      exact .inr (by dsimp only)

/-- EDF grants a task it accepted no more than the core picked has free. -/
theorem EDF.schedule_fits (hk : (w.plugin i).kind = .edf) (hu : ∀ c, 0 ≤ (w.plugin i).utilFreePercpu c)
    (hu1 : ∀ c, (w.plugin i).utilFreePercpu c ≤ 1)
    (hacc : EDF.rtfPlgTaskAccept (w.plugin i) (w.heap a) = .ok r) (hr : r ≠ .no)
    (hfair : Fair (w.plugin i) (w.heap a)) (h : EDF.rtfPlgTaskSchedule w i a = .ok w') :
    0 ≤ (w'.heap a).acceptedu ∧ (w'.heap a).acceptedu ≤ (w.plugin i).utilFreePercpu (w'.heap a).cpu := by
  obtain ⟨c, t, hc, -, hcpu, ht, rfl⟩ := EDF.schedule_ok h
  simp only [World.setPlugin, World.setTask, Function.update_self, hcpu]
  obtain ⟨hne, hfits⟩ := EDF.accept_ne_no hacc hr
  obtain ⟨hmin, hb, -⟩ := utilOf_ne hne
  have hsign : 0 ≤ toInt (rtfTaskGetMinDeclared (w.heap a)) := hfair.sign.resolve_left hb
  have hpos : 0 < rtfTaskGetUtil (w.heap a) := (utilOf_pos (.inr hsign)).resolve_left hne
  rcases EDF.grant_cases ht with ⟨hgr, hdes | hdes⟩ | hgr
  · -- no desired runtime: the test was on the runtime
    rw [hgr]
    exact ⟨hpos.le, mostFree_fits hc hfair.most (hfits hdes)⟩
  · -- the desired runtime fits, and is not below the runtime
    rw [hgr]
    by_cases hdn : rtfTaskGetDesUtil (w.heap a) = -1
    · exact ⟨hpos.le, mostFree_fits hc hfair.most (hfits hdn)⟩
    · obtain ⟨-, hdb, -⟩ := utilOf_ne hdn
      have hle : rtfTaskGetUtil (w.heap a) ≤ rtfTaskGetDesUtil (w.heap a) :=
        utilOf_mono hsign ((hfair.desired hk).resolve_left hdb) hne hdn
      exact ⟨hpos.le, hle.trans (mostFree_fits hc hfair.most hdes)⟩
  · -- the task is given what is left
    rw [hgr]
    have hm : rtfTaskGetMinDeclared (w.heap a) ≠ 0 := by
      intro h0
      rw [h0] at hmin
      exact hmin toInt_zero
    exact leftover_le (hu c) (hu1 c) hm

/-- RM grants a task it accepted no more than the core picked has free. -/
theorem RM.schedule_fits (hu : ∀ c, 0 ≤ (w.plugin i).utilFreePercpu c)
    (hign : (w.heap a).params.ignoreAdmission = 0)
    (hacc : RM.rtfPlgTaskAccept (w.plugin i) (w.heap a) = .ok r) (hr : r ≠ .no)
    (hfair : Fair (w.plugin i) (w.heap a)) (h : RM.rtfPlgTaskSchedule w i a = .ok w') :
    0 ≤ (w'.heap a).acceptedu ∧ (w'.heap a).acceptedu ≤ (w.plugin i).utilFreePercpu (w'.heap a).cpu := by
  obtain ⟨c, st, heap, u, hc, -, hcpu, hgranted, rfl⟩ := RM.schedule_ok h
  simp only [World.setPlugin, World.setTask, World.setStatics, Function.update_self, hcpu, hgranted]
  unfold RM.rtfPlgTaskAccept at hacc
  split at hacc
  · cases hacc; exact absurd rfl hr
  split at hacc
  · rename_i hig
    exact absurd hign hig
  obtain ⟨r', htest, hacc⟩ := bind_ok.mp hacc
  cases hacc
  rw [ne_eq, demote_no, utilizationTest_ok htest] at hr
  have hfits : Fits (w.plugin i) (rtfTaskGetUtil (w.heap a)) := by
    by_contra hn
    exact hr (if_neg hn)
  by_cases hne : rtfTaskGetUtil (w.heap a) = -1
  · rw [if_neg (not_not.mpr hne)]
    exact ⟨le_rfl, hu c⟩
  · rw [if_pos hne]
    have hpos : 0 < rtfTaskGetUtil (w.heap a) := (utilOf_pos hfair.sign).resolve_left hne
    exact ⟨hpos.le, mostFree_fits hc hfair.most hfits⟩

/-- **Test and placement agree**: a task that is accepted is granted no more
than its core has free. -/
theorem schedule_fits (hk : (w.plugin i).kind.keepsUtil) (hu : ∀ c, 0 ≤ (w.plugin i).utilFreePercpu c)
    (hu1 : ∀ c, (w.plugin i).utilFreePercpu c ≤ 1) (hign : (w.heap a).params.ignoreAdmission = 0)
    (hacc : rtfPlgTaskAccept (w.plugin i) (w.heap a) = .ok r) (hr : r ≠ .no)
    (hfair : Fair (w.plugin i) (w.heap a)) (h : rtfPlgTaskSchedule w i a = .ok w') :
    0 ≤ (w'.heap a).acceptedu ∧ (w'.heap a).acceptedu ≤ (w.plugin i).utilFreePercpu (w'.heap a).cpu := by
  unfold rtfPlgTaskAccept at hacc
  unfold rtfPlgTaskSchedule at h
  rcases hkind : (w.plugin i).kind with _ | _ | _ | _
  · rw [hkind] at hacc h
    exact EDF.schedule_fits hkind hu hu1 hacc hr hfair h
  · rw [hkind] at hacc h
    exact RM.schedule_fits hu hign hacc hr hfair h
  · rw [hkind] at hk; cases hk
  · rw [hkind] at hk; cases hk

end Placement

/-! ### Runs -/

/-- No core is overdrawn, and no task was granted less than nothing. -/
structure Covered (s : Sched) : Prop where
  free : ∀ i < s.numOfPlugins, (s.plugin i).kind.keepsUtil → ∀ c, 0 ≤ (s.plugin i).utilFreePercpu c
  grants : ∀ a ∈ s.taskset.root, ∀ i < s.numOfPlugins, (s.plugin i).kind.keepsUtil → (s.heap a).pluginid = i →
    0 ≤ (s.heap a).acceptedu

/-- A create, a destroy or a disconnection, and no way around the admission test. -/
def PlainOp : Op → Prop
  | .create tp _ => tp.ignoreAdmission = 0
  | .change _ _ => False
  | _ => True

instance (o : Op) : Decidable (PlainOp o) :=
  match o with
  | .create tp _ => inferInstanceAs (Decidable (tp.ignoreAdmission = 0))
  | .change _ _ => inferInstanceAs (Decidable False)
  | .attach _ _ | .detach _ | .destroy _ | .delete _ => inferInstanceAs (Decidable True)

/-- Whichever EDF or RM plugin takes a new task is fair to it. -/
def FairCreate (s : Sched) : Op → Prop
  | .create tp ppid => ∀ c ∈ assignee (s.alloc tp ppid) s.next, (s.plugin c.1).kind.keepsUtil →
      Fair (s.plugin c.1) (newTask s.nextId ppid tp)
  | _ => True

instance (s : Sched) (o : Op) : Decidable (FairCreate s o) :=
  match o with
  | .create tp ppid =>
    inferInstanceAs (Decidable (∀ c ∈ assignee (s.alloc tp ppid) s.next, (s.plugin c.1).kind.keepsUtil →
      Fair (s.plugin c.1) (newTask s.nextId ppid tp)))
  | .change _ _ | .attach _ _ | .detach _ | .destroy _ | .delete _ => inferInstanceAs (Decidable True)

def Admits (s : Sched) (o : Op) : Prop := PlainOp o ∧ FairCreate s o

instance (s : Sched) (o : Op) : Decidable (Admits s o) := inferInstanceAs (Decidable (_ ∧ _))

theorem granted_nonneg {h : Heap} {ts : List Addr} (hs : ∀ b ∈ ts, 0 ≤ (h b).acceptedu) : 0 ≤ granted h ts := by
  unfold granted
  refine List.sum_nonneg ?_
  intro u hu
  obtain ⟨b, hb, rfl⟩ := List.mem_map.mp hu
  exact hs b hb

/-- What is free is at most everything. -/
theorem free_le_one {s : Sched} (hT : Tallied s) (hC : Covered s) {i : ℕ} (hi : i < s.numOfPlugins)
    (hk : (s.plugin i).kind.keepsUtil) (c : ℕ) : (s.plugin i).utilFreePercpu c ≤ 1 := by
  rw [hT.tallies.util i hi hk c]
  have := @granted_nonneg s.heap (placed s.heap s.taskset.root i c) fun b hb =>
    hC.grants b (mem_placed.mp hb).1 i hi hk (mem_placed.mp hb).2.1
  linarith

theorem covered_create {s s' : Sched} {tp : Params} {ppid : Pid} {r : Res} (hT : Tallied s) (hC : Covered s)
    (hg : Admits s (.create tp ppid)) (h : rtfSchedulerTaskCreate s tp ppid = .ok (r, s')) : Covered s' := by
  have hold : ∀ b ∈ s.taskset.root, (s.alloc tp ppid).heap b = s.heap b := fun b hb => hT.sane.alloc_heap tp ppid hb
  rcases create_ok h with ⟨-, rfl⟩ | ⟨i, w, hch, hs, rfl⟩
  · refine ⟨hC.free, ?_⟩
    intro b hb j hj hk hp
    rw [hold b hb] at hp ⊢
    exact hC.grants b hb j hj hk hp
  · obtain ⟨hi, hacc, hr⟩ := assignee_some hch
    obtain ⟨c, hP⟩ := schedule_placed hs
    have hcpu : (w.heap s.next).cpu = c := by rw [hP.task]
    have hself := s.alloc_self tp ppid
    have hfits : (s.plugin i).kind.keepsUtil →
        0 ≤ (w.heap s.next).acceptedu ∧ (w.heap s.next).acceptedu ≤ (s.plugin i).utilFreePercpu c := by
      intro hk
      have hfair := hg.2 (i, r) hch hk
      have := schedule_fits (w := (s.alloc tp ppid).toWorld) hk (hC.free i hi hk) (free_le_one hT hC hi hk)
        (by rw [hself]; exact hg.1) hacc hr (by rw [hself]; exact hfair) hs
      rwa [hcpu] at this
    refine ⟨?_, ?_⟩
    · intro j hj hk d
      change (w.plugin j).kind.keepsUtil at hk
      show 0 ≤ (w.plugin j).utilFreePercpu d
      rw [hP.info_eq] at hk
      by_cases hji : j = i
      · subst hji
        have hk' : (s.plugin j).kind.keepsUtil := hk
        rw [hP.util, if_pos hk]
        by_cases hd : d = c
        · subst hd
          rw [Function.update_self]
          exact sub_nonneg.mpr (hfits hk').2
        · rw [Function.update_of_ne hd]
          exact hC.free j hj hk d
      · rw [hP.others j hji]
        exact hC.free j hj hk d
    · intro b hb j hj hk hp
      change (w.plugin j).kind.keepsUtil at hk
      rw [hP.info_eq] at hk
      rcases List.mem_cons.mp hb with rfl | hb
      · have hji : j = i := by
          have : (w.heap s.next).pluginid = i := by
            rw [hP.task]
            exact hT.sane.ids i hi
          have hij : (j : ℤ) = i := hp.symm.trans this
          exact_mod_cast hij
        subst hji
        exact (hfits hk).1
      · have hne : b ≠ s.next := (hT.sane.fresh b hb).ne
        have hb' : (w.heap b).pluginid = (s.heap b).pluginid ∧ (w.heap b).acceptedu = (s.heap b).acceptedu := by
          rw [hP.rest b hne, hold b hb]
          exact ⟨rfl, rfl⟩
        show 0 ≤ (w.heap b).acceptedu
        rw [hb'.2]
        exact hC.grants b hb j hj hk (hb'.1.symm.trans hp)

theorem covered_removes {s s' : Sched} {key : Addr → Bool} {a : Addr} (hT : Tallied s) (hC : Covered s)
    (h : Removes key s a s') : Covered s' := by
  obtain ⟨-, hp, -⟩ := h.root
  have hmem : a ∈ s.taskset.root := hp.mem_iff.mpr (List.mem_cons_self ..)
  have hat := (List.nodup_cons.mp (hp.nodup_iff.mp hT.tallies.nodup)).1
  obtain ⟨ts, i, r, w, -, hown, hi, hr, rfl⟩ := h
  have hR := release_released hr
  refine ⟨?_, ?_⟩
  · intro j hj hk d
    change (w.plugin j).kind.keepsUtil at hk
    show 0 ≤ (w.plugin j).utilFreePercpu d
    rw [hR.info_eq] at hk
    by_cases hji : j = i
    · subst hji
      have hk' : (s.plugin j).kind.keepsUtil := hk
      rw [hR.util, if_pos hk]
      by_cases hd : d = (s.heap a).cpu
      · rw [hd, Function.update_self]
        exact add_nonneg (hC.free j hj hk _) (hC.grants a hmem j hj hk hown)
      · rw [Function.update_of_ne hd]
        exact hC.free j hj hk d
    · rw [hR.others j hji]
      exact hC.free j hj hk d
  · intro b hb j hj hk hpid
    change (w.plugin j).kind.keepsUtil at hk
    rw [hR.info_eq] at hk
    have hne : b ≠ a := fun hba => hat (hba ▸ hb)
    have hb' : w.heap b = s.heap b := hR.heap_ne hne
    change (w.heap b).pluginid = j at hpid
    show 0 ≤ (w.heap b).acceptedu
    rw [hb'] at hpid ⊢
    exact hC.grants b (hp.mem_iff.mpr (List.mem_cons_of_mem a hb)) j hj hk hpid

theorem covered_step {s s' : Sched} {o : Op} {r : Res} (hT : Tallied s) (hC : Covered s) (hg : Admits s o)
    (h : step s o = .ok (r, s')) : Covered s' := by
  have hboth : Tallied s' ∧ Covered s' := by
    refine step_inv (I := fun s => Tallied s ∧ Covered s) ?_ ?_ ?_ ?_ ⟨hT, hC⟩ h
    · rintro tp ppid rfl hcreate
      exact ⟨tallied_create hT hcreate, covered_create hT hC hg hcreate⟩
    · rintro tp id rfl _
      exact hg.1.elim
    · intro heap k hheap
      refine ⟨tallied_thread hT hheap, hC.free, ?_⟩
      intro b hb j hj hk hp
      change (heap b).pluginid = j at hp
      show 0 ≤ (heap b).acceptedu
      rw [hheap b] at hp ⊢
      exact hC.grants b hb j hj hk hp
    · intro key s a s' hI hrm
      exact ⟨tallied_removes hI.1 hrm, covered_removes hI.1 hI.2 hrm⟩
  exact hboth.2

theorem covered_start {alloc : ℕ → Option ℕ} {load : List UInt8 → Option Image} {confs : List ConfPlugin}
    {plgs : List Plugin} (h : rtfPluginsInit alloc load confs = some plgs) (k : Kernel) :
    Covered (Sched.start plgs k) := by
  refine ⟨?_, by simp [Sched.start]⟩
  intro i hi _ c
  obtain ⟨_, _, -, -, hp⟩ := start_plugin h k hi
  rw [hp]
  exact zero_le_one

/-- No EDF or RM plugin has given away more than a core has, or taken back more. -/
def WithinCapacity (s : Sched) : Prop :=
  ∀ i < s.numOfPlugins, (s.plugin i).kind.keepsUtil → ∀ c ∈ (s.plugin i).cpulist,
    0 ≤ (s.plugin i).utilFreePercpu c ∧ (s.plugin i).utilFreePercpu c ≤ 1

/-- A task that is accepted takes no more than the core it is put on has free. -/
def AcceptedFits (s : Sched) : Prop :=
  ∀ i < s.numOfPlugins, (s.plugin i).kind.keepsUtil → ∀ a r w, (s.heap a).params.ignoreAdmission = 0 →
    Fair (s.plugin i) (s.heap a) → rtfPlgTaskAccept (s.plugin i) (s.heap a) = .ok r → r ≠ .no →
      rtfPlgTaskSchedule s.toWorld i a = .ok w →
        (w.heap a).acceptedu ≤ (s.plugin i).utilFreePercpu (w.heap a).cpu

/-- **No over-commitment**, in every run whose creates are fair. -/
theorem admission_run {load : List UInt8 → Option Image} {confs : List ConfPlugin} {plgs : List Plugin}
    {k : Kernel} {s : Sched} (hinit : rtfPluginsInit asMaps load confs = some plgs)
    (hrun : Reach step Admits (Sched.start plgs k) s) : WithinCapacity s ∧ AcceptedFits s := by
  have hI : Tallied s ∧ Covered s := by
    refine hrun.inv (I := fun s => Tallied s ∧ Covered s) ⟨tallied_start hinit k, covered_start hinit k⟩ ?_
    intro s o r s' hI hg hs
    have hkeep : KeepsPlugin s o := by
      rcases o with _ | _ | _ | _ | _ | _
      · trivial
      · exact hg.1.elim
      all_goals trivial
    exact ⟨tallied_step hI.1 hkeep hs, covered_step hI.1 hI.2 hg hs⟩
  obtain ⟨hT, hC⟩ := hI
  refine ⟨?_, ?_⟩
  · intro i hi hk c _
    exact ⟨hC.free i hi hk c, free_le_one hT hC hi hk c⟩
  · intro i hi hk a r w hign hfair hacc hr hs
    exact (schedule_fits hk (hC.free i hi hk) (free_le_one hT hC hi hk) hign hacc hr hfair hs).2

/-! ### A core that is given away twice -/

namespace AdmissionExample

/-- RM alone, on cores 0, 1 and 2. -/
def confs : List ConfPlugin := [⟨"RM".toUTF8.toList, [2], 10, 20, [0, 1, 2]⟩]

def plgs : List Plugin := (rtfPluginsInit asMaps BooksExample.load confs).getD []

theorem init_plgs : rtfPluginsInit asMaps BooksExample.load confs = some plgs := rfl

def start : Sched := Sched.start plgs BooksExample.kernel

end AdmissionExample

open AdmissionExample BooksExample

theorem admission_twoCreates : ∃ s, runGood step Admits [.create (params 50) 1, .create (params 10) 1, .destroy 1]
    AdmissionExample.start = some s ∧ WithinCapacity s ∧ AcceptedFits s := by
  have hsome : (runGood step Admits [.create (params 50) 1, .create (params 10) 1, .destroy 1]
      AdmissionExample.start).isSome := by decide +kernel
  obtain ⟨s, hs⟩ := Option.isSome_iff_exists.mp hsome
  exact ⟨s, hs, admission_run AdmissionExample.init_plgs (reach_runGood hs)⟩

/-- Core 1 is empty, core 2 is not, and both have more free than core 0: a
task that needs a whole core is accepted for core 1 and put on core 2. -/
theorem not_admission_run : ¬ ∀ (load : List UInt8 → Option Image) (confs : List ConfPlugin) (plgs : List Plugin)
    (k : Kernel) (s : Sched), (∀ c ∈ confs, c.cores ≠ [] ∧ c.cores.Nodup) →
      rtfPluginsInit asMaps load confs = some plgs → Reach step (fun _ => PlainOp) (Sched.start plgs k) s →
        WithinCapacity s := by
  intro h
  have hend : (runGood step (fun _ => PlainOp)
      [.create (params 50) 1, .create (params 10) 1, .create (params 100) 1] AdmissionExample.start).map
      (fun s => ((s.plugin 0).utilFreePercpu 2, (s.plugin 0).cpulist, (s.plugin 0).kind, s.numOfPlugins)) =
        some (-1 / 10, [0, 1, 2], .rm, 1) := by decide +kernel
  obtain ⟨s, hs, hv⟩ := Option.map_eq_some_iff.mp hend
  simp only [Prod.mk.injEq] at hv
  obtain ⟨hfree, hcpus, hkind, hn⟩ := hv
  have hW := h load AdmissionExample.confs AdmissionExample.plgs kernel s (by decide) AdmissionExample.init_plgs
    (reach_runGood hs)
  have h0 := (hW 0 (by omega) (by rw [hkind]; rfl) 2 (by rw [hcpus]; decide)).1
  rw [hfree] at h0
  norm_num at h0

end Retif
