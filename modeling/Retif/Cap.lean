/-
# The configured maximum of a core

`sched_max_util` is the part of a core the tasks that declare a runtime may
use. The daemon checks that it lies between 0 and 1 and then does not look at
it: every EDF and RM plugin starts with all of each of its cores to give out
(a FIXME in `rtf_plugins_init`), also of a core another plugin gives out as
well. The sum on a core stays within the maximum in the runs in which a task
is only taken in where the books of all these plugins together leave room for
it (`FitsCap`).

Key definitions: `declared`, `Sched.demand`, `Sched.spent`, `Capped`, `FitsCap`.
Key theorems: `spent_eq`, `schedule_pays`, `capped_run`, `not_capped_run`.
-/
import Retif.Admission
import Retif.Config

namespace Retif

open CList

/-! ### Demand and books -/

/-- The declared utilisation: the runtime over the smaller of period and deadline. -/
def declared (t : Task) : ℚ := (t.params.runtime.toNat : ℚ) / ((rtfTaskGetMinDeclared t).toNat : ℚ)

/-- Task `a` is on core `c` of an EDF or RM plugin below `n`. -/
def Charges (n : ℕ) (w : World) (c : ℕ) (a : Addr) : Prop :=
  (w.heap a).cpu = c ∧ ∃ i < n, (w.heap a).pluginid = i ∧ (w.plugin i).kind.keepsUtil

instance (n : ℕ) (w : World) (c : ℕ) (a : Addr) : Decidable (Charges n w c a) := by
  unfold Charges; infer_instance

/-- The declared utilisations of the tasks `ts` on core `c` that EDF or RM holds and that declare a runtime. -/
def demandOf (n : ℕ) (w : World) (ts : List Addr) (c : ℕ) : ℚ :=
  (ts.map fun a => if Charges n w c a ∧ (w.heap a).params.runtime ≠ 0 then declared (w.heap a) else 0).sum

def Sched.demand (s : Sched) (c : ℕ) : ℚ := demandOf s.numOfPlugins s.toWorld s.taskset.root c

/-- What the EDF and RM plugins have granted on core `c`, by their books. -/
def Sched.spent (s : Sched) (c : ℕ) : ℚ :=
  Finset.sum (Finset.range s.numOfPlugins) fun i =>
    if (s.plugin i).kind.keepsUtil then 1 - (s.plugin i).utilFreePercpu c else 0

/-- No core has more declared utilisation than the configured maximum. -/
def Capped (schedMaxUtil : ℚ) (s : Sched) : Prop := ∀ c, s.demand c ≤ schedMaxUtil

/-- Every task of EDF or RM was granted what it declares, and no less than nothing. -/
def Paid (n : ℕ) (w : World) (ts : List Addr) : Prop :=
  ∀ a ∈ ts, ∀ i < n, (w.plugin i).kind.keepsUtil → (w.heap a).pluginid = i →
    0 ≤ (w.heap a).acceptedu ∧ ((w.heap a).params.runtime ≠ 0 → declared (w.heap a) ≤ (w.heap a).acceptedu)

/-! ### The books add up -/

theorem granted_placed_cons (h : Heap) (a : Addr) (ts : List Addr) (i c : ℕ) :
    granted h (placed h (a :: ts) i c) =
      (if (h a).pluginid = i ∧ (h a).cpu = c then (h a).acceptedu else 0) + granted h (placed h ts i c) := by
  unfold placed
  by_cases hm : (h a).pluginid = i ∧ (h a).cpu = c
  · rw [List.filter_cons_of_pos (by simpa using hm), granted_cons, if_pos hm]
  · rw [List.filter_cons_of_neg (by simpa using hm), if_neg hm, zero_add]

/-- One plugin has the task. -/
theorem sum_holder (n : ℕ) (keeps : ℕ → Bool) (pluginid : ℤ) (here : Prop) [Decidable here] (u : ℚ) :
    (Finset.sum (Finset.range n) fun i => if keeps i then if pluginid = i ∧ here then u else 0 else 0) =
      if here ∧ ∃ i < n, pluginid = i ∧ keeps i then u else 0 := by
  by_cases hc : here ∧ ∃ i < n, pluginid = i ∧ keeps i
  · obtain ⟨hhere, j, hj, rfl, hk⟩ := hc
    rw [if_pos ⟨hhere, j, hj, rfl, hk⟩]
    rw [Finset.sum_eq_single_of_mem j (Finset.mem_range.mpr hj)]
    · simp [hk, hhere]
    · intro i _ hij
      have hne : ¬ ((j : ℤ) = i ∧ here) := by
        rintro ⟨he, -⟩
        exact hij (by exact_mod_cast he.symm)
      rw [if_neg hne, ite_self]
  · rw [if_neg hc]
    apply Finset.sum_eq_zero
    intro i hi
    split
    · rename_i hk
      apply if_neg
      rintro ⟨he, hhere⟩
      exact hc ⟨hhere, i, Finset.mem_range.mp hi, he, hk⟩
    · rfl

/-- **The books of all plugins** on a core, as one sum over the tasks. -/
theorem spent_sum (h : Heap) (n : ℕ) (keeps : ℕ → Bool) (c : ℕ) (ts : List Addr) :
    (Finset.sum (Finset.range n) fun i => if keeps i then granted h (placed h ts i c) else 0) =
      (ts.map fun a => if (h a).cpu = c ∧ ∃ i < n, (h a).pluginid = i ∧ keeps i then (h a).acceptedu else 0).sum := by
  induction ts with
  | nil => simp [placed, granted]
  | cons a ts ih =>
    rw [List.map_cons, List.sum_cons, ← ih, ← sum_holder n keeps (h a).pluginid ((h a).cpu = c) (h a).acceptedu,
      ← Finset.sum_add_distrib]
    apply Finset.sum_congr rfl
    intro i _
    by_cases hk : keeps i
    · simp only [hk, if_true]
      exact granted_placed_cons h a ts i c
    · simp [hk]

section Sums

variable {n : ℕ} {w w' : World} {ts ts' : List Addr} {s : Sched}

theorem declared_nonneg (t : Task) : 0 ≤ declared t := by
  unfold declared
  positivity

theorem demandOf_cons (a : Addr) (c : ℕ) :
    demandOf n w (a :: ts) c =
      (if Charges n w c a ∧ (w.heap a).params.runtime ≠ 0 then declared (w.heap a) else 0) + demandOf n w ts c := by
  rw [demandOf, List.map_cons, List.sum_cons]
  rfl

/-- Fewer tasks, less demand. -/
theorem demandOf_sublist (hs : ts'.Sublist ts) (c : ℕ) : demandOf n w ts' c ≤ demandOf n w ts c := by
  apply List.Sublist.sum_le_sum (hs.map _)
  intro x hx
  obtain ⟨a, -, rfl⟩ := List.mem_map.mp hx
  split
  · exact declared_nonneg _
  · exact le_rfl

/-- `w'` has the plugins of `w`, and of the tasks `ts` the same place, grant and parameters. -/
structure SameGrants (w w' : World) (ts : List Addr) : Prop where
  info : ∀ j, (w'.plugin j).toPluginInfo = (w.plugin j).toPluginInfo
  task : ∀ b ∈ ts, (w'.heap b).cpu = (w.heap b).cpu ∧ (w'.heap b).pluginid = (w.heap b).pluginid ∧
    (w'.heap b).params = (w.heap b).params ∧ (w'.heap b).acceptedu = (w.heap b).acceptedu

theorem SameGrants.demandOf_eq (h : SameGrants w w' ts) (c : ℕ) : demandOf n w' ts c = demandOf n w ts c := by
  unfold demandOf
  congr 1
  apply List.map_congr_left
  intro b hb
  obtain ⟨h1, h2, h3, -⟩ := h.task b hb
  have hdecl : declared (w'.heap b) = declared (w.heap b) := by
    simp only [declared, rtfTaskGetMinDeclared, h3]
  have hcharges : Charges n w' c b ↔ Charges n w c b := by
    simp only [Charges, h1, h2, h.info]
  rw [hdecl, h3]
  exact if_congr (and_congr_left' hcharges) rfl rfl

theorem SameGrants.paid (h : SameGrants w w' ts) (hP : Paid n w ts) : Paid n w' ts := by
  intro b hb j hj hk hp
  obtain ⟨-, h2, h3, h4⟩ := h.task b hb
  rw [h.info] at hk
  rw [h2] at hp
  simpa only [declared, rtfTaskGetMinDeclared, h3, h4] using hP b hb j hj hk hp

theorem spent_eq (hT : Tallied s) (c : ℕ) : s.spent c =
    (s.taskset.root.map fun a => if Charges s.numOfPlugins s.toWorld c a then (s.heap a).acceptedu else 0).sum := by
  unfold Sched.spent Charges
  rw [← spent_sum s.heap s.numOfPlugins (fun i => (s.plugin i).kind.keepsUtil) c s.taskset.root]
  apply Finset.sum_congr rfl
  intro i hi
  by_cases hk : (s.plugin i).kind.keepsUtil = true
  · rw [if_pos hk, if_pos hk, hT.tallies.util i (Finset.mem_range.mp hi) hk c]
    ring
  · rw [if_neg hk, if_neg hk]

/-- Demand is covered by grants. -/
theorem demand_le_spent (hT : Tallied s) (hP : Paid s.numOfPlugins s.toWorld s.taskset.root) (c : ℕ) :
    s.demand c ≤ s.spent c := by
  rw [spent_eq hT]
  unfold Sched.demand demandOf
  apply List.sum_le_sum
  intro a ha
  by_cases hc : Charges s.numOfPlugins s.toWorld c a
  · obtain ⟨-, i, hi, hpid, hk⟩ := id hc
    obtain ⟨h0, h1⟩ := hP a ha i hi hk hpid
    rw [if_pos hc]
    split
    · rename_i hr
      exact h1 hr.2
    · exact h0
  · rw [if_neg hc, if_neg fun h => hc h.1]

theorem paid_granted (hP : Paid s.numOfPlugins s.toWorld s.taskset.root) {i : ℕ} (hi : i < s.numOfPlugins)
    (hk : (s.plugin i).kind.keepsUtil) (c : ℕ) : 0 ≤ granted s.heap (placed s.heap s.taskset.root i c) := by
  apply granted_nonneg
  intro b hb
  obtain ⟨hmem, hpid, -⟩ := mem_placed.mp hb
  exact (hP b hmem i hi hk hpid).1

/-- What one plugin has granted is part of what all have. -/
theorem free_of_spent (hT : Tallied s) (hP : Paid s.numOfPlugins s.toWorld s.taskset.root) {i : ℕ}
    (hi : i < s.numOfPlugins) (hk : (s.plugin i).kind.keepsUtil) (c : ℕ) :
    (s.plugin i).utilFreePercpu c ≤ 1 ∧ 1 - s.spent c ≤ (s.plugin i).utilFreePercpu c := by
  have hnonneg : ∀ j ∈ Finset.range s.numOfPlugins,
      0 ≤ if (s.plugin j).kind.keepsUtil then 1 - (s.plugin j).utilFreePercpu c else 0 := by
    intro j hj
    split
    · rename_i hkj
      have := paid_granted hP (Finset.mem_range.mp hj) hkj c
      rw [hT.tallies.util j (Finset.mem_range.mp hj) hkj c]
      linarith
    · exact le_rfl
  have hone := hnonneg i (Finset.mem_range.mpr hi)
  have hle := Finset.single_le_sum hnonneg (Finset.mem_range.mpr hi)
  rw [if_pos hk] at hone hle
  unfold Sched.spent
  constructor <;> linarith

end Sums

/-! ### One placement -/

/-- Narrowing does not make a value larger. -/
theorem toInt_le (x : UInt64) : toInt x ≤ x.toNat := by
  unfold toInt
  have hmod : (x.toNat : ℤ) % (2 ^ 32 : ℕ) ≤ x.toNat := by exact_mod_cast Nat.mod_le x.toNat (2 ^ 32)
  rw [Int.bmod_def]
  split <;> omega

theorem declared_le_util {t : Task} (hr : t.params.runtime ≠ 0) (hmin : 0 < toInt (rtfTaskGetMinDeclared t)) :
    0 < rtfTaskGetUtil t ∧ declared t ≤ rtfTaskGetUtil t := by
  have hu : rtfTaskGetUtil t = (t.params.runtime.toNat : ℚ) / (toInt (rtfTaskGetMinDeclared t) : ℚ) := by
    unfold rtfTaskGetUtil utilOf
    apply if_neg
    rintro (h0 | h0)
    · exact hmin.ne' h0
    · exact hr h0
  have hle := toInt_le (rtfTaskGetMinDeclared t)
  generalize toInt (rtfTaskGetMinDeclared t) = m at hmin hu hle
  have hq : (0 : ℚ) < (m : ℚ) := by exact_mod_cast hmin
  have hrun : (0 : ℚ) < (t.params.runtime.toNat : ℚ) := by
    have : t.params.runtime.toNat ≠ 0 := fun he => hr (UInt64.toNat_inj.mp he)
    exact_mod_cast Nat.pos_of_ne_zero this
  have hpos : 0 < rtfTaskGetUtil t := by
    rw [hu]
    exact div_pos hrun hq
  refine ⟨hpos, ?_⟩
  have hle : (m : ℚ) ≤ ((rtfTaskGetMinDeclared t).toNat : ℚ) := by exact_mod_cast hle
  calc declared t ≤ (t.params.runtime.toNat : ℚ) / (m : ℚ) :=
        div_le_div_of_nonneg_left (Nat.cast_nonneg _) hq hle
    _ = rtfTaskGetUtil t := hu.symm

/-- What is left of a core covers a task that fits there. -/
theorem leftover_ge {free : ℚ} {t : Task} (h1 : free ≤ 1) (hfit : declared t ≤ free)
    (hm : rtfTaskGetMinDeclared t ≠ 0) :
    declared t ≤ ((toU64 (free * (rtfTaskGetMinDeclared t).toNat)).toNat : ℚ) / ((rtfTaskGetMinDeclared t).toNat : ℚ) := by
  have hmpos : (0 : ℚ) < ((rtfTaskGetMinDeclared t).toNat : ℚ) := by
    have : (rtfTaskGetMinDeclared t).toNat ≠ 0 := fun he => hm (UInt64.toNat_inj.mp he)
    exact_mod_cast Nat.pos_of_ne_zero this
  have hrun : (t.params.runtime.toNat : ℚ) ≤ free * (rtfTaskGetMinDeclared t).toNat := (div_le_iff₀ hmpos).mp hfit
  have hval := leftover_toNat ((Nat.cast_nonneg _).trans hrun) h1
  have hfloor : (t.params.runtime.toNat : ℤ) ≤ ⌊free * ((rtfTaskGetMinDeclared t).toNat : ℚ)⌋ := by
    apply Int.le_floor.mpr
    exact_mod_cast hrun
  unfold declared
  apply div_le_div_of_nonneg_right _ hmpos.le
  rw [← hval] at hfloor
  exact_mod_cast hfloor

section Placement

variable {w w' : World} {i : ℕ} {a : Addr} {r : Res}

/-- The task fits where it will be put, as declared. -/
def FitsPicked (this : Plugin) (t : Task) (left : ℕ → ℚ) : Prop :=
  t.params.runtime ≠ 0 → 0 < toInt (rtfTaskGetMinDeclared t) ∧ ∀ c ∈ pick this, declared t ≤ left c

instance (this : Plugin) (t : Task) (left : ℕ → ℚ) : Decidable (FitsPicked this t left) := by
  unfold FitsPicked; infer_instance

theorem mostFree_pick {this : Plugin} {c : ℕ} (hc : mostFree this = .ok c) : pick this = some c := by
  obtain ⟨c₀, cs, hl, hc, -⟩ := leastLoaded_eq hc
  unfold pick
  rw [hl, hc]

theorem EDF.schedule_pays (hacc : EDF.rtfPlgTaskAccept (w.plugin i) (w.heap a) = .ok r) (hr : r ≠ .no)
    (hu1 : ∀ c, (w.plugin i).utilFreePercpu c ≤ 1)
    (hfit : FitsPicked (w.plugin i) (w.heap a) (w.plugin i).utilFreePercpu)
    (h : EDF.rtfPlgTaskSchedule w i a = .ok w') : pick (w.plugin i) = some (w'.heap a).cpu ∧
      0 ≤ (w'.heap a).acceptedu ∧ declared (w.heap a) ≤ (w'.heap a).acceptedu := by
  obtain ⟨c, t, hc, -, hcpu, ht, rfl⟩ := EDF.schedule_ok h
  simp only [World.setPlugin, World.setTask, Function.update_self, hcpu]
  have hpick := mostFree_pick hc
  obtain ⟨hne, -⟩ := EDF.accept_ne_no hacc hr
  obtain ⟨hmin, hb, -⟩ := utilOf_ne hne
  obtain ⟨hpos, hin⟩ := hfit hb
  obtain ⟨hupos, hule⟩ := declared_le_util hb hpos
  refine ⟨hpick, ?_⟩
  rcases EDF.grant_cases ht with ⟨hgr, -⟩ | hgr
  · rw [hgr]
    exact ⟨hupos.le, hule⟩
  · rw [hgr]
    have hm : rtfTaskGetMinDeclared (w.heap a) ≠ 0 := by
      intro h0
      rw [h0] at hmin
      exact hmin toInt_zero
    have hle := leftover_ge (hu1 c) (hin c (by rw [hpick]; rfl)) hm
    exact ⟨(declared_nonneg _).trans hle, hle⟩

theorem RM.schedule_pays (hfit : FitsPicked (w.plugin i) (w.heap a) (w.plugin i).utilFreePercpu)
    (h : RM.rtfPlgTaskSchedule w i a = .ok w') : pick (w.plugin i) = some (w'.heap a).cpu ∧
      0 ≤ (w'.heap a).acceptedu ∧ ((w.heap a).params.runtime ≠ 0 → declared (w.heap a) ≤ (w'.heap a).acceptedu) := by
  obtain ⟨c, st, heap, u, hc, -, hcpu, hgranted, rfl⟩ := RM.schedule_ok h
  simp only [World.setPlugin, World.setTask, World.setStatics, Function.update_self, hcpu, hgranted]
  refine ⟨mostFree_pick hc, ?_⟩
  by_cases hr : (w.heap a).params.runtime = 0
  · have hu : rtfTaskGetUtil (w.heap a) = -1 := by simp [rtfTaskGetUtil, utilOf, hr]
    simp [hu, hr]
  · obtain ⟨hupos, hule⟩ := declared_le_util hr (hfit hr).1
    rw [if_pos (by linarith)]
    exact ⟨hupos.le, fun _ => hule⟩

/-- **EDF and RM grant what is declared**, on the core they pick. -/
theorem schedule_pays (hk : (w.plugin i).kind.keepsUtil) (hacc : rtfPlgTaskAccept (w.plugin i) (w.heap a) = .ok r)
    (hr : r ≠ .no) (hu1 : ∀ c, (w.plugin i).utilFreePercpu c ≤ 1)
    (hfit : FitsPicked (w.plugin i) (w.heap a) (w.plugin i).utilFreePercpu)
    (h : rtfPlgTaskSchedule w i a = .ok w') : pick (w.plugin i) = some (w'.heap a).cpu ∧
      0 ≤ (w'.heap a).acceptedu ∧ ((w.heap a).params.runtime ≠ 0 → declared (w.heap a) ≤ (w'.heap a).acceptedu) := by
  unfold rtfPlgTaskAccept at hacc
  unfold rtfPlgTaskSchedule at h
  rcases hkind : (w.plugin i).kind with _ | _ | _ | _ <;> rw [hkind] at hk hacc h
  · obtain ⟨h1, h2, h3⟩ := EDF.schedule_pays hacc hr hu1 hfit h
    exact ⟨h1, h2, fun _ => h3⟩
  · exact RM.schedule_pays hfit h
  · simp [Kind.keepsUtil] at hk
  · simp [Kind.keepsUtil] at hk

end Placement

/-! ### Runs -/

/-- No change; and a task that EDF or RM takes in fits, as declared, into what
the books of all EDF and RM plugins leave of `sched_max_util` on the core that
is picked for it. -/
def FitsCap (schedMaxUtil : ℚ) (s : Sched) : Op → Prop
  | .create tp ppid => tp.ignoreAdmission = 0 ∧ ∀ ch ∈ assignee (s.alloc tp ppid) s.next,
      (s.plugin ch.1).kind.keepsUtil →
        FitsPicked (s.plugin ch.1) (newTask s.nextId ppid tp) fun c => schedMaxUtil - s.spent c
  | .change _ _ => False
  | _ => True

instance (schedMaxUtil : ℚ) (s : Sched) (o : Op) : Decidable (FitsCap schedMaxUtil s o) :=
  match o with
  | .create tp ppid =>
    inferInstanceAs (Decidable (tp.ignoreAdmission = 0 ∧ ∀ ch ∈ assignee (s.alloc tp ppid) s.next,
      (s.plugin ch.1).kind.keepsUtil →
        FitsPicked (s.plugin ch.1) (newTask s.nextId ppid tp) fun c => schedMaxUtil - s.spent c))
  | .change _ _ => inferInstanceAs (Decidable False)
  | .attach _ _ | .detach _ | .destroy _ | .delete _ => inferInstanceAs (Decidable True)

section Steps

variable {s s' : Sched} {schedMaxUtil : ℚ} {r : Res}

/-- The tally, what tasks were granted, and the cap. -/
structure UnderCap (schedMaxUtil : ℚ) (s : Sched) : Prop where
  tallied : Tallied s
  paid : Paid s.numOfPlugins s.toWorld s.taskset.root
  capped : Capped schedMaxUtil s

/-- A task put in front: paid for, and with room on its core. -/
theorem UnderCap.place {tp : Params} {ppid : Pid} {w : World} {i : ℕ} (hU : UnderCap schedMaxUtil s)
    (hmax : schedMaxUtil ≤ 1) (hg : FitsCap schedMaxUtil s (.create tp ppid))
    (hch : assignee (s.alloc tp ppid) s.next = some (i, r))
    (hs : rtfPlgTaskSchedule (s.alloc tp ppid).toWorld i s.next = .ok w) :
    Paid s.numOfPlugins w (s.next :: s.taskset.root) ∧
      ∀ d, demandOf s.numOfPlugins w (s.next :: s.taskset.root) d ≤ schedMaxUtil := by
  have hT := hU.tallied
  obtain ⟨hi, hacc, hr⟩ := assignee_some hch
  obtain ⟨c, hP⟩ := schedule_placed hs
  have hself := s.alloc_self tp ppid
  have hparams : (w.heap s.next).params = tp := by
    rw [(hP.task_eq s.next).2.2.2, hself]
    rfl
  have hdecl : declared (w.heap s.next) = declared (newTask s.nextId ppid tp) := by
    unfold declared rtfTaskGetMinDeclared
    rw [hparams]
    rfl
  have hpid : (w.heap s.next).pluginid = i := by
    rw [hP.task]
    exact hT.sane.ids i hi
  have hsame : SameGrants s.toWorld w s.taskset.root := by
    refine ⟨hP.info_eq, ?_⟩
    intro b hb
    rw [hP.rest b (hT.sane.fresh b hb).ne, hT.sane.alloc_heap tp ppid hb]
    exact ⟨rfl, rfl, rfl, rfl⟩
  -- a plugin that keeps utilisations and has the new task is the one that took it
  have hheld : ∀ {j : ℕ}, (w.heap s.next).pluginid = j → (w.plugin j).kind.keepsUtil →
      j = i ∧ (s.plugin i).kind.keepsUtil := by
    intro j hj hk
    have hji : j = i := by
      have hij : (j : ℤ) = i := hj.symm.trans hpid
      exact_mod_cast hij
    subst hji
    rw [hP.info_eq] at hk
    exact ⟨rfl, hk⟩
  have hpays : (s.plugin i).kind.keepsUtil → pick (s.plugin i) = some (w.heap s.next).cpu ∧
      0 ≤ (w.heap s.next).acceptedu ∧
        (tp.runtime ≠ 0 → declared (w.heap s.next) ≤ (w.heap s.next).acceptedu) := by
    intro hk
    have hfit : FitsPicked (s.plugin i) (newTask s.nextId ppid tp) (s.plugin i).utilFreePercpu := by
      intro hrun
      obtain ⟨hpos, hleft⟩ := hg.2 (i, r) hch hk hrun
      refine ⟨hpos, ?_⟩
      intro d hd
      have hfree := (free_of_spent hT hU.paid hi hk d).2
      linarith [hleft d hd]
    rw [← hself] at hfit
    have hpaid := @schedule_pays (s.alloc tp ppid).toWorld w i s.next r hk hacc hr
      (fun d => (free_of_spent hT hU.paid hi hk d).1) hfit hs
    rwa [hself, ← hdecl] at hpaid
  constructor
  · intro b hb j hj hk hp
    rcases List.mem_cons.mp hb with rfl | hb
    · obtain ⟨-, hk⟩ := hheld hp hk
      obtain ⟨-, h0, h1⟩ := hpays hk
      rw [hparams]
      exact ⟨h0, h1⟩
    · exact hsame.paid hU.paid b hb j hj hk hp
  · intro d
    rw [demandOf_cons, hsame.demandOf_eq]
    split
    · -- the new task is charged to the core: it is the core picked, and there is room
      rename_i hcharged
      obtain ⟨⟨hcpu, j, hj, hpj, hkj⟩, hrun⟩ := hcharged
      obtain ⟨-, hk⟩ := hheld hpj hkj
      rw [hparams] at hrun
      obtain ⟨hpick, -, -⟩ := hpays hk
      have hroom := (hg.2 (i, r) hch hk hrun).2 d (by rw [hpick, hcpu]; rfl)
      have hle := demand_le_spent hT hU.paid d
      unfold Sched.demand at hle
      rw [hdecl]
      linarith
    · rw [zero_add]
      exact hU.capped d

theorem underCap_create {tp : Params} {ppid : Pid} (hmax : schedMaxUtil ≤ 1) (hU : UnderCap schedMaxUtil s)
    (hg : FitsCap schedMaxUtil s (.create tp ppid)) (h : rtfSchedulerTaskCreate s tp ppid = .ok (r, s')) :
    UnderCap schedMaxUtil s' := by
  have hT := tallied_create hU.tallied h
  rcases create_ok h with ⟨-, rfl⟩ | ⟨i, w, hch, hs, rfl⟩
  · have hsame : SameGrants s.toWorld (s.alloc tp ppid).toWorld s.taskset.root := by
      refine ⟨fun _ => rfl, ?_⟩
      intro b hb
      rw [hU.tallied.sane.alloc_heap tp ppid hb]
      exact ⟨rfl, rfl, rfl, rfl⟩
    refine ⟨hT, hsame.paid hU.paid, ?_⟩
    intro c
    exact (hsame.demandOf_eq c).trans_le (hU.capped c)
  · obtain ⟨hpaid, hcap⟩ := hU.place hmax hg hch hs
    exact ⟨hT, hpaid, hcap⟩

theorem underCap_removes {key : Addr → Bool} {a : Addr} (hU : UnderCap schedMaxUtil s) (h : Removes key s a s') :
    UnderCap schedMaxUtil s' := by
  have hT := tallied_removes hU.tallied h
  obtain ⟨hroot, hp, -⟩ := h.root
  have hat := (List.nodup_cons.mp (hp.nodup_iff.mp hU.tallied.tallies.nodup)).1
  have hsub : s'.taskset.root.Sublist s.taskset.root := by
    rw [hroot]
    exact List.eraseP_sublist
  obtain ⟨ts, i, r, w, -, -, -, hr, rfl⟩ := h
  have hR := release_released hr
  have hsame : SameGrants s.toWorld w ts.root := by
    refine ⟨hR.info_eq, ?_⟩
    intro b hb
    rw [hR.heap_ne fun hba => hat (hba ▸ hb)]
    exact ⟨rfl, rfl, rfl, rfl⟩
  refine ⟨hT, hsame.paid fun b hb => hU.paid b (hsub.subset hb), ?_⟩
  intro c
  calc demandOf s.numOfPlugins w ts.root c = demandOf s.numOfPlugins s.toWorld ts.root c := hsame.demandOf_eq c
    _ ≤ s.demand c := demandOf_sublist hsub c
    _ ≤ schedMaxUtil := hU.capped c

theorem underCap_step {o : Op} (hmax : schedMaxUtil ≤ 1) (hU : UnderCap schedMaxUtil s)
    (hg : FitsCap schedMaxUtil s o) (h : step s o = .ok (r, s')) : UnderCap schedMaxUtil s' := by
  refine step_inv ?_ ?_ ?_ ?_ hU h
  · rintro tp ppid rfl hcreate
    exact underCap_create hmax hU hg hcreate
  · rintro tp id rfl -
    exact hg.elim
  · intro heap k hheap
    have hsame : SameGrants s.toWorld { s.toWorld with heap := heap } s.taskset.root := by
      refine ⟨fun _ => rfl, ?_⟩
      intro b _
      show (heap b).cpu = _ ∧ (heap b).pluginid = _ ∧ (heap b).params = _ ∧ (heap b).acceptedu = _
      rw [hheap b]
      exact ⟨rfl, rfl, rfl, rfl⟩
    refine ⟨tallied_thread hU.tallied hheap, hsame.paid hU.paid, ?_⟩
    intro c
    exact (hsame.demandOf_eq c).trans_le (hU.capped c)
  · intro key s a s' hI hrm
    exact underCap_removes hI hrm

end Steps

/-- **The cap holds** in every run in which EDF and RM take a task in only
where their books together leave room for it under the configured maximum. -/
theorem capped_run {alloc : ℕ → Option ℕ} {load : List UInt8 → Option Image} {numProcs : ℕ} {conf : Configuration}
    {plgs : List Plugin} {k : Kernel} {s : Sched} (hvalid : configurationValid numProcs conf = true)
    (hinit : rtfPluginsInit alloc load conf.plugins = some plgs)
    (hrun : Reach step (FitsCap conf.schedMaxUtil) (Sched.start plgs k) s) : Capped conf.schedMaxUtil s := by
  have hrange : 0 ≤ conf.schedMaxUtil ∧ conf.schedMaxUtil ≤ 1 := by
    simp only [configurationValid, Bool.and_eq_true] at hvalid
    simpa [checkMaxUtil] using hvalid.1.1.1.1
  have hU : UnderCap conf.schedMaxUtil s := by
    refine hrun.inv (I := UnderCap conf.schedMaxUtil) ⟨tallied_start hinit k, by simp [Paid, Sched.start], ?_⟩ ?_
    · intro c
      simpa [Sched.demand, demandOf, Sched.start] using hrange.1
    · intro s o r s' hI hg hs
      exact underCap_step hrange.2 hI hg hs
  exact hU.capped

/-! ### Two plugins on one core -/

namespace CapExample

/-- RM and EDF on core 0, one above the other. -/
def conf : Configuration :=
  ⟨1, [⟨"RM".toUTF8.toList, [2], 10, 20, [0]⟩, ⟨"EDF".toUTF8.toList, [1], 0, 0, [0]⟩]⟩

def plgs : List Plugin := (rtfPluginsInit asMaps BooksExample.load conf.plugins).getD []

theorem init_plgs : rtfPluginsInit asMaps BooksExample.load conf.plugins = some plgs := rfl

def start : Sched := Sched.start plgs BooksExample.kernel

end CapExample

open BooksExample CapExample

theorem capped_creates : ∃ s, runGood step (FitsCap CapExample.conf.schedMaxUtil)
    [.create (params 60) 1, .create (params 40) 2, .destroy 1] CapExample.start = some s ∧
      Capped CapExample.conf.schedMaxUtil s := by
  have hsome : (runGood step (FitsCap CapExample.conf.schedMaxUtil)
      [.create (params 60) 1, .create (params 40) 2, .destroy 1] CapExample.start).isSome := by decide +kernel
  obtain ⟨s, hs⟩ := Option.isSome_iff_exists.mp hsome
  have hvalid : configurationValid 1 CapExample.conf = true := by decide +kernel
  exact ⟨s, hs, capped_run hvalid CapExample.init_plgs (reach_runGood hs)⟩

/-- RM gives out all of the core, and so does EDF. -/
theorem not_capped_run : ¬ ∀ (load : List UInt8 → Option Image) (numProcs : ℕ) (conf : Configuration)
    (plgs : List Plugin) (k : Kernel) (s : Sched), configurationValid numProcs conf = true →
      rtfPluginsInit asMaps load conf.plugins = some plgs →
        Reach step (fun _ => PlainOp) (Sched.start plgs k) s → Capped conf.schedMaxUtil s := by
  intro h
  have hend : (runGood step (fun _ => PlainOp) [.create (params 100) 1, .create (params 100) 2] CapExample.start).map
      (fun s => s.demand 0) = some 2 := by decide +kernel
  obtain ⟨s, hs, hv⟩ := Option.map_eq_some_iff.mp hend
  have hC := h BooksExample.load 1 CapExample.conf CapExample.plgs kernel s (by decide +kernel) CapExample.init_plgs
    (reach_runGood hs) 0
  rw [hv] at hC
  exact absurd hC (by decide +kernel)

end Retif
