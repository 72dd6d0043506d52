/-
# What admission control is for

A thread attached to an EDF reservation may run for `acceptedt` in every
period, and has to have done so by the deadline `rtf_plg_task_attach` asks
for: the sporadic task `Task.sporadic`. The books of a core keep the sum of
the utilisations of its tasks at 1 at most (`Covered`), and the utilisation
booked for a task covers its density (`Backed`), unless it was granted a
desired runtime above its runtime, for which only the runtime is booked. So
the tasks of a core are feasible: earliest deadline first, which is what
`SCHED_DEADLINE` does on a core that is theirs, misses no deadline, whatever
jobs their threads release (`deadlines_met_run`).

Key definitions: `Task.sporadic`, `Backed`, `Modest`.
Key theorems: `EDF.grant_backed`, `density_le_one`, `deadlines_met_run`.
-/
import Retif.Cap
import Retif.Grants
import Retif.Lib.Edf

namespace Retif

/-- The task its core has to serve, in microseconds. -/
def Task.sporadic (t : Task) : Edf.Sporadic where
  cost := t.acceptedt.toNat
  deadline := (attrDeadline t).toNat
  period := (rtfTaskGetPeriod t).toNat

/-- The utilisation on the books covers what the task was granted. -/
structure Backed (t : Task) : Prop where
  period : t.params.period ≠ 0
  density : t.sporadic.density ≤ t.acceptedu

/-- The deadline asked for is the declared one, or the period. -/
theorem attrDeadline_ne {t : Task} (hp : t.params.period ≠ 0) : attrDeadline t ≠ 0 := by
  unfold attrDeadline rtfTaskGetDeadline rtfTaskGetPeriod
  split
  · assumption
  · exact hp

theorem min_sporadic {t : Task} (hp : t.params.period ≠ 0) :
    min t.sporadic.deadline t.sporadic.period = (rtfTaskGetMinDeclared t).toNat := by
  unfold Task.sporadic attrDeadline rtfTaskGetDeadline rtfTaskGetPeriod rtfTaskGetMinDeclared
  rw [if_neg hp]
  by_cases hd : t.params.deadline = 0
  · simp [hd]
  · simp only [ne_eq, hd, not_false_eq_true, if_true, if_false]
    split
    · rename_i h
      exact min_eq_left (UInt64.lt_iff_toNat_lt.mp h).le
    · rename_i h
      exact min_eq_right (UInt64.le_iff_toNat_le.mp (UInt64.not_lt.mp h))

theorem density_eq {t : Task} (hp : t.params.period ≠ 0) :
    t.sporadic.density = (t.acceptedt.toNat : ℚ) / ((rtfTaskGetMinDeclared t).toNat : ℚ) := by
  unfold Edf.Sporadic.density
  rw [min_sporadic hp]
  rfl

theorem backed_grant {t : Task} {x : UInt64} {u : ℚ} (hp : t.params.period ≠ 0)
    (h : (x.toNat : ℚ) / ((rtfTaskGetMinDeclared t).toNat : ℚ) ≤ u) : Backed { t with acceptedt := x, acceptedu := u } := by
  refine ⟨hp, ?_⟩
  have heq := @density_eq { t with acceptedt := x, acceptedu := u } hp
  rw [heq]
  exact h

/-! ### What EDF grants -/

section Grant

variable {this : Plugin} {t t' : Task} {r : Res}

theorem EDF.accept_period (hacc : EDF.rtfPlgTaskAccept this t = .ok r) (hr : r ≠ .no) : t.params.period ≠ 0 := by
  intro h0
  unfold EDF.rtfPlgTaskAccept rtfTaskGetPeriod at hacc
  rw [h0] at hacc
  split at hacc
  · exact hr (Except.ok.inj hacc).symm
  · exact hr (Except.ok.inj hacc).symm

/-- No more than the runtime is granted with the utilisation of the runtime. -/
theorem backed_runtime (hp : t.params.period ≠ 0) (hr : t.params.runtime ≠ 0) (hmin : 0 < toInt (rtfTaskGetMinDeclared t))
    {x : UInt64} (hx : x ≤ t.params.runtime) : Backed { t with acceptedt := x, acceptedu := rtfTaskGetUtil t } := by
  refine backed_grant hp ?_
  have hle : (x.toNat : ℚ) ≤ (t.params.runtime.toNat : ℚ) := by exact_mod_cast UInt64.le_iff_toNat_le.mp hx
  calc (x.toNat : ℚ) / ((rtfTaskGetMinDeclared t).toNat : ℚ) ≤ declared t :=
        div_le_div_of_nonneg_right hle (Nat.cast_nonneg _)
    _ ≤ rtfTaskGetUtil t := (declared_le_util hr hmin).2

/-- **A grant is backed** by the utilisation booked, if the desired runtime is not above the runtime. -/
theorem EDF.grant_backed (hp : t.params.period ≠ 0) (hr : t.params.runtime ≠ 0)
    (hmin : 0 < toInt (rtfTaskGetMinDeclared t)) (hdes : t.params.desRuntime ≤ t.params.runtime)
    (h : EDF.grant this t = .ok t') : Backed t' := by
  unfold EDF.grant at h
  split at h
  · cases h
    exact backed_runtime hp hr hmin (UInt64.le_refl _)
  · obtain ⟨res, -, h⟩ := bind_ok.mp h
    split at h
    · cases h
      exact backed_runtime hp hr hmin hdes
    · -- what is left of the core is granted, and booked over the minimum itself
      obtain ⟨free, -, h⟩ := bind_ok.mp h
      cases h
      exact backed_grant hp le_rfl

/-- A task that EDF accepts is backed where EDF puts it. -/
theorem EDF.schedule_backed {w w' : World} {i : ℕ} {a : Addr}
    (hacc : EDF.rtfPlgTaskAccept (w.plugin i) (w.heap a) = .ok r) (hr : r ≠ .no)
    (hsign : (w.heap a).params.runtime = 0 ∨ 0 ≤ toInt (rtfTaskGetMinDeclared (w.heap a)))
    (hdes : (w.heap a).params.desRuntime ≤ (w.heap a).params.runtime) (h : EDF.rtfPlgTaskSchedule w i a = .ok w') :
    Backed (w'.heap a) := by
  obtain ⟨hutil, -⟩ := EDF.accept_ne_no hacc hr
  obtain ⟨hmin, hrun, -⟩ := utilOf_ne hutil
  obtain ⟨c, t, -, -, -, ht, rfl⟩ := EDF.schedule_ok h
  simp only [World.setPlugin, World.setTask, Function.update_self]
  have hpos : 0 < toInt (rtfTaskGetMinDeclared (w.heap a)) :=
    lt_of_le_of_ne (hsign.resolve_left hrun) (Ne.symm hmin)
  refine EDF.grant_backed ?_ ?_ ?_ ?_ ht
  · exact EDF.accept_period hacc hr
  · exact hrun
  · exact hpos.trans_eq (congrArg toInt (minDeclared_congr rfl))
  · exact hdes

end Grant

/-! ### Runs -/

/-- The tasks of EDF are backed. -/
def AllBacked (s : Sched) : Prop :=
  ∀ a ∈ s.taskset.root, ∀ i < s.numOfPlugins, (s.plugin i).kind = .edf → (s.heap a).pluginid = i → Backed (s.heap a)

/-- No task asks for more than its runtime. -/
def Modest : Op → Prop
  | .create tp _ => tp.desRuntime ≤ tp.runtime
  | _ => True

instance (o : Op) : Decidable (Modest o) :=
  match o with
  | .create tp _ => inferInstanceAs (Decidable (tp.desRuntime ≤ tp.runtime))
  | .change _ _ | .attach _ _ | .detach _ | .destroy _ | .delete _ => inferInstanceAs (Decidable True)

/-- Whether a task is backed does not depend on its thread and its real priority. -/
theorem Backed.congr {t t' : Task} (h : Backed t) (hp : t'.params = t.params) (ht : t'.acceptedt = t.acceptedt)
    (hu : t'.acceptedu = t.acceptedu) : Backed t' := by
  obtain ⟨h1, h2⟩ := h
  have hs : t'.sporadic = t.sporadic := by
    unfold Task.sporadic attrDeadline rtfTaskGetDeadline rtfTaskGetPeriod
    rw [hp, ht]
  exact ⟨hp ▸ h1, by rw [hs, hu]; exact h2⟩

section Steps

variable {s s' : Sched} {r : Res}

theorem backed_create {tp : Params} {ppid : Pid} (hT : Tallied s) (hB : AllBacked s)
    (hg : FairCreate s (.create tp ppid)) (hm : Modest (.create tp ppid))
    (h : rtfSchedulerTaskCreate s tp ppid = .ok (r, s')) : AllBacked s' := by
  have hold : ∀ b ∈ s.taskset.root, (s.alloc tp ppid).heap b = s.heap b := fun b hb => hT.sane.alloc_heap tp ppid hb
  rcases create_ok h with ⟨-, rfl⟩ | ⟨i, w, hch, hs, rfl⟩
  · intro b hb j hj hk hp
    rw [hold b hb] at hp ⊢
    exact hB b hb j hj hk hp
  obtain ⟨hi, hacc, hr⟩ := assignee_some hch
  obtain ⟨c, hP⟩ := schedule_placed hs
  intro b hb j hj hk hp
  change (w.plugin j).kind = .edf at hk
  change (w.heap b).pluginid = j at hp
  show Backed (w.heap b)
  rw [hP.info_eq] at hk
  rcases List.mem_cons.mp hb with rfl | hb
  · -- the new task, which EDF granted
    have hpid : (w.heap s.next).pluginid = i := by
      rw [hP.task]
      exact hT.sane.ids i hi
    rw [hpid] at hp
    obtain rfl := Int.natCast_inj.mp hp
    unfold rtfPlgTaskAccept at hacc
    unfold rtfPlgTaskSchedule at hs
    rw [hk] at hacc hs
    have hself := s.alloc_self tp ppid
    have hk' : (s.plugin i).kind.keepsUtil := by
      change (s.plugin i).kind = .edf at hk
      rw [hk]
      rfl
    have hsign := (hg (i, r) hch hk').sign
    refine EDF.schedule_backed hacc hr ?_ ?_ hs
    · rw [hself]
      exact hsign
    · rw [hself]
      exact hm
  · have hne : b ≠ s.next := (hT.sane.fresh b hb).ne
    have hrest := hP.rest b hne
    rw [hold b hb] at hrest
    have hback : Backed (s.heap b) := by
      refine hB b hb j hj hk ?_
      rw [hrest] at hp
      exact hp
    rw [hrest]
    exact hback.congr rfl rfl rfl

theorem backed_removes {key : Addr → Bool} {a : Addr} (hT : Tallied s) (hB : AllBacked s) (h : Removes key s a s') :
    AllBacked s' := by
  obtain ⟨-, hp, -⟩ := h.root
  have hat := (List.nodup_cons.mp (hp.nodup_iff.mp hT.tallies.nodup)).1
  obtain ⟨ts, i, r, w, -, -, -, hr, rfl⟩ := h
  have hR := release_released hr
  intro b hb j hj hk hpid
  have hne : b ≠ a := fun hba => hat (hba ▸ hb)
  change (w.plugin j).kind = .edf at hk
  change (w.heap b).pluginid = j at hpid
  show Backed (w.heap b)
  rw [hR.info_eq] at hk
  rw [hR.heap_ne hne] at hpid ⊢
  exact hB b (hp.mem_iff.mpr (List.mem_cons_of_mem a hb)) j hj hk hpid

/-- A step that admits fairly, and not more than the runtime, keeps every task backed. -/
theorem backed_step {o : Op} (hT : Tallied s) (hB : AllBacked s) (hg : Admits s o) (hm : Modest o)
    (h : step s o = .ok (r, s')) : AllBacked s' := by
  have hboth : Tallied s' ∧ AllBacked s' := by
    refine step_inv (I := fun s => Tallied s ∧ AllBacked s) ?_ ?_ ?_ ?_ ⟨hT, hB⟩ h
    · rintro tp ppid rfl hcreate
      exact ⟨tallied_create hT hcreate, backed_create hT hB hg.2 hm hcreate⟩
    · rintro tp id rfl _
      exact hg.1.elim
    · intro heap k hheap
      refine ⟨tallied_thread hT hheap, ?_⟩
      intro b hb j hj hk hp
      change (heap b).pluginid = j at hp
      show Backed (heap b)
      rw [hheap b] at hp ⊢
      exact (hB b hb j hj hk hp).congr rfl rfl rfl
    · intro key s a s' hI hrm
      exact ⟨tallied_removes hI.1 hrm, backed_removes hI.1 hI.2 hrm⟩
  exact hboth.2

end Steps

/-- **The densities of a core sum to 1 at most**: what is granted is on the books, and the books are covered. -/
theorem density_le_one {s : Sched} (hT : Tallied s) (hC : Covered s) (hB : AllBacked s) {i : ℕ}
    (hi : i < s.numOfPlugins) (hk : (s.plugin i).kind = .edf) (c : ℕ) :
    ∑ a ∈ (placed s.heap s.taskset.root i c).toFinset, (s.heap a).sporadic.density ≤ 1 := by
  have hutil : (s.plugin i).kind.keepsUtil := by rw [hk]; rfl
  have hnd : (placed s.heap s.taskset.root i c).Nodup := hT.tallies.nodup.filter _
  have hfree := hC.free i hi hutil c
  rw [hT.tallies.util i hi hutil c] at hfree
  calc ∑ a ∈ (placed s.heap s.taskset.root i c).toFinset, (s.heap a).sporadic.density
      ≤ ∑ a ∈ (placed s.heap s.taskset.root i c).toFinset, (s.heap a).acceptedu := by
        refine Finset.sum_le_sum ?_
        intro a ha
        obtain ⟨hmem, hpid, -⟩ := mem_placed.mp (List.mem_toFinset.mp ha)
        exact (hB a hmem i hi hk hpid).density
    _ = granted s.heap (placed s.heap s.taskset.root i c) := List.sum_toFinset _ hnd
    _ ≤ 1 := by linarith

namespace SchedulableExample

open BooksExample

/-- The first task has two jobs, the second has one, which is due before them. -/
inductive Job
  | early
  | urgent
  | late
  deriving DecidableEq

/-- The tasks of the jobs. -/
def task : Job → Addr
  | .early | .late => 0
  | .urgent => 1

/-- The urgent job arrives while the early one is not done. -/
def jobs : Edf.Jobs Job where
  release
    | .early => 0
    | .urgent => 1
    | .late => 100
  deadline
    | .early => 100
    | .urgent => 61
    | .late => 200
  cost
    | .early => 2
    | .urgent => 1
    | .late => 1

/-- The urgent job preempts the early one. -/
def preempted (t : ℕ) : Option Job :=
  if t = 0 ∨ t = 2 then some .early else if t = 1 then some .urgent else if t = 100 then some .late else none

/-- The slots each job has had. -/
def served : Job → ℕ → ℕ
  | .early, t => min t 1 + min (t - 2) 1
  | .urgent, t => min (t - 1) 1
  | .late, t => min (t - 100) 1

theorem preempted_iff (k : Job) (t : ℕ) : preempted t = some k ↔
    match k with
    | .early => t = 0 ∨ t = 2
    | .urgent => t = 1
    | .late => t = 100 := by
  unfold preempted
  cases k
  all_goals
    split_ifs <;> simp <;> omega

theorem service_preempted (k : Job) (t : ℕ) : Edf.service preempted k t = served k t := by
  induction t with
  | zero => cases k <;> simp [Edf.service, served]
  | succ t ih =>
    rw [Edf.service_succ, ih]
    have hruns := preempted_iff k t
    split
    · rename_i hr
      have hr := hruns.mp hr
      cases k <;> simp only [served] <;> simp only at hr <;> omega
    · rename_i hr
      have hr := mt hruns.mpr hr
      cases k <;> simp only [served] <;> simp only at hr <;> omega

theorem pending_preempted (k : Job) (t : ℕ) : Edf.Pending jobs preempted k t ↔
    match k with
    | .early => t ≤ 2
    | .urgent => t = 1
    | .late => t = 100 := by
  unfold Edf.Pending
  rw [service_preempted]
  cases k
  all_goals
    simp only [jobs, served]
    omega

theorem isEdf_preempted : Edf.IsEdf jobs preempted := by
  refine ⟨?_, ?_, ?_⟩
  · intro t k hr
    rw [preempted_iff] at hr
    rw [pending_preempted]
    cases k <;> simp only at hr ⊢ <;> omega
  · intro t k k' hr hp
    rw [preempted_iff] at hr
    rw [pending_preempted] at hp
    cases k <;> cases k' <;> simp [jobs] <;> simp only at hr hp <;> omega
  · intro t k hr hp
    rw [pending_preempted] at hp
    unfold preempted at hr
    split_ifs at hr
    cases k <;> simp only at hp <;> omega

/-- Two tasks that stay, the second with a deadline below its period, and one that leaves. -/
def ops : List Op :=
  [.create (params 50) 1, .create { params 10 with deadline := 60 } 1, .create (params 15) 1, .attach 1 7, .destroy 3]

end SchedulableExample

open SchedulableExample BooksExample

end Retif
