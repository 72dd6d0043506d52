/-
# What RM's priorities are for

RM runs the threads of a core under `SCHED_FIFO`, the shorter the period the
higher the priority. In a run in which every walk counts its priorities up in the
window (`Rated`), the records of a core are rate-monotonic at all times
(`RM.Graded`), whatever is released in between. And as the books cover what was
granted (`RM.Backed`), every job of a core whose periods divide one another is
done in its period (`rates_met_run`).

The admission test is that of EDF, so for periods that do not divide one another
it admits more than fixed priorities can serve: `hyperbolic_bound`, which would
be the test for those, is not called.

Key definitions: `Task.rate`, `RM.Graded`, `RM.CountsUp`, `Rated`, `RM.Backed`.
Key theorems: `RM.assign_above`, `RM.schedule_graded`, `RM.schedule_backed`,
`rate_le_one`, `rates_met_run`.
-/
import Retif.Schedulable
import Retif.Periods
import Retif.RateMonotonic
import Retif.Lib.FixedPriority

namespace Retif

open CList

/-- The task its core has to serve: a job in every period, done by its end. RM does not look at the deadline. -/
def Task.rate (t : Task) : Edf.Sporadic where
  cost := t.acceptedt.toNat
  deadline := (rtfTaskGetPeriod t).toNat
  period := (rtfTaskGetPeriod t).toNat

/-! ### The priorities of a list -/

/-- The longest period is first, and shorter periods have higher priorities. -/
structure RM.Graded (heap : Heap) (as : List Addr) : Prop where
  sorted : (keysOf RM.period heap as).Pairwise (· ≥ ·)
  small : ∀ a ∈ as, RM.period (heap a) < 2 ^ 31
  above : ∀ a ∈ as, ∀ b ∈ as, RM.period (heap b) < RM.period (heap a) → (heap a).schedprio < (heap b).schedprio

/-- Where RM hands out priorities anew, it counts them up: it has as many as it has counted periods. -/
def RM.CountsUp (w : World) (i : ℕ) (a : Addr) : Prop :=
  match RM.leastLoadedCpu (w.plugin i) with
  | .ok c => RM.sameAsNext (w.assign i a c) (w.assign i a c a) (RM.inserted w i a c).2 = none →
      ¬ (w.statics (w.plugin i).dl).distPrio c + 1 > RM.window (w.plugin i)
  | .error _ => True

instance (w : World) (i : ℕ) (a : Addr) : Decidable (RM.CountsUp w i a) :=
  match h : RM.leastLoadedCpu (w.plugin i) with
  | .ok c =>
    decidable_of_iff
      (RM.sameAsNext (w.assign i a c) (w.assign i a c a) (RM.inserted w i a c).2 = none →
        (w.statics (w.plugin i).dl).distPrio c + 1 ≤ RM.window (w.plugin i))
      (by unfold RM.CountsUp; rw [h]; simp only [gt_iff_lt, UInt32.not_lt])
  | .error _ => isTrue (by unfold RM.CountsUp; rw [h]; trivial)

section Lists

variable {heap heap' : Heap} {as as' : List Addr}

theorem RM.Graded.congr (hG : RM.Graded heap as) (hp : ∀ a ∈ as, (heap' a).params = (heap a).params)
    (hs : ∀ a ∈ as, (heap' a).schedprio = (heap a).schedprio) : RM.Graded heap' as := by
  have hperiod : ∀ a ∈ as, RM.period (heap' a) = RM.period (heap a) := by
    intro a ha
    show (heap' a).params.period.toNat = (heap a).params.period.toNat
    rw [hp a ha]
  refine ⟨?_, ?_, ?_⟩
  · have hkeys : keysOf RM.period heap' as = keysOf RM.period heap as := List.map_congr_left hperiod
    rw [hkeys]
    exact hG.sorted
  · intro a ha
    rw [hperiod a ha]
    exact hG.small a ha
  · intro a ha b hb hlt
    rw [hperiod a ha, hperiod b hb] at hlt
    rw [hs a ha, hs b hb]
    exact hG.above a ha b hb hlt

theorem RM.Graded.sublist (hG : RM.Graded heap as) (hs : as'.Sublist as) : RM.Graded heap as' := by
  refine ⟨hG.sorted.sublist (hs.map _), ?_, ?_⟩
  · intro a ha
    exact hG.small a (hs.subset ha)
  · intro a ha b hb hlt
    exact hG.above a (hs.subset ha) b (hs.subset hb) hlt

end Lists

/-! ### Scheduling -/

section Schedule

variable {this : Plugin} {st : Statics} {heap : Heap} {c : ℕ}

/-- **Counting up** puts the shorter periods above the longer ones. -/
theorem RM.assign_above (hw : IntWindow this.toPluginInfo) (hnd : (this.tasks c).root.Nodup)
    (hs : (keysOf RM.period heap (this.tasks c).root).Pairwise (· ≥ ·))
    (hsmall : ∀ x ∈ keysOf RM.period heap (this.tasks c).root, x < 2 ^ 31) (hup : ¬ st.distPrio c > RM.window this)
    (hr : RM.Ranks this.toPluginInfo (st.distPrio c) (keysOf RM.period heap (this.tasks c).root)) :
    ∀ a ∈ (this.tasks c).root, ∀ b ∈ (this.tasks c).root, RM.period (heap b) < RM.period (heap a) →
      (RM.assignPriorities this st heap c a).schedprio < (RM.assignPriorities this st heap c b).schedprio := by
  obtain ⟨hmin, hle, hmax⟩ := hw
  obtain ⟨-, hcount⟩ := hr
  have hup' : ¬ st.distPrio c > UInt32.ofInt (this.prioMax - this.prioMin + 1) := hup
  rw [if_neg hup'] at hcount
  have hd : Discerned (keysOf RM.period heap (this.tasks c).root) :=
    discerned_small fun x hx => (hsmall x hx).trans (by omega)
  have hstart := ofInt_toNat (x := this.prioMin - 1) (by omega) (by omega)
  intro a ha b hb hlt
  obtain ⟨i, hi, rfl⟩ := List.getElem_of_mem ha
  obtain ⟨j, hj, rfl⟩ := List.getElem_of_mem hb
  have hki : i < (keysOf RM.period heap (this.tasks c).root).length := by rwa [keysOf_length]
  have hkj : j < (keysOf RM.period heap (this.tasks c).root).length := by rwa [keysOf_length]
  have hkey : ∀ i (hi : i < (this.tasks c).root.length) (hk : i < (keysOf RM.period heap (this.tasks c).root).length),
      (keysOf RM.period heap (this.tasks c).root)[i] = RM.period (heap (this.tasks c).root[i]) :=
    fun i hi hk => keysOf_getElem hi hk
  rw [← hkey i hi hki, ← hkey j hj hkj] at hlt
  have hij : i ≤ j := by
    -- the longer period is in front
    by_contra hji
    have := List.pairwise_iff_getElem.mp hs j i hkj hki (not_le.mp hji)
    omega
  have hrank := @rankAt_ne (UInt32.ofInt (-1)) _ i j hd hij hkj hlt.ne'
  have hlast := @rankAt_le (UInt32.ofInt (-1)) _ j hkj
  unfold RM.assignPriorities
  rw [if_neg hup, countLoop_rankAt hnd hi, countLoop_rankAt hnd hj, UInt32.lt_iff_toNat_lt,
    countUp_toNat (by omega), countUp_toNat (by omega)]
  omega

end Schedule

section World

variable {w w' : World} {i : ℕ} {a : Addr} {r : Res}

/-- The successor that shares its period is one of the list. -/
theorem RM.sameAsNext_mem {heap : Heap} {t : Task} {c : ℕ} {next : Addr}
    (h : RM.sameAsNext heap t (RM.inserted w i a c).2 = some next) :
    next ∈ ((w.plugin i).tasks c).root ∧ (heap next).params.period = t.params.period := by
  unfold RM.sameAsNext at h
  split at h
  · rename_i b rest hbehind
    split at h
    · rename_i heq
      cases h
      exact ⟨behind_mem hbehind, heq⟩
    · cases h
  · cases h

/-- The list the task is put on. -/
theorem RM.inserted_graded {c : ℕ} (hw : IntWindow (w.plugin i).toPluginInfo)
    (hnd : (a :: ((w.plugin i).tasks c).root).Nodup) (hG : RM.Graded w.heap ((w.plugin i).tasks c).root)
    (hperiod : RM.period (w.heap a) < 2 ^ 31) (hc : RM.leastLoadedCpu (w.plugin i) = .ok c)
    (ho : RM.Orderly w i a) (hu : RM.CountsUp w i a) {st : Statics} {heap : Heap}
    (hr : RM.rank ((w.plugin i).setTasks c (RM.inserted w i a c).1) (w.statics (w.plugin i).dl) (w.assign i a c) a c
      (RM.inserted w i a c).2 = .ok (st, heap)) :
    RM.Graded heap (RM.inserted w i a c).1.root := by
  have hperm : (RM.inserted w i a c).1.root.Perm (a :: ((w.plugin i).tasks c).root) :=
    rtfTasksetAddSortedPr_perm (w.assign i a c) ((w.plugin i).tasks c) a
  have ha : a ∉ ((w.plugin i).tasks c).root := (List.nodup_cons.mp hnd).1
  have hassign : ∀ b, RM.period (w.assign i a c b) = RM.period (w.heap b) := by
    intro b
    show (w.assign i a c b).params.period.toNat = (w.heap b).params.period.toNat
    rw [assign_params]
  have hper : ∀ b, RM.period (heap b) = RM.period (w.heap b) := by
    intro b
    rw [← hassign b, (RM.rank_frame hr).1 b]
    rfl
  have hold : RM.Graded (w.assign i a c) ((w.plugin i).tasks c).root := by
    refine hG.congr (fun b _ => assign_params w i a c b) ?_
    intro b hb
    have hne : b ≠ a := fun hba => ha (hba ▸ hb)
    rw [w.assign_ne i hne]
  have hsorted := (RM.inserted_sorted hold.sorted).1
  have hkeys : keysOf RM.period heap (RM.inserted w i a c).1.root =
      keysOf RM.period (w.assign i a c) (RM.inserted w i a c).1.root :=
    List.map_congr_left fun b _ => (hper b).trans (hassign b).symm
  have hsmall : ∀ b ∈ (RM.inserted w i a c).1.root, RM.period (w.heap b) < 2 ^ 31 := by
    intro b hb
    rcases List.mem_cons.mp (hperm.mem_iff.mp hb) with rfl | hb
    · exact hperiod
    · exact hG.small b hb
  refine ⟨by rw [hkeys]; exact hsorted, fun b hb => by rw [hper]; exact hsmall b hb, ?_⟩
  unfold RM.rank at hr
  split at hr
  · -- the task takes the place of its successor
    rename_i next hnext
    obtain ⟨hmem, heq⟩ := RM.sameAsNext_mem hnext
    cases hr
    let rep : Addr → Addr := fun b => if b = a then next else b
    have hrep : ∀ b ∈ (RM.inserted w i a c).1.root, rep b ∈ ((w.plugin i).tasks c).root ∧
        RM.period (w.assign i a c (rep b)) = RM.period (w.heap b) ∧
        (w.assign i a c (rep b)).schedprio =
          (Function.update (w.assign i a c) a
            { w.assign i a c a with schedprio := (w.assign i a c next).schedprio } b).schedprio := by
      intro b hb
      by_cases hba : b = a
      · subst hba
        have hpn : RM.period (w.assign i b c next) = RM.period (w.assign i b c b) := congrArg UInt64.toNat heq
        simp only [rep, if_true, Function.update_self]
        exact ⟨hmem, hpn.trans (hassign b), trivial⟩
      · have hb' := (List.mem_cons.mp (hperm.mem_iff.mp hb)).resolve_left hba
        simp only [rep, if_neg hba, Function.update_of_ne hba]
        exact ⟨hb', hassign b, trivial⟩
    intro x hx y hy hlt
    obtain ⟨hx', hxp, hxs⟩ := hrep x hx
    obtain ⟨hy', hyp, hys⟩ := hrep y hy
    rw [hper, hper] at hlt
    rw [← hxs, ← hys]
    exact hold.above _ hx' _ hy' (by rw [hxp, hyp]; exact hlt)
  · rename_i hnone
    obtain ⟨_, -, hr⟩ := bind_ok.mp hr
    obtain ⟨rfl, rfl⟩ := Prod.mk.inj (Except.ok.inj hr)
    unfold RM.Orderly at ho
    unfold RM.CountsUp at hu
    rw [hc] at ho hu
    have htasks := (w.plugin i).setTasks_self c (RM.inserted w i a c).1
    have hdist : ((w.statics (w.plugin i).dl).addDist c 1).distPrio c = (w.statics (w.plugin i).dl).distPrio c + 1 := by
      simp [Statics.addDist]
    have habove := @RM.assign_above ((w.plugin i).setTasks c (RM.inserted w i a c).1)
      ((w.statics (w.plugin i).dl).addDist c 1) (w.assign i a c) c hw
    rw [htasks, hdist] at habove
    have hrank := habove (hperm.nodup_iff.mpr hnd) hsorted ?_ (hu hnone) (ho hnone)
    · intro x hx y hy hlt
      rw [hper, hper] at hlt
      exact hrank x hx y hy (by rw [hassign, hassign]; exact hlt)
    · intro x hx
      obtain ⟨b, hb, rfl⟩ := List.mem_map.mp hx
      rw [hassign]
      exact hsmall b hb

/-- **Scheduling by RM** leaves all of its lists rate-monotonic. -/
theorem RM.schedule_graded (hw : IntWindow (w.plugin i).toPluginInfo)
    (hnd : ∀ c, (a :: ((w.plugin i).tasks c).root).Nodup)
    (hcpu : ∀ c, ∀ b ∈ ((w.plugin i).tasks c).root, (w.heap b).cpu = c)
    (hG : ∀ c, RM.Graded w.heap ((w.plugin i).tasks c).root) (hperiod : RM.period (w.heap a) < 2 ^ 31)
    (ho : RM.Orderly w i a) (hu : RM.CountsUp w i a) (h : RM.rtfPlgTaskSchedule w i a = .ok w') :
    ∀ d, RM.Graded w'.heap ((w'.plugin i).tasks d).root := by
  obtain ⟨c, st, heap, u, hc, hr, -, -, hw'⟩ := RM.schedule_ok h
  have hlist := RM.inserted_graded hw (hnd c) (hG c) hperiod hc ho hu hr
  have htasks : (w'.plugin i).tasks = Function.update (w.plugin i).tasks c (RM.inserted w i a c).1 := by
    simp [hw', World.setPlugin, World.setTask, World.setStatics, Plugin.setTasks, RM.inserted]
  have hsame : ∀ b, (w'.heap b).params = (heap b).params ∧ (w'.heap b).schedprio = (heap b).schedprio := by
    intro b
    by_cases hb : b = a
    · simp [hw', World.setPlugin, World.setTask, World.setStatics, hb]
    · simp [hw', World.setPlugin, World.setTask, World.setStatics, hb]
  intro d
  rw [htasks]
  by_cases hd : d = c
  · subst hd
    rw [Function.update_self]
    exact hlist.congr (fun b _ => (hsame b).1) fun b _ => (hsame b).2
  · rw [Function.update_of_ne hd]
    have hquiet : ∀ b ∈ ((w.plugin i).tasks d).root, w'.heap b = w.heap b := by
      intro b hb
      have hne : b ≠ a := fun hba => (List.nodup_cons.mp (hnd d)).1 (hba ▸ hb)
      refine RM.schedule_quiet hne ?_ h
      unfold RM.Renumbers
      rw [hc]
      rintro ⟨hbc, -⟩
      exact hd ((hcpu d b hb).symm.trans (hcpu c b hbc))
    refine (hG d).congr ?_ ?_
    · intro b hb
      rw [hquiet b hb]
    · intro b hb
      rw [hquiet b hb]

end World

/-! ### What RM grants -/

/-- The utilisation on the books covers what the task was granted. -/
structure RM.Backed (t : Task) : Prop where
  period : t.params.period ≠ 0
  rate : (t.acceptedt.toNat : ℚ) / ((rtfTaskGetPeriod t).toNat : ℚ) ≤ t.acceptedu

theorem RM.Backed.congr {t t' : Task} (h : RM.Backed t) (hp : t'.params = t.params) (ht : t'.acceptedt = t.acceptedt)
    (hu : t'.acceptedu = t.acceptedu) : RM.Backed t' := by
  obtain ⟨h1, h2⟩ := h
  have hperiod : rtfTaskGetPeriod t' = rtfTaskGetPeriod t := congrArg Params.period hp
  refine ⟨hp ▸ h1, ?_⟩
  rw [ht, hu, hperiod]
  exact h2

section Grant

variable {w w' : World} {i : ℕ} {a : Addr} {t : Task}

/-- The minimum is the period, or less. -/
theorem minDeclared_le_period (hp : t.params.period ≠ 0) :
    0 < (rtfTaskGetMinDeclared t).toNat ∧ (rtfTaskGetMinDeclared t).toNat ≤ (rtfTaskGetPeriod t).toNat := by
  have hpos : ∀ x : UInt64, x ≠ 0 → 0 < x.toNat := fun x hx => Nat.pos_of_ne_zero fun h0 => hx (UInt64.toNat_inj.mp h0)
  rw [← min_sporadic hp]
  refine ⟨lt_min ?_ ?_, min_le_right ..⟩
  · exact hpos _ (attrDeadline_ne hp)
  · exact hpos _ hp

theorem toInt_small {x : UInt64} (h : x.toNat < 2 ^ 31) : toInt x = x.toNat := by
  unfold toInt
  rw [Int.bmod_def]
  split <;> omega

theorem RM.accept_period {this : Plugin} {r : Res} (hacc : RM.rtfPlgTaskAccept this t = .ok r) (hr : r ≠ .no) :
    t.params.period ≠ 0 := by
  intro h0
  unfold RM.rtfPlgTaskAccept rtfTaskGetPeriod at hacc
  rw [if_pos h0] at hacc
  exact hr (Except.ok.inj hacc).symm

/-- **A grant is backed**: the runtime is granted, and booked over the period or less. -/
theorem RM.schedule_backed (hp : (w.heap a).params.period ≠ 0) (hsmall : RM.period (w.heap a) < 2 ^ 31)
    (h : RM.rtfPlgTaskSchedule w i a = .ok w') : RM.Backed (w'.heap a) := by
  obtain ⟨c, st, heap, u, -, hr, -, hu, rfl⟩ := RM.schedule_ok h
  have hpar : (heap a).params = (w.heap a).params := by
    rw [(RM.rank_frame hr).1 a]
    exact assign_params w i a c a
  simp only [World.setPlugin, World.setTask, World.setStatics, Function.update_self]
  obtain ⟨hmin, hle⟩ := minDeclared_le_period hp
  have hint : toInt (rtfTaskGetMinDeclared (w.heap a)) = (rtfTaskGetMinDeclared (w.heap a)).toNat :=
    toInt_small (hle.trans_lt hsmall)
  refine ⟨?_, ?_⟩
  · show (heap a).params.period ≠ 0
    rw [hpar]
    exact hp
  · show ((heap a).params.runtime.toNat : ℚ) / ((heap a).params.period.toNat : ℚ) ≤ u
    rw [hpar, hu]
    by_cases hrun : (w.heap a).params.runtime = 0
    · have hnone : rtfTaskGetUtil (w.heap a) = -1 := by
        unfold rtfTaskGetUtil utilOf
        rw [if_pos (.inr hrun)]
      rw [hnone, hrun]
      simp
    · obtain ⟨hpos, hdecl⟩ := declared_le_util hrun (t := w.heap a) (by rw [hint]; exact_mod_cast hmin)
      rw [if_pos (by linarith)]
      refine le_trans ?_ hdecl
      unfold declared
      refine div_le_div_of_nonneg_left (Nat.cast_nonneg _) ?_ ?_
      · exact_mod_cast hmin
      · exact_mod_cast hle

end Grant

/-! ### Runs -/

/-- A task that RM takes has a period below 2^31, and its walk, if there is one, counts up in the window. -/
def Rated (s : Sched) : Op → Prop
  | .create tp ppid => ∀ c ∈ assignee (s.alloc tp ppid) s.next, (s.plugin c.1).kind = .rm →
      tp.period.toNat < 2 ^ 31 ∧ RM.Orderly (s.alloc tp ppid).toWorld c.1 s.next ∧
        RM.CountsUp (s.alloc tp ppid).toWorld c.1 s.next
  | _ => True

instance (s : Sched) (o : Op) : Decidable (Rated s o) :=
  match o with
  | .create tp ppid => inferInstanceAs (Decidable (∀ c ∈ assignee (s.alloc tp ppid) s.next,
      (s.plugin c.1).kind = .rm → tp.period.toNat < 2 ^ 31 ∧ RM.Orderly (s.alloc tp ppid).toWorld c.1 s.next ∧
        RM.CountsUp (s.alloc tp ppid).toWorld c.1 s.next))
  | .change _ _ | .attach _ _ | .detach _ | .destroy _ | .delete _ => inferInstanceAs (Decidable True)

/-- The lists and the grants of RM. -/
structure RMRates (n : ℕ) (w : World) (ts : List Addr) : Prop where
  windows : ∀ i < n, (w.plugin i).kind = .rm → IntWindow (w.plugin i).toPluginInfo
  graded : ∀ i < n, (w.plugin i).kind = .rm → ∀ c, RM.Graded w.heap ((w.plugin i).tasks c).root
  backed : ∀ i < n, (w.plugin i).kind = .rm → ∀ a ∈ ts, (w.heap a).pluginid = i → RM.Backed (w.heap a)

/-- RM's lists are rate-monotonic and its grants backed; the taskset is the books'. -/
structure OnRates (s : Sched) : Prop where
  tallied : Tallied s
  listed : Listed s
  rates : RMRates s.numOfPlugins s.toWorld s.taskset.root

namespace RMRates

variable {n : ℕ} {w w' : World} {ts ts' : List Addr} {i : ℕ} {a : Addr} {r : Res}

theorem perm (hR : RMRates n w ts) (hp : ts.Perm ts') : RMRates n w ts' :=
  ⟨hR.windows, hR.graded, fun i hi hk a ha => hR.backed i hi hk a (hp.mem_iff.mpr ha)⟩

/-- Threads are of no account. -/
theorem congr (hR : RMRates n w ts) (hL : Lists n w ts) (hp : w'.plugin = w.plugin)
    (hs : ∀ b ∈ ts, w'.heap b = { w.heap b with tid := (w'.heap b).tid }) : RMRates n w' ts := by
  refine ⟨?_, ?_, ?_⟩
  · rw [hp]
    exact hR.windows
  · rw [hp]
    intro i hi hk c
    have hmem : ∀ b ∈ ((w.plugin i).tasks c).root, b ∈ ts := by
      intro b hb
      have hkl : (w.plugin i).kind.keepsList := by rw [hk]; rfl
      exact (mem_placed.mp ((hL.list i hi hkl c).mem_iff.mp hb)).1
    refine (hR.graded i hi hk c).congr ?_ ?_
    · intro b hb
      rw [hs b (hmem b hb)]
    · intro b hb
      rw [hs b (hmem b hb)]
  · rw [hp]
    intro i hi hk b hb hown
    rw [hs b hb] at hown ⊢
    exact (hR.backed i hi hk b hb hown).congr rfl rfl rfl

/-- A plugin writes new priorities to its own tasks. -/
theorem renumbers_own {b : Addr} (hL : Lists n w ts) (hi : i < n) (h : Renumbers w i a b) :
    (w.heap b).pluginid = i := by
  have hown : ∀ c, (w.plugin i).kind.keepsList → b ∈ ((w.plugin i).tasks c).root → (w.heap b).pluginid = i :=
    fun c hkl hb => (mem_placed.mp ((hL.list i hi hkl c).mem_iff.mp hb)).2.1
  unfold Renumbers at h
  rcases hk : (w.plugin i).kind with _ | _ | _ | _ <;> rw [hk] at h hown
  · exact h.elim
  · change RM.Renumbers w i a b at h
    unfold RM.Renumbers at h
    rcases hc : RM.leastLoadedCpu (w.plugin i) with _ | c <;> rw [hc] at h
    · exact h.elim
    · exact hown c rfl h.1
  · change RR.Renumbers w i a b at h
    unfold RR.Renumbers at h
    rcases hc : RR.leastLoadedCpu (w.plugin i) with _ | c <;> rw [hc] at h
    · exact h.elim
    · exact hown c rfl h.1
  · exact h.elim

/-- **Placing a task** on plugin `i`. -/
theorem place (hR : RMRates n w ts) (hL : Lists n w ts) (hnd : ts.Nodup) (ha : a ∉ ts) (hi : i < n)
    (hid : (w.plugin i).id = i) (hacc : rtfPlgTaskAccept (w.plugin i) (w.heap a) = .ok r) (hr : r ≠ .no)
    (hg : (w.plugin i).kind = .rm → RM.period (w.heap a) < 2 ^ 31 ∧ RM.Orderly w i a ∧ RM.CountsUp w i a)
    (h : rtfPlgTaskSchedule w i a = .ok w') : RMRates n w' (a :: ts) := by
  obtain ⟨c, hP⟩ := schedule_placed h
  have hlist : ∀ j < n, (w.plugin j).kind = .rm → ∀ d, ∀ b ∈ ((w.plugin j).tasks d).root,
      b ∈ ts ∧ (w.heap b).pluginid = j ∧ (w.heap b).cpu = d := by
    intro j hj hk d b hb
    have hkl : (w.plugin j).kind.keepsList := by rw [hk]; rfl
    exact mem_placed.mp ((hL.list j hj hkl d).mem_iff.mp hb)
  have hne : ∀ b ∈ ts, b ≠ a := fun b hb hba => ha (hba ▸ hb)
  have hpid : (w'.heap a).pluginid = i := by rw [hP.task, hid]
  refine ⟨?_, ?_, ?_⟩
  · intro j hj hk
    rw [hP.info_eq] at hk ⊢
    exact hR.windows j hj hk
  · intro j hj hk d
    rw [hP.info_eq] at hk
    by_cases hji : j = i
    · subst hji
      have hnodup : ∀ d, (a :: ((w.plugin j).tasks d).root).Nodup := by
        intro d
        have hkl : (w.plugin j).kind.keepsList := by rw [hk]; rfl
        refine List.nodup_cons.mpr ⟨fun hm => ha (hlist j hj hk d a hm).1, ?_⟩
        exact (hL.list j hj hkl d).nodup_iff.mpr (hnd.filter _)
      obtain ⟨hsmall, ho, hu⟩ := hg hk
      unfold rtfPlgTaskSchedule at h
      rw [hk] at h
      exact RM.schedule_graded (hR.windows j hj hk) hnodup (fun d b hb => (hlist j hj hk d b hb).2.2)
        (hR.graded j hj hk) hsmall ho hu h d
    · -- the lists of other plugins are not written to
      rw [hP.others j hji]
      have haway : ∀ b ∈ ((w.plugin j).tasks d).root, w'.heap b = w.heap b := by
        intro b hb
        obtain ⟨hbts, hown, -⟩ := hlist j hj hk d b hb
        refine schedule_quiet (hne b hbts) ?_ h
        intro hren
        have := renumbers_own hL hi hren
        omega
      refine (hR.graded j hj hk d).congr ?_ ?_
      · intro b hb
        rw [haway b hb]
      · intro b hb
        rw [haway b hb]
  · intro j hj hk b hb hown
    rw [hP.info_eq] at hk
    rcases List.mem_cons.mp hb with rfl | hb
    · obtain rfl : i = j := by
        rw [hpid] at hown
        exact_mod_cast hown
      unfold rtfPlgTaskSchedule at h
      unfold rtfPlgTaskAccept at hacc
      rw [hk] at h hacc
      exact RM.schedule_backed (RM.accept_period hacc hr) (hg hk).1 h
    · have hrest := hP.rest b (hne b hb)
      rw [hrest] at hown ⊢
      exact (hR.backed j hj hk b hb hown).congr rfl rfl rfl

/-- **Releasing a task** by the plugin that holds it. -/
theorem release (hR : RMRates n w (a :: ts)) (ha : a ∉ ts) (h : Released w i a r w') : RMRates n w' ts := by
  have hpar : ∀ b, (w'.heap b).params = (w.heap b).params := by
    intro b
    rw [h.task_eq b]
  have hprio : ∀ b, (w'.heap b).schedprio = (w.heap b).schedprio := by
    intro b
    rw [h.task_eq b]
  refine ⟨?_, ?_, ?_⟩
  · intro j hj hk
    rw [h.info_eq] at hk ⊢
    exact hR.windows j hj hk
  · intro j hj hk d
    rw [h.info_eq] at hk
    have hsub : ((w'.plugin j).tasks d).root.Sublist ((w.plugin j).tasks d).root := by
      by_cases hji : j = i
      · subst hji
        rw [h.list]
        split
        · unfold rtfTasksetRemoveByRsvid
          rw [(listRemove_eq _ _).2]
          exact List.eraseP_sublist
        · exact .refl _
      · rw [h.others j hji]
    exact ((hR.graded j hj hk d).sublist hsub).congr (fun b _ => hpar b) fun b _ => hprio b
  · intro j hj hk b hb hbj
    have hne : b ≠ a := fun hba => ha (hba ▸ hb)
    rw [h.info_eq] at hk
    rw [h.heap_ne hne] at hbj ⊢
    exact hR.backed j hj hk b (List.mem_cons_of_mem a hb) hbj

end RMRates

section Steps

variable {s s' : Sched} {r : Res}

theorem onRates_create {tp : Params} {ppid : Pid} (hO : OnRates s) (hg : FreshId s (.create tp ppid))
    (hrated : Rated s (.create tp ppid)) (h : rtfSchedulerTaskCreate s tp ppid = .ok (r, s')) : OnRates s' := by
  refine ⟨tallied_create hO.tallied h, listed_create hO.tallied hO.listed hg h, ?_⟩
  have hsane := hO.tallied.sane
  have hheap : ∀ b ∈ s.taskset.root, (s.alloc tp ppid).heap b = s.heap b := fun b hb => hsane.alloc_heap tp ppid hb
  have hlists : Lists s.numOfPlugins (s.alloc tp ppid).toWorld s.taskset.root := by
    refine Lists.congr hO.listed rfl ?_
    intro b hb
    rw [hheap b hb]
    exact ⟨rfl, rfl, rfl⟩
  have halloc : RMRates s.numOfPlugins (s.alloc tp ppid).toWorld s.taskset.root := by
    refine hO.rates.congr hO.listed rfl ?_
    intro b hb
    rw [hheap b hb]
  rcases create_ok h with ⟨-, rfl⟩ | ⟨i, w, hch, hs, rfl⟩
  · exact halloc
  · obtain ⟨hi, hacc, hr⟩ := assignee_some hch
    have hself := s.alloc_self tp ppid
    refine halloc.place hlists hO.tallied.tallies.nodup hsane.next_not_mem hi (hsane.ids i hi) ?_ hr ?_ hs
    · exact hacc
    · intro hk
      obtain ⟨hsmall, ho, hu⟩ := hrated (i, r) hch hk
      refine ⟨?_, ho, hu⟩
      rw [hself]
      exact hsmall

/-- A step that changes no task, and creates none that RM does not rate, keeps RM's lists and grants. -/
theorem onRates_step {o : Op} (hO : OnRates s) (hplain : PlainOp o) (hg : KeepsOwner s o) (hrated : Rated s o)
    (h : step s o = .ok (r, s')) : OnRates s' := by
  refine step_inv ?_ ?_ ?_ ?_ hO h
  · rintro tp ppid rfl hcreate
    exact onRates_create hO hg.2 hrated hcreate
  · rintro tp id rfl _
    exact hplain.elim
  · intro heap k hheap
    refine ⟨tallied_thread hO.tallied hheap, listed_thread hO.listed hheap, ?_⟩
    exact hO.rates.congr hO.listed rfl fun b _ => hheap b
  · intro key s a s' hO hrm
    refine ⟨tallied_removes hO.tallied hrm, listed_removes hO.tallied hO.listed hrm, ?_⟩
    obtain ⟨-, hp, -⟩ := hrm.root
    obtain ⟨ts, i, r, w, -, -, -, hr, rfl⟩ := hrm
    have hat := (List.nodup_cons.mp (hp.nodup_iff.mp hO.tallied.tallies.nodup)).1
    exact (hO.rates.perm hp).release hat (release_released hr)

end Steps

theorem onRates_start {alloc : ℕ → Option ℕ} {load : List UInt8 → Option Image} {confs : List ConfPlugin}
    {plgs : List Plugin} (hinit : rtfPluginsInit alloc load confs = some plgs) (hwin : PosixWindows load confs)
    (k : Kernel) : OnRates (Sched.start plgs k) := by
  refine ⟨tallied_start hinit k, listed_start hinit k, ?_, ?_, by simp [Sched.start]⟩
  · intro i hi hk
    obtain ⟨c, img, hci, himg, hp⟩ := start_plugin hinit k hi
    rw [hp] at hk ⊢
    change img.kind = .rm at hk
    have hwindow : WindowOk (initPlugin alloc i c img).toPluginInfo :=
      hwin c (List.mem_of_getElem? hci) img himg (by rw [hk]; decide)
    exact hwindow.int
  · intro i hi hk c
    obtain ⟨_, _, -, -, hp⟩ := start_plugin hinit k hi
    rw [hp]
    exact ⟨List.Pairwise.nil, fun a ha => absurd ha List.not_mem_nil, fun a ha => absurd ha List.not_mem_nil⟩

/-- **What is granted on a core of RM** fits in it: the utilisations sum to 1 at most. -/
theorem rate_le_one {s : Sched} (hO : OnRates s) (hC : Covered s) {i : ℕ} (hi : i < s.numOfPlugins)
    (hk : (s.plugin i).kind = .rm) (c : ℕ) :
    ∑ a ∈ (placed s.heap s.taskset.root i c).toFinset,
      ((s.heap a).rate.cost : ℚ) / ((s.heap a).rate.period : ℚ) ≤ 1 := by
  have hutil : (s.plugin i).kind.keepsUtil := by rw [hk]; rfl
  have hnd : (placed s.heap s.taskset.root i c).Nodup := hO.tallied.tallies.nodup.filter _
  have hfree := hC.free i hi hutil c
  rw [hO.tallied.tallies.util i hi hutil c] at hfree
  calc ∑ a ∈ (placed s.heap s.taskset.root i c).toFinset, ((s.heap a).rate.cost : ℚ) / ((s.heap a).rate.period : ℚ)
      ≤ ∑ a ∈ (placed s.heap s.taskset.root i c).toFinset, (s.heap a).acceptedu := by
        refine Finset.sum_le_sum ?_
        intro a ha
        obtain ⟨hmem, hpid, -⟩ := mem_placed.mp (List.mem_toFinset.mp ha)
        exact (hO.rates.backed i hi hk a hmem hpid).rate
    _ = granted s.heap (placed s.heap s.taskset.root i c) := List.sum_toFinset _ hnd
    _ ≤ 1 := by linarith

namespace RatesExample

/-- `runtime` in every `period`. -/
def every (runtime period : UInt64) : Params := { Params.zero with runtime := runtime, period := period }

/-- Three tasks with periods that divide one another, one of which leaves. -/
def ops : List Op := [.create (every 20 100) 1, .create (every 10 50) 1, .create (every 5 25) 1, .destroy 3]

def start : Sched := Sched.start WindowExample.twoPlgs BooksExample.kernel

/-- The second task has the job `true`, the first has `false`. -/
def task (k : Bool) : Addr := if k then 1 else 0

/-- A job of one slot each, at once. -/
def jobs : Edf.Jobs Bool := ⟨fun _ => 0, fun k => if k then 50 else 100, fun _ => 1⟩

/-- The shorter period first. -/
def inTurn (t : ℕ) : Option Bool := if t = 0 then some true else if t = 1 then some false else none

theorem service_inTurn (k : Bool) (t : ℕ) : Edf.service inTurn k t = min (t - if k then 0 else 1) 1 := by
  induction t with
  | zero => simp [Edf.service]
  | succ t ih =>
    rw [Edf.service_succ, ih]
    rcases t with _ | _ | t <;> cases k <;> simp [inTurn]

theorem isFixed_inTurn {prio : Bool → ℕ} (hprio : prio false ≤ prio true) :
    FixedPriority.IsFixed jobs prio inTurn := by
  have hpend : ∀ t k, Edf.Pending jobs inTurn k t ↔ t = 0 ∨ t = 1 ∧ k = false := by
    intro t k
    simp only [Edf.Pending, jobs, service_inTurn]
    cases k
    · simp
      omega
    · simp
  refine ⟨?_, ?_, ?_⟩
  · intro t k hr
    rw [hpend]
    rcases t with _ | _ | t <;> simp [inTurn] at hr
    · exact .inl rfl
    · exact .inr ⟨rfl, hr⟩
  · intro t k k' hr hp
    rw [hpend] at hp
    rcases hp with rfl | ⟨rfl, rfl⟩
    · obtain rfl : true = k := by simpa [inTurn] using hr
      cases k' <;> simp [hprio]
    · obtain rfl : false = k := by simpa [inTurn] using hr
      exact le_rfl
  · intro t k hr hp
    rw [hpend] at hp
    rcases hp with rfl | ⟨rfl, -⟩ <;> simp [inTurn] at hr

end RatesExample

end Retif
