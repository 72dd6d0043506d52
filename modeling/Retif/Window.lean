/-
# Priorities stay in the window

The real priority of a task is written when it is scheduled, and again
whenever its core's priorities are handed out anew. RR's counters are exact
over whole runs (`RR.Exact`), so its walk hands out as many priorities as it
counted; RM's `dist_prio` is taken down when a twin is found rather than when
none is, so nothing relates it to the list and what its walk needs is asked of
every scheduling (`Orderly`).

Key definitions: `Orderly`, `RR.Exact`, `Priorities`, `WithinWindows`.
Key theorems: `schedule_window`, `RR.exact_schedule`, `RR.exact_release`,
`Priorities.place`, `Priorities.release`, `window_run`, `not_window_run`.
-/
import Retif.Config
import Retif.Counters

namespace Retif

open CList

/-! ### What a scheduling needs -/

/-- Where RM hands out priorities anew, the walk stays in the window. -/
def RM.Orderly (w : World) (i : ℕ) (a : Addr) : Prop :=
  match RM.leastLoadedCpu (w.plugin i) with
  | .ok c =>
    let inserted := rtfTasksetAddSortedPr (w.assign i a c) ((w.plugin i).tasks c) a
    RM.sameAsNext (w.assign i a c) (w.assign i a c a) inserted.2 = none →
      RM.Ranks (w.plugin i).toPluginInfo ((w.statics (w.plugin i).dl).distPrio c + 1)
        (keysOf RM.period (w.assign i a c) inserted.1.root)
  | .error _ => True

/-- RR's counters have a row for the declared priority, and where RR remaps, no
task of the core has priority 0. -/
def RR.Orderly (w : World) (i : ℕ) (a : Addr) : Prop :=
  (w.heap a).params.priority.toNat < MAX_PRIO ∧
    match RR.leastLoadedCpu (w.plugin i) with
    | .ok c =>
      (w.statics (w.plugin i).dl).nPerPrio c (w.heap a).params.priority.toNat = 0 →
        (w.statics (w.plugin i).dl).distPrio c + 1 > RR.window (w.plugin i) →
          ∀ b ∈ a :: ((w.plugin i).tasks c).root, (w.heap b).params.priority ≠ 0
    | .error _ => True

/-- The declared priority is one of `SCHED_FIFO`'s, or little above. -/
def FP.Orderly (w : World) (i : ℕ) (a : Addr) : Prop :=
  ((w.plugin i).prioMax - (w.plugin i).prioMin) * (((w.heap a).params.priority.toNat : ℤ) - 99) < 98

def Orderly (w : World) (i : ℕ) (a : Addr) : Prop :=
  match (w.plugin i).kind with
  | .edf => True
  | .rm => RM.Orderly w i a
  | .rr => RR.Orderly w i a
  | .fp => FP.Orderly w i a

instance (w : World) (i : ℕ) (a : Addr) : Decidable (RM.Orderly w i a) :=
  match h : RM.leastLoadedCpu (w.plugin i) with
  | .ok c =>
    decidable_of_iff
      (RM.sameAsNext (w.assign i a c) (w.assign i a c a)
          (rtfTasksetAddSortedPr (w.assign i a c) ((w.plugin i).tasks c) a).2 = none →
        RM.Ranks (w.plugin i).toPluginInfo ((w.statics (w.plugin i).dl).distPrio c + 1)
          (keysOf RM.period (w.assign i a c)
            (rtfTasksetAddSortedPr (w.assign i a c) ((w.plugin i).tasks c) a).1.root))
      (by unfold RM.Orderly; rw [h])
  | .error _ => isTrue (by unfold RM.Orderly; rw [h]; trivial)

instance (w : World) (i : ℕ) (a : Addr) : Decidable (RR.Orderly w i a) :=
  match h : RR.leastLoadedCpu (w.plugin i) with
  | .ok c =>
    decidable_of_iff
      ((w.heap a).params.priority.toNat < MAX_PRIO ∧
        ((w.statics (w.plugin i).dl).nPerPrio c (w.heap a).params.priority.toNat = 0 →
          (w.statics (w.plugin i).dl).distPrio c + 1 > RR.window (w.plugin i) →
            ∀ b ∈ a :: ((w.plugin i).tasks c).root, (w.heap b).params.priority ≠ 0))
      (by unfold RR.Orderly; rw [h])
  | .error _ =>
    decidable_of_iff ((w.heap a).params.priority.toNat < MAX_PRIO) (by unfold RR.Orderly; rw [h]; simp)

instance (w : World) (i : ℕ) (a : Addr) : Decidable (FP.Orderly w i a) := by
  unfold FP.Orderly; infer_instance

instance (w : World) (i : ℕ) (a : Addr) : Decidable (Orderly w i a) :=
  match h : (w.plugin i).kind with
  | .edf => isTrue (by unfold Orderly; rw [h]; trivial)
  | .rm => decidable_of_iff (RM.Orderly w i a) (by unfold Orderly; rw [h])
  | .rr => decidable_of_iff (RR.Orderly w i a) (by unfold Orderly; rw [h])
  | .fp => decidable_of_iff (FP.Orderly w i a) (by unfold Orderly; rw [h])

/-! ### Scheduling -/

/-- The node behind the inserted one was on the list. -/
theorem behind_mem {ts : Taskset} {a b : Addr} {cmpfun : Addr → Addr → ℤ} {rest : List Addr}
    (h : (listAddSorted ts a cmpfun).2 = b :: rest) : b ∈ ts.root := by
  rw [(listAddSorted_eq ts a cmpfun).2] at h
  obtain ⟨pre, h1, -⟩ := addSeek_spec a cmpfun ts.root
  rw [h1, h]
  simp

section Scheduling

variable {w w' : World} {i : ℕ} {a : Addr}

/-- The other records keep their real priority, or get one of the plugin's
because they are on its list. -/
def OthersIn (w : World) (i : ℕ) (a : Addr) (h : Heap) : Prop :=
  ∀ b, b ≠ a → h b = w.heap b ∨
    (InWindow (w.plugin i).toPluginInfo (h b).schedprio ∧ (w.plugin i).kind.keepsList ∧
      ∃ c, b ∈ ((w.plugin i).tasks c).root)

/-- A task that takes the priority of one on the list is in the window. -/
theorem window_successor {c : ℕ} {next : Addr} (hnd : (a :: ((w.plugin i).tasks c).root).Nodup)
    (hlist : ∀ b ∈ ((w.plugin i).tasks c).root, InWindow (w.plugin i).toPluginInfo (w.heap b).schedprio)
    (hnext : next ∈ ((w.plugin i).tasks c).root) {h : Heap}
    (hh : h = Function.update (w.assign i a c) a
      { w.assign i a c a with schedprio := (w.assign i a c next).schedprio }) :
    InWindow (w.plugin i).toPluginInfo (h a).schedprio ∧ OthersIn w i a h := by
  have hne : next ≠ a := fun he => (List.nodup_cons.mp hnd).1 (he ▸ hnext)
  rw [hh]
  refine ⟨?_, ?_⟩
  · rw [Function.update_self]
    show InWindow _ (w.assign i a c next).schedprio
    rw [w.assign_ne i hne]
    exact hlist next hnext
  · intro b hb
    left
    rw [Function.update_of_ne hb, w.assign_ne i hb]

/-- So are all tasks of the list when it is ranked anew, and the records off the list stay. -/
theorem window_ranked {c : ℕ} {ts : Taskset} {h : Heap} (hkeeps : (w.plugin i).kind.keepsList)
    (hperm : ts.root.Perm (a :: ((w.plugin i).tasks c).root))
    (hall : ∀ b ∈ ts.root, InWindow (w.plugin i).toPluginInfo (h b).schedprio)
    (haway : ∀ b, b ∉ ts.root → h b = w.assign i a c b) :
    InWindow (w.plugin i).toPluginInfo (h a).schedprio ∧ OthersIn w i a h := by
  refine ⟨hall a (hperm.mem_iff.mpr (List.mem_cons_self ..)), ?_⟩
  intro b hb
  by_cases hm : b ∈ ts.root
  · right
    refine ⟨hall b hm, hkeeps, c, ?_⟩
    rcases List.mem_cons.mp (hperm.mem_iff.mp hm) with hba | hm
    · exact absurd hba hb
    · exact hm
  · left
    rw [← w.assign_ne i hb c]
    exact haway b hm

theorem FP.schedule_window (hw : WindowOk (w.plugin i).toPluginInfo) (ho : FP.Orderly w i a)
    (h : FP.rtfPlgTaskSchedule w i a = .ok w') :
    InWindow (w.plugin i).toPluginInfo (w'.heap a).schedprio ∧ OthersIn w i a w'.heap := by
  obtain ⟨c, -, -, rfl⟩ := FP.schedule_ok h
  refine ⟨?_, fun b hb => .inl (Function.update_of_ne hb _ _)⟩
  simp only [World.setPlugin, World.setTask, Function.update_self]
  obtain ⟨h1, h2, h3⟩ := hw
  unfold FP.realPriority
  split
  · have := ofInt_toNat (x := (w.plugin i).prioMin) (by omega) (by omega)
    unfold InWindow
    omega
  · rename_i hne
    have hpos : 1 ≤ (w.heap a).params.priority.toNat :=
      Nat.pos_of_ne_zero fun h0 => hne (UInt32.toNat_inj.mp h0)
    exact FP.remap_window h1 h2 (by omega) hpos ho

theorem RM.schedule_window (hk : (w.plugin i).kind = .rm) (hw : WindowOk (w.plugin i).toPluginInfo)
    (hnd : ∀ c, (a :: ((w.plugin i).tasks c).root).Nodup)
    (hlist : ∀ c, ∀ b ∈ ((w.plugin i).tasks c).root, InWindow (w.plugin i).toPluginInfo (w.heap b).schedprio)
    (ho : RM.Orderly w i a) (h : RM.rtfPlgTaskSchedule w i a = .ok w') :
    InWindow (w.plugin i).toPluginInfo (w'.heap a).schedprio ∧ OthersIn w i a w'.heap := by
  obtain ⟨c, st, heap, u, hc, hr, -, -, rfl⟩ := RM.schedule_ok h
  unfold RM.Orderly at ho
  rw [hc] at ho
  have hperm := rtfTasksetAddSortedPr_perm (w.assign i a c) ((w.plugin i).tasks c) a
  suffices hs : InWindow (w.plugin i).toPluginInfo (heap a).schedprio ∧ OthersIn w i a heap by
    refine ⟨?_, ?_⟩
    · simp only [World.setPlugin, World.setTask, World.setStatics, Function.update_self]
      exact hs.1
    · intro b hb
      simp only [World.setPlugin, World.setTask, World.setStatics, Function.update_of_ne hb]
      exact hs.2 b hb
  unfold RM.rank at hr
  split at hr
  · rename_i next hnext
    cases hr
    have hmem : next ∈ ((w.plugin i).tasks c).root := by
      unfold RM.sameAsNext at hnext
      split at hnext
      · rename_i b rest hbehind
        split at hnext
        · cases hnext
          exact behind_mem hbehind
        · cases hnext
      · cases hnext
    exact window_successor (hnd c) (hlist c) hmem rfl
  · rename_i hnone
    obtain ⟨_, -, hr⟩ := bind_ok.mp hr
    cases hr
    have hall : ∀ b ∈ (rtfTasksetAddSortedPr (w.assign i a c) ((w.plugin i).tasks c) a).1.root,
        InWindow (w.plugin i).toPluginInfo (RM.assignPriorities
          ((w.plugin i).setTasks c (rtfTasksetAddSortedPr (w.assign i a c) ((w.plugin i).tasks c) a).1)
          ((w.statics (w.plugin i).dl).addDist c 1) (w.assign i a c) c b).schedprio := by
      have htasks := (w.plugin i).setTasks_self c (rtfTasksetAddSortedPr (w.assign i a c) ((w.plugin i).tasks c) a).1
      have hdist : ((w.statics (w.plugin i).dl).addDist c 1).distPrio c =
          (w.statics (w.plugin i).dl).distPrio c + 1 := by simp [Statics.addDist]
      have hassign := @RM.assign_window ((w.plugin i).setTasks c (rtfTasksetAddSortedPr (w.assign i a c)
        ((w.plugin i).tasks c) a).1) ((w.statics (w.plugin i).dl).addDist c 1) (w.assign i a c) c hw.int
        (by rw [htasks]; exact hperm.nodup_iff.mpr (hnd c)) (by rw [htasks, hdist]; exact ho hnone)
      rw [htasks] at hassign
      exact hassign
    refine window_ranked (by rw [hk]; rfl) hperm hall ?_
    intro b hm
    refine (RM.assignPriorities_frame _ _ _ c).2 b ?_
    rw [Plugin.setTasks_self]
    exact hm

theorem RR.schedule_window (hk : (w.plugin i).kind = .rr) (hw : WindowOk (w.plugin i).toPluginInfo)
    (hnd : ∀ c, (a :: ((w.plugin i).tasks c).root).Nodup)
    (hlist : ∀ c, ∀ b ∈ ((w.plugin i).tasks c).root, InWindow (w.plugin i).toPluginInfo (w.heap b).schedprio)
    (hex : ∀ c, RR.Exact (w.plugin i) (w.statics (w.plugin i).dl) w.heap c)
    (ho : RR.Orderly w i a) (h : RR.rtfPlgTaskSchedule w i a = .ok w') :
    InWindow (w.plugin i).toPluginInfo (w'.heap a).schedprio ∧ OthersIn w i a w'.heap := by
  obtain ⟨c, hc, hp, -, hr⟩ := RR.schedule_ranked h
  unfold RR.Orderly at ho
  rw [hc] at ho
  obtain ⟨-, ho⟩ := ho
  have hperm : (RR.inserted w i a c).1.root.Perm (a :: ((w.plugin i).tasks c).root) :=
    rtfTasksetAddSortedPrio_perm _ _ a
  have hcounted := RR.inserted_exact (hex c) hp hr
  have hst := RR.rank_statics hr
  have hpar : (w.assign i a c a).params = (w.heap a).params := assign_params w i a c a
  unfold RR.rank at hr
  split at hr
  · rename_i hone
    rw [if_pos hone] at hst
    have hheap := congrArg Prod.snd (Except.ok.inj hr)
    simp only at hheap
    have htasks := (w.plugin i).setTasks_self c (RR.inserted w i a c).1
    have hdist : (w'.statics (w.plugin i).dl).distPrio c = (w.statics (w.plugin i).dl).distPrio c + 1 := by
      rw [hst]
      simp [Statics.addDist, Statics.addPerPrio]
    have hzero : (w.statics (w.plugin i).dl).nPerPrio c (w.heap a).params.priority.toNat = 0 := by
      rw [hpar] at hone
      simpa [Statics.addPerPrio] using hone
    have hall : ∀ b ∈ (RR.inserted w i a c).1.root,
        InWindow (w.plugin i).toPluginInfo (w'.heap b).schedprio := by
      rw [← hheap, ← hst]
      have hassign := @RR.assign_window ((w.plugin i).setTasks c (RR.inserted w i a c).1)
        (w'.statics (w.plugin i).dl) (w.assign i a c) c hw.int
        (by rw [htasks]; exact hperm.nodup_iff.mpr (hnd c)) hcounted.sorted hcounted.small hcounted.dist ?_
      · rw [htasks] at hassign
        exact hassign
      · intro hgt x hx
        rw [hdist] at hgt
        rw [htasks] at hx
        obtain ⟨b, hb, rfl⟩ := List.mem_map.mp hx
        have hb0 := ho hzero hgt b (hperm.mem_iff.mp hb)
        show (w.assign i a c b).params.priority.toNat ≠ 0
        rw [assign_params]
        exact fun h0 => hb0 (UInt32.toNat_inj.mp h0)
    refine window_ranked (by rw [hk]; rfl) hperm hall ?_
    intro b hm
    rw [← hheap]
    refine (RR.assignPriorities_frame _ _ _ c).2 b ?_
    rw [htasks]
    exact hm
  · split at hr
    · cases hr
    · rename_i next rest hbehind
      have hheap := congrArg Prod.snd (Except.ok.inj hr)
      simp only at hheap
      exact window_successor (hnd c) (hlist c) (behind_mem hbehind) hheap.symm

/-- **Scheduling stays in the window** of the plugin that schedules. -/
theorem schedule_window (hk : (w.plugin i).kind ≠ .edf) (hw : WindowOk (w.plugin i).toPluginInfo)
    (hnd : (w.plugin i).kind.keepsList → ∀ c, (a :: ((w.plugin i).tasks c).root).Nodup)
    (hlist : (w.plugin i).kind.keepsList → ∀ c, ∀ b ∈ ((w.plugin i).tasks c).root,
      InWindow (w.plugin i).toPluginInfo (w.heap b).schedprio)
    (hex : (w.plugin i).kind = .rr → ∀ c, RR.Exact (w.plugin i) (w.statics (w.plugin i).dl) w.heap c)
    (ho : Orderly w i a) (h : rtfPlgTaskSchedule w i a = .ok w') :
    InWindow (w.plugin i).toPluginInfo (w'.heap a).schedprio ∧ OthersIn w i a w'.heap := by
  unfold Orderly at ho
  unfold rtfPlgTaskSchedule at h
  rcases hkind : (w.plugin i).kind with _ | _ | _ | _ <;> rw [hkind] at ho h
  · exact absurd hkind hk
  · have hkeeps : (w.plugin i).kind.keepsList := by
      rw [hkind]
      rfl
    exact RM.schedule_window hkind hw (hnd hkeeps) (hlist hkeeps) ho h
  · have hkeeps : (w.plugin i).kind.keepsList := by
      rw [hkind]
      rfl
    exact RR.schedule_window hkind hw (hnd hkeeps) (hlist hkeeps) (hex hkind) ho h
  · exact FP.schedule_window hw ho h

end Scheduling

/-! ### The invariant -/

/-- The real priorities of `ts` are in the windows of the plugins that hold
them, and RR's counters count its lists. -/
structure Priorities (n : ℕ) (w : World) (ts : List Addr) : Prop where
  windows : ∀ i < n, (w.plugin i).kind ≠ .edf → WindowOk (w.plugin i).toPluginInfo
  files : ∀ i < n, ∀ j < n, (w.plugin i).dl = (w.plugin j).dl → i = j
  counters : ∀ i < n, (w.plugin i).kind = .rr → ∀ c, RR.Exact (w.plugin i) (w.statics (w.plugin i).dl) w.heap c
  inWindow : ∀ i < n, (w.plugin i).kind ≠ .edf → ∀ a ∈ ts, (w.heap a).pluginid = i →
    InWindow (w.plugin i).toPluginInfo (w.heap a).schedprio

namespace Priorities

variable {n : ℕ} {w w' : World} {ts ts' : List Addr} {i : ℕ} {a : Addr} {r : Res}

theorem perm (hP : Priorities n w ts) (hp : ts.Perm ts') : Priorities n w ts' :=
  ⟨hP.windows, hP.files, hP.counters, fun i hi hk a ha => hP.inWindow i hi hk a (hp.mem_iff.mpr ha)⟩

theorem congr (hP : Priorities n w ts) (hp : w'.plugin = w.plugin) (hst : w'.statics = w.statics)
    (hpar : ∀ i < n, (w.plugin i).kind = .rr → ∀ c, ∀ b ∈ ((w.plugin i).tasks c).root,
      (w'.heap b).params = (w.heap b).params)
    (hs : ∀ b ∈ ts, (w'.heap b).pluginid = (w.heap b).pluginid ∧ (w'.heap b).schedprio = (w.heap b).schedprio) :
    Priorities n w' ts := by
  refine ⟨?_, ?_, ?_, ?_⟩
  · rw [hp]
    exact hP.windows
  · rw [hp]
    exact hP.files
  · rw [hp, hst]
    intro i hi hk c
    exact (hP.counters i hi hk c).congr rfl (hpar i hi hk c) rfl rfl
  · rw [hp]
    intro i hi hk b hb hown
    rw [(hs b hb).1] at hown
    rw [(hs b hb).2]
    exact hP.inWindow i hi hk b hb hown

/-- Scheduling and releasing leave the configured part of the plugins alone. -/
theorem configured (hP : Priorities n w ts) (hinfo : ∀ j, (w'.plugin j).toPluginInfo = (w.plugin j).toPluginInfo) :
    (∀ j < n, (w'.plugin j).kind ≠ .edf → WindowOk (w'.plugin j).toPluginInfo) ∧
      ∀ j < n, ∀ k < n, (w'.plugin j).dl = (w'.plugin k).dl → j = k := by
  refine ⟨?_, ?_⟩
  · intro j hj
    rw [hinfo]
    exact hP.windows j hj
  · intro j hj k hk
    rw [hinfo, hinfo]
    exact hP.files j hj k hk

/-- The tasks on a list of plugin `i` are in its window. -/
theorem listed (hP : Priorities n w ts) (hL : Lists n w ts) (hi : i < n) (hk : (w.plugin i).kind.keepsList)
    {c : ℕ} {b : Addr} (hb : b ∈ ((w.plugin i).tasks c).root) :
    b ∈ ts ∧ (w.heap b).pluginid = i ∧ InWindow (w.plugin i).toPluginInfo (w.heap b).schedprio := by
  obtain ⟨hts, hown, -⟩ := mem_placed.mp ((hL.list i hi hk c).mem_iff.mp hb)
  refine ⟨hts, hown, hP.inWindow i hi ?_ b hts hown⟩
  intro he
  rw [he] at hk
  cases hk

/-- RR's counters after a move of plugin `i` that keeps its own. -/
theorem counters_move (hP : Priorities n w ts) (hi : i < n) (hothers : ∀ j, j ≠ i → w'.plugin j = w.plugin j)
    (hinfo : (w'.plugin i).toPluginInfo = (w.plugin i).toPluginInfo)
    (hst : ∀ d, d ≠ (w.plugin i).dl → w'.statics d = w.statics d)
    (hpar : ∀ b, (w'.heap b).params = (w.heap b).params)
    (hown : (w.plugin i).kind = .rr → ∀ c, RR.Exact (w'.plugin i) (w'.statics (w.plugin i).dl) w'.heap c) :
    ∀ j < n, (w'.plugin j).kind = .rr → ∀ c, RR.Exact (w'.plugin j) (w'.statics (w'.plugin j).dl) w'.heap c := by
  intro j hj hk c
  by_cases hji : j = i
  · subst hji
    rw [hinfo] at hk ⊢
    exact hown hk c
  · rw [hothers j hji] at hk ⊢
    have hdl : (w.plugin j).dl ≠ (w.plugin i).dl := fun he => hji (hP.files j hj i hi he)
    rw [hst _ hdl]
    exact (hP.counters j hj hk c).congr rfl (fun b _ => hpar b) rfl rfl

/-- **Placing** a task gives it a priority of the plugin that takes it, and
keeps those of the others in their windows. -/
theorem place (hP : Priorities n w ts) (hL : Lists n w ts) (hnd : ts.Nodup) (ha : a ∉ ts) (hi : i < n)
    (hid : (w.plugin i).id = i) (ho : Orderly w i a) (h : rtfPlgTaskSchedule w i a = .ok w') :
    Priorities n w' (a :: ts) := by
  obtain ⟨c, hpl⟩ := schedule_placed h
  obtain ⟨hwin, hfiles⟩ := hP.configured hpl.info_eq
  have hpid : (w'.heap a).pluginid = i := by rw [hpl.task, hid]
  have hrest : ∀ b ∈ ts, b ≠ a ∧ (w'.heap b).pluginid = (w.heap b).pluginid := by
    intro b hb
    have hne : b ≠ a := fun hba => ha (hba ▸ hb)
    rw [hpl.rest b hne]
    exact ⟨hne, rfl⟩
  have hown : (w.plugin i).kind = .rr → ∀ c, RR.Exact (w'.plugin i) (w'.statics (w.plugin i).dl) w'.heap c := by
    intro hk
    refine RR.exact_schedule (hP.counters i hi hk) (a := a) ?_
    unfold rtfPlgTaskSchedule at h
    rwa [hk] at h
  refine ⟨hwin, hfiles, hP.counters_move hi hpl.others hpl.info hpl.statics (fun b => (hpl.task_eq b).2.2.2) hown, ?_⟩
  by_cases hedf : (w.plugin i).kind = .edf
  · -- EDF writes no real priorities
    have hquiet : ∀ b ∈ ts, w'.heap b = w.heap b := by
      intro b hb
      refine schedule_quiet (hrest b hb).1 ?_ h
      unfold Renumbers
      rw [hedf]
      exact fun hf => hf
    intro j hj hk b hb hbj
    rw [hpl.info_eq] at hk ⊢
    rcases List.mem_cons.mp hb with rfl | hb
    · have hji : j = i := by
        rw [hpid] at hbj
        exact (Int.natCast_inj.mp hbj).symm
      exact absurd (hji ▸ hedf) hk
    · rw [hquiet b hb] at hbj ⊢
      exact hP.inWindow j hj hk b hb hbj
  · have hkeep : (w.plugin i).kind.keepsList → ∀ c, (a :: ((w.plugin i).tasks c).root).Nodup := by
      intro hk c
      refine List.nodup_cons.mpr ⟨fun hm => ha (hP.listed hL hi hk hm).1, ?_⟩
      exact (hL.list i hi hk c).nodup_iff.mpr (hnd.filter _)
    obtain ⟨hself, hothers⟩ := schedule_window hedf (hP.windows i hi hedf) hkeep
      (fun hk c b hb => (hP.listed hL hi hk hb).2.2) (hP.counters i hi) ho h
    intro j hj hk b hb hbj
    rw [hpl.info_eq] at hk ⊢
    rcases List.mem_cons.mp hb with rfl | hb
    · have hji : j = i := by
        rw [hpid] at hbj
        exact (Int.natCast_inj.mp hbj).symm
      rw [hji]
      exact hself
    · rcases hothers b (hrest b hb).1 with heq | ⟨hin, hkl, d, hm⟩
      · rw [heq] at hbj ⊢
        exact hP.inWindow j hj hk b hb hbj
      · have hbi := (hP.listed hL hi hkl hm).2.1
        rw [(hrest b hb).2, hbi] at hbj
        rw [← Int.natCast_inj.mp hbj]
        exact hin

/-- **Releasing** a task by the plugin that holds it writes no real priorities. -/
theorem release (hP : Priorities n w (a :: ts)) (hL : Lists n w (a :: ts)) (ha : a ∉ ts) (hi : i < n)
    (hown : (w.heap a).pluginid = i) (h : rtfPlgTaskRelease w i a = .ok (r, w')) : Priorities n w' ts := by
  have hR := release_released h
  obtain ⟨hwin, hfiles⟩ := hP.configured hR.info_eq
  have hpar : ∀ b, (w'.heap b).params = (w.heap b).params := by
    intro b
    rw [hR.task_eq b]
  have hcnt : (w.plugin i).kind = .rr → ∀ c, RR.Exact (w'.plugin i) (w'.statics (w.plugin i).dl) w'.heap c := by
    intro hk
    have hkl : (w.plugin i).kind.keepsList := by
      rw [hk]
      rfl
    have hbefore := hL.list i hi hkl (w.heap a).cpu
    rw [placed_cons hown, if_pos ⟨rfl, rfl⟩] at hbefore
    have hafter := (hL.release ha hown hR).list i hi (by rw [hR.info_eq]; exact hkl) (w.heap a).cpu
    rw [hR.placed_eq ha] at hafter
    refine RR.exact_release (hP.counters i hi hk) (hbefore.trans (hafter.symm.cons a)) (r := r) ?_
    unfold rtfPlgTaskRelease at h
    rwa [hk] at h
  refine ⟨hwin, hfiles, hP.counters_move hi hR.others hR.info hR.statics hpar hcnt, ?_⟩
  intro j hj hk b hb hbj
  have hne : b ≠ a := fun hba => ha (hba ▸ hb)
  rw [hR.info_eq] at hk ⊢
  rw [hR.heap_ne hne] at hbj ⊢
  exact hP.inWindow j hj hk b (List.mem_cons_of_mem a hb) hbj

end Priorities

/-! ### Runs -/

/-- The real priorities of the taskset. -/
def Prioritised (s : Sched) : Prop := Priorities s.numOfPlugins s.toWorld s.taskset.root

/-- Every scheduling of the run is orderly. -/
def OrderlyOp (s : Sched) : Op → Prop
  | .create tp ppid => ∀ c ∈ assignee (s.alloc tp ppid) s.next, Orderly (s.alloc tp ppid).toWorld c.1 s.next
  | .change _ id => ∀ a ∈ rtfTasksetSearch s.heap s.taskset id, ∀ c ∈ taker s a,
      ∀ w ∈ releasedBy s c.1 a, Orderly w c.1 a
  | _ => True

/-- The operation keeps the books, what it schedules is orderly, and the tables have an entry for every core. -/
def WithinWindows (s : Sched) (o : Op) : Prop :=
  KeepsOwner s o ∧ OrderlyOp s o ∧ CoresInTables s.numOfPlugins s.toWorld

instance (s : Sched) (o : Op) : Decidable (OrderlyOp s o) :=
  match o with
  | .create tp ppid =>
    inferInstanceAs (Decidable (∀ c ∈ assignee (s.alloc tp ppid) s.next, Orderly (s.alloc tp ppid).toWorld c.1 s.next))
  | .change _ id =>
    inferInstanceAs (Decidable (∀ a ∈ rtfTasksetSearch s.heap s.taskset id, ∀ c ∈ taker s a,
      ∀ w ∈ releasedBy s c.1 a, Orderly w c.1 a))
  | .attach _ _ | .detach _ | .destroy _ | .delete _ => inferInstanceAs (Decidable True)

instance (s : Sched) (o : Op) : Decidable (WithinWindows s o) := inferInstanceAs (Decidable (_ ∧ _ ∧ _))

section Steps

variable {s s' : Sched} {a : Addr} {r : Res}

theorem prioritised_alloc (hT : Tallied s) (hL : Listed s) (hP : Prioritised s) (tp : Params) (ppid : Pid) :
    Prioritised (s.alloc tp ppid) := by
  have hold : ∀ b ∈ s.taskset.root, (s.alloc tp ppid).heap b = s.heap b := fun b hb =>
    hT.sane.alloc_heap tp ppid hb
  refine Priorities.congr hP rfl rfl ?_ ?_
  · intro i hi hk c b hb
    have hkl : (s.plugin i).kind.keepsList := by
      rw [hk]
      rfl
    have hm : b ∈ s.taskset.root := (Priorities.listed hP hL hi hkl hb).1
    rw [hold b hm]
  · intro b hb
    rw [hold b hb]
    exact ⟨rfl, rfl⟩

theorem prioritised_create {tp : Params} {ppid : Pid} (hT : Tallied s) (hL : Listed s) (hP : Prioritised s)
    (hg : OrderlyOp s (.create tp ppid)) (h : rtfSchedulerTaskCreate s tp ppid = .ok (r, s')) : Prioritised s' := by
  have hA := prioritised_alloc hT hL hP tp ppid
  have hAL : Lists s.numOfPlugins (s.alloc tp ppid).toWorld s.taskset.root := by
    refine Lists.congr hL rfl ?_
    intro b hb
    rw [hT.sane.alloc_heap tp ppid hb]
    exact ⟨rfl, rfl, rfl⟩
  rcases create_ok h with ⟨-, rfl⟩ | ⟨i, w, hch, hs, rfl⟩
  · exact hA
  · have hi := (assignee_some hch).1
    exact Priorities.place hA hAL hT.sane.nodup hT.sane.next_not_mem hi (hT.sane.ids i hi) (hg (i, r) hch) hs

theorem prioritised_change {tp : Params} {id : UInt32} (hT : Tallied s) (hL : Listed s) (hP : Prioritised s)
    (hk : KeepsPlugin s (.change tp id)) (hg : OrderlyOp s (.change tp id))
    (h : rtfSchedulerTaskChange s tp id = .ok (r, s')) : Prioritised s' := by
  rcases change_ok h with rfl | ⟨a, i, r', w, w', ha, hc, hr, hs, rfl⟩
  · exact hP
  · obtain ⟨hi, -, -⟩ := taker_some hc
    have hown := hk a ha _ hc
    obtain ⟨ts, hp, hat⟩ := hT.sane.split (rtfTasksetSearch_some ha).1
    have hR := release_released hr
    have hnd : ts.Nodup := (List.nodup_cons.mp (hp.nodup_iff.mp hT.sane.nodup)).2
    have hall : Lists s.numOfPlugins s.toWorld (a :: ts) := Lists.perm hL hp
    have hid : (w.plugin i).id = i := by
      rw [hR.info_eq]
      exact hT.sane.ids i hi
    have hrel : Priorities s.numOfPlugins w ts := (Priorities.perm hP hp).release hall hat hi hown hr
    have hrelL : Lists s.numOfPlugins w ts := hall.release hat hown hR
    have hw : w ∈ releasedBy s i a := by
      unfold releasedBy
      rw [hr]
      rfl
    exact (hrel.place hrelL hnd hat hi hid (hg a ha _ hc w hw) hs).perm hp.symm

theorem prioritised_removes {key : Addr → Bool} (hT : Tallied s) (hL : Listed s) (hP : Prioritised s)
    (h : Removes key s a s') : Prioritised s' := by
  obtain ⟨-, hp, -⟩ := h.root
  obtain ⟨ts, i, r, w, -, hown, hi, hr, rfl⟩ := h
  have hat := (List.nodup_cons.mp (hp.nodup_iff.mp hT.tallies.nodup)).1
  exact (Priorities.perm hP hp).release (Lists.perm hL hp) hat hi hown hr

/-- **One operation** whose scheduling is orderly keeps the priorities in their windows. -/
theorem prioritised_step {o : Op} (hT : Tallied s) (hL : Listed s) (hP : Prioritised s) (hg : WithinWindows s o)
    (h : step s o = .ok (r, s')) : Prioritised s' := by
  suffices hall : Tallied s' ∧ Listed s' ∧ Prioritised s' from hall.2.2
  refine step_inv (I := fun s => Tallied s ∧ Listed s ∧ Prioritised s) ?_ ?_ ?_ ?_ ⟨hT, hL, hP⟩ h
  · rintro tp ppid rfl hcreate
    exact ⟨tallied_create hT hcreate, listed_create hT hL hg.1.2 hcreate, prioritised_create hT hL hP hg.2.1 hcreate⟩
  · rintro tp id rfl hchange
    exact ⟨tallied_change hT hg.1.1 hchange, listed_change hT hL hg.1.1 hchange,
      prioritised_change hT hL hP hg.1.1 hg.2.1 hchange⟩
  · intro heap k hheap
    refine ⟨tallied_thread hT hheap, listed_thread hL hheap, ?_⟩
    have htid : ∀ b, (heap b).params = (s.heap b).params ∧ (heap b).pluginid = (s.heap b).pluginid ∧
        (heap b).schedprio = (s.heap b).schedprio := by
      intro b
      rw [hheap b]
      exact ⟨rfl, rfl, rfl⟩
    exact Priorities.congr hP rfl rfl (fun _ _ _ _ b _ => (htid b).1) fun b _ => (htid b).2
  · intro key s a s' hI hrm
    exact ⟨tallied_removes hI.1 hrm, listed_removes hI.1 hI.2.1 hrm, prioritised_removes hI.1 hI.2.1 hI.2.2 hrm⟩

end Steps

/-- The configured priorities of RM, RR and FP are those of `SCHED_FIFO` and `SCHED_RR`. -/
def PosixWindows (load : List UInt8 → Option Image) (confs : List ConfPlugin) : Prop :=
  ∀ c ∈ confs, ∀ img ∈ load c.pluginPath, img.kind ≠ .edf →
    1 ≤ c.priorityMin ∧ c.priorityMin ≤ c.priorityMax ∧ c.priorityMax ≤ 99

theorem prioritised_start {alloc : ℕ → Option ℕ} {load : List UInt8 → Option Image} {confs : List ConfPlugin}
    {plgs : List Plugin} (h : rtfPluginsInit alloc load confs = some plgs) (hown : OwnFiles load confs)
    (hwin : PosixWindows load confs) (k : Kernel) : Prioritised (Sched.start plgs k) := by
  refine ⟨?_, ?_, ?_, by simp [Sched.start]⟩
  · intro i hi hk
    obtain ⟨c, img, hci, himg, hp⟩ := start_plugin h k hi
    rw [hp] at hk ⊢
    exact hwin c (List.mem_of_getElem? hci) img himg hk
  · intro i hi j hj hdl
    obtain ⟨c, img, hci, himg, hp⟩ := start_plugin h k hi
    obtain ⟨d, img', hdj, himg', hq⟩ := start_plugin h k hj
    rw [hp, hq] at hdl
    have hfile : ∀ {m : ℕ} {c : ConfPlugin} {img : Image}, confs[m]? = some c → load c.pluginPath = some img →
        (confs.map fun c => (load c.pluginPath).map Image.dl)[m]? = some (some img.dl) := by
      intro m c img hc hi
      rw [List.getElem?_map, hc]
      simp [hi]
    have hi' := hfile hci himg
    have hj' := hfile hdj himg'
    change img.dl = img'.dl at hdl
    rw [← hdl] at hj'
    obtain ⟨hlt, hgi⟩ := List.getElem?_eq_some_iff.mp hi'
    obtain ⟨hlt', hgj⟩ := List.getElem?_eq_some_iff.mp hj'
    exact (List.Nodup.getElem_inj_iff hown).mp (hgi.trans hgj.symm)
  · intro i hi _ c
    obtain ⟨_, _, -, -, hp⟩ := start_plugin h k hi
    rw [hp]
    refine ⟨?_, ?_, ?_, ?_⟩ <;> simp [initPlugin, keysOf, Sched.start]

/-- The core lists ascend, and hold what an `int` holds. -/
def CoreLists (confs : List ConfPlugin) : Prop :=
  ∀ c ∈ confs, c.cores.Pairwise (· < ·) ∧ ∀ x ∈ c.cores, -2 ^ 31 ≤ x ∧ x < 2 ^ 31

instance (confs : List ConfPlugin) : Decidable (CoreLists confs) := by
  unfold CoreLists; infer_instance

/-- Two plugins that share a core have windows apart. -/
theorem windows_apart_start {alloc : ℕ → Option ℕ} {load : List UInt8 → Option Image} {confs : List ConfPlugin}
    {plgs : List Plugin} {numProcs : ℕ} {util : ℚ} (h : rtfPluginsInit alloc load confs = some plgs)
    (hvalid : configurationValid numProcs ⟨util, confs⟩ = true) (hn : numProcs < 2 ^ 31) (hcores : CoreLists confs)
    (k : Kernel) {i j c : ℕ} (hij : i < j) (hj : j < (Sched.start plgs k).numOfPlugins)
    (hci : c ∈ ((Sched.start plgs k).plugin i).cpulist) (hcj : c ∈ ((Sched.start plgs k).plugin j).cpulist) :
    ((Sched.start plgs k).plugin j).prioMax < ((Sched.start plgs k).plugin i).prioMin := by
  unfold configurationValid at hvalid
  simp only [Bool.and_eq_true] at hvalid
  obtain ⟨⟨⟨⟨-, hcpus⟩, -⟩, hwindows⟩, -⟩ := hvalid
  have hpos := (checkCpus_iff hn fun p hp => (hcores p hp).2).mp hcpus
  have hapart := List.pairwise_iff_getElem.mp (windows_apart hwindows fun p hp => (hcores p hp).1)
  obtain ⟨p, img, hpi, -, hp⟩ := start_plugin h k (hij.trans hj)
  obtain ⟨q, img', hqj, -, hq⟩ := start_plugin h k hj
  obtain ⟨hli, hgi⟩ := List.getElem?_eq_some_iff.mp hpi
  obtain ⟨hlj, hgj⟩ := List.getElem?_eq_some_iff.mp hqj
  rw [hp] at hci ⊢
  rw [hq] at hcj ⊢
  obtain ⟨x, hx, hxc⟩ := List.mem_map.mp hci
  obtain ⟨y, hy, hyc⟩ := List.mem_map.mp hcj
  have hx0 := (hpos p (List.mem_of_getElem? hpi) x hx).1
  have hy0 := (hpos q (List.mem_of_getElem? hqj) y hy).1
  have hxy : x = y := by omega
  have hfin := hapart i j hli hlj hij
  rw [hgi, hgj] at hfin
  exact hfin ⟨x, hx, hxy ▸ hy⟩

/-- Every task of an RM, RR or FP plugin has a priority of its plugin. -/
def InOwnWindow (s : Sched) : Prop :=
  ∀ i < s.numOfPlugins, (s.plugin i).kind ≠ .edf → ∀ a ∈ s.taskset.root, (s.heap a).pluginid = i →
    InWindow (s.plugin i).toPluginInfo (s.heap a).schedprio

/-- None has a priority of another plugin of its core. -/
def OutOfOthers (s : Sched) : Prop :=
  ∀ i < s.numOfPlugins, ∀ j < s.numOfPlugins, i ≠ j → (s.plugin i).kind ≠ .edf →
    ∀ a ∈ s.taskset.root, (s.heap a).pluginid = i → (s.heap a).cpu ∈ (s.plugin j).cpulist →
      ¬ InWindow (s.plugin j).toPluginInfo (s.heap a).schedprio

/-- **Priorities stay in the window of their plugin**, and out of the windows
of the plugins they share a core with, in every run whose schedulings are orderly. -/
theorem window_run {alloc : ℕ → Option ℕ} {load : List UInt8 → Option Image} {confs : List ConfPlugin}
    {plgs : List Plugin} {numProcs : ℕ} {util : ℚ} {k : Kernel} {s : Sched}
    (hinit : rtfPluginsInit alloc load confs = some plgs) (hown : OwnFiles load confs)
    (hvalid : configurationValid numProcs ⟨util, confs⟩ = true) (hn : numProcs < 2 ^ 31)
    (hwin : PosixWindows load confs) (hrun : Reach step WithinWindows (Sched.start plgs k) s) :
    InOwnWindow s ∧ (CoreLists confs → OutOfOthers s) := by
  have hI : Tallied s ∧ Listed s ∧ Prioritised s := by
    refine hrun.inv (I := fun s => Tallied s ∧ Listed s ∧ Prioritised s)
      ⟨tallied_start hinit k, listed_start hinit k, prioritised_start hinit hown hwin k⟩ ?_
    rintro s o r s' ⟨hT, hL, hP⟩ hg hs
    exact ⟨tallied_step hT hg.1.1 hs, listed_step hT hL hg.1 hs, prioritised_step hT hL hP hg hs⟩
  obtain ⟨hT, -, hP⟩ := hI
  refine ⟨hP.inWindow, ?_⟩
  intro hcores i hi j hj hij hk a ha hai hcpu hin
  have hsame : SameConfig (Sched.start plgs k) s := by
    refine hrun.inv (I := SameConfig (Sched.start plgs k)) (.refl _) ?_
    exact fun _ _ _ _ hI _ hs => hI.trans (sameConfig_step hs)
  obtain ⟨i', hi', hai', hheld⟩ := hT.tallies.held a ha
  rw [hai] at hai'
  obtain rfl := Int.natCast_inj.mp hai'
  have howned := hP.inWindow i hi hk a ha hai
  rw [hsame.1] at hi hj
  rw [hsame.2] at howned hheld hin hcpu
  obtain ⟨h1, h2⟩ := howned
  obtain ⟨h3, h4⟩ := hin
  rcases lt_or_gt_of_ne hij with hlt | hgt
  · have := windows_apart_start hinit hvalid hn hcores k hlt hj hheld hcpu
    omega
  · have := windows_apart_start hinit hvalid hn hcores k hgt hi hcpu hheld
    omega

/-! ### Priorities outside -/

namespace WindowExample

/-- RM above RR above FP on core 0, with windows of two priorities. -/
def confs : List ConfPlugin :=
  [⟨"RM".toUTF8.toList, [2], 14, 15, [0]⟩, ⟨"RR".toUTF8.toList, [3], 12, 13, [0]⟩,
    ⟨"FP".toUTF8.toList, [4], 10, 11, [0]⟩]

def plgs : List Plugin := (rtfPluginsInit asMaps BooksExample.load confs).getD []

theorem init_plgs : rtfPluginsInit asMaps BooksExample.load confs = some plgs := rfl

def start : Sched := Sched.start plgs BooksExample.kernel

/-- RM above FP on core 0, as in the shipped configuration. -/
def twoConfs : List ConfPlugin :=
  [⟨"RM".toUTF8.toList, [2], 40, 50, [0]⟩, ⟨"FP".toUTF8.toList, [4], 10, 20, [0]⟩]

def twoPlgs : List Plugin := (rtfPluginsInit asMaps BooksExample.load twoConfs).getD []

theorem init_twoPlgs : rtfPluginsInit asMaps BooksExample.load twoConfs = some twoPlgs := rfl

/-- No period, and a declared priority. -/
def declares (priority : UInt32) : Params := { Params.zero with runtime := 1, priority := priority }

theorem posix_confs : PosixWindows BooksExample.load confs := by
  intro c hc img _ _
  simp only [confs, List.mem_cons, List.not_mem_nil, or_false] at hc
  rcases hc with rfl | rfl | rfl <;> decide

theorem posix_twoConfs : PosixWindows BooksExample.load twoConfs := by
  intro c hc img _ _
  simp only [twoConfs, List.mem_cons, List.not_mem_nil, or_false] at hc
  rcases hc with rfl | rfl <;> decide

end WindowExample

open WindowExample BooksExample AttachedExample

theorem window_threeTasks : ∃ s, runGood step WithinWindows
    [.create (every 200) 1, .create (every 100) 1, .create (declares 7) 1, .create (declares 3) 1, .destroy 3]
    WindowExample.start = some s ∧ InOwnWindow s ∧ (CoreLists WindowExample.confs → OutOfOthers s) := by
  have hsome : (runGood step WithinWindows
      [.create (every 200) 1, .create (every 100) 1, .create (declares 7) 1, .create (declares 3) 1, .destroy 3]
      WindowExample.start).isSome := by decide +kernel
  obtain ⟨s, hs⟩ := Option.isSome_iff_exists.mp hsome
  have hvalid : configurationValid 1 ⟨1, WindowExample.confs⟩ = true := by decide +kernel
  exact ⟨s, hs, window_run WindowExample.init_plgs (by decide) hvalid (by decide) posix_confs (reach_runGood hs)⟩

/-- Priority 400 is remapped to 50: far above FP's window, and in RM's. -/
theorem not_window_run : ¬ ∀ (load : List UInt8 → Option Image) (confs : List ConfPlugin) (plgs : List Plugin)
    (numProcs : ℕ) (util : ℚ) (k : Kernel) (s : Sched), rtfPluginsInit asMaps load confs = some plgs →
      OwnFiles load confs → configurationValid numProcs ⟨util, confs⟩ = true → CoreLists confs →
        PosixWindows load confs → Reach step (fun _ _ => True) (Sched.start plgs k) s →
          InOwnWindow s ∧ OutOfOthers s := by
  intro h
  have hend : (runGood step (fun _ _ => True) [.create (declares 400) 1] (Sched.start twoPlgs kernel)).any (fun s =>
      s.numOfPlugins = 2 ∧ (s.plugin 1).kind = .fp ∧ (s.plugin 1).prioMax = 20 ∧ s.taskset.root = [0] ∧
        (s.heap 0).pluginid = 1 ∧ (s.heap 0).schedprio = 50) = true := by decide +kernel
  obtain ⟨s, hs, hv⟩ := (Option.any_eq_true _ _).mp hend
  obtain ⟨hn, hkind, hmax, hts, hpid, hprio⟩ := of_decide_eq_true hv
  have hW := (h load twoConfs twoPlgs 1 1 kernel s init_twoPlgs (by decide) (by decide +kernel) (by decide)
    posix_twoConfs (reach_runGood hs)).1
  have hin := hW 1 (by omega) (by rw [hkind]; decide) 0 (by rw [hts]; decide) hpid
  obtain ⟨-, hle⟩ := hin
  rw [hmax, hprio] at hle
  exact absurd hle (by decide)

end Retif
