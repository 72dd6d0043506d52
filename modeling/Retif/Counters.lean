/-
# RR's counters

`n_per_prio` counts the tasks of a core by declared priority, `dist_prio` the
declared priorities that occur. RR keeps both exact over whole runs
(`RR.Exact`): a task is counted when it is put on the list, taken off when it
leaves, and a priority is counted with its first task and taken off with its
last one. RM has no such statement: its `dist_prio` is taken down when a twin
of the task is found rather than when none is.

Key definitions: `RR.Exact`.
Key theorems: `RR.Exact.counted`, `RR.Exact.uncounted`, `RR.schedule_ranked`,
`RM.schedule_ranked`, `RR.exact_schedule`, `RR.exact_release`.
-/
import Retif.Attached
import Retif.Remap

namespace Retif

open CList

/-! ### The counters -/

/-- RR's list of a core is sorted, and its counters count it. -/
structure RR.Exact (this : Plugin) (st : Statics) (heap : Heap) (c : ℕ) : Prop where
  sorted : (keysOf RR.priority heap (this.tasks c).root).Pairwise (· ≤ ·)
  small : ∀ x ∈ keysOf RR.priority heap (this.tasks c).root, x < MAX_PRIO
  perPrio : ∀ p, st.nPerPrio c p = ((keysOf RR.priority heap (this.tasks c).root).count p : ℕ)
  dist : (st.distPrio c).toNat = (keysOf RR.priority heap (this.tasks c).root).toFinset.card

/-- The counters depend on declared priorities only. -/
theorem RR.Exact.congr {this this' : Plugin} {st st' : Statics} {heap heap' : Heap} {c : ℕ}
    (h : RR.Exact this st heap c) (ht : (this'.tasks c).root = (this.tasks c).root)
    (hp : ∀ b ∈ (this.tasks c).root, (heap' b).params = (heap b).params) (hn : st'.nPerPrio c = st.nPerPrio c)
    (hd : st'.distPrio c = st.distPrio c) : RR.Exact this' st' heap' c := by
  have hk : keysOf RR.priority heap' (this'.tasks c).root = keysOf RR.priority heap (this.tasks c).root := by
    unfold keysOf
    rw [ht]
    refine List.map_congr_left ?_
    intro b hb
    show (heap' b).params.priority.toNat = (heap b).params.priority.toNat
    rw [hp b hb]
  refine ⟨?_, ?_, ?_, ?_⟩
  · rw [hk]
    exact h.sorted
  · rw [hk]
    exact h.small
  · intro p
    rw [hk, hn]
    exact h.perPrio p
  · rw [hk, hd]
    exact h.dist

/-- Fewer than `MAX_PRIO` priorities are counted. -/
theorem card_small {xs : List ℕ} (h : ∀ x ∈ xs, x < MAX_PRIO) : xs.toFinset.card ≤ MAX_PRIO := by
  have hsub : xs.toFinset ⊆ Finset.range MAX_PRIO := by
    intro x hx
    exact Finset.mem_range.mpr (h x (List.mem_toFinset.mp hx))
  calc xs.toFinset.card ≤ (Finset.range MAX_PRIO).card := Finset.card_le_card hsub
    _ = MAX_PRIO := Finset.card_range _

/-- Counting one more task of priority `p`, and one more priority if it is the first. -/
theorem RR.Exact.counted {this this' : Plugin} {st : Statics} {heap : Heap} {c : ℕ} {a : Addr}
    (h : RR.Exact this st heap c) (hperm : (this'.tasks c).root.Perm (a :: (this.tasks c).root))
    (hsorted : (keysOf RR.priority heap (this'.tasks c).root).Pairwise (· ≤ ·))
    (hp : (heap a).params.priority.toNat < MAX_PRIO) :
    RR.Exact this'
      (if (st.addPerPrio c (heap a).params.priority 1).nPerPrio c (heap a).params.priority.toNat = 1 then
        (st.addPerPrio c (heap a).params.priority 1).addDist c 1
      else st.addPerPrio c (heap a).params.priority 1) heap c := by
  have hkeys : (keysOf RR.priority heap (this'.tasks c).root).Perm
      (RR.priority (heap a) :: keysOf RR.priority heap (this.tasks c).root) := hperm.map _
  have hpa : RR.priority (heap a) = (heap a).params.priority.toNat := rfl
  have hsmall : ∀ x ∈ keysOf RR.priority heap (this'.tasks c).root, x < MAX_PRIO := by
    intro x hx
    rcases List.mem_cons.mp (hkeys.mem_iff.mp hx) with rfl | hx
    · exact hp
    · exact h.small x hx
  have hfin : (keysOf RR.priority heap (this'.tasks c).root).toFinset =
      insert (RR.priority (heap a)) (keysOf RR.priority heap (this.tasks c).root).toFinset := by
    rw [List.toFinset_eq_of_perm _ _ hkeys, List.toFinset_cons]
  have hper : ∀ p, (st.addPerPrio c (heap a).params.priority 1).nPerPrio c p =
      ((keysOf RR.priority heap (this'.tasks c).root).count p : ℕ) := by
    intro p
    rw [hkeys.count_eq, List.count_cons]
    by_cases hpp : p = (heap a).params.priority.toNat
    · subst hpp
      simp [Statics.addPerPrio, h.perPrio, hpa]
    · have hne : ¬ RR.priority (heap a) = p := fun he => hpp (he.symm.trans hpa)
      simp [Statics.addPerPrio, h.perPrio, hpp, hne]
  have hcount := h.perPrio (RR.priority (heap a))
  have hle := card_small h.small
  have hmax : MAX_PRIO = 100 := rfl
  have hnew : (st.addPerPrio c (heap a).params.priority 1).nPerPrio c (heap a).params.priority.toNat = 1 ↔
      RR.priority (heap a) ∉ keysOf RR.priority heap (this.tasks c).root := by
    rw [hper, ← hpa, hkeys.count_eq, List.count_cons_self, ← List.count_eq_zero]
    omega
  split
  · rename_i hone
    refine ⟨hsorted, hsmall, hper, ?_⟩
    have hnot : RR.priority (heap a) ∉ (keysOf RR.priority heap (this.tasks c).root).toFinset := by
      rw [List.mem_toFinset]
      exact hnew.mp hone
    rw [hfin, Finset.card_insert_of_notMem hnot, ← h.dist]
    have hadd : ((st.addPerPrio c (heap a).params.priority 1).addDist c 1).distPrio c = st.distPrio c + 1 := by
      simp [Statics.addDist, Statics.addPerPrio]
    rw [hadd, UInt32.toNat_add]
    have hone' : (1 : UInt32).toNat = 1 := rfl
    have := h.dist
    omega
  · rename_i hone
    refine ⟨hsorted, hsmall, hper, ?_⟩
    have hin : RR.priority (heap a) ∈ (keysOf RR.priority heap (this.tasks c).root).toFinset := by
      rw [List.mem_toFinset]
      by_contra hn
      exact hone (hnew.mpr hn)
    rw [hfin, Finset.insert_eq_of_mem hin, ← h.dist]
    rfl

/-- Counting one task less of priority `p`, and one priority less if it was the last. -/
theorem RR.Exact.uncounted {this this' : Plugin} {st : Statics} {heap : Heap} {c : ℕ} {a : Addr}
    (h : RR.Exact this st heap c) (hperm : (this.tasks c).root.Perm (a :: (this'.tasks c).root))
    (hsub : (this'.tasks c).root.Sublist (this.tasks c).root) :
    RR.Exact this' (RR.uncount st c (heap a).params.priority) heap c := by
  have hkeys : (keysOf RR.priority heap (this.tasks c).root).Perm
      (RR.priority (heap a) :: keysOf RR.priority heap (this'.tasks c).root) := hperm.map _
  have hpa : RR.priority (heap a) = (heap a).params.priority.toNat := rfl
  have hsl : (keysOf RR.priority heap (this'.tasks c).root).Sublist (keysOf RR.priority heap (this.tasks c).root) :=
    hsub.map _
  have hper : ∀ p, (st.addPerPrio c (heap a).params.priority (-1)).nPerPrio c p =
      ((keysOf RR.priority heap (this'.tasks c).root).count p : ℕ) := by
    intro p
    have hp := h.perPrio p
    rw [hkeys.count_eq, List.count_cons] at hp
    by_cases hpp : p = (heap a).params.priority.toNat
    · subst hpp
      rw [if_pos (by rw [hpa]; exact beq_self_eq_true _)] at hp
      simp only [Statics.addPerPrio, Function.update_self, hp]
      push_cast
      ring
    · have hne : ¬ (RR.priority (heap a) == p) = true := by
        rw [beq_iff_eq]
        exact fun he => hpp (he.symm.trans hpa)
      rw [if_neg hne] at hp
      simp [Statics.addPerPrio, hp, hpp]
  have hfin : (keysOf RR.priority heap (this.tasks c).root).toFinset =
      insert (RR.priority (heap a)) (keysOf RR.priority heap (this'.tasks c).root).toFinset := by
    rw [List.toFinset_eq_of_perm _ _ hkeys, List.toFinset_cons]
  have hdist := h.dist
  rw [hfin] at hdist
  have hlast : (st.addPerPrio c (heap a).params.priority (-1)).nPerPrio c (heap a).params.priority.toNat = 0 ↔
      RR.priority (heap a) ∉ keysOf RR.priority heap (this'.tasks c).root := by
    rw [hper, ← hpa, ← List.count_eq_zero]
    omega
  unfold RR.uncount
  dsimp only
  split
  · rename_i hzero
    refine ⟨h.sorted.sublist hsl, fun x hx => h.small x (hsl.subset hx), hper, ?_⟩
    have hnot : RR.priority (heap a) ∉ (keysOf RR.priority heap (this'.tasks c).root).toFinset := by
      rw [List.mem_toFinset]
      exact hlast.mp hzero
    rw [Finset.card_insert_of_notMem hnot] at hdist
    have hsubt : ((st.addPerPrio c (heap a).params.priority (-1)).addDist c (-1)).distPrio c = st.distPrio c - 1 := by
      simp [Statics.addDist, Statics.addPerPrio, UInt32.sub_eq_add_neg]
    have hle : (1 : UInt32) ≤ st.distPrio c := by
      rw [UInt32.le_iff_toNat_le, hdist]
      exact Nat.le_add_left 1 _
    rw [hsubt, UInt32.toNat_sub_of_le _ _ hle, hdist]
    rfl
  · rename_i hzero
    refine ⟨h.sorted.sublist hsl, fun x hx => h.small x (hsl.subset hx), hper, ?_⟩
    have hin : RR.priority (heap a) ∈ (keysOf RR.priority heap (this'.tasks c).root).toFinset := by
      rw [List.mem_toFinset]
      by_contra hn
      exact hzero (hlast.mpr hn)
    rw [Finset.insert_eq_of_mem hin] at hdist
    rw [← hdist]
    rfl

/-! ### Scheduling and releasing -/

section Moves

variable {w w' : World} {i : ℕ} {a : Addr}

/-- RR's list of core `c` with `a` put into it. -/
def RR.inserted (w : World) (i : ℕ) (a : Addr) (c : ℕ) : Taskset × List Addr :=
  rtfTasksetAddSortedPrio (w.assign i a c) ((w.plugin i).tasks c) a

theorem assign_params (w : World) (i : ℕ) (a : Addr) (c : ℕ) (b : Addr) :
    (w.assign i a c b).params = (w.heap b).params := by
  unfold World.assign
  by_cases hb : b = a
  · rw [hb, Function.update_self]
  · rw [Function.update_of_ne hb]

/-- RR notes the place of the task, counts it, puts it on the list and ranks it. -/
theorem RR.schedule_ranked (h : RR.rtfPlgTaskSchedule w i a = .ok w') :
    ∃ c, RR.leastLoadedCpu (w.plugin i) = .ok c ∧ (w.heap a).params.priority.toNat < MAX_PRIO ∧
      (w'.plugin i).tasks = Function.update (w.plugin i).tasks c (RR.inserted w i a c).1 ∧
      RR.rank ((w.plugin i).setTasks c (RR.inserted w i a c).1)
        ((w.statics (w.plugin i).dl).addPerPrio c (w.heap a).params.priority 1) (w.assign i a c) a c
        (RR.inserted w i a c).2 = .ok (w'.statics (w.plugin i).dl, w'.heap) := by
  obtain ⟨c, st, heap, hc, hp, hr, -, rfl⟩ := RR.schedule_ok h
  refine ⟨c, hc, (checkPrio_ok.mp hp).2, ?_, ?_⟩
  · simp [World.setPlugin, World.setStatics, Plugin.setTasks, RR.inserted]
  · refine hr.trans ?_
    show Except.ok (st, heap) = Except.ok (Function.update w.statics (w.plugin i).dl st (w.plugin i).dl, heap)
    rw [Function.update_self]

/-- A priority is counted with its first task. -/
theorem RR.rank_statics {this : Plugin} {st st' : Statics} {heap heap' : Heap} {c : ℕ} {behind : List Addr}
    (h : RR.rank this st heap a c behind = .ok (st', heap')) :
    st' = if st.nPerPrio c (heap a).params.priority.toNat = 1 then st.addDist c 1 else st := by
  unfold RR.rank at h
  split at h
  · rename_i hone
    cases h
    rw [if_pos hone]
  · rename_i hone
    rw [if_neg hone]
    split at h
    · cases h
    · cases h
      rfl

/-- RM's list of core `c` with `a` put into it. -/
def RM.inserted (w : World) (i : ℕ) (a : Addr) (c : ℕ) : Taskset × List Addr :=
  rtfTasksetAddSortedPr (w.assign i a c) ((w.plugin i).tasks c) a

/-- A period is counted when the node behind the task does not have it. -/
theorem RM.rank_statics {this : Plugin} {st st' : Statics} {heap heap' : Heap} {c : ℕ} {behind : List Addr}
    (h : RM.rank this st heap a c behind = .ok (st', heap')) :
    st' = if RM.sameAsNext heap (heap a) behind = none then st.addDist c 1 else st := by
  unfold RM.rank at h
  split at h
  · rename_i hsome
    cases h
    rw [hsome]
    rfl
  · rename_i hnone
    obtain ⟨_, -, h⟩ := bind_ok.mp h
    cases h
    rw [if_pos hnone]

/-- RM puts the task on the list of the core it chose and ranks it. -/
theorem RM.schedule_ranked (h : RM.rtfPlgTaskSchedule w i a = .ok w') :
    ∃ c, RM.leastLoadedCpu (w.plugin i) = .ok c ∧
      (w'.plugin i).tasks = Function.update (w.plugin i).tasks c (RM.inserted w i a c).1 ∧
      w'.statics (w.plugin i).dl =
        if RM.sameAsNext (w.assign i a c) (w.assign i a c a) (RM.inserted w i a c).2 = none then
          (w.statics (w.plugin i).dl).addDist c 1
        else w.statics (w.plugin i).dl := by
  obtain ⟨c, st, heap, u, hc, hr, -, -, rfl⟩ := RM.schedule_ok h
  refine ⟨c, hc, ?_, ?_⟩
  · simp [World.setPlugin, World.setTask, World.setStatics, Plugin.setTasks, RM.inserted]
  · refine Eq.trans ?_ (RM.rank_statics hr)
    exact Function.update_self ..

/-- Before it is ranked, the task is counted and on the list. -/
theorem RR.inserted_exact {c : ℕ}
    (hex : RR.Exact (w.plugin i) (w.statics (w.plugin i).dl) w.heap c)
    (hp : (w.heap a).params.priority.toNat < MAX_PRIO) {st : Statics} {heap : Heap} {behind : List Addr}
    (hr : RR.rank ((w.plugin i).setTasks c (RR.inserted w i a c).1)
      ((w.statics (w.plugin i).dl).addPerPrio c (w.heap a).params.priority 1) (w.assign i a c) a c behind =
        .ok (st, heap)) :
    RR.Exact ((w.plugin i).setTasks c (RR.inserted w i a c).1) st (w.assign i a c) c := by
  have hpar : (w.assign i a c a).params = (w.heap a).params := assign_params w i a c a
  have hassign : RR.Exact (w.plugin i) (w.statics (w.plugin i).dl) (w.assign i a c) c :=
    hex.congr rfl (fun b _ => assign_params w i a c b) rfl rfl
  have htasks := (w.plugin i).setTasks_self c (RR.inserted w i a c).1
  have hsorted : (keysOf RR.priority (w.assign i a c) (RR.inserted w i a c).1.root).Pairwise (· ≤ ·) := by
    have hold := List.pairwise_map.mp hassign.sorted
    unfold RR.inserted rtfTasksetAddSortedPrio
    rw [(listAddSorted_eq _ a _).1]
    exact List.pairwise_map.mpr (addSeek_sorted a (fun x => taskCmp_asc_pos) hold)
  have hperm : (((w.plugin i).setTasks c (RR.inserted w i a c).1).tasks c).root.Perm
      (a :: ((w.plugin i).tasks c).root) := by
    rw [htasks]
    exact rtfTasksetAddSortedPrio_perm _ _ a
  have hcounted := hassign.counted hperm (by rw [htasks]; exact hsorted) (by rw [hpar]; exact hp)
  rw [RR.rank_statics hr]
  rw [hpar] at hcounted ⊢
  exact hcounted

/-- **RR's counters stay exact** when a task is scheduled. -/
theorem RR.exact_schedule (hex : ∀ c, RR.Exact (w.plugin i) (w.statics (w.plugin i).dl) w.heap c)
    (h : RR.rtfPlgTaskSchedule w i a = .ok w') :
    ∀ d, RR.Exact (w'.plugin i) (w'.statics (w.plugin i).dl) w'.heap d := by
  obtain ⟨c, -, hp, htasks, hr⟩ := RR.schedule_ranked h
  have hsame : ∀ b, (w'.heap b).params = (w.assign i a c b).params := by
    intro b
    rw [(RR.rank_frame hr).1 b]
  intro d
  by_cases hd : d = c
  · subst hd
    refine (RR.inserted_exact (hex d) hp hr).congr ?_ (fun b _ => hsame b) rfl rfl
    rw [htasks]
    rfl
  · have hst := RR.rank_statics hr
    refine (hex d).congr ?_ ?_ ?_ ?_
    · rw [htasks, Function.update_of_ne hd]
    · intro b _
      rw [hsame b, assign_params]
    · rw [hst]
      split <;> simp [Statics.addDist, Statics.addPerPrio, hd]
    · rw [hst]
      split <;> simp [Statics.addDist, Statics.addPerPrio, hd]

/-- **RR's counters stay exact** when a task is released that its list has under its id. -/
theorem RR.exact_release {r : Res} (hex : ∀ c, RR.Exact (w.plugin i) (w.statics (w.plugin i).dl) w.heap c)
    (hperm : ((w.plugin i).tasks (w.heap a).cpu).root.Perm (a :: ((w'.plugin i).tasks (w.heap a).cpu).root))
    (h : RR.rtfPlgTaskRelease w i a = .ok (r, w')) :
    ∀ d, RR.Exact (w'.plugin i) (w'.statics (w.plugin i).dl) w'.heap d := by
  obtain ⟨p, hcount, h⟩ := bind_ok.mp h
  obtain ⟨_, -, h⟩ := bind_ok.mp h
  obtain ⟨ts, hts, h⟩ := bind_ok.mp h
  cases h
  obtain ⟨-, rfl⟩ := addCount_ok hcount
  obtain ⟨-, rfl⟩ := read_ok.mp hts
  simp only [World.setPlugin, World.setStatics, World.setTask, Plugin.setTasks, Function.update_self] at hperm ⊢
  have hheap : ∀ b, (Function.update w.heap a { w.heap a with pluginid := -1 } b).params = (w.heap b).params := by
    intro b
    by_cases hb : b = a
    · rw [hb, Function.update_self]
    · rw [Function.update_of_ne hb]
  intro d
  by_cases hd : d = (w.heap a).cpu
  · subst hd
    have hsub : (rtfTasksetRemoveByRsvid w.heap ((w.plugin i).tasks (w.heap a).cpu) (w.heap a).id).2.root.Sublist
        ((w.plugin i).tasks (w.heap a).cpu).root := by
      unfold rtfTasksetRemoveByRsvid
      rw [(listRemove_eq _ _).2]
      exact List.eraseP_sublist
    have hun := @RR.Exact.uncounted (w.plugin i) ((w.plugin i).setTasks (w.heap a).cpu
      (rtfTasksetRemoveByRsvid w.heap ((w.plugin i).tasks (w.heap a).cpu) (w.heap a).id).2) _ w.heap (w.heap a).cpu a
      (hex _) (by simpa [Plugin.setTasks] using hperm) (by simpa [Plugin.setTasks] using hsub)
    refine hun.congr ?_ (fun b _ => hheap b) rfl rfl
    simp [Plugin.setTasks]
  · refine (hex d).congr ?_ (fun b _ => hheap b) ?_ ?_
    · simp [hd]
    · unfold RR.uncount
      dsimp only
      split <;> simp [Statics.addDist, Statics.addPerPrio, hd]
    · unfold RR.uncount
      dsimp only
      split <;> simp [Statics.addDist, Statics.addPerPrio, hd]

end Moves

end Retif
