/-
# The periods RM counts

`dist_prio` is meant to be the number of distinct periods on a core. Schedule
looks for the new period in the node behind the inserted one, and on a sorted
list that finds it (`addSeek_next`): as long as tasks are only scheduled, the
count is exact. Release takes one off when a twin of the task stays on the
list, that is, when the number of periods does not change, and none when the
period goes: the first release leaves a wrong count.

The lists themselves are sorted in every state, by non-increasing period.

Key definitions: `RM.periodsOn`, `RM.Counts`, `RM.Grows`.
Key theorems: `RM.scheduled_periods`, `RM.released_periods`,
`periods_counted_iff`, `not_periods_counted`.
-/
import Retif.Solo
import Retif.Window

namespace Retif

open CList

/-! ### What RM does to its count -/

section Calls

variable {w : World} {i : ℕ} {a : Addr} {c : ℕ}

/-- The periods in the order of the list: the comparison puts the longest first. -/
theorem RM.inserted_sorted (hs : (keysOf RM.period (w.assign i a c) ((w.plugin i).tasks c).root).Pairwise (· ≥ ·)) :
    (keysOf RM.period (w.assign i a c) (RM.inserted w i a c).1.root).Pairwise (· ≥ ·) ∧
      (RM.sameAsNext (w.assign i a c) (w.assign i a c a) (RM.inserted w i a c).2 = none ↔
        RM.period (w.assign i a c a) ∉ keysOf RM.period (w.assign i a c) ((w.plugin i).tasks c).root) := by
  set heap := w.assign i a c
  -- the longer the period, the smaller the key
  let key : Addr → ℕ := fun x => 2 ^ 64 - RM.period (heap x)
  have hlt : ∀ x, RM.period (heap x) < 2 ^ 64 := fun x => (rtfTaskGetPeriod (heap x)).toNat_lt
  have hle : ∀ x y, key x ≤ key y ↔ RM.period (heap x) ≥ RM.period (heap y) := by
    intro x y
    have hx := hlt x
    have hy := hlt y
    show 2 ^ 64 - RM.period (heap x) ≤ 2 ^ 64 - RM.period (heap y) ↔ _
    omega
  have hkeys : ∀ as : List Addr, (keysOf RM.period heap as).Pairwise (· ≥ ·) ↔ as.Pairwise fun x y => key x ≤ key y := by
    intro as
    unfold keysOf
    rw [List.pairwise_map]
    simp only [hle]
  have hcmp : ∀ x, 0 < taskCmp (heap a) (heap x) .period .dsc ↔ key x < key a := by
    intro x
    rw [taskCmp_dsc_pos, ← not_le, ← not_le, hle]
    rfl
  have hold := (hkeys _).mp hs
  unfold RM.inserted rtfTasksetAddSortedPr
  obtain ⟨hroot, hbehind⟩ := listAddSorted_eq ((w.plugin i).tasks c) a fun x y => taskCmp (heap x) (heap y) .period .dsc
  rw [hroot, hbehind]
  refine ⟨(hkeys _).mpr (addSeek_sorted a hcmp hold), ?_⟩
  have hsame : ∀ x, key x = key a ↔ RM.period (heap x) = RM.period (heap a) := by
    intro x
    have h1 := hle x a
    have h2 := hle a x
    omega
  have hnext := @addSeek_next key (fun x y => taskCmp (heap x) (heap y) .period .dsc) a _ hcmp hold
  simp only [hsame] at hnext
  have hmem : RM.period (heap a) ∈ keysOf RM.period heap ((w.plugin i).tasks c).root ↔
      ∃ x ∈ ((w.plugin i).tasks c).root, RM.period (heap x) = RM.period (heap a) := List.mem_map
  rw [hmem, hnext]
  unfold RM.sameAsNext
  split
  · rename_i next rest hr
    rw [hr]
    have hper : rtfTaskGetPeriod (heap next) = (heap a).params.period ↔
        RM.period (heap next) = RM.period (heap a) := UInt64.toNat_inj.symm
    by_cases he : RM.period (heap next) = RM.period (heap a)
    · rw [if_pos (hper.mpr he)]
      simp [he]
    · rw [if_neg fun h => he (hper.mp h)]
      simp [he]
  · rename_i hr
    rw [hr]
    simp

end Calls

/-! ### The count and the list -/

/-- The periods of the tasks on core `c`, in the order of its list. -/
def RM.periodsOn (s : Solo) (c : ℕ) : List ℕ := keysOf RM.period s.heap ((s.plugin 0).tasks c).root

/-- The core's list is sorted by non-increasing period. -/
def RM.Sorted (s : Solo) (c : ℕ) : Prop := (RM.periodsOn s c).Pairwise (· ≥ ·)

/-- `dist_prio` is the number of distinct periods of the core; it exceeds the window of
`assign_priorities` exactly when they are more than the priorities there are. -/
structure RM.Counts (s : Solo) (c : ℕ) : Prop where
  dist : ((s.statics (s.plugin 0).dl).distPrio c).toNat = (RM.periodsOn s c).toFinset.card
  remaps : ∀ n : ℕ, (s.plugin 0).prioMax - (s.plugin 0).prioMin + 1 = n → n < 2 ^ 32 →
    ((s.statics (s.plugin 0).dl).distPrio c > RM.window (s.plugin 0) ↔ (RM.periodsOn s c).toFinset.card > n)

/-- A task is scheduled, and `dist_prio` has room for its period if that is new on the core it is put on. -/
def RM.Grows (s : Solo) : Move → Prop
  | .schedule _ t => ∀ c ∈ (RM.leastLoadedCpu (s.plugin 0)).toOption, RM.period t ∉ RM.periodsOn s c →
      (RM.periodsOn s c).toFinset.card + 1 < 2 ^ 32
  | .release _ => False

instance (s : Solo) (m : Move) : Decidable (RM.Grows s m) :=
  match m with
  | .schedule _ t => inferInstanceAs (Decidable (∀ c ∈ (RM.leastLoadedCpu (s.plugin 0)).toOption,
      RM.period t ∉ RM.periodsOn s c → (RM.periodsOn s c).toFinset.card + 1 < 2 ^ 32))
  | .release _ => inferInstanceAs (Decidable False)

/-- The tasks a plugin by itself may be given declare a period. -/
def RM.Declared (p : Params) : Prop := p.period ≠ 0

instance RM.decidableDeclared : DecidablePred RM.Declared := fun p => inferInstanceAs (Decidable (p.period ≠ 0))

section Steps

variable {s s' : Solo} {a : Addr} {t : Task} {r : Res} {info : PluginInfo} {ok : Params → Prop}

/-- The comparison of `assign_priorities` follows from the count. -/
theorem RM.counts_iff {c : ℕ} :
    RM.Counts s c ↔ ((s.statics (s.plugin 0).dl).distPrio c).toNat = (RM.periodsOn s c).toFinset.card := by
  refine ⟨fun h => h.dist, fun h => ⟨h, ?_⟩⟩
  intro n hn hlt
  have hwin : ((RM.window (s.plugin 0)).toNat : ℤ) = n := by
    unfold RM.window
    rw [hn]
    exact ofInt_toNat (by omega) (by omega)
  rw [gt_iff_lt, UInt32.lt_iff_toNat_lt, h]
  omega

/-- **Scheduling** puts the period of the task in its place on one core, and counts it there if it is new. -/
theorem RM.scheduled_periods (hk : (s.plugin 0).kind = .rm) (ha : ∀ c, a ∉ ((s.plugin 0).tasks c).root)
    (hs : ∀ c, RM.Sorted s c) (h : soloStep s (.schedule a t) = .ok (r, s')) :
    ∃ c, RM.leastLoadedCpu (s.plugin 0) = .ok c ∧ (∀ d, RM.Sorted s' d) ∧
      (∀ d, d ≠ c → RM.periodsOn s' d = RM.periodsOn s d) ∧
      (RM.periodsOn s' c).Perm (RM.period t :: RM.periodsOn s c) ∧
      s'.statics (s'.plugin 0).dl = if RM.period t ∉ RM.periodsOn s c then
        (s.statics (s.plugin 0).dl).addDist c 1 else s.statics (s.plugin 0).dl := by
  obtain ⟨h, -⟩ := schedule_move h
  obtain ⟨_, hP⟩ := Retif.schedule_placed h
  have hdl : (s'.plugin 0).dl = (s.plugin 0).dl := congrArg PluginInfo.dl hP.info
  have hpar : ∀ b, (s'.heap b).params = ((s.setTask a t).heap b).params := fun b => (hP.task_eq b).2.2.2
  unfold Retif.rtfPlgTaskSchedule at h
  rw [show ((s.setTask a t).plugin 0).kind = .rm from hk] at h
  obtain ⟨c, hc, htasks, hst⟩ := RM.schedule_ranked h
  -- the periods before and after, in the world in which the record is written
  have hassign : ∀ b, ((s.setTask a t).assign 0 a c b).params = ((s.setTask a t).heap b).params :=
    assign_params (s.setTask a t) 0 a c
  have hkeys : ∀ as : List Addr, keysOf RM.period s'.heap as = keysOf RM.period ((s.setTask a t).assign 0 a c) as := by
    intro as
    refine List.map_congr_left ?_
    intro b _
    show (s'.heap b).params.period.toNat = ((s.setTask a t).assign 0 a c b).params.period.toNat
    rw [hpar, hassign]
  have hold : ∀ d, keysOf RM.period ((s.setTask a t).assign 0 a c) ((s.plugin 0).tasks d).root = RM.periodsOn s d := by
    intro d
    refine List.map_congr_left ?_
    intro b hb
    have hne : b ≠ a := fun hba => ha d (hba ▸ hb)
    show ((s.setTask a t).assign 0 a c b).params.period.toNat = (s.heap b).params.period.toNat
    rw [hassign, Solo.setTask_ne _ _ hne]
  have hself : RM.period ((s.setTask a t).assign 0 a c a) = RM.period t := by
    show ((s.setTask a t).assign 0 a c a).params.period.toNat = t.params.period.toNat
    rw [hassign, Solo.setTask_self]
  have hc0 := hs c
  unfold RM.Sorted at hc0
  rw [← hold c] at hc0
  obtain ⟨hsorted, hnone⟩ := RM.inserted_sorted (w := s.setTask a t) (i := 0) (a := a) hc0
  have hnew : RM.periodsOn s' c =
      keysOf RM.period ((s.setTask a t).assign 0 a c) (RM.inserted (s.setTask a t) 0 a c).1.root := by
    unfold RM.periodsOn
    rw [hkeys, htasks, Function.update_self]
  have hrest : ∀ d, d ≠ c → RM.periodsOn s' d = RM.periodsOn s d := by
    intro d hd
    unfold RM.periodsOn
    rw [hkeys, htasks, Function.update_of_ne hd]
    exact hold d
  refine ⟨c, hc, ?_, hrest, ?_, ?_⟩
  · intro d
    by_cases hd : d = c
    · subst hd
      unfold RM.Sorted
      rw [hnew]
      exact hsorted
    · unfold RM.Sorted
      rw [hrest d hd]
      exact hs d
  · rw [hnew, ← hold c, ← hself]
    exact (rtfTasksetAddSortedPr_perm _ _ a).map fun b => RM.period ((s.setTask a t).assign 0 a c b)
  · rw [hdl]
    refine hst.trans (if_congr ?_ rfl rfl)
    rw [← hself, ← hold c]
    exact hnone

/-- **Releasing** takes the task off the list of its core, and a period off the count if a twin stays. -/
theorem RM.released_periods (hK : s.Keeps info ok) (hk : info.kind = .rm) (ha : a ∈ s.held)
    (h : soloStep s (.release a) = .ok (r, s')) :
    (∀ d, (RM.periodsOn s' d).Sublist (RM.periodsOn s d)) ∧
      (RM.periodsOn s (s.heap a).cpu).toFinset =
        insert (RM.period (s.heap a)) (RM.periodsOn s' (s.heap a).cpu).toFinset ∧
      s'.statics (s'.plugin 0).dl = if RM.period (s.heap a) ∈ RM.periodsOn s' (s.heap a).cpu then
        (s.statics (s.plugin 0).dl).addDist (s.heap a).cpu (-1) else s.statics (s.plugin 0).dl := by
  obtain ⟨hrel, -⟩ := release_move h
  have hR := Retif.release_released hrel
  have hkl : info.kind.keepsList := by
    rw [hk]
    rfl
  have hkind : (s.plugin 0).kind = .rm := by rw [hK.info_eq, hk]
  have hdl : (s'.plugin 0).dl = (s.plugin 0).dl := congrArg PluginInfo.dl hR.info
  have hpar : ∀ b, RM.period (s'.heap b) = RM.period (s.heap b) := by
    intro b
    rw [hR.task_eq b]
    rfl
  have hleft := Solo.left_iff hK hkl ha h (s.heap a).cpu
  have hmem : ∀ x, x ∈ RM.periodsOn s' (s.heap a).cpu ↔
      ∃ b ∈ ((s.plugin 0).tasks (s.heap a).cpu).root, b ≠ a ∧ RM.period (s.heap b) = x := by
    intro x
    refine List.mem_map.trans ?_
    simp only [hpar, hleft, and_assoc]
  refine ⟨?_, ?_, ?_⟩
  · intro d
    have hkeys : RM.periodsOn s' d = keysOf RM.period s.heap ((s'.plugin 0).tasks d).root :=
      List.map_congr_left fun b _ => hpar b
    rw [hkeys]
    refine List.Sublist.map _ ?_
    rw [hR.list]
    split
    · unfold rtfTasksetRemoveByRsvid
      rw [(listRemove_eq _ _).2]
      exact List.eraseP_sublist
    · exact .refl _
  · ext x
    rw [List.mem_toFinset, Finset.mem_insert, List.mem_toFinset, hmem]
    refine List.mem_map.trans ?_
    constructor
    · rintro ⟨b, hb, hx⟩
      by_cases hba : b = a
      · subst hba
        exact .inl hx.symm
      · exact .inr ⟨b, hb, hba, hx⟩
    · rintro (rfl | ⟨b, hb, -, hx⟩)
      · exact ⟨a, (hK.mem hkl).mpr ⟨ha, rfl⟩, rfl⟩
      · exact ⟨b, hb, hx⟩
  · unfold Retif.rtfPlgTaskRelease at hrel
    rw [hkind] at hrel
    rw [hdl]
    refine (RM.release_statics hrel).trans (if_congr ?_ rfl rfl)
    rw [hmem, RM.hasTwin, List.any_eq_true]
    refine exists_congr fun b => and_congr_right fun hb => ?_
    have hper : (s.heap b).params.period = (s.heap a).params.period ↔
        RM.period (s.heap b) = RM.period (s.heap a) := UInt64.toNat_inj.symm
    rw [Bool.and_eq_true, beq_iff_eq, bne_iff_ne, hper, hK.id_ne ha ((hK.mem hkl).mp hb).1, and_comm]

/-- From a state with exact counts, scheduling keeps them as long as there is room to count. -/
theorem RM.scheduled_counts_iff (hk : (s.plugin 0).kind = .rm) (ha : ∀ c, a ∉ ((s.plugin 0).tasks c).root)
    (hs : ∀ c, RM.Sorted s c) (hc : ∀ c, RM.Counts s c) (h : soloStep s (.schedule a t) = .ok (r, s')) :
    (∀ c, RM.Counts s' c) ↔ RM.Grows s (.schedule a t) := by
  obtain ⟨c, hcpu, -, hrest, hperm, hst⟩ := RM.scheduled_periods hk ha hs h
  have hgrows : RM.Grows s (.schedule a t) ↔ (RM.period t ∉ RM.periodsOn s c →
      (RM.periodsOn s c).toFinset.card + 1 < 2 ^ 32) := by
    unfold RM.Grows
    rw [hcpu]
    simp [Except.toOption]
  have hfin : (RM.periodsOn s' c).toFinset = insert (RM.period t) (RM.periodsOn s c).toFinset := by
    rw [List.toFinset_eq_of_perm _ _ hperm, List.toFinset_cons]
  have hold : ∀ d, d ≠ c → RM.Counts s' d := by
    intro d hd
    rw [RM.counts_iff, hst, hrest d hd, ← (hc d).dist]
    split
    · rw [Statics.addDist_ne _ hd]
    · rfl
  have hself : RM.Counts s' c ↔ (RM.period t ∉ RM.periodsOn s c →
      (RM.periodsOn s c).toFinset.card + 1 < 2 ^ 32) := by
    have hdist := (hc c).dist
    rw [RM.counts_iff, hst, hfin]
    by_cases hin : RM.period t ∈ RM.periodsOn s c
    · rw [if_neg (not_not.mpr hin), Finset.insert_eq_of_mem (List.mem_toFinset.mpr hin)]
      exact ⟨fun _ hn => absurd hin hn, fun _ => hdist⟩
    · rw [if_pos hin, Finset.card_insert_of_notMem (fun hm => hin (List.mem_toFinset.mp hm)), ← hdist]
      have hlt := ((s.statics (s.plugin 0).dl).distPrio c).toNat_lt
      have hone : (1 : UInt32).toNat = 1 := rfl
      rw [Statics.addDist_self, UInt32.toNat_add, hone]
      constructor
      · intro he _
        omega
      · intro hroom
        have := hroom hin
        omega
  rw [hgrows, ← hself]
  constructor
  · exact fun hall => hall c
  · intro hc' d
    by_cases hd : d = c
    · rw [hd]
      exact hc'
    · exact hold d hd

/-- From a state with exact counts, every release leaves a wrong one. -/
theorem RM.released_counts (hK : s.Keeps info ok) (hk : info.kind = .rm) (ha : a ∈ s.held)
    (hc : ∀ c, RM.Counts s c) (h : soloStep s (.release a) = .ok (r, s')) :
    ¬ RM.Counts s' (s.heap a).cpu := by
  obtain ⟨-, hfin, hst⟩ := RM.released_periods hK hk ha h
  have hdist := (hc (s.heap a).cpu).dist
  rw [RM.counts_iff, hst]
  rw [hfin] at hdist
  by_cases hin : RM.period (s.heap a) ∈ RM.periodsOn s' (s.heap a).cpu
  · -- a twin stays, and with it the period
    rw [if_pos hin]
    rw [Finset.insert_eq_of_mem (List.mem_toFinset.mpr hin)] at hdist
    have hlt := ((s.statics (s.plugin 0).dl).distPrio (s.heap a).cpu).toNat_lt
    have hneg : (-1 : UInt32).toNat = 2 ^ 32 - 1 := rfl
    rw [Statics.addDist_self, UInt32.toNat_add, hneg]
    omega
  · -- the period goes
    rw [if_neg hin]
    rw [Finset.card_insert_of_notMem (fun hm => hin (List.mem_toFinset.mp hm))] at hdist
    omega

/-- The lists stay sorted. -/
theorem RM.sorted_step {m : Move} (hK : s.Keeps info ok) (hk : info.kind = .rm) (hs : ∀ c, RM.Sorted s c)
    (hp : Proposes ok s m) (h : soloStep s m = .ok (r, s')) : ∀ c, RM.Sorted s' c := by
  have hkl : info.kind.keepsList := by
    rw [hk]
    rfl
  cases m with
  | schedule a t =>
    obtain ⟨c, -, hsorted, -⟩ := RM.scheduled_periods (by rw [hK.info_eq, hk]) (hK.off_lists hkl hp.1) hs h
    exact hsorted
  | release a =>
    intro c
    exact (hs c).sublist ((RM.released_periods hK hk hp h).1 c)

/-- The next move leaves exact counts when it schedules a task there is room to count. -/
theorem RM.counts_step_iff {m : Move} (hK : s.Keeps info ok) (hk : info.kind = .rm) (hs : ∀ c, RM.Sorted s c)
    (hc : ∀ c, RM.Counts s c) (hp : Proposes ok s m) (h : soloStep s m = .ok (r, s')) :
    (∀ c, RM.Counts s' c) ↔ RM.Grows s m := by
  have hkl : info.kind.keepsList := by
    rw [hk]
    rfl
  cases m with
  | schedule a t =>
    exact RM.scheduled_counts_iff (by rw [hK.info_eq, hk]) (hK.off_lists hkl hp.1) hs hc h
  | release a => exact ⟨fun hall => RM.released_counts hK hk hp hc h (hall _), fun hg => hg.elim⟩

end Steps

/-! ### Runs -/

section Runs

variable {alloc : ℕ → Option ℕ} {conf : ConfPlugin} {d : ℕ} {heap : Heap} {k : Kernel} {s : Solo}

/-- The lists of a run of moves. -/
theorem RM.sorted_run (hrun : Reach soloStep (Proposes RM.Declared) (Solo.start alloc conf ⟨.rm, d⟩ heap k) s) :
    s.Keeps (initPlugin alloc 0 conf ⟨.rm, d⟩).toPluginInfo RM.Declared ∧ ∀ c, RM.Sorted s c := by
  refine hrun.inv
    (I := fun s => s.Keeps (initPlugin alloc 0 conf ⟨.rm, d⟩).toPluginInfo RM.Declared ∧ ∀ c, RM.Sorted s c) ?_ ?_
  · exact ⟨Solo.keeps_start .., fun c => List.Pairwise.nil⟩
  · rintro s m r s' ⟨hK, hs⟩ hp h
    exact ⟨Solo.keeps_step rfl hK hp h, RM.sorted_step hK rfl hs hp h⟩

/-- **RM's lists are always sorted, and its count is exact** in every run that only
schedules and has room to count; in such a run the next move keeps it exact if and
only if it is one of those. -/
theorem periods_counted_iff
    (hrun : Reach soloStep (Proposes RM.Declared) (Solo.start alloc conf ⟨.rm, d⟩ heap k) s) :
    (∀ c, RM.Sorted s c) ∧
      (Reach soloStep (fun s m => Proposes RM.Declared s m ∧ RM.Grows s m)
          (Solo.start alloc conf ⟨.rm, d⟩ heap k) s →
        (∀ c, RM.Counts s c) ∧ ∀ m r s', Proposes RM.Declared s m → soloStep s m = .ok (r, s') →
          ((∀ c, RM.Counts s' c) ↔ RM.Grows s m)) := by
  obtain ⟨hK, hs⟩ := RM.sorted_run hrun
  refine ⟨hs, fun hgrows => ?_⟩
  have hc : ∀ c, RM.Counts s c := by
    refine (hgrows.inv (I := fun s => (s.Keeps (initPlugin alloc 0 conf ⟨.rm, d⟩).toPluginInfo RM.Declared ∧
      ∀ c, RM.Sorted s c) ∧ ∀ c, RM.Counts s c) ?_ ?_).2
    · exact ⟨⟨Solo.keeps_start .., fun c => List.Pairwise.nil⟩, fun c => RM.counts_iff.mpr rfl⟩
    · rintro s m r s' ⟨⟨hK, hs⟩, hc⟩ ⟨hp, hg⟩ h
      exact ⟨⟨Solo.keeps_step rfl hK hp h, RM.sorted_step hK rfl hs hp h⟩,
        (RM.counts_step_iff hK rfl hs hc hp h).mpr hg⟩
  exact ⟨hc, fun m r s' hp h => RM.counts_step_iff hK rfl hs hc hp h⟩

end Runs

/-! ### A task that comes and goes -/

namespace PeriodsExample

/-- RM on core 0. -/
def conf : ConfPlugin := ⟨"RM".toUTF8.toList, [2], 10, 20, [0]⟩

def start : Solo := Solo.start asMaps conf ⟨.rm, 2⟩ (fun _ => Task.zero) BooksExample.kernel

/-- A task with the given id and period. -/
def task (id : UInt32) (period : UInt64) : Task :=
  { Task.zero with id := id, params := { Params.zero with runtime := 1, period := period } }

end PeriodsExample

open PeriodsExample

/-- Three tasks with two periods. -/
theorem periods_counted_three : ∃ s, runGood soloStep (fun s m => Proposes RM.Declared s m ∧ RM.Grows s m)
    [.schedule 0 (task 1 100), .schedule 1 (task 2 50), .schedule 2 (task 3 100)] start = some s ∧
      (∀ c, RM.Sorted s c) ∧ ∀ c, RM.Counts s c := by
  have hsome : (runGood soloStep (fun s m => Proposes RM.Declared s m ∧ RM.Grows s m)
      [.schedule 0 (task 1 100), .schedule 1 (task 2 50), .schedule 2 (task 3 100)] start).isSome := by
    decide +kernel
  obtain ⟨s, hs⟩ := Option.isSome_iff_exists.mp hsome
  have hrun := reach_runGood hs
  obtain ⟨hsorted, hcounts⟩ := periods_counted_iff (hrun.mono fun _ _ h => h.1)
  exact ⟨s, hs, hsorted, (hcounts hrun).1⟩

/-- A task is scheduled and released: the list is empty, and one period is counted. -/
theorem not_periods_counted : ¬ ∀ (alloc : ℕ → Option ℕ) (conf : ConfPlugin) (d : ℕ) (heap : Heap) (k : Kernel)
    (s : Solo), Reach soloStep (Proposes RM.Declared) (Solo.start alloc conf ⟨.rm, d⟩ heap k) s →
      (∀ c, RM.Sorted s c) ∧ ∀ c, RM.Counts s c := by
  intro h
  have hend : (runGood soloStep (Proposes RM.Declared) [.schedule 0 (task 1 100), .release 0] start).map
      (fun s => (((s.statics (s.plugin 0).dl).distPrio 0).toNat, (RM.periodsOn s 0).length)) = some (1, 0) := by
    decide +kernel
  obtain ⟨s, hs, hv⟩ := Option.map_eq_some_iff.mp hend
  simp only [Prod.mk.injEq] at hv
  have hdist := ((h _ _ _ _ _ s (reach_runGood hs)).2 0).dist
  rw [hv.1, List.eq_nil_of_length_eq_zero hv.2] at hdist
  cases hdist

end Retif
