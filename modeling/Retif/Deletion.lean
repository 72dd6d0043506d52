/-
# Bulk deletion on disconnect

`rtf_scheduler_delete` takes the tasks of a process out of the taskset, one in
each turn, and has each released by the plugin it names. `deleteCalls` is the
same loop with a record of the releases it calls. A release looks up the
per-core tables of the plugin and the static tables of RM and RR; it changes
the record of its own task only.

Key definitions: `deleteCalls`, `InStatics`, `Deleted`.
Key theorems: `deleteCalls_loop`, `release_returns`, `bulk_deletion`,
`inStatics_run`, `bulk_deletion_reached`.
-/
import Retif.Placement

namespace Retif

open CList

/-! ### The loop and its calls -/

/-- The loop of `rtf_scheduler_delete`, with the plugin and the task of every release. -/
def deleteCalls (ppid : Pid) : ℕ → Sched → Except Fault (List (ℕ × Addr) × Sched)
  | 0, s => .ok ([], s)
  | fuel + 1, s =>
    match rtfTasksetRemoveByPpid s.heap s.taskset ppid with
    | (none, _) => .ok ([], s)
    | (some a, ts) => do
      let i ← s.pluginAt (s.heap a).pluginid
      let (_, w) ← rtfPlgTaskRelease s.toWorld i a
      let (calls, s) ← deleteCalls ppid fuel { s with toWorld := w, taskset := ts }
      .ok ((i, a) :: calls, s)

/-- The record adds nothing to the loop. -/
theorem deleteCalls_loop {ppid : Pid} {fuel : ℕ} {s s' : Sched} {calls : List (ℕ × Addr)}
    (h : deleteCalls ppid fuel s = .ok (calls, s')) : deleteLoop ppid fuel s = .ok s' := by
  induction fuel generalizing s calls with
  | zero =>
    simp only [deleteCalls, Except.ok.injEq, Prod.mk.injEq] at h
    rw [deleteLoop, h.2]
  | succ fuel ih =>
    unfold deleteCalls at h
    unfold deleteLoop
    rcases hrm : rtfTasksetRemoveByPpid s.heap s.taskset ppid with ⟨_ | a, ts⟩
    · rw [hrm] at h
      simp only [Except.ok.injEq, Prod.mk.injEq] at h
      rw [← h.2]
    · rw [hrm] at h
      obtain ⟨i, hi, h⟩ := bind_ok.mp h
      obtain ⟨⟨r, w⟩, hw, h⟩ := bind_ok.mp h
      obtain ⟨⟨calls', s₁⟩, hrest, h⟩ := bind_ok.mp h
      simp only [Except.ok.injEq, Prod.mk.injEq] at h
      obtain ⟨-, rfl⟩ := h
      have hrelease : releaseTask { s with taskset := ts } a = .ok { s with toWorld := w, taskset := ts } :=
        bind_ok.mpr ⟨i, hi, bind_ok.mpr ⟨(r, w), hw, rfl⟩⟩
      exact bind_ok.mpr ⟨_, hrelease, ih hrest⟩

/-- A removal finds nothing, or takes out the first element with the key. -/
theorem listRemove_split (ts : Taskset) (key : Addr → Bool) :
    (listRemove ts key = (none, ts) ∧ ∀ a ∈ ts.root, key a = false) ∨
      ∃ a ts' l₁ l₂, listRemove ts key = (some a, ts') ∧ ts.root = l₁ ++ a :: l₂ ∧ ts'.root = l₁ ++ l₂ ∧
        key a = true ∧ ∀ b ∈ l₁, key b = false := by
  rcases listRemove_cases ts key with hnone | ⟨a, ts', hrm, -, -, hroot, -⟩
  · exact .inl hnone
  · have hfind : ts.root.find? key = some a := by rw [← (listRemove_eq ts key).1, hrm]
    obtain ⟨hk, l₁, l₂, hl, hn⟩ := List.find?_eq_some_iff_append.mp hfind
    have hn' : ∀ b ∈ l₁, key b = false := by simpa using hn
    refine .inr ⟨a, ts', l₁, l₂, hrm, hl, ?_, hk, hn'⟩
    rw [hroot, hl, List.eraseP_append_right _ (by simpa using hn'), List.eraseP_cons_of_pos hk]

/-! ### Releases that return -/

/-- The plugin the task at `a` names has static tables that reach to it. -/
def InStatics (w : World) (a : Addr) : Prop :=
  ∀ i : ℕ, (w.heap a).pluginid = i → Fenced (w.plugin i).toPluginInfo (w.heap a)

theorem RM.uncount_returns {c : ℕ} (h : c < MAX_CPU) (st : Statics) (twin : Bool) :
    ∃ st', RM.uncount st c twin = .ok st' := by
  unfold RM.uncount
  split
  · exact ⟨_, bind_ok.mpr ⟨(), checkCore_ok.mpr h, rfl⟩⟩
  · exact ⟨_, rfl⟩

theorem RM.giveBack_returns {this : Plugin} {c : ℕ} (h : this.InTable c) (u : ℚ) :
    ∃ p, RM.giveBack this c u = .ok p := by
  unfold RM.giveBack
  split
  · exact addUtil_returns h u
  · exact ⟨_, rfl⟩

/-- With an entry wherever it looks, a release returns. -/
theorem release_returns {w : World} {i : ℕ} {a : Addr} (htab : (w.plugin i).InTable (w.heap a).cpu)
    (hst : Fenced (w.plugin i).toPluginInfo (w.heap a)) : ∃ r w', rtfPlgTaskRelease w i a = .ok (r, w') := by
  obtain ⟨hcore, hprio⟩ := hst
  suffices h : ∃ q, rtfPlgTaskRelease w i a = .ok q by
    obtain ⟨⟨r, w'⟩, hq⟩ := h
    exact ⟨r, w', hq⟩
  unfold rtfPlgTaskRelease
  split
  · refine bind_returns (addUtil_returns htab _) fun p hp => ?_
    obtain ⟨-, rfl⟩ := addUtil_ok hp
    exact bind_returns (addCount_returns (by exact htab) _) fun _ _ => ⟨_, rfl⟩
  · rename_i hk
    refine bind_returns ⟨_, read_ok.mpr ⟨htab, rfl⟩⟩ fun ts _ => ?_
    refine bind_returns (RM.uncount_returns (hcore (by rw [hk]; rfl)) _ _) fun st _ => ?_
    refine bind_returns (RM.giveBack_returns htab _) fun p hp => ?_
    obtain rfl := RM.giveBack_ok hp
    exact bind_returns (addCount_returns (by exact htab) _) fun _ _ => ⟨_, rfl⟩
  · rename_i hk
    refine bind_returns (addCount_returns htab _) fun p hp => ?_
    obtain ⟨-, rfl⟩ := addCount_ok hp
    refine bind_returns ⟨(), checkPrio_ok.mpr ⟨hcore (by rw [hk]; rfl), hprio hk⟩⟩ fun _ _ => ?_
    exact bind_returns ⟨_, read_ok.mpr ⟨htab, rfl⟩⟩ fun _ _ => ⟨_, rfl⟩
  · exact bind_returns (addCount_returns htab _) fun _ _ => ⟨_, rfl⟩

/-! ### What the loop leaves -/

/-- The releases deleting `ppid` asks for: of each of its tasks, by the plugin it names. -/
def callsFor (ppid : Pid) (s : Sched) : List (ℕ × Addr) :=
  (s.taskset.root.filter fun a => (s.heap a).ptid = ppid).map fun a => ((s.heap a).pluginid.toNat, a)

/-- The tasks of `ppid` are gone, each released once by the plugin it named;
the others are there as before, records included. -/
structure Deleted (ppid : Pid) (s : Sched) (calls : List (ℕ × Addr)) (s' : Sched) : Prop where
  taskset : s'.taskset.root = s.taskset.root.filter fun a => (s.heap a).ptid ≠ ppid
  size : s'.taskset.n = s'.taskset.root.length
  released : calls = callsFor ppid s
  once : calls.Nodup
  others : ∀ a, ¬ (a ∈ s.taskset.root ∧ (s.heap a).ptid = ppid) → s'.heap a = s.heap a

/-- A release finds what it looks up: the plugin of the table the task names,
and the entries of its tables. -/
structure Releasable (s : Sched) (a : Addr) : Prop where
  valid : 0 ≤ (s.heap a).pluginid ∧ (s.heap a).pluginid < s.numOfPlugins
  table : ∀ i : ℕ, (s.heap a).pluginid = i → (s.plugin i).InTable (s.heap a).cpu
  statics : InStatics s.toWorld a

section Loop

variable {s : Sched} {ppid : Pid}

/-- The release of a task that is releasable returns, by the plugin it names. -/
theorem Releasable.returns {a : Addr} (h : Releasable s a) :
    ∃ i r w, s.pluginAt (s.heap a).pluginid = .ok i ∧ i = (s.heap a).pluginid.toNat ∧
      rtfPlgTaskRelease s.toWorld i a = .ok (r, w) := by
  obtain ⟨h0, hlt⟩ := h.valid
  have hid : (s.heap a).pluginid = (s.heap a).pluginid.toNat := by omega
  obtain ⟨r, w, hw⟩ : ∃ r w, rtfPlgTaskRelease s.toWorld _ a = .ok (r, w) :=
    release_returns (h.table _ hid) (h.statics _ hid)
  exact ⟨_, r, w, pluginAt_ok.mpr ⟨hid, by omega⟩, rfl, hw⟩

/-- Releasing another task leaves a task releasable. -/
theorem Releasable.released {a b : Addr} {i : ℕ} {r : Res} {w : World} {ts : Taskset} (h : Releasable s b)
    (hne : b ≠ a) (hrel : Released s.toWorld i a r w) : Releasable { s with toWorld := w, taskset := ts } b := by
  have hheap : w.heap b = s.heap b := hrel.heap_ne hne
  have hinfo := hrel.info_eq
  refine ⟨?_, ?_, ?_⟩
  · show 0 ≤ (w.heap b).pluginid ∧ (w.heap b).pluginid < s.numOfPlugins
    rw [hheap]
    exact h.valid
  · intro j hj
    change (w.heap b).pluginid = j at hj
    show (w.plugin j).InTable (w.heap b).cpu
    rw [hheap] at hj ⊢
    rw [hinfo j]
    exact h.table j hj
  · intro j hj
    change (w.heap b).pluginid = j at hj
    show Fenced (w.plugin j).toPluginInfo (w.heap b)
    rw [hheap] at hj ⊢
    rw [hinfo j]
    exact h.statics j hj

/-- Without duplicates, no release is asked for twice. -/
theorem callsFor_nodup (hnodup : s.taskset.root.Nodup) : (callsFor ppid s).Nodup := by
  refine (hnodup.filter _).map ?_
  intro a b hab
  simpa using congrArg Prod.snd hab

/-- The turn that releases `a`: what the rest of the loop asks for, and what it keeps. -/
theorem callsFor_turn {w : World} {ts : Taskset} {a : Addr} {l₁ l₂ : List Addr} (hroot : s.taskset.root = l₁ ++ a :: l₂)
    (hts : ts.root = l₁ ++ l₂) (ha : (s.heap a).ptid = ppid) (hbefore : ∀ b ∈ l₁, (s.heap b).ptid ≠ ppid)
    (hheap : ∀ b ∈ ts.root, w.heap b = s.heap b) :
    callsFor ppid s = ((s.heap a).pluginid.toNat, a) :: callsFor ppid { s with toWorld := w, taskset := ts } ∧
      (ts.root.filter fun b => (w.heap b).ptid ≠ ppid) = s.taskset.root.filter fun b => (s.heap b).ptid ≠ ppid := by
  have hnone : l₁.filter (fun b => (s.heap b).ptid = ppid) = [] :=
    List.filter_eq_nil_iff.mpr (by simpa using hbefore)
  have hkept : (ts.root.filter fun b => (w.heap b).ptid = ppid) = l₂.filter fun b => (s.heap b).ptid = ppid := by
    calc (ts.root.filter fun b => (w.heap b).ptid = ppid) = ts.root.filter fun b => (s.heap b).ptid = ppid :=
          List.filter_congr fun b hb => by rw [hheap b hb]
      _ = l₂.filter fun b => (s.heap b).ptid = ppid := by rw [hts, List.filter_append, hnone, List.nil_append]
  constructor
  · show (s.taskset.root.filter _).map _ = _ :: (ts.root.filter fun b => (w.heap b).ptid = ppid).map fun b =>
      ((w.heap b).pluginid.toNat, b)
    rw [hkept, hroot, List.filter_append, hnone, List.nil_append, List.filter_cons_of_pos (by simpa using ha),
      List.map_cons]
    congr 1
    refine List.map_congr_left fun b hb => ?_
    have hb' : b ∈ ts.root := by
      rw [hts]
      exact List.mem_append_right l₁ (List.mem_filter.mp hb).1
    rw [hheap b hb']
  · calc (ts.root.filter fun b => (w.heap b).ptid ≠ ppid) = ts.root.filter fun b => (s.heap b).ptid ≠ ppid :=
          List.filter_congr fun b hb => by rw [hheap b hb]
      _ = s.taskset.root.filter fun b => (s.heap b).ptid ≠ ppid := by simp [hts, hroot, ha]

/-- A taskset without a task of `ppid` is left alone. -/
theorem deleteCalls_none (hne : ∀ a ∈ s.taskset.root, (s.heap a).ptid ≠ ppid) :
    (∀ fuel, deleteCalls ppid fuel s = .ok ([], s)) ∧ Deleted ppid s [] s := by
  refine ⟨?_, ?_, s.taskset.n_eq, ?_, List.nodup_nil, fun _ _ => rfl⟩
  · intro fuel
    cases fuel with
    | zero => rfl
    | succ fuel =>
      rcases listRemove_split s.taskset fun a => (s.heap a).ptid == ppid with ⟨hrm, -⟩ | ⟨a, _, l₁, l₂, -, hroot, -, ha, -⟩
      · unfold deleteCalls rtfTasksetRemoveByPpid
        rw [hrm]
      · exact absurd (by simpa using ha) (hne a (by simp [hroot]))
  · rw [List.filter_eq_self.mpr (by simpa using hne)]
  · rw [callsFor, List.filter_eq_nil_iff.mpr (by simpa using hne), List.map_nil]

/-- **The loop**, by induction on the tasks it can still take out. -/
theorem deleteCalls_deleted {n : ℕ} (hl : s.taskset.root.length ≤ n) (hnodup : s.taskset.root.Nodup)
    (hrel : ∀ a ∈ s.taskset.root, (s.heap a).ptid = ppid → Releasable s a) :
    ∃ calls s', (∀ fuel, s.taskset.root.length ≤ fuel → deleteCalls ppid fuel s = .ok (calls, s')) ∧
      Deleted ppid s calls s' := by
  induction n generalizing s with
  | zero =>
    have hnil : s.taskset.root = [] := List.eq_nil_of_length_eq_zero (Nat.le_zero.mp hl)
    obtain ⟨hcalls, hD⟩ : (∀ fuel, deleteCalls ppid fuel s = .ok ([], s)) ∧ Deleted ppid s [] s :=
      deleteCalls_none (by simp [hnil])
    exact ⟨[], s, fun fuel _ => hcalls fuel, hD⟩
  | succ n ih =>
    rcases listRemove_split s.taskset fun a => (s.heap a).ptid == ppid with
      ⟨hrm, hnone⟩ | ⟨a, ts, l₁, l₂, hrm, hroot, hts, ha, hbefore⟩
    · obtain ⟨hcalls, hD⟩ : (∀ fuel, deleteCalls ppid fuel s = .ok ([], s)) ∧ Deleted ppid s [] s :=
        deleteCalls_none (by simpa using hnone)
      exact ⟨[], s, fun fuel _ => hcalls fuel, hD⟩
    · have hpa : (s.heap a).ptid = ppid := by simpa using ha
      have hmem : a ∈ s.taskset.root := by simp [hroot]
      obtain ⟨i, r, w, hi, hidx, hw⟩ := (hrel a hmem hpa).returns
      have hR := release_released hw
      have hperm : s.taskset.root.Perm (a :: ts.root) := by
        rw [hroot, hts]
        exact List.perm_middle
      obtain ⟨hnot, hnodup'⟩ := List.nodup_cons.mp (hperm.nodup_iff.mp hnodup)
      have hlen := hperm.length_eq
      rw [List.length_cons] at hlen
      have hother : ∀ b ∈ ts.root, b ≠ a := by
        rintro b hb rfl
        exact hnot hb
      -- the records of the tasks that are left are those of `s`
      have hheap : ∀ b ∈ ts.root, w.heap b = s.heap b := fun b hb => hR.heap_ne (hother b hb)
      have hrel' : ∀ b ∈ ts.root, (w.heap b).ptid = ppid → Releasable { s with toWorld := w, taskset := ts } b := by
        intro b hb hpb
        rw [hheap b hb] at hpb
        exact (hrel b (hperm.mem_iff.mpr (List.mem_cons_of_mem a hb)) hpb).released (hother b hb) hR
      obtain ⟨calls, s', hcalls, hD⟩ :=
        @ih { s with toWorld := w, taskset := ts } (by show ts.root.length ≤ n; omega) hnodup' hrel'
      obtain ⟨hturn, hkept⟩ := callsFor_turn hroot hts hpa (by simpa using hbefore) hheap
      have hall : (i, a) :: calls = callsFor ppid s := by rw [hturn, hidx, hD.released]
      refine ⟨(i, a) :: calls, s', ?_, hD.taskset.trans hkept, hD.size, hall, ?_, ?_⟩
      · intro fuel hf
        obtain ⟨fuel, rfl⟩ : ∃ m, fuel = m + 1 := ⟨fuel - 1, by omega⟩
        have hrest := hcalls fuel (by show ts.root.length ≤ fuel; omega)
        unfold deleteCalls rtfTasksetRemoveByPpid
        rw [hrm]
        exact bind_ok.mpr ⟨i, hi, bind_ok.mpr ⟨(r, w), hw, bind_ok.mpr ⟨(calls, s'), hrest, rfl⟩⟩⟩
      · rw [hall]
        exact callsFor_nodup hnodup
      · intro b hb
        have hba : b ≠ a := by
          rintro rfl
          exact hb ⟨hmem, hpa⟩
        have hwb : w.heap b = s.heap b := hR.heap_ne hba
        refine (hD.others b ?_).trans hwb
        rintro ⟨hbts, hpb⟩
        change (w.heap b).ptid = ppid at hpb
        rw [hwb] at hpb
        exact hb ⟨hperm.mem_iff.mpr (List.mem_cons_of_mem a hbts), hpb⟩

/-- Tasks of the table's plugins, with maps for tables, can be released. -/
theorem releasable_of_maps (hvalid : ∀ a ∈ s.taskset.root, 0 ≤ (s.heap a).pluginid ∧ (s.heap a).pluginid < s.numOfPlugins)
    (hmaps : ∀ i < s.numOfPlugins, (s.plugin i).entries = none)
    (hstatics : ∀ a ∈ s.taskset.root, (s.heap a).ptid = ppid → InStatics s.toWorld a) :
    ∀ a ∈ s.taskset.root, (s.heap a).ptid = ppid → Releasable s a := by
  intro a ha hpa
  refine ⟨hvalid a ha, ?_, hstatics a ha hpa⟩
  intro i hi n hn
  obtain ⟨h0, hlt⟩ := hvalid a ha
  rw [hmaps i (by omega)] at hn
  cases hn

/-- The loop is given as many turns as there are tasks. -/
theorem delete_deleted (hnodup : s.taskset.root.Nodup)
    (hrel : ∀ a ∈ s.taskset.root, (s.heap a).ptid = ppid → Releasable s a) :
    ∃ calls s', rtfSchedulerDelete s ppid = .ok s' ∧ Deleted ppid s calls s' ∧
      ∀ fuel, s.taskset.n ≤ fuel → deleteCalls ppid fuel s = .ok (calls, s') := by
  obtain ⟨calls, s', hcalls, hD⟩ := deleteCalls_deleted le_rfl hnodup hrel
  rw [← s.taskset.n_eq] at hcalls
  exact ⟨calls, s', deleteCalls_loop (hcalls s.taskset.n le_rfl), hD, hcalls⟩

/-- **Bulk deletion**: in every state in which each task names a plugin of the
table, no id is there twice and the tables of the plugins are maps, and the
tasks of `ppid` lie within the static tables (on RM and RR a core below `MAX_CPU`,
on RR a declared priority below `MAX_PRIO`), the loop ends with exactly the
tasks of `ppid` gone, and no turn is left out for want of fuel. -/
theorem bulk_deletion (hvalid : ∀ a ∈ s.taskset.root, 0 ≤ (s.heap a).pluginid ∧ (s.heap a).pluginid < s.numOfPlugins)
    (hids : (s.taskset.root.map fun a => (s.heap a).id).Nodup)
    (hmaps : ∀ i < s.numOfPlugins, (s.plugin i).entries = none)
    (hstatics : ∀ a ∈ s.taskset.root, (s.heap a).ptid = ppid → InStatics s.toWorld a) :
    ∃ calls s', rtfSchedulerDelete s ppid = .ok s' ∧ Deleted ppid s calls s' ∧
      ∀ fuel, s.taskset.n ≤ fuel → deleteCalls ppid fuel s = .ok (calls, s') := by
  have hrel := releasable_of_maps hvalid hmaps hstatics
  exact delete_deleted (hids.of_map _) hrel

end Loop

/-! ### Where tasks are in a run -/

/-- Lists of RM are on cores its static table reaches. -/
def ListsFenced (w : World) : Prop :=
  ∀ i, (w.plugin i).kind = .rm → ∀ c, ((w.plugin i).tasks c).root ≠ [] → c < MAX_CPU

section Fences

variable {w w' : World} {i : ℕ} {a : Addr} {r : Res}

/-- RM counts the first period of a core, so the static table reaches to it. -/
theorem RM.rank_core {this : Plugin} {st : Statics} {heap : Heap} {c : ℕ} {behind : List Addr}
    {q : Statics × Heap} (h : RM.rank this st heap a c behind = .ok q) : c < MAX_CPU ∨ behind ≠ [] := by
  rcases behind with _ | ⟨b, behind⟩
  · left
    obtain ⟨_, hc, -⟩ := bind_ok.mp h
    exact checkCore_ok.mp hc
  · exact .inr (by simp)

theorem RM.schedule_core (hL : ListsFenced w) (hk : (w.plugin i).kind = .rm)
    (h : RM.rtfPlgTaskSchedule w i a = .ok w') : (w'.heap a).cpu < MAX_CPU := by
  obtain ⟨c, st, heap, u, hc, hr, hcpu, -, rfl⟩ := RM.schedule_ok h
  simp only [World.setPlugin, World.setTask, World.setStatics, Function.update_self, hcpu]
  rcases RM.rank_core hr with hcore | hbehind
  · exact hcore
  · -- a task behind the new one was on the list before
    refine hL i hk c fun hnil => hbehind ?_
    unfold rtfTasksetAddSortedPr
    rw [(listAddSorted_eq _ a _).2, hnil]
    rfl

theorem RR.schedule_core (h : RR.rtfPlgTaskSchedule w i a = .ok w') :
    (w'.heap a).cpu < MAX_CPU ∧ (w.heap a).params.priority.toNat < MAX_PRIO := by
  obtain ⟨c, st, heap, hc, hprio, hr, hcpu, rfl⟩ := RR.schedule_ok h
  simp only [World.setPlugin, World.setStatics, hcpu]
  exact checkPrio_ok.mp hprio

/-- What a plugin takes on is within its static tables. -/
theorem schedule_fenced (hL : ListsFenced w) (h : rtfPlgTaskSchedule w i a = .ok w') :
    Fenced (w.plugin i).toPluginInfo (w'.heap a) := by
  have hparams : (w'.heap a).params = (w.heap a).params := by
    obtain ⟨c, hP⟩ := schedule_placed h
    rw [hP.task]
  unfold Fenced
  rw [hparams]
  unfold rtfPlgTaskSchedule at h
  split at h
  · rename_i hk
    simp [hk, Kind.keepsList]
  · rename_i hk
    exact ⟨fun _ => RM.schedule_core hL hk h, by simp [hk]⟩
  · obtain ⟨hcore, hprio⟩ := RR.schedule_core h
    exact ⟨fun _ => hcore, fun _ => hprio⟩
  · rename_i hk
    simp [hk, Kind.keepsList]

theorem schedule_listsFenced (hL : ListsFenced w) (h : rtfPlgTaskSchedule w i a = .ok w') : ListsFenced w' := by
  have hF := schedule_fenced hL h
  obtain ⟨c, hP⟩ := schedule_placed h
  have hcpu : (w'.heap a).cpu = c := by rw [hP.task]
  intro j hj d hd
  rw [hP.info_eq j] at hj
  by_cases hji : j = i
  · subst hji
    have hperm := hP.list d
    split at hperm
    · rename_i hcond
      rw [hcond.2, ← hcpu]
      exact hF.1 hcond.1
    · refine hL j hj d fun hnil => hd ?_
      rw [hnil] at hperm
      exact List.perm_nil.mp hperm
  · rw [hP.others j hji] at hd
    exact hL j hj d hd

theorem release_listsFenced (hL : ListsFenced w) (h : rtfPlgTaskRelease w i a = .ok (r, w')) : ListsFenced w' := by
  have hR := release_released h
  intro j hj d hd
  rw [hR.info_eq j] at hj
  refine hL j hj d fun hnil => hd ?_
  by_cases hji : j = i
  · subst hji
    rw [hR.list d]
    split
    · unfold rtfTasksetRemoveByRsvid
      rw [(listRemove_eq _ _).2, hnil]
      rfl
    · exact hnil
  · rw [hR.others j hji]
    exact hnil

end Fences

/-- Every task is within the static tables of the plugin it names, and so is
every list of RM. -/
structure Within (s : Sched) : Prop where
  sane : Sane s
  lists : ListsFenced s.toWorld
  tasks : ∀ a ∈ s.taskset.root, InStatics s.toWorld a

section Steps

variable {s s' : Sched} {r : Res}

/-- A task that is where it was, with plugins configured as they were. -/
theorem InStatics.congr {w w' : World} {a : Addr} (h : InStatics w a)
    (hinfo : ∀ j, (w'.plugin j).toPluginInfo = (w.plugin j).toPluginInfo)
    (hheap : w'.heap a = { w.heap a with schedprio := (w'.heap a).schedprio }) : InStatics w' a := by
  intro j hj
  unfold Fenced
  rw [hheap] at hj ⊢
  rw [hinfo j]
  exact h j hj

/-- The plugin that schedules a task is the one it names, and reaches to it. -/
theorem inStatics_scheduled {a : Addr} {i : ℕ} {w w' : World} (hid : (w.plugin i).id = i) (hL : ListsFenced w)
    (h : rtfPlgTaskSchedule w i a = .ok w') : InStatics w' a := by
  have hF := schedule_fenced hL h
  obtain ⟨c, hP⟩ := schedule_placed h
  intro j hj
  have hname : (w'.heap a).pluginid = (w.plugin i).id := by rw [hP.task]
  obtain rfl : j = i := by
    rw [hname, hid] at hj
    exact_mod_cast hj.symm
  rw [hP.info_eq j]
  exact hF

theorem within_create {tp : Params} {ppid : Pid} (hW : Within s) (h : rtfSchedulerTaskCreate s tp ppid = .ok (r, s')) :
    Within s' := by
  have hS' := sane_create hW.sane h
  have hold : ∀ a ∈ s.taskset.root, InStatics (s.alloc tp ppid).toWorld a := fun a ha =>
    (hW.tasks a ha).congr (fun _ => rfl) (by simp only [hW.sane.alloc_heap tp ppid ha])
  rcases create_ok h with ⟨-, rfl⟩ | ⟨i, w, hch, hs, rfl⟩
  · exact ⟨hS', hW.lists, hold⟩
  · have hi := (assignee_some hch).1
    have hid : ((s.alloc tp ppid).plugin i).id = i := hW.sane.ids i hi
    have hL : ListsFenced (s.alloc tp ppid).toWorld := hW.lists
    refine ⟨hS', schedule_listsFenced hL hs, ?_⟩
    intro a ha
    rcases List.mem_cons.mp ha with rfl | ha
    · exact inStatics_scheduled hid hL hs
    · obtain ⟨c, hP⟩ := schedule_placed hs
      exact (hold a ha).congr hP.info_eq (hP.rest a (hW.sane.fresh a ha).ne)

theorem within_change {tp : Params} {id : UInt32} (hW : Within s) (h : rtfSchedulerTaskChange s tp id = .ok (r, s')) :
    Within s' := by
  have hS' := sane_change hW.sane h
  rcases change_ok h with rfl | ⟨a, i, r', w, w', -, hc, hr, hs, rfl⟩
  · exact hW
  · have hR := release_released hr
    have hL := release_listsFenced hW.lists hr
    have hid : (w.plugin i).id = i := by
      rw [hR.info_eq]
      exact hW.sane.ids i (taker_some hc).1
    refine ⟨hS', schedule_listsFenced hL hs, ?_⟩
    intro b hb
    by_cases hba : b = a
    · subst hba
      exact inStatics_scheduled hid hL hs
    · obtain ⟨c, hP⟩ := schedule_placed hs
      have hreleased : InStatics w b := (hW.tasks b hb).congr hR.info_eq (by rw [hR.heap_ne hba])
      exact hreleased.congr hP.info_eq (hP.rest b hba)

theorem within_removes {key : Addr → Bool} {a : Addr} (hW : Within s) (h : Removes key s a s') : Within s' := by
  have hS' := sane_removes hW.sane h
  obtain ⟨-, hp, -⟩ := h.root
  have hat := (List.nodup_cons.mp (hp.nodup_iff.mp hW.sane.nodup)).1
  obtain ⟨ts, i, r, w, -, -, -, hr, rfl⟩ := h
  have hR := release_released hr
  refine ⟨hS', release_listsFenced hW.lists hr, ?_⟩
  intro b hb
  have hne : b ≠ a := fun hba => hat (hba ▸ hb)
  exact (hW.tasks b (hp.mem_iff.mpr (List.mem_cons_of_mem a hb))).congr hR.info_eq (by rw [hR.heap_ne hne])

theorem within_step {o : Op} (hW : Within s) (h : step s o = .ok (r, s')) : Within s' := by
  refine step_inv ?_ ?_ ?_ ?_ hW h
  · intro tp ppid _ hcreate
    exact within_create hW hcreate
  · intro tp id _ hchange
    exact within_change hW hchange
  · intro heap k hheap
    refine ⟨⟨hW.sane.nodup, hW.sane.fresh, hW.sane.ids⟩, hW.lists, ?_⟩
    intro b hb j hj
    have htask := hW.tasks b hb j
    change (heap b).pluginid = j at hj
    show Fenced (s.plugin j).toPluginInfo (heap b)
    rw [hheap b] at hj ⊢
    exact htask hj
  · intro key s a s' hI hrm
    exact within_removes hI hrm

end Steps

/-- A run keeps to the static tables: it would have stopped where a task was scheduled. -/
theorem inStatics_run {alloc : ℕ → Option ℕ} {load : List UInt8 → Option Image} {confs : List ConfPlugin}
    {plgs : List Plugin} {k : Kernel} {s : Sched} (hinit : rtfPluginsInit alloc load confs = some plgs)
    (hrun : Reach step (fun _ _ => True) (Sched.start plgs k) s) : ∀ a ∈ s.taskset.root, InStatics s.toWorld a := by
  have hstart : Within (Sched.start plgs k) := by
    refine ⟨sane_start hinit k, ?_, by simp [Sched.start]⟩
    intro i hk c hc
    by_cases hi : i < (Sched.start plgs k).numOfPlugins
    · obtain ⟨_, _, -, -, hp⟩ := start_plugin hinit k hi
      rw [hp] at hc
      exact absurd rfl hc
    · -- behind the table there is FP
      have hnone : plgs[i]? = none := List.getElem?_eq_none (not_lt.mp hi)
      simp [Sched.start, List.getD_eq_getElem?_getD, hnone, initPlugin] at hk
  exact (hrun.inv hstart fun _ _ _ _ hI _ hs => within_step hI hs).tasks

/-- **Bulk deletion in a run**, as long as ids are distinct: no access is out of range. -/
theorem bulk_deletion_reached {load : List UInt8 → Option Image} {confs : List ConfPlugin} {plgs : List Plugin}
    {k : Kernel} {s : Sched} (hinit : rtfPluginsInit asMaps load confs = some plgs)
    (hrun : Reach step (fun _ _ => True) (Sched.start plgs k) s)
    (hids : (s.taskset.root.map fun a => (s.heap a).id).Nodup) (ppid : Pid) :
    ∃ calls s', rtfSchedulerDelete s ppid = .ok s' ∧ Deleted ppid s calls s' := by
  have hH : Held s := hrun.inv (held_start hinit k) fun _ _ _ _ hI _ hs => held_step hI hs
  have hvalid : ∀ a ∈ s.taskset.root, 0 ≤ (s.heap a).pluginid ∧ (s.heap a).pluginid < s.numOfPlugins := by
    intro a ha
    obtain ⟨i, -, hi, hp, -⟩ := hH.pluginAt ha
    omega
  have hmaps : ∀ i < s.numOfPlugins, (s.plugin i).entries = none := by
    have hsame : SameConfig (Sched.start plgs k) s :=
      hrun.inv (SameConfig.refl _) fun _ _ _ _ hI _ hs => hI.trans (sameConfig_step hs)
    intro i hi
    obtain ⟨_, _, -, -, hp⟩ := start_plugin hinit k (hsame.1 ▸ hi)
    rw [hsame.2 i, hp]
    rfl
  have hrel := @releasable_of_maps s ppid hvalid hmaps fun a ha _ => inStatics_run hinit hrun a ha
  obtain ⟨calls, s', h, hD, -⟩ := delete_deleted (hids.of_map _) hrel
  exact ⟨calls, s', h, hD⟩

namespace DeletionExample

/-- RM and RR, both on core 0. -/
def confs : List ConfPlugin :=
  [⟨"RM".toUTF8.toList, [2], 10, 20, [0]⟩, ⟨"RR".toUTF8.toList, [3], 10, 20, [0]⟩]

def plgs : List Plugin := (rtfPluginsInit asMaps BooksExample.load confs).getD []

theorem init_plgs : rtfPluginsInit asMaps BooksExample.load confs = some plgs := rfl

/-- Tasks of processes 1 and 2 in turn, on RM and on RR. -/
def creates : List Op :=
  [.create (BooksExample.params 10) 1, .create { Params.zero with priority := 5 } 2,
    .create { Params.zero with priority := 7 } 1, .create (BooksExample.params 20) 2]

end DeletionExample

open DeletionExample in
/-- Process 1 leaves, with a task on each plugin. -/
theorem bulk_deletion_first : ∃ s, runGood step (fun _ _ => True) creates
    (Sched.start DeletionExample.plgs BooksExample.kernel) = some s ∧ s.taskset.root = [3, 2, 1, 0] ∧
      ∃ calls s', rtfSchedulerDelete s 1 = .ok s' ∧ Deleted 1 s calls s' ∧
        ∀ fuel, s.taskset.n ≤ fuel → deleteCalls 1 fuel s = .ok (calls, s') := by
  have hend : (runGood step (fun _ _ => True) creates
      (Sched.start DeletionExample.plgs BooksExample.kernel)).any (fun s => s.taskset.root = [3, 2, 1, 0] ∧
        (∀ a ∈ s.taskset.root, 0 ≤ (s.heap a).pluginid ∧ (s.heap a).pluginid < s.numOfPlugins) ∧
          (s.taskset.root.map fun a => (s.heap a).id).Nodup ∧ ∀ i < s.numOfPlugins, (s.plugin i).entries = none) =
      true := by decide +kernel
  obtain ⟨s, hs, hv⟩ := (Option.any_eq_true _ _).mp hend
  simp only [decide_eq_true_eq] at hv
  obtain ⟨hroot, hvalid, hids, hmaps⟩ := hv
  have hstatics := inStatics_run DeletionExample.init_plgs (reach_runGood hs)
  exact ⟨s, hs, hroot, bulk_deletion hvalid hids hmaps fun a ha _ => hstatics a ha⟩

end Retif
