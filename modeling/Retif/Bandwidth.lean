/-
# What the kernel keeps for the threads of EDF

The kernel holds a runtime, a deadline and a period for a `SCHED_DEADLINE`
thread, in nanoseconds, and keeps that share of a core for it (its density).
The books of EDF are about tasks, in microseconds, and the two are connected
by attach, detach and release alone: a task may be attached to a second
thread, two tasks may name one thread, and a release lowers the thread only
if it finds it in the plugin's policy. Where a task is not given another
thread while its old one is in `SCHED_DEADLINE` (`HandsOver`), each such
thread is run for a task that is on the books (`Serves`), so the shares of
the threads of a core sum to at most 1 for each EDF entry that has the core.

Key definitions: `Entry.density`, `Serves`, `HandsOver`, `Reserves`.
Key theorems: `served_step`, `Serves.density_eq`, `bandwidth_run`.
-/
import Retif.Schedulable
import Retif.Threads

namespace Retif

open CList

/-- The share of a core that the kernel keeps for a `SCHED_DEADLINE` thread. -/
def Entry.density (e : Entry) : ℚ := (e.schedRuntime.toNat : ℚ) / (min e.schedDeadline.toNat e.schedPeriod.toNat : ℕ)

/-! ### What the tasks declare -/

/-- The times of a task fit in 64 bits as nanoseconds. -/
def InNanos (tp : Params) : Prop := tp.period.toNat * 1000 < 2 ^ 64 ∧ tp.deadline.toNat * 1000 < 2 ^ 64

instance (tp : Params) : Decidable (InNanos tp) := by
  unfold InNanos; infer_instance

/-- The times a create declares fit. -/
def Timed : Op → Prop
  | .create tp _ => InNanos tp
  | _ => True

instance (o : Op) : Decidable (Timed o) :=
  match o with
  | .create tp _ => inferInstanceAs (Decidable (InNanos tp))
  | .change _ _ | .attach _ _ | .detach _ | .destroy _ | .delete _ => inferInstanceAs (Decidable True)

/-- Every task declares what meets `P`. -/
def AllDeclare (P : Params → Prop) (s : Sched) : Prop := ∀ a ∈ s.taskset.root, P (s.heap a).params

section Declared

variable {P : Params → Prop} {s s' : Sched} {r : Res}

theorem allDeclare_create {tp : Params} {ppid : Pid} (hS : Sane s) (hD : AllDeclare P s) (hP : P tp)
    (h : rtfSchedulerTaskCreate s tp ppid = .ok (r, s')) : AllDeclare P s' := by
  have hold : ∀ b ∈ s.taskset.root, (s.alloc tp ppid).heap b = s.heap b := fun b hb => hS.alloc_heap tp ppid hb
  rcases create_ok h with ⟨-, rfl⟩ | ⟨i, w, -, hs, rfl⟩
  · intro b hb
    rw [hold b hb]
    exact hD b hb
  · obtain ⟨c, hpl⟩ := schedule_placed hs
    intro b hb
    show P (w.heap b).params
    rw [(hpl.task_eq b).2.2.2]
    rcases List.mem_cons.mp hb with rfl | hb
    · rw [s.alloc_self tp ppid]
      exact hP
    · rw [hold b hb]
      exact hD b hb

theorem allDeclare_removes {key : Addr → Bool} {a : Addr} (hD : AllDeclare P s) (h : Removes key s a s') :
    AllDeclare P s' := by
  obtain ⟨-, hp, -⟩ := h.root
  obtain ⟨ts, i, r, w, -, -, -, hr, rfl⟩ := h
  intro b hb
  show P (w.heap b).params
  rw [(release_released hr).task_eq b]
  exact hD b (hp.mem_iff.mpr (List.mem_cons_of_mem a hb))

end Declared

/-! ### The thread and its task -/

/-- Thread `tid` runs for the task at `a`, of the EDF plugin `i`: the kernel
holds what the record of `a` says, and keeps the thread on the task's core. -/
structure Serves (s : Sched) (tid : Pid) (a : Addr) (i : ℕ) : Prop where
  mem : a ∈ s.taskset.root
  lt : i < s.numOfPlugins
  edf : (s.plugin i).kind = .edf
  own : (s.heap a).pluginid = i
  thread : (s.heap a).tid = tid
  pinned : (s.kernel.entry tid).affinity = {(s.heap a).cpu}
  runtime : (s.kernel.entry tid).schedRuntime = MICRO_TO_NANO (s.heap a).acceptedt
  deadline : (s.kernel.entry tid).schedDeadline = MICRO_TO_NANO (attrDeadline (s.heap a))
  period : (s.kernel.entry tid).schedPeriod = MICRO_TO_NANO (rtfTaskGetPeriod (s.heap a))

/-- Every `SCHED_DEADLINE` thread runs for a task. -/
def RunForTasks (s : Sched) : Prop := ∀ tid, (s.kernel.entry tid).policy = .deadline → ∃ a i, Serves s tid a i

/-- A task is given another thread only where its old one is not in `SCHED_DEADLINE`. -/
def HandsOver (s : Sched) : Op → Prop
  | .attach id pid => ∀ a ∈ rtfTasksetSearch s.heap s.taskset id,
      (s.kernel.entry (s.heap a).tid).policy = .deadline → (s.heap a).tid = pid
  | _ => True

instance (s : Sched) (o : Op) : Decidable (HandsOver s o) :=
  match o with
  | .attach id pid => inferInstanceAs (Decidable (∀ a ∈ rtfTasksetSearch s.heap s.taskset id,
      (s.kernel.entry (s.heap a).tid).policy = .deadline → (s.heap a).tid = pid))
  | .create _ _ | .change _ _ | .detach _ | .destroy _ | .delete _ => inferInstanceAs (Decidable True)

/-- A thread keeps its task where the kernel and the record stay as they are. -/
theorem Serves.congr {s s' : Sched} {tid : Pid} {a : Addr} {i : ℕ} (h : Serves s tid a i) (hsame : SameConfig s s')
    (hmem : a ∈ s'.taskset.root) (ha : s'.heap a = { s.heap a with schedprio := (s'.heap a).schedprio })
    (he : s'.kernel.entry tid = s.kernel.entry tid) : Serves s' tid a i := by
  refine ⟨hmem, ?_, ?_, ?_, ?_, ?_, ?_, ?_, ?_⟩
  · rw [hsame.1]
    exact h.lt
  · rw [hsame.2]
    exact h.edf
  · rw [ha]
    exact h.own
  · rw [ha]
    exact h.thread
  · rw [he, ha]
    exact h.pinned
  · rw [he, ha]
    exact h.runtime
  · rw [he, ha]
    exact h.deadline
  · rw [he, ha]
    exact h.period

/-- Attaching leaves a thread in `SCHED_DEADLINE` only if EDF does it. -/
theorem attach_policy {s : Sched} {a : Addr} {i : ℕ} {pid : Pid} (hk : s.kernel.AllSucceed)
    (hown : (s.heap a).pluginid = i) (hi : i < s.numOfPlugins)
    (hd : ((rtfPlgTaskAttach (s.plugin i) s.kernel { s.heap a with tid := pid }).2.entry pid).policy = .deadline) :
    (s.plugin i).kind = .edf := by
  obtain ⟨-, -, j, -, hown', hpol, -⟩ := attach_follows pid hk hown hi
  simp only [Function.update_self] at hown' hpol
  obtain rfl : i = j := by
    rw [hown] at hown'
    exact_mod_cast hown'
  rw [hd] at hpol
  rcases hkind : (s.plugin i).kind with _ | _ | _ | _
  · rfl
  all_goals
    rw [hkind] at hpol
    cases hpol

/-- The thread EDF has attached runs for the task. -/
theorem attach_serves {s : Sched} {a : Addr} {i : ℕ} (pid : Pid) (hk : s.kernel.AllSucceed)
    (hmem : a ∈ s.taskset.root) (hown : (s.heap a).pluginid = i) (hi : i < s.numOfPlugins)
    (hedf : (s.plugin i).kind = .edf) :
    Serves { s with
      heap := Function.update s.heap a { s.heap a with tid := pid }
      kernel := (rtfPlgTaskAttach (s.plugin i) s.kernel { s.heap a with tid := pid }).2 } pid a i := by
  have hentry : (rtfPlgTaskAttach (s.plugin i) s.kernel { s.heap a with tid := pid }).2.entry pid =
      deadlineEntry { s.heap a with tid := pid } (s.kernel.entry pid) := by
    unfold rtfPlgTaskAttach
    rw [hedf]
    show (attachDeadline s.kernel { s.heap a with tid := pid }).2.entry pid = _
    rw [(attachDeadline_ok hk _).2.2]
    exact Function.update_self ..
  refine ⟨hmem, hi, hedf, ?_, ?_, ?_, ?_, ?_, ?_⟩
  · simpa using hown
  · simp
  all_goals
    simp only [hentry, Function.update_self]
    rfl

/-! ### One operation -/

section Steps

variable {s s' : Sched} {r : Res}

theorem served_create {tp : Params} {ppid : Pid} (hS : Sane s) (hV : RunForTasks s)
    (h : rtfSchedulerTaskCreate s tp ppid = .ok (r, s')) : RunForTasks s' := by
  have hsame := sameConfig_step (o := .create tp ppid) h
  have hold : ∀ b ∈ s.taskset.root, (s.alloc tp ppid).heap b = s.heap b := fun b hb => hS.alloc_heap tp ppid hb
  rcases create_ok h with ⟨-, rfl⟩ | ⟨i, w, -, hs, rfl⟩
  · intro tid hd
    obtain ⟨a, i, hserves⟩ := hV tid hd
    exact ⟨a, i, hserves.congr hsame hserves.mem (by rw [hold a hserves.mem]) rfl⟩
  · obtain ⟨c, hP⟩ := schedule_placed hs
    intro tid hd
    change (w.kernel.entry tid).policy = .deadline at hd
    rw [hP.kernel] at hd
    obtain ⟨a, j, hserves⟩ := hV tid hd
    refine ⟨a, j, hserves.congr hsame (List.mem_cons_of_mem _ hserves.mem) ?_ ?_⟩
    · have hrest := hP.rest a (hS.fresh a hserves.mem).ne
      rw [hold a hserves.mem] at hrest
      exact hrest
    · show w.kernel.entry tid = _
      rw [hP.kernel]
      rfl

theorem served_removes {key : Addr → Bool} {a : Addr} (hk : s.kernel.AllSucceed) (hV : RunForTasks s)
    (h : Removes key s a s') : RunForTasks s' := by
  have hsame := sameConfig_removes h
  obtain ⟨-, hp, -⟩ := h.root
  obtain ⟨ts, i, r, w, -, hown, hi, hr, rfl⟩ := h
  have hR := release_released hr
  intro tid hd
  have hraised : Raised w.kernel tid := by
    unfold Raised
    change (w.kernel.entry tid).policy = .deadline at hd
    rw [hd]
    decide
  obtain ⟨-, hpol, hnot⟩ := hR.raised hk hraised
  have hentry := hR.entry_raised hk hraised
  have hbefore : (s.kernel.entry tid).policy = .deadline := hpol.symm.trans hd
  obtain ⟨b, j, hserves⟩ := hV tid hbefore
  have hne : b ≠ a := by
    -- the release of `a` itself would have lowered the thread
    rintro rfl
    refine hnot ⟨hserves.thread.symm, ?_⟩
    have hij : i = j := by
      have hboth := hown.symm.trans hserves.own
      exact_mod_cast hboth
    have hkind : (s.plugin i).kind = .edf := by
      rw [hij]
      exact hserves.edf
    change (s.kernel.entry tid).policy = (s.plugin i).kind.policy
    rw [hbefore, hkind]
    rfl
  refine ⟨b, j, hserves.congr hsame ?_ ?_ hentry⟩
  · exact (List.mem_cons.mp (hp.mem_iff.mp hserves.mem)).resolve_left hne
  · show w.heap b = { s.heap b with schedprio := (w.heap b).schedprio }
    rw [hR.heap_ne hne]

theorem served_attach {id : UInt32} {pid : Pid} (hk : s.kernel.AllSucceed) (hV : RunForTasks s)
    (hg : HandsOver s (.attach id pid)) (h : rtfSchedulerTaskAttach s id pid = .ok (r, s')) : RunForTasks s' := by
  rcases attach_ok h with ⟨-, rfl⟩ | ⟨a, i, ha, hown, hi, -, rfl⟩
  · exact hV
  have hmem := (rtfTasksetSearch_some ha).1
  intro tid hd
  by_cases ht : tid = pid
  · subst ht
    exact ⟨a, i, attach_serves tid hk hmem hown hi (attach_policy hk hown hi hd)⟩
  · have he : (rtfPlgTaskAttach (s.plugin i) s.kernel { s.heap a with tid := pid }).2.entry tid =
        s.kernel.entry tid := attach_entry_ne _ _ _ ht
    change ((rtfPlgTaskAttach (s.plugin i) s.kernel { s.heap a with tid := pid }).2.entry tid).policy = _ at hd
    rw [he] at hd
    obtain ⟨b, j, hserves⟩ := hV tid hd
    have hne : b ≠ a := by
      -- else `a` is given `pid` in place of a thread that EDF still runs
      rintro rfl
      have hthread := hserves.thread
      refine ht ?_
      rw [← hthread]
      refine hg b ha ?_
      rw [hthread]
      exact hd
    refine ⟨b, j, hserves.congr ⟨rfl, fun _ => rfl⟩ hserves.mem ?_ he⟩
    show Function.update s.heap a { s.heap a with tid := pid } b =
      { s.heap b with schedprio := (Function.update s.heap a { s.heap a with tid := pid } b).schedprio }
    rw [Function.update_of_ne hne]

theorem served_detach {id : UInt32} (hk : s.kernel.AllSucceed) (hV : RunForTasks s)
    (h : rtfSchedulerTaskDetach s id = .ok (r, s')) : RunForTasks s' := by
  rcases detach_ok h with ⟨-, rfl⟩ | ⟨a, i, -, -, -, rfl⟩
  · exact hV
  obtain ⟨-, -, hentry⟩ := detachThread_ok hk (s.heap a)
  intro tid hd
  change ((rtfPlgTaskDetach (s.plugin i) s.kernel (s.heap a)).2.entry tid).policy = .deadline at hd
  rw [detach_eq, hentry] at hd
  by_cases ht : tid = (s.heap a).tid
  · subst ht
    simp at hd
  · rw [Function.update_of_ne ht] at hd
    obtain ⟨b, j, hserves⟩ := hV tid hd
    refine ⟨b, j, hserves.congr ⟨rfl, fun _ => rfl⟩ hserves.mem rfl ?_⟩
    show (rtfPlgTaskDetach (s.plugin i) s.kernel (s.heap a)).2.entry tid = _
    rw [detach_eq, hentry, Function.update_of_ne ht]

/-- The kernel answers, and the threads it runs under `SCHED_DEADLINE` run for tasks. -/
structure Serving (s : Sched) : Prop where
  sane : Sane s
  allSucceed : s.kernel.AllSucceed
  served : RunForTasks s

theorem serving_removes {key : Addr → Bool} {a : Addr} (hV : Serving s) (h : Removes key s a s') : Serving s' := by
  refine ⟨sane_removes hV.sane h, ?_, served_removes hV.allSucceed hV.served h⟩
  obtain ⟨ts, i, r, w, -, -, -, hr, rfl⟩ := h
  exact (release_released hr).allSucceed hV.allSucceed

/-- **One operation** that hands threads over in order leaves every `SCHED_DEADLINE` thread a task. -/
theorem serving_step {o : Op} (hV : Serving s) (hplain : PlainOp o) (hg : HandsOver s o)
    (h : step s o = .ok (r, s')) : Serving s' := by
  have hsane := sane_step hV.sane h
  rcases o with ⟨tp, ppid⟩ | ⟨tp, id⟩ | ⟨id, pid⟩ | ⟨id⟩ | ⟨id⟩ | ⟨ppid⟩
  · refine ⟨hsane, ?_, served_create hV.sane hV.served h⟩
    rcases create_ok h with ⟨-, rfl⟩ | ⟨i, w, -, hs, rfl⟩
    · exact hV.allSucceed
    · obtain ⟨c, hP⟩ := schedule_placed hs
      show w.kernel.AllSucceed
      rw [hP.kernel]
      exact hV.allSucceed
  · exact hplain.elim
  · refine ⟨hsane, ?_, served_attach hV.allSucceed hV.served hg h⟩
    rcases attach_ok h with ⟨-, rfl⟩ | ⟨a, i, -, hown, hi, -, rfl⟩
    · exact hV.allSucceed
    · exact attach_allSucceed hV.allSucceed hown hi
  · refine ⟨hsane, ?_, served_detach hV.allSucceed hV.served h⟩
    rcases detach_ok h with ⟨-, rfl⟩ | ⟨a, i, -, -, -, rfl⟩
    · exact hV.allSucceed
    · show (rtfPlgTaskDetach (s.plugin i) s.kernel (s.heap a)).2.AllSucceed
      rw [detach_eq]
      exact (detachThread_ok hV.allSucceed (s.heap a)).2.1
  · rcases destroy_ok h with rfl | ⟨a, hrm⟩
    · exact hV
    · exact serving_removes hV hrm
  · obtain ⟨s1, hs1, h⟩ := bind_ok.mp h
    cases h
    exact delete_inv (fun s a s' hI hrm => serving_removes hI hrm) hs1 hV

/-- What every create declares, every task declares. -/
theorem declared_step {P : Params → Prop} {o : Op} (hS : Sane s) (hD : AllDeclare P s) (hplain : PlainOp o)
    (hP : ∀ tp ppid, o = .create tp ppid → P tp) (h : step s o = .ok (r, s')) : AllDeclare P s' := by
  refine step_inv (I := AllDeclare P) ?_ ?_ ?_ ?_ hD h
  · intro tp ppid ho hcreate
    exact allDeclare_create hS hD (hP tp ppid ho) hcreate
  · rintro tp id rfl _
    exact hplain.elim
  · intro heap k hheap b hb
    show P (heap b).params
    rw [hheap b]
    exact hD b hb
  · intro key s a s' hI hrm
    exact allDeclare_removes hI hrm

end Steps

/-! ### The share of a thread -/

theorem toNat_nano {x : UInt64} (h : x.toNat * 1000 < 2 ^ 64) : (MICRO_TO_NANO x).toNat = x.toNat * 1000 := by
  unfold MICRO_TO_NANO
  rw [UInt64.toNat_mul]
  exact Nat.mod_eq_of_lt h

/-- The deadline asked for fits, if the declared times do. -/
theorem attrDeadline_nanos {t : Task} (h : InNanos t.params) : (attrDeadline t).toNat * 1000 < 2 ^ 64 := by
  unfold attrDeadline rtfTaskGetDeadline rtfTaskGetPeriod
  split
  · exact h.2
  · exact h.1

/-- A budget of at most a whole core fits, if the period does. -/
theorem cost_le_period {t : Task} (hp : t.params.period ≠ 0) (hd : t.sporadic.density ≤ 1) :
    t.acceptedt.toNat ≤ t.params.period.toNat := by
  have hpos : ∀ x : UInt64, x ≠ 0 → 0 < x.toNat := fun x hx => Nat.pos_of_ne_zero fun h0 => hx (UInt64.toNat_inj.mp h0)
  have hmin : 0 < min t.sporadic.deadline t.sporadic.period :=
    lt_min (hpos _ (attrDeadline_ne hp)) (hpos _ hp)
  unfold Edf.Sporadic.density at hd
  rw [div_le_one (by exact_mod_cast hmin)] at hd
  have hle : t.sporadic.cost ≤ min t.sporadic.deadline t.sporadic.period := by exact_mod_cast hd
  exact hle.trans (min_le_right _ _)

/-- **The kernel keeps for a thread the density of its task.** -/
theorem Serves.density_eq {s : Sched} {tid : Pid} {a : Addr} {i : ℕ} (h : Serves s tid a i)
    (hn : InNanos (s.heap a).params) (hp : (s.heap a).params.period ≠ 0) (hd : (s.heap a).sporadic.density ≤ 1) :
    (s.kernel.entry tid).density = (s.heap a).sporadic.density := by
  have hperiod : (rtfTaskGetPeriod (s.heap a)).toNat * 1000 < 2 ^ 64 := hn.1
  have hcost : (s.heap a).acceptedt.toNat * 1000 < 2 ^ 64 :=
    lt_of_le_of_lt (Nat.mul_le_mul_right 1000 (cost_le_period hp hd)) hperiod
  unfold Entry.density Edf.Sporadic.density
  rw [h.runtime, h.deadline, h.period, toNat_nano hcost, toNat_nano (attrDeadline_nanos hn), toNat_nano hperiod,
    Nat.mul_min_mul_right]
  push_cast
  exact mul_div_mul_right _ _ (by norm_num)

/-! ### A core -/

/-- The EDF entries that have core `c`. -/
def edfEntries (s : Sched) (c : ℕ) : Finset ℕ :=
  (Finset.range s.numOfPlugins).filter fun i => (s.plugin i).kind = .edf ∧ c ∈ (s.plugin i).cpulist

/-- The tasks the EDF entries have put on core `c`. -/
def edfTasks (s : Sched) (c : ℕ) : Finset Addr :=
  (edfEntries s c).biUnion fun i => (placed s.heap s.taskset.root i c).toFinset

theorem density_nonneg (t : Task) : 0 ≤ t.sporadic.density := div_nonneg (Nat.cast_nonneg _) (Nat.cast_nonneg _)

/-- The densities of a core's tasks sum to at most 1 for each entry. -/
theorem edfTasks_density {s : Sched} (hT : Tallied s) (hC : Covered s) (hB : AllBacked s) (c : ℕ) :
    ∑ a ∈ edfTasks s c, (s.heap a).sporadic.density ≤ (edfEntries s c).card := by
  unfold edfTasks
  rw [Finset.sum_biUnion]
  · calc ∑ i ∈ edfEntries s c, ∑ a ∈ (placed s.heap s.taskset.root i c).toFinset, (s.heap a).sporadic.density
        ≤ ∑ _i ∈ edfEntries s c, (1 : ℚ) := by
          refine Finset.sum_le_sum ?_
          intro i hi
          obtain ⟨hlt, hk, -⟩ := Finset.mem_filter.mp hi
          exact density_le_one hT hC hB (Finset.mem_range.mp hlt) hk c
      _ = (edfEntries s c).card := by simp
  · -- a record names one plugin
    intro i _ j _ hij
    rw [Function.onFun, Finset.disjoint_left]
    intro a ha ha'
    have hi := (mem_placed.mp (List.mem_toFinset.mp ha)).2.1
    have hj := (mem_placed.mp (List.mem_toFinset.mp ha')).2.1
    refine hij ?_
    have hboth := hi.symm.trans hj
    exact_mod_cast hboth

/-- A task that a thread of core `c` runs for is one of them. -/
theorem Serves.mem_edfTasks {s : Sched} {tid : Pid} {a : Addr} {i c : ℕ} (h : Serves s tid a i) (hH : Held s)
    (hc : (s.kernel.entry tid).affinity = {c}) : a ∈ edfTasks s c := by
  obtain ⟨j, hj, hown, hcore⟩ := hH.held a h.mem
  obtain rfl : i = j := by
    have hboth := h.own.symm.trans hown
    exact_mod_cast hboth
  have hcpu : (s.heap a).cpu = c := by
    have hpin := h.pinned
    rw [hc] at hpin
    exact (Finset.singleton_inj.mp hpin).symm
  rw [hcpu] at hcore
  refine Finset.mem_biUnion.mpr ⟨i, ?_, ?_⟩
  · exact Finset.mem_filter.mpr ⟨Finset.mem_range.mpr h.lt, h.edf, hcore⟩
  · exact List.mem_toFinset.mpr (mem_placed.mpr ⟨h.mem, h.own, hcpu⟩)

/-! ### Runs -/

/-- What is asked of an operation: a create is fair, asks for no more than its
runtime and fits in nanoseconds; no change; threads are handed over in order. -/
structure Reserves (s : Sched) (o : Op) : Prop where
  admits : Admits s o
  modest : Modest o
  timed : Timed o
  handsOver : HandsOver s o

instance (s : Sched) (o : Op) : Decidable (Reserves s o) :=
  decidable_of_iff (Admits s o ∧ Modest o ∧ Timed o ∧ HandsOver s o)
    ⟨fun h => ⟨h.1, h.2.1, h.2.2.1, h.2.2.2⟩, fun h => ⟨h.admits, h.modest, h.timed, h.handsOver⟩⟩

/-- The invariant: the books, what is on them, and the threads. -/
structure Reserved (s : Sched) : Prop where
  tallied : Tallied s
  covered : Covered s
  backed : AllBacked s
  held : Held s
  declared : AllDeclare InNanos s
  serving : Serving s

theorem reserved_step {s s' : Sched} {o : Op} {r : Res} (hK : Reserved s) (hg : Reserves s o) (h : step s o = .ok (r, s')) :
    Reserved s' := by
  obtain ⟨hadm, hmod, htimed, hover⟩ := hg
  have hplain : PlainOp o := hadm.1
  have hkeep : KeepsPlugin s o := by
    rcases o with _ | _ | _ | _ | _ | _
    · trivial
    · exact hplain.elim
    all_goals trivial
  refine ⟨?_, ?_, ?_, ?_, ?_, ?_⟩
  · exact tallied_step hK.tallied hkeep h
  · exact covered_step hK.tallied hK.covered hadm h
  · exact backed_step hK.tallied hK.backed hadm hmod h
  · exact held_step hK.held h
  · refine declared_step hK.tallied.sane hK.declared hplain ?_ h
    rintro tp ppid rfl
    exact htimed
  · exact serving_step hK.serving hplain hover h

theorem reserved_start {alloc : ℕ → Option ℕ} {load : List UInt8 → Option Image} {confs : List ConfPlugin}
    {plgs : List Plugin} (h : rtfPluginsInit alloc load confs = some plgs) {k : Kernel} (hk : k.AllSucceed)
    (hother : ∀ tid, (k.entry tid).policy ≠ .deadline) : Reserved (Sched.start plgs k) := by
  refine ⟨tallied_start h k, covered_start h k, ?_, held_start h k, ?_, ⟨sane_start h k, hk, ?_⟩⟩
  · simp [AllBacked, Sched.start]
  · simp [AllDeclare, Sched.start]
  · exact fun tid hd => absurd hd (hother tid)

/-- The shares of a core, wherever the invariant holds. -/
theorem Reserved.density_le {s : Sched} (hK : Reserved s) {c : ℕ} {T : Finset Pid}
    (hT : ∀ tid ∈ T, (s.kernel.entry tid).policy = .deadline ∧ (s.kernel.entry tid).affinity = {c}) :
    ∑ tid ∈ T, (s.kernel.entry tid).density ≤ (edfEntries s c).card := by
  have htask : ∀ tid ∈ T, ∃ a i, Serves s tid a i := fun tid ht => hK.serving.served tid (hT tid ht).1
  choose! task entry hserves using htask
  have hinj : Set.InjOn task T := by
    intro x hx y hy hxy
    rw [← (hserves x hx).thread, ← (hserves y hy).thread, hxy]
  have hsub : T.image task ⊆ edfTasks s c := by
    intro a ha
    obtain ⟨tid, ht, rfl⟩ := Finset.mem_image.mp ha
    exact (hserves tid ht).mem_edfTasks hK.held (hT tid ht).2
  have hshare : ∀ tid ∈ T, (s.kernel.entry tid).density = (s.heap (task tid)).sporadic.density := by
    intro tid ht
    have hv := hserves tid ht
    have hback := hK.backed (task tid) hv.mem (entry tid) hv.lt hv.edf hv.own
    refine hv.density_eq (hK.declared _ hv.mem) hback.period ?_
    -- alone it is at most what its core has
    have hone := density_le_one hK.tallied hK.covered hK.backed hv.lt hv.edf (s.heap (task tid)).cpu
    refine le_trans (Finset.single_le_sum (f := fun a => (s.heap a).sporadic.density) ?_ ?_) hone
    · exact fun a _ => density_nonneg (s.heap a)
    · exact List.mem_toFinset.mpr (mem_placed.mpr ⟨hv.mem, hv.own, rfl⟩)
  calc ∑ tid ∈ T, (s.kernel.entry tid).density = ∑ tid ∈ T, (s.heap (task tid)).sporadic.density :=
        Finset.sum_congr rfl hshare
    _ = ∑ a ∈ T.image task, (s.heap a).sporadic.density := (Finset.sum_image (f := fun a => (s.heap a).sporadic.density) hinj).symm
    _ ≤ ∑ a ∈ edfTasks s c, (s.heap a).sporadic.density :=
        Finset.sum_le_sum_of_subset_of_nonneg hsub fun a _ _ => density_nonneg (s.heap a)
    _ ≤ (edfEntries s c).card := edfTasks_density hK.tallied hK.covered hK.backed c

/-- **No core is promised twice to the threads of EDF**: in every run that
reserves in order, each `SCHED_DEADLINE` thread is on one core, of an EDF
entry, and the shares of the threads of a core sum to at most 1 for each EDF
entry that has the core. -/
theorem bandwidth_run {alloc : ℕ → Option ℕ} {load : List UInt8 → Option Image} {confs : List ConfPlugin}
    {plgs : List Plugin} {k : Kernel} {s : Sched} (hinit : rtfPluginsInit alloc load confs = some plgs)
    (hk : k.AllSucceed) (hother : ∀ tid, (k.entry tid).policy ≠ .deadline)
    (hrun : Reach step Reserves (Sched.start plgs k) s) :
    (∀ tid, (s.kernel.entry tid).policy = .deadline →
      ∃ c, (s.kernel.entry tid).affinity = {c} ∧ (edfEntries s c).Nonempty) ∧
    ∀ (c : ℕ) (T : Finset Pid),
      (∀ tid ∈ T, (s.kernel.entry tid).policy = .deadline ∧ (s.kernel.entry tid).affinity = {c}) →
        ∑ tid ∈ T, (s.kernel.entry tid).density ≤ (edfEntries s c).card := by
  have hK : Reserved s := by
    refine hrun.inv (I := Reserved) (reserved_start hinit hk hother) ?_
    intro s o r s' hK hg hs
    exact reserved_step hK hg hs
  refine ⟨?_, fun c T hT => hK.density_le hT⟩
  intro tid hd
  obtain ⟨a, i, hv⟩ := hK.serving.served tid hd
  obtain ⟨j, -, hown, hcore⟩ := hK.held.held a hv.mem
  obtain rfl : i = j := by
    have hboth := hv.own.symm.trans hown
    exact_mod_cast hboth
  exact ⟨_, hv.pinned, i, Finset.mem_filter.mpr ⟨Finset.mem_range.mpr hv.lt, hv.edf, hcore⟩⟩

/-! ### Two threads on a core -/

namespace BandwidthExample

open BooksExample

/-- The second task moves from one thread to another, detached in between. -/
def ops : List Op :=
  [.create (params 50) 1, .create (params 30) 1, .attach 1 7, .attach 2 8, .detach 2, .attach 2 9]

end BandwidthExample

open BandwidthExample BooksExample AttachedExample

theorem bandwidth_twoThreads : ∃ s, runGood step Reserves ops BooksExample.start = some s ∧
    (s.kernel.entry 7).density = 1 / 2 ∧
    ∑ tid ∈ {7, 9}, (s.kernel.entry tid).density ≤ (edfEntries s 0).card := by
  have hend : (runGood step Reserves ops BooksExample.start).any (fun s =>
      (s.kernel.entry 7).policy = .deadline ∧ (s.kernel.entry 7).affinity = {0} ∧
      (s.kernel.entry 9).policy = .deadline ∧ (s.kernel.entry 9).affinity = {0} ∧
      (s.kernel.entry 7).density = 1 / 2) = true := by decide +kernel
  obtain ⟨s, hs, hv⟩ := (Option.any_eq_true _ _).mp hend
  obtain ⟨hp7, ha7, hp9, ha9, hd⟩ := of_decide_eq_true hv
  refine ⟨s, hs, hd, ?_⟩
  refine (bandwidth_run BooksExample.init_plgs kernel_allSucceed ?_ (reach_runGood hs)).2 0 _ ?_
  · intro tid
    simp [kernel]
  · intro tid ht
    rcases Finset.mem_insert.mp ht with rfl | ht
    · exact ⟨hp7, ha7⟩
    · obtain rfl := Finset.mem_singleton.mp ht
      exact ⟨hp9, ha9⟩

end Retif
