/-
# Attached threads

Only attach, detach and release talk to the kernel. `assign_priorities` of RM
and RR writes new real priorities into the records of every task on a core
(`Renumbers`), and `test_and_modify` gives a task another place or plugin,
without a word to the kernel about the threads that are attached already.
Where neither happens to an attached task, and no thread 0 is attached, the
kernel's entry of an attached thread is what the record of its task says.

What the daemon does not remember is proof-only state here: which tasks are
attached, and which were ever attached to a thread.

Key definitions: `Watched`, `watchedStep`, `Follows`, `Renumbers`, `Steady`.
Key theorems: `schedule_quiet`, `synced_step`, `attached_run`, `not_attached_run`.
-/
import Retif.Books

namespace Retif

open CList

/-! ### Priorities handed out anew -/

/-- Scheduling `a` by RM hands out the priorities of a core that has `b`: no
task behind `a` has its period. -/
def RM.Renumbers (w : World) (i : ℕ) (a b : Addr) : Prop :=
  match RM.leastLoadedCpu (w.plugin i) with
  | .ok c => b ∈ ((w.plugin i).tasks c).root ∧
      RM.sameAsNext (w.assign i a c) (w.assign i a c a)
        (rtfTasksetAddSortedPr (w.assign i a c) ((w.plugin i).tasks c) a).2 = none
  | .error _ => False

/-- Scheduling `a` by RR hands out the priorities of a core that has `b`: the
declared priority of `a` is new there. -/
def RR.Renumbers (w : World) (i : ℕ) (a b : Addr) : Prop :=
  match RR.leastLoadedCpu (w.plugin i) with
  | .ok c => b ∈ ((w.plugin i).tasks c).root ∧
      (w.statics (w.plugin i).dl).nPerPrio c (w.heap a).params.priority.toNat = 0
  | .error _ => False

def Renumbers (w : World) (i : ℕ) (a b : Addr) : Prop :=
  match (w.plugin i).kind with
  | .rm => RM.Renumbers w i a b
  | .rr => RR.Renumbers w i a b
  | .edf | .fp => False

instance (w : World) (i : ℕ) (a b : Addr) : Decidable (RM.Renumbers w i a b) := by
  unfold RM.Renumbers; split <;> infer_instance

instance (w : World) (i : ℕ) (a b : Addr) : Decidable (RR.Renumbers w i a b) := by
  unfold RR.Renumbers; split <;> infer_instance

instance (w : World) (i : ℕ) (a b : Addr) : Decidable (Renumbers w i a b) := by
  unfold Renumbers; split <;> infer_instance

section Quiet

variable {w w' : World} {i : ℕ} {a b : Addr}

theorem RM.schedule_quiet (hb : b ≠ a) (hq : ¬ RM.Renumbers w i a b)
    (h : RM.rtfPlgTaskSchedule w i a = .ok w') : w'.heap b = w.heap b := by
  obtain ⟨c, st, heap, u, hc, hr, -, -, rfl⟩ := RM.schedule_ok h
  refine Eq.trans (Function.update_of_ne hb _ _) ?_
  show heap b = w.heap b
  unfold RM.Renumbers at hq
  rw [hc] at hq
  unfold RM.rank at hr
  split at hr
  · cases hr
    rw [Function.update_of_ne hb, w.assign_ne i hb]
  · rename_i hnone
    obtain ⟨_, -, hr⟩ := bind_ok.mp hr
    cases hr
    have hbl : b ∉ ((w.plugin i).tasks c).root := fun hm => hq ⟨hm, hnone⟩
    rw [(RM.assignPriorities_frame _ _ _ c).2 b (setTasks_not_mem (rtfTasksetAddSortedPr_perm _ _ a) hb hbl),
      w.assign_ne i hb]

theorem RR.schedule_quiet (hb : b ≠ a) (hq : ¬ RR.Renumbers w i a b)
    (h : RR.rtfPlgTaskSchedule w i a = .ok w') : w'.heap b = w.heap b := by
  obtain ⟨c, st, heap, hc, -, hr, -, rfl⟩ := RR.schedule_ok h
  show heap b = w.heap b
  unfold RR.Renumbers at hq
  rw [hc] at hq
  unfold RR.rank at hr
  split at hr
  · rename_i hone
    cases hr
    have hbl : b ∉ ((w.plugin i).tasks c).root := by
      intro hm
      refine hq ⟨hm, ?_⟩
      simpa [Statics.addPerPrio, World.assign_self] using hone
    rw [(RR.assignPriorities_frame _ _ _ c).2 b (setTasks_not_mem (rtfTasksetAddSortedPrio_perm _ _ a) hb hbl),
      w.assign_ne i hb]
  · split at hr
    · cases hr
    · cases hr
      rw [Function.update_of_ne hb, w.assign_ne i hb]

/-- Where no priorities are handed out anew, the other records stay. -/
theorem schedule_quiet (hb : b ≠ a) (hq : ¬ Renumbers w i a b) (h : rtfPlgTaskSchedule w i a = .ok w') :
    w'.heap b = w.heap b := by
  unfold Renumbers at hq
  unfold rtfPlgTaskSchedule at h
  rcases hk : (w.plugin i).kind with _ | _ | _ | _ <;> rw [hk] at hq h
  · obtain ⟨c, hc, h⟩ := bind_ok.mp h
    obtain ⟨t, -, h⟩ := bind_ok.mp h
    obtain ⟨p, -, h⟩ := bind_ok.mp h
    obtain ⟨p', -, h⟩ := bind_ok.mp h
    cases h
    exact Function.update_of_ne hb _ _
  · exact RM.schedule_quiet hb hq h
  · exact RR.schedule_quiet hb hq h
  · obtain ⟨c, hc, h⟩ := bind_ok.mp h
    obtain ⟨p, -, h⟩ := bind_ok.mp h
    cases h
    exact Function.update_of_ne hb _ _

end Quiet

/-! ### The kernel and the record -/

/-- The kernel's entry of the thread of `a` says what the record of `a` does. -/
def Follows (s : Sched) (a : Addr) : Prop :=
  ∃ i : ℕ, i < s.numOfPlugins ∧ (s.heap a).pluginid = i ∧
    (s.kernel.entry (s.heap a).tid).policy = (s.plugin i).kind.policy ∧
    (s.kernel.entry (s.heap a).tid).affinity = {(s.heap a).cpu} ∧
    if (s.plugin i).kind = .edf then
      (s.kernel.entry (s.heap a).tid).schedRuntime = MICRO_TO_NANO (s.heap a).acceptedt
    else (s.kernel.entry (s.heap a).tid).prio = (s.heap a).schedprio

theorem Follows.congr {s s' : Sched} {a : Addr} (h : Follows s a) (hn : s'.numOfPlugins = s.numOfPlugins)
    (hp : ∀ i, (s'.plugin i).toPluginInfo = (s.plugin i).toPluginInfo) (ha : s'.heap a = s.heap a)
    (he : s'.kernel.entry (s.heap a).tid = s.kernel.entry (s.heap a).tid) : Follows s' a := by
  obtain ⟨i, hi, h1, h2, h3, h4⟩ := h
  refine ⟨i, by rw [hn]; exact hi, ?_, ?_, ?_, ?_⟩
  · rw [ha, h1]
  · rw [ha, he, hp, h2]
  · rw [ha, he, h3]
  · rw [ha, he, hp]
    exact h4

/-- Attaching a thread makes its entry what the record says, whichever plugin does it. -/
theorem attach_follows {s : Sched} {a : Addr} {i : ℕ} (pid : Pid) (hk : s.kernel.AllSucceed)
    (hown : (s.heap a).pluginid = i) (hi : i < s.numOfPlugins) :
    (rtfPlgTaskAttach (s.plugin i) s.kernel { s.heap a with tid := pid }).1 = .ok ∧
      (rtfPlgTaskAttach (s.plugin i) s.kernel { s.heap a with tid := pid }).2.AllSucceed ∧
      Follows { s with
        heap := Function.update s.heap a { s.heap a with tid := pid }
        kernel := (rtfPlgTaskAttach (s.plugin i) s.kernel { s.heap a with tid := pid }).2 } a := by
  have hposix : ∀ policy, policy = (s.plugin i).kind.policy → (s.plugin i).kind ≠ .edf →
      (attachPosix policy s.kernel { s.heap a with tid := pid }).1 = .ok ∧
      (attachPosix policy s.kernel { s.heap a with tid := pid }).2.AllSucceed ∧
      Follows { s with
        heap := Function.update s.heap a { s.heap a with tid := pid }
        kernel := (attachPosix policy s.kernel { s.heap a with tid := pid }).2 } a := by
    intro policy hpol hne
    obtain ⟨h1, h2, h3⟩ := attachPosix_ok hk policy { s.heap a with tid := pid }
    refine ⟨h1, h2, i, hi, ?_, ?_, ?_, ?_⟩
    · simpa using hown
    · simpa [h3, posixEntry] using hpol
    · simp [h3, posixEntry]
    · rw [if_neg hne]
      simp [h3, posixEntry]
  unfold rtfPlgTaskAttach
  rcases hkind : (s.plugin i).kind with _ | _ | _ | _
  · obtain ⟨h1, h2, h3⟩ := attachDeadline_ok hk { s.heap a with tid := pid }
    refine ⟨h1, h2, i, hi, ?_, ?_, ?_, ?_⟩
    · simpa using hown
    · simp [EDF.rtfPlgTaskAttach, h3, deadlineEntry, hkind, Kind.policy]
    · simp [EDF.rtfPlgTaskAttach, h3, deadlineEntry]
    · rw [if_pos hkind]
      simp [EDF.rtfPlgTaskAttach, h3, deadlineEntry]
  · exact hposix .fifo (by rw [hkind]; rfl) (by rw [hkind]; decide)
  · exact hposix .rr (by rw [hkind]; rfl) (by rw [hkind]; decide)
  · exact hposix .fifo (by rw [hkind]; rfl) (by rw [hkind]; decide)

theorem attach_entry_ne (p : Plugin) (k : Kernel) (t : Task) {tid : Pid} (h : tid ≠ t.tid) :
    (rtfPlgTaskAttach p k t).2.entry tid = k.entry tid := by
  unfold rtfPlgTaskAttach
  split
  · exact attachDeadline_entry_ne k t h
  · exact attachPosix_entry_ne _ k t h
  · exact attachPosix_entry_ne _ k t h
  · exact attachPosix_entry_ne _ k t h

theorem detach_eq (p : Plugin) (k : Kernel) (t : Task) : rtfPlgTaskDetach p k t = detachThread k t := by
  unfold rtfPlgTaskDetach
  split <;> rfl

/-! ### What the daemon does not remember -/

/-- The scheduler, with the tasks whose last attach succeeded and was not
followed by a detach, and the tasks ever attached to a thread. -/
structure Watched extends Sched where
  attached : Addr → Bool
  users : Pid → List Addr

def Watched.start (s : Sched) : Watched := { s with attached := fun _ => false, users := fun _ => [] }

/-- The state after an operation that answered `r`. -/
def Watched.after (w : Watched) (o : Op) (r : Res) (s : Sched) : Watched :=
  match o with
  | .attach id pid =>
    match rtfTasksetSearch w.heap w.taskset id with
    | some a =>
      { s with attached := Function.update w.attached a (decide (r = .ok)),
               users := Function.update w.users pid (a :: w.users pid) }
    | none => { s with attached := w.attached, users := w.users }
  | .detach id =>
    match rtfTasksetSearch w.heap w.taskset id with
    | some a => { s with attached := Function.update w.attached a false, users := w.users }
    | none => { s with attached := w.attached, users := w.users }
  | _ => { s with attached := w.attached, users := w.users }

def watchedStep (w : Watched) (o : Op) : Except Fault (Res × Watched) := do
  let (r, s) ← step w.toSched o
  .ok (r, w.after o r s)

/-- No other task has ever been attached to the thread of `a`. -/
def Alone (w : Watched) (a : Addr) : Prop := ∀ b ∈ w.users (w.heap a).tid, b = a

/-- The state in which plugin `i` has released the task at `a`. -/
def releasedBy (s : Sched) (i : ℕ) (a : Addr) : Option World :=
  match rtfPlgTaskRelease s.toWorld i a with
  | .ok (_, w) => some w
  | .error _ => none

/-- No attached task has its priority handed out anew or is given another
place, and thread 0, which every task names that was never attached, is left out. -/
def Steady (w : Watched) : Op → Prop
  | .create tp ppid => ∀ c ∈ assignee (w.alloc tp ppid) w.next, ∀ b ∈ w.taskset.root, w.attached b →
      ¬ Renumbers (w.alloc tp ppid).toWorld c.1 w.next b
  | .change _ id => ∀ a ∈ rtfTasksetSearch w.heap w.taskset id, ∀ c ∈ taker w.toSched a,
      w.attached a = false ∧
        ∀ w' ∈ releasedBy w.toSched c.1 a, ∀ b ∈ w.taskset.root, w.attached b → ¬ Renumbers w' c.1 a b
  | .attach _ pid => pid ≠ 0
  | _ => True

instance (w : Watched) (o : Op) : Decidable (Steady w o) :=
  match o with
  | .create tp ppid =>
    inferInstanceAs (Decidable (∀ c ∈ assignee (w.alloc tp ppid) w.next, ∀ b ∈ w.taskset.root, w.attached b →
      ¬ Renumbers (w.alloc tp ppid).toWorld c.1 w.next b))
  | .change _ id =>
    inferInstanceAs (Decidable (∀ a ∈ rtfTasksetSearch w.heap w.taskset id, ∀ c ∈ taker w.toSched a,
      w.attached a = false ∧
        ∀ w' ∈ releasedBy w.toSched c.1 a, ∀ b ∈ w.taskset.root, w.attached b → ¬ Renumbers w' c.1 a b))
  | .attach _ pid => inferInstanceAs (Decidable (pid ≠ 0))
  | .detach _ | .destroy _ | .delete _ => inferInstanceAs (Decidable True)

/-! ### The invariant -/

/-- The kernel follows the records of the attached tasks. -/
structure Synced (s : Sched) (attached : Addr → Bool) (users : Pid → List Addr) : Prop where
  sane : Sane s
  allSucceed : s.kernel.AllSucceed
  known : ∀ a, attached a → a < s.next
  used : ∀ a ∈ s.taskset.root, (s.heap a).tid = 0 ∨ a ∈ users (s.heap a).tid
  threads : ∀ a ∈ s.taskset.root, attached a → (s.heap a).tid ≠ 0
  follows : ∀ a ∈ s.taskset.root, attached a → (∀ b ∈ users (s.heap a).tid, b = a) → Follows s a

section Steps

variable {s s' : Sched} {att : Addr → Bool} {users : Pid → List Addr} {a b : Addr}

/-- A thread that only `b` was attached to is not the thread of another task. -/
theorem Synced.tid_ne (hS : Synced s att users) (ha : a ∈ s.taskset.root) (hb : b ∈ s.taskset.root) (hab : a ≠ b)
    (hatt : att b) (hal : ∀ d ∈ users (s.heap b).tid, d = b) : (s.heap b).tid ≠ (s.heap a).tid := by
  intro he
  rcases hS.used a ha with h0 | hu
  · exact hS.threads b hb hatt (he.trans h0)
  · rw [← he] at hu
    exact hab (hal a hu)

theorem synced_create {tp : Params} {ppid : Pid} {r : Res} (hS : Synced s att users)
    (hg : ∀ c ∈ assignee (s.alloc tp ppid) s.next, ∀ b ∈ s.taskset.root, att b →
      ¬ Renumbers (s.alloc tp ppid).toWorld c.1 s.next b)
    (h : rtfSchedulerTaskCreate s tp ppid = .ok (r, s')) : Synced s' att users := by
  have hsane := sane_create hS.sane h
  have hold : ∀ b ∈ s.taskset.root, (s.alloc tp ppid).heap b = s.heap b := fun b hb =>
    hS.sane.alloc_heap tp ppid hb
  rcases create_ok h with ⟨-, rfl⟩ | ⟨i, w, hch, hs, rfl⟩
  · refine ⟨hsane, hS.allSucceed, fun a ha => Nat.lt_succ_of_lt (hS.known a ha), ?_, ?_, ?_⟩
    · intro b hb
      rw [hold b hb]
      exact hS.used b hb
    · intro b hb
      rw [hold b hb]
      exact hS.threads b hb
    · intro b hb hatt hal
      rw [hold b hb] at hal
      exact (hS.follows b hb hatt hal).congr rfl (fun _ => rfl) (hold b hb) rfl
  · obtain ⟨c, hP⟩ := schedule_placed hs
    have htid : ∀ b ∈ s.taskset.root, (w.heap b).tid = (s.heap b).tid := by
      intro b hb
      rw [(hP.task_eq b).2.2.1, hold b hb]
    have hquiet : ∀ b ∈ s.taskset.root, att b → w.heap b = s.heap b := by
      intro b hb hatt
      rw [schedule_quiet (hS.sane.fresh b hb).ne (hg (i, r) hch b hb hatt) hs]
      exact hold b hb
    have hnew : ¬ att s.next := fun hatt => (hS.known _ hatt).false
    refine ⟨hsane, ?_, fun a ha => Nat.lt_succ_of_lt (hS.known a ha), ?_, ?_, ?_⟩
    · show w.kernel.AllSucceed
      rw [hP.kernel]
      exact hS.allSucceed
    · intro b hb
      rcases List.mem_cons.mp hb with rfl | hb
      · left
        show (w.heap s.next).tid = 0
        rw [(hP.task_eq s.next).2.2.1]
        simp [Sched.alloc, newTask, Task.zero]
      · show (w.heap b).tid = 0 ∨ b ∈ users (w.heap b).tid
        rw [htid b hb]
        exact hS.used b hb
    · intro b hb hatt
      rcases List.mem_cons.mp hb with rfl | hb
      · exact absurd hatt hnew
      · show (w.heap b).tid ≠ 0
        rw [htid b hb]
        exact hS.threads b hb hatt
    · intro b hb hatt hal
      rcases List.mem_cons.mp hb with rfl | hb
      · exact absurd hatt hnew
      · change ∀ d ∈ users (w.heap b).tid, d = b at hal
        rw [htid b hb] at hal
        refine (hS.follows b hb hatt hal).congr rfl ?_ (hquiet b hb hatt) ?_
        · exact fun j => hP.info_eq j
        · show w.kernel.entry _ = _
          rw [hP.kernel]
          rfl

/-- Releasing a task leaves the kernel's entries of the other threads alone. -/
theorem Released.entry_ne {w w' : World} {i : ℕ} {r : Res} (hR : Released w i a r w') {tid : Pid}
    (h : tid ≠ (w.heap a).tid) : w'.kernel.entry tid = w.kernel.entry tid := by
  have hk := congrArg Prod.snd hR.answer
  rw [show w'.kernel = _ from hk]
  exact releaseThread_entry_ne _ _ _ h

theorem Released.allSucceed {w w' : World} {i : ℕ} {r : Res} (hR : Released w i a r w') (h : w.kernel.AllSucceed) :
    w'.kernel.AllSucceed := by
  have hk := congrArg Prod.snd hR.answer
  rw [show w'.kernel = _ from hk]
  exact releaseThread_allSucceed _ h _

theorem synced_change {tp : Params} {id : UInt32} {r : Res} (hS : Synced s att users)
    (hg : ∀ a ∈ rtfTasksetSearch s.heap s.taskset id, ∀ c ∈ taker s a, att a = false ∧
      ∀ w' ∈ releasedBy s c.1 a, ∀ b ∈ s.taskset.root, att b → ¬ Renumbers w' c.1 a b)
    (h : rtfSchedulerTaskChange s tp id = .ok (r, s')) : Synced s' att users := by
  have hsane := sane_change hS.sane h
  rcases change_ok h with rfl | ⟨a, i, r', w, w', ha, hc, hr, hs, rfl⟩
  · exact hS
  · have hmem := (rtfTasksetSearch_some ha).1
    obtain ⟨hna, hquiet⟩ := hg a ha _ hc
    have hby : releasedBy s i a = some w := by
      unfold releasedBy
      rw [hr]
    have hR := release_released hr
    obtain ⟨c, hP⟩ := schedule_placed hs
    have htid : ∀ b, (w'.heap b).tid = (s.heap b).tid := by
      intro b
      rw [(hP.task_eq b).2.2.1, hR.task_eq b]
    refine ⟨hsane, ?_, hS.known, ?_, ?_, ?_⟩
    · show w'.kernel.AllSucceed
      rw [hP.kernel]
      exact hR.allSucceed hS.allSucceed
    · intro b hb
      show (w'.heap b).tid = 0 ∨ b ∈ users (w'.heap b).tid
      rw [htid]
      exact hS.used b hb
    · intro b hb hatt
      show (w'.heap b).tid ≠ 0
      rw [htid]
      exact hS.threads b hb hatt
    · intro b hb hatt hal
      change ∀ d ∈ users (w'.heap b).tid, d = b at hal
      rw [htid] at hal
      have hne : b ≠ a := by
        rintro rfl
        rw [hna] at hatt
        cases hatt
      refine (hS.follows b hb hatt hal).congr rfl ?_ ?_ ?_
      · exact fun j => (hP.info_eq j).trans (hR.info_eq j)
      · show w'.heap b = s.heap b
        rw [schedule_quiet hne (hquiet w hby b hb hatt) hs, hR.heap_ne hne]
      · show w'.kernel.entry _ = _
        rw [hP.kernel]
        exact hR.entry_ne (hS.tid_ne hmem hb (Ne.symm hne) hatt hal)

theorem synced_removes {key : Addr → Bool} (hS : Synced s att users) (h : Removes key s a s') :
    Synced s' att users := by
  have hsane := sane_removes hS.sane h
  obtain ⟨-, hp, -⟩ := h.root
  have hmem : a ∈ s.taskset.root := hp.mem_iff.mpr (List.mem_cons_self ..)
  have hat := (List.nodup_cons.mp (hp.nodup_iff.mp hS.sane.nodup)).1
  obtain ⟨ts, i, r, w, -, -, -, hr, rfl⟩ := h
  have hR := release_released hr
  have hin : ∀ b ∈ ts.root, b ∈ s.taskset.root := fun b hb => hp.mem_iff.mpr (List.mem_cons_of_mem a hb)
  have hne : ∀ b ∈ ts.root, b ≠ a := fun b hb hba => hat (hba ▸ hb)
  refine ⟨hsane, hR.allSucceed hS.allSucceed, hS.known, ?_, ?_, ?_⟩
  · intro b hb
    show (w.heap b).tid = 0 ∨ b ∈ users (w.heap b).tid
    rw [hR.heap_ne (hne b hb)]
    exact hS.used b (hin b hb)
  · intro b hb hatt
    show (w.heap b).tid ≠ 0
    rw [hR.heap_ne (hne b hb)]
    exact hS.threads b (hin b hb) hatt
  · intro b hb hatt hal
    have hb' : w.heap b = s.heap b := hR.heap_ne (hne b hb)
    change ∀ d ∈ users (w.heap b).tid, d = b at hal
    rw [hb'] at hal
    refine (hS.follows b (hin b hb) hatt hal).congr rfl ?_ hb' ?_
    · exact fun j => hR.info_eq j
    · exact hR.entry_ne (hS.tid_ne hmem (hin b hb) (Ne.symm (hne b hb)) hatt hal)

theorem synced_attach {pid : Pid} {i : ℕ} (hS : Synced s att users) (hg : pid ≠ 0) (hmem : a ∈ s.taskset.root)
    (hown : (s.heap a).pluginid = i) (hi : i < s.numOfPlugins) :
    Synced { s with
        heap := Function.update s.heap a { s.heap a with tid := pid }
        kernel := (rtfPlgTaskAttach (s.plugin i) s.kernel { s.heap a with tid := pid }).2 }
      (Function.update att a true) (Function.update users pid (a :: users pid)) := by
  obtain ⟨-, hall, hfol⟩ := attach_follows pid hS.allSucceed hown hi
  have hother : ∀ b, b ≠ a → Function.update s.heap a { s.heap a with tid := pid } b = s.heap b :=
    fun b hb => Function.update_of_ne hb _ _
  have hatt : ∀ b, b ≠ a → Function.update att a true b → att b := by
    intro b hb hatt
    rwa [Function.update_of_ne hb] at hatt
  refine ⟨⟨hS.sane.nodup, hS.sane.fresh, hS.sane.ids⟩, hall, ?_, ?_, ?_, ?_⟩
  · intro b hb
    by_cases hba : b = a
    · rw [hba]
      exact hS.sane.fresh a hmem
    · exact hS.known b (hatt b hba hb)
  · intro b hb
    by_cases hba : b = a
    · right
      rw [hba]
      simp
    · show (Function.update s.heap a { s.heap a with tid := pid } b).tid = 0 ∨
        b ∈ Function.update users pid (a :: users pid) (Function.update s.heap a { s.heap a with tid := pid } b).tid
      rw [hother b hba]
      rcases hS.used b hb with h0 | hu
      · exact .inl h0
      · right
        by_cases ht : (s.heap b).tid = pid
        · rw [ht, Function.update_self]
          exact List.mem_cons_of_mem a (ht ▸ hu)
        · rw [Function.update_of_ne ht]
          exact hu
  · intro b hb hb'
    show (Function.update s.heap a { s.heap a with tid := pid } b).tid ≠ 0
    by_cases hba : b = a
    · rw [hba, Function.update_self]
      exact hg
    · rw [hother b hba]
      exact hS.threads b hb (hatt b hba hb')
  · intro b hb hb' hal
    by_cases hba : b = a
    · rw [hba]
      exact hfol
    · change ∀ d ∈ Function.update users pid (a :: users pid)
        (Function.update s.heap a { s.heap a with tid := pid } b).tid, d = b at hal
      rw [hother b hba] at hal
      -- `b` is not on the thread just attached: `a` was attached there
      have ht : (s.heap b).tid ≠ pid := by
        intro ht
        rw [ht, Function.update_self] at hal
        exact hba (hal a (List.mem_cons_self ..)).symm
      rw [Function.update_of_ne ht] at hal
      exact (hS.follows b hb (hatt b hba hb') hal).congr rfl (fun _ => rfl) (hother b hba)
        (attach_entry_ne _ s.kernel { s.heap a with tid := pid } ht)

theorem synced_detach (hS : Synced s att users) (hmem : a ∈ s.taskset.root) :
    Synced { s with kernel := (detachThread s.kernel (s.heap a)).2 } (Function.update att a false) users := by
  have hatt : ∀ b, Function.update att a false b → b ≠ a ∧ att b := by
    intro b hb
    by_cases hba : b = a
    · rw [hba, Function.update_self] at hb
      cases hb
    · rw [Function.update_of_ne hba] at hb
      exact ⟨hba, hb⟩
  refine ⟨⟨hS.sane.nodup, hS.sane.fresh, hS.sane.ids⟩, (detachThread_ok hS.allSucceed _).2.1, ?_, hS.used, ?_, ?_⟩
  · exact fun b hb => hS.known b (hatt b hb).2
  · exact fun b hb hb' => hS.threads b hb (hatt b hb').2
  · intro b hb hb' hal
    obtain ⟨hba, hb'⟩ := hatt b hb'
    exact (hS.follows b hb hb' hal).congr rfl (fun _ => rfl) rfl
      (detachThread_entry_ne s.kernel (s.heap a) (hS.tid_ne hmem hb (Ne.symm hba) hb' hal))

end Steps

/-! ### Runs -/

/-- **One operation** that is steady keeps kernel and records in step. -/
theorem synced_step {w w' : Watched} {o : Op} {r : Res} (hS : Synced w.toSched w.attached w.users)
    (hg : Steady w o) (h : watchedStep w o = .ok (r, w')) : Synced w'.toSched w'.attached w'.users := by
  rcases o with ⟨tp, ppid⟩ | ⟨tp, id⟩ | ⟨id, pid⟩ | ⟨id⟩ | ⟨id⟩ | ⟨ppid⟩
  · obtain ⟨⟨r', s'⟩, hs, h⟩ := bind_ok.mp h
    cases h
    exact synced_create hS hg hs
  · obtain ⟨⟨r', s'⟩, hs, h⟩ := bind_ok.mp h
    cases h
    have hchange : rtfSchedulerTaskChange w.toSched tp id = .ok (r, s') := hs
    exact synced_change hS hg hchange
  · obtain ⟨⟨r', s'⟩, hs, h⟩ := bind_ok.mp h
    cases h
    rcases attach_ok hs with ⟨hn, rfl⟩ | ⟨a, i, ha, hown, hi, hr, rfl⟩
    · simpa only [Watched.after, hn] using hS
    · have hok := (attach_follows pid hS.allSucceed hown hi).1
      rw [hok] at hr
      subst hr
      simp only [Watched.after, ha]
      exact synced_attach hS hg (rtfTasksetSearch_some ha).1 hown hi
  · obtain ⟨⟨r', s'⟩, hs, h⟩ := bind_ok.mp h
    cases h
    rcases detach_ok hs with ⟨hn, rfl⟩ | ⟨a, i, ha, hown, hi, rfl⟩
    · simpa only [Watched.after, hn] using hS
    · simp only [Watched.after, ha, detach_eq]
      exact synced_detach hS (rtfTasksetSearch_some ha).1
  · obtain ⟨⟨r', s'⟩, hs, h⟩ := bind_ok.mp h
    cases h
    rcases destroy_ok hs with rfl | ⟨a, hrm⟩
    · exact hS
    · exact synced_removes hS hrm
  · obtain ⟨⟨r', s'⟩, hs, h⟩ := bind_ok.mp h
    cases h
    obtain ⟨s1, hs1, hs⟩ := bind_ok.mp hs
    cases hs
    exact delete_inv (I := fun s => Synced s w.attached w.users) (fun s a s' hI hrm => synced_removes hI hrm) hs1 hS

theorem synced_start {alloc : ℕ → Option ℕ} {load : List UInt8 → Option Image} {confs : List ConfPlugin}
    {plgs : List Plugin} (h : rtfPluginsInit alloc load confs = some plgs) {k : Kernel} (hk : k.AllSucceed) :
    Synced (Sched.start plgs k) (fun _ => false) (fun _ => []) := by
  refine ⟨sane_start h k, hk, by simp, ?_, ?_, ?_⟩ <;> simp [Sched.start]

/-- The kernel follows the record of every attached task that has its thread to itself. -/
def KernelFollows (w : Watched) : Prop :=
  ∀ a ∈ w.taskset.root, w.attached a → Alone w a → Follows w.toSched a

/-- The kernel orders such threads, of tasks that are not EDF's, as the daemon does. -/
def SameOrder (w : Watched) : Prop :=
  ∀ i < w.numOfPlugins, (w.plugin i).kind ≠ .edf →
    ∀ a ∈ w.taskset.root, ∀ b ∈ w.taskset.root, (w.heap a).pluginid = i → (w.heap b).pluginid = i →
      w.attached a → w.attached b → Alone w a → Alone w b →
        ((w.kernel.entry (w.heap a).tid).prio < (w.kernel.entry (w.heap b).tid).prio ↔
          (w.heap a).schedprio < (w.heap b).schedprio)

theorem Follows.prio_eq {s : Sched} {a : Addr} {i : ℕ} (h : Follows s a) (hi : (s.heap a).pluginid = i)
    (hk : (s.plugin i).kind ≠ .edf) : (s.kernel.entry (s.heap a).tid).prio = (s.heap a).schedprio := by
  obtain ⟨j, -, hj, -, -, hprio⟩ := h
  have hij : j = i := by
    have : (j : ℤ) = i := hj.symm.trans hi
    exact_mod_cast this
  subst hij
  rwa [if_neg hk] at hprio

/-- **The kernel follows the daemon's records**, in every steady run. -/
theorem attached_run {alloc : ℕ → Option ℕ} {load : List UInt8 → Option Image} {confs : List ConfPlugin}
    {plgs : List Plugin} {k : Kernel} {w : Watched} (hinit : rtfPluginsInit alloc load confs = some plgs)
    (hk : k.AllSucceed) (hrun : Reach watchedStep Steady (Watched.start (Sched.start plgs k)) w) :
    KernelFollows w ∧ SameOrder w := by
  have hS : Synced w.toSched w.attached w.users :=
    hrun.inv (I := fun w => Synced w.toSched w.attached w.users) (synced_start hinit hk)
      fun _ _ _ _ hI hg hs => synced_step hI hg hs
  refine ⟨hS.follows, ?_⟩
  intro i _ hkind a ha b hb hai hbi haa hba hala halb
  rw [(hS.follows a ha haa hala).prio_eq hai hkind, (hS.follows b hb hba halb).prio_eq hbi hkind]

/-! ### A thread that is left behind -/

namespace AttachedExample

open BooksExample

/-- RM alone, on core 0. -/
def confs : List ConfPlugin := [⟨"RM".toUTF8.toList, [2], 10, 20, [0]⟩]

def plgs : List Plugin := (rtfPluginsInit asMaps load confs).getD []

theorem init_plgs : rtfPluginsInit asMaps load confs = some plgs := rfl

def start : Watched := Watched.start (Sched.start plgs kernel)

def every (period : UInt64) : Params := { Params.zero with runtime := 1, period := period }

end AttachedExample

open BooksExample AttachedExample

theorem kernel_allSucceed : kernel.AllSucceed := fun _ => rfl

theorem attached_twoPeriods : ∃ w, runGood watchedStep Steady
    [.create (every 200) 1, .create (every 100) 1, .attach 1 7, .attach 2 8, .create (every 100) 1, .destroy 3]
    AttachedExample.start = some w ∧ KernelFollows w ∧ SameOrder w := by
  have hsome : (runGood watchedStep Steady
      [.create (every 200) 1, .create (every 100) 1, .attach 1 7, .attach 2 8, .create (every 100) 1, .destroy 3]
      AttachedExample.start).isSome := by decide +kernel
  obtain ⟨w, hw⟩ := Option.isSome_iff_exists.mp hsome
  exact ⟨w, hw, attached_run AttachedExample.init_plgs kernel_allSucceed (reach_runGood hw)⟩

/-- A task with a longer period arrives below an attached one: the record of
the attached task goes from 10 to 11, its thread stays at 10. -/
theorem not_attached_run : ¬ ∀ (load : List UInt8 → Option Image) (confs : List ConfPlugin) (plgs : List Plugin)
    (k : Kernel) (w : Watched), OwnFiles load confs → rtfPluginsInit asMaps load confs = some plgs →
      k.AllSucceed → Reach watchedStep (fun _ _ => True) (Watched.start (Sched.start plgs k)) w →
        KernelFollows w := by
  intro h
  have hend : (runGood watchedStep (fun _ _ => True)
      [.create (every 100) 1, .attach 1 7, .create (every 200) 1] AttachedExample.start).any (fun w =>
        (w.heap 0).schedprio = 11 ∧ (w.kernel.entry 7).prio = 10 ∧ (w.heap 0).tid = 7 ∧ (w.heap 0).pluginid = 0 ∧
          w.taskset.root = [1, 0] ∧ w.attached 0 ∧ w.users 7 = [0] ∧ (w.plugin 0).kind = .rm) = true := by
    decide +kernel
  obtain ⟨w, hw, hv⟩ := (Option.any_eq_true _ _).mp hend
  obtain ⟨hprio, hentry, htid, hpid, hts, hatt, husers, hkind⟩ := of_decide_eq_true hv
  have hF := h load AttachedExample.confs AttachedExample.plgs kernel w (by decide) AttachedExample.init_plgs
    kernel_allSucceed (reach_runGood hw) 0 (by rw [hts]; decide) hatt
    (by intro b hb; rw [htid, husers] at hb; simpa using hb)
  have heq := hF.prio_eq (i := 0) hpid (by rw [hkind]; decide)
  rw [htid, hentry, hprio] at heq
  exact absurd heq (by decide)

end Retif
