/-
# The windows of the file on the threads of the machine

What a configuration file promises about threads: a thread that the daemon
runs under `SCHED_FIFO` or `SCHED_RR` runs with a priority of one entry's
window, pinned to one of that entry's cores, and where two entries share a
core, the threads of the first one in the file are above those of the second.

The kernel's priority of a thread is the one the record held when it was
attached, so it stays in the window whatever priorities are handed out
afterwards. The requests need to be such that the records stay in their
windows (`Documented`): RR is given declared priorities from 1 to 99, FP none
above 99, RM's walk stays inside, and the tables have an entry for every core.

Key definitions: `Fixed`, `RunsUnder`, `Documented`.
Key theorems: `withinWindows_of_documented`, `threads_step`, `threads_apart_run`.
-/
import Retif.Window
import Retif.Placement
import Retif.Raised
import Retif.Unique
import Retif.Overlap

namespace Retif

open CList

/-! ### Threads -/

/-- A thread with a fixed priority. -/
def Fixed (e : Entry) : Prop := e.policy = .fifo ∨ e.policy = .rr

/-- The thread runs the way plugin `i` attaches a task of core `c`. -/
structure RunsUnder (s : Sched) (tid : Pid) (i c : ℕ) : Prop where
  lt : i < s.numOfPlugins
  posix : (s.plugin i).kind ≠ .edf
  policy : (s.kernel.entry tid).policy = (s.plugin i).kind.policy
  pinned : (s.kernel.entry tid).affinity = {c}
  core : c ∈ (s.plugin i).cpulist
  window : InWindow (s.plugin i).toPluginInfo (s.kernel.entry tid).prio

/-- Every thread with a fixed priority runs under some plugin. -/
def UnderPlugins (s : Sched) : Prop := ∀ tid, Fixed (s.kernel.entry tid) → ∃ i c, RunsUnder s tid i c

theorem RunsUnder.congr {s s' : Sched} {tid : Pid} {i c : ℕ} (h : RunsUnder s tid i c) (hsame : SameConfig s s')
    (he : s'.kernel.entry tid = s.kernel.entry tid) : RunsUnder s' tid i c := by
  refine ⟨?_, ?_, ?_, ?_, ?_, ?_⟩
  · rw [hsame.1]
    exact h.lt
  · rw [hsame.2]
    exact h.posix
  · rw [he, hsame.2]
    exact h.policy
  · rw [he]
    exact h.pinned
  · rw [hsame.2]
    exact h.core
  · rw [he, hsame.2]
    exact h.window

theorem Fixed.raised {k : Kernel} {tid : Pid} (h : Fixed (k.entry tid)) : Raised k tid := by
  unfold Raised
  rcases h with h | h
  · rw [h]
    decide
  · rw [h]
    decide

/-- The plugins keep running their threads where no thread is raised that was not before. -/
theorem UnderPlugins.congr {s s' : Sched} (hP : UnderPlugins s) (hsame : SameConfig s s')
    (he : ∀ tid, Raised s'.kernel tid → s'.kernel.entry tid = s.kernel.entry tid) : UnderPlugins s' := by
  intro tid hf
  have heq := he tid hf.raised
  rw [heq] at hf
  obtain ⟨i, c, h⟩ := hP tid hf
  exact ⟨i, c, h.congr hsame heq⟩

/-- A thread that is raised after a release was left alone by it. -/
theorem Released.entry_raised {w w' : World} {i : ℕ} {a : Addr} {r : Res} (hR : Released w i a r w')
    (hk : w.kernel.AllSucceed) {tid : Pid} (h : Raised w'.kernel tid) : w'.kernel.entry tid = w.kernel.entry tid := by
  by_cases ht : tid = (w.heap a).tid
  · obtain ⟨-, -, hnot⟩ := hR.raised hk h
    have hker : w'.kernel = (releaseThread (w.plugin i).kind.policy w.kernel (w.heap a)).2 :=
      congrArg Prod.snd hR.answer
    rw [hker]
    unfold releaseThread Kernel.schedGetscheduler
    rw [if_pos fun hp => hnot ⟨ht, by rw [ht]; exact hp⟩]
  · exact hR.entry_ne ht

/-! ### Attaching -/

/-- A thread that is attached runs under the plugin of the task. -/
theorem attach_runsUnder {s : Sched} {a : Addr} {i : ℕ} (pid : Pid) (hk : s.kernel.AllSucceed)
    (hown : (s.heap a).pluginid = i) (hi : i < s.numOfPlugins) (hposix : (s.plugin i).kind ≠ .edf)
    (hcore : (s.heap a).cpu ∈ (s.plugin i).cpulist)
    (hwin : InWindow (s.plugin i).toPluginInfo (s.heap a).schedprio) :
    RunsUnder { s with
      heap := Function.update s.heap a { s.heap a with tid := pid }
      kernel := (rtfPlgTaskAttach (s.plugin i) s.kernel { s.heap a with tid := pid }).2 } pid i (s.heap a).cpu := by
  obtain ⟨-, -, j, -, hown', hpol, haff, hprio⟩ := attach_follows pid hk hown hi
  simp only [Function.update_self] at hown' hpol haff hprio
  obtain rfl : i = j := by
    rw [hown] at hown'
    exact_mod_cast hown'
  rw [if_neg hposix] at hprio
  exact ⟨hi, hposix, hpol, haff, hcore, by rw [hprio]; exact hwin⟩

theorem attach_deadline {p : Plugin} {k : Kernel} {t : Task} (hk : k.AllSucceed) (hedf : p.kind = .edf) :
    ((rtfPlgTaskAttach p k t).2.entry t.tid).policy = .deadline := by
  unfold rtfPlgTaskAttach
  rw [hedf]
  show ((attachDeadline k t).2.entry t.tid).policy = .deadline
  rw [(attachDeadline_ok hk t).2.2]
  simp [deadlineEntry]

theorem attach_allSucceed {s : Sched} {a : Addr} {i : ℕ} {pid : Pid} (hk : s.kernel.AllSucceed)
    (hown : (s.heap a).pluginid = i) (hi : i < s.numOfPlugins) :
    (rtfPlgTaskAttach (s.plugin i) s.kernel { s.heap a with tid := pid }).2.AllSucceed :=
  (attach_follows pid hk hown hi).2.1

/-! ### One operation -/

/-- The kernel answers, every task is on a core of its plugin, and every thread runs under a plugin. -/
structure Threaded (s : Sched) : Prop where
  held : Held s
  allSucceed : s.kernel.AllSucceed
  under : UnderPlugins s

section Steps

variable {s s' : Sched} {r : Res}

theorem threaded_create {tp : Params} {ppid : Pid} (hT : Threaded s)
    (h : rtfSchedulerTaskCreate s tp ppid = .ok (r, s')) : Threaded s' := by
  have hker : s'.kernel = s.kernel := by
    rcases create_ok h with ⟨-, rfl⟩ | ⟨i, w, -, hs, rfl⟩
    · rfl
    · obtain ⟨c, hP⟩ := schedule_placed hs
      exact hP.kernel
  refine ⟨held_create hT.held h, by rw [hker]; exact hT.allSucceed, ?_⟩
  refine hT.under.congr (sameConfig_step (o := .create tp ppid) h) ?_
  intro tid _
  rw [hker]

theorem threaded_change {tp : Params} {id : UInt32} (hT : Threaded s)
    (h : rtfSchedulerTaskChange s tp id = .ok (r, s')) : Threaded s' := by
  rcases change_ok h with rfl | ⟨a, i, r', w, w', -, -, hr, hs, rfl⟩
  · exact hT
  · obtain ⟨c, hP⟩ := schedule_placed hs
    have hR := release_released hr
    have hker : w'.kernel = w.kernel := hP.kernel
    refine ⟨held_change hT.held h, ?_, ?_⟩
    · show w'.kernel.AllSucceed
      rw [hker]
      exact hR.allSucceed hT.allSucceed
    · refine hT.under.congr (sameConfig_step (o := .change tp id) h) ?_
      intro tid hraised
      change Raised w'.kernel tid at hraised
      show w'.kernel.entry tid = _
      rw [hker] at hraised ⊢
      exact hR.entry_raised hT.allSucceed hraised

theorem threaded_removes {key : Addr → Bool} {a : Addr} (hT : Threaded s) (h : Removes key s a s') : Threaded s' := by
  have hheld := held_removes hT.held h
  have hsame := sameConfig_removes h
  obtain ⟨ts, i, r, w, -, -, -, hr, rfl⟩ := h
  have hR := release_released hr
  refine ⟨hheld, hR.allSucceed hT.allSucceed, hT.under.congr hsame ?_⟩
  intro tid hraised
  exact hR.entry_raised hT.allSucceed hraised

theorem threaded_attach {id : UInt32} {pid : Pid} (hT : Threaded s) (hwin : InOwnWindow s)
    (h : rtfSchedulerTaskAttach s id pid = .ok (r, s')) : Threaded s' := by
  rcases attach_ok h with ⟨-, rfl⟩ | ⟨a, i, ha, hown, hi, -, rfl⟩
  · exact hT
  have hmem := (rtfTasksetSearch_some ha).1
  obtain ⟨j, hj, hown', hcore⟩ := hT.held.held a hmem
  obtain rfl : i = j := by
    rw [hown] at hown'
    exact_mod_cast hown'
  refine ⟨held_step (o := .attach id pid) hT.held h, attach_allSucceed hT.allSucceed hown hi, ?_⟩
  intro tid hf
  by_cases ht : tid = pid
  · subst ht
    by_cases hedf : (s.plugin i).kind = .edf
    · have hdl := @attach_deadline _ _ { s.heap a with tid := tid } hT.allSucceed hedf
      change Fixed ((rtfPlgTaskAttach (s.plugin i) s.kernel { s.heap a with tid := tid }).2.entry tid) at hf
      unfold Fixed at hf
      rw [hdl] at hf
      rcases hf with hf | hf <;> cases hf
    · exact ⟨i, _, attach_runsUnder tid hT.allSucceed hown hi hedf hcore (hwin i hi hedf a hmem hown)⟩
  · have he : (rtfPlgTaskAttach (s.plugin i) s.kernel { s.heap a with tid := pid }).2.entry tid =
        s.kernel.entry tid := attach_entry_ne _ _ _ ht
    change Fixed ((rtfPlgTaskAttach (s.plugin i) s.kernel { s.heap a with tid := pid }).2.entry tid) at hf
    rw [he] at hf
    obtain ⟨j, c, hr⟩ := hT.under tid hf
    exact ⟨j, c, hr.congr ⟨rfl, fun _ => rfl⟩ he⟩

theorem threaded_detach {id : UInt32} (hT : Threaded s) (h : rtfSchedulerTaskDetach s id = .ok (r, s')) :
    Threaded s' := by
  rcases detach_ok h with ⟨-, rfl⟩ | ⟨a, i, -, -, -, rfl⟩
  · exact hT
  obtain ⟨-, hall, hentry⟩ := detachThread_ok hT.allSucceed (s.heap a)
  refine ⟨held_step (o := .detach id) hT.held h, ?_, hT.under.congr ⟨rfl, fun _ => rfl⟩ ?_⟩
  · show (rtfPlgTaskDetach _ _ _).2.AllSucceed
    rw [detach_eq]
    exact hall
  · intro tid hraised
    change Raised (rtfPlgTaskDetach (s.plugin i) s.kernel (s.heap a)).2 tid at hraised
    show (rtfPlgTaskDetach (s.plugin i) s.kernel (s.heap a)).2.entry tid = _
    rw [detach_eq] at hraised ⊢
    by_cases ht : tid = (s.heap a).tid
    · subst ht
      exact absurd (by rw [hentry]; simp) hraised
    · exact detachThread_entry_ne _ _ ht

/-- **One operation** leaves every thread under a plugin, where the records are in their windows before it. -/
theorem threaded_step {o : Op} (hT : Threaded s) (hwin : InOwnWindow s) (h : step s o = .ok (r, s')) :
    Threaded s' := by
  rcases o with ⟨tp, ppid⟩ | ⟨tp, id⟩ | ⟨id, pid⟩ | ⟨id⟩ | ⟨id⟩ | ⟨ppid⟩
  · exact threaded_create hT h
  · exact @threaded_change s s' r tp id hT h
  · exact threaded_attach hT hwin h
  · exact threaded_detach hT h
  · rcases destroy_ok h with rfl | ⟨a, hrm⟩
    · exact hT
    · exact threaded_removes hT hrm
  · obtain ⟨s1, hs1, h⟩ := bind_ok.mp h
    cases h
    exact delete_inv (fun s a s' hI hrm => threaded_removes hI hrm) hs1 hT

end Steps

/-! ### What is asked of the requests -/

/-- RR is given declared priorities from 1 to 99, FP none above 99, RM what its
walk can hold; no task is changed, the counter of ids has not come round, and
the tables have an entry for every core. -/
def Documented (s : Sched) (o : Op) : Prop :=
  (s.lastTaskId + 1 < 2 ^ 32 ∧ CoresInTables s.numOfPlugins s.toWorld) ∧
    match o with
    | .create tp ppid => ∀ c ∈ assignee (s.alloc tp ppid) s.next,
        match (s.plugin c.1).kind with
        | .edf => True
        | .rm => RM.Orderly (s.alloc tp ppid).toWorld c.1 s.next
        | .rr => tp.priority ≠ 0 ∧ tp.priority ≤ 99
        | .fp => tp.priority ≤ 99
    | .change _ _ => False
    | _ => True

instance (s : Sched) (o : Op) : Decidable (Documented s o) :=
  match o with
  | .create tp ppid =>
    have : ∀ c : ℕ × Res, Decidable (match (s.plugin c.1).kind with
        | .edf => True
        | .rm => RM.Orderly (s.alloc tp ppid).toWorld c.1 s.next
        | .rr => tp.priority ≠ 0 ∧ tp.priority ≤ 99
        | .fp => tp.priority ≤ 99) := fun c =>
      match (s.plugin c.1).kind with
      | .edf => inferInstanceAs (Decidable True)
      | .rm => inferInstanceAs (Decidable (RM.Orderly (s.alloc tp ppid).toWorld c.1 s.next))
      | .rr => inferInstanceAs (Decidable (tp.priority ≠ 0 ∧ tp.priority ≤ 99))
      | .fp => inferInstanceAs (Decidable (tp.priority ≤ 99))
    inferInstanceAs (Decidable (_ ∧ ∀ c ∈ assignee (s.alloc tp ppid) s.next, _))
  | .change _ _ => inferInstanceAs (Decidable (_ ∧ False))
  | .attach _ _ | .detach _ | .destroy _ | .delete _ => inferInstanceAs (Decidable (_ ∧ True))

/-- The tasks of RR have a declared priority. -/
def RRDeclared (s : Sched) : Prop :=
  ∀ a ∈ s.taskset.root, ∀ i < s.numOfPlugins, (s.plugin i).kind = .rr → (s.heap a).pluginid = i →
    (s.heap a).params.priority ≠ 0

section Requests

variable {s s' : Sched} {o : Op} {r : Res}

theorem rr_orderly {tp : Params} {ppid : Pid} {i : ℕ} (hT : Tallied s) (hL : Listed s) (hD : RRDeclared s)
    (hi : i < s.numOfPlugins) (hk : (s.plugin i).kind = .rr) (hp : tp.priority ≠ 0)
    (hle : tp.priority ≤ 99) : RR.Orderly (s.alloc tp ppid).toWorld i s.next := by
  refine ⟨?_, ?_⟩
  · rw [s.alloc_self tp ppid]
    calc tp.priority.toNat ≤ 99 := UInt32.le_iff_toNat_le.mp hle
      _ < MAX_PRIO := by decide
  split
  · rename_i c _
    intro _ _ b hb
    rcases List.mem_cons.mp hb with rfl | hb
    · rw [s.alloc_self tp ppid]
      exact hp
    · have hlist := (hL.list i hi (by rw [hk]; rfl) c).mem_iff.mp hb
      obtain ⟨hmem, hown, -⟩ := mem_placed.mp hlist
      show ((s.alloc tp ppid).heap b).params.priority ≠ 0
      rw [hT.sane.alloc_heap tp ppid hmem]
      exact hD b hmem i hi hk hown
  · trivial

theorem fp_orderly {tp : Params} {ppid : Pid} {i : ℕ} (hw : WindowOk (s.plugin i).toPluginInfo) (hp : tp.priority ≤ 99) :
    FP.Orderly (s.alloc tp ppid).toWorld i s.next := by
  unfold FP.Orderly
  rw [s.alloc_self tp ppid]
  have hle : ((newTask s.nextId ppid tp).params.priority.toNat : ℤ) - 99 ≤ 0 := by
    have : tp.priority.toNat ≤ 99 := UInt32.le_iff_toNat_le.mp hp
    show (tp.priority.toNat : ℤ) - 99 ≤ 0
    omega
  have hspan : 0 ≤ (s.plugin i).prioMax - (s.plugin i).prioMin := by
    have := hw.2.1
    omega
  calc ((s.plugin i).prioMax - (s.plugin i).prioMin) * (((newTask s.nextId ppid tp).params.priority.toNat : ℤ) - 99)
      ≤ 0 := mul_nonpos_of_nonneg_of_nonpos hspan hle
    _ < 98 := by norm_num

/-- **What is documented keeps the windows.** -/
theorem withinWindows_of_documented (hT : Tallied s) (hL : Listed s) (hP : Prioritised s) (hE : Early s)
    (hD : RRDeclared s) (hg : Documented s o) : WithinWindows s o := by
  obtain ⟨⟨hlt, htab⟩, hg⟩ := hg
  rcases o with ⟨tp, ppid⟩ | _ | _ | _ | _ | _
  · refine ⟨⟨trivial, ?_⟩, ?_, htab⟩
    · intro a ha he
      have hbelow := hE.below a ha
      rw [he, nextId_toNat hlt] at hbelow
      omega
    · rintro ⟨i, res⟩ hch
      obtain ⟨hi, -, -⟩ := assignee_some hch
      have hok := hg (i, res) hch
      show Orderly (s.alloc tp ppid).toWorld i s.next
      unfold Orderly
      show match (s.plugin i).kind with
        | .edf => True
        | .rm => RM.Orderly (s.alloc tp ppid).toWorld i s.next
        | .rr => RR.Orderly (s.alloc tp ppid).toWorld i s.next
        | .fp => FP.Orderly (s.alloc tp ppid).toWorld i s.next
      dsimp only at hok
      rcases hk : (s.plugin i).kind with _ | _ | _ | _
      · trivial
      · rw [hk] at hok
        exact hok
      · rw [hk] at hok
        exact rr_orderly hT hL hD hi hk hok.1 hok.2
      · rw [hk] at hok
        exact fp_orderly (hP.windows i hi (by rw [hk]; decide)) hok
  · exact hg.elim
  all_goals exact ⟨⟨trivial, trivial⟩, trivial, htab⟩

theorem rrDeclared_step (hS : Sane s) (hD : RRDeclared s) (hg : Documented s o) (h : step s o = .ok (r, s')) :
    RRDeclared s' := by
  have hboth : Sane s' ∧ RRDeclared s' := by
    refine step_inv (I := fun s => Sane s ∧ RRDeclared s) ?_ ?_ ?_ ?_ ⟨hS, hD⟩ h
    · rintro tp ppid rfl hcreate
      refine ⟨sane_create hS hcreate, ?_⟩
      rcases create_ok hcreate with ⟨-, rfl⟩ | ⟨i, w, hch, hs, rfl⟩
      · intro b hb j hj hk hown
        rw [hS.alloc_heap tp ppid hb] at hown ⊢
        exact hD b hb j hj hk hown
      · obtain ⟨hi, -, -⟩ := assignee_some hch
        obtain ⟨c, hP⟩ := schedule_placed hs
        intro b hb j hj hk hown
        change (w.plugin j).kind = .rr at hk
        change (w.heap b).pluginid = j at hown
        show (w.heap b).params.priority ≠ 0
        rw [hP.info_eq] at hk
        rw [(hP.task_eq b).2.2.2]
        rcases List.mem_cons.mp hb with rfl | hb
        · rw [hP.task] at hown
          obtain rfl : i = j := by
            have hid := hS.ids i hi
            have : ((s.plugin i).id : ℤ) = j := hown
            rw [hid] at this
            exact_mod_cast this
          have hok := hg.2 (i, r) hch
          change match (s.plugin i).kind with
            | .edf => True
            | .rm => RM.Orderly (s.alloc tp ppid).toWorld i s.next
            | .rr => tp.priority ≠ 0 ∧ tp.priority ≤ 99
            | .fp => tp.priority ≤ 99 at hok
          change (s.plugin i).kind = .rr at hk
          rw [hk] at hok
          show ((s.alloc tp ppid).heap s.next).params.priority ≠ 0
          rw [s.alloc_self tp ppid]
          exact hok.1
        · have hne : b ≠ s.next := (hS.fresh b hb).ne
          rw [hP.rest b hne] at hown
          have hsame := hS.alloc_heap tp ppid hb
          show ((s.alloc tp ppid).heap b).params.priority ≠ 0
          change ((s.alloc tp ppid).heap b).pluginid = j at hown
          rw [hsame] at hown ⊢
          exact hD b hb j hj hk hown
    · rintro tp id rfl _
      exact hg.2.elim
    · intro heap k hheap
      refine ⟨⟨hS.nodup, hS.fresh, hS.ids⟩, ?_⟩
      intro b hb j hj hk hown
      change (heap b).pluginid = j at hown
      show (heap b).params.priority ≠ 0
      rw [hheap b] at hown ⊢
      exact hD b hb j hj hk hown
    · intro key s a s' hI hrm
      refine ⟨sane_removes hI.1 hrm, ?_⟩
      obtain ⟨-, hp, -⟩ := hrm.root
      obtain ⟨ts, i, r, w, -, -, -, hr, rfl⟩ := hrm
      have hR := release_released hr
      have hat := (List.nodup_cons.mp (hp.nodup_iff.mp hI.1.nodup)).1
      intro b hb j hj hk hown
      have hne : b ≠ a := fun hba => hat (hba ▸ hb)
      change (w.plugin j).kind = .rr at hk
      change (w.heap b).pluginid = j at hown
      show (w.heap b).params.priority ≠ 0
      rw [hR.info_eq] at hk
      rw [hR.heap_ne hne] at hown ⊢
      exact hI.2 b (hp.mem_iff.mpr (List.mem_cons_of_mem a hb)) j hj hk hown
  exact hboth.2

end Requests

/-! ### Runs -/

/-- What a run of documented requests keeps. -/
structure Conforming (s : Sched) : Prop where
  tallied : Tallied s
  listed : Listed s
  prioritised : Prioritised s
  early : Early s
  declared : RRDeclared s
  threaded : Threaded s

theorem conforming_step {s s' : Sched} {o : Op} {r : Res} (hI : Conforming s) (hg : Documented s o)
    (h : step s o = .ok (r, s')) : Conforming s' := by
  have hw := withinWindows_of_documented hI.tallied hI.listed hI.prioritised hI.early hI.declared hg
  refine ⟨?_, ?_, ?_, ?_, ?_, ?_⟩
  · exact tallied_step hI.tallied hw.1.1 h
  · exact listed_step hI.tallied hI.listed hw.1 h
  · exact prioritised_step hI.tallied hI.listed hI.prioritised hw h
  · exact early_step hI.early hg.1.1 h
  · exact rrDeclared_step hI.tallied.sane hI.declared hg h
  · exact threaded_step hI.threaded hI.prioritised.inWindow h

section Runs

variable {alloc : ℕ → Option ℕ} {load : List UInt8 → Option Image} {confs : List ConfPlugin} {plgs : List Plugin}
  {k : Kernel} {s : Sched}

theorem conforming_run (hinit : rtfPluginsInit alloc load confs = some plgs) (hown : OwnFiles load confs)
    (hwin : PosixWindows load confs) (hk : k.AllSucceed) (hfree : ∀ tid, ¬ Fixed (k.entry tid))
    (hrun : Reach step Documented (Sched.start plgs k) s) : Conforming s := by
  refine hrun.inv (I := Conforming) ?_ fun s o r s' hI hg hs => conforming_step hI hg hs
  refine ⟨tallied_start hinit k, listed_start hinit k, prioritised_start hinit hown hwin k,
    ⟨sane_start hinit k, by simp [Sched.start]⟩, by simp [RRDeclared, Sched.start], held_start hinit k, hk, ?_⟩
  intro tid hf
  exact absurd hf (hfree tid)

/-- **Threads keep to the file.** Of every document that is accepted, and in
every run of documented requests: each thread with a fixed priority runs under
one of the entries, on a core and with a priority of it, and of two threads on
a core the one whose entry comes first in the file has the higher priority. -/
theorem threads_apart_run {numProcs : ℕ} {strtod : List UInt8 → CString.Conversion ℚ} {fresh : ℕ → ConfPlugin}
    {fuel : ℕ} {document : Document} {errno : Bool} {conf out : FullConfiguration}
    (hfile : parseConfiguration numProcs strtod fresh fuel (some document) errno conf = some (0, out))
    (hn : numProcs < 2 ^ 31) (hcores : CoreLists out.plugins) (hinit : rtfPluginsInit alloc load out.plugins = some plgs)
    (hown : OwnFiles load out.plugins) (hwin : PosixWindows load out.plugins) (hk : k.AllSucceed)
    (hfree : ∀ tid, ¬ Fixed (k.entry tid)) (hrun : Reach step Documented (Sched.start plgs k) s) :
    (∀ tid, Fixed (s.kernel.entry tid) → ∃ i c, RunsUnder s tid i c) ∧
      ∀ tid tid' i j c, RunsUnder s tid i c → RunsUnder s tid' j c → i < j →
        (s.kernel.entry tid').prio < (s.kernel.entry tid).prio := by
  refine ⟨(conforming_run hinit hown hwin hk hfree hrun).threaded.under, ?_⟩
  intro tid tid' i j c hi hj hij
  have hsame : SameConfig (Sched.start plgs k) s := by
    refine hrun.inv (I := SameConfig (Sched.start plgs k)) (.refl _) ?_
    exact fun _ _ _ _ hI _ hs => hI.trans (sameConfig_step hs)
  obtain ⟨-, -, -, -, hvalid⟩ := parseConfiguration_ok.mp hfile
  have hlt := hj.lt
  have hci := hi.core
  have hcj := hj.core
  have hlow := hi.window.1
  have hhigh := hj.window.2
  rw [hsame.1] at hlt
  rw [hsame.2] at hci hcj hlow hhigh
  have hapart := windows_apart_start hinit hvalid hn hcores k hij hlt hci hcj
  have hprio : ((s.kernel.entry tid').prio.toNat : ℤ) < (s.kernel.entry tid).prio.toNat := by omega
  exact UInt32.lt_iff_toNat_lt.mpr (by exact_mod_cast hprio)

end Runs

/-! ### Two entries on one core -/

namespace ThreadsExample

/-- `configuration: plugins: [{name: A, …}, {name: B, …}]` with windows 50-59 and 10-20 on core 0. -/
def document : Document :=
  ⟨[.mapping [(2, 3)], .scalar "configuration".toUTF8.toList, .mapping [(4, 5)], .scalar "plugins".toUTF8.toList,
    .sequence [6, 7], .mapping [(8, 9), (10, 11), (12, 13), (14, 15)], .mapping [(8, 16), (10, 17), (12, 18), (14, 15)],
    .scalar "name".toUTF8.toList, .scalar "A".toUTF8.toList, .scalar "plugin".toUTF8.toList,
    .scalar [3], .scalar "priority".toUTF8.toList, .scalar "50-59".toUTF8.toList,
    .scalar "cores".toUTF8.toList, .scalar "0".toUTF8.toList, .scalar "B".toUTF8.toList, .scalar [4],
    .scalar "10-20".toUTF8.toList]⟩

def entries : List ConfPlugin :=
  [⟨"A".toUTF8.toList, [3], 50, 59, [0]⟩, ⟨"B".toUTF8.toList, [4], 10, 20, [0]⟩]

def plgs : List Plugin := (rtfPluginsInit byPosition BooksExample.load entries).getD []

/-- A priority, and the entry to use. -/
def named (name : UInt8) (priority : UInt32) : Params :=
  { Params.zero with priority := priority, schedPlugin := ⟨name :: List.replicate 31 0, by simp [PLUGIN_MAX_NAME]⟩ }

/-- A task of each entry, each with a thread. -/
def ops : List Op := [.create (named 65 3) 1, .create (named 66 99) 1, .attach 1 7, .attach 2 8]

theorem init_plgs : rtfPluginsInit byPosition BooksExample.load entries = some plgs := rfl

theorem posix_entries : PosixWindows BooksExample.load entries := by
  intro c hc img _ _
  simp only [entries, List.mem_cons, List.not_mem_nil, or_false] at hc
  rcases hc with rfl | rfl <;> decide

theorem kernel_free (tid : Pid) : ¬ Fixed (BooksExample.kernel.entry tid) := by
  show ¬ (Policy.other = .fifo ∨ Policy.other = .rr)
  decide

end ThreadsExample

open ThreadsExample

theorem threads_apart_twoEntries : ∃ out s,
    parseConfiguration 1 OverlapExample.strtod (fun _ => OverlapExample.blank) 2 (some ThreadsExample.document) false
      OverlapExample.zero = some (0, out) ∧
    runGood step Documented ThreadsExample.ops (Sched.start ThreadsExample.plgs BooksExample.kernel) = some s ∧
    (∀ tid, Fixed (s.kernel.entry tid) → ∃ i c, RunsUnder s tid i c) ∧
      ∀ tid tid' i j c, RunsUnder s tid i c → RunsUnder s tid' j c → i < j →
        (s.kernel.entry tid').prio < (s.kernel.entry tid).prio := by
  have hfile : (parseConfiguration 1 OverlapExample.strtod (fun _ => OverlapExample.blank) 2
      (some ThreadsExample.document) false OverlapExample.zero).map (fun r => (r.1, r.2.plugins)) =
        some (0, entries) := by decide +kernel
  obtain ⟨⟨ret, out⟩, hparse, hv⟩ := Option.map_eq_some_iff.mp hfile
  simp only [Prod.mk.injEq] at hv
  obtain ⟨rfl, hplugins⟩ := hv
  have hsome : (runGood step Documented ThreadsExample.ops
      (Sched.start ThreadsExample.plgs BooksExample.kernel)).isSome := by decide +kernel
  obtain ⟨s, hs⟩ := Option.isSome_iff_exists.mp hsome
  have hinit : rtfPluginsInit byPosition BooksExample.load out.plugins = some ThreadsExample.plgs := by
    rw [hplugins]
    exact ThreadsExample.init_plgs
  have hcores : CoreLists out.plugins := by
    rw [hplugins]
    decide
  have hown : OwnFiles BooksExample.load out.plugins := by
    rw [hplugins]
    decide
  have hwin : PosixWindows BooksExample.load out.plugins := by
    rw [hplugins]
    exact posix_entries
  exact ⟨out, s, hparse, hs, threads_apart_run hparse (by decide) hcores hinit hown hwin (fun _ => rfl) kernel_free
    (reach_runGood hs)⟩

end Retif
