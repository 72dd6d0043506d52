/-
# Where the live tasks are

A task is created with `pluginid` -1, and `rtf_plg_task_release` writes -1
again; between two operations no task of the taskset is in that state. Each
names a plugin of the table and a core of that plugin (`Held`), whatever the
plugins answered and whoever released it, since `rtf_plg_task_schedule` writes
both anew. So `s->plugin[t->pluginid]` is always an entry of the table, and an
operation indexes nothing but the cores of its plugins (`step_avoids`).

Key definitions: `Held`, `Placeable`.
Key theorems: `held_step`, `step_avoids`, `placement_run`.
-/
import Retif.Faults
import Retif.Books

namespace Retif

open CList

/-! ### The invariant -/

/-- Every task sits on a core of the plugin it names. -/
structure Held (s : Sched) : Prop where
  sane : Sane s
  held : ∀ a ∈ s.taskset.root, ∃ i < s.numOfPlugins, (s.heap a).pluginid = i ∧ (s.heap a).cpu ∈ (s.plugin i).cpulist

section Steps

variable {s s' : Sched} {r : Res}

theorem held_create {tp : Params} {ppid : Pid} (hH : Held s)
    (h : rtfSchedulerTaskCreate s tp ppid = .ok (r, s')) : Held s' := by
  have hsane := sane_create hH.sane h
  have hold : ∀ b ∈ s.taskset.root, (s.alloc tp ppid).heap b = s.heap b := fun b hb =>
    hH.sane.alloc_heap tp ppid hb
  rcases create_ok h with ⟨-, rfl⟩ | ⟨i, w, hch, hs, rfl⟩
  · refine ⟨hsane, ?_⟩
    intro b hb
    rw [hold b hb]
    exact hH.held b hb
  · have hi := (assignee_some hch).1
    obtain ⟨c, hP⟩ := schedule_placed hs
    refine ⟨hsane, ?_⟩
    intro b hb
    rcases List.mem_cons.mp hb with rfl | hb
    · refine ⟨i, hi, ?_, ?_⟩
      · show (w.heap s.next).pluginid = i
        rw [hP.task]
        exact hH.sane.ids i hi
      · show (w.heap s.next).cpu ∈ (w.plugin i).cpulist
        rw [hP.task, hP.info]
        exact hP.mem
    · obtain ⟨j, hj, h1, h2⟩ := hH.held b hb
      have hne : b ≠ s.next := (hH.sane.fresh b hb).ne
      refine ⟨j, hj, ?_, ?_⟩
      · show (w.heap b).pluginid = j
        rw [hP.rest b hne, hold b hb, h1]
      · show (w.heap b).cpu ∈ (w.plugin j).cpulist
        rw [hP.rest b hne, hold b hb, hP.info_eq]
        exact h2

/-- The plugin that takes the task over writes its own index and one of its
cores, whoever held the task. -/
theorem held_change {tp : Params} {id : UInt32} (hH : Held s)
    (h : rtfSchedulerTaskChange s tp id = .ok (r, s')) : Held s' := by
  have hsane := sane_change hH.sane h
  rcases change_ok h with rfl | ⟨a, i, r', w, w', ha, hc, hr, hs, rfl⟩
  · exact hH
  · have hi := (taker_some hc).1
    have hR := release_released hr
    obtain ⟨c, hP⟩ := schedule_placed hs
    refine ⟨hsane, ?_⟩
    intro b hb
    by_cases hba : b = a
    · subst hba
      refine ⟨i, hi, ?_, ?_⟩
      · show (w'.heap b).pluginid = i
        rw [hP.task, hR.info_eq]
        exact hH.sane.ids i hi
      · show (w'.heap b).cpu ∈ (w'.plugin i).cpulist
        rw [hP.task, hP.info]
        exact hP.mem
    · obtain ⟨j, hj, h1, h2⟩ := hH.held b hb
      refine ⟨j, hj, ?_, ?_⟩
      · show (w'.heap b).pluginid = j
        rw [hP.rest b hba, hR.heap_ne hba, h1]
      · show (w'.heap b).cpu ∈ (w'.plugin j).cpulist
        rw [hP.rest b hba, hR.heap_ne hba, hP.info_eq, hR.info_eq]
        exact h2

/-- The task released leaves the taskset; the others stay where they are. -/
theorem held_removes {key : Addr → Bool} {a : Addr} (hH : Held s) (h : Removes key s a s') : Held s' := by
  have hsane := sane_removes hH.sane h
  obtain ⟨-, hp, -⟩ := h.root
  have hat := (List.nodup_cons.mp (hp.nodup_iff.mp hH.sane.nodup)).1
  obtain ⟨ts, i, r, w, -, -, -, hr, rfl⟩ := h
  have hR := release_released hr
  refine ⟨hsane, ?_⟩
  intro b hb
  have hne : b ≠ a := fun hba => hat (hba ▸ hb)
  obtain ⟨j, hj, h1, h2⟩ := hH.held b (hp.mem_iff.mpr (List.mem_cons_of_mem a hb))
  refine ⟨j, hj, ?_, ?_⟩
  · show (w.heap b).pluginid = j
    rw [hR.heap_ne hne, h1]
  · show (w.heap b).cpu ∈ (w.plugin j).cpulist
    rw [hR.heap_ne hne, hR.info_eq]
    exact h2

/-- **Any operation** leaves every task on a core of its plugin. -/
theorem held_step {o : Op} (hH : Held s) (h : step s o = .ok (r, s')) : Held s' := by
  refine step_inv ?_ ?_ ?_ ?_ hH h
  · intro tp ppid _ hcreate
    exact held_create hH hcreate
  · intro tp id _ hchange
    exact held_change hH hchange
  · intro heap k hheap
    refine ⟨⟨hH.sane.nodup, hH.sane.fresh, hH.sane.ids⟩, ?_⟩
    intro b hb
    show ∃ j < s.numOfPlugins, (heap b).pluginid = j ∧ (heap b).cpu ∈ (s.plugin j).cpulist
    rw [hheap b]
    exact hH.held b hb
  · intro key s a s' hI hrm
    exact held_removes hI hrm

theorem held_start {alloc : ℕ → Option ℕ} {load : List UInt8 → Option Image} {confs : List ConfPlugin}
    {plgs : List Plugin} (h : rtfPluginsInit alloc load confs = some plgs) (k : Kernel) :
    Held (Sched.start plgs k) :=
  ⟨sane_start h k, by simp [Sched.start]⟩

/-- The dispatch on a task of the taskset finds its plugin. -/
theorem Held.pluginAt (hH : Held s) {a : Addr} (ha : a ∈ s.taskset.root) :
    ∃ i, s.pluginAt (s.heap a).pluginid = .ok i ∧ i < s.numOfPlugins ∧ (s.heap a).pluginid = i ∧
      (s.heap a).cpu ∈ (s.plugin i).cpulist := by
  obtain ⟨i, hi, hp, hc⟩ := hH.held a ha
  exact ⟨i, pluginAt_ok.mpr ⟨hp, hi⟩, hi, hp, hc⟩

end Steps

/-! ### What an operation indexes -/

/-- Every plugin of the table has room for its cores. -/
def Rooms (bad : Fault → Prop) (s : Sched) : Prop :=
  ∀ i < s.numOfPlugins, ∀ c ∈ (s.plugin i).cpulist, Room bad (s.plugin i).toPluginInfo c

/-- A plugin that takes over a changed task has room for the core the task comes from. -/
def Placeable (bad : Fault → Prop) (s : Sched) : Op → Prop
  | .change _ id => ∀ a ∈ rtfTasksetSearch s.heap s.taskset id, ∀ c ∈ taker s a,
      Room bad (s.plugin c.1).toPluginInfo (s.heap a).cpu
  | _ => True

section Operations

variable {bad : Fault → Prop} {s s' : Sched}

theorem create_avoids {tp : Params} {ppid : Pid} (hb : Indexing bad) (hR : Rooms bad s) :
    Avoids bad (rtfSchedulerTaskCreate s tp ppid) := by
  refine Avoids.bind (selectPlugin_avoids (askAccept_asks _) fun i hi => ?_) fun q hq => ?_
  · exact Avoids.bind (accept_avoids hb (hR i hi)) fun _ _ => .ok _
  · obtain ⟨chosen, w⟩ := q
    obtain ⟨rfl, hch⟩ := selectPlugin_ok (askAccept_asks _) hq
    rcases chosen with _ | ⟨i, res⟩
    · exact .ok _
    · exact Avoids.bind (schedule_avoids hb (hR i (hch i res rfl).1)) fun _ _ => .ok _

theorem change_op_avoids {tp : Params} {id : UInt32} (hb : Indexing bad) (hH : Held s) (hR : Rooms bad s)
    (hg : Placeable bad s (.change tp id)) : Avoids bad (rtfSchedulerTaskChange s tp id) := by
  unfold rtfSchedulerTaskChange
  split
  · exact .ok _
  · rename_i a ha
    refine Avoids.bind (selectPlugin_avoids (askChange_asks a) fun i hi => ?_) fun q hq => ?_
    · refine Avoids.bind (change_avoids hb (hR i hi) fun hown => ?_) fun _ _ => .ok _
      -- a plugin that finds its own id in the task holds it
      obtain ⟨j, -, -, hpid, hcpu⟩ := hH.pluginAt (rtfTasksetSearch_some ha).1
      have hij : j = i := by
        have : (j : ℤ) = i := by rw [← hpid, hown, hH.sane.ids i hi]
        exact_mod_cast this
      rw [hij] at hcpu
      exact hR i hi _ hcpu
    · obtain ⟨chosen, w⟩ := q
      have htk : taker s a = chosen := by
        unfold taker chosenBy
        rw [hq]
      obtain ⟨rfl, hch⟩ := selectPlugin_ok (askChange_asks a) hq
      rcases chosen with _ | ⟨i, res⟩
      · exact .ok _
      · have hi := (hch i res rfl).1
        refine Avoids.bind (release_avoids hb (hg a ha (i, res) htk)) fun q' hq' => ?_
        obtain ⟨r', w'⟩ := q'
        refine Avoids.bind (schedule_avoids hb ?_) fun _ _ => .ok _
        rw [(release_released hq').info_eq]
        exact hR i hi

theorem pluginAt_avoids {a : Addr} (hH : Held s) (ha : a ∈ s.taskset.root) :
    Avoids bad (s.pluginAt (s.heap a).pluginid) := by
  obtain ⟨i, hi, -⟩ := hH.pluginAt ha
  rw [hi]
  exact .ok _

theorem releaseTask_avoids {a : Addr} {ts : Taskset} (hb : Indexing bad) (hH : Held s) (hR : Rooms bad s)
    (ha : a ∈ s.taskset.root) : Avoids bad (releaseTask { s with taskset := ts } a) := by
  obtain ⟨i, hat, hi, -, hcpu⟩ := hH.pluginAt ha
  refine Avoids.bind (x := s.pluginAt (s.heap a).pluginid) (pluginAt_avoids hH ha) fun j hj => ?_
  obtain rfl : i = j := Except.ok.inj (hat.symm.trans hj)
  exact Avoids.bind (release_avoids hb (hR i hi _ hcpu)) fun _ _ => .ok _

theorem removed_mem {key : Addr → Bool} {ts ts' : Taskset} {a : Addr} (h : listRemove ts key = (some a, ts')) :
    a ∈ ts.root := by
  rcases listRemove_cases ts key with ⟨hn, -⟩ | ⟨b, l, hb, hm, -⟩
  · rw [hn] at h
    cases h
  · rw [hb] at h
    cases h
    exact hm

theorem Rooms.sameConfig (hR : Rooms bad s) (h : SameConfig s s') : Rooms bad s' := by
  intro i hi c hc
  rw [h.2 i] at hc ⊢
  exact hR i (h.1 ▸ hi) c hc

theorem deleteLoop_avoids {ppid : Pid} (hb : Indexing bad) : ∀ {fuel : ℕ} {s : Sched}, Held s → Rooms bad s →
    Avoids bad (deleteLoop ppid fuel s)
  | 0, _, _, _ => .ok _
  | fuel + 1, s, hH, hR => by
    unfold deleteLoop
    split
    · exact .ok _
    · rename_i a ts hrm
      refine Avoids.bind (releaseTask_avoids hb hH hR (removed_mem hrm)) fun s1 hs1 => ?_
      have hrem := releaseTask_removes hrm hs1
      exact deleteLoop_avoids hb (held_removes hH hrem) (hR.sameConfig (sameConfig_removes hrem))

/-- **No operation** on such a state indexes out of a table it has room in. -/
theorem step_avoids {o : Op} (hb : Indexing bad) (hH : Held s) (hR : Rooms bad s) (hg : Placeable bad s o) :
    Avoids bad (step s o) := by
  rcases o with ⟨tp, ppid⟩ | ⟨tp, id⟩ | ⟨id, pid⟩ | ⟨id⟩ | ⟨id⟩ | ⟨ppid⟩
  · exact create_avoids hb hR
  · show Avoids bad (rtfSchedulerTaskChange s tp id)
    exact change_op_avoids hb hH hR hg
  · show Avoids bad (rtfSchedulerTaskAttach s id pid)
    unfold rtfSchedulerTaskAttach
    split
    · exact .ok _
    · rename_i a ha
      exact Avoids.bind (pluginAt_avoids hH (rtfTasksetSearch_some ha).1) fun _ _ => .ok _
  · show Avoids bad (rtfSchedulerTaskDetach s id)
    unfold rtfSchedulerTaskDetach
    split
    · exact .ok _
    · rename_i a ha
      exact Avoids.bind (pluginAt_avoids hH (rtfTasksetSearch_some ha).1) fun _ _ => .ok _
  · show Avoids bad (rtfSchedulerTaskDestroy s id)
    unfold rtfSchedulerTaskDestroy
    split
    · exact .ok _
    · rename_i a ts hrm
      exact Avoids.bind (releaseTask_avoids hb hH hR (removed_mem hrm)) fun _ _ => .ok _
  · exact Avoids.bind (deleteLoop_avoids hb hH hR) fun _ _ => .ok _

end Operations

/-! ### Runs -/

/-- The dispatch on a plugin that is not in the table. -/
def OffTable (e : Fault) : Prop := e = .plugin

theorem offTable_indexing : Indexing OffTable := ⟨by simp [OffTable], by simp [OffTable], by simp [OffTable]⟩

theorem offTable_room (this : PluginInfo) (c : ℕ) : Room OffTable this c :=
  ⟨by simp [OffTable], by simp [OffTable]⟩

/-- Task `a` names a plugin of the table and a core of that plugin. -/
def OnItsPlugin (s : Sched) (a : Addr) : Prop :=
  0 ≤ (s.heap a).pluginid ∧ (s.heap a).pluginid < s.numOfPlugins ∧
    (s.heap a).cpu ∈ (s.plugin (s.heap a).pluginid.toNat).cpulist

/-- **Every live task is on a core of its plugin**, in every state of every
run, and no operation dispatches on a plugin that is not there. -/
theorem placement_run {load : List UInt8 → Option Image} {confs : List ConfPlugin} {plgs : List Plugin}
    {k : Kernel} {s : Sched} (hinit : rtfPluginsInit asMaps load confs = some plgs)
    (hrun : Reach step (fun _ _ => True) (Sched.start plgs k) s) :
    (∀ a ∈ s.taskset.root, OnItsPlugin s a) ∧ ∀ o, Avoids OffTable (step s o) := by
  have hH : Held s := hrun.inv (held_start hinit k) fun _ _ _ _ hI _ hs => held_step hI hs
  refine ⟨?_, ?_⟩
  · intro a ha
    obtain ⟨i, hi, hp, hc⟩ := hH.held a ha
    unfold OnItsPlugin
    rw [hp]
    exact ⟨Int.natCast_nonneg i, by exact_mod_cast hi, hc⟩
  · intro o
    refine step_avoids offTable_indexing hH (fun i _ c _ => offTable_room _ c) ?_
    rcases o with _ | _ | _ | _ | _ | _
    · trivial
    · exact fun a _ c _ => offTable_room _ _
    all_goals trivial

open BooksExample in
/-- EDF is full when the second task arrives and has room again when it is changed. -/
theorem placement_twoCreates : ∃ s, runGood step (fun _ _ => True)
    (twoCreates ++ [.attach 2 7, .destroy 1, .change (params 50) 2]) start = some s ∧
      (∀ a ∈ s.taskset.root, OnItsPlugin s a) ∧ ∀ o, Avoids OffTable (step s o) := by
  have hsome : (runGood step (fun _ _ => True)
      (twoCreates ++ [.attach 2 7, .destroy 1, .change (params 50) 2]) start).isSome := by decide +kernel
  obtain ⟨s, hs⟩ := Option.isSome_iff_exists.mp hsome
  exact ⟨s, hs, placement_run init_plgs (reach_runGood hs)⟩

end Retif
