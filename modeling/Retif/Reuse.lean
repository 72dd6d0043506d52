/-
# Memory that is used again

`rtf_task_init` takes the record of a task from `calloc`, and `rtf_task_release`
gives it to `free`. So a record may lie where another one lay, and what a freed
record holds is what the process has put there since. `Hosted` is the scheduler
with such memory: the allocator gives out any address that is not of a task of
the taskset, and leaves anything in the rest of the memory.

In a run in which a changed task stays with its plugin and no id is given out
twice, nothing of that is to be seen: the run is one of the scheduler that never
uses an address again, with the same answers, records, books and kernel
(`reused_run`). A task that another plugin takes over stays on the list of the
first, and once it is freed its memory decides on the priorities of others
(`not_reused_run`).

Key definitions: `Allocator`, `Hosted`, `hostedStep`, `Elsewhere`, `SameRecords`.
Key theorems: `hostedStep_elsewhere`, `reused_run`.
-/
import Retif.Addresses
import Retif.Books
import Retif.Lib.Traces

namespace Retif

open CList Renaming Traces

/-! ### The allocator -/

/-- What `calloc` and `free` do: after `n` calls and with the records of `live`
in use, the next record is at `place n live`; what the memory of no task holds
is `rest n`. -/
structure Allocator where
  place : ℕ → List Addr → Addr
  apart : ∀ n live, place n live ∉ live
  rest : ℕ → Heap

/-- The scheduler, and how often the allocator has been at work. -/
structure Hosted extends Sched where
  calls : ℕ

namespace Hosted

/-- The allocator was at work. -/
def settle (A : Allocator) (m : Hosted) : Hosted :=
  { m with
    heap := fun b => if b ∈ m.taskset.root then m.heap b else A.rest m.calls b
    calls := m.calls + 1 }

/-- `rtf_task_init`, which clears the record. -/
def rtfTaskInit (A : Allocator) (m : Hosted) : Addr × Hosted :=
  let m := m.settle A
  let t := A.place m.calls m.taskset.root
  (t, { m with heap := Function.update m.heap t Task.zero })

def rtfSchedulerTaskCreate (A : Allocator) (m : Hosted) (tp : Params) (ppid : Pid) : Except Fault (Res × Hosted) := do
  let (t, m) := m.rtfTaskInit A
  let s := { m.toSched with
    heap := Function.update m.heap t { m.heap t with id := m.nextId, ptid := ppid, pluginid := -1, params := tp }
    lastTaskId := m.lastTaskId + 1 }
  let (res, s) ← rtfSchedulerTestAndAssign s t
  .ok (res, ⟨s, m.calls⟩)

/-- Release by the plugin, then `rtf_task_release`: the record is the allocator's again. -/
def releaseTask (A : Allocator) (m : Hosted) (ts : Taskset) (t : Addr) : Except Fault Hosted := do
  let s ← Retif.releaseTask { m.toSched with taskset := ts } t
  .ok (settle A ⟨s, m.calls⟩)

def rtfSchedulerTaskDestroy (A : Allocator) (m : Hosted) (rtfId : UInt32) : Except Fault (Res × Hosted) :=
  match rtfTasksetRemoveByRsvid m.heap m.taskset rtfId with
  | (none, _) => .ok (.error, m)
  | (some t, ts) => do
    let m ← m.releaseTask A ts t
    .ok (.ok, m)

/-- The loop of `rtf_scheduler_delete`. -/
def deleteLoop (A : Allocator) (ppid : Pid) : ℕ → Hosted → Except Fault Hosted
  | 0, m => .ok m
  | fuel + 1, m =>
    match rtfTasksetRemoveByPpid m.heap m.taskset ppid with
    | (none, _) => .ok m
    | (some t, ts) => do
      let m ← m.releaseTask A ts t
      deleteLoop A ppid fuel m

/-- An operation that neither takes a record nor gives one back. -/
def within (op : Sched → Except Fault (Res × Sched)) (m : Hosted) : Except Fault (Res × Hosted) := do
  let (res, s) ← op m.toSched
  .ok (res, ⟨s, m.calls⟩)

end Hosted

/-- An operation, after the allocator has worked for the rest of the process. -/
def hostedStep (A : Allocator) (m : Hosted) (o : Op) : Except Fault (Res × Hosted) :=
  let m := m.settle A
  match o with
  | .create tp ppid => m.rtfSchedulerTaskCreate A tp ppid
  | .change tp rtfId => m.within fun s => rtfSchedulerTaskChange s tp rtfId
  | .attach rtfId pid => m.within fun s => rtfSchedulerTaskAttach s rtfId pid
  | .detach rtfId => m.within fun s => rtfSchedulerTaskDetach s rtfId
  | .destroy rtfId => m.rtfSchedulerTaskDestroy A rtfId
  | .delete ppid => do
    let m ← Hosted.deleteLoop A ppid (listGetSize m.taskset) m
    .ok (.ok, m)

/-! ### Lists without strangers -/

/-- Every list names tasks of the taskset only. -/
def Rooted (s : Sched) : Prop := ∀ i c, ∀ b ∈ ((s.plugin i).tasks c).root, b ∈ s.taskset.root

/-- The lists of plugins that keep none, and those behind the table, are empty. -/
def Bare (n : ℕ) (w : World) : Prop :=
  ∀ i, n ≤ i ∨ (w.plugin i).kind.keepsList = false → ∀ c, ((w.plugin i).tasks c).root = []

section Bare

variable {n : ℕ} {w w' : World} {i : ℕ} {a : Addr}

theorem Bare.place (hB : Bare n w) (hi : i < n) (h : rtfPlgTaskSchedule w i a = .ok w') : Bare n w' := by
  obtain ⟨c, hP⟩ := schedule_placed h
  intro j hj d
  rw [hP.info_eq] at hj
  by_cases hji : j = i
  · subst hji
    have hkeeps := hj.resolve_left (not_le.mpr hi)
    have hlist := hP.list d
    rw [if_neg (by simp [hkeeps]), hB j hj d] at hlist
    exact List.perm_nil.mp hlist
  · rw [hP.others j hji]
    exact hB j hj d

theorem Bare.release {r : Res} (hB : Bare n w) (hi : i < n) (h : rtfPlgTaskRelease w i a = .ok (r, w')) :
    Bare n w' := by
  have hR := release_released h
  intro j hj d
  rw [hR.info_eq] at hj
  by_cases hji : j = i
  · subst hji
    have hkeeps := hj.resolve_left (not_le.mpr hi)
    rw [hR.list d, if_neg (by simp [hkeeps])]
    exact hB j hj d
  · rw [hR.others j hji]
    exact hB j hj d

end Bare

/-- The taskset with its lists, and nothing else on any list. -/
structure Housed (s : Sched) : Prop where
  tallied : Tallied s
  listed : Listed s
  bare : Bare s.numOfPlugins s.toWorld

section Housed

variable {s s' : Sched} {o : Op} {r : Res}

theorem Housed.rooted (hH : Housed s) : Rooted s := by
  intro i c b hb
  by_cases hi : s.numOfPlugins ≤ i ∨ (s.plugin i).kind.keepsList = false
  · rw [hH.bare i hi c] at hb
    cases hb
  · push Not at hi
    obtain ⟨hlt, hkeeps⟩ := hi
    exact (mem_placed.mp ((hH.listed.list i hlt (by simpa using hkeeps) c).mem_iff.mp hb)).1

theorem housed_removes {key : Addr → Bool} {a : Addr} (hH : Housed s) (h : Removes key s a s') : Housed s' := by
  refine ⟨tallied_removes hH.tallied h, listed_removes hH.tallied hH.listed h, ?_⟩
  obtain ⟨ts, i, r, w, -, -, hi, hr, rfl⟩ := h
  exact hH.bare.release hi hr

theorem bare_step (hB : Bare s.numOfPlugins s.toWorld) (h : step s o = .ok (r, s')) :
    Bare s'.numOfPlugins s'.toWorld := by
  refine step_inv (I := fun s => Bare s.numOfPlugins s.toWorld) ?_ ?_ ?_ ?_ hB h
  · intro tp ppid _ hcreate
    rcases create_ok hcreate with ⟨-, rfl⟩ | ⟨i, w, hch, hs, rfl⟩
    · exact hB
    · exact Bare.place (w := (s.alloc tp ppid).toWorld) hB (assignee_some hch).1 hs
  · intro tp id _ hchange
    rcases change_ok hchange with rfl | ⟨a, i, r', w, w', -, htk, hr, hs, rfl⟩
    · exact hB
    · have hi := (taker_some htk).1
      exact (hB.release hi hr).place hi hs
  · intro heap k _
    exact hB
  · intro key s a s' hB hrm
    obtain ⟨ts, i, r, w, -, -, hi, hr, rfl⟩ := hrm
    exact hB.release hi hr

theorem housed_step (hH : Housed s) (hg : KeepsOwner s o) (h : step s o = .ok (r, s')) : Housed s' :=
  ⟨tallied_step hH.tallied hg.1 h, listed_step hH.tallied hH.listed hg h, bare_step hH.bare h⟩

end Housed

theorem housed_start {alloc : ℕ → Option ℕ} {load : List UInt8 → Option Image} {confs : List ConfPlugin}
    {plgs : List Plugin} (hinit : rtfPluginsInit alloc load confs = some plgs) (k : Kernel) :
    Housed (Sched.start plgs k) := by
  refine ⟨tallied_start hinit k, listed_start hinit k, ?_⟩
  intro i _ c
  by_cases hi : i < (Sched.start plgs k).numOfPlugins
  · obtain ⟨_, _, -, -, hp⟩ := start_plugin hinit k hi
    rw [hp]
    rfl
  · have hnone : plgs[i]? = none := List.getElem?_eq_none (not_lt.mp hi)
    simp [Sched.start, List.getD, hnone, initPlugin]

/-! ### The same scheduler, elsewhere -/

/-- Scheduler `t` is scheduler `s` with the tasks in `S` elsewhere. -/
structure Elsewhere (π : Addr → Addr) (S : Addr → Prop) (s t : Sched) : Prop where
  world : Copied π S s.toWorld t.toWorld
  taskset : t.taskset = s.taskset.map π
  plugins : t.numOfPlugins = s.numOfPlugins
  ids : t.lastTaskId = s.lastTaskId

/-- An answer, and the scheduler it leaves. -/
def ElsewhereAfter (π : Addr → Addr) (S : Addr → Prop) (x y : Res × Sched) : Prop :=
  y.1 = x.1 ∧ Elsewhere π S x.2 y.2

section Operations

variable {π : Addr → Addr} {S S' : Addr → Prop} {s t : Sched} {a : Addr}

theorem Elsewhere.mono (h : Elsewhere π S s t) (hS : ∀ a, S' a → S a) : Elsewhere π S' s t :=
  ⟨h.world.mono hS, h.taskset, h.plugins, h.ids⟩

theorem pluginAt_elsewhere (h : Elsewhere π S s t) (id : ℤ) : t.pluginAt id = s.pluginAt id := by
  unfold Sched.pluginAt
  rw [h.plugins]

theorem testAndAssign_elsewhere (hπ : Function.Injective π) (ha : S a)
    (hlist : ∀ i c, ∀ b ∈ ((s.plugin i).tasks c).root, S b) (h : Elsewhere π S s t) :
    Lockstep (ElsewhereAfter π S) (rtfSchedulerTestAndAssign s a) (rtfSchedulerTestAndAssign t (π a)) := by
  unfold rtfSchedulerTestAndAssign
  rw [h.plugins]
  refine Lockstep.bind (Lockstep.mono (select_copied (askAccept_copied ha) _ h.world)
    fun x y hx _ hR => And.intro (selectPlugin_ok (askAccept_asks a) hx).1 hR) ?_
  rintro ⟨_, w⟩ ⟨chosen, v⟩ ⟨rfl, rfl, hw⟩
  dsimp only at hw ⊢
  rcases chosen with _ | ⟨i, res⟩
  · exact .ok ⟨rfl, hw, h.taskset, rfl, h.ids⟩
  · refine Lockstep.bind (schedule_copied hπ ha (hlist i) hw) ?_
    intro w' v' hw'
    refine .ok ⟨rfl, hw', ?_, rfl, h.ids⟩
    dsimp only
    rw [h.taskset, addTop_map]

theorem testAndModify_elsewhere (hπ : Function.Injective π) (ha : S a)
    (hlist : ∀ i c, ∀ b ∈ ((s.plugin i).tasks c).root, S b) (h : Elsewhere π S s t) :
    Lockstep (ElsewhereAfter π S) (rtfSchedulerTestAndModify s a) (rtfSchedulerTestAndModify t (π a)) := by
  unfold rtfSchedulerTestAndModify
  rw [h.plugins]
  refine Lockstep.bind (Lockstep.mono (select_copied (askChange_copied ha) _ h.world)
    fun x y hx _ hR => And.intro (selectPlugin_ok (askChange_asks a) hx).1 hR) ?_
  rintro ⟨_, w⟩ ⟨chosen, v⟩ ⟨rfl, rfl, hw⟩
  dsimp only at hw ⊢
  rcases chosen with _ | ⟨i, res⟩
  · exact .ok ⟨rfl, hw, h.taskset, rfl, h.ids⟩
  · refine Lockstep.bind (Lockstep.mono (release_copied hπ ha (hlist i) hw)
      fun x y hx _ hR => And.intro (release_released hx) hR) ?_
    rintro ⟨r, w1⟩ ⟨_, v1⟩ ⟨hrel, rfl, hw1⟩
    dsimp only at hw1 ⊢
    refine Lockstep.bind (schedule_copied hπ ha ?_ hw1) ?_
    · intro c b hb
      -- the release took tasks off the list, and put none on it
      rw [hrel.list c] at hb
      split at hb
      · rw [rtfTasksetRemoveByRsvid, (listRemove_eq _ _).2] at hb
        exact hlist i c b (List.mem_of_mem_eraseP hb)
      · exact hlist i c b hb
    · intro w' v' hw'
      exact .ok ⟨rfl, hw', h.taskset, rfl, h.ids⟩

theorem change_elsewhere (hπ : Function.Injective π) (hroot : ∀ b ∈ s.taskset.root, S b)
    (hlist : ∀ i c, ∀ b ∈ ((s.plugin i).tasks c).root, S b) (h : Elsewhere π S s t) (tp : Params) (id : UInt32) :
    Lockstep (ElsewhereAfter π S) (rtfSchedulerTaskChange s tp id) (rtfSchedulerTaskChange t tp id) := by
  unfold rtfSchedulerTaskChange
  rw [h.taskset, search_map h.world.heap hroot]
  rcases ha : rtfTasksetSearch s.heap s.taskset id with _ | a
  · exact .ok ⟨rfl, h⟩
  · exact testAndModify_elsewhere hπ (hroot a (rtfTasksetSearch_some ha).1) hlist h

theorem attach_elsewhere (hπ : Function.Injective π) (hroot : ∀ b ∈ s.taskset.root, S b) (h : Elsewhere π S s t)
    (id : UInt32) (pid : Pid) :
    Lockstep (ElsewhereAfter π S) (rtfSchedulerTaskAttach s id pid) (rtfSchedulerTaskAttach t id pid) := by
  unfold rtfSchedulerTaskAttach
  rw [h.taskset, search_map h.world.heap hroot]
  rcases ha : rtfTasksetSearch s.heap s.taskset id with _ | a
  · exact .ok ⟨rfl, h⟩
  · have hS := hroot a (rtfTasksetSearch_some ha).1
    simp only [Option.map_some, h.world.heap a hS, pluginAt_elsewhere h]
    apply Lockstep.bind_same
    intro i _
    have hattach : ∀ k task, rtfPlgTaskAttach ((s.plugin i).rename π) k task = rtfPlgTaskAttach (s.plugin i) k task :=
      fun _ _ => rfl
    rw [h.world.plugin i, h.world.kernel, hattach]
    exact .ok ⟨rfl, ⟨h.world.plugin, h.world.statics, rfl, h.world.heap.update hπ a _⟩, rfl, h.plugins, h.ids⟩

theorem detach_elsewhere (hroot : ∀ b ∈ s.taskset.root, S b) (h : Elsewhere π S s t) (id : UInt32) :
    Lockstep (ElsewhereAfter π S) (rtfSchedulerTaskDetach s id) (rtfSchedulerTaskDetach t id) := by
  unfold rtfSchedulerTaskDetach
  rw [h.taskset, search_map h.world.heap hroot]
  rcases ha : rtfTasksetSearch s.heap s.taskset id with _ | a
  · exact .ok ⟨rfl, h⟩
  · have hS := hroot a (rtfTasksetSearch_some ha).1
    simp only [Option.map_some, h.world.heap a hS, pluginAt_elsewhere h]
    apply Lockstep.bind_same
    intro i _
    have hdetach : ∀ k task, rtfPlgTaskDetach ((s.plugin i).rename π) k task = rtfPlgTaskDetach (s.plugin i) k task :=
      fun _ _ => rfl
    rw [h.world.plugin i, h.world.kernel, hdetach]
    exact .ok ⟨rfl, ⟨h.world.plugin, h.world.statics, rfl, h.world.heap⟩, rfl, h.plugins, h.ids⟩

theorem releaseTask_elsewhere (hπ : Function.Injective π) (ha : S a)
    (hlist : ∀ i c, ∀ b ∈ ((s.plugin i).tasks c).root, S b) (h : Elsewhere π S s t) :
    Lockstep (Elsewhere π S) (releaseTask s a) (releaseTask t (π a)) := by
  unfold releaseTask
  rw [h.world.heap a ha, pluginAt_elsewhere h]
  apply Lockstep.bind_same
  intro i _
  refine Lockstep.bind (release_copied hπ ha (hlist i) h.world) ?_
  rintro ⟨r, w⟩ ⟨_, v⟩ ⟨rfl, hw⟩
  exact .ok ⟨hw, h.taskset, h.plugins, h.ids⟩

end Operations

/-! ### One operation -/

/-- The hosted scheduler is `s`, with its tasks where the allocator put them. -/
def Hosts (s : Sched) (m : Hosted) : Prop :=
  ∃ π : Addr → Addr, Function.Injective π ∧ Elsewhere π (· ∈ s.taskset.root) s m.toSched

/-- An answer, and the scheduler that is hosted after it. -/
def HostsAfter (x : Res × Sched) (y : Res × Hosted) : Prop := y.1 = x.1 ∧ Hosts x.2 y.2

section Hosted

variable {A : Allocator} {s : Sched} {m : Hosted}

/-- The allocator's work is not seen. -/
theorem Hosts.settle (h : Hosts s m) : Hosts s (m.settle A) := by
  obtain ⟨π, hπ, hE⟩ := h
  refine ⟨π, hπ, ⟨hE.world.plugin, hE.world.statics, hE.world.kernel, ?_⟩, hE.taskset, hE.plugins, hE.ids⟩
  intro a ha
  have hmem : π a ∈ m.taskset.root := by
    rw [hE.taskset]
    exact List.mem_map_of_mem ha
  show (if π a ∈ m.taskset.root then m.heap (π a) else A.rest m.calls (π a)) = s.heap a
  rw [if_pos hmem]
  exact hE.world.heap a ha

theorem within_hosts (op : Sched → Except Fault (Res × Sched)) {π : Addr → Addr} (hπ : Function.Injective π)
    (hop : Lockstep (ElsewhereAfter π (· ∈ s.taskset.root)) (op s) (op m.toSched))
    (hkeep : ∀ r s', op s = .ok (r, s') → ∀ b ∈ s'.taskset.root, b ∈ s.taskset.root) :
    Lockstep HostsAfter (op s) (m.within op) := by
  have hop := Lockstep.mono hop fun x y hx _ hR => And.intro hx hR
  have hsame : op s = op s >>= Except.ok := by cases op s <;> rfl
  unfold Hosted.within
  rw [hsame]
  refine Lockstep.bind hop ?_
  rintro ⟨r, s'⟩ ⟨_, t'⟩ ⟨hx, rfl, hE⟩
  exact .ok ⟨rfl, π, hπ, hE.mono (hkeep _ _ hx)⟩

/-- The record just taken is one more, where the allocator puts it. -/
theorem alloc_elsewhere {π : Addr → Addr} (hH : Housed s) (hπ : Function.Injective π)
    (hE : Elsewhere π (· ∈ s.taskset.root) s m.toSched) {b : Addr} (hb : b ∉ m.taskset.root) (tp : Params) (ppid : Pid) :
    Elsewhere (moved π s.next b) (fun x => x = s.next ∨ x ∈ s.taskset.root) (s.alloc tp ppid)
      { m.toSched with
        heap := Function.update m.heap b (newTask s.nextId ppid tp)
        lastTaskId := m.lastTaskId + 1 } := by
  have hnext : s.next ∉ s.taskset.root := hH.tallied.sane.next_not_mem
  have hplace : ∀ x ∈ s.taskset.root, π x ≠ b := by
    rintro x hx rfl
    apply hb
    rw [hE.taskset]
    exact List.mem_map_of_mem hx
  have hmoved : ∀ x ∈ s.taskset.root, moved π s.next b x = π x := by
    intro x hx
    exact moved_of_ne hπ (fun hxn => hnext (hxn ▸ hx)) (hplace x hx)
  refine ⟨⟨?_, hE.world.statics, hE.world.kernel, hE.world.heap.moved hπ hnext hplace _⟩, ?_, hE.plugins, ?_⟩
  · intro j
    exact (hE.world.plugin j).trans (Plugin.rename_congr fun c x hx => hmoved x (hH.rooted j c x hx)).symm
  · refine hE.taskset.trans (CList.ext ?_)
    exact (List.map_congr_left hmoved).symm
  · exact congrArg (· + 1) hE.ids

/-- **Create**: the record lies where the allocator puts it. -/
theorem create_hosts (hH : Housed s) (h : Hosts s m) (tp : Params) (ppid : Pid) :
    Lockstep HostsAfter (rtfSchedulerTaskCreate s tp ppid) (m.rtfSchedulerTaskCreate A tp ppid) := by
  obtain ⟨π, hπ, hE⟩ := h.settle (A := A)
  have hb := A.apart (m.settle A).calls (m.settle A).taskset.root
  have halloc := alloc_elsewhere hH hπ hE hb tp ppid
  have hrecord : ∀ heap : Heap, ∀ t id, Function.update (Function.update heap t Task.zero) t
      { Function.update heap t Task.zero t with id := id, ptid := ppid, pluginid := -1, params := tp } =
        Function.update heap t (newTask id ppid tp) := by
    intro heap t id
    rw [Function.update_self, Function.update_idem]
    rfl
  have hid : ∀ heap : Heap, ({ (m.settle A).toSched with heap := heap } : Sched).nextId = s.nextId := by
    intro heap
    unfold Sched.nextId
    rw [hE.ids]
  have hsame : rtfSchedulerTaskCreate s tp ppid = rtfSchedulerTaskCreate s tp ppid >>= Except.ok := by
    cases rtfSchedulerTaskCreate s tp ppid <;> rfl
  unfold Hosted.rtfSchedulerTaskCreate Hosted.rtfTaskInit
  dsimp only
  rw [hrecord, hid, hsame]
  have hlist : ∀ i c, ∀ b ∈ (((s.alloc tp ppid).plugin i).tasks c).root, b = s.next ∨ b ∈ s.taskset.root :=
    fun i c b hb => .inr (hH.rooted i c b hb)
  have hassign := testAndAssign_elsewhere (moved_injective hπ _ _) (.inl rfl) hlist halloc
  rw [moved_self] at hassign
  refine Lockstep.bind (Lockstep.mono hassign fun x y hx _ hR => And.intro hx hR) ?_
  rintro ⟨r, s'⟩ ⟨_, t'⟩ ⟨hx, rfl, hE'⟩
  refine .ok ⟨rfl, _, moved_injective hπ _ _, hE'.mono ?_⟩
  intro x hx'
  rcases create_ok (show rtfSchedulerTaskCreate s tp ppid = _ from hx) with ⟨-, rfl⟩ | ⟨i, w, -, -, rfl⟩
  · exact .inr hx'
  · exact List.mem_cons.mp hx'

/-! Destroy and delete: the record goes back to the allocator. -/

theorem releaseTask_hosts {key : Addr → Bool} {π : Addr → Addr} {a : Addr} {ts : Taskset} (hH : Housed s)
    (hπ : Function.Injective π) (hE : Elsewhere π (· ∈ s.taskset.root) s m.toSched)
    (hrm : listRemove s.taskset key = (some a, ts)) :
    Lockstep Hosts (releaseTask { s with taskset := ts } a) (m.releaseTask A (ts.map π) (π a)) := by
  have hmem : a ∈ s.taskset.root := by
    rcases listRemove_cases s.taskset key with ⟨hn, -⟩ | ⟨b, ts', hb, hm, -⟩
    · rw [hn] at hrm
      cases hrm
    · rw [hb] at hrm
      cases hrm
      exact hm
  have hE' : Elsewhere π (· ∈ s.taskset.root) { s with taskset := ts } { m.toSched with taskset := ts.map π } :=
    ⟨hE.world, rfl, hE.plugins, hE.ids⟩
  have hsame : ∀ x : Except Fault Sched, x = x >>= Except.ok := by
    intro x
    cases x <;> rfl
  unfold Hosted.releaseTask
  rw [hsame (releaseTask _ a)]
  refine Lockstep.bind (Lockstep.mono (releaseTask_elsewhere hπ hmem hH.rooted hE') fun x y hx _ hR => And.intro hx hR) ?_
  rintro s' t' ⟨hx, hR⟩
  obtain ⟨-, hp, -⟩ := (releaseTask_removes hrm hx).root
  exact .ok (Hosts.settle ⟨π, hπ, hR.mono fun b hb => hp.mem_iff.mpr (List.mem_cons_of_mem a hb)⟩)

theorem destroy_hosts (hH : Housed s) (h : Hosts s m) (id : UInt32) :
    Lockstep HostsAfter (rtfSchedulerTaskDestroy s id) (m.rtfSchedulerTaskDestroy A id) := by
  obtain ⟨π, hπ, hE⟩ := h
  unfold rtfSchedulerTaskDestroy Hosted.rtfSchedulerTaskDestroy
  rw [hE.taskset, removeByRsvid_map hE.world.heap fun b hb => hb]
  rcases hrm : rtfTasksetRemoveByRsvid s.heap s.taskset id with ⟨_ | a, ts⟩
  · exact .ok ⟨rfl, π, hπ, hE⟩
  · refine Lockstep.bind (releaseTask_hosts hH hπ hE hrm) ?_
    intro s' m' hm'
    exact .ok ⟨rfl, hm'⟩

theorem deleteLoop_hosts (ppid : Pid) {fuel : ℕ} (hH : Housed s) (h : Hosts s m) :
    Lockstep Hosts (deleteLoop ppid fuel s) (Hosted.deleteLoop A ppid fuel m) := by
  induction fuel generalizing s m with
  | zero => exact .ok h
  | succ fuel ih =>
    obtain ⟨π, hπ, hE⟩ := h
    unfold deleteLoop Hosted.deleteLoop
    rw [hE.taskset, removeByPpid_map hE.world.heap fun b hb => hb]
    rcases hrm : rtfTasksetRemoveByPpid s.heap s.taskset ppid with ⟨_ | a, ts⟩
    · exact .ok ⟨π, hπ, hE⟩
    · refine Lockstep.bind (Lockstep.mono (releaseTask_hosts hH hπ hE hrm) fun x y hx _ hR => And.intro hx hR) ?_
      rintro s' m' ⟨hx, hm'⟩
      exact ih (housed_removes hH (releaseTask_removes hrm hx)) hm'

/-- **One operation** of the hosted scheduler is the operation of the other. -/
theorem hostedStep_hosts (hH : Housed s) (h : Hosts s m) (o : Op) :
    Lockstep HostsAfter (step s o) (hostedStep A m o) := by
  have hset := h.settle (A := A)
  obtain ⟨π, hπ, hE⟩ := id hset
  cases o with
  | create tp ppid => exact create_hosts hH hset tp ppid
  | change tp id =>
    refine within_hosts (fun s => rtfSchedulerTaskChange s tp id) hπ (change_elsewhere hπ (fun b hb => hb) hH.rooted hE tp id) ?_
    intro r s' hs
    rcases change_ok hs with rfl | ⟨a, i, r', w, w', -, -, -, -, rfl⟩
    · exact fun b hb => hb
    · exact fun b hb => hb
  | attach id pid =>
    refine within_hosts (fun s => rtfSchedulerTaskAttach s id pid) hπ (attach_elsewhere hπ (fun b hb => hb) hE id pid) ?_
    intro r s' hs
    rcases attach_ok hs with ⟨-, rfl⟩ | ⟨a, i, -, -, -, -, rfl⟩
    · exact fun b hb => hb
    · exact fun b hb => hb
  | detach id =>
    refine within_hosts (fun s => rtfSchedulerTaskDetach s id) hπ (detach_elsewhere (fun b hb => hb) hE id) ?_
    intro r s' hs
    rcases detach_ok hs with ⟨-, rfl⟩ | ⟨a, i, -, -, -, rfl⟩
    · exact fun b hb => hb
    · exact fun b hb => hb
  | destroy id => exact destroy_hosts hH hset id
  | delete ppid =>
    have hsize : listGetSize (m.settle A).taskset = listGetSize s.taskset := by
      rw [hE.taskset]
      rfl
    unfold hostedStep step rtfSchedulerDelete
    dsimp only
    rw [hsize]
    refine Lockstep.bind (deleteLoop_hosts ppid hH hset) ?_
    intro s' m' hm'
    exact .ok ⟨rfl, hm'⟩

theorem taker_hosts {π : Addr → Addr} {a : Addr} (hE : Elsewhere π (· ∈ s.taskset.root) s m.toSched)
    (ha : a ∈ s.taskset.root) : taker m.toSched (π a) = taker s a := by
  have hsel := select_copied (askChange_copied ha) s.numOfPlugins hE.world
  unfold taker chosenBy
  rw [hE.plugins]
  cases hx : selectPlugin (askChange a) s.numOfPlugins s.toWorld with
  | error e =>
    rw [(hsel.error_iff e).mpr hx]
  | ok x =>
    obtain ⟨y, hy, heq, -⟩ := hsel.of_ok hx
    rw [hy]
    exact heq

/-- What keeps the owner there keeps it here. -/
theorem keepsOwner_hosts (h : Hosts s m) {o : Op} (hg : KeepsOwner m.toSched o) : KeepsOwner s o := by
  obtain ⟨π, hπ, hE⟩ := h
  obtain ⟨hkeep, hfresh⟩ := hg
  refine ⟨?_, ?_⟩
  · cases o with
    | change tp id =>
      intro a ha c hc
      have hmem := (rtfTasksetSearch_some ha).1
      have hsearch : rtfTasksetSearch m.heap (s.taskset.map π) id = (rtfTasksetSearch s.heap s.taskset id).map π :=
        search_map hE.world.heap (fun b hb => hb) id
      rw [← hE.taskset, ha] at hsearch
      have hown := hkeep (π a) hsearch c (by rwa [taker_hosts hE hmem])
      rwa [hE.world.heap a hmem] at hown
    | _ => trivial
  · cases o with
    | create tp ppid =>
      intro a ha hid
      have hmem : π a ∈ m.taskset.root := by
        rw [hE.taskset]
        exact List.mem_map_of_mem ha
      apply hfresh (π a) hmem
      have hnext : m.nextId = s.nextId := congrArg (fun n => UInt32.ofNat (n + 1)) hE.ids
      rw [hE.world.heap a ha, hid, hnext]
    | _ => trivial

end Hosted

/-! ### Runs -/

/-- What there is to see of two schedulers is the same, the records of the tasks
included; where these are and what is beside them is not. -/
structure SameRecords (s t : Sched) : Prop where
  records : t.taskset.root.map t.heap = s.taskset.root.map s.heap
  lists : ∀ i c, ((t.plugin i).tasks c).root.map t.heap = ((s.plugin i).tasks c).root.map s.heap
  info : ∀ i, (t.plugin i).toPluginInfo = (s.plugin i).toPluginInfo
  util : ∀ i, (t.plugin i).utilFreePercpu = (s.plugin i).utilFreePercpu
  count : ∀ i, (t.plugin i).taskCountPercpu = (s.plugin i).taskCountPercpu
  statics : t.statics = s.statics
  kernel : t.kernel = s.kernel
  ids : t.lastTaskId = s.lastTaskId

theorem Hosts.same {s : Sched} {m : Hosted} (hR : Rooted s) (h : Hosts s m) : SameRecords s m.toSched := by
  obtain ⟨π, -, hE⟩ := h
  have hrecords : ∀ as : List Addr, (∀ a ∈ as, a ∈ s.taskset.root) → (as.map π).map m.heap = as.map s.heap := by
    intro as has
    rw [List.map_map]
    exact List.map_congr_left fun a ha => hE.world.heap a (has a ha)
  refine ⟨?_, ?_, ?_, ?_, ?_, hE.world.statics, hE.world.kernel, hE.ids⟩
  · rw [hE.taskset, map_root]
    exact hrecords _ fun a ha => ha
  · intro i c
    rw [hE.world.plugin i]
    exact hrecords _ (hR i c)
  · intro i
    rw [hE.world.plugin i]
    rfl
  · intro i
    rw [hE.world.plugin i]
    rfl
  · intro i
    rw [hE.world.plugin i]
    rfl

/-- **Memory that is used again is not seen**: whatever the allocator does, a run
in which a changed task stays with its plugin and no id is given out twice is a
run on memory that is never used again, with the same answers; what it leaves is
the same, the next operation stops in one if it does in the other, and no list
has a record that was freed, or one twice. -/
theorem reused_run {alloc : ℕ → Option ℕ} {load : List UInt8 → Option Image} {confs : List ConfPlugin}
    {plgs : List Plugin} (hinit : rtfPluginsInit alloc load confs = some plgs) (k : Kernel) (A : Allocator)
    {ls : List (Op × Res)} {m : Hosted}
    (hrun : Trace (Answered (hostedStep A) fun m o => KeepsOwner m.toSched o) ⟨Sched.start plgs k, 0⟩ ls m) :
    (∃ s, Trace (Answered step KeepsOwner) (Sched.start plgs k) ls s ∧ SameRecords s m.toSched ∧
      ∀ o e, hostedStep A m o = .error e ↔ step s o = .error e) ∧
    m.taskset.root.Nodup ∧ Rooted m.toSched := by
  have hstart : Hosts (Sched.start plgs k) ⟨Sched.start plgs k, 0⟩ := by
    refine ⟨id, Function.injective_id, ⟨?_, rfl, rfl, fun _ _ => rfl⟩, CList.ext (List.map_id _).symm, rfl, rfl⟩
    intro j
    exact (Plugin.rename_id _).symm
  have hsim : ∀ s t o, Housed s → Hosts s t → Lockstep HostsAfter (step s o) (hostedStep A t o) :=
    fun s t o hI hR => hostedStep_hosts hI hR o
  have hgood : ∀ s t o, Housed s → Hosts s t → KeepsOwner t.toSched o → KeepsOwner s o :=
    fun s t o _ hR hg => keepsOwner_hosts hR hg
  have hinv : ∀ s o r s', Housed s → KeepsOwner s o → step s o = .ok (r, s') → Housed s' :=
    fun s o r s' hI hg hs => housed_step hI hg hs
  obtain ⟨s, hs, hH, hm⟩ := hrun.lockstep hstart (housed_start hinit k) hgood hinv hsim
  obtain ⟨π, hπ, hE⟩ := id hm
  refine ⟨⟨s, hs, hm.same hH.rooted, fun o e => (hostedStep_hosts hH hm o).error_iff e⟩, ?_, ?_⟩
  · rw [hE.taskset, map_root]
    exact hH.tallied.tallies.nodup.map hπ
  · intro i c b hb
    rw [hE.world.plugin i] at hb
    obtain ⟨a, ha, rfl⟩ := List.mem_map.mp hb
    rw [hE.taskset, map_root]
    exact List.mem_map_of_mem (hH.rooted i c a ha)

/-! ### A record in the place of another -/

namespace ReuseExample

open BooksExample

/-- An allocator that leaves `junk` in the memory of no task. -/
def leaving (junk : Task) : Allocator where
  place _ live := live.sum + 1
  apart _ _ h := Nat.not_succ_le_self _ (List.le_sum_of_mem h)
  rest _ _ := junk

/-- What may be left of a record. -/
def junk : Task := { newTask 9 9 (params 7) with schedprio := 77 }

def start : Hosted := ⟨BooksExample.start, 0⟩

/-- The second task gets the memory of the first. -/
def ops : List Op := [.create (params 50) 1, .destroy 1, .create (params 30) 1]

/-- The second task, for which EDF had no room, moves there and is destroyed; the third is for RM. -/
def moving : List Op :=
  [.create (params 100) 1, .create (params 50) 2, .destroy 1, .change (params 50) 2, .destroy 2,
    .create { params 50 with ignoreAdmission := 1 } 2]

/-- The real priorities of the tasks, last created first. -/
def priorities (m : Hosted) : List UInt32 := m.taskset.root.map fun a => (m.heap a).schedprio

end ReuseExample

open ReuseExample

theorem reused_sameMemory : ∃ m ls, Trace (Answered (hostedStep (leaving junk)) fun m o => KeepsOwner m.toSched o)
      ReuseExample.start ls m ∧ m.taskset.root = [1] ∧
    ∃ s, Trace (Answered step KeepsOwner) BooksExample.start ls s ∧ SameRecords s m.toSched := by
  have hend : (answers (hostedStep (leaving junk)) (fun m o => KeepsOwner m.toSched o) ops ReuseExample.start).any
      (fun p => p.2.taskset.root = [1]) = true := by decide +kernel
  obtain ⟨⟨ls, m⟩, hm, hv⟩ := (Option.any_eq_true _ _).mp hend
  have htr := trace_answers hm
  obtain ⟨⟨s, hs, hsame, -⟩, -⟩ := reused_run BooksExample.init_plgs BooksExample.kernel (leaving junk) htr
  exact ⟨m, ls, htr, of_decide_eq_true hv, s, hs, hsame⟩

/-- **A task that was moved** stays on RM's list. When it is freed, what is left
of its record is the priority of the next task, or is not. -/
theorem not_reused_run :
    (outputs (hostedStep (leaving junk)) moving ReuseExample.start).map (fun p => priorities p.2) = some [77] ∧
    (outputs (hostedStep (leaving Task.zero)) moving ReuseExample.start).map (fun p => priorities p.2) = some [10] := by
  decide +kernel

end Retif
