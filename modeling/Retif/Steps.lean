/-
# What each operation does

The operations of the scheduler, inverted: which of a few things happened when
an operation returned, and in terms of which plugin calls. The invariants are
proved from these statements and from `Placed` and `Released`, not from the
definitions.

The loop of `rtf_scheduler_delete` has its own induction rule
(`delete_inv`) and ends with no task of the pid left (`delete_none_left`);
`step_inv` is the rule for an operation as a whole.

Key theorems: `create_ok`, `change_ok`, `attach_ok`, `detach_ok`, `destroy_ok`,
`delete_inv`, `step_inv`, `delete_none_left`, `start_plugin`, `sane_step`,
`sameConfig_step`.
-/
import Retif.Effects

namespace Retif

open CList

theorem pluginAt_ok {s : Sched} {id : ℤ} {i : ℕ} : s.pluginAt id = .ok i ↔ id = i ∧ i < s.numOfPlugins := by
  unfold Sched.pluginAt
  split
  · rename_i h
    constructor
    · intro hi
      cases hi
      omega
    · rintro ⟨rfl, -⟩
      rfl
  · rename_i h
    constructor
    · intro hi
      cases hi
    · rintro ⟨rfl, hi⟩
      exact absurd ⟨by omega, by omega⟩ h

/-- The plugin that is chosen when all are asked, and its answer. -/
def chosenBy (ask : World → ℕ → Except Fault (Res × World)) (s : Sched) : Option (ℕ × Res) :=
  match selectPlugin ask s.numOfPlugins s.toWorld with
  | .ok (chosen, _) => chosen
  | .error _ => none

theorem chosenBy_some {ask : World → ℕ → Except Fault (Res × World)} (hask : Asks ask) {s : Sched} {i : ℕ}
    {r : Res} (h : chosenBy ask s = some (i, r)) :
    i < s.numOfPlugins ∧ ask s.toWorld i = .ok (r, s.toWorld) ∧ r ≠ .no := by
  unfold chosenBy at h
  split at h
  · rename_i hsel
    exact (selectPlugin_ok hask hsel).2 i r h
  · cases h

/-- The plugin `test_and_assign` turns to for the task at `a`, and its answer. -/
def assignee (s : Sched) (a : Addr) : Option (ℕ × Res) := chosenBy (askAccept a) s

/-- The plugin `test_and_modify` turns to for the task at `a`, and its answer. -/
def taker (s : Sched) (a : Addr) : Option (ℕ × Res) := chosenBy (askChange a) s

/-! ### Create -/

theorem Sched.alloc_self (s : Sched) (tp : Params) (ppid : Pid) :
    (s.alloc tp ppid).heap s.next = newTask s.nextId ppid tp := Function.update_self ..

theorem assignee_some {s : Sched} {a : Addr} {i : ℕ} {r : Res} (h : assignee s a = some (i, r)) :
    i < s.numOfPlugins ∧ rtfPlgTaskAccept (s.plugin i) (s.heap a) = .ok r ∧ r ≠ .no := by
  obtain ⟨h1, h2, h3⟩ := chosenBy_some (askAccept_asks a) h
  obtain ⟨r', hr, hrest⟩ := bind_ok.mp h2
  cases hrest
  exact ⟨h1, hr, h3⟩

/-- A task is refused, and its record stays behind unreachable; or the plugin
chosen schedules it. -/
theorem create_ok {s s' : Sched} {tp : Params} {ppid : Pid} {r : Res}
    (h : rtfSchedulerTaskCreate s tp ppid = .ok (r, s')) :
    (r = .no ∧ s' = s.alloc tp ppid) ∨
      ∃ i w, assignee (s.alloc tp ppid) s.next = some (i, r) ∧
        rtfPlgTaskSchedule (s.alloc tp ppid).toWorld i s.next = .ok w ∧
        s' = { s.alloc tp ppid with toWorld := w, taskset := rtfTasksetAddTop s.taskset s.next } := by
  obtain ⟨⟨chosen, w⟩, hsel, hrest⟩ := bind_ok.mp h
  have hch : assignee (s.alloc tp ppid) s.next = chosen := by
    unfold assignee chosenBy
    rw [hsel]
  obtain ⟨rfl, -⟩ := selectPlugin_ok (askAccept_asks s.next) hsel
  rcases chosen with _ | ⟨i, res⟩
  · cases hrest
    exact .inl ⟨rfl, rfl⟩
  · obtain ⟨w1, hw1, hrest⟩ := bind_ok.mp hrest
    cases hrest
    exact .inr ⟨i, w1, hch, hw1, rfl⟩

/-! ### Change -/

theorem taker_some {s : Sched} {a : Addr} {i : ℕ} {r : Res} (h : taker s a = some (i, r)) :
    i < s.numOfPlugins ∧ askChange a s.toWorld i = .ok (r, s.toWorld) ∧ r ≠ .no :=
  chosenBy_some (askChange_asks a) h

theorem testAndModify_ok {s s' : Sched} {a : Addr} {r : Res}
    (h : rtfSchedulerTestAndModify s a = .ok (r, s')) :
    (r = .no ∧ s' = s ∧ taker s a = none) ∨
      ∃ i r' w w', taker s a = some (i, r) ∧ rtfPlgTaskRelease s.toWorld i a = .ok (r', w) ∧
        rtfPlgTaskSchedule w i a = .ok w' ∧ s' = { s with toWorld := w' } := by
  obtain ⟨⟨chosen, w⟩, hsel, hrest⟩ := bind_ok.mp h
  have htk : taker s a = chosen := by
    unfold taker chosenBy
    rw [hsel]
  obtain ⟨rfl, -⟩ := selectPlugin_ok (askChange_asks a) hsel
  rcases chosen with _ | ⟨i, res⟩
  · cases hrest
    exact .inl ⟨rfl, rfl, htk⟩
  · obtain ⟨⟨r', w1⟩, hw1, hrest⟩ := bind_ok.mp hrest
    obtain ⟨w2, hw2, hrest⟩ := bind_ok.mp hrest
    cases hrest
    exact .inr ⟨i, r', w1, w2, htk, hw1, hw2, rfl⟩

/-- Nothing happens; or the plugin chosen releases the task and schedules it. -/
theorem change_ok {s s' : Sched} {tp : Params} {id : UInt32} {r : Res}
    (h : rtfSchedulerTaskChange s tp id = .ok (r, s')) :
    s' = s ∨ ∃ a i r' w w', rtfTasksetSearch s.heap s.taskset id = some a ∧
      taker s a = some (i, r) ∧
      rtfPlgTaskRelease s.toWorld i a = .ok (r', w) ∧ rtfPlgTaskSchedule w i a = .ok w' ∧
      s' = { s with toWorld := w' } := by
  unfold rtfSchedulerTaskChange at h
  split at h
  · cases h
    exact .inl rfl
  · rename_i a ha
    rcases testAndModify_ok h with ⟨-, rfl, -⟩ | ⟨i, r', w, w', hc, hr, hs, rfl⟩
    · exact .inl rfl
    · exact .inr ⟨a, i, r', w, w', ha, hc, hr, hs, rfl⟩

/-! ### Attach and detach -/

/-- Attaching rewrites the thread id in the record, and nothing else. -/
theorem update_tid (h : Heap) (a : Addr) (pid : Pid) (b : Addr) :
    Function.update h a { h a with tid := pid } b =
      { h b with tid := (Function.update h a { h a with tid := pid } b).tid } := by
  by_cases hb : b = a
  · subst hb
    simp
  · simp [hb]

theorem attach_ok {s s' : Sched} {id : UInt32} {pid : Pid} {r : Res}
    (h : rtfSchedulerTaskAttach s id pid = .ok (r, s')) :
    (rtfTasksetSearch s.heap s.taskset id = none ∧ s' = s) ∨
      ∃ a, ∃ i : ℕ, rtfTasksetSearch s.heap s.taskset id = some a ∧ (s.heap a).pluginid = i ∧
      i < s.numOfPlugins ∧ r = (rtfPlgTaskAttach (s.plugin i) s.kernel { s.heap a with tid := pid }).1 ∧
      s' = { s with
        heap := Function.update s.heap a { s.heap a with tid := pid }
        kernel := (rtfPlgTaskAttach (s.plugin i) s.kernel { s.heap a with tid := pid }).2 } := by
  unfold rtfSchedulerTaskAttach at h
  split at h
  · rename_i hn
    cases h
    exact .inl ⟨hn, rfl⟩
  · rename_i a ha
    obtain ⟨i, hi, h⟩ := bind_ok.mp h
    cases h
    obtain ⟨h1, h2⟩ := pluginAt_ok.mp hi
    exact .inr ⟨a, i, ha, h1, h2, rfl, rfl⟩

theorem detach_ok {s s' : Sched} {id : UInt32} {r : Res} (h : rtfSchedulerTaskDetach s id = .ok (r, s')) :
    (rtfTasksetSearch s.heap s.taskset id = none ∧ s' = s) ∨
      ∃ a, ∃ i : ℕ, rtfTasksetSearch s.heap s.taskset id = some a ∧ (s.heap a).pluginid = i ∧
      i < s.numOfPlugins ∧ s' = { s with kernel := (rtfPlgTaskDetach (s.plugin i) s.kernel (s.heap a)).2 } := by
  unfold rtfSchedulerTaskDetach at h
  split at h
  · rename_i hn
    cases h
    exact .inl ⟨hn, rfl⟩
  · rename_i a ha
    obtain ⟨i, hi, h⟩ := bind_ok.mp h
    cases h
    obtain ⟨h1, h2⟩ := pluginAt_ok.mp hi
    exact .inr ⟨a, i, ha, h1, h2, rfl⟩

/-! ### Destroy and delete -/

/-- A task found by `key` leaves the taskset and is released by its plugin. -/
def Removes (key : Addr → Bool) (s : Sched) (a : Addr) (s' : Sched) : Prop :=
  ∃ ts, ∃ i : ℕ, ∃ r w, listRemove s.taskset key = (some a, ts) ∧ (s.heap a).pluginid = i ∧ i < s.numOfPlugins ∧
    rtfPlgTaskRelease s.toWorld i a = .ok (r, w) ∧ s' = { s with toWorld := w, taskset := ts }

theorem releaseTask_removes {key : Addr → Bool} {s s' : Sched} {a : Addr} {ts : Taskset}
    (hrm : listRemove s.taskset key = (some a, ts)) (h : releaseTask { s with taskset := ts } a = .ok s') :
    Removes key s a s' := by
  obtain ⟨i, hi, h⟩ := bind_ok.mp h
  obtain ⟨⟨r, w⟩, hw, h⟩ := bind_ok.mp h
  cases h
  obtain ⟨h1, h2⟩ := pluginAt_ok.mp hi
  exact ⟨ts, i, r, w, hrm, h1, h2, hw, rfl⟩

theorem destroy_ok {s s' : Sched} {id : UInt32} {r : Res} (h : rtfSchedulerTaskDestroy s id = .ok (r, s')) :
    s' = s ∨ ∃ a, Removes (fun a => (s.heap a).id == id) s a s' := by
  unfold rtfSchedulerTaskDestroy at h
  split at h
  · cases h
    exact .inl rfl
  · rename_i a ts hrm
    obtain ⟨s1, hs1, h⟩ := bind_ok.mp h
    cases h
    exact .inr ⟨a, releaseTask_removes hrm hs1⟩

/-- What one turn of the loop keeps, the loop keeps. -/
theorem deleteLoop_inv {ppid : Pid} {I : Sched → Prop}
    (hstep : ∀ s a s', I s → Removes (fun a => (s.heap a).ptid == ppid) s a s' → I s') {fuel : ℕ} {s s' : Sched}
    (h : deleteLoop ppid fuel s = .ok s') (hI : I s) : I s' := by
  induction fuel generalizing s with
  | zero =>
    obtain rfl := Except.ok.inj h
    exact hI
  | succ fuel ih =>
    unfold deleteLoop at h
    split at h
    · obtain rfl := Except.ok.inj h
      exact hI
    · rename_i a ts hrm
      obtain ⟨s1, hs1, h⟩ := bind_ok.mp h
      exact ih h (hstep s a s1 hI (releaseTask_removes hrm hs1))

theorem delete_inv {ppid : Pid} {I : Sched → Prop}
    (hstep : ∀ s a s', I s → Removes (fun a => (s.heap a).ptid == ppid) s a s' → I s') {s s' : Sched}
    (h : rtfSchedulerDelete s ppid = .ok s') (hI : I s) : I s' :=
  deleteLoop_inv hstep h hI

/-- **An invariant of one operation**: besides what a create and a change do to it, it has to
survive the removal of a task and new thread ids and kernel tables, which is all the others do. -/
theorem step_inv {I : Sched → Prop} {s s' : Sched} {o : Op} {r : Res}
    (hcreate : ∀ tp ppid, o = .create tp ppid → rtfSchedulerTaskCreate s tp ppid = .ok (r, s') → I s')
    (hchange : ∀ tp id, o = .change tp id → rtfSchedulerTaskChange s tp id = .ok (r, s') → I s')
    (hthread : ∀ heap k, (∀ b, heap b = { s.heap b with tid := (heap b).tid }) →
      I { s with heap := heap, kernel := k })
    (hremoves : ∀ key s a s', I s → Removes key s a s' → I s')
    (hI : I s) (h : step s o = .ok (r, s')) : I s' := by
  rcases o with ⟨tp, ppid⟩ | ⟨tp, id⟩ | ⟨id, pid⟩ | ⟨id⟩ | ⟨id⟩ | ⟨ppid⟩
  · exact hcreate tp ppid rfl h
  · exact hchange tp id rfl h
  · rcases attach_ok h with ⟨-, rfl⟩ | ⟨a, i, -, -, -, -, rfl⟩
    · exact hI
    · exact hthread _ _ (update_tid s.heap a pid)
  · rcases detach_ok h with ⟨-, rfl⟩ | ⟨a, i, -, -, -, rfl⟩
    · exact hI
    · exact hthread s.heap _ fun _ => rfl
  · rcases destroy_ok h with rfl | ⟨a, hrm⟩
    · exact hI
    · exact hremoves _ _ _ _ hI hrm
  · obtain ⟨s1, hs1, h⟩ := bind_ok.mp h
    cases h
    exact delete_inv (fun s a s' hI hrm => hremoves _ s a s' hI hrm) hs1 hI

theorem Removes.root {key : Addr → Bool} {s s' : Sched} {a : Addr} (h : Removes key s a s') :
    s'.taskset.root = s.taskset.root.eraseP key ∧ s.taskset.root.Perm (a :: s'.taskset.root) ∧ key a = true := by
  obtain ⟨ts, i, r, w, hrm, -, -, -, rfl⟩ := h
  rcases listRemove_cases s.taskset key with ⟨hn, -⟩ | ⟨b, ts', hb, -, hk, hr, hp⟩
  · rw [hn] at hrm
    cases hrm
  · rw [hb] at hrm
    cases hrm
    exact ⟨hr, hp, hk⟩

/-- Enough turns take every task of `ppid` out. -/
theorem deleteLoop_none_left {ppid : Pid} {fuel : ℕ} {s s' : Sched} (h : deleteLoop ppid fuel s = .ok s')
    (hl : s.taskset.root.length ≤ fuel) : ∀ a ∈ s'.taskset.root, (s'.heap a).ptid ≠ ppid := by
  induction fuel generalizing s with
  | zero =>
    obtain rfl := Except.ok.inj h
    rw [List.eq_nil_of_length_eq_zero (Nat.le_zero.mp hl)]
    simp
  | succ fuel ih =>
    unfold deleteLoop at h
    split at h
    · rename_i hrm
      obtain rfl := Except.ok.inj h
      rcases listRemove_cases s.taskset fun a => (s.heap a).ptid == ppid with ⟨-, hn⟩ | ⟨b, ts', hb, -⟩
      · simpa using hn
      · rw [rtfTasksetRemoveByPpid, hb] at hrm
        cases hrm
    · rename_i a ts hrm
      obtain ⟨s1, hs1, h⟩ := bind_ok.mp h
      have hp := (releaseTask_removes hrm hs1).root.2.1.length_eq
      rw [List.length_cons] at hp
      exact ih h (by omega)

/-- The loop runs to its end: no task of `ppid` is left. -/
theorem delete_none_left {ppid : Pid} {s s' : Sched} (h : rtfSchedulerDelete s ppid = .ok s') :
    ∀ a ∈ s'.taskset.root, (s'.heap a).ptid ≠ ppid := by
  refine deleteLoop_none_left h ?_
  rw [listGetSize, s.taskset.n_eq]

/-! ### The start -/

theorem initPlugins_spec {alloc : ℕ → Option ℕ} {load : List UInt8 → Option Image}
    {confs : List ConfPlugin} {k : ℕ} {plgs : List Plugin} (h : initPlugins alloc load k confs = some plgs) :
    plgs.length = confs.length ∧ ∀ i p, plgs[i]? = some p →
      ∃ c img, confs[i]? = some c ∧ load c.pluginPath = some img ∧ p = initPlugin alloc (k + i) c img := by
  induction confs generalizing k plgs with
  | nil =>
    obtain rfl := Option.some.inj h
    simp
  | cons c cs ih =>
    unfold initPlugins at h
    obtain ⟨img, himg, h⟩ := Option.bind_eq_some_iff.mp h
    obtain ⟨plgs', hp, h⟩ := Option.bind_eq_some_iff.mp h
    cases h
    obtain ⟨h1, h2⟩ := ih hp
    refine ⟨by simp [h1], ?_⟩
    intro i p hi
    rcases i with _ | i
    · cases hi
      exact ⟨c, img, rfl, himg, rfl⟩
    · obtain ⟨c', img', hc', hl, rfl⟩ := h2 i p hi
      exact ⟨c', img', hc', hl, by rw [Nat.add_assoc, Nat.add_comm 1 i]⟩

/-- The plugins at the start: each from its configuration, all books empty. -/
theorem start_plugin {alloc : ℕ → Option ℕ} {load : List UInt8 → Option Image} {confs : List ConfPlugin}
    {plgs : List Plugin} (h : rtfPluginsInit alloc load confs = some plgs) (k : Kernel) {i : ℕ}
    (hi : i < (Sched.start plgs k).numOfPlugins) :
    ∃ c img, confs[i]? = some c ∧ load c.pluginPath = some img ∧
      (Sched.start plgs k).plugin i = initPlugin alloc i c img := by
  obtain ⟨-, h2⟩ := initPlugins_spec h
  have hi' : plgs[i]? = some plgs[i] := List.getElem?_eq_getElem hi
  obtain ⟨c, img, hc, hl, hp⟩ := h2 i _ hi'
  refine ⟨c, img, hc, hl, ?_⟩
  show plgs.getD i _ = _
  rw [List.getD_eq_getElem?_getD, hi', Option.getD_some, hp, Nat.zero_add]

/-! ### What no operation breaks -/

/-- The taskset has no duplicates, new records go elsewhere, and the plugins
know their indices. -/
structure Sane (s : Sched) : Prop where
  nodup : s.taskset.root.Nodup
  fresh : ∀ a ∈ s.taskset.root, a < s.next
  ids : ∀ i < s.numOfPlugins, (s.plugin i).id = i

namespace Sane

variable {s : Sched}

theorem next_not_mem (hS : Sane s) : s.next ∉ s.taskset.root := fun hm => (hS.fresh _ hm).false

/-- The task at `a`, and the others. -/
theorem split (hS : Sane s) {a : Addr} (ha : a ∈ s.taskset.root) : ∃ ts, s.taskset.root.Perm (a :: ts) ∧ a ∉ ts :=
  ⟨s.taskset.root.erase a, List.perm_cons_erase ha, hS.nodup.not_mem_erase⟩

theorem alloc_heap (hS : Sane s) (tp : Params) (ppid : Pid) {b : Addr} (hb : b ∈ s.taskset.root) :
    (s.alloc tp ppid).heap b = s.heap b :=
  Function.update_of_ne (hS.fresh b hb).ne _ _

end Sane

theorem sane_create {s s' : Sched} {tp : Params} {ppid : Pid} {r : Res} (hS : Sane s)
    (h : rtfSchedulerTaskCreate s tp ppid = .ok (r, s')) : Sane s' := by
  rcases create_ok h with ⟨-, rfl⟩ | ⟨i, w, hch, hs, rfl⟩
  · exact ⟨hS.nodup, fun b hb => Nat.lt_succ_of_lt (hS.fresh b hb), hS.ids⟩
  · obtain ⟨c, hP⟩ := schedule_placed hs
    refine ⟨List.nodup_cons.mpr ⟨hS.next_not_mem, hS.nodup⟩, ?_, ?_⟩
    · intro b hb
      rcases List.mem_cons.mp hb with rfl | hb
      · exact Nat.lt_succ_self _
      · exact Nat.lt_succ_of_lt (hS.fresh b hb)
    · intro j hj
      show (w.plugin j).id = j
      rw [hP.info_eq]
      exact hS.ids j hj

theorem sane_change {s s' : Sched} {tp : Params} {id : UInt32} {r : Res} (hS : Sane s)
    (h : rtfSchedulerTaskChange s tp id = .ok (r, s')) : Sane s' := by
  rcases change_ok h with rfl | ⟨a, i, r', w, w', -, -, hr, hs, rfl⟩
  · exact hS
  · obtain ⟨c, hP⟩ := schedule_placed hs
    refine ⟨hS.nodup, hS.fresh, ?_⟩
    intro j hj
    show (w'.plugin j).id = j
    rw [hP.info_eq, (release_released hr).info_eq]
    exact hS.ids j hj

theorem sane_removes {s s' : Sched} {key : Addr → Bool} {a : Addr} (hS : Sane s) (h : Removes key s a s') :
    Sane s' := by
  obtain ⟨-, hp, -⟩ := h.root
  obtain ⟨ts, i, r, w, -, -, -, hr, rfl⟩ := h
  refine ⟨(List.nodup_cons.mp (hp.nodup_iff.mp hS.nodup)).2, ?_, ?_⟩
  · intro b hb
    exact hS.fresh b (hp.mem_iff.mpr (List.mem_cons_of_mem a hb))
  · intro j hj
    show (w.plugin j).id = j
    rw [(release_released hr).info_eq]
    exact hS.ids j hj

theorem sane_step {s s' : Sched} {o : Op} {r : Res} (hS : Sane s) (h : step s o = .ok (r, s')) : Sane s' := by
  refine step_inv ?_ ?_ ?_ ?_ hS h
  · intro tp ppid _ hcreate
    exact sane_create hS hcreate
  · intro tp id _ hchange
    exact sane_change hS hchange
  · intro heap k _
    exact ⟨hS.nodup, hS.fresh, hS.ids⟩
  · intro key s a s' hI hrm
    exact sane_removes hI hrm

theorem sane_start {alloc : ℕ → Option ℕ} {load : List UInt8 → Option Image} {confs : List ConfPlugin}
    {plgs : List Plugin} (h : rtfPluginsInit alloc load confs = some plgs) (k : Kernel) :
    Sane (Sched.start plgs k) := by
  refine ⟨List.nodup_nil, by simp [Sched.start], ?_⟩
  intro i hi
  obtain ⟨_, _, -, -, hp⟩ := start_plugin h k hi
  rw [hp]
  rfl

/-! ### The configured part -/

/-- The plugins are those of `s`, but for their books. -/
def SameConfig (s s' : Sched) : Prop :=
  s'.numOfPlugins = s.numOfPlugins ∧ ∀ j, (s'.plugin j).toPluginInfo = (s.plugin j).toPluginInfo

theorem SameConfig.refl (s : Sched) : SameConfig s s := ⟨rfl, fun _ => rfl⟩

theorem SameConfig.trans {s s' s'' : Sched} (h : SameConfig s s') (h' : SameConfig s' s'') : SameConfig s s'' :=
  ⟨h'.1.trans h.1, fun j => (h'.2 j).trans (h.2 j)⟩

theorem sameConfig_removes {s s' : Sched} {key : Addr → Bool} {a : Addr} (h : Removes key s a s') :
    SameConfig s s' := by
  obtain ⟨ts, i, r, w, -, -, -, hr, rfl⟩ := h
  exact ⟨rfl, (release_released hr).info_eq⟩

/-- No operation changes what is configured. -/
theorem sameConfig_step {s s' : Sched} {o : Op} {r : Res} (h : step s o = .ok (r, s')) : SameConfig s s' := by
  refine step_inv (I := SameConfig s) ?_ ?_ ?_ ?_ (.refl s) h
  · intro tp ppid _ hcreate
    rcases create_ok hcreate with ⟨-, rfl⟩ | ⟨i, w, -, hs, rfl⟩
    · exact SameConfig.refl s
    · obtain ⟨c, hP⟩ := schedule_placed hs
      exact ⟨rfl, hP.info_eq⟩
  · intro tp id _ hchange
    rcases change_ok hchange with rfl | ⟨a, i, r', w, w', -, -, hr, hs, rfl⟩
    · exact SameConfig.refl s'
    · obtain ⟨c, hP⟩ := schedule_placed hs
      exact ⟨rfl, fun j => (hP.info_eq j).trans ((release_released hr).info_eq j)⟩
  · intro heap k _
    exact SameConfig.refl s
  · intro key s₁ a s₂ hI hrm
    exact hI.trans (sameConfig_removes hrm)

end Retif
