/-
# Threads that stay raised

A thread gets a real-time policy when it is attached to a task, and loses it
when the task is detached, or released by a plugin of that policy. Three ways
an attachment ends do not lower the thread: the task is attached to another
thread, the task is released by a plugin it was given by a change after the
thread was attached, and the daemon stops, which frees the tasks and calls no
plugin. Where these meet no raised thread that nobody else holds
(`EndsLowered`), every real-time thread is attached to a task.

Key definitions: `Raised`, `HeldThreads`, `EndsLowered`, `rtfDaemonDestroy`.
Key theorems: `releaseThread_policy`, `held_threads_step`, `lowered_run`, `not_lowered_run`.
-/
import Retif.Attached

namespace Retif

open CList

/-! ### Stopping -/

/-- The loop of `rtf_daemon_destroy`; a turn takes one task out. -/
def removeTopLoop : ℕ → Taskset → Taskset
  | 0, ts => ts
  | fuel + 1, ts =>
    match listRemoveTop ts with
    | (none, _) => ts
    | (some _, ts) => removeTopLoop fuel ts

/-- `rtf_daemon_destroy`: the tasks are freed, one by one, and then the tables
of the plugins. No plugin is called. -/
def rtfDaemonDestroy (s : Sched) : Sched :=
  { s with taskset := removeTopLoop (listGetSize s.taskset) s.taskset }

/-! ### What a release does to a thread -/

/-- Thread `tid` has a real-time policy. -/
def Raised (k : Kernel) (tid : Pid) : Prop := (k.entry tid).policy ≠ .other

instance (k : Kernel) (tid : Pid) : Decidable (Raised k tid) := by
  unfold Raised; infer_instance

/-- A release lowers the thread of the task if it has the policy of the plugin,
and changes no other policy. -/
theorem releaseThread_policy {k : Kernel} (hk : k.AllSucceed) (policy : Policy) (t : Task) (tid : Pid) :
    ((releaseThread policy k t).2.entry tid).policy =
      if tid = t.tid ∧ (k.entry tid).policy = policy then .other else (k.entry tid).policy := by
  unfold releaseThread Kernel.schedGetscheduler
  by_cases hp : (k.entry t.tid).policy = policy
  · rw [if_neg (not_not.mpr hp), (detachThread_ok hk t).2.2]
    by_cases ht : tid = t.tid
    · subst ht
      simp [hp]
    · simp [ht]
  · rw [if_pos hp]
    by_cases ht : tid = t.tid
    · subst ht
      simp [hp]
    · simp [ht]

theorem Released.policy {w w' : World} {i : ℕ} {a : Addr} {r : Res} (hR : Released w i a r w')
    (hk : w.kernel.AllSucceed) (tid : Pid) : (w'.kernel.entry tid).policy =
      if tid = (w.heap a).tid ∧ (w.kernel.entry tid).policy = (w.plugin i).kind.policy then .other
      else (w.kernel.entry tid).policy := by
  have hker := congrArg Prod.snd hR.answer
  rw [show w'.kernel = _ from hker]
  exact releaseThread_policy hk _ _ tid

/-- A thread that is raised after a release was so before, and was not lowered. -/
theorem Released.raised {w w' : World} {i : ℕ} {a : Addr} {r : Res} (hR : Released w i a r w')
    (hk : w.kernel.AllSucceed) {tid : Pid} (h : Raised w'.kernel tid) :
    Raised w.kernel tid ∧ (w'.kernel.entry tid).policy = (w.kernel.entry tid).policy ∧
      ¬ (tid = (w.heap a).tid ∧ (w.kernel.entry tid).policy = (w.plugin i).kind.policy) := by
  have hpol := hR.policy hk tid
  unfold Raised at h ⊢
  rw [hpol] at h ⊢
  by_cases hc : tid = (w.heap a).tid ∧ (w.kernel.entry tid).policy = (w.plugin i).kind.policy
  · rw [if_pos hc] at h
    exact absurd rfl h
  · rw [if_neg hc] at h ⊢
    exact ⟨h, rfl, hc⟩

/-! ### The invariant -/

/-- `b` is a task of the taskset that is attached to thread `tid`. -/
def Holds (s : Sched) (att : Addr → Bool) (tid : Pid) (b : Addr) : Prop :=
  b ∈ s.taskset.root ∧ att b ∧ (s.heap b).tid = tid

/-- Every real-time thread is attached to a task of the taskset. -/
def OnlyAttached (s : Sched) (att : Addr → Bool) : Prop :=
  ∀ tid, Raised s.kernel tid → ∃ b, Holds s att tid b

/-- The invariant, with what keeps it. -/
structure HeldThreads (s : Sched) (att : Addr → Bool) : Prop where
  sane : Sane s
  allSucceed : s.kernel.AllSucceed
  known : ∀ a, att a → a < s.next
  only : OnlyAttached s att

/-- The plugin task `a` names will lower its thread: the thread has the plugin's policy. -/
def LoweredBy (s : Sched) (a : Addr) : Prop :=
  (s.kernel.entry (s.heap a).tid).policy = (s.plugin (s.heap a).pluginid.toNat).kind.policy

/-- The thread of `a` is not real-time, is lowered by the release of a task of
`V`, or stays attached to a task that is not in `V`. -/
def LeavesLowered (s : Sched) (att : Addr → Bool) (V : List Addr) (a : Addr) : Prop :=
  Raised s.kernel (s.heap a).tid → (∃ b ∈ V, (s.heap b).tid = (s.heap a).tid ∧ LoweredBy s b) ∨
    ∃ b ∈ s.taskset.root, b ∉ V ∧ att b ∧ (s.heap b).tid = (s.heap a).tid

instance (s : Sched) (a : Addr) : Decidable (LoweredBy s a) := by
  unfold LoweredBy; infer_instance

instance (s : Sched) (att : Addr → Bool) (V : List Addr) (a : Addr) : Decidable (LeavesLowered s att V a) := by
  unfold LeavesLowered; infer_instance

/-- An attachment that ends in this operation leaves no thread raised that no
task holds. -/
def EndsLowered (w : Watched) : Op → Prop
  | .attach id pid => ∀ a ∈ rtfTasksetSearch w.heap w.taskset id, Raised w.kernel (w.heap a).tid →
      (w.heap a).tid = pid ∨ ∃ b ∈ w.taskset.root, b ≠ a ∧ w.attached b ∧ (w.heap b).tid = (w.heap a).tid
  | .destroy id => ∀ a ∈ rtfTasksetSearch w.heap w.taskset id, LeavesLowered w.toSched w.attached [a] a
  | .delete ppid =>
      ∀ a ∈ w.taskset.root.filter fun a => (w.heap a).ptid == ppid,
        LeavesLowered w.toSched w.attached (w.taskset.root.filter fun a => (w.heap a).ptid == ppid) a
  | _ => True

instance (w : Watched) (o : Op) : Decidable (EndsLowered w o) :=
  match o with
  | .attach id pid =>
    inferInstanceAs (Decidable (∀ a ∈ rtfTasksetSearch w.heap w.taskset id, Raised w.kernel (w.heap a).tid →
      (w.heap a).tid = pid ∨ ∃ b ∈ w.taskset.root, b ≠ a ∧ w.attached b ∧ (w.heap b).tid = (w.heap a).tid))
  | .destroy id =>
    inferInstanceAs (Decidable (∀ a ∈ rtfTasksetSearch w.heap w.taskset id,
      LeavesLowered w.toSched w.attached [a] a))
  | .delete ppid =>
    inferInstanceAs (Decidable (∀ a ∈ w.taskset.root.filter fun a => (w.heap a).ptid == ppid,
      LeavesLowered w.toSched w.attached (w.taskset.root.filter fun a => (w.heap a).ptid == ppid) a))
  | .create _ _ | .change _ _ | .detach _ => inferInstanceAs (Decidable True)

section Steps

variable {s s' : Sched} {att : Addr → Bool} {a : Addr} {r : Res}

/-- A new task has no thread, and scheduling it talks to no kernel. -/
theorem heldThreads_create {tp : Params} {ppid : Pid} (hT : HeldThreads s att)
    (h : rtfSchedulerTaskCreate s tp ppid = .ok (r, s')) : HeldThreads s' att := by
  have hsane := sane_create hT.sane h
  have hold : ∀ b ∈ s.taskset.root, (s.alloc tp ppid).heap b = s.heap b := fun b hb =>
    hT.sane.alloc_heap tp ppid hb
  rcases create_ok h with ⟨-, rfl⟩ | ⟨i, w, -, hs, rfl⟩
  · refine ⟨hsane, hT.allSucceed, fun a ha => Nat.lt_succ_of_lt (hT.known a ha), ?_⟩
    intro tid hr
    obtain ⟨b, hb, hatt, htid⟩ := hT.only tid hr
    refine ⟨b, hb, hatt, ?_⟩
    rw [hold b hb]
    exact htid
  · obtain ⟨c, hP⟩ := schedule_placed hs
    have hker : w.kernel = s.kernel := hP.kernel
    refine ⟨hsane, ?_, fun a ha => Nat.lt_succ_of_lt (hT.known a ha), ?_⟩
    · show w.kernel.AllSucceed
      rw [hker]
      exact hT.allSucceed
    · intro tid hr
      change Raised w.kernel tid at hr
      rw [hker] at hr
      obtain ⟨b, hb, hatt, htid⟩ := hT.only tid hr
      refine ⟨b, List.mem_cons_of_mem _ hb, hatt, ?_⟩
      show (w.heap b).tid = tid
      rw [(hP.task_eq b).2.2.1, hold b hb]
      exact htid

/-- A change lowers at most the thread of the task. -/
theorem heldThreads_change {tp : Params} {id : UInt32} (hT : HeldThreads s att)
    (h : rtfSchedulerTaskChange s tp id = .ok (r, s')) : HeldThreads s' att := by
  have hsane := sane_change hT.sane h
  rcases change_ok h with rfl | ⟨a, i, r', w, w', -, -, hr, hs, rfl⟩
  · exact hT
  · have hR := release_released hr
    obtain ⟨c, hP⟩ := schedule_placed hs
    refine ⟨hsane, ?_, hT.known, ?_⟩
    · show w'.kernel.AllSucceed
      rw [hP.kernel]
      exact hR.allSucceed hT.allSucceed
    · intro tid hraised
      change Raised w'.kernel tid at hraised
      rw [hP.kernel] at hraised
      obtain ⟨b, hb, hatt, htid⟩ := hT.only tid (hR.raised hT.allSucceed hraised).1
      refine ⟨b, hb, hatt, ?_⟩
      show (w'.heap b).tid = tid
      rw [(hP.task_eq b).2.2.1, hR.task_eq b]
      exact htid

/-- Attaching raises the new thread, which `a` holds from now on. -/
theorem heldThreads_attach {pid : Pid} {i : ℕ} (hT : HeldThreads s att) (ha : a ∈ s.taskset.root)
    (hown : (s.heap a).pluginid = i) (hi : i < s.numOfPlugins)
    (hg : Raised s.kernel (s.heap a).tid → (s.heap a).tid = pid ∨
      ∃ b ∈ s.taskset.root, b ≠ a ∧ att b ∧ (s.heap b).tid = (s.heap a).tid) :
    HeldThreads { s with
        heap := Function.update s.heap a { s.heap a with tid := pid }
        kernel := (rtfPlgTaskAttach (s.plugin i) s.kernel { s.heap a with tid := pid }).2 }
      (Function.update att a true) := by
  obtain ⟨-, hall, -⟩ := attach_follows pid hT.allSucceed hown hi
  refine ⟨⟨hT.sane.nodup, hT.sane.fresh, hT.sane.ids⟩, hall, ?_, ?_⟩
  · intro b hb
    by_cases hba : b = a
    · rw [hba]
      exact hT.sane.fresh a ha
    · rw [Function.update_of_ne hba] at hb
      exact hT.known b hb
  · intro tid hraised
    by_cases htid : tid = pid
    · exact ⟨a, ha, by simp, by simp [htid]⟩
    · unfold Raised at hraised
      simp only [attach_entry_ne _ s.kernel { s.heap a with tid := pid } htid] at hraised
      -- whoever held the thread still does, if it was not `a`
      have hother : ∃ b ∈ s.taskset.root, b ≠ a ∧ att b ∧ (s.heap b).tid = tid := by
        obtain ⟨b, hb, hatt, hbt⟩ := hT.only tid hraised
        by_cases hba : b = a
        · subst hba
          subst hbt
          exact (hg hraised).resolve_left htid
        · exact ⟨b, hb, hba, hatt, hbt⟩
      obtain ⟨b, hb, hba, hatt, hbt⟩ := hother
      refine ⟨b, hb, ?_, ?_⟩
      · rw [Function.update_of_ne hba]
        exact hatt
      · show (Function.update s.heap a { s.heap a with tid := pid } b).tid = tid
        rw [Function.update_of_ne hba]
        exact hbt

/-- Detaching lowers the thread; the tasks on other threads keep theirs. -/
theorem heldThreads_detach (hT : HeldThreads s att) :
    HeldThreads { s with kernel := (detachThread s.kernel (s.heap a)).2 } (Function.update att a false) := by
  obtain ⟨-, hall, hentry⟩ := detachThread_ok hT.allSucceed (s.heap a)
  refine ⟨⟨hT.sane.nodup, hT.sane.fresh, hT.sane.ids⟩, hall, ?_, ?_⟩
  · intro b hb
    by_cases hba : b = a
    · simp [hba] at hb
    · rw [Function.update_of_ne hba] at hb
      exact hT.known b hb
  · intro tid hraised
    unfold Raised at hraised
    by_cases htid : tid = (s.heap a).tid
    · simp [hentry, htid] at hraised
    · simp only [hentry, Function.update_of_ne htid] at hraised
      obtain ⟨b, hb, hatt, hbt⟩ := hT.only tid hraised
      have hba : b ≠ a := by
        rintro rfl
        exact htid hbt.symm
      refine ⟨b, hb, ?_, hbt⟩
      rw [Function.update_of_ne hba]
      exact hatt

/-! ### Releasing several tasks -/

/-- While the tasks that `goes` are taken out: a real-time thread is held by a
task that stays, or is about to be lowered by the release of one that goes. -/
structure Leaving (goes : Addr → Bool) (s : Sched) (att : Addr → Bool) : Prop where
  sane : Sane s
  allSucceed : s.kernel.AllSucceed
  known : ∀ a, att a → a < s.next
  either : ∀ tid, Raised s.kernel tid →
    (∃ b, Holds s att tid b ∧ goes b = false) ∨
      ∃ b ∈ s.taskset.root, goes b = true ∧ (s.heap b).tid = tid ∧ LoweredBy s b

theorem Leaving.removes {goes key : Addr → Bool} (hL : Leaving goes s att) (hgoes : goes a = true)
    (hrm : Removes key s a s') : Leaving goes s' att := by
  have hsane := sane_removes hL.sane hrm
  obtain ⟨-, hp, -⟩ := hrm.root
  have hat := (List.nodup_cons.mp (hp.nodup_iff.mp hL.sane.nodup)).1
  obtain ⟨ts, i, r, w, -, hown, hi, hr, rfl⟩ := hrm
  have hR := release_released hr
  have hstay : ∀ b ∈ s.taskset.root, b ≠ a → b ∈ ts.root ∧ w.heap b = s.heap b := by
    intro b hb hba
    rcases List.mem_cons.mp (hp.mem_iff.mp hb) with hba' | hmem
    · exact absurd hba' hba
    · exact ⟨hmem, hR.heap_ne hba⟩
  refine ⟨hsane, hR.allSucceed hL.allSucceed, hL.known, ?_⟩
  intro tid hraised
  obtain ⟨hbefore, hpol, hnot⟩ := hR.raised hL.allSucceed hraised
  rcases hL.either tid hbefore with ⟨b, ⟨hb, hatt, hbt⟩, hkb⟩ | ⟨b, hb, hkb, hbt, hlow⟩
  · have hba : b ≠ a := by
      rintro rfl
      rw [hgoes] at hkb
      cases hkb
    obtain ⟨hmem, hrec⟩ := hstay b hb hba
    refine .inl ⟨b, ⟨hmem, hatt, ?_⟩, hkb⟩
    show (w.heap b).tid = tid
    rw [hrec]
    exact hbt
  · have hba : b ≠ a := by
      -- the release of `a` itself would have lowered the thread
      rintro rfl
      apply hnot
      refine ⟨hbt.symm, ?_⟩
      unfold LoweredBy at hlow
      rw [hbt, hown] at hlow
      exact hlow
    obtain ⟨hmem, hrec⟩ := hstay b hb hba
    refine .inr ⟨b, hmem, hkb, ?_, ?_⟩
    · show (w.heap b).tid = tid
      rw [hrec]
      exact hbt
    · unfold LoweredBy at hlow ⊢
      show (w.kernel.entry (w.heap b).tid).policy = (w.plugin (w.heap b).pluginid.toNat).kind.policy
      rw [hrec, hbt, hpol, hR.info_eq, ← hlow, hbt]

/-- Before the first is taken out. -/
theorem HeldThreads.leaving {goes : Addr → Bool} (hT : HeldThreads s att)
    (hg : ∀ a ∈ s.taskset.root.filter goes, LeavesLowered s att (s.taskset.root.filter goes) a) :
    Leaving goes s att := by
  refine ⟨hT.sane, hT.allSucceed, hT.known, ?_⟩
  intro tid hraised
  obtain ⟨b, hb, hatt, rfl⟩ := hT.only tid hraised
  by_cases hk : goes b = true
  · rcases hg b (List.mem_filter.mpr ⟨hb, hk⟩) hraised with ⟨d, hd, hdt, hlow⟩ | ⟨d, hd, hdn, hdatt, hdt⟩
    · obtain ⟨hdm, hdk⟩ := List.mem_filter.mp hd
      exact .inr ⟨d, hdm, hdk, hdt, hlow⟩
    · refine .inl ⟨d, ⟨hd, hdatt, hdt⟩, ?_⟩
      simpa [hd] using hdn
  · exact .inl ⟨b, ⟨hb, hatt, rfl⟩, by simpa using hk⟩

/-- After the last is taken out. -/
theorem Leaving.held {goes : Addr → Bool} (hL : Leaving goes s att) (hnone : ∀ b ∈ s.taskset.root, goes b = false) :
    HeldThreads s att := by
  refine ⟨hL.sane, hL.allSucceed, hL.known, ?_⟩
  intro tid hraised
  rcases hL.either tid hraised with ⟨b, hb, -⟩ | ⟨b, hb, hk, -⟩
  · exact ⟨b, hb⟩
  · rw [hnone b hb] at hk
    cases hk

/-- Releasing one task. -/
theorem heldThreads_removes {key : Addr → Bool} (hT : HeldThreads s att) (h : Removes key s a s')
    (hg : LeavesLowered s att [a] a) : HeldThreads s' att := by
  obtain ⟨-, hp, -⟩ := h.root
  have hmem : a ∈ s.taskset.root := hp.mem_iff.mpr (List.mem_cons_self ..)
  have hat := (List.nodup_cons.mp (hp.nodup_iff.mp hT.sane.nodup)).1
  have hfilter : s.taskset.root.filter (fun b => b == a) = [a] := by
    rw [List.filter_beq, List.count_eq_one_of_mem hT.sane.nodup hmem]
    rfl
  have hL : Leaving (fun b => b == a) s att := by
    apply hT.leaving
    rw [hfilter]
    intro b hb
    obtain rfl := List.mem_singleton.mp hb
    exact hg
  apply (hL.removes (by simp) h).held
  intro b hb
  have hba : b ≠ a := by
    rintro rfl
    exact hat hb
  simpa using hba

theorem heldThreads_destroy {id : UInt32} (hT : HeldThreads s att)
    (hg : ∀ a ∈ rtfTasksetSearch s.heap s.taskset id, LeavesLowered s att [a] a)
    (h : rtfSchedulerTaskDestroy s id = .ok (r, s')) : HeldThreads s' att := by
  rcases destroy_ok h with rfl | ⟨a, hrm⟩
  · exact hT
  · apply heldThreads_removes hT hrm
    apply hg
    obtain ⟨ts, i, r', w, hlist, -⟩ := hrm
    have hfound := (listRemove_eq s.taskset fun a => (s.heap a).id == id).1
    rw [hlist] at hfound
    rw [rtfTasksetSearch, listSearchElem_eq, ← hfound]
    rfl

theorem heldThreads_delete {ppid : Pid} (hT : HeldThreads s att)
    (hg : ∀ a ∈ s.taskset.root.filter fun a => (s.heap a).ptid == ppid,
      LeavesLowered s att (s.taskset.root.filter fun a => (s.heap a).ptid == ppid) a)
    (h : rtfSchedulerDelete s ppid = .ok s') : HeldThreads s' att := by
  have hL : Leaving (fun a => (s.heap a).ptid == ppid) s' att ∧ ∀ b, (s'.heap b).ptid = (s.heap b).ptid := by
    refine delete_inv (I := fun s₁ => Leaving (fun a => (s.heap a).ptid == ppid) s₁ att ∧
      ∀ b, (s₁.heap b).ptid = (s.heap b).ptid) ?_ h ⟨hT.leaving hg, fun _ => rfl⟩
    rintro s₁ a s₂ ⟨hL, hptid⟩ hrm
    have hgoes : ((s.heap a).ptid == ppid) = true := by
      rw [← hptid a]
      exact hrm.root.2.2
    refine ⟨hL.removes hgoes hrm, ?_⟩
    intro b
    obtain ⟨ts, i, r', w, -, -, -, hr, rfl⟩ := hrm
    rw [← hptid b]
    show (w.heap b).ptid = _
    rw [(release_released hr).task_eq b]
  apply hL.1.held
  intro b hb
  have hleft := delete_none_left h b hb
  rw [hL.2 b] at hleft
  simpa using hleft

end Steps

/-! ### Runs -/

/-- **One operation** that lowers what it lets go keeps real-time threads attached. -/
theorem heldThreads_step {w w' : Watched} {o : Op} {r : Res} (hT : HeldThreads w.toSched w.attached)
    (hg : EndsLowered w o) (h : watchedStep w o = .ok (r, w')) : HeldThreads w'.toSched w'.attached := by
  obtain ⟨⟨r', s'⟩, hs, h⟩ := bind_ok.mp h
  simp only [Except.ok.injEq, Prod.mk.injEq] at h
  obtain ⟨rfl, rfl⟩ := h
  rcases o with ⟨tp, ppid⟩ | ⟨tp, id⟩ | ⟨id, pid⟩ | ⟨id⟩ | ⟨id⟩ | ⟨ppid⟩
  · exact heldThreads_create hT hs
  · have hchange : rtfSchedulerTaskChange w.toSched tp id = .ok (r', s') := hs
    exact heldThreads_change hT hchange
  · rcases attach_ok hs with ⟨hn, rfl⟩ | ⟨a, i, ha, hown, hi, hr, rfl⟩
    · simpa only [Watched.after, hn] using hT
    · have hok := (attach_follows pid hT.allSucceed hown hi).1
      rw [hok] at hr
      subst hr
      simp only [Watched.after, ha]
      exact heldThreads_attach hT (rtfTasksetSearch_some ha).1 hown hi (hg a ha)
  · rcases detach_ok hs with ⟨hn, rfl⟩ | ⟨a, i, ha, -, -, rfl⟩
    · simpa only [Watched.after, hn] using hT
    · simp only [Watched.after, ha, detach_eq]
      exact heldThreads_detach hT
  · exact heldThreads_destroy hT hg hs
  · obtain ⟨s1, hs1, hs⟩ := bind_ok.mp hs
    simp only [Except.ok.injEq, Prod.mk.injEq] at hs
    obtain ⟨-, rfl⟩ := hs
    exact heldThreads_delete hT hg hs1

theorem heldThreads_start {alloc : ℕ → Option ℕ} {load : List UInt8 → Option Image} {confs : List ConfPlugin}
    {plgs : List Plugin} (h : rtfPluginsInit alloc load confs = some plgs) {k : Kernel} (hk : k.AllSucceed)
    (hother : ∀ tid, ¬ Raised k tid) : HeldThreads (Sched.start plgs k) (fun _ => false) :=
  ⟨sane_start h k, hk, by simp, fun tid hr => absurd hr (hother tid)⟩

/-- **Real-time threads are attached threads** in every run whose operations
lower what they let go; and stopping the daemon leaves no thread real-time
exactly when no attached task has a real-time thread then. -/
theorem lowered_run {alloc : ℕ → Option ℕ} {load : List UInt8 → Option Image} {confs : List ConfPlugin}
    {plgs : List Plugin} {k : Kernel} {w : Watched} (hinit : rtfPluginsInit alloc load confs = some plgs)
    (hk : k.AllSucceed) (hother : ∀ tid, ¬ Raised k tid)
    (hrun : Reach watchedStep EndsLowered (Watched.start (Sched.start plgs k)) w) :
    OnlyAttached w.toSched w.attached ∧ ((∀ tid, ¬ Raised (rtfDaemonDestroy w.toSched).kernel tid) ↔
      ∀ a ∈ w.taskset.root, w.attached a → ¬ Raised w.kernel (w.heap a).tid) := by
  have hT : HeldThreads w.toSched w.attached :=
    hrun.inv (I := fun w => HeldThreads w.toSched w.attached) (heldThreads_start hinit hk hother)
      fun _ _ _ _ hI hg hs => heldThreads_step hI hg hs
  refine ⟨hT.only, ?_⟩
  constructor
  · intro hall a _ _
    exact hall (w.heap a).tid
  · intro hall tid hraised
    obtain ⟨b, hb, hatt, rfl⟩ := hT.only tid hraised
    exact hall b hb hatt hraised

/-! ### A task that moves to another thread -/

open BooksExample AttachedExample

theorem kernel_unraised (tid : Pid) : ¬ Raised kernel tid := by simp [Raised, kernel]

/-- A task is detached before it moves to another thread; a second task leaves with its client. -/
theorem lowered_attaches : ∃ w, runGood watchedStep EndsLowered
    [.create (every 200) 1, .create (every 100) 2, .attach 1 7, .attach 2 8, .detach 1, .attach 1 9, .delete 2, .destroy 1]
    AttachedExample.start = some w ∧ OnlyAttached w.toSched w.attached ∧
      ((∀ tid, ¬ Raised (rtfDaemonDestroy w.toSched).kernel tid) ↔
        ∀ a ∈ w.taskset.root, w.attached a → ¬ Raised w.kernel (w.heap a).tid) := by
  have hsome : (runGood watchedStep EndsLowered
      [.create (every 200) 1, .create (every 100) 2, .attach 1 7, .attach 2 8, .detach 1, .attach 1 9, .delete 2, .destroy 1]
      AttachedExample.start).isSome := by decide +kernel
  obtain ⟨w, hw⟩ := Option.isSome_iff_exists.mp hsome
  exact ⟨w, hw, lowered_run AttachedExample.init_plgs kernel_allSucceed kernel_unraised (reach_runGood hw)⟩

/-- The task goes from thread 7 to thread 8, and thread 7 stays real-time;
stopping the daemon leaves both so. -/
theorem not_lowered_run : ¬ ∀ (load : List UInt8 → Option Image) (confs : List ConfPlugin) (plgs : List Plugin)
    (k : Kernel) (w : Watched), OwnFiles load confs → rtfPluginsInit asMaps load confs = some plgs →
      k.AllSucceed → (∀ tid, ¬ Raised k tid) →
        Reach watchedStep (fun _ _ => True) (Watched.start (Sched.start plgs k)) w →
          OnlyAttached w.toSched w.attached ∧ ∀ tid, ¬ Raised (rtfDaemonDestroy w.toSched).kernel tid := by
  intro h
  have hend : (runGood watchedStep (fun _ _ => True)
      [.create (every 100) 1, .attach 1 7, .attach 1 8] AttachedExample.start).any (fun w =>
        Raised w.kernel 7 ∧ w.taskset.root = [0] ∧ (w.heap 0).tid = 8) = true := by decide +kernel
  obtain ⟨w, hw, hv⟩ := (Option.any_eq_true _ _).mp hend
  obtain ⟨hraised, hroot, htid⟩ := of_decide_eq_true hv
  obtain ⟨honly, -⟩ := h load AttachedExample.confs AttachedExample.plgs kernel w (by decide) AttachedExample.init_plgs
    kernel_allSucceed kernel_unraised (reach_runGood hw)
  obtain ⟨b, hb, -, hbt⟩ := honly 7 hraised
  rw [hroot] at hb
  obtain rfl := List.mem_singleton.mp hb
  rw [htid] at hbt
  exact absurd hbt (by decide)

end Retif
