/-
# Whose tasks a disconnection takes away

A connection owns the tasks that were created over it, but the daemon keeps
only a pid: the client names it in `RTF_CONNECTION`, a task gets the pid its
connection has when it is created, and the clean-up of a connection deletes
the tasks with the pid it has then. The two agree as long as a pid stands for
one connection (`OwnPid`): two connections of one process, a connection that
has not named its pid (0 stands for it) and one that names another pid later
all lose or take tasks.

Which tasks were created over each connection is proof-only state here; it
starts anew when the descriptor is given to another client.

Key definitions: `Owned`, `ownedStep`, `OwnPid`, `Exact`, `Owning`.
Key theorems: `delete_root`, `owning_step`, `owner_run`, `not_owner_run`.
-/
import Retif.Loop
import Retif.Books

namespace Retif

/-- The daemon, with the records of the tasks each connection has asked for. -/
structure Owned extends Daemon where
  created : ℕ → List Addr

def Owned.start (data : Daemon) : Owned := { data with created := fun _ => [] }

/-- The state after a step that did `out`. A create makes its record at `next`. -/
def Owned.after (w : Owned) (t : Tick) (out : Out) (data : Daemon) : Owned :=
  match out with
  | .polled => { data with created := fun d => if Accepts t.round w.chann.sock d then [] else w.created d }
  | .handled i req _ =>
    { data with
      created := if ReqType.ofCode req.reqType = some .taskCreate
        then Function.update w.created i (w.sched.next :: w.created i) else w.created }
  | _ => { data with created := w.created }

def ownedStep (w : Owned) (t : Tick) : Except Fault (Out × Owned) := do
  let (out, data) ← daemonStep w.toDaemon t
  .ok (out, w.after t out data)

/-- The clean-up of `d` took the tasks created over its connection, and no others. -/
structure Exact (w : Owned) (d : ℕ) (w' : Owned) : Prop where
  root : w'.sched.taskset.root = w.sched.taskset.root.filter fun a => a ∉ w.created d
  others : ∀ e, e ≠ d → ∀ a ∈ w.created e, a ∈ w.sched.taskset.root → a ∈ w'.sched.taskset.root

/-! ### A pid stands for one connection -/

/-- There is, or was until now, a connection on descriptor `d`. -/
def InUse (c : Carrier) (d : ℕ) : Prop := d ≠ c.sock.socket ∧ (c.sock.connSet d ∨ (c.client d).state ≠ .empty)

instance (c : Carrier) (d : ℕ) : Decidable (InUse c d) := by
  unfold InUse; infer_instance

/-- Where a connection is accepted, which has pid 0, no task has. -/
def OpensUnowned (data : Daemon) (t : Tick) : Prop :=
  readable t.round data.chann.sock data.chann.sock.socket → t.round.accepted.isSome →
    ∀ a ∈ data.sched.taskset.root, (data.sched.heap a).ptid ≠ 0

/-- A connection names the pid it has; or no task has its old pid or its new one. -/
def NamesUnowned (data : Daemon) (i : ℕ) : Prop :=
  (data.chann.lastReq i).pid = (data.chann.client i).pid ∨
    ∀ a ∈ data.sched.taskset.root, (data.sched.heap a).ptid ≠ (data.chann.lastReq i).pid ∧
      (data.sched.heap a).ptid ≠ (data.chann.client i).pid

/-- A create is refused, or no other connection has the pid of the one that asks. -/
def CreatesAlone (data : Daemon) (i : ℕ) : Prop :=
  assignee (data.sched.alloc (data.chann.lastReq i).param (data.chann.client i).pid) data.sched.next = none ∨
    ∀ e ∈ List.range (data.chann.sock.connSetMax + 1), InUse data.chann e → e ≠ i →
      (data.chann.client e).pid ≠ (data.chann.client i).pid

/-- What a step must meet for pids to tell connections apart. -/
def OwnPid (data : Daemon) (t : Tick) : Prop :=
  match data.cursor with
  | none => OpensUnowned data t
  | some i => rtfDaemonCheckForUpdate data i = true →
      (ReqType.ofCode (data.chann.lastReq i).reqType = some .connection → NamesUnowned data i) ∧
        (ReqType.ofCode (data.chann.lastReq i).reqType = some .taskCreate → CreatesAlone data i)

instance (data : Daemon) (t : Tick) : Decidable (OpensUnowned data t) := by
  unfold OpensUnowned; infer_instance

instance (data : Daemon) (i : ℕ) : Decidable (NamesUnowned data i) := by
  unfold NamesUnowned; infer_instance

instance (data : Daemon) (i : ℕ) : Decidable (CreatesAlone data i) := by
  unfold CreatesAlone; infer_instance

instance (data : Daemon) (t : Tick) : Decidable (OwnPid data t) := by
  unfold OwnPid
  cases data.cursor <;> infer_instance

/-! ### What an operation does to the pids -/

/-- Taking out one that is dropped anyway. -/
theorem filter_eraseP (p : Addr → Bool) (l : List Addr) :
    (l.eraseP p).filter (fun a => !p a) = l.filter fun a => !p a := by
  induction l with
  | nil => rfl
  | cons a l ih =>
    by_cases h : p a
    · simp [h]
    · simp [h, ih]

theorem removes_ptid {key : Addr → Bool} {s s' : Sched} {a : Addr} (h : Removes key s a s') :
    (∀ b, (s'.heap b).ptid = (s.heap b).ptid) ∧ s'.next = s.next := by
  obtain ⟨ts, i, r, w, -, -, -, hr, rfl⟩ := h
  refine ⟨?_, rfl⟩
  intro b
  show (w.heap b).ptid = _
  rw [(release_released hr).task_eq b]

/-- **Deletion by pid** takes the tasks of the pid out, keeps the others in
their order, and changes no pid. -/
theorem delete_root {ppid : Pid} {s s' : Sched} (h : rtfSchedulerDelete s ppid = .ok s') :
    (∀ b, (s'.heap b).ptid = (s.heap b).ptid) ∧ s'.next = s.next ∧
      s'.taskset.root = s.taskset.root.filter fun a => !((s.heap a).ptid == ppid) := by
  have hkept : (∀ b, (s'.heap b).ptid = (s.heap b).ptid) ∧ s'.next = s.next ∧
      s'.taskset.root.filter (fun a => !((s.heap a).ptid == ppid)) =
        s.taskset.root.filter fun a => !((s.heap a).ptid == ppid) := by
    refine delete_inv (I := fun s₁ => (∀ b, (s₁.heap b).ptid = (s.heap b).ptid) ∧ s₁.next = s.next ∧
      s₁.taskset.root.filter (fun a => !((s.heap a).ptid == ppid)) =
        s.taskset.root.filter fun a => !((s.heap a).ptid == ppid)) ?_ h ⟨fun _ => rfl, rfl, rfl⟩
    rintro s₁ a s₂ ⟨hp, hn, hroot⟩ hrm
    obtain ⟨hp', hn'⟩ := removes_ptid hrm
    refine ⟨fun b => (hp' b).trans (hp b), hn'.trans hn, ?_⟩
    have hkey : (fun a => (s₁.heap a).ptid == ppid) = fun a => (s.heap a).ptid == ppid := by
      funext b
      rw [hp b]
    rw [hrm.root.1, hkey, filter_eraseP]
    exact hroot
  obtain ⟨hp, hn, hroot⟩ := hkept
  refine ⟨hp, hn, ?_⟩
  rw [← hroot]
  symm
  apply List.filter_eq_self.mpr
  intro a ha
  have hleft := delete_none_left h a ha
  rw [hp a] at hleft
  simp [hleft]

/-- The tasks after an operation were there before, under the pid they have,
or are the one it created. -/
theorem step_ptid {s s' : Sched} {o : Op} {r : Res} (hS : Sane s) (h : step s o = .ok (r, s')) :
    ∀ b ∈ s'.taskset.root, (b ∈ s.taskset.root ∧ (s'.heap b).ptid = (s.heap b).ptid) ∨
      (b = s.next ∧ ∃ tp, o = .create tp (s'.heap b).ptid ∧
        assignee (s.alloc tp (s'.heap b).ptid) s.next ≠ none) := by
  refine step_inv (I := fun s₂ => ∀ b ∈ s₂.taskset.root,
    (b ∈ s.taskset.root ∧ (s₂.heap b).ptid = (s.heap b).ptid) ∨
      (b = s.next ∧ ∃ tp, o = .create tp (s₂.heap b).ptid ∧
        assignee (s.alloc tp (s₂.heap b).ptid) s.next ≠ none)) ?_ ?_ ?_ ?_ (fun b hb => .inl ⟨hb, rfl⟩) h
  · intro tp ppid ho hcreate
    subst ho
    rcases create_ok hcreate with ⟨-, rfl⟩ | ⟨i, w, hch, hs, rfl⟩
    · intro b hb
      refine .inl ⟨hb, ?_⟩
      rw [hS.alloc_heap tp ppid hb]
    · obtain ⟨c, hP⟩ := schedule_placed hs
      intro b hb
      show (_ ∧ (w.heap b).ptid = _) ∨ (_ ∧ ∃ tp', _ = Op.create tp' (w.heap b).ptid ∧
        assignee (s.alloc tp' (w.heap b).ptid) s.next ≠ none)
      rw [(hP.task_eq b).2.1]
      rcases List.mem_cons.mp hb with rfl | hb
      · have hnew : ((s.alloc tp ppid).heap s.next).ptid = ppid := by rw [s.alloc_self]; rfl
        refine .inr ⟨rfl, tp, ?_, ?_⟩
        · rw [hnew]
        · rw [hnew, hch]
          simp
      · refine .inl ⟨hb, ?_⟩
        rw [hS.alloc_heap tp ppid hb]
  · intro tp id _ hchange
    rcases change_ok hchange with rfl | ⟨a, i, r', w, w', -, -, hr, hs, rfl⟩
    · exact fun b hb => .inl ⟨hb, rfl⟩
    · obtain ⟨c, hP⟩ := schedule_placed hs
      intro b hb
      refine .inl ⟨hb, ?_⟩
      show (w'.heap b).ptid = _
      rw [(hP.task_eq b).2.1, (release_released hr).task_eq b]
  · intro heap k hheap b hb
    refine .inl ⟨hb, ?_⟩
    show (heap b).ptid = _
    rw [hheap b]
  · intro key s₁ a s₂ hI hrm b hb
    rw [(removes_ptid hrm).1 b]
    exact hI b (hrm.root.2.1.mem_iff.mpr (List.mem_cons_of_mem a hb))

theorem create_next {s s' : Sched} {tp : Params} {ppid : Pid} {r : Res}
    (h : rtfSchedulerTaskCreate s tp ppid = .ok (r, s')) : s'.next = s.next + 1 := by
  rcases create_ok h with ⟨-, rfl⟩ | ⟨i, w, -, -, rfl⟩
  · rfl
  · rfl

/-- Only a create takes a new record, and every create does. -/
theorem step_next {s s' : Sched} {o : Op} {r : Res} (h : step s o = .ok (r, s')) :
    s.next ≤ s'.next ∧ ∀ tp ppid, o = .create tp ppid → s.next < s'.next := by
  refine ⟨?_, ?_⟩
  · refine step_inv (I := fun s₁ => s.next ≤ s₁.next) ?_ ?_ ?_ ?_ le_rfl h
    · intro tp ppid _ hcreate
      rw [create_next hcreate]
      exact Nat.le_succ _
    · intro tp id _ hchange
      rcases change_ok hchange with rfl | ⟨a, i, r', w, w', -, -, -, -, rfl⟩
      · exact le_rfl
      · exact le_rfl
    · intro heap k _
      exact le_rfl
    · intro key s₁ a s₂ hI hrm
      rw [(removes_ptid hrm).2]
      exact hI
  · rintro tp ppid rfl
    rw [create_next h]
    exact Nat.lt_succ_self _

theorem asked_create {req : Request} {pid ppid : Pid} {tp : Params} :
    asked req pid = some (.create tp ppid) ↔
      ReqType.ofCode req.reqType = some .taskCreate ∧ tp = req.param ∧ ppid = pid := by
  unfold asked
  generalize ReqType.ofCode req.reqType = ty
  rcases ty with _ | ty
  · simp
  · cases ty <;> simp [eq_comm]

/-! ### The invariant -/

/-- A task belongs to the connection whose pid it has. -/
structure Owning (w : Owned) : Prop where
  wired : Wired w.toDaemon
  sane : Sane w.sched
  recorded : ∀ d, InUse w.chann d → ∀ a ∈ w.sched.taskset.root,
    a ∈ w.created d ↔ (w.sched.heap a).ptid = (w.chann.client d).pid
  old : ∀ d, ∀ a ∈ w.created d, a < w.sched.next
  disjoint : ∀ d e, d ≠ e → ∀ a ∈ w.created d, a ∉ w.created e

section Steps

variable {w : Owned} {t : Tick}

/-- A connection that is there after a poll was there before or is new. -/
theorem polled_inUse {data : Daemon} (hW : Wired data) (hc : data.cursor = none) (hs : Sound data t) {d : ℕ}
    (hd : InUse (rtfCarrierUpdate data.chann t.round) d) :
    (Accepts t.round data.chann.sock d ∧ (data.chann.client d).pid = 0) ∨
      (¬ Accepts t.round data.chann.sock d ∧ InUse data.chann d) := by
  have U := update_fields hW.ranged (hs hc)
  obtain ⟨hd, huse⟩ := hd
  rw [U.socket] at hd
  by_cases hacc : Accepts t.round data.chann.sock d
  · have hout := (hs hc d hacc.2).1
    exact .inl ⟨hacc, hW.vacant d hd hout (hW.empty hc hd hout)⟩
  · refine .inr ⟨hacc, hd, ?_⟩
    by_contra hnot
    obtain ⟨hout, hst⟩ := not_or.mp hnot
    have hst := not_not.mp hst
    have hnr : readable t.round data.chann.sock d = false := by
      by_contra hr
      exact hout (readable_connSet (Bool.eq_true_of_not_eq_false hr)).1
    have hacc' : ¬ (readable t.round data.chann.sock data.chann.sock.socket ∧ t.round.accepted = some d) := hacc
    rcases huse with hin | hne
    · rw [U.connSet d hd, hnr, if_neg (by simp), if_neg hacc'] at hin
      exact hout hin
    · apply hne
      rw [U.state d hd, hst]
      split
      · rename_i hle
        rw [U.lastN d hd, hnr, if_neg (by simp), if_pos hle.2, nextState_zero_empty]
      · rfl

theorem owning_polled (hO : Owning w) (hc : w.cursor = none) (hs : Sound w.toDaemon t)
    (hg : OwnPid w.toDaemon t) :
    Owning (w.after t .polled { w.toDaemon with chann := rtfCarrierUpdate w.chann t.round, cursor := some 0 }) := by
  have U := update_fields hO.wired.ranged (hs hc)
  have hfree : OpensUnowned w.toDaemon t := by
    unfold OwnPid at hg
    rwa [hc] at hg
  refine ⟨wired_polled hO.wired hc (hs hc), hO.sane, ?_, ?_, ?_⟩
  · intro d hd a ha
    change InUse (rtfCarrierUpdate w.chann t.round) d at hd
    show (a ∈ if Accepts t.round w.chann.sock d then [] else w.created d) ↔
      (w.sched.heap a).ptid = ((rtfCarrierUpdate w.chann t.round).client d).pid
    rw [U.pid]
    rcases polled_inUse hO.wired hc hs hd with ⟨hacc, hpid⟩ | ⟨hacc, hd⟩
    · rw [if_pos hacc, hpid]
      have hne := hfree hacc.1 (by rw [hacc.2]; rfl) a ha
      simp [hne]
    · rw [if_neg hacc]
      exact hO.recorded d hd a ha
  · intro d a ha
    simp only [Owned.after] at ha
    split at ha
    · cases ha
    · exact hO.old d a ha
  · intro d e hde a ha ha'
    simp only [Owned.after] at ha ha'
    split at ha
    · cases ha
    · split at ha'
      · cases ha'
      · exact hO.disjoint d e hde a ha ha'

/-- What a turn leaves of the connections on the other descriptors. -/
theorem turned_inUse {c c' : Carrier} {i d : ℕ} (hT : Turned c i c') (hdi : d ≠ i) (hd : InUse c' d) :
    InUse c d ∧ (c'.client d).pid = (c.client d).pid := by
  obtain ⟨h1, -, h3⟩ := hT.others d hdi
  obtain ⟨hne, huse⟩ := hd
  rw [hT.socket] at hne
  rw [h1, h3] at huse
  exact ⟨⟨hne, huse⟩, by rw [h1]⟩

/-- A turn that leaves the scheduler alone, and at most names a pid. -/
theorem owning_named {next : Owned} {i : ℕ} (hO : Owning w) (hW : Wired next.toDaemon)
    (hT : Turned w.chann i next.chann) (hi : InUse next.chann i → InUse w.chann i) (hsched : next.sched = w.sched)
    (hcr : next.created = w.created)
    (hp : (next.chann.client i).pid = (w.chann.client i).pid ∨ ∀ a ∈ w.sched.taskset.root,
      (w.sched.heap a).ptid ≠ (next.chann.client i).pid ∧ (w.sched.heap a).ptid ≠ (w.chann.client i).pid) :
    Owning next := by
  refine ⟨hW, ?_, ?_, ?_, ?_⟩
  · rw [hsched]
    exact hO.sane
  · intro d hd a ha
    rw [hsched] at ha
    rw [hsched, hcr]
    by_cases hdi : d = i
    · subst hdi
      have hrec := hO.recorded d (hi hd) a ha
      rcases hp with hp | hp
      · rw [hp]
        exact hrec
      · -- it has no task, under its old pid or its new one
        have hno := hp a ha
        simp only [hno.1, iff_false]
        exact fun hmem => hno.2 (hrec.mp hmem)
    · obtain ⟨hd', hpid⟩ := turned_inUse hT hdi hd
      rw [hpid]
      exact hO.recorded d hd' a ha
  · rw [hsched, hcr]
    exact hO.old
  · rw [hcr]
    exact hO.disjoint

/-- A turn that asks the scheduler for an operation. -/
theorem owning_asked {next : Owned} {i : ℕ} {req : Request} {o : Op} {r : Res} (hO : Owning w)
    (hW : Wired next.toDaemon) (hT : Turned w.chann i next.chann) (hi : InUse w.chann i)
    (hpid : (next.chann.client i).pid = (w.chann.client i).pid) (ho : asked req (w.chann.client i).pid = some o)
    (hs : step w.sched o = .ok (r, next.sched))
    (hcr : next.created = if ReqType.ofCode req.reqType = some .taskCreate
      then Function.update w.created i (w.sched.next :: w.created i) else w.created)
    (hg : ReqType.ofCode req.reqType = some .taskCreate →
      assignee (w.sched.alloc req.param (w.chann.client i).pid) w.sched.next ≠ none →
        ∀ e, InUse w.chann e → e ≠ i → (w.chann.client e).pid ≠ (w.chann.client i).pid) : Owning next := by
  have hmem : ∀ d a, a ∈ next.created d ↔
      (ReqType.ofCode req.reqType = some .taskCreate ∧ d = i ∧ a = w.sched.next) ∨ a ∈ w.created d := by
    intro d a
    rw [hcr]
    split
    · by_cases hdi : d = i
      · subst hdi
        simp_all
      · simp_all
    · simp_all
  have hfresh : ∀ d, w.sched.next ∉ w.created d := fun d hm => (hO.old d _ hm).false
  obtain ⟨hle, hlt⟩ := step_next hs
  refine ⟨hW, sane_step hO.sane hs, ?_, ?_, ?_⟩
  · intro d hd a ha
    have hback : InUse w.chann d ∧ (next.chann.client d).pid = (w.chann.client d).pid := by
      by_cases hdi : d = i
      · subst hdi
        exact ⟨hi, hpid⟩
      · exact turned_inUse hT hdi hd
    rw [hmem, hback.2]
    rcases step_ptid hO.sane hs a ha with ⟨hold, hsame⟩ | ⟨rfl, tp, rfl, hacc⟩
    · have hne : a ≠ w.sched.next := (hO.sane.fresh a hold).ne
      rw [hsame, ← hO.recorded d hback.1 a hold]
      simp [hne]
    · -- the task that was created has the pid of its connection, and no other connection has
      obtain ⟨hty, rfl, hown⟩ := asked_create.mp ho
      rw [hown] at hacc ⊢
      by_cases hdi : d = i
      · subst hdi
        simp [hty]
      · have hne := hg hty hacc d hback.1 hdi
        simp [hdi, hfresh, hne.symm]
  · intro d a ha
    rcases (hmem d a).mp ha with ⟨hty, -, rfl⟩ | ha
    · have hsome : asked req (w.chann.client i).pid = some (.create req.param (w.chann.client i).pid) :=
        asked_create.mpr ⟨hty, rfl, rfl⟩
      exact hlt _ _ (Option.some.inj (ho.symm.trans hsome))
    · exact (hO.old d a ha).trans_le hle
  · intro d e hde a ha ha'
    rcases (hmem d a).mp ha with ⟨-, rfl, rfl⟩ | ha
    · rcases (hmem e _).mp ha' with ⟨-, rfl, -⟩ | ha'
      · exact hde rfl
      · exact hfresh e ha'
    · rcases (hmem e a).mp ha' with ⟨-, -, rfl⟩ | ha'
      · exact hfresh d ha
      · exact hO.disjoint d e hde a ha ha'

/-- A connection has a descriptor in the range the loop goes through. -/
theorem inUse_le {data : Daemon} (hW : Wired data) {d : ℕ} (hd : InUse data.chann d) :
    d ≤ data.chann.sock.connSetMax := by
  rcases hd.2 with h | h
  · exact hW.ranged d h
  · exact (hW.used d h).1

theorem owning_turn {i : ℕ} {d' : Daemon} {out : Out} (hO : Owning w) (hc : w.cursor = some i)
    (hg : OwnPid w.toDaemon t) (h : rtfDaemonHandleReq w.toDaemon i t.sent = .ok (out, d')) :
    Owning (w.after t out
      { d' with cursor := if i < rtfCarrierGetConn d'.chann then some (i + 1) else none }) := by
  have hW' := wired_turn hO.wired hc h
  obtain ⟨hturn, -, -⟩ := handle_turned h
  have hown : rtfDaemonCheckForUpdate w.toDaemon i = true →
      (ReqType.ofCode (w.chann.lastReq i).reqType = some .connection → NamesUnowned w.toDaemon i) ∧
        (ReqType.ofCode (w.chann.lastReq i).reqType = some .taskCreate → CreatesAlone w.toDaemon i) := by
    unfold OwnPid at hg
    rwa [hc] at hg
  rcases handle_ok h with ⟨-, rfl, hclean⟩ | ⟨-, hu, rep, after, hp, rfl, rfl⟩ | ⟨-, -, rfl, rfl⟩
  · -- the connection is cleaned up: its tasks are gone, those of the others are as they were
    obtain ⟨s', hs', rfl⟩ := cleanUp_ok hclean
    obtain ⟨hptid, hnext, hroot⟩ := delete_root hs'
    have hsub : ∀ a ∈ s'.taskset.root, a ∈ w.sched.taskset.root := by
      intro a ha
      rw [hroot] at ha
      exact List.mem_of_mem_filter ha
    have hS' : Sane s' := by
      have hstep : step w.sched (.delete (w.chann.client i).pid) = .ok (.ok, s') := by
        show (rtfSchedulerDelete w.sched (w.chann.client i).pid >>= _) = _
        rw [hs']
        rfl
      exact sane_step hO.sane hstep
    refine ⟨hW', hS', ?_, ?_, hO.disjoint⟩
    · intro d hd a ha
      by_cases hdi : d = i
      · subst hdi
        obtain ⟨-, huse⟩ := hd
        simp [Owned.after, rtfCarrierClose, rtfCarrierSetPid, rtfCarrierSetState, usocketRemoveConnection] at huse
      · obtain ⟨hd', hpid⟩ := turned_inUse hturn hdi hd
        show a ∈ w.created d ↔ (s'.heap a).ptid = _
        rw [hptid, hO.recorded d hd' a (hsub a ha), ← hpid]
        rfl
    · intro d a ha
      show a < s'.next
      rw [hnext]
      exact hO.old d a ha
  · have hst : (w.chann.client i).state = .connected := of_decide_eq_true (Bool.and_eq_true_iff.mp hu).1
    have hi : InUse w.chann i := by
      have hne : (w.chann.client i).state ≠ .empty := by rw [hst]; decide
      exact ⟨(hO.wired.used i hne).2, .inr hne⟩
    have hsettled : ∀ c : Carrier, ((settled c i t.sent).client i).pid = (c.client i).pid := by
      intro c
      rw [(settled_turned c i t.sent).2.2.2]
    rcases process_ok hp with ⟨hty, rfl⟩ | ⟨hty, hno, rfl⟩ | ⟨o, r, s', ho, hs', rfl⟩
    · -- it names its pid
      have hname := (hown hu).1 hty
      have hpid : ((settled (rtfCarrierSetPid w.chann i (w.chann.lastReq i).pid) i t.sent).client i).pid =
          (w.chann.lastReq i).pid := by
        rw [hsettled]
        simp [rtfCarrierSetPid]
      refine owning_named hO hW' hturn (fun _ => hi) rfl ?_ ?_
      · show (if _ then _ else _) = _
        rw [hty, if_neg (by decide)]
      · show ((settled _ i t.sent).client i).pid = _ ∨ ∀ a ∈ _, _ ≠ ((settled _ i t.sent).client i).pid ∧ _
        rw [hpid]
        exact hname
    · refine owning_named hO hW' hturn (fun _ => hi) rfl ?_ (.inl (hsettled _))
      have hne : ReqType.ofCode (w.chann.lastReq i).reqType ≠ some .taskCreate := by
        intro hcreate
        have hsome : asked (w.chann.lastReq i) (w.chann.client i).pid =
          some (.create (w.chann.lastReq i).param (w.chann.client i).pid) := asked_create.mpr ⟨hcreate, rfl, rfl⟩
        rw [hno] at hsome
        cases hsome
      exact if_neg hne
    · refine owning_asked hO hW' hturn hi (hsettled _) ho hs' rfl ?_
      intro hty hacc e he hei
      have halone := ((hown hu).2 hty).resolve_left hacc
      have hle := inUse_le hO.wired he
      exact halone e (List.mem_range.mpr (by omega)) he hei
  · exact owning_named hO hW' hturn id rfl rfl (.inl rfl)

/-- **A step of the loop** keeps every task with its connection. -/
theorem owning_step {w' : Owned} {out : Out} (hO : Owning w) (hs : Sound w.toDaemon t)
    (hg : OwnPid w.toDaemon t) (h : ownedStep w t = .ok (out, w')) : Owning w' := by
  obtain ⟨⟨out', data⟩, hd, h⟩ := bind_ok.mp h
  cases h
  rcases daemonStep_ok hd with ⟨hc, rfl, rfl⟩ | ⟨i, d', hc, hd', rfl⟩
  · exact owning_polled hO hc hs hg
  · exact owning_turn hO hc hg hd'

/-- The clean-up deletes the pid's tasks, which are the connection's. -/
theorem Owning.exact {w' : Owned} {d : ℕ} (hO : Owning w) (h : ownedStep w t = .ok (.cleaned d, w')) :
    Exact w d w' := by
  obtain ⟨⟨out, data⟩, hd, h⟩ := bind_ok.mp h
  cases h
  rcases daemonStep_ok hd with ⟨-, hout, -⟩ | ⟨i, d', hc, hd', rfl⟩
  · cases hout
  · rcases handle_ok hd' with ⟨hf, hout, hclean⟩ | ⟨-, -, rep, after, -, hout, -⟩ | ⟨-, -, hout, -⟩
    · cases hout
      obtain ⟨s', hs', rfl⟩ := cleanUp_ok hclean
      obtain ⟨-, -, hroot⟩ := delete_root hs'
      have huse : InUse w.chann d := by
        have hne : (w.chann.client d).state ≠ .empty := by
          rcases hf with hf | hf
          · intro he
            exact absurd (hf.symm.trans he) (by decide)
          · intro he
            exact absurd (hf.symm.trans he) (by decide)
        exact ⟨(hO.wired.used d hne).2, .inr hne⟩
      have hroot' : s'.taskset.root = w.sched.taskset.root.filter fun a => a ∉ w.created d := by
        rw [hroot]
        apply List.filter_congr
        intro a ha
        have hrec := hO.recorded d huse a ha
        by_cases hmem : a ∈ w.created d
        · simp [hmem, hrec.mp hmem]
        · have hne : (w.sched.heap a).ptid ≠ (w.chann.client d).pid := fun hpid => hmem (hrec.mpr hpid)
          simp [hmem, hne]
      refine ⟨hroot', ?_⟩
      intro e hed a ha hin
      show a ∈ s'.taskset.root
      rw [hroot']
      exact List.mem_filter.mpr ⟨hin, decide_eq_true (hO.disjoint e d hed a ha)⟩
    · cases hout
    · cases hout

end Steps

theorem owning_start {alloc : ℕ → Option ℕ} {load : List UInt8 → Option Image} {confs : List ConfPlugin}
    {plgs : List Plugin} (h : rtfPluginsInit alloc load confs = some plgs) (socket : ℕ) (k : Kernel) :
    Owning (Owned.start (Daemon.start socket (Sched.start plgs k))) := by
  refine ⟨wired_start socket _, sane_start h k, ?_, ?_, ?_⟩
  · intro d _ a ha
    cases ha
  · intro d a ha
    cases ha
  · intro d e _ a ha
    cases ha

/-- **A disconnection takes away the tasks of its connection and no others**
in every run in which a pid stands for one connection. -/
theorem owner_run {alloc : ℕ → Option ℕ} {load : List UInt8 → Option Image} {confs : List ConfPlugin}
    {plgs : List Plugin} {k : Kernel} {socket : ℕ} {w w' : Owned} {t : Tick} {d : ℕ}
    (hinit : rtfPluginsInit alloc load confs = some plgs)
    (hrun : Reach ownedStep (fun w t => Sound w.toDaemon t ∧ OwnPid w.toDaemon t)
      (Owned.start (Daemon.start socket (Sched.start plgs k))) w)
    (h : ownedStep w t = .ok (.cleaned d, w')) : Exact w d w' := by
  have hO : Owning w := by
    refine hrun.inv (owning_start hinit socket k) ?_
    intro w t out w' hI hg h
    exact owning_step hI hg.1 hg.2 h
  exact hO.exact h

/-! ### Two connections of one process -/

namespace OwnerExample

/-- A round in which the `recv` on descriptor `d` gives `bs`, with two connections. -/
def gives (d : ℕ) (bs : List UInt8) : List Tick := List.replicate 7 (Tick.reading (· = d) none bs)

def named (pid : Pid) : Request := Request.setPid (Request.setType (Memory.Buf.zero REQUEST_SIZE) .connection) pid

def create : Request :=
  Request.setParam (Request.setType (Memory.Buf.zero REQUEST_SIZE) .taskCreate) (BooksExample.params 10)

/-- Clients connect on descriptors 4 and 5, and each names a pid. -/
def arrive (pid pid' : Pid) : List Tick :=
  List.replicate 6 (Tick.reading (· = 3) (some 4) []) ++ List.replicate 7 (Tick.reading (· = 3) (some 5) []) ++
    gives 4 (named pid).1 ++ gives 5 (named pid').1

/-- The client on 4 leaves; the loop has come to descriptor 4. -/
def leave : List Tick := List.replicate 5 (Tick.reading (· = 4) none [])

def start : Owned := Owned.start (Daemon.start 3 BooksExample.start)

/-- The step that cleans up after the client on 4. -/
def cleaning : Tick := Tick.reading (fun _ => false) none []

end OwnerExample

open OwnerExample

/-- Of two tasks the one of the client that leaves is taken away. -/
theorem owner_twoClients : ∃ w w', runGood ownedStep (fun w t => Sound w.toDaemon t ∧ OwnPid w.toDaemon t)
    (arrive 7 8 ++ gives 4 create.1 ++ gives 5 create.1 ++ leave) start = some w ∧
      ownedStep w cleaning = .ok (.cleaned 4, w') ∧ w.created 4 = [0] ∧ w.created 5 = [1] ∧ Exact w 4 w' := by
  have hend : (runGood ownedStep (fun w t => Sound w.toDaemon t ∧ OwnPid w.toDaemon t)
      (arrive 7 8 ++ gives 4 create.1 ++ gives 5 create.1 ++ leave) start).any (fun w =>
        decide (w.created 4 = [0] ∧ w.created 5 = [1]) &&
          match ownedStep w cleaning with
          | .ok (.cleaned d, _) => decide (d = 4)
          | _ => false) = true := by decide +kernel
  obtain ⟨w, hw, hv⟩ := (Option.any_eq_true _ _).mp hend
  obtain ⟨hcreated, hstep⟩ := Bool.and_eq_true_iff.mp hv
  split at hstep
  · rename_i d w' hclean
    have hd := of_decide_eq_true hstep
    subst hd
    obtain ⟨h4, h5⟩ := of_decide_eq_true hcreated
    exact ⟨w, w', hw, hclean, h4, h5, owner_run BooksExample.init_plgs (reach_runGood hw) hclean⟩
  · cases hstep

/-- Both have named pid 7: the first one's leaving takes the task of the second away. -/
theorem not_owner_run : ¬ ∀ (alloc : ℕ → Option ℕ) (load : List UInt8 → Option Image) (confs : List ConfPlugin)
    (plgs : List Plugin) (k : Kernel) (socket : ℕ) (w w' : Owned) (t : Tick) (d : ℕ),
      rtfPluginsInit alloc load confs = some plgs →
        Reach ownedStep (fun w t => Sound w.toDaemon t) (Owned.start (Daemon.start socket (Sched.start plgs k))) w →
          ownedStep w t = .ok (.cleaned d, w') → Exact w d w' := by
  intro h
  have hend : (runGood ownedStep (fun w t => Sound w.toDaemon t)
      (arrive 7 7 ++ gives 5 create.1 ++ leave) start).any (fun w =>
        decide (w.created 5 = [0] ∧ w.sched.taskset.root = [0]) &&
          match ownedStep w cleaning with
          | .ok (.cleaned d, w') => decide (d = 4 ∧ w'.sched.taskset.root = [])
          | _ => false) = true := by decide +kernel
  obtain ⟨w, hw, hv⟩ := (Option.any_eq_true _ _).mp hend
  obtain ⟨hbefore, hstep⟩ := Bool.and_eq_true_iff.mp hv
  split at hstep
  · rename_i d w' hclean
    obtain ⟨rfl, hafter⟩ := of_decide_eq_true hstep
    obtain ⟨hcreated, hroot⟩ := of_decide_eq_true hbefore
    have hE := h _ _ _ _ _ _ _ _ _ _ BooksExample.init_plgs (reach_runGood hw) hclean
    have hlives := hE.others 5 (by decide) 0 (by simp [hcreated]) (by simp [hroot])
    simp [hafter] at hlives
  · cases hstep

end Retif
