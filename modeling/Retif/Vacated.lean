/-
# When every client has left

A task carries the pid its connection had when it asked for it, and goes with
the connection of that pid. So it never outlives the connections, as long as
one that names another pid leaves none behind under its old one (`PidsKept`):
every task has the pid of a connection that is there (`Claimed`). When the last
one has gone, the taskset is empty, and then the books are those of the start:
every count 0, every list empty, every utilisation free, RR's counters 0. What
a run leaves behind is its ids and records and RM's `dist_prio`.

Key definitions: `PidsKept`, `Claimed`, `Unkept`, `AsStarted`.
Key theorems: `claimed_step`, `unkept_step`, `Booked.asStarted`, `vacated_run`.
-/
import Retif.Progress
import Retif.Owner

namespace Retif

open CList

/-! ### Every task has a connection -/

/-- A connection that names another pid has no task under the old one, or another
connection has that pid. -/
def PidsKept (data : Daemon) : Prop :=
  ∀ i ∈ data.cursor, rtfDaemonCheckForUpdate data i = true →
    ReqType.ofCode (data.chann.lastReq i).reqType = some .connection →
      (data.chann.lastReq i).pid = (data.chann.client i).pid ∨
        ∀ a ∈ data.sched.taskset.root, (data.sched.heap a).ptid = (data.chann.client i).pid →
          ∃ e ∈ List.range (data.chann.sock.connSetMax + 1), InUse data.chann e ∧ e ≠ i ∧
            (data.chann.client e).pid = (data.chann.client i).pid

instance (data : Daemon) : Decidable (PidsKept data) := by
  unfold PidsKept; infer_instance

/-- There is a connection with pid `pid`. -/
def Present (c : Carrier) (pid : Pid) : Prop := ∃ d, InUse c d ∧ (c.client d).pid = pid

/-- Every task has the pid of a connection that is there. -/
structure Claimed (data : Daemon) : Prop where
  wired : Wired data
  sane : Sane data.sched
  present : ∀ a ∈ data.sched.taskset.root, Present data.chann (data.sched.heap a).ptid

section Claims

variable {data data' : Daemon} {t : Tick} {out : Out}

theorem nextState_ne_empty {st : ClientState} (h : st ≠ .empty) (n : ℤ) : nextState st n ≠ .empty := by
  unfold nextState
  split_ifs <;> simp_all

/-- A poll takes no connection away: one whose other side has closed is there, disconnected, until its turn. -/
theorem present_polled (hW : Wired data) (hc : data.cursor = none) (hs : Sound data t) {pid : Pid}
    (h : Present data.chann pid) : Present (rtfCarrierUpdate data.chann t.round) pid := by
  have U := update_fields hW.ranged (hs hc)
  obtain ⟨d, ⟨hd, huse⟩, hpid⟩ := h
  refine ⟨d, ⟨by rw [U.socket]; exact hd, ?_⟩, by rw [U.pid]; exact hpid⟩
  by_cases hst : (data.chann.client d).state = .empty
  · have hin : data.chann.sock.connSet d = true := huse.resolve_right (not_not.mpr hst)
    rw [U.connSet d hd]
    by_cases hclosed : readable t.round data.chann.sock d = true ∧ (t.round.recv d).closed
    · right
      obtain ⟨hr, bs, hbs, h0⟩ := hclosed
      have hle : d ≤ usocketGetMaxfd data.chann.sock := by
        rw [hW.maxfd_eq]
        exact hW.ranged d hin
      have hcount : (t.round.recv d).count = -1 := by
        simp [hbs, Recv.count, h0]
      rw [U.state d hd, if_pos ⟨(readable_connSet hr).2, hle⟩, U.lastN d hd, if_pos hr, hcount, nextState_neg]
      simp
    · left
      rw [if_neg hclosed]
      split
      · rfl
      · exact hin
  · right
    rw [U.state d hd]
    split
    · exact nextState_ne_empty hst _
    · exact hst

/-- A turn takes away its own connection at most. -/
theorem present_turned {c c' : Carrier} {i : ℕ} {pid : Pid} (hT : Turned c i c')
    (hself : (c.client i).pid = pid → (c'.client i).state ≠ .empty ∧ (c'.client i).pid = pid)
    (h : Present c pid) : Present c' pid := by
  obtain ⟨d, ⟨hd, huse⟩, hpid⟩ := h
  refine ⟨d, ?_⟩
  by_cases hdi : d = i
  · subst hdi
    obtain ⟨hst, hp⟩ := hself hpid
    exact ⟨⟨by rw [hT.socket]; exact hd, .inr hst⟩, hp⟩
  · obtain ⟨h1, -, h3⟩ := hT.others d hdi
    refine ⟨⟨by rw [hT.socket]; exact hd, ?_⟩, by rw [h1]; exact hpid⟩
    rw [h1, h3]
    exact huse

theorem claimed_turn {i : ℕ} {d : Daemon} (hC : Claimed data) (hc : data.cursor = some i) (hg : PidsKept data)
    (h : rtfDaemonHandleReq data i t.sent = .ok (out, d)) :
    Claimed { d with cursor := if i < rtfCarrierGetConn d.chann then some (i + 1) else none } := by
  have hW := wired_turn hC.wired hc h
  obtain ⟨hturn, -, hcase⟩ := handle_turned h
  rcases handle_ok h with ⟨-, rfl, hclean⟩ | ⟨hf, hu, rep, after, hp, rfl, rfl⟩ | ⟨-, -, rfl, rfl⟩
  · -- the tasks of the connection that is cleaned up go with it
    obtain ⟨s', hs', rfl⟩ := cleanUp_ok hclean
    obtain ⟨hptid, -, hroot⟩ := delete_root hs'
    have hS' : Sane s' := sane_step (o := .delete (data.chann.client i).pid) hC.sane (bind_ok.mpr ⟨s', hs', rfl⟩)
    refine ⟨hW, hS', ?_⟩
    intro a ha
    change a ∈ s'.taskset.root at ha
    rw [hroot] at ha
    obtain ⟨ha, hne⟩ := List.mem_filter.mp ha
    have hne : (data.sched.heap a).ptid ≠ (data.chann.client i).pid := by simpa using hne
    show Present _ (s'.heap a).ptid
    rw [hptid]
    exact present_turned hturn (fun he => absurd he.symm hne) (hC.present a ha)
  · have hst : (data.chann.client i).state = .connected := of_decide_eq_true (Bool.and_eq_true_iff.mp hu).1
    have hstays : ((settled after.chann i t.sent).client i).state ≠ .empty := by
      rcases hcase with ⟨hf', -⟩ | ⟨-, -, -, -, -, hn | hn⟩ | ⟨-, hno, -⟩
      · exact absurd hf' hf
      · change ((settled after.chann i t.sent).client i).state = _ at hn
        rw [hn]
        simp
      · change ((settled after.chann i t.sent).client i).state = _ at hn
        rw [hn]
        simp
      · rw [hu] at hno
        cases hno
    have hsame : ((settled after.chann i t.sent).client i).pid = (after.chann.client i).pid := by
      rw [(settled_turned after.chann i t.sent).2.2.2]
    rcases process_ok hp with ⟨hty, rfl⟩ | ⟨-, -, rfl⟩ | ⟨o, r, s', ho, hs', rfl⟩
    · refine ⟨hW, hC.sane, ?_⟩
      intro a ha
      by_cases hpid : (data.chann.lastReq i).pid = (data.chann.client i).pid
      · refine present_turned hturn (fun he => ⟨hstays, ?_⟩) (hC.present a ha)
        show ((settled _ i t.sent).client i).pid = _
        rw [hsame, ← he]
        simp [rtfCarrierSetPid, hpid]
      by_cases hold : (data.sched.heap a).ptid = (data.chann.client i).pid
      · -- another connection has the old pid
        have hall := (hg i (by rw [hc]; rfl) hu hty).resolve_left hpid
        obtain ⟨e, -, ⟨hes, he⟩, hei, hepid⟩ := hall a ha hold
        obtain ⟨h1, -, h3⟩ := hturn.others e hei
        refine ⟨e, ⟨by rw [hturn.socket]; exact hes, ?_⟩, ?_⟩
        · rw [h1, h3]
          exact he
        · rw [h1, hepid]
          exact hold.symm
      · exact present_turned hturn (fun he => absurd he.symm hold) (hC.present a ha)
    · refine ⟨hW, hC.sane, ?_⟩
      intro a ha
      exact present_turned hturn (fun he => ⟨hstays, hsame.trans he⟩) (hC.present a ha)
    · refine ⟨hW, sane_step hC.sane hs', ?_⟩
      intro a ha
      show Present _ (s'.heap a).ptid
      rcases step_ptid hC.sane hs' a ha with ⟨hin, hptid⟩ | ⟨-, tp, rfl, -⟩
      · rw [hptid]
        exact present_turned hturn (fun he => ⟨hstays, hsame.trans he⟩) (hC.present a hin)
      · -- a new task has the pid of the connection it was asked for over
        obtain ⟨-, -, hown⟩ := asked_create.mp ho
        have hne : (data.chann.client i).state ≠ .empty := by
          rw [hst]
          simp
        refine ⟨i, ⟨?_, .inr hstays⟩, hsame.trans hown.symm⟩
        rw [hturn.socket]
        exact (hC.wired.used i hne).2
  · exact ⟨hW, hC.sane, hC.present⟩

/-- **A step of the loop** leaves no task without a connection. -/
theorem claimed_step (hC : Claimed data) (hs : Sound data t) (hg : PidsKept data)
    (h : daemonStep data t = .ok (out, data')) : Claimed data' := by
  rcases daemonStep_ok h with ⟨hc, -, rfl⟩ | ⟨i, d, hc, hd, rfl⟩
  · refine ⟨wired_polled hC.wired hc (hs hc), hC.sane, ?_⟩
    exact fun a ha => present_polled hC.wired hc hs (hC.present a ha)
  · exact claimed_turn hC hc hg hd

end Claims

/-! ### What no plugin keeps -/

/-- The free utilisations of a plugin that keeps none are as allocated, and so are its lists. -/
structure Unkept (n : ℕ) (w : World) : Prop where
  util : ∀ i < n, ¬ (w.plugin i).kind.keepsUtil → ∀ c, (w.plugin i).utilFreePercpu c = 1
  list : ∀ i < n, ¬ (w.plugin i).kind.keepsList → ∀ c, ((w.plugin i).tasks c).root = []

namespace Unkept

variable {n : ℕ} {w w' : World} {i : ℕ} {a : Addr} {c : ℕ} {r : Res}

/-- A move of one plugin that leaves what it does not keep. -/
theorem move (hU : Unkept n w) (hi : i < n) (hinfo : ∀ j, (w'.plugin j).toPluginInfo = (w.plugin j).toPluginInfo)
    (hothers : ∀ j, j ≠ i → w'.plugin j = w.plugin j)
    (hutil : ¬ (w.plugin i).kind.keepsUtil → (w'.plugin i).utilFreePercpu = (w.plugin i).utilFreePercpu)
    (hlist : ¬ (w.plugin i).kind.keepsList → ∀ c, ((w'.plugin i).tasks c).root.Perm ((w.plugin i).tasks c).root) :
    Unkept n w' := by
  refine ⟨?_, ?_⟩
  · intro j hj hk c
    rw [hinfo] at hk
    by_cases hji : j = i
    · rw [hji] at hk ⊢
      rw [hutil hk]
      exact hU.util i hi hk c
    · rw [hothers j hji]
      exact hU.util j hj hk c
  · intro j hj hk c
    rw [hinfo] at hk
    by_cases hji : j = i
    · rw [hji] at hk ⊢
      have hperm := hlist hk c
      rw [hU.list i hi hk c] at hperm
      exact hperm.eq_nil
    · rw [hothers j hji]
      exact hU.list j hj hk c

theorem place (hU : Unkept n w) (hi : i < n) (hP : Placed w i a c w') : Unkept n w' := by
  refine hU.move hi hP.info_eq hP.others ?_ ?_
  · intro hk
    rw [hP.util, if_neg hk]
  · intro hk d
    have hperm := hP.list d
    rwa [if_neg fun h => hk h.1] at hperm

theorem release (hU : Unkept n w) (hi : i < n) (hR : Released w i a r w') : Unkept n w' := by
  refine hU.move hi hR.info_eq hR.others ?_ ?_
  · intro hk
    rw [hR.util, if_neg hk]
  · intro hk d
    rw [hR.list, if_neg fun h => hk h.1]

end Unkept

theorem unkept_step {s s' : Sched} {o : Op} {r : Res} (hU : Unkept s.numOfPlugins s.toWorld)
    (h : step s o = .ok (r, s')) : Unkept s'.numOfPlugins s'.toWorld := by
  refine step_inv (I := fun s => Unkept s.numOfPlugins s.toWorld) ?_ ?_ ?_ ?_ hU h
  · intro tp ppid _ hcreate
    have hA : Unkept s.numOfPlugins (s.alloc tp ppid).toWorld := ⟨hU.util, hU.list⟩
    rcases create_ok hcreate with ⟨-, rfl⟩ | ⟨i, w, hch, hs, rfl⟩
    · exact hA
    · obtain ⟨c, hP⟩ := schedule_placed hs
      exact hA.place (assignee_some hch).1 hP
  · intro tp id _ hchange
    rcases change_ok hchange with rfl | ⟨a, i, r', w, w', -, hc, hr, hs, rfl⟩
    · exact hU
    · obtain ⟨c, hP⟩ := schedule_placed hs
      have hi := (taker_some hc).1
      exact (hU.release hi (release_released hr)).place hi hP
  · intro heap k _
    exact ⟨hU.util, hU.list⟩
  · rintro key s a s' hI ⟨ts, i, r, w, -, -, hi, hr, rfl⟩
    exact hI.release hi (release_released hr)

/-! ### An empty taskset -/

/-- The scheduler's plugins are as they were started, RR's counters included. -/
structure AsStarted (plgs : List Plugin) (k : Kernel) (s : Sched) : Prop where
  taskset : s.taskset = listInit
  size : s.numOfPlugins = plgs.length
  plugin : ∀ i < plgs.length, s.plugin i = (Sched.start plgs k).plugin i
  counters : ∀ i < plgs.length, (s.plugin i).kind = .rr →
    s.statics (s.plugin i).dl = (Sched.start plgs k).statics (s.plugin i).dl

section Empty

variable {alloc : ℕ → Option ℕ} {load : List UInt8 → Option Image} {confs : List ConfPlugin} {plgs : List Plugin}
  {k : Kernel} {s : Sched}

theorem unkept_start (hinit : rtfPluginsInit alloc load confs = some plgs) :
    Unkept (Sched.start plgs k).numOfPlugins (Sched.start plgs k).toWorld := by
  refine ⟨?_, ?_⟩
  · intro i hi _ c
    obtain ⟨_, _, -, -, hp⟩ := start_plugin hinit k hi
    rw [hp]
    rfl
  · intro i hi _ c
    obtain ⟨_, _, -, -, hp⟩ := start_plugin hinit k hi
    rw [hp]
    rfl

/-- **Books of an empty taskset** are the books of the start. -/
theorem Booked.asStarted (hinit : rtfPluginsInit alloc load confs = some plgs) (hB : Booked s)
    (hU : Unkept s.numOfPlugins s.toWorld) (hsame : SameConfig (Sched.start plgs k) s) (hroot : s.taskset.root = []) :
    AsStarted plgs k s := by
  have hn : s.numOfPlugins = plgs.length := hsame.1
  have hempty : ∀ i c, placed s.heap s.taskset.root i c = [] := by
    intro i c
    rw [hroot]
    rfl
  have hlist : ∀ i < s.numOfPlugins, ∀ c, ((s.plugin i).tasks c).root = [] := by
    intro i hi c
    by_cases hk : (s.plugin i).kind.keepsList
    · have hperm := Lists.list hB.listed i hi hk c
      rw [hempty] at hperm
      exact hperm.eq_nil
    · exact hU.list i hi hk c
  refine ⟨CList.ext hroot, hn, ?_, ?_⟩
  · intro i hi
    have hi' : i < s.numOfPlugins := hn ▸ hi
    obtain ⟨c, img, -, -, hp⟩ := start_plugin hinit k hi
    have hinfo := hsame.2 i
    have hutil : (s.plugin i).utilFreePercpu = fun _ => 1 := by
      funext c
      by_cases hk : (s.plugin i).kind.keepsUtil
      · rw [hB.tallied.tallies.util i hi' hk c, hempty]
        simp [granted]
      · exact hU.util i hi' hk c
    have hcount : (s.plugin i).taskCountPercpu = fun _ => 0 := by
      funext c
      rw [hB.tallied.tallies.count i hi' c, hempty]
      rfl
    have htasks : (s.plugin i).tasks = fun _ => listInit := by
      funext c
      exact CList.ext (hlist i hi' c)
    rw [hp] at hinfo ⊢
    calc s.plugin i = ⟨(s.plugin i).toPluginInfo, (s.plugin i).utilFreePercpu, (s.plugin i).taskCountPercpu,
          (s.plugin i).tasks⟩ := rfl
      _ = initPlugin alloc i c img := by
        rw [hinfo, hutil, hcount, htasks]
        rfl
  · intro i hi hk
    have hi' : i < s.numOfPlugins := hn ▸ hi
    have hex := hB.counted.exact i hi' hk
    have hkeys : ∀ c, keysOf RR.priority s.heap ((s.plugin i).tasks c).root = [] := by
      intro c
      rw [hlist i hi' c]
      rfl
    have hdist : (s.statics (s.plugin i).dl).distPrio = fun _ => 0 := by
      funext c
      have hd := (hex c).dist
      rw [hkeys] at hd
      exact UInt32.toNat_inj.mp (by simpa using hd)
    have hper : (s.statics (s.plugin i).dl).nPerPrio = fun _ _ => 0 := by
      funext c p
      have hp := (hex c).perPrio p
      rw [hkeys] at hp
      simpa using hp
    show s.statics (s.plugin i).dl = ⟨fun _ => 0, fun _ _ => 0⟩
    rw [← hdist, ← hper]

/-! ### Runs -/

/-- What a run must meet: descriptors are new, a changed task stays with its plugin, ids
are new, and no connection leaves a pid it has tasks under. -/
def Tidy (data : Daemon) (t : Tick) : Prop := Sound data t ∧ OwnersKept data t ∧ PidsKept data

instance (data : Daemon) (t : Tick) : Decidable (Tidy data t) := by
  unfold Tidy; infer_instance

/-- No descriptor the loop goes through has a connection. -/
def Vacant (data : Daemon) : Prop := ∀ d ∈ List.range (data.chann.sock.connSetMax + 1), ¬ InUse data.chann d

instance (data : Daemon) : Decidable (Vacant data) := by
  unfold Vacant; infer_instance

/-- A task without a connection: there is none. -/
theorem Claimed.empty {data : Daemon} (hC : Claimed data) (hv : Vacant data) : data.sched.taskset.root = [] := by
  apply List.eq_nil_iff_forall_not_mem.mpr
  intro a ha
  obtain ⟨d, hd, -⟩ := hC.present a ha
  exact hv d (List.mem_range.mpr (Nat.lt_succ_of_le (inUse_le hC.wired hd))) hd

/-- **When every client has left**, in whatever order they came, asked and went, the
scheduler's plugins are as they were started. -/
theorem vacated_run {socket : ℕ} {data : Daemon} (hinit : rtfPluginsInit alloc load confs = some plgs)
    (hown : OwnFiles load confs) (hrun : Reach daemonStep Tidy (Daemon.start socket (Sched.start plgs k)) data)
    (hv : Vacant data) : AsStarted plgs k data.sched := by
  have hC : Claimed data := by
    refine hrun.inv ⟨wired_start socket _, sane_start hinit k, by simp [Daemon.start]⟩ ?_
    exact fun _ _ _ _ hI hg h => claimed_step hI hg.1 hg.2.2 h
  have hkept : ∀ {I : Sched → Prop}, I (Sched.start plgs k) →
      (∀ s o r s', I s → KeepsOwner s o → step s o = .ok (r, s') → I s') → I data.sched := by
    intro I h0 hstep
    refine hrun.inv (I := fun data => I data.sched) h0 ?_
    exact fun _ _ _ _ hI hg h => daemonStep_kept hstep hg.2.1 h hI
  have hB : Booked data.sched := hkept (booked_start hinit hown) fun _ _ _ _ hI hg h => booked_step hI hg h
  have hU : Unkept data.sched.numOfPlugins data.sched.toWorld :=
    @hkept (fun s => Unkept s.numOfPlugins s.toWorld) (unkept_start hinit) fun _ _ _ _ hI _ h => unkept_step hI h
  have hsame : SameConfig (Sched.start plgs k) data.sched :=
    @hkept (SameConfig (Sched.start plgs k)) (.refl _) fun _ _ _ _ hI _ h => hI.trans (sameConfig_step h)
  exact hB.asStarted hinit hU hsame (hC.empty hv)

end Empty

/-! ### Two clients that come and go -/

namespace VacatedExample

open OwnerExample

/-- The other side of descriptor `d` closes, and the loop goes round. -/
def leaves (d : ℕ) : List Tick := List.replicate 7 (Tick.reading (· = d) none [])

/-- Both clients create a task, the one that has named its pid twice too, and leave. -/
def ticks : List Tick :=
  arrive 7 8 ++ gives 4 (named 7).1 ++ gives 4 create.1 ++ gives 5 create.1 ++ leaves 5 ++ leaves 4

end VacatedExample

open VacatedExample in
theorem vacated_twoClients : ∃ data, runGood daemonStep Tidy ticks (Daemon.start 3 BooksExample.start) = some data ∧
    Vacant data ∧ data.sched.lastTaskId = 2 ∧ AsStarted BooksExample.plgs BooksExample.kernel data.sched := by
  have hend : (runGood daemonStep Tidy ticks (Daemon.start 3 BooksExample.start)).any
      (fun data => decide (Vacant data ∧ data.sched.lastTaskId = 2)) = true := by decide +kernel
  obtain ⟨data, hdata, hv⟩ := (Option.any_eq_true _ _).mp hend
  obtain ⟨hvac, hid⟩ := of_decide_eq_true hv
  exact ⟨data, hdata, hvac, hid, vacated_run BooksExample.init_plgs (by decide) (reach_runGood hdata) hvac⟩

end Retif
