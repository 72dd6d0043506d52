/-
# Which requests stop the daemon

In the model a step stops where the source reads or writes out of range, or
through `NULL`. In a daemon whose plugins have a core, and an entry for each of
their cores, as long as a task that is changed stays with its plugin and no id is
given out twice, this is what it takes: a query about a negative connection or
slot `CHANNEL_MAX_SIZE`, about a negative plugin or a negative position in one
that there is, or a create with a declared priority from `MAX_PRIO` on that RR
takes. Every other request is answered, every client that leaves is cleaned up,
whatever the kernel answers.

What a plugin looks up is there in three ways: the task to release sits on a
core of the plugin (`Held`), the core has its entries (`Roomy`), and RR's
counters count its lists, so that the node it reads behind a new task exists
(`Counted`).

Key definitions: `Counted`, `Booked`, `Equipped`, `Answerable`, `Ready`.
Key theorems: `schedule_returns`, `booked_step`, `step_returns_iff`,
`process_returns_iff`, `progress_iff`.
-/
import Retif.PrioTable
import Retif.Queries
import Retif.Grants
import Retif.RoundRobin

namespace Retif

open CList

/-! ### The plugins return -/

section Plugins

variable {this : Plugin} {t : Task}

theorem utilizationTest_returns (hne : this.cpulist ≠ []) (htab : ∀ c ∈ this.cpulist, this.InTable c) (u : ℚ) :
    ∃ r, utilizationTest this u = .ok r := by
  refine bind_returns (evalUtilMissing_returns hne htab u) fun m _ => ?_
  split
  · exact ⟨_, rfl⟩
  · exact ⟨_, rfl⟩

theorem EDF.accept_returns (hne : this.cpulist ≠ []) (htab : ∀ c ∈ this.cpulist, this.InTable c) (t : Task) :
    ∃ r, EDF.rtfPlgTaskAccept this t = .ok r := by
  unfold EDF.rtfPlgTaskAccept
  split_ifs
  · exact ⟨_, rfl⟩
  · exact ⟨_, rfl⟩
  · exact ⟨_, rfl⟩
  · refine bind_returns ?_ fun _ _ => ⟨_, rfl⟩
    unfold EDF.admission
    split
    · exact utilizationTest_returns hne htab _
    · exact desiredUtilizationTest_returns hne htab _ _

theorem RM.accept_returns (hne : this.cpulist ≠ []) (htab : ∀ c ∈ this.cpulist, this.InTable c) (t : Task) :
    ∃ r, RM.rtfPlgTaskAccept this t = .ok r := by
  unfold RM.rtfPlgTaskAccept
  split_ifs
  · exact ⟨_, rfl⟩
  · exact ⟨_, rfl⟩
  · exact bind_returns (utilizationTest_returns hne htab _) fun _ _ => ⟨_, rfl⟩

/-- **Asking a plugin** about a new task. -/
theorem accept_returns (hne : this.cpulist ≠ []) (htab : ∀ c ∈ this.cpulist, this.InTable c) (t : Task) :
    ∃ r, rtfPlgTaskAccept this t = .ok r := by
  unfold rtfPlgTaskAccept
  split
  · exact EDF.accept_returns hne htab t
  · exact RM.accept_returns hne htab t
  · exact ⟨_, rfl⟩
  · exact ⟨_, rfl⟩

/-- **Asking a plugin** about a change; it looks up the core of a task it finds its id in. -/
theorem change_returns (hne : this.cpulist ≠ []) (htab : ∀ c ∈ this.cpulist, this.InTable c)
    (hown : t.pluginid = this.id → this.InTable t.cpu) : ∃ q, rtfPlgTaskChange this t = .ok q := by
  unfold rtfPlgTaskChange
  split
  · unfold EDF.rtfPlgTaskChange
    split
    · rename_i ho
      refine bind_returns (addUtil_returns (hown ho) _) fun p hp => ?_
      obtain ⟨-, rfl⟩ := addUtil_ok hp
      refine bind_returns (EDF.accept_returns (by exact hne) (by exact htab) t) fun r _ => ?_
      exact bind_returns (addUtil_returns (by exact hown ho) _) fun _ _ => ⟨_, rfl⟩
    · exact bind_returns (EDF.accept_returns hne htab t) fun _ _ => ⟨_, rfl⟩
  · unfold RM.rtfPlgTaskChange
    split
    · rename_i ho
      refine bind_returns (addUtil_returns (hown ho.1) _) fun p hp => ?_
      obtain ⟨-, rfl⟩ := addUtil_ok hp
      refine bind_returns (RM.accept_returns (by exact hne) (by exact htab) t) fun r _ => ?_
      exact bind_returns (addUtil_returns (by exact hown ho.1) _) fun _ _ => ⟨_, rfl⟩
    · exact bind_returns (RM.accept_returns hne htab t) fun _ _ => ⟨_, rfl⟩
  · exact ⟨_, rfl⟩
  · exact ⟨_, rfl⟩

variable {w : World} {i : ℕ} {a : Addr}

/-- The walk of RM needs no counter: it looks at the list. -/
theorem RM.schedule_returns (hne : (w.plugin i).cpulist ≠ [])
    (hroom : ∀ c ∈ (w.plugin i).cpulist, (w.plugin i).InTable c ∧ c < MAX_CPU) :
    ∃ w', RM.rtfPlgTaskSchedule w i a = .ok w' := by
  refine bind_returns (leastLoaded_returns hne fun c hc => (hroom c hc).1) fun c hc => ?_
  obtain ⟨hmem, htab⟩ := leastLoaded_mem hc
  refine bind_returns ⟨_, read_ok.mpr ⟨htab, rfl⟩⟩ fun ts _ => ?_
  refine bind_returns ?_ fun sh hsh => ?_
  · unfold RM.rank
    split
    · exact ⟨_, rfl⟩
    · exact bind_returns ⟨(), checkCore_ok.mpr (hroom c hmem).2⟩ fun _ _ => ⟨_, rfl⟩
  · obtain ⟨st, heap⟩ := sh
    have hcpu : (heap a).cpu = c := by
      rw [(RM.rank_frame hsh).1 a, Function.update_self]
    have hin : (w.plugin i).InTable (heap a).cpu := by
      rw [hcpu]
      exact htab
    refine bind_returns (addUtil_returns (by exact hin) _) fun p hp => ?_
    obtain ⟨-, rfl⟩ := addUtil_ok hp
    exact bind_returns (addCount_returns (by exact hin) _) fun _ _ => ⟨_, rfl⟩

/-- **Scheduling returns**: the plugin has a core and an entry for each, and what RR
looks up beyond that is there. -/
theorem schedule_returns (hne : (w.plugin i).cpulist ≠ []) (hroom : Roomy (w.plugin i).toPluginInfo)
    (hrr : (w.plugin i).kind = .rr → (w.heap a).params.priority.toNat < MAX_PRIO ∧ ∀ c, RR.NextFound w i a c) :
    ∃ w', rtfPlgTaskSchedule w i a = .ok w' := by
  have htab : ∀ c ∈ (w.plugin i).cpulist, (w.plugin i).InTable c := fun c hc => (hroom c hc).1
  unfold rtfPlgTaskSchedule
  split
  · refine bind_returns (leastLoaded_returns hne htab) fun c hc => ?_
    have hin : (w.plugin i).InTable c := (leastLoaded_mem hc).2
    refine bind_returns ⟨_, EDF.grant_returns hne htab (by exact hin)⟩ fun t ht => ?_
    obtain ⟨x, u, rfl⟩ := EDF.grant_ok ht
    refine bind_returns (addUtil_returns (by exact hin) _) fun p hp => ?_
    obtain ⟨-, rfl⟩ := addUtil_ok hp
    exact bind_returns (addCount_returns (by exact hin) _) fun _ _ => ⟨_, rfl⟩
  · rename_i hk
    exact RM.schedule_returns hne fun c hc => ⟨htab c hc, (hroom c hc).2 (by rw [hk]; rfl)⟩
  · rename_i hk
    obtain ⟨hp, hnext⟩ := hrr hk
    exact RR.schedule_returns hne (fun c hc => ⟨htab c hc, (hroom c hc).2 (by rw [hk]; rfl)⟩) hp hnext
  · refine bind_returns (leastLoaded_returns hne htab) fun c hc => ?_
    have hin : (w.plugin i).InTable c := (leastLoaded_mem hc).2
    exact bind_returns (addCount_returns (by exact hin) _) fun _ _ => ⟨_, rfl⟩

/-- A pass over plugins that all answer. -/
theorem firstPass_returns {ask : World → ℕ → Except Fault (Res × World)} (hask : Asks ask) {w : World} :
    ∀ {is : List ℕ}, (∀ i ∈ is, ∃ q, ask w i = .ok q) → ∃ q, firstPass ask is w = .ok q
  | [], _ => ⟨_, rfl⟩
  | i :: is, h => by
    refine bind_returns (h i List.mem_cons_self) fun q hq => ?_
    obtain ⟨r, w'⟩ := q
    obtain rfl := hask _ _ _ _ hq
    dsimp only
    split
    · exact ⟨_, rfl⟩
    · exact bind_returns (firstPass_returns hask fun j hj => h j (List.mem_cons_of_mem i hj)) fun _ _ => ⟨_, rfl⟩

theorem selectPlugin_returns {ask : World → ℕ → Except Fault (Res × World)} (hask : Asks ask) {n : ℕ} {w : World}
    (h : ∀ i < n, ∃ q, ask w i = .ok q) : ∃ chosen, selectPlugin ask n w = .ok (chosen, w) := by
  have hsel : ∃ q, selectPlugin ask n w = .ok q := by
    refine bind_returns (firstPass_returns hask fun i hi => h i (List.mem_range.mp hi)) fun q _ => ?_
    obtain ⟨found, results, w'⟩ := q
    dsimp only
    split
    · exact ⟨_, rfl⟩
    · exact ⟨_, rfl⟩
  obtain ⟨⟨chosen, w'⟩, hq⟩ := hsel
  obtain ⟨rfl, -⟩ := selectPlugin_ok hask hq
  exact ⟨chosen, hq⟩

end Plugins

/-! ### What is kept -/

/-- RR's counters count the lists of RR's entries, which have a file each. -/
structure Counted (n : ℕ) (w : World) : Prop where
  files : ∀ i < n, ∀ j < n, (w.plugin i).dl = (w.plugin j).dl → i = j
  exact : ∀ i < n, (w.plugin i).kind = .rr → ∀ c, RR.Exact (w.plugin i) (w.statics (w.plugin i).dl) w.heap c

namespace Counted

variable {n : ℕ} {w w' : World} {ts : List Addr} {i : ℕ} {a : Addr} {c : ℕ} {r : Res}

/-- A move of one plugin that keeps its own counters. -/
theorem move (hC : Counted n w) (hi : i < n) (hinfo : ∀ j, (w'.plugin j).toPluginInfo = (w.plugin j).toPluginInfo)
    (hothers : ∀ j, j ≠ i → w'.plugin j = w.plugin j) (hst : ∀ d, d ≠ (w.plugin i).dl → w'.statics d = w.statics d)
    (hpar : ∀ b, (w'.heap b).params = (w.heap b).params)
    (hown : (w.plugin i).kind = .rr → ∀ c, RR.Exact (w'.plugin i) (w'.statics (w.plugin i).dl) w'.heap c) :
    Counted n w' := by
  refine ⟨?_, ?_⟩
  · intro j hj k hk
    rw [hinfo, hinfo]
    exact hC.files j hj k hk
  · intro j hj hk c
    rw [hinfo] at hk ⊢
    by_cases hji : j = i
    · subst hji
      exact hown hk c
    · have hdl : (w.plugin j).dl ≠ (w.plugin i).dl := fun he => hji (hC.files j hj i hi he)
      rw [hothers j hji, hst _ hdl]
      exact (hC.exact j hj hk c).congr rfl (fun b _ => hpar b) rfl rfl

/-- Only what the records of the listed tasks declare matters. -/
theorem congr (hC : Counted n w) (hp : w'.plugin = w.plugin) (hst : w'.statics = w.statics)
    (hpar : ∀ i < n, (w.plugin i).kind = .rr → ∀ c, ∀ b ∈ ((w.plugin i).tasks c).root,
      (w'.heap b).params = (w.heap b).params) : Counted n w' := by
  refine ⟨?_, ?_⟩
  · rw [hp]
    exact hC.files
  · rw [hp, hst]
    intro i hi hk c
    exact (hC.exact i hi hk c).congr rfl (hpar i hi hk c) rfl rfl

theorem place (hC : Counted n w) (hi : i < n) (h : rtfPlgTaskSchedule w i a = .ok w') : Counted n w' := by
  obtain ⟨c, hP⟩ := schedule_placed h
  refine hC.move hi hP.info_eq hP.others hP.statics (fun b => (hP.task_eq b).2.2.2) ?_
  intro hk
  unfold rtfPlgTaskSchedule at h
  rw [hk] at h
  exact RR.exact_schedule (hC.exact i hi hk) h

/-- The plugin that releases has the task on its list. -/
theorem release (hC : Counted n w) (hL : Lists n w (a :: ts)) (ha : a ∉ ts) (hi : i < n)
    (hown : (w.heap a).pluginid = i) (h : rtfPlgTaskRelease w i a = .ok (r, w')) : Counted n w' := by
  have hR := release_released h
  have hpar : ∀ b, (w'.heap b).params = (w.heap b).params := by
    intro b
    rw [hR.task_eq b]
  refine hC.move hi hR.info_eq hR.others hR.statics hpar ?_
  intro hk
  have hkl : (w.plugin i).kind.keepsList := by
    rw [hk]
    rfl
  have hbefore := hL.list i hi hkl (w.heap a).cpu
  have hafter := (hL.release ha hown hR).list i hi (by rw [hR.info_eq]; exact hkl) (w.heap a).cpu
  rw [placed_cons hown, if_pos ⟨rfl, rfl⟩] at hbefore
  rw [hR.placed_eq ha] at hafter
  unfold rtfPlgTaskRelease at h
  rw [hk] at h
  exact RR.exact_release (hC.exact i hi hk) (hbefore.trans (hafter.symm.cons a)) h

end Counted

/-- The books of the plugins: tallies, lists and RR's counters. -/
structure Booked (s : Sched) : Prop where
  tallied : Tallied s
  listed : Listed s
  counted : Counted s.numOfPlugins s.toWorld

section Steps

variable {s s' : Sched} {o : Op} {r : Res} {a : Addr}

theorem counted_alloc (hB : Booked s) (tp : Params) (ppid : Pid) :
    Counted s.numOfPlugins (s.alloc tp ppid).toWorld := by
  refine hB.counted.congr rfl rfl ?_
  intro i hi hk c b hb
  have hkl : (s.plugin i).kind.keepsList := by
    rw [hk]
    rfl
  have hmem := (mem_placed.mp ((Lists.list hB.listed i hi hkl c).mem_iff.mp hb)).1
  show ((s.alloc tp ppid).heap b).params = _
  rw [hB.tallied.sane.alloc_heap tp ppid hmem]

/-- What a task leaves when its plugin has released it, before it is placed anew or freed. -/
theorem counted_released {i : ℕ} {w : World} {ts : List Addr} (hB : Booked s) (hp : s.taskset.root.Perm (a :: ts))
    (hat : a ∉ ts) (hi : i < s.numOfPlugins) (hown : (s.heap a).pluginid = i)
    (h : rtfPlgTaskRelease s.toWorld i a = .ok (r, w)) : Counted s.numOfPlugins w :=
  hB.counted.release (Lists.perm hB.listed hp) hat hi hown h

theorem counted_change {tp : Params} {id : UInt32} (hB : Booked s) (hg : KeepsPlugin s (.change tp id))
    (h : rtfSchedulerTaskChange s tp id = .ok (r, s')) : Counted s'.numOfPlugins s'.toWorld := by
  rcases change_ok h with rfl | ⟨a, i, r', w, w', ha, hc, hr, hs, rfl⟩
  · exact hB.counted
  · obtain ⟨hi, -, -⟩ := taker_some hc
    obtain ⟨ts, hp, hat⟩ := hB.tallied.sane.split (rtfTasksetSearch_some ha).1
    exact (counted_released hB hp hat hi (hg a ha _ hc) hr).place hi hs

theorem counted_removes {key : Addr → Bool} (hB : Booked s) (h : Removes key s a s') :
    Counted s'.numOfPlugins s'.toWorld := by
  obtain ⟨-, hp, -⟩ := h.root
  obtain ⟨ts, i, r, w, -, hown, hi, hr, rfl⟩ := h
  have hat := (List.nodup_cons.mp (hp.nodup_iff.mp hB.tallied.tallies.nodup)).1
  show Counted s.numOfPlugins w
  exact counted_released hB hp hat hi hown hr

/-- **One operation** keeps the books. -/
theorem booked_step (hB : Booked s) (hg : KeepsOwner s o) (h : step s o = .ok (r, s')) : Booked s' := by
  refine step_inv ?_ ?_ ?_ ?_ hB h
  · rintro tp ppid rfl hcreate
    refine ⟨tallied_create hB.tallied hcreate, listed_create hB.tallied hB.listed hg.2 hcreate, ?_⟩
    rcases create_ok hcreate with ⟨-, rfl⟩ | ⟨i, w, hch, hs, rfl⟩
    · exact counted_alloc hB tp ppid
    · exact (counted_alloc hB tp ppid).place (assignee_some hch).1 hs
  · rintro tp id rfl hchange
    exact ⟨tallied_change hB.tallied hg.1 hchange, listed_change hB.tallied hB.listed hg.1 hchange,
      counted_change hB hg.1 hchange⟩
  · intro heap k hheap
    refine ⟨tallied_thread hB.tallied hheap, listed_thread hB.listed hheap, hB.counted.congr rfl rfl ?_⟩
    intro i _ _ c b _
    show (heap b).params = _
    rw [hheap b]
  · intro key s a s' hI hrm
    exact ⟨tallied_removes hI.tallied hrm, listed_removes hI.tallied hI.listed hrm, counted_removes hI hrm⟩

end Steps

/-- **What a plugin looks up is there**: cores, entries for them, the tasks on its
lists and RR's counters of them. -/
structure Equipped (s : Sched) : Prop extends Booked s where
  cores : ∀ i < s.numOfPlugins, (s.plugin i).cpulist ≠ []
  roomy : ∀ i < s.numOfPlugins, Roomy (s.plugin i).toPluginInfo

theorem equipped_step {s s' : Sched} {o : Op} {r : Res} (hE : Equipped s) (hg : KeepsOwner s o)
    (h : step s o = .ok (r, s')) : Equipped s' := by
  obtain ⟨hn, hinfo⟩ := sameConfig_step h
  refine ⟨booked_step hE.toBooked hg h, ?_, ?_⟩
  · intro i hi
    rw [hinfo i]
    exact hE.cores i (hn ▸ hi)
  · intro i hi
    rw [hinfo i]
    exact hE.roomy i (hn ▸ hi)

/-! ### The operations return -/

section Operations

variable {s s' : Sched} {o : Op} {a : Addr}

theorem Equipped.held (hE : Equipped s) : Held s := ⟨hE.tallied.sane, hE.tallied.tallies.held⟩

theorem Equipped.inTable (hE : Equipped s) {i : ℕ} (hi : i < s.numOfPlugins) :
    ∀ c ∈ (s.plugin i).cpulist, (s.plugin i).InTable c := fun c hc => (hE.roomy i hi c hc).1

/-- A task of the taskset can be released: it is on a list that RR counts. -/
theorem Equipped.releasable (hE : Equipped s) (ha : a ∈ s.taskset.root) : Releasable s a := by
  obtain ⟨i, hi, hown, hcpu⟩ := hE.held.held a ha
  obtain ⟨htab, hcore⟩ := hE.roomy i hi _ hcpu
  have huniq : ∀ j : ℕ, (s.heap a).pluginid = j → j = i := by
    intro j hj
    rw [hown] at hj
    exact_mod_cast hj.symm
  refine ⟨?_, ?_, ?_⟩
  · rw [hown]
    exact ⟨Int.natCast_nonneg i, by exact_mod_cast hi⟩
  · intro j hj
    rw [huniq j hj]
    exact htab
  · intro j hj
    rw [huniq j hj]
    refine ⟨hcore, ?_⟩
    intro hk
    have hlist := Lists.list hE.listed i hi (by rw [hk]; rfl) (s.heap a).cpu
    have hmem : a ∈ ((s.plugin i).tasks (s.heap a).cpu).root :=
      hlist.mem_iff.mpr (mem_placed.mpr ⟨ha, hown, rfl⟩)
    exact (hE.counted.exact i hi hk (s.heap a).cpu).small _ (List.mem_map_of_mem hmem)

/-- **A create** is answered unless RR takes a task with a priority its table does not have. -/
theorem create_returns_iff (hE : Equipped s) {tp : Params} {ppid : Pid} :
    (∃ q, rtfSchedulerTaskCreate s tp ppid = .ok q) ↔ RR.SmallPrio s (.create tp ppid) := by
  have hpar : ((s.alloc tp ppid).heap s.next).params = tp := by
    rw [s.alloc_self]
    rfl
  constructor
  · rintro ⟨⟨r, s'⟩, h⟩ ⟨i, res⟩ hch hk
    obtain ⟨⟨chosen, w⟩, hsel, h⟩ := bind_ok.mp h
    obtain rfl : assignee (s.alloc tp ppid) s.next = chosen := by
      unfold assignee chosenBy
      rw [hsel]
    obtain ⟨rfl, -⟩ := selectPlugin_ok (askAccept_asks s.next) hsel
    rw [show assignee (s.alloc tp ppid) s.next = some (i, res) from hch] at h
    obtain ⟨w, hs, -⟩ := bind_ok.mp h
    rw [← hpar]
    exact RR.schedule_small hk hs
  · intro hsmall
    have hask : ∀ i < (s.alloc tp ppid).numOfPlugins, ∃ q, askAccept s.next (s.alloc tp ppid).toWorld i = .ok q := by
      intro i hi
      exact bind_returns (accept_returns (hE.cores i hi) (hE.inTable hi) _) fun _ _ => ⟨_, rfl⟩
    obtain ⟨chosen, hsel⟩ := selectPlugin_returns (askAccept_asks s.next) hask
    have hch : assignee (s.alloc tp ppid) s.next = chosen := by
      unfold assignee chosenBy
      rw [hsel]
    refine bind_returns ⟨_, hsel⟩ fun q hq => ?_
    obtain rfl := Except.ok.inj (hsel.symm.trans hq)
    rcases chosen with _ | ⟨i, res⟩
    · exact ⟨_, rfl⟩
    · have hi := (assignee_some hch).1
      have hC := counted_alloc hE.toBooked tp ppid
      refine bind_returns (schedule_returns (hE.cores i hi) (hE.roomy i hi) ?_) fun _ _ => ⟨_, rfl⟩
      intro hk
      rw [hpar]
      exact ⟨hsmall (i, res) hch hk, fun c => RR.next_found (hC.exact i hi hk c)⟩

/-- **A change** is answered where the task stays with its plugin. -/
theorem change_op_returns (hE : Equipped s) {tp : Params} {id : UInt32} (hg : KeepsPlugin s (.change tp id)) :
    ∃ q, rtfSchedulerTaskChange s tp id = .ok q := by
  unfold rtfSchedulerTaskChange
  split
  · exact ⟨_, rfl⟩
  · rename_i a ha
    have hmem := (rtfTasksetSearch_some ha).1
    have hask : ∀ i < s.numOfPlugins, ∃ q, askChange a s.toWorld i = .ok q := by
      intro i hi
      refine bind_returns (change_returns (hE.cores i hi) (hE.inTable hi) fun hown => ?_) fun _ _ => ⟨_, rfl⟩
      refine (hE.releasable hmem).table i ?_
      rw [hown]
      exact hE.tallied.sane.ids i hi
    obtain ⟨chosen, hsel⟩ := selectPlugin_returns (askChange_asks a) hask
    have hch : taker s a = chosen := by
      unfold taker chosenBy
      rw [hsel]
    refine bind_returns ⟨_, hsel⟩ fun q hq => ?_
    obtain rfl := Except.ok.inj (hsel.symm.trans hq)
    rcases chosen with _ | ⟨i, res⟩
    · exact ⟨_, rfl⟩
    · have hi := (taker_some hch).1
      have hown : (s.heap a).pluginid = i := hg a ha (i, res) hch
      have hrel := hE.releasable hmem
      obtain ⟨r', w, hr⟩ := release_returns (hrel.table i hown) (hrel.statics i hown)
      refine bind_returns ⟨_, hr⟩ fun q hq => ?_
      obtain rfl := Except.ok.inj (hr.symm.trans hq)
      have hR := release_released hr
      obtain ⟨ts, hp, hat⟩ := hE.tallied.sane.split hmem
      have hC := counted_released hE.toBooked hp hat hi hown hr
      have hinfo : (w.plugin i).toPluginInfo = (s.plugin i).toPluginInfo := hR.info
      refine bind_returns (schedule_returns ?_ ?_ ?_) fun _ _ => ⟨_, rfl⟩
      · rw [hinfo]
        exact hE.cores i hi
      · rw [hinfo]
        exact hE.roomy i hi
      · intro hk
        rw [hR.task_eq a]
        rw [hinfo] at hk
        exact ⟨(hrel.statics i hown).2 hk, fun c => RR.next_found (hC.exact i hi (by rw [hinfo]; exact hk) c)⟩

theorem releaseTask_returns (hE : Equipped s) (ha : a ∈ s.taskset.root) (ts : Taskset) :
    ∃ s', releaseTask { s with taskset := ts } a = .ok s' := by
  obtain ⟨i, r, w, hi, -, hr⟩ := (hE.releasable ha).returns
  exact ⟨_, bind_ok.mpr ⟨i, hi, bind_ok.mpr ⟨(r, w), hr, rfl⟩⟩⟩

theorem destroy_returns (hE : Equipped s) (id : UInt32) : ∃ q, rtfSchedulerTaskDestroy s id = .ok q := by
  unfold rtfSchedulerTaskDestroy
  split
  · exact ⟨_, rfl⟩
  · rename_i a ts hrm
    exact bind_returns (releaseTask_returns hE (removed_mem hrm) ts) fun _ _ => ⟨_, rfl⟩

theorem delete_returns (hE : Equipped s) (ppid : Pid) : ∃ s', rtfSchedulerDelete s ppid = .ok s' := by
  obtain ⟨calls, s', hdel, -⟩ :=
    @delete_deleted s ppid hE.tallied.tallies.nodup fun a ha _ => hE.releasable ha
  exact ⟨s', hdel⟩

/-- **Every operation returns**, but a create that makes RR look up a priority it does not have. -/
theorem step_returns_iff (hE : Equipped s) (hg : KeepsPlugin s o) :
    (∃ q, step s o = .ok q) ↔ ∀ tp ppid, o = .create tp ppid → RR.SmallPrio s o := by
  rcases o with ⟨tp, ppid⟩ | ⟨tp, id⟩ | ⟨id, pid⟩ | ⟨id⟩ | ⟨id⟩ | ⟨ppid⟩
  · refine (create_returns_iff hE).trans ?_
    constructor
    · exact fun h _ _ _ => h
    · exact fun h => h tp ppid rfl
  all_goals refine iff_of_true ?_ (by simp)
  · exact change_op_returns hE hg
  · show ∃ q, rtfSchedulerTaskAttach s id pid = .ok q
    unfold rtfSchedulerTaskAttach
    split
    · exact ⟨_, rfl⟩
    · rename_i a ha
      obtain ⟨i, hi, -⟩ := hE.held.pluginAt (rtfTasksetSearch_some ha).1
      exact bind_returns ⟨i, hi⟩ fun _ _ => ⟨_, rfl⟩
  · show ∃ q, rtfSchedulerTaskDetach s id = .ok q
    unfold rtfSchedulerTaskDetach
    split
    · exact ⟨_, rfl⟩
    · rename_i a ha
      obtain ⟨i, hi, -⟩ := hE.held.pluginAt (rtfTasksetSearch_some ha).1
      exact bind_returns ⟨i, hi⟩ fun _ _ => ⟨_, rfl⟩
  · exact destroy_returns hE id
  · exact bind_returns (delete_returns hE ppid) fun _ _ => ⟨_, rfl⟩

end Operations

/-! ### The daemon answers -/

/-- What a request must meet for the daemon to answer it. -/
def Answerable (data : Daemon) (cliId : ℕ) : Prop :=
  let req := rtfCarrierGetReq data.chann cliId
  match ReqType.ofCode req.reqType with
  | some .connectionInfo => 0 ≤ req.qDesc.toInt ∧ req.qDesc.toInt ≠ CHANNEL_MAX_SIZE
  | some .pluginInfo => 0 ≤ req.qDesc.toInt
  | some .pluginCpuInfo =>
    0 ≤ req.qDesc.toInt ∧ (data.sched.numOfPlugins ≤ req.qDesc.toInt ∨ 0 ≤ req.qId.toInt)
  | some .taskCreate => RR.SmallPrio data.sched (.create req.param (data.chann.client cliId).pid)
  | _ => True

/-- What a step must meet for the daemon to take it: the request it comes to is answerable. -/
def Ready (data : Daemon) : Prop :=
  ∀ i ∈ data.cursor, rtfDaemonCheckForUpdate data i = true → Answerable data i

/-- Whatever a client asks for now, a changed task stays with its plugin and an id is new. -/
def OwnersKept (data : Daemon) (_ : Tick) : Prop :=
  ∀ i ∈ data.cursor, rtfDaemonCheckForUpdate data i = true →
    ∀ o ∈ asked (data.chann.lastReq i) (data.chann.client i).pid, KeepsOwner data.sched o

instance (data : Daemon) (t : Tick) : Decidable (OwnersKept data t) := by
  unfold OwnersKept; infer_instance

instance (data : Daemon) (cliId : ℕ) : Decidable (Answerable data cliId) := by
  unfold Answerable
  dsimp only
  split <;> infer_instance

instance (data : Daemon) : Decidable (Ready data) := by
  unfold Ready; infer_instance

section Handlers

variable {data : Daemon} {cliId : ℕ}

theorem reqConnectionInfo_returns_iff : (∃ q, reqConnectionInfo data cliId = .ok q) ↔
    0 ≤ (rtfCarrierGetReq data.chann cliId).qDesc.toInt ∧
      (rtfCarrierGetReq data.chann cliId).qDesc.toInt ≠ CHANNEL_MAX_SIZE := by
  unfold reqConnectionInfo
  generalize (rtfCarrierGetReq data.chann cliId).qDesc.toInt = cdesc
  dsimp only
  split_ifs with hbig hout hnone
  · exact iff_of_true ⟨_, rfl⟩ (by omega)
  · exact iff_of_false (by simp) (by omega)
  · exact iff_of_true ⟨_, rfl⟩ (by omega)
  · exact iff_of_true ⟨_, rfl⟩ (by omega)

theorem reqPluginInfo_returns_iff : (∃ q, reqPluginInfo data cliId = .ok q) ↔
    0 ≤ (rtfCarrierGetReq data.chann cliId).qDesc.toInt := by
  unfold reqPluginInfo
  generalize (rtfCarrierGetReq data.chann cliId).qDesc.toInt = pdesc
  dsimp only
  split_ifs with hbig hneg
  · exact iff_of_true ⟨_, rfl⟩ (by omega)
  · exact iff_of_false (by simp) (by omega)
  · exact iff_of_true ⟨_, rfl⟩ (by omega)

theorem reqPluginCpuInfo_returns_iff (htab : Allocated data.sched) :
    (∃ q, reqPluginCpuInfo data cliId = .ok q) ↔
      0 ≤ (rtfCarrierGetReq data.chann cliId).qDesc.toInt ∧
        (data.sched.numOfPlugins ≤ (rtfCarrierGetReq data.chann cliId).qDesc.toInt ∨
          0 ≤ (rtfCarrierGetReq data.chann cliId).qId.toInt) := by
  constructor
  · rintro ⟨q, h⟩
    unfold reqPluginCpuInfo at h
    dsimp only at h
    split_ifs at h <;> omega
  · intro h
    obtain ⟨rep, data', hq, -⟩ := (reqPluginCpuInfo_answers data cliId htab).mpr h
    exact ⟨_, hq⟩

theorem reqTaskInfo_returns : ∃ q, reqTaskInfo data cliId = .ok q := by
  unfold reqTaskInfo
  dsimp only
  split
  · exact ⟨_, rfl⟩
  · exact ⟨_, rfl⟩

/-- **Every request**: it is answered if and only if it is answerable. -/
theorem process_returns_iff (hE : Equipped data.sched) (htab : Allocated data.sched)
    (hg : ∀ o ∈ asked (data.chann.lastReq cliId) (data.chann.client cliId).pid, KeepsPlugin data.sched o) :
    (∃ q, rtfDaemonProcessReq data cliId = .ok q) ↔ Answerable data cliId := by
  -- a handler of an operation returns when the operation does
  have hop : ∀ {o : Op} {f : Res × Sched → Except Fault (Reply × Daemon)}, KeepsPlugin data.sched o →
      (∀ q, ∃ q', f q = .ok q') →
        ((∃ q, (step data.sched o >>= f) = .ok q) ↔ ∀ tp ppid, o = .create tp ppid → RR.SmallPrio data.sched o) := by
    intro o f hk hf
    refine Iff.trans ?_ (step_returns_iff hE hk)
    constructor
    · rintro ⟨q, h⟩
      obtain ⟨q', hq', -⟩ := bind_ok.mp h
      exact ⟨q', hq'⟩
    · exact fun h => bind_returns h fun q _ => hf q
  unfold rtfDaemonProcessReq Answerable rtfCarrierGetReq
  unfold asked at hg
  dsimp only
  generalize ReqType.ofCode (data.chann.lastReq cliId).reqType = ty at hg ⊢
  rcases ty with _ | ty
  · exact iff_of_true ⟨_, rfl⟩ trivial
  rcases ty <;> dsimp only at hg ⊢
  case connectionInfo => exact reqConnectionInfo_returns_iff
  case pluginInfo => exact reqPluginInfo_returns_iff
  case pluginCpuInfo => exact reqPluginCpuInfo_returns_iff htab
  case taskInfo => exact iff_of_true reqTaskInfo_returns trivial
  case taskCreate =>
    exact (hop (hg _ rfl) fun _ => ⟨_, rfl⟩).trans ⟨fun h => h _ _ rfl, fun h _ _ _ => h⟩
  case taskModify => exact iff_of_true ((hop (hg _ rfl) fun _ => ⟨_, rfl⟩).mpr (by simp)) trivial
  case taskAttach => exact iff_of_true ((hop (hg _ rfl) fun _ => ⟨_, rfl⟩).mpr (by simp)) trivial
  case taskDetach => exact iff_of_true ((hop (hg _ rfl) fun _ => ⟨_, rfl⟩).mpr (by simp)) trivial
  case taskDestroy => exact iff_of_true ((hop (hg _ rfl) fun _ => ⟨_, rfl⟩).mpr (by simp)) trivial
  all_goals exact iff_of_true ⟨_, rfl⟩ trivial

end Handlers

/-! ### Runs -/

section Runs

variable {data data' : Daemon} {t : Tick} {out : Out}

/-- **A step of the loop** is taken if and only if the request it comes to is answerable. -/
theorem daemonStep_returns_iff (hE : Equipped data.sched) (htab : Allocated data.sched) (hg : OwnersKept data t) :
    (∃ q, daemonStep data t = .ok q) ↔ Ready data := by
  unfold daemonStep Ready
  cases hc : data.cursor with
  | none => exact iff_of_true ⟨_, rfl⟩ (by simp)
  | some i =>
    have hhandle : (∃ q, rtfDaemonHandleReq data i t.sent = .ok q) ↔
        (rtfDaemonCheckForUpdate data i = true → Answerable data i) := by
      unfold rtfDaemonHandleReq
      by_cases hf : Failed data i
      · -- the clean-up deletes tasks the plugins can release
        rw [if_pos hf]
        refine iff_of_true ?_ ?_
        · refine bind_returns ?_ fun _ _ => ⟨_, rfl⟩
          exact bind_returns (delete_returns hE _) fun _ _ => ⟨_, rfl⟩
        · intro hu
          have hst : (data.chann.client i).state = .connected := of_decide_eq_true (Bool.and_eq_true_iff.mp hu).1
          change (data.chann.client i).state = _ ∨ (data.chann.client i).state = _ at hf
          rw [hst] at hf
          rcases hf with hf | hf <;> cases hf
      rw [if_neg hf]
      by_cases hu : rtfDaemonCheckForUpdate data i = true
      · rw [if_pos hu]
        have hkeep : ∀ o ∈ asked (data.chann.lastReq i) (data.chann.client i).pid, KeepsPlugin data.sched o :=
          fun o ho => (hg i (by rw [hc]; rfl) hu o ho).1
        refine Iff.trans ?_ ((process_returns_iff hE htab hkeep).trans ⟨fun h _ => h, fun h => h hu⟩)
        constructor
        · rintro ⟨q, h⟩
          obtain ⟨q', hq', -⟩ := bind_ok.mp h
          exact ⟨q', hq'⟩
        · exact fun h => bind_returns h fun _ _ => ⟨_, rfl⟩
      · rw [if_neg hu]
        exact iff_of_true ⟨_, rfl⟩ fun h => absurd h hu
    constructor
    · rintro ⟨q, h⟩ j hj
      obtain rfl := Option.some.inj hj
      obtain ⟨q', hq', -⟩ := bind_ok.mp h
      exact hhandle.mp ⟨q', hq'⟩
    · exact fun h => bind_returns (hhandle.mpr (h i rfl)) fun _ _ => ⟨_, rfl⟩

/-- What the operations of a run keep, the loop keeps. -/
theorem daemonStep_kept {I : Sched → Prop} (hstep : ∀ s o r s', I s → KeepsOwner s o → step s o = .ok (r, s') → I s')
    (hg : OwnersKept data t) (h : daemonStep data t = .ok (out, data')) (hI : I data.sched) : I data'.sched := by
  rcases daemonStep_ok h with ⟨-, -, rfl⟩ | ⟨i, d, hc, hd, rfl⟩
  · exact hI
  · show I d.sched
    rcases handle_ok hd with ⟨-, -, hclean⟩ | ⟨-, hu, rep, after, hp, -, rfl⟩ | ⟨-, -, -, rfl⟩
    · obtain ⟨s', hs', rfl⟩ := cleanUp_ok hclean
      refine hstep data.sched (.delete (data.chann.client i).pid) .ok s' hI ⟨trivial, trivial⟩ ?_
      exact bind_ok.mpr ⟨s', hs', rfl⟩
    · rcases process_ok hp with ⟨-, rfl⟩ | ⟨-, -, rfl⟩ | ⟨o, r, s', ho, hs', rfl⟩
      · exact hI
      · exact hI
      · exact hstep data.sched o r s' hI (hg i (by rw [hc]; rfl) hu o ho) hs'
    · exact hI

variable {alloc : ℕ → Option ℕ} {load : List UInt8 → Option Image} {confs : List ConfPlugin} {plgs : List Plugin}
  {k : Kernel}

/-- Entries that are loaded from different files have different static tables. -/
theorem files_start (hinit : rtfPluginsInit alloc load confs = some plgs) (hown : OwnFiles load confs) {i j : ℕ}
    (hi : i < plgs.length) (hj : j < plgs.length)
    (hdl : ((Sched.start plgs k).plugin i).dl = ((Sched.start plgs k).plugin j).dl) : i = j := by
  obtain ⟨c, img, hci, himg, hp⟩ := start_plugin hinit k hi
  obtain ⟨d, img', hdj, himg', hq⟩ := start_plugin hinit k hj
  have hsame : img.dl = img'.dl := by
    rw [hp, hq] at hdl
    exact hdl
  have hat : ∀ {m : ℕ} {c : ConfPlugin} {img : Image}, confs[m]? = some c → load c.pluginPath = some img →
      (confs.map fun c => (load c.pluginPath).map Image.dl)[m]? = some (some img.dl) := by
    intro m c img hc hl
    simp [List.getElem?_map, hc, hl]
  have hi' := hat hci himg
  have hj' := hat hdj himg'
  rw [← hsame, ← hi'] at hj'
  obtain ⟨hlt, -⟩ := List.getElem?_eq_some_iff.mp hi'
  exact (List.getElem?_inj hlt hown).mp hj'.symm

theorem booked_start (hinit : rtfPluginsInit alloc load confs = some plgs) (hown : OwnFiles load confs) :
    Booked (Sched.start plgs k) := by
  refine ⟨tallied_start hinit k, listed_start hinit k, ?_, ?_⟩
  · exact fun i hi j hj hdl => files_start hinit hown hi hj hdl
  · intro i hi _ c
    obtain ⟨_, _, -, -, hp⟩ := start_plugin hinit k hi
    rw [hp]
    refine ⟨?_, ?_, ?_, ?_⟩ <;> simp [initPlugin, keysOf, Sched.start]

theorem equipped_start (hinit : rtfPluginsInit byPosition load confs = some plgs) (hc : Compact load confs)
    (hne : ∀ c ∈ confs, c.cores ≠ []) (hown : OwnFiles load confs) : Equipped (Sched.start plgs k) := by
  refine ⟨booked_start hinit hown, ?_, (seated_start hinit hc k).roomy⟩
  intro i hi
  obtain ⟨c, img, hci, -, hp⟩ := start_plugin hinit k hi
  have hcores := hne c (List.mem_of_getElem? hci)
  rw [hp]
  simpa [initPlugin] using hcores

/-- **What stops the daemon.** In every state of every run in which a changed task stays
with its plugin and ids are new, on plugins that have a core and an entry for each of
their cores: the next step is taken, whatever the kernel answers, if and only if the
request it comes to is answerable. -/
theorem progress_iff {socket : ℕ} (hinit : rtfPluginsInit byPosition load confs = some plgs) (hc : Compact load confs)
    (hne : ∀ c ∈ confs, c.cores ≠ []) (hown : OwnFiles load confs)
    (hrun : Reach daemonStep OwnersKept (Daemon.start socket (Sched.start plgs k)) data) (hg : OwnersKept data t) :
    (∃ out data', daemonStep data t = .ok (out, data')) ↔ Ready data := by
  have hE : Equipped data.sched := by
    refine hrun.inv (I := fun data => Equipped data.sched) (equipped_start hinit hc hne hown) ?_
    exact fun _ _ _ _ hI hg h => daemonStep_kept (fun _ _ _ _ hE hk hs => equipped_step hE hk hs) hg h hI
  have htab : Allocated data.sched := allocated_run hinit (hrun.mono fun _ _ _ => trivial)
  refine Iff.trans ?_ (daemonStep_returns_iff hE htab hg)
  constructor
  · rintro ⟨out, data', h⟩
    exact ⟨_, h⟩
  · rintro ⟨⟨out, data'⟩, h⟩
    exact ⟨out, data', h⟩

end Runs

/-! ### A priority RR's table does not have -/

namespace ProgressExample

/-- RM on core 0, RR on cores 0 and 1. -/
def confs : List ConfPlugin :=
  [⟨"RM".toUTF8.toList, [2], 10, 20, [0]⟩, ⟨"RR".toUTF8.toList, [3], 30, 40, [0, 1]⟩]

def plgs : List Plugin := (rtfPluginsInit byPosition BooksExample.load confs).getD []

theorem init_plgs : rtfPluginsInit byPosition BooksExample.load confs = some plgs := rfl

theorem compact_confs : Compact BooksExample.load confs := by
  intro c hc
  simp only [confs, List.mem_cons, List.not_mem_nil, or_false] at hc
  rcases hc with rfl | rfl
  · exact ⟨by decide, fun _ _ _ => by decide⟩
  · exact ⟨by decide, fun _ _ _ => by decide⟩

def creating (priority : UInt32) : Request :=
  Request.setParam (Request.setType (Memory.Buf.zero REQUEST_SIZE) .taskCreate)
    { Params.zero with priority := priority }

/-- Two clients have a task each; the loop is about to look at another create of the first. -/
def asks (priority : UInt32) : List Tick :=
  OwnerExample.arrive 7 8 ++ OwnerExample.gives 4 (creating 5).1 ++ OwnerExample.gives 5 (creating 5).1 ++
    (OwnerExample.gives 4 (creating priority).1).take 5

def start : Daemon := Daemon.start 3 (Sched.start plgs BooksExample.kernel)

end ProgressExample

open ProgressExample

/-- The daemon answers a create with priority 99, and stops at one with priority 100. -/
theorem progress_twoPriorities : ∃ data data', runGood daemonStep OwnersKept (asks 99) ProgressExample.start = some data ∧
    runGood daemonStep OwnersKept (asks 100) ProgressExample.start = some data' ∧ Ready data ∧ ¬ Ready data' ∧
      ((∃ out next, daemonStep data OwnerExample.cleaning = .ok (out, next)) ↔ Ready data) ∧
      ((∃ out next, daemonStep data' OwnerExample.cleaning = .ok (out, next)) ↔ Ready data') := by
  have hfirst : (runGood daemonStep OwnersKept (asks 99) ProgressExample.start).any
      (fun data => decide (Ready data ∧ OwnersKept data OwnerExample.cleaning)) = true := by decide +kernel
  have hsecond : (runGood daemonStep OwnersKept (asks 100) ProgressExample.start).any
      (fun data => decide (¬ Ready data ∧ OwnersKept data OwnerExample.cleaning)) = true := by decide +kernel
  obtain ⟨data, hdata, hv⟩ := (Option.any_eq_true _ _).mp hfirst
  obtain ⟨data', hdata', hv'⟩ := (Option.any_eq_true _ _).mp hsecond
  obtain ⟨hans, hg⟩ := of_decide_eq_true hv
  obtain ⟨hstop, hg'⟩ := of_decide_eq_true hv'
  refine ⟨data, data', hdata, hdata', hans, hstop, ?_, ?_⟩
  · exact progress_iff ProgressExample.init_plgs ProgressExample.compact_confs (by decide) (by decide)
      (reach_runGood hdata) hg
  · exact progress_iff ProgressExample.init_plgs ProgressExample.compact_confs (by decide) (by decide)
      (reach_runGood hdata') hg'

end Retif
