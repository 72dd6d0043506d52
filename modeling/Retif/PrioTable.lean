/-
# RR's table of priorities

`n_per_prio[cpu][priority]` has `MAX_PRIO` entries a core, and RR accepts any
declared priority. Its lookups stay inside for a task that RR schedules, or
releases, with a priority below `MAX_PRIO`; nothing on the way of a request
makes that sure, and a change may make RR release a task it does not hold.

What is looked up is said by the calls each operation makes (`Makes`). A
counter is at least the number of tasks of the taskset that entries of the file
hold there (`RR.Tabled`), and so never negative, as long as RR only takes down
counters that count the task it releases (`RR.CountsTaken`).

Key definitions: `Makes`, `RR.PrioInTable`, `RR.CounterKept`, `RR.Tabled`,
`RR.SmallPrio`, `RR.CountsTaken`.
Key theorems: `schedule_perPrio`, `release_perPrio`, `RR.Tabled.place`,
`RR.Tabled.release`, `prio_table_run`, `not_prio_table`, `not_counter_kept`.
-/
import Retif.Counters
import Retif.Isolation

namespace Retif

open CList

/-! ### The calls of an operation -/

/-- One turn of the loop of `rtf_scheduler_delete`. -/
def Turn (ppid : Pid) (s s' : Sched) : Prop := ∃ a, Removes (fun a => (s.heap a).ptid == ppid) s a s'

/-- The calls of `rtf_plg_task_schedule` and `rtf_plg_task_release` that an operation
makes, each with the world it is made in. -/
inductive Makes (s : Sched) : Op → World → PlgCall → Prop
  | create {tp : Params} {ppid : Pid} {i : ℕ} {r : Res} : assignee (s.alloc tp ppid) s.next = some (i, r) →
      Makes s (.create tp ppid) (s.alloc tp ppid).toWorld ⟨i, .schedule, s.next⟩
  | change {tp : Params} {id : UInt32} {a : Addr} {i : ℕ} {r : Res} :
      rtfTasksetSearch s.heap s.taskset id = some a → taker s a = some (i, r) →
      Makes s (.change tp id) s.toWorld ⟨i, .release, a⟩
  | changed {tp : Params} {id : UInt32} {a : Addr} {i : ℕ} {r r' : Res} {w : World} :
      rtfTasksetSearch s.heap s.taskset id = some a → taker s a = some (i, r) →
      rtfPlgTaskRelease s.toWorld i a = .ok (r', w) → Makes s (.change tp id) w ⟨i, .schedule, a⟩
  | destroy {id : UInt32} {a : Addr} {ts : Taskset} {i : ℕ} :
      rtfTasksetRemoveByRsvid s.heap s.taskset id = (some a, ts) → s.pluginAt (s.heap a).pluginid = .ok i →
      Makes s (.destroy id) s.toWorld ⟨i, .release, a⟩
  | delete {ppid : Pid} {s' : Sched} {a : Addr} {ts : Taskset} {i : ℕ} : Relation.ReflTransGen (Turn ppid) s s' →
      rtfTasksetRemoveByPpid s'.heap s'.taskset ppid = (some a, ts) → s'.pluginAt (s'.heap a).pluginid = .ok i →
      Makes s (.delete ppid) s'.toWorld ⟨i, .release, a⟩

/-- A call to RR looks `n_per_prio` up at a priority it has. -/
def RR.PrioInTable (w : World) (call : PlgCall) : Prop :=
  (w.plugin call.entry).kind = .rr → (w.heap call.task).params.priority.toNat < MAX_PRIO

/-- The counter that RR's schedule counts up is not negative. -/
def RR.CounterKept (w : World) (call : PlgCall) : Prop :=
  (w.plugin call.entry).kind = .rr → call.op = .schedule → ∀ c, RR.leastLoadedCpu (w.plugin call.entry) = .ok c →
    0 ≤ (w.statics (w.plugin call.entry).dl).nPerPrio c (w.heap call.task).params.priority.toNat

/-! ### What the calls do to the table -/

section Calls

variable {w w' : World} {i : ℕ} {a : Addr} {r : Res}

@[simp] theorem Statics.addDist_nPerPrio (st : Statics) (c : ℕ) (n : UInt32) :
    (st.addDist c n).nPerPrio = st.nPerPrio := rfl

theorem Statics.addPerPrio_nPerPrio (st : Statics) (c d : ℕ) (p : UInt32) (q : ℕ) (n : ℤ) :
    (st.addPerPrio c p n).nPerPrio d q = st.nPerPrio d q + if d = c ∧ q = p.toNat then n else 0 := by
  unfold Statics.addPerPrio
  by_cases hd : d = c
  · subst hd
    by_cases hq : q = p.toNat
    · subst hq
      simp
    · simp [hq]
  · simp [hd]

/-- Only RR writes the table: it counts the task up on the core it puts it on. -/
theorem schedule_perPrio (h : rtfPlgTaskSchedule w i a = .ok w') (d c p : ℕ) :
    (w'.statics d).nPerPrio c p = (w.statics d).nPerPrio c p +
      if (w.plugin i).kind = .rr ∧ d = (w.plugin i).dl ∧ c = (w'.heap a).cpu ∧
        p = (w.heap a).params.priority.toNat then 1 else 0 := by
  obtain ⟨_, hP⟩ := schedule_placed h
  by_cases hd : d = (w.plugin i).dl
  · subst hd
    unfold rtfPlgTaskSchedule at h
    split at h
    · rename_i hk
      obtain ⟨_, -, h⟩ := bind_ok.mp h
      obtain ⟨_, -, h⟩ := bind_ok.mp h
      obtain ⟨_, -, h⟩ := bind_ok.mp h
      obtain ⟨_, -, h⟩ := bind_ok.mp h
      cases h
      simp [hk, World.setPlugin, World.setTask]
    · rename_i hk
      obtain ⟨_, -, -, hst⟩ := RM.schedule_ranked h
      rw [hst]
      split <;> simp [hk]
    · rename_i hk
      obtain ⟨e, -, -, -, hr⟩ := RR.schedule_ranked h
      have hst := RR.rank_statics hr
      have hcpu : (w'.heap a).cpu = e := by
        rw [(RR.rank_frame hr).1 a, World.assign, Function.update_self]
      rw [hst, hcpu]
      split <;> simp [Statics.addPerPrio_nPerPrio, hk]
    · rename_i hk
      obtain ⟨_, -, h⟩ := bind_ok.mp h
      obtain ⟨_, -, h⟩ := bind_ok.mp h
      cases h
      simp [hk, World.setPlugin, World.setTask]
  · rw [hP.statics d hd, if_neg fun hc => hd hc.2.1, add_zero]

/-- RR takes the counter down on the core the record names. -/
theorem release_perPrio (h : rtfPlgTaskRelease w i a = .ok (r, w')) (d c p : ℕ) :
    (w'.statics d).nPerPrio c p = (w.statics d).nPerPrio c p -
      if (w.plugin i).kind = .rr ∧ d = (w.plugin i).dl ∧ c = (w.heap a).cpu ∧
        p = (w.heap a).params.priority.toNat then 1 else 0 := by
  have hR := release_released h
  by_cases hd : d = (w.plugin i).dl
  · subst hd
    unfold rtfPlgTaskRelease at h
    split at h
    · rename_i hk
      obtain ⟨_, -, h⟩ := bind_ok.mp h
      obtain ⟨_, -, h⟩ := bind_ok.mp h
      cases h
      simp [hk, World.setPlugin, World.setTask]
    · rename_i hk
      rw [RM.release_statics h]
      split <;> simp [hk]
    · rename_i hk
      rw [RR.release_statics h]
      unfold RR.uncount
      dsimp only
      split <;> simp [Statics.addPerPrio_nPerPrio, hk] <;> split <;> rfl
    · rename_i hk
      obtain ⟨_, -, h⟩ := bind_ok.mp h
      cases h
      simp [hk, World.setPlugin, World.setTask]
  · rw [hR.statics d hd, if_neg fun hc => hd hc.2.1, sub_zero]

theorem RR.schedule_small (hk : (w.plugin i).kind = .rr) (h : Retif.rtfPlgTaskSchedule w i a = .ok w') :
    (w.heap a).params.priority.toNat < MAX_PRIO := by
  unfold Retif.rtfPlgTaskSchedule at h
  rw [hk] at h
  obtain ⟨_, -, hp, -⟩ := RR.schedule_ranked h
  exact hp

end Calls

/-! ### The tasks the table counts -/

/-- The task is held by an RR entry of the file, on the core, with the priority. -/
def RR.countedAs (w : World) (d c p : ℕ) (a : Addr) : Bool :=
  decide (0 ≤ (w.heap a).pluginid ∧ (w.plugin (w.heap a).pluginid.toNat).kind = .rr ∧
    (w.plugin (w.heap a).pluginid.toNat).dl = d ∧ (w.heap a).cpu = c ∧ (w.heap a).params.priority.toNat = p)

/-- How many of the tasks `ts` that are. -/
def RR.tally (w : World) (ts : List Addr) (d c p : ℕ) : ℕ := ts.countP (RR.countedAs w d c p)

/-- **The table covers the tasks** `ts`: no counter is below the tasks it counts, and
those have priorities the table has. -/
structure RR.Tabled (w : World) (ts : List Addr) : Prop where
  counted : ∀ d c p, (RR.tally w ts d c p : ℤ) ≤ (w.statics d).nPerPrio c p
  small : ∀ a ∈ ts, ∀ i : ℕ, (w.heap a).pluginid = i → (w.plugin i).kind = .rr →
    (w.heap a).params.priority.toNat < MAX_PRIO

section Tabled

variable {w w' : World} {ts ts' : List Addr} {i : ℕ} {a : Addr} {r : Res}

theorem RR.countedAs_congr (hinfo : ∀ j, (w'.plugin j).toPluginInfo = (w.plugin j).toPluginInfo)
    (hs : (w'.heap a).pluginid = (w.heap a).pluginid ∧ (w'.heap a).cpu = (w.heap a).cpu ∧
      (w'.heap a).params = (w.heap a).params) (d c p : ℕ) :
    RR.countedAs w' d c p a = RR.countedAs w d c p a := by
  unfold RR.countedAs
  rw [hs.1, hs.2.1, hs.2.2, hinfo]

theorem RR.tally_congr (hinfo : ∀ j, (w'.plugin j).toPluginInfo = (w.plugin j).toPluginInfo)
    (hs : ∀ b ∈ ts, (w'.heap b).pluginid = (w.heap b).pluginid ∧ (w'.heap b).cpu = (w.heap b).cpu ∧
      (w'.heap b).params = (w.heap b).params) (d c p : ℕ) : RR.tally w' ts d c p = RR.tally w ts d c p := by
  unfold RR.tally
  refine List.countP_congr ?_
  intro b hb
  rw [RR.countedAs_congr hinfo (hs b hb)]

/-- A task of plugin `i` is counted at one place, if `i` is RR. -/
theorem RR.tally_cons (ha : (w.heap a).pluginid = i) (ts : List Addr) (d c p : ℕ) :
    RR.tally w (a :: ts) d c p = RR.tally w ts d c p +
      if (w.plugin i).kind = .rr ∧ d = (w.plugin i).dl ∧ c = (w.heap a).cpu ∧
        p = (w.heap a).params.priority.toNat then 1 else 0 := by
  unfold RR.tally
  rw [List.countP_cons]
  refine congrArg _ (if_congr ?_ rfl rfl)
  unfold RR.countedAs
  rw [decide_eq_true_iff, ha, Int.toNat_natCast]
  constructor
  · rintro ⟨-, hk, rfl, rfl, rfl⟩
    exact ⟨hk, rfl, rfl, rfl⟩
  · rintro ⟨hk, rfl, rfl, rfl⟩
    exact ⟨Int.natCast_nonneg i, hk, rfl, rfl, rfl⟩

/-- No counter is negative. -/
theorem RR.Tabled.nonneg (hT : RR.Tabled w ts) (d c p : ℕ) : 0 ≤ (w.statics d).nPerPrio c p :=
  (Int.natCast_nonneg _).trans (hT.counted d c p)

theorem RR.Tabled.perm (hT : RR.Tabled w ts) (hp : ts.Perm ts') : RR.Tabled w ts' := by
  refine ⟨?_, fun b hb => hT.small b (hp.mem_iff.mpr hb)⟩
  intro d c p
  rw [RR.tally, ← hp.countP_eq]
  exact hT.counted d c p

theorem RR.Tabled.congr (hT : RR.Tabled w ts) (hinfo : ∀ j, (w'.plugin j).toPluginInfo = (w.plugin j).toPluginInfo)
    (hst : w'.statics = w.statics)
    (hs : ∀ b ∈ ts, (w'.heap b).pluginid = (w.heap b).pluginid ∧ (w'.heap b).cpu = (w.heap b).cpu ∧
      (w'.heap b).params = (w.heap b).params) : RR.Tabled w' ts := by
  refine ⟨?_, ?_⟩
  · intro d c p
    rw [RR.tally_congr hinfo hs, hst]
    exact hT.counted d c p
  · intro b hb j hj hk
    rw [(hs b hb).1] at hj
    rw [hinfo] at hk
    rw [(hs b hb).2.2]
    exact hT.small b hb j hj hk

/-- **Placing** a task counts it, if RR takes it. -/
theorem RR.Tabled.place (hT : RR.Tabled w ts) (ha : a ∉ ts) (hid : (w.plugin i).id = i)
    (h : Retif.rtfPlgTaskSchedule w i a = .ok w') : RR.Tabled w' (a :: ts) := by
  obtain ⟨c₀, hP⟩ := Retif.schedule_placed h
  have hpid : (w'.heap a).pluginid = i := by rw [hP.task, hid]
  have hpar : ∀ b, (w'.heap b).params = (w.heap b).params := fun b => (hP.task_eq b).2.2.2
  have hrest : ∀ b ∈ ts, (w'.heap b).pluginid = (w.heap b).pluginid ∧ (w'.heap b).cpu = (w.heap b).cpu ∧
      (w'.heap b).params = (w.heap b).params := by
    intro b hb
    have hne : b ≠ a := fun hba => ha (hba ▸ hb)
    rw [hP.rest b hne]
    exact ⟨rfl, rfl, rfl⟩
  refine ⟨?_, ?_⟩
  · intro d c p
    have hold := hT.counted d c p
    rw [RR.tally_cons hpid, RR.tally_congr hP.info_eq hrest, schedule_perPrio h, hP.info_eq, hpar]
    push_cast
    omega
  · intro b hb j hj hk
    rw [hP.info_eq] at hk
    rw [hpar]
    rcases List.mem_cons.mp hb with rfl | hb
    · obtain rfl : i = j := Int.natCast_inj.mp (hpid.symm.trans hj)
      exact RR.schedule_small hk h
    · rw [(hrest b hb).1] at hj
      exact hT.small b hb j hj hk

/-- **Releasing** a task keeps the counters above the other tasks, if RR takes
down one that counts more than those. -/
theorem RR.Tabled.release (hT : RR.Tabled w ts) (ha : a ∉ ts)
    (hmore : (w.plugin i).kind = .rr → (RR.tally w ts (w.plugin i).dl (w.heap a).cpu
      (w.heap a).params.priority.toNat : ℤ) <
        (w.statics (w.plugin i).dl).nPerPrio (w.heap a).cpu (w.heap a).params.priority.toNat)
    (h : Retif.rtfPlgTaskRelease w i a = .ok (r, w')) : RR.Tabled w' ts := by
  have hR := Retif.release_released h
  have hrest : ∀ b ∈ ts, (w'.heap b).pluginid = (w.heap b).pluginid ∧ (w'.heap b).cpu = (w.heap b).cpu ∧
      (w'.heap b).params = (w.heap b).params := by
    intro b hb
    have hne : b ≠ a := fun hba => ha (hba ▸ hb)
    rw [hR.heap_ne hne]
    exact ⟨rfl, rfl, rfl⟩
  refine ⟨?_, ?_⟩
  · intro d c p
    rw [RR.tally_congr hR.info_eq hrest, release_perPrio h]
    have hold := hT.counted d c p
    split
    · rename_i hc
      obtain ⟨hk, rfl, rfl, rfl⟩ := hc
      have := hmore hk
      omega
    · omega
  · intro b hb j hj hk
    rw [(hrest b hb).1] at hj
    rw [hR.info_eq] at hk
    rw [(hrest b hb).2.2]
    exact hT.small b hb j hj hk

/-- The other tasks are covered too. -/
theorem RR.Tabled.tail (hT : RR.Tabled w (a :: ts)) : RR.Tabled w ts := by
  refine ⟨?_, fun b hb => hT.small b (List.mem_cons_of_mem a hb)⟩
  intro d c p
  have hcount : RR.tally w ts d c p ≤ RR.tally w (a :: ts) d c p := by
    unfold RR.tally
    rw [List.countP_cons]
    exact Nat.le_add_right ..
  have := hT.counted d c p
  omega

/-- The counter of a task that RR holds is above the other tasks it counts. -/
theorem RR.Tabled.more (hT : RR.Tabled w (a :: ts)) (hown : (w.heap a).pluginid = i) (hk : (w.plugin i).kind = .rr) :
    (RR.tally w ts (w.plugin i).dl (w.heap a).cpu (w.heap a).params.priority.toNat : ℤ) <
      (w.statics (w.plugin i).dl).nPerPrio (w.heap a).cpu (w.heap a).params.priority.toNat := by
  have hcount := hT.counted (w.plugin i).dl (w.heap a).cpu (w.heap a).params.priority.toNat
  rw [RR.tally_cons hown, if_pos ⟨hk, rfl, rfl, rfl⟩] at hcount
  push_cast at hcount
  omega

end Tabled

/-! ### Runs -/

/-- RR takes no task with a priority the table does not have. -/
def RR.SmallPrio (s : Sched) : Op → Prop
  | .create tp ppid => ∀ ch ∈ assignee (s.alloc tp ppid) s.next, (s.plugin ch.1).kind = .rr →
      tp.priority.toNat < MAX_PRIO
  | .change _ id => ∀ a ∈ rtfTasksetSearch s.heap s.taskset id, ∀ ch ∈ taker s a, (s.plugin ch.1).kind = .rr →
      (s.heap a).params.priority.toNat < MAX_PRIO
  | _ => True

/-- Where a change makes RR release a task, the counter it takes down counts more
than the other tasks that its file holds there. -/
def RR.CountsTaken (s : Sched) : Op → Prop
  | .change _ id => ∀ a ∈ rtfTasksetSearch s.heap s.taskset id, ∀ ch ∈ taker s a, (s.plugin ch.1).kind = .rr →
      (RR.tally s.toWorld (s.taskset.root.erase a) (s.plugin ch.1).dl (s.heap a).cpu
        (s.heap a).params.priority.toNat : ℤ) <
          (s.statics (s.plugin ch.1).dl).nPerPrio (s.heap a).cpu (s.heap a).params.priority.toNat
  | _ => True

def RR.KeepsTable (s : Sched) (o : Op) : Prop := RR.SmallPrio s o ∧ RR.CountsTaken s o

instance (s : Sched) (o : Op) : Decidable (RR.SmallPrio s o) :=
  match o with
  | .create tp ppid =>
    inferInstanceAs (Decidable (∀ ch ∈ assignee (s.alloc tp ppid) s.next, (s.plugin ch.1).kind = .rr →
      tp.priority.toNat < MAX_PRIO))
  | .change _ id =>
    inferInstanceAs (Decidable (∀ a ∈ rtfTasksetSearch s.heap s.taskset id, ∀ ch ∈ taker s a,
      (s.plugin ch.1).kind = .rr → (s.heap a).params.priority.toNat < MAX_PRIO))
  | .attach _ _ | .detach _ | .destroy _ | .delete _ => inferInstanceAs (Decidable True)

instance (s : Sched) (o : Op) : Decidable (RR.CountsTaken s o) :=
  match o with
  | .change _ id =>
    inferInstanceAs (Decidable (∀ a ∈ rtfTasksetSearch s.heap s.taskset id, ∀ ch ∈ taker s a,
      (s.plugin ch.1).kind = .rr →
        (RR.tally s.toWorld (s.taskset.root.erase a) (s.plugin ch.1).dl (s.heap a).cpu
          (s.heap a).params.priority.toNat : ℤ) <
            (s.statics (s.plugin ch.1).dl).nPerPrio (s.heap a).cpu (s.heap a).params.priority.toNat))
  | .create _ _ | .attach _ _ | .detach _ | .destroy _ | .delete _ => inferInstanceAs (Decidable True)

instance (s : Sched) (o : Op) : Decidable (RR.KeepsTable s o) := inferInstanceAs (Decidable (_ ∧ _))

/-- The table covers the taskset. -/
structure RR.Table (s : Sched) : Prop where
  sane : Sane s
  tabled : RR.Tabled s.toWorld s.taskset.root

namespace RR.Table

variable {s s' : Sched} {a : Addr} {r : Res}

/-- A new record is on no list. -/
theorem alloc (hT : RR.Table s) (tp : Params) (ppid : Pid) : RR.Tabled (s.alloc tp ppid).toWorld s.taskset.root := by
  refine hT.tabled.congr (fun _ => rfl) rfl ?_
  intro b hb
  rw [hT.sane.alloc_heap tp ppid hb]
  exact ⟨rfl, rfl, rfl⟩

theorem create {tp : Params} {ppid : Pid} (hT : RR.Table s) (h : rtfSchedulerTaskCreate s tp ppid = .ok (r, s')) :
    RR.Table s' := by
  refine ⟨sane_create hT.sane h, ?_⟩
  rcases create_ok h with ⟨-, rfl⟩ | ⟨i, w, hch, hs, rfl⟩
  · exact hT.alloc tp ppid
  · exact (hT.alloc tp ppid).place hT.sane.next_not_mem (hT.sane.ids i (assignee_some hch).1) hs

/-- The world in which the plugin that takes a task schedules it. -/
theorem taken {tp : Params} {id : UInt32} {i : ℕ} {r' : Res} {w : World} (hT : RR.Table s)
    (hg : RR.CountsTaken s (.change tp id)) (ha : rtfTasksetSearch s.heap s.taskset id = some a)
    (hc : taker s a = some (i, r)) (hr : Retif.rtfPlgTaskRelease s.toWorld i a = .ok (r', w)) :
    RR.Tabled w (s.taskset.root.erase a) := by
  have hperm := List.perm_cons_erase (rtfTasksetSearch_some ha).1
  exact (hT.tabled.perm hperm).tail.release hT.sane.nodup.not_mem_erase (hg a ha (i, r) hc) hr

theorem change {tp : Params} {id : UInt32} (hT : RR.Table s) (hg : RR.CountsTaken s (.change tp id))
    (h : rtfSchedulerTaskChange s tp id = .ok (r, s')) : RR.Table s' := by
  refine ⟨sane_change hT.sane h, ?_⟩
  rcases change_ok h with rfl | ⟨a, i, r', w, w', ha, hc, hr, hs, rfl⟩
  · exact hT.tabled
  · have hid : (w.plugin i).id = i := by
      rw [(Retif.release_released hr).info_eq]
      exact hT.sane.ids i (taker_some hc).1
    have hperm := List.perm_cons_erase (rtfTasksetSearch_some ha).1
    exact ((hT.taken hg ha hc hr).place hT.sane.nodup.not_mem_erase hid hs).perm hperm.symm

theorem removes {key : Addr → Bool} (hT : RR.Table s) (h : Removes key s a s') : RR.Table s' := by
  refine ⟨sane_removes hT.sane h, ?_⟩
  obtain ⟨-, hp, -⟩ := h.root
  obtain ⟨ts, i, r, w, -, hown, -, hr, rfl⟩ := h
  have hat := (List.nodup_cons.mp (hp.nodup_iff.mp hT.sane.nodup)).1
  have hall := hT.tabled.perm hp
  exact hall.tail.release hat (hall.more hown) hr

theorem turns {ppid : Pid} (hT : RR.Table s) (h : Relation.ReflTransGen (Turn ppid) s s') : RR.Table s' := by
  induction h with
  | refl => exact hT
  | tail _ hturn ih =>
    obtain ⟨a, hrm⟩ := hturn
    exact ih.removes hrm

/-- **One operation keeps the table above the taskset.** -/
theorem step {o : Op} (hT : RR.Table s) (hg : RR.CountsTaken s o) (h : Retif.step s o = .ok (r, s')) :
    RR.Table s' := by
  refine step_inv ?_ ?_ ?_ ?_ hT h
  · intro tp ppid _ hcreate
    exact hT.create hcreate
  · rintro tp id rfl hchange
    exact hT.change hg hchange
  · intro heap k hheap
    refine ⟨⟨hT.sane.nodup, hT.sane.fresh, hT.sane.ids⟩, hT.tabled.congr (fun _ => rfl) rfl ?_⟩
    intro b _
    show (heap b).pluginid = _ ∧ (heap b).cpu = _ ∧ (heap b).params = _
    rw [hheap b]
    exact ⟨rfl, rfl, rfl⟩
  · intro key s a s' hI hrm
    exact hI.removes hrm

theorem start {alloc : ℕ → Option ℕ} {load : List UInt8 → Option Image} {confs : List ConfPlugin}
    {plgs : List Plugin} (h : rtfPluginsInit alloc load confs = some plgs) (k : Kernel) :
    RR.Table (Sched.start plgs k) :=
  ⟨sane_start h k, fun _ _ _ => le_rfl, fun _ ha => absurd ha List.not_mem_nil⟩

/-- A task that leaves the taskset with RR has a priority the table has. -/
theorem owned {key : Addr → Bool} {ts : Taskset} {i : ℕ} (hT : RR.Table s)
    (hrm : listRemove s.taskset key = (some a, ts)) (hi : s.pluginAt (s.heap a).pluginid = .ok i)
    (hk : (s.plugin i).kind = .rr) : (s.heap a).params.priority.toNat < MAX_PRIO := by
  rcases listRemove_cases s.taskset key with ⟨hn, -⟩ | ⟨b, ts', hb, hm, -⟩
  · rw [hn] at hrm
    cases hrm
  · rw [hb] at hrm
    cases hrm
    exact hT.tabled.small a hm i (pluginAt_ok.mp hi).1 hk

end RR.Table

section Runs

variable {s : Sched} {o : Op}

/-- What RR looks up is in the table exactly when it takes tasks with priorities the table has. -/
theorem RR.prioInTable_iff (hT : RR.Table s) :
    (∀ w call, Makes s o w call → RR.PrioInTable w call) ↔ RR.SmallPrio s o := by
  constructor
  · intro h
    rcases o with ⟨tp, ppid⟩ | ⟨tp, id⟩ | ⟨id, pid⟩ | ⟨id⟩ | ⟨id⟩ | ⟨ppid⟩
    · rintro ⟨i, r⟩ hch hk
      have hprio := h _ _ (.create hch) hk
      change ((s.alloc tp ppid).heap s.next).params.priority.toNat < MAX_PRIO at hprio
      rwa [s.alloc_self] at hprio
    · rintro a ha ⟨i, r⟩ hc hk
      exact h _ _ (.change ha hc) hk
    all_goals trivial
  · rintro hg w call hm hk
    cases hm with
    | create hch =>
      show ((s.alloc _ _).heap s.next).params.priority.toNat < MAX_PRIO
      rw [s.alloc_self]
      exact hg _ hch hk
    | change ha hc => exact hg _ ha _ hc hk
    | changed ha hc hr =>
      have hR := Retif.release_released hr
      rw [hR.info_eq] at hk
      rw [hR.task_eq]
      exact hg _ ha _ hc hk
    | destroy hrm hi => exact hT.owned hrm hi hk
    | delete hturns hrm hi => exact (hT.turns hturns).owned hrm hi hk

/-- No counter is negative where RR counts it up. -/
theorem RR.counterKept (hT : RR.Table s) (hg : RR.CountsTaken s o) {w : World} {call : PlgCall}
    (hm : Makes s o w call) : RR.CounterKept w call := by
  intro _ hop c _
  cases hm with
  | create _ => exact (hT.alloc _ _).nonneg ..
  | change _ _ => cases hop
  | changed ha hc hr => exact (hT.taken hg ha hc hr).nonneg ..
  | destroy _ _ => cases hop
  | delete _ _ _ => cases hop

/-- **RR's table of priorities.** In every run in which RR takes no task with a
priority from `MAX_PRIO` on and takes down no counter that does not count the task,
the next operation looks the table up inside exactly when RR takes no such task, and
counts up no negative counter when the one RR takes down counts the task. -/
theorem prio_table_run {alloc : ℕ → Option ℕ} {load : List UInt8 → Option Image} {confs : List ConfPlugin}
    {plgs : List Plugin} {k : Kernel} (hinit : rtfPluginsInit alloc load confs = some plgs)
    (hrun : Reach step RR.KeepsTable (Sched.start plgs k) s) (o : Op) :
    ((∀ w call, Makes s o w call → RR.PrioInTable w call) ↔ RR.SmallPrio s o) ∧
      (RR.CountsTaken s o → ∀ w call, Makes s o w call → RR.CounterKept w call) := by
  have hT : RR.Table s := hrun.inv (RR.Table.start hinit k) fun s o r s' hI hg hs => hI.step hg.2 hs
  exact ⟨RR.prioInTable_iff hT, fun hg w call hm => RR.counterKept hT hg hm⟩

end Runs

/-! ### A table of priorities in use -/

namespace PrioTableExample

/-- RR on core 0. -/
def alone : List ConfPlugin := [⟨"RR".toUTF8.toList, [3], 10, 20, [0]⟩]

/-- EDF on three cores, and RR behind it on the last of them. -/
def behind : List ConfPlugin :=
  [⟨"EDF".toUTF8.toList, [1], 0, 0, [0, 1, 2]⟩, ⟨"RR".toUTF8.toList, [3], 10, 20, [2]⟩]

def plgs (confs : List ConfPlugin) : List Plugin := (rtfPluginsInit asMaps BooksExample.load confs).getD []

theorem init_alone : rtfPluginsInit asMaps BooksExample.load alone = some (plgs alone) := rfl

theorem init_behind : rtfPluginsInit asMaps BooksExample.load behind = some (plgs behind) := rfl

def start (confs : List ConfPlugin) : Sched := Sched.start (plgs confs) BooksExample.kernel

/-- A task with a declared priority. -/
def prio (priority : UInt32) : Params := { Params.zero with priority := priority }

end PrioTableExample

open PrioTableExample

theorem prio_table_three : ∃ s, runGood step RR.KeepsTable
    [.create (prio 5) 1, .create (prio 7) 2, .change (prio 9) 1, .destroy 2] (PrioTableExample.start alone) = some s ∧
      ((∀ w call, Makes s (.change (prio 99) 1) w call → RR.PrioInTable w call) ↔
        RR.SmallPrio s (.change (prio 99) 1)) ∧
      (RR.CountsTaken s (.change (prio 99) 1) →
        ∀ w call, Makes s (.change (prio 99) 1) w call → RR.CounterKept w call) := by
  have hsome : (runGood step RR.KeepsTable
      [.create (prio 5) 1, .create (prio 7) 2, .change (prio 9) 1, .destroy 2]
      (PrioTableExample.start alone)).isSome := by decide +kernel
  obtain ⟨s, hs⟩ := Option.isSome_iff_exists.mp hsome
  exact ⟨s, hs, prio_table_run init_alone (reach_runGood hs) _⟩

/-- The first task has the priority 100: RR takes it, and the table ends at 99. -/
theorem not_prio_table : ¬ ∀ (alloc : ℕ → Option ℕ) (load : List UInt8 → Option Image) (confs : List ConfPlugin)
    (plgs : List Plugin) (k : Kernel) (s : Sched) (o : Op) (w : World) (call : PlgCall),
      rtfPluginsInit alloc load confs = some plgs → Reach step (fun _ _ => True) (Sched.start plgs k) s →
        Makes s o w call → RR.PrioInTable w call ∧ RR.CounterKept w call := by
  intro h
  have htaken : assignee ((PrioTableExample.start alone).alloc (prio 100) 1) 0 = some (0, .ok) := by decide +kernel
  have hprio := (h _ _ _ _ _ _ _ _ _ init_alone .start (.create htaken)).1 (by decide +kernel)
  exact absurd hprio (by decide +kernel)

/-- Small priorities are not enough for the counters. EDF puts the third task on a core
without room for it and gives the room away to the fourth; asked again, it refuses the
third, and RR releases that, one below none. -/
theorem not_counter_kept : ¬ ∀ (alloc : ℕ → Option ℕ) (load : List UInt8 → Option Image) (confs : List ConfPlugin)
    (plgs : List Plugin) (k : Kernel) (s : Sched) (o : Op) (w : World) (call : PlgCall),
      rtfPluginsInit alloc load confs = some plgs → Reach step RR.SmallPrio (Sched.start plgs k) s →
        RR.SmallPrio s o → Makes s o w call → RR.CounterKept w call := by
  intro h
  have hend : (runGood step RR.SmallPrio
      [.create (BooksExample.params 90) 1, .create (BooksExample.params 80) 1, .create (BooksExample.params 80) 1,
        .create (BooksExample.params 100) 1] (PrioTableExample.start behind)).any (fun s =>
      RR.SmallPrio s (.change Params.zero 3) ∧ rtfTasksetSearch s.heap s.taskset 3 = some 2 ∧
        taker s 2 = some (1, .part) ∧ ((rtfPlgTaskRelease s.toWorld 1 2).toOption.any fun q =>
          (q.2.plugin 1).kind = .rr ∧ RR.leastLoadedCpu (q.2.plugin 1) = .ok 2 ∧
            (q.2.statics (q.2.plugin 1).dl).nPerPrio 2 (q.2.heap 2).params.priority.toNat = -1)) = true := by
    decide +kernel
  obtain ⟨s, hs, hv⟩ := (Option.any_eq_true _ _).mp hend
  obtain ⟨hsmall, hfound, htaken, hq⟩ := of_decide_eq_true hv
  obtain ⟨⟨r, w⟩, hok, hw⟩ := (Option.any_eq_true _ _).mp hq
  obtain ⟨hkind, hcpu, hcount⟩ := of_decide_eq_true hw
  have hkept := h _ _ _ _ _ s _ w ⟨1, .schedule, 2⟩ init_behind (reach_runGood hs) hsmall
    (.changed hfound htaken (toOption_ok hok))
  have hnonneg := hkept hkind rfl 2 hcpu
  rw [hcount] at hnonneg
  exact absurd hnonneg (by decide)

end Retif
