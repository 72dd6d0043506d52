/-
# What scheduling and releasing a task change

One statement for the four plugins, from which every invariant is derived:
`Placed` says what `rtf_plg_task_schedule` of plugin `i` changes when it puts
task `a` on core `c`, `Released` what `rtf_plg_task_release` changes when it
takes `a` off the core its record names. The plugins differ in whether they
keep utilisations (EDF, RM) and lists (RM, RR).

`rtf_plg_task_change` puts back what it takes (`askChange_ok`), so choosing a
plugin changes nothing (`selectPlugin_ok`).

Key definitions: `CoresInTables`, `Fenced`, `Placed`, `Released`.
Key theorems: `schedule_placed`, `release_released`, `selectPlugin_ok`.
-/
import Retif.Scheduler

namespace Retif

open CList

/-- EDF and RM keep the free utilisation of their cores. -/
def Kind.keepsUtil : Kind → Bool
  | .edf | .rm => true
  | .rr | .fp => false

/-- RM and RR keep the tasks of a core in a list. -/
def Kind.keepsList : Kind → Bool
  | .rm | .rr => true
  | .edf | .fp => false

/-- The policy the plugin's threads run under. -/
def Kind.policy : Kind → Policy
  | .edf => .deadline
  | .rm => .fifo
  | .rr => .rr
  | .fp => .fifo

/-- Every core of the plugin has an entry, and one in the static tables if the
plugin keeps some. -/
def Roomy (this : PluginInfo) : Prop :=
  ∀ c ∈ this.cpulist, this.InTable c ∧ (this.kind.keepsList → c < MAX_CPU)

instance (this : PluginInfo) : Decidable (Roomy this) := by
  unfold Roomy; infer_instance

/-- Every plugin below `n` has a core, and every core of it an entry in each table it is looked up in. -/
def CoresInTables (n : ℕ) (w : World) : Prop :=
  ∀ i < n, (w.plugin i).cpulist ≠ [] ∧ Roomy (w.plugin i).toPluginInfo

instance (n : ℕ) (w : World) : Decidable (CoresInTables n w) := by
  unfold CoresInTables; infer_instance

/-- The static tables of RM and RR have an entry for `t`: for its core, and in
RR for its declared priority. -/
def Fenced (this : PluginInfo) (t : Task) : Prop :=
  (this.kind.keepsList → t.cpu < MAX_CPU) ∧ (this.kind = .rr → t.params.priority.toNat < MAX_PRIO)

instance (this : PluginInfo) (t : Task) : Decidable (Fenced this t) := by
  unfold Fenced; infer_instance

/-- Plugin `i` put task `a` on core `c`. -/
structure Placed (w : World) (i : ℕ) (a : Addr) (c : ℕ) (w' : World) : Prop where
  mem : c ∈ (w.plugin i).cpulist
  inTable : (w.plugin i).InTable c
  others : ∀ j, j ≠ i → w'.plugin j = w.plugin j
  info : (w'.plugin i).toPluginInfo = (w.plugin i).toPluginInfo
  count : (w'.plugin i).taskCountPercpu =
    Function.update (w.plugin i).taskCountPercpu c ((w.plugin i).taskCountPercpu c + 1)
  util : (w'.plugin i).utilFreePercpu =
    if (w.plugin i).kind.keepsUtil then
      Function.update (w.plugin i).utilFreePercpu c ((w.plugin i).utilFreePercpu c - (w'.heap a).acceptedu)
    else (w.plugin i).utilFreePercpu
  list : ∀ d, ((w'.plugin i).tasks d).root.Perm
    (if (w.plugin i).kind.keepsList ∧ d = c then a :: ((w.plugin i).tasks d).root
      else ((w.plugin i).tasks d).root)
  statics : ∀ d, d ≠ (w.plugin i).dl → w'.statics d = w.statics d
  task : w'.heap a = { w.heap a with
    cpu := c, pluginid := (w.plugin i).id, schedprio := (w'.heap a).schedprio,
    acceptedt := (w'.heap a).acceptedt, acceptedu := (w'.heap a).acceptedu }
  rest : ∀ b, b ≠ a → w'.heap b = { w.heap b with schedprio := (w'.heap b).schedprio }
  away : ∀ b, b ≠ a → b ∉ ((w.plugin i).tasks c).root → w'.heap b = w.heap b
  kernel : w'.kernel = w.kernel

/-- Plugin `i` took task `a` off the core its record names. -/
structure Released (w : World) (i : ℕ) (a : Addr) (r : Res) (w' : World) : Prop where
  inTable : (w.plugin i).InTable (w.heap a).cpu
  others : ∀ j, j ≠ i → w'.plugin j = w.plugin j
  info : (w'.plugin i).toPluginInfo = (w.plugin i).toPluginInfo
  count : (w'.plugin i).taskCountPercpu = Function.update (w.plugin i).taskCountPercpu (w.heap a).cpu
    ((w.plugin i).taskCountPercpu (w.heap a).cpu - 1)
  util : (w'.plugin i).utilFreePercpu =
    if (w.plugin i).kind.keepsUtil then
      Function.update (w.plugin i).utilFreePercpu (w.heap a).cpu
        ((w.plugin i).utilFreePercpu (w.heap a).cpu + (w.heap a).acceptedu)
    else (w.plugin i).utilFreePercpu
  list : ∀ d, (w'.plugin i).tasks d =
    if (w.plugin i).kind.keepsList ∧ d = (w.heap a).cpu then
      (rtfTasksetRemoveByRsvid w.heap ((w.plugin i).tasks d) (w.heap a).id).2
    else (w.plugin i).tasks d
  statics : ∀ d, d ≠ (w.plugin i).dl → w'.statics d = w.statics d
  heap : w'.heap = Function.update w.heap a { w.heap a with pluginid := -1 }
  answer : (r, w'.kernel) = releaseThread (w.plugin i).kind.policy w.kernel (w.heap a)

/-- The records once RM or RR has noted the core and the plugin of `a`. -/
def World.assign (w : World) (i : ℕ) (a : Addr) (c : ℕ) : Heap :=
  Function.update w.heap a { w.heap a with cpu := c, pluginid := (w.plugin i).id }

theorem World.assign_self (w : World) (i : ℕ) (a : Addr) (c : ℕ) :
    w.assign i a c a = { w.heap a with cpu := c, pluginid := (w.plugin i).id } := Function.update_self ..

theorem World.assign_ne (w : World) (i : ℕ) {a b : Addr} (hb : b ≠ a) (c : ℕ) : w.assign i a c b = w.heap b :=
  Function.update_of_ne hb _ _

/-! ### Scheduling

Each function is inverted once (`schedule_ok`): the core, the books and the records it leaves. -/

theorem EDF.grant_ok {this : Plugin} {t t' : Task} (h : EDF.grant this t = .ok t') :
    ∃ x u, t' = { t with acceptedt := x, acceptedu := u } := by
  unfold EDF.grant at h
  split at h
  · cases h
    exact ⟨_, _, rfl⟩
  · obtain ⟨r, -, h⟩ := bind_ok.mp h
    split at h
    · cases h
      exact ⟨_, _, rfl⟩
    · obtain ⟨v, -, h⟩ := bind_ok.mp h
      cases h
      exact ⟨_, _, rfl⟩

/-- EDF puts the task it grants on the core it names. -/
theorem EDF.schedule_ok {w w' : World} {i : ℕ} {a : Addr} (h : EDF.rtfPlgTaskSchedule w i a = .ok w') :
    ∃ c t, EDF.leastLoadedCpu (w.plugin i) = .ok c ∧ (w.plugin i).InTable c ∧ t.cpu = c ∧
      EDF.grant (w.plugin i) { w.heap a with cpu := c, pluginid := (w.plugin i).id } = .ok t ∧
      w' = (w.setTask a t).setPlugin i { w.plugin i with
        utilFreePercpu := Function.update (w.plugin i).utilFreePercpu c ((w.plugin i).utilFreePercpu c + -t.acceptedu)
        taskCountPercpu := Function.update (w.plugin i).taskCountPercpu c ((w.plugin i).taskCountPercpu c + 1) } := by
  obtain ⟨c, hc, h⟩ := bind_ok.mp h
  obtain ⟨t, ht, h⟩ := bind_ok.mp h
  obtain ⟨p, hp, h⟩ := bind_ok.mp h
  obtain ⟨p', hp', h⟩ := bind_ok.mp h
  obtain rfl := Except.ok.inj h
  have hcpu : t.cpu = c := by
    obtain ⟨x, u, rfl⟩ := EDF.grant_ok ht
    rfl
  rw [hcpu] at hp hp'
  obtain ⟨h1, rfl⟩ := addUtil_ok hp
  obtain ⟨-, rfl⟩ := addCount_ok hp'
  exact ⟨c, t, hc, h1, hcpu, ht, rfl⟩

theorem EDF.schedule_placed {w w' : World} {i : ℕ} {a : Addr} (hk : (w.plugin i).kind = .edf)
    (h : EDF.rtfPlgTaskSchedule w i a = .ok w') : ∃ c, Placed w i a c w' := by
  obtain ⟨c, t, hc, h1, -, ht, rfl⟩ := EDF.schedule_ok h
  obtain ⟨x, u, rfl⟩ := EDF.grant_ok ht
  refine ⟨c, (leastLoaded_mem hc).1, h1, ?_, ?_, ?_, ?_, ?_, ?_, ?_, ?_, ?_, rfl⟩
  · intro j hj
    simp [World.setPlugin, World.setTask, hj]
  · simp [World.setPlugin]
  · simp [World.setPlugin]
  · simp [World.setPlugin, World.setTask, hk, Kind.keepsUtil, sub_eq_add_neg]
  · intro d
    simp [World.setPlugin, hk, Kind.keepsList]
  · exact fun d _ => rfl
  · simp [World.setPlugin, World.setTask]
  · intro b hb
    simp [World.setPlugin, World.setTask, hb]
  · intro b hb _
    simp [World.setPlugin, World.setTask, hb]

theorem FP.schedule_ok {w w' : World} {i : ℕ} {a : Addr} (h : FP.rtfPlgTaskSchedule w i a = .ok w') :
    ∃ c, FP.leastLoadedCpu (w.plugin i) = .ok c ∧ (w.plugin i).InTable c ∧
      w' = (w.setTask a { w.heap a with
          cpu := c
          pluginid := (w.plugin i).id
          schedprio := FP.realPriority (w.plugin i) (rtfTaskGetPriority (w.heap a)) }).setPlugin i { w.plugin i with
        taskCountPercpu := Function.update (w.plugin i).taskCountPercpu c ((w.plugin i).taskCountPercpu c + 1) } := by
  obtain ⟨c, hc, h⟩ := bind_ok.mp h
  obtain ⟨p, hp, h⟩ := bind_ok.mp h
  obtain rfl := Except.ok.inj h
  obtain ⟨h1, rfl⟩ := addCount_ok hp
  exact ⟨c, hc, h1, rfl⟩

theorem FP.schedule_placed {w w' : World} {i : ℕ} {a : Addr} (hk : (w.plugin i).kind = .fp)
    (h : FP.rtfPlgTaskSchedule w i a = .ok w') : ∃ c, Placed w i a c w' := by
  obtain ⟨c, hc, h1, rfl⟩ := FP.schedule_ok h
  refine ⟨c, (leastLoaded_mem hc).1, h1, ?_, ?_, ?_, ?_, ?_, ?_, ?_, ?_, ?_, rfl⟩
  · intro j hj
    simp [World.setPlugin, World.setTask, hj]
  · simp [World.setPlugin]
  · simp [World.setPlugin]
  · simp [World.setPlugin, World.setTask, hk, Kind.keepsUtil]
  · intro d
    simp [World.setPlugin, hk, Kind.keepsList]
  · exact fun d _ => rfl
  · simp [World.setPlugin, World.setTask]
  · intro b hb
    simp [World.setPlugin, World.setTask, hb]
  · intro b hb _
    simp [World.setPlugin, World.setTask, hb]

/-- A walk over a list that holds `a`: real priorities change, on the list only. -/
theorem RM.assignPriorities_frame (this : Plugin) (st : Statics) (heap : Heap) (c : ℕ) :
    SamePrio heap (RM.assignPriorities this st heap c) ∧
      ∀ b, b ∉ (this.tasks c).root → RM.assignPriorities this st heap c b = heap b := by
  unfold RM.assignPriorities
  dsimp only
  split
  · exact ⟨rankLoop_samePrio _ _ _ _ _ _ _, fun b hb => rankLoop_frame _ _ _ _ _ _ _ hb⟩
  · exact ⟨rankLoop_samePrio _ _ _ _ _ _ _, fun b hb => rankLoop_frame _ _ _ _ _ _ _ hb⟩

theorem RR.assignPriorities_frame (this : Plugin) (st : Statics) (heap : Heap) (c : ℕ) :
    SamePrio heap (RR.assignPriorities this st heap c) ∧
      ∀ b, b ∉ (this.tasks c).root → RR.assignPriorities this st heap c b = heap b := by
  unfold RR.assignPriorities
  dsimp only
  split
  · exact ⟨mapLoop_samePrio _ _ _, fun b hb => mapLoop_frame _ _ _ hb⟩
  · exact ⟨rankLoop_samePrio _ _ _ _ _ _ _, fun b hb => rankLoop_frame _ _ _ _ _ _ _ hb⟩

/-- A task that is not on the list of the core is not on it when `a` has been put there. -/
theorem setTasks_not_mem {this : Plugin} {c : ℕ} {ts : Taskset} {a b : Addr}
    (hperm : ts.root.Perm (a :: (this.tasks c).root)) (hb : b ≠ a) (hbl : b ∉ (this.tasks c).root) :
    b ∉ ((this.setTasks c ts).tasks c).root := by
  rw [Plugin.setTasks_self, hperm.mem_iff, List.mem_cons, not_or]
  exact ⟨hb, hbl⟩

theorem RM.rank_frame {this : Plugin} {st st' : Statics} {heap heap' : Heap} {a : Addr} {c : ℕ}
    {behind : List Addr} (h : RM.rank this st heap a c behind = .ok (st', heap')) :
    SamePrio heap heap' ∧ ∀ b, b ≠ a → b ∉ (this.tasks c).root → heap' b = heap b := by
  unfold RM.rank at h
  split at h
  · cases h
    exact ⟨samePrio_update heap a _, fun b hb _ => Function.update_of_ne hb _ _⟩
  · obtain ⟨_, -, h⟩ := bind_ok.mp h
    cases h
    obtain ⟨h1, h2⟩ := RM.assignPriorities_frame this (st.addDist c 1) heap c
    exact ⟨h1, fun b _ hb => h2 b hb⟩

theorem RR.rank_frame {this : Plugin} {st st' : Statics} {heap heap' : Heap} {a : Addr} {c : ℕ}
    {behind : List Addr} (h : RR.rank this st heap a c behind = .ok (st', heap')) :
    SamePrio heap heap' ∧ ∀ b, b ≠ a → b ∉ (this.tasks c).root → heap' b = heap b := by
  unfold RR.rank at h
  split at h
  · cases h
    obtain ⟨h1, h2⟩ := RR.assignPriorities_frame this (st.addDist c 1) heap c
    exact ⟨h1, fun b _ hb => h2 b hb⟩
  · split at h
    · cases h
    · cases h
      exact ⟨samePrio_update heap a _, fun b hb _ => Function.update_of_ne hb _ _⟩

theorem rtfTasksetAddSortedPr_perm (heap : Heap) (ts : Taskset) (a : Addr) :
    (rtfTasksetAddSortedPr heap ts a).1.root.Perm (a :: ts.root) := by
  unfold rtfTasksetAddSortedPr
  rw [(listAddSorted_eq ts a _).1]
  exact addSeek_perm a _ ts.root

theorem rtfTasksetAddSortedPrio_perm (heap : Heap) (ts : Taskset) (a : Addr) :
    (rtfTasksetAddSortedPrio heap ts a).1.root.Perm (a :: ts.root) := by
  unfold rtfTasksetAddSortedPrio
  rw [(listAddSorted_eq ts a _).1]
  exact addSeek_perm a _ ts.root

/-- RM notes the place of the task, puts it on the list, ranks it and grants it its runtime. -/
theorem RM.schedule_ok {w w' : World} {i : ℕ} {a : Addr} (h : RM.rtfPlgTaskSchedule w i a = .ok w') :
    ∃ c st heap u, RM.leastLoadedCpu (w.plugin i) = .ok c ∧
      RM.rank ((w.plugin i).setTasks c (rtfTasksetAddSortedPr (w.assign i a c) ((w.plugin i).tasks c) a).1)
        (w.statics (w.plugin i).dl) (w.assign i a c) a c
        (rtfTasksetAddSortedPr (w.assign i a c) ((w.plugin i).tasks c) a).2 = .ok (st, heap) ∧
      (heap a).cpu = c ∧ u = (if rtfTaskGetUtil (w.heap a) ≠ -1 then rtfTaskGetUtil (w.heap a) else 0) ∧
      w' = (({ w with heap := heap }.setTask a { heap a with
          acceptedt := rtfTaskGetRuntime (heap a)
          acceptedu := u }).setPlugin i
        { (w.plugin i).setTasks c (rtfTasksetAddSortedPr (w.assign i a c) ((w.plugin i).tasks c) a).1 with
          utilFreePercpu := Function.update (w.plugin i).utilFreePercpu c ((w.plugin i).utilFreePercpu c + -u)
          taskCountPercpu := Function.update (w.plugin i).taskCountPercpu c
            ((w.plugin i).taskCountPercpu c + 1) }).setStatics (w.plugin i).dl st := by
  obtain ⟨c, hc, h⟩ := bind_ok.mp h
  obtain ⟨ts, hts, h⟩ := bind_ok.mp h
  obtain ⟨⟨st, heap⟩, hr, h⟩ := bind_ok.mp h
  obtain ⟨p, hp, h⟩ := bind_ok.mp h
  obtain ⟨p', hp', h⟩ := bind_ok.mp h
  obtain rfl := Except.ok.inj h
  obtain ⟨-, rfl⟩ := read_ok.mp hts
  have hcpu : (heap a).cpu = c := by rw [(RM.rank_frame hr).1 a, Function.update_self]
  dsimp only at hp hp'
  rw [hcpu] at hp hp'
  obtain ⟨-, rfl⟩ := addUtil_ok hp
  obtain ⟨-, rfl⟩ := addCount_ok hp'
  exact ⟨c, st, heap, _, hc, hr, hcpu, rfl, rfl⟩

theorem RM.schedule_placed {w w' : World} {i : ℕ} {a : Addr} (hk : (w.plugin i).kind = .rm)
    (h : RM.rtfPlgTaskSchedule w i a = .ok w') : ∃ c, Placed w i a c w' := by
  obtain ⟨c, st, heap, u, hc, hr, hcpu, -, rfl⟩ := RM.schedule_ok h
  obtain ⟨hsame, haway⟩ := RM.rank_frame hr
  have hperm := rtfTasksetAddSortedPr_perm (w.assign i a c) ((w.plugin i).tasks c) a
  have ha := hsame a
  rw [World.assign_self] at ha
  refine ⟨c, (leastLoaded_mem hc).1, (leastLoaded_mem hc).2, ?_, ?_, ?_, ?_, ?_, ?_, ?_, ?_, ?_, rfl⟩
  · intro j hj
    simp [World.setPlugin, World.setTask, World.setStatics, hj]
  · simp [World.setPlugin, World.setStatics, Plugin.setTasks]
  · simp [World.setPlugin, World.setStatics, Plugin.setTasks, hcpu]
  · simp [World.setPlugin, World.setTask, World.setStatics, Plugin.setTasks, hk, Kind.keepsUtil, sub_eq_add_neg, hcpu]
  · intro d
    simp only [World.setPlugin, World.setTask, World.setStatics, Plugin.setTasks, Function.update_self, hk,
      Kind.keepsList, true_and]
    by_cases hd : d = c
    · subst hd
      rw [Function.update_self, if_pos rfl]
      exact hperm
    · rw [Function.update_of_ne hd, if_neg hd]
  · intro d hd
    exact Function.update_of_ne hd _ _
  · simp only [World.setPlugin, World.setTask, World.setStatics, Function.update_self]
    rw [ha]
  · intro b hb
    have hkeep := hsame b
    rw [w.assign_ne i hb] at hkeep
    simpa [World.setPlugin, World.setTask, World.setStatics, hb] using hkeep
  · intro b hb hbl
    have hkeep := haway b hb (setTasks_not_mem hperm hb hbl)
    rw [w.assign_ne i hb] at hkeep
    simpa [World.setPlugin, World.setTask, World.setStatics, hb] using hkeep

/-- RR notes the place of the task, counts it, puts it on the list and ranks it. -/
theorem RR.schedule_ok {w w' : World} {i : ℕ} {a : Addr} (h : RR.rtfPlgTaskSchedule w i a = .ok w') :
    ∃ c st heap, RR.leastLoadedCpu (w.plugin i) = .ok c ∧ checkPrio c (w.heap a).params.priority = .ok () ∧
      RR.rank ((w.plugin i).setTasks c (rtfTasksetAddSortedPrio (w.assign i a c) ((w.plugin i).tasks c) a).1)
        ((w.statics (w.plugin i).dl).addPerPrio c (w.heap a).params.priority 1) (w.assign i a c) a c
        (rtfTasksetAddSortedPrio (w.assign i a c) ((w.plugin i).tasks c) a).2 = .ok (st, heap) ∧
      (heap a).cpu = c ∧
      w' = ({ w with heap := heap }.setPlugin i
        { (w.plugin i).setTasks c (rtfTasksetAddSortedPrio (w.assign i a c) ((w.plugin i).tasks c) a).1 with
          taskCountPercpu := Function.update (w.plugin i).taskCountPercpu c
            ((w.plugin i).taskCountPercpu c + 1) }).setStatics (w.plugin i).dl st := by
  obtain ⟨c, hc, h⟩ := bind_ok.mp h
  obtain ⟨_, hprio, h⟩ := bind_ok.mp h
  obtain ⟨ts, hts, h⟩ := bind_ok.mp h
  obtain ⟨⟨st, heap⟩, hr, h⟩ := bind_ok.mp h
  obtain ⟨p, hp, h⟩ := bind_ok.mp h
  obtain rfl := Except.ok.inj h
  obtain ⟨-, rfl⟩ := read_ok.mp hts
  have hcpu : (heap a).cpu = c := by rw [(RR.rank_frame hr).1 a, Function.update_self]
  dsimp only at hp
  rw [hcpu] at hp
  obtain ⟨-, rfl⟩ := addCount_ok hp
  rw [Function.update_self] at hprio hr
  exact ⟨c, st, heap, hc, hprio, hr, hcpu, rfl⟩

theorem RR.schedule_placed {w w' : World} {i : ℕ} {a : Addr} (hk : (w.plugin i).kind = .rr)
    (h : RR.rtfPlgTaskSchedule w i a = .ok w') : ∃ c, Placed w i a c w' := by
  obtain ⟨c, st, heap, hc, -, hr, hcpu, rfl⟩ := RR.schedule_ok h
  obtain ⟨hsame, haway⟩ := RR.rank_frame hr
  have hperm := rtfTasksetAddSortedPrio_perm (w.assign i a c) ((w.plugin i).tasks c) a
  have ha := hsame a
  rw [World.assign_self] at ha
  refine ⟨c, (leastLoaded_mem hc).1, (leastLoaded_mem hc).2, ?_, ?_, ?_, ?_, ?_, ?_, ?_, ?_, ?_, rfl⟩
  · intro j hj
    simp [World.setPlugin, World.setStatics, hj]
  · simp [World.setPlugin, World.setStatics, Plugin.setTasks]
  · simp [World.setPlugin, World.setStatics, Plugin.setTasks]
  · simp [World.setPlugin, World.setStatics, Plugin.setTasks, hk, Kind.keepsUtil]
  · intro d
    simp only [World.setPlugin, World.setStatics, Plugin.setTasks, Function.update_self, hk,
      Kind.keepsList, true_and]
    by_cases hd : d = c
    · subst hd
      rw [Function.update_self, if_pos rfl]
      exact hperm
    · rw [Function.update_of_ne hd, if_neg hd]
  · intro d hd
    exact Function.update_of_ne hd _ _
  · simp only [World.setPlugin, World.setStatics]
    rw [ha]
  · intro b hb
    have hkeep := hsame b
    rw [w.assign_ne i hb] at hkeep
    exact hkeep
  · intro b hb hbl
    have hkeep := haway b hb (setTasks_not_mem hperm hb hbl)
    rw [w.assign_ne i hb] at hkeep
    exact hkeep

/-- **What scheduling changes**, whichever plugin schedules. -/
theorem schedule_placed {w w' : World} {i : ℕ} {a : Addr} (h : rtfPlgTaskSchedule w i a = .ok w') :
    ∃ c, Placed w i a c w' := by
  unfold rtfPlgTaskSchedule at h
  split at h
  · rename_i hk; exact EDF.schedule_placed hk h
  · rename_i hk; exact RM.schedule_placed hk h
  · rename_i hk; exact RR.schedule_placed hk h
  · rename_i hk; exact FP.schedule_placed hk h

/-! ### Releasing -/

theorem EDF.release_released {w w' : World} {i : ℕ} {a : Addr} {r : Res} (hk : (w.plugin i).kind = .edf)
    (h : EDF.rtfPlgTaskRelease w i a = .ok (r, w')) : Released w i a r w' := by
  obtain ⟨p, hp, h⟩ := bind_ok.mp h
  obtain ⟨p', hp', h⟩ := bind_ok.mp h
  cases h
  obtain ⟨h1, rfl⟩ := addUtil_ok hp
  obtain ⟨-, rfl⟩ := addCount_ok hp'
  refine ⟨h1, ?_, ?_, ?_, ?_, ?_, fun d _ => rfl, rfl, ?_⟩
  · intro j hj
    simp [World.setPlugin, World.setTask, hj]
  · simp [World.setPlugin, World.setTask]
  · simp [World.setPlugin, World.setTask, sub_eq_add_neg]
  · simp [World.setPlugin, World.setTask, hk, Kind.keepsUtil]
  · intro d
    simp [World.setPlugin, World.setTask, hk, Kind.keepsList]
  · rw [hk]; rfl

theorem FP.release_released {w w' : World} {i : ℕ} {a : Addr} {r : Res} (hk : (w.plugin i).kind = .fp)
    (h : FP.rtfPlgTaskRelease w i a = .ok (r, w')) : Released w i a r w' := by
  obtain ⟨p, hp, h⟩ := bind_ok.mp h
  cases h
  obtain ⟨h1, rfl⟩ := addCount_ok hp
  refine ⟨h1, ?_, ?_, ?_, ?_, ?_, fun d _ => rfl, rfl, ?_⟩
  · intro j hj
    simp [World.setPlugin, World.setTask, hj]
  · simp [World.setPlugin, World.setTask]
  · simp [World.setPlugin, World.setTask, sub_eq_add_neg]
  · simp [World.setPlugin, World.setTask, hk, Kind.keepsUtil]
  · intro d
    simp [World.setPlugin, World.setTask, hk, Kind.keepsList]
  · rw [hk]; rfl

/-- RM gives back a utilisation that is not 0; giving back 0 is the same. -/
theorem RM.giveBack_ok {this p : Plugin} {c : ℕ} {u : ℚ}
    (h : RM.giveBack this c u = .ok p) :
    p = { this with utilFreePercpu := Function.update this.utilFreePercpu c (this.utilFreePercpu c + u) } := by
  unfold RM.giveBack at h
  split at h
  · exact (addUtil_ok h).2
  · rename_i hu
    cases h
    rw [not_not.mp hu, add_zero, Function.update_eq_self]

theorem RM.release_released {w w' : World} {i : ℕ} {a : Addr} {r : Res} (hk : (w.plugin i).kind = .rm)
    (h : RM.rtfPlgTaskRelease w i a = .ok (r, w')) : Released w i a r w' := by
  obtain ⟨ts, hts, h⟩ := bind_ok.mp h
  obtain ⟨st, hst, h⟩ := bind_ok.mp h
  obtain ⟨p, hp, h⟩ := bind_ok.mp h
  obtain ⟨p', hp', h⟩ := bind_ok.mp h
  cases h
  obtain ⟨h1, rfl⟩ := read_ok.mp hts
  obtain rfl := RM.giveBack_ok hp
  obtain ⟨-, rfl⟩ := addCount_ok hp'
  refine ⟨h1, ?_, ?_, ?_, ?_, ?_, ?_, rfl, ?_⟩
  · intro j hj
    simp [World.setPlugin, World.setTask, World.setStatics, hj]
  · simp [World.setPlugin, World.setTask, World.setStatics, Plugin.setTasks]
  · simp [World.setPlugin, World.setTask, World.setStatics, Plugin.setTasks, sub_eq_add_neg]
  · simp [World.setPlugin, World.setTask, World.setStatics, Plugin.setTasks, hk, Kind.keepsUtil]
  · intro d
    by_cases hd : d = (w.heap a).cpu
    · subst hd
      simp [World.setPlugin, World.setTask, World.setStatics, Plugin.setTasks, hk, Kind.keepsList]
    · simp [World.setPlugin, World.setTask, World.setStatics, Plugin.setTasks, hd]
  · intro d hd
    exact Function.update_of_ne hd _ _
  · rw [hk]; rfl

theorem RR.release_released {w w' : World} {i : ℕ} {a : Addr} {r : Res} (hk : (w.plugin i).kind = .rr)
    (h : RR.rtfPlgTaskRelease w i a = .ok (r, w')) : Released w i a r w' := by
  obtain ⟨p, hp, h⟩ := bind_ok.mp h
  obtain ⟨_, -, h⟩ := bind_ok.mp h
  obtain ⟨ts, hts, h⟩ := bind_ok.mp h
  cases h
  obtain ⟨h1, rfl⟩ := addCount_ok hp
  obtain ⟨-, rfl⟩ := read_ok.mp hts
  refine ⟨h1, ?_, ?_, ?_, ?_, ?_, ?_, rfl, ?_⟩
  · intro j hj
    simp [World.setPlugin, World.setTask, World.setStatics, hj]
  · simp [World.setPlugin, World.setTask, World.setStatics, Plugin.setTasks]
  · simp [World.setPlugin, World.setTask, World.setStatics, Plugin.setTasks, sub_eq_add_neg]
  · simp [World.setPlugin, World.setTask, World.setStatics, Plugin.setTasks, hk, Kind.keepsUtil]
  · intro d
    by_cases hd : d = (w.heap a).cpu
    · subst hd
      simp [World.setPlugin, World.setTask, World.setStatics, Plugin.setTasks, hk, Kind.keepsList]
    · simp [World.setPlugin, World.setTask, World.setStatics, Plugin.setTasks, hd]
  · intro d hd
    exact Function.update_of_ne hd _ _
  · rw [hk]; rfl

theorem RM.uncount_ok {st st' : Statics} {c : ℕ} {twin : Bool} (h : RM.uncount st c twin = .ok st') :
    st' = if twin then st.addDist c (-1) else st := by
  unfold RM.uncount at h
  split at h
  · rename_i htwin
    obtain ⟨_, -, h⟩ := bind_ok.mp h
    cases h
    rw [if_pos htwin]
  · rename_i htwin
    cases h
    rw [if_neg htwin]

/-- RM counts a period off when another task of the list has it. -/
theorem RM.release_statics {w w' : World} {i : ℕ} {a : Addr} {r : Res} (h : RM.rtfPlgTaskRelease w i a = .ok (r, w')) :
    w'.statics (w.plugin i).dl =
      if RM.hasTwin w.heap (w.heap a) ((w.plugin i).tasks (w.heap a).cpu).root then
        (w.statics (w.plugin i).dl).addDist (w.heap a).cpu (-1)
      else w.statics (w.plugin i).dl := by
  obtain ⟨ts, hts, h⟩ := bind_ok.mp h
  obtain ⟨st, hst, h⟩ := bind_ok.mp h
  obtain ⟨p, hp, h⟩ := bind_ok.mp h
  obtain ⟨p', hp', h⟩ := bind_ok.mp h
  cases h
  obtain ⟨-, rfl⟩ := read_ok.mp hts
  obtain rfl := RM.giveBack_ok hp
  obtain ⟨-, rfl⟩ := addCount_ok hp'
  rw [← RM.uncount_ok hst]
  exact Function.update_self ..

/-- RR counts the task off. -/
theorem RR.release_statics {w w' : World} {i : ℕ} {a : Addr} {r : Res} (h : RR.rtfPlgTaskRelease w i a = .ok (r, w')) :
    w'.statics (w.plugin i).dl =
      RR.uncount (w.statics (w.plugin i).dl) (w.heap a).cpu (w.heap a).params.priority := by
  obtain ⟨p, hcount, h⟩ := bind_ok.mp h
  obtain ⟨_, -, h⟩ := bind_ok.mp h
  obtain ⟨ts, hts, h⟩ := bind_ok.mp h
  cases h
  obtain ⟨-, rfl⟩ := addCount_ok hcount
  exact Function.update_self ..

/-- **What releasing changes**, whichever plugin releases. -/
theorem release_released {w w' : World} {i : ℕ} {a : Addr} {r : Res}
    (h : rtfPlgTaskRelease w i a = .ok (r, w')) : Released w i a r w' := by
  unfold rtfPlgTaskRelease at h
  split at h
  · rename_i hk; exact EDF.release_released hk h
  · rename_i hk; exact RM.release_released hk h
  · rename_i hk; exact RR.release_released hk h
  · rename_i hk; exact FP.release_released hk h

/-! ### What the two moves leave alone -/

section Moves

variable {w w' : World} {i : ℕ} {a : Addr} {c : ℕ} {r : Res}

theorem Placed.info_eq (h : Placed w i a c w') (j : ℕ) : (w'.plugin j).toPluginInfo = (w.plugin j).toPluginInfo := by
  by_cases hj : j = i
  · rw [hj, h.info]
  · rw [h.others j hj]

theorem Released.info_eq (h : Released w i a r w') (j : ℕ) :
    (w'.plugin j).toPluginInfo = (w.plugin j).toPluginInfo := by
  by_cases hj : j = i
  · rw [hj, h.info]
  · rw [h.others j hj]

/-- A task's identity and parameters survive any scheduling. -/
theorem Placed.task_eq (h : Placed w i a c w') (b : Addr) :
    (w'.heap b).id = (w.heap b).id ∧ (w'.heap b).ptid = (w.heap b).ptid ∧ (w'.heap b).tid = (w.heap b).tid ∧
      (w'.heap b).params = (w.heap b).params := by
  by_cases hb : b = a
  · rw [hb, h.task]
    exact ⟨rfl, rfl, rfl, rfl⟩
  · rw [h.rest b hb]
    exact ⟨rfl, rfl, rfl, rfl⟩

theorem Released.task_eq (h : Released w i a r w') (b : Addr) :
    w'.heap b = { w.heap b with pluginid := (w'.heap b).pluginid } := by
  rw [h.heap]
  by_cases hb : b = a
  · rw [hb, Function.update_self]
  · rw [Function.update_of_ne hb]

theorem Released.heap_ne (h : Released w i a r w') {b : Addr} (hb : b ≠ a) : w'.heap b = w.heap b := by
  rw [h.heap, Function.update_of_ne hb]

end Moves

/-! ### Choosing -/

/-- Adding and taking back a utilisation leaves the plugin as it was. -/
theorem addUtil_cancel {this p p' : Plugin} {c : ℕ} {u : ℚ} (h1 : this.addUtil c u = .ok p)
    (h2 : p.addUtil c (-u) = .ok p') : p' = this := by
  obtain ⟨-, rfl⟩ := addUtil_ok h1
  obtain ⟨-, rfl⟩ := addUtil_ok h2
  simp

theorem EDF.change_plugin {this p : Plugin} {t : Task} {r : Res} (h : EDF.rtfPlgTaskChange this t = .ok (r, p)) :
    p = this := by
  unfold EDF.rtfPlgTaskChange at h
  split at h
  · obtain ⟨p1, h1, h⟩ := bind_ok.mp h
    obtain ⟨r1, -, h⟩ := bind_ok.mp h
    obtain ⟨p2, h2, h⟩ := bind_ok.mp h
    cases h
    exact addUtil_cancel h1 h2
  · obtain ⟨r1, -, h⟩ := bind_ok.mp h
    cases h
    rfl

theorem RM.change_plugin {this p : Plugin} {t : Task} {r : Res} (h : RM.rtfPlgTaskChange this t = .ok (r, p)) :
    p = this := by
  unfold RM.rtfPlgTaskChange at h
  split at h
  · obtain ⟨p1, h1, h⟩ := bind_ok.mp h
    obtain ⟨r1, -, h⟩ := bind_ok.mp h
    obtain ⟨p2, h2, h⟩ := bind_ok.mp h
    cases h
    exact addUtil_cancel h1 h2
  · obtain ⟨r1, -, h⟩ := bind_ok.mp h
    cases h
    rfl

theorem change_plugin {this p : Plugin} {t : Task} {r : Res} (h : rtfPlgTaskChange this t = .ok (r, p)) :
    p = this := by
  unfold rtfPlgTaskChange at h
  split at h
  · exact EDF.change_plugin h
  · exact RM.change_plugin h
  · cases h; rfl
  · cases h; rfl

/-- A question that changes nothing. -/
def Asks (ask : World → ℕ → Except Fault (Res × World)) : Prop :=
  ∀ w i r w', ask w i = .ok (r, w') → w' = w

theorem askAccept_asks (a : Addr) : Asks (askAccept a) := by
  intro w i r w' h
  obtain ⟨res, -, h⟩ := bind_ok.mp h
  cases h
  rfl

theorem askChange_asks (a : Addr) : Asks (askChange a) := by
  intro w i r w' h
  obtain ⟨⟨res, this⟩, hc, h⟩ := bind_ok.mp h
  cases h
  obtain rfl := change_plugin hc
  simp [World.setPlugin]

/-- The first loop stops at the first `RTF_OK`, and collects answers that are not. -/
theorem firstPass_ok {ask : World → ℕ → Except Fault (Res × World)} (hask : Asks ask) {is : List ℕ} {w w' : World}
    {found : Option ℕ} {results : List (ℕ × Res)} (h : firstPass ask is w = .ok (found, results, w')) :
    w' = w ∧ (∀ i ∈ found, i ∈ is ∧ ask w i = .ok (.ok, w)) ∧
      (∀ r ∈ results, r.1 ∈ is ∧ ask w r.1 = .ok (r.2, w)) ∧ (found = none → ∀ i ∈ is, ∃ r, (i, r) ∈ results) := by
  induction is generalizing w' found results with
  | nil =>
    simp only [firstPass, Except.ok.injEq, Prod.mk.injEq] at h
    obtain ⟨rfl, rfl, rfl⟩ := h
    simp
  | cons i is ih =>
    obtain ⟨⟨r, w1⟩, hr, hrest⟩ := bind_ok.mp h
    obtain rfl := hask _ _ _ _ hr
    dsimp only at hrest
    split at hrest
    · rename_i hok
      cases hrest
      subst hok
      simp [hr]
    · obtain ⟨⟨found', results', w2⟩, hf, hrest⟩ := bind_ok.mp hrest
      cases hrest
      obtain ⟨rfl, h1, h2, h3⟩ := ih hf
      refine ⟨rfl, fun j hj => ⟨List.mem_cons_of_mem _ (h1 j hj).1, (h1 j hj).2⟩, ?_, ?_⟩
      · intro q hq
        rcases List.mem_cons.mp hq with rfl | hq
        · exact ⟨List.mem_cons_self .., hr⟩
        · exact ⟨List.mem_cons_of_mem _ (h2 q hq).1, (h2 q hq).2⟩
      · intro hn j hj
        rcases List.mem_cons.mp hj with rfl | hj
        · exact ⟨r, List.mem_cons_self ..⟩
        · obtain ⟨q, hq⟩ := h3 hn j hj
          exact ⟨q, List.mem_cons_of_mem _ hq⟩

/-- **Choosing a plugin** changes nothing; the one chosen is in the table and
did not refuse. -/
theorem selectPlugin_ok {ask : World → ℕ → Except Fault (Res × World)} (hask : Asks ask) {n : ℕ} {w w' : World}
    {chosen : Option (ℕ × Res)} (h : selectPlugin ask n w = .ok (chosen, w')) :
    w' = w ∧ ∀ i r, chosen = some (i, r) → i < n ∧ ask w i = .ok (r, w) ∧ r ≠ .no := by
  obtain ⟨⟨found, results, w1⟩, hf, hrest⟩ := bind_ok.mp h
  obtain ⟨rfl, h1, h2, -⟩ := firstPass_ok hask hf
  dsimp only at hrest
  split at hrest
  · cases hrest
    refine ⟨rfl, ?_⟩
    intro i r hi
    cases hi
    obtain ⟨hi, ha⟩ := h1 _ rfl
    exact ⟨List.mem_range.mp hi, ha, by simp⟩
  · cases hrest
    refine ⟨rfl, ?_⟩
    intro i r hi
    have hr : r = .part := by simpa using List.find?_some hi
    obtain ⟨hm, ha⟩ := h2 _ (List.mem_of_find?_eq_some hi)
    exact ⟨List.mem_range.mp hm, ha, by simp [hr]⟩

end Retif
