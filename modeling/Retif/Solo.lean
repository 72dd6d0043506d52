/-
# One plugin by itself

A plugin that is asked to schedule tasks and to release tasks it holds, in any
order, and nothing else: the runs the properties of RM's and RR's own data are
about. The state is the plugin's world and the tasks it holds. A task that is
scheduled is new: its record is none of theirs and its id is none of theirs.

Along such a run the plugin keeps its configuration and its lists hold, core by
core, the tasks it holds (`Solo.Keeps`).

Key definitions: `Solo`, `Move`, `soloStep`, `Proposes`, `Solo.Keeps`.
Key theorems: `Solo.keeps_start`, `Solo.keeps_step`.
-/
import Retif.Books

namespace Retif

open CList

/-- A plugin's world, and the tasks the plugin holds. -/
structure Solo extends World where
  held : List Addr

/-- What is asked of the plugin. -/
inductive Move where
  /-- `rtf_plg_task_schedule` of the task `t` at `a` -/
  | schedule (a : Addr) (t : Task)
  /-- `rtf_plg_task_release` of the task at `a` -/
  | release (a : Addr)

/-- The plugin as `rtf_plugins_init` leaves it, the only entry of its table. -/
def Solo.start (alloc : ℕ → Option ℕ) (conf : ConfPlugin) (img : Image) (heap : Heap) (k : Kernel) : Solo where
  plugin := fun _ => initPlugin alloc 0 conf img
  statics := fun _ => ⟨fun _ => 0, fun _ _ => 0⟩
  heap := heap
  kernel := k
  held := []

def soloStep (s : Solo) : Move → Except Fault (Res × Solo)
  | .schedule a t => do
    let w ← rtfPlgTaskSchedule (s.setTask a t) 0 a
    .ok (.ok, ⟨w, a :: s.held⟩)
  | .release a => do
    let (res, w) ← rtfPlgTaskRelease s.toWorld 0 a
    .ok (res, ⟨w, s.held.erase a⟩)

/-- A task that is scheduled is new and has parameters that are `ok`; a task
that is released is held. -/
def Proposes (ok : Params → Prop) (s : Solo) : Move → Prop
  | .schedule a t => a ∉ s.held ∧ (∀ b ∈ s.held, (s.heap b).id ≠ t.id) ∧ ok t.params
  | .release a => a ∈ s.held

instance (ok : Params → Prop) [DecidablePred ok] (s : Solo) (m : Move) : Decidable (Proposes ok s m) :=
  match m with
  | .schedule a t => inferInstanceAs (Decidable (a ∉ s.held ∧ (∀ b ∈ s.held, (s.heap b).id ≠ t.id) ∧ ok t.params))
  | .release a => inferInstanceAs (Decidable (a ∈ s.held))

theorem schedule_move {s s' : Solo} {a : Addr} {t : Task} {r : Res} (h : soloStep s (.schedule a t) = .ok (r, s')) :
    rtfPlgTaskSchedule (s.setTask a t) 0 a = .ok s'.toWorld ∧ s'.held = a :: s.held := by
  obtain ⟨w, hw, h⟩ := bind_ok.mp h
  cases h
  exact ⟨hw, rfl⟩

theorem release_move {s s' : Solo} {a : Addr} {r : Res} (h : soloStep s (.release a) = .ok (r, s')) :
    rtfPlgTaskRelease s.toWorld 0 a = .ok (r, s'.toWorld) ∧ s'.held = s.held.erase a := by
  obtain ⟨⟨res, w⟩, hw, h⟩ := bind_ok.mp h
  cases h
  exact ⟨hw, rfl⟩

namespace Solo

/-- The plugin as it was configured, and its lists of the tasks it holds. -/
structure Keeps (info : PluginInfo) (ok : Params → Prop) (s : Solo) : Prop where
  info_eq : (s.plugin 0).toPluginInfo = info
  nodup : s.held.Nodup
  own : ∀ a ∈ s.held, (s.heap a).pluginid = 0
  home : ∀ a ∈ s.held, (s.heap a).cpu ∈ info.cpulist
  params : ∀ a ∈ s.held, ok (s.heap a).params
  lists : Lists 1 s.toWorld s.held

section Keeps

variable {info : PluginInfo} {ok : Params → Prop} {s s' : Solo} {a : Addr} {t : Task} {r : Res}

/-- The tasks on the list of a core are held, and on that core. -/
theorem Keeps.mem (hK : s.Keeps info ok) (hk : info.kind.keepsList) {c : ℕ} {b : Addr} :
    b ∈ ((s.plugin 0).tasks c).root ↔ b ∈ s.held ∧ (s.heap b).cpu = c := by
  rw [(hK.lists.list 0 one_pos (by rw [hK.info_eq]; exact hk) c).mem_iff, mem_placed]
  constructor
  · rintro ⟨h1, -, h3⟩
    exact ⟨h1, h3⟩
  · rintro ⟨h1, h3⟩
    exact ⟨h1, hK.own b h1, h3⟩

theorem Keeps.nodup_list (hK : s.Keeps info ok) (hk : info.kind.keepsList) (c : ℕ) :
    ((s.plugin 0).tasks c).root.Nodup :=
  (hK.lists.list 0 one_pos (by rw [hK.info_eq]; exact hk) c).nodup_iff.mpr (hK.nodup.filter _)

/-- A task that is not held is on no list. -/
theorem Keeps.off_lists (hK : s.Keeps info ok) (hk : info.kind.keepsList) (ha : a ∉ s.held) (c : ℕ) :
    a ∉ ((s.plugin 0).tasks c).root := fun hm => ha ((hK.mem hk).mp hm).1

/-- The ids tell the tasks that are held apart. -/
theorem Keeps.id_ne (hK : s.Keeps info ok) (ha : a ∈ s.held) {b : Addr} (hb : b ∈ s.held) :
    (s.heap b).id ≠ (s.heap a).id ↔ b ≠ a := by
  constructor
  · rintro hne rfl
    exact hne rfl
  · intro hne
    have hsymm : Std.Symm fun a b : Addr => (s.heap a).id ≠ (s.heap b).id := ⟨fun _ _ h => h.symm⟩
    exact hK.lists.distinct.forall hb ha hne

theorem setTask_ne (w : World) (t : Task) {b : Addr} (hb : b ≠ a) : (w.setTask a t).heap b = w.heap b :=
  Function.update_of_ne hb _ _

theorem setTask_self (w : World) (a : Addr) (t : Task) : (w.setTask a t).heap a = t := Function.update_self ..

/-- Writing the record of a task that is not held. -/
theorem Keeps.written (hK : s.Keeps info ok) (ha : a ∉ s.held) (t : Task) :
    Lists 1 (s.setTask a t) s.held := by
  refine hK.lists.congr rfl ?_
  intro b hb
  have hne : b ≠ a := fun hba => ha (hba ▸ hb)
  rw [setTask_ne _ _ hne]
  exact ⟨rfl, rfl, rfl⟩

theorem keeps_schedule (hid : info.id = 0) (hK : s.Keeps info ok) (hp : Proposes ok s (.schedule a t))
    (h : soloStep s (.schedule a t) = .ok (r, s')) : s'.Keeps info ok := by
  obtain ⟨ha, hnew, hok⟩ := hp
  obtain ⟨hs, hheld⟩ := schedule_move h
  obtain ⟨c, hP⟩ := schedule_placed hs
  have hid0 : ((s.setTask a t).plugin 0).id = ((0 : ℕ) : ℤ) := by
    show (s.plugin 0).toPluginInfo.id = 0
    rw [hK.info_eq, hid]
  have hself := hP.task
  rw [setTask_self] at hself
  have hhome : c ∈ info.cpulist := by
    rw [← hK.info_eq]
    exact hP.mem
  have hold : ∀ b ∈ s.held, b ≠ a ∧ (s'.heap b).pluginid = (s.heap b).pluginid ∧
      (s'.heap b).cpu = (s.heap b).cpu ∧ (s'.heap b).params = (s.heap b).params := by
    intro b hb
    have hne : b ≠ a := fun hba => ha (hba ▸ hb)
    refine ⟨hne, ?_⟩
    rw [hP.rest b hne, setTask_ne _ _ hne]
    exact ⟨rfl, rfl, rfl⟩
  -- the new task has its place from the plugin, the others keep theirs
  have hall : ∀ b ∈ s'.held, (s'.heap b).pluginid = 0 ∧ (s'.heap b).cpu ∈ info.cpulist ∧
      ok (s'.heap b).params := by
    intro b hb
    rw [hheld] at hb
    rcases List.mem_cons.mp hb with rfl | hb
    · rw [hself]
      exact ⟨hid0, hhome, hok⟩
    · obtain ⟨-, h1, h2, h3⟩ := hold b hb
      rw [h1, h2, h3]
      exact ⟨hK.own b hb, hK.home b hb, hK.params b hb⟩
  refine ⟨hP.info.trans hK.info_eq, ?_, fun b hb => (hall b hb).1, fun b hb => (hall b hb).2.1,
    fun b hb => (hall b hb).2.2, ?_⟩
  · rw [hheld]
    exact List.nodup_cons.mpr ⟨ha, hK.nodup⟩
  · rw [hheld]
    refine (hK.written ha t).place ha ?_ hid0 hP
    intro b hb
    rw [setTask_self, setTask_ne _ _ (hold b hb).1]
    exact hnew b hb

theorem keeps_release (hK : s.Keeps info ok) (ha : a ∈ s.held) (h : soloStep s (.release a) = .ok (r, s')) :
    s'.Keeps info ok := by
  obtain ⟨hs, hheld⟩ := release_move h
  have hR := release_released hs
  have hperm := List.perm_cons_erase ha
  have hnot : a ∉ s.held.erase a := fun hm => (hK.nodup.mem_erase_iff.mp hm).1 rfl
  have hold : ∀ b ∈ s.held.erase a, b ∈ s.held ∧ s'.heap b = s.heap b := by
    intro b hb
    obtain ⟨hne, hm⟩ := hK.nodup.mem_erase_iff.mp hb
    exact ⟨hm, hR.heap_ne hne⟩
  refine ⟨hR.info.trans hK.info_eq, ?_, ?_, ?_, ?_, ?_⟩
  · rw [hheld]
    exact hK.nodup.erase a
  · intro b hb
    rw [hheld] at hb
    rw [(hold b hb).2]
    exact hK.own b (hold b hb).1
  · intro b hb
    rw [hheld] at hb
    rw [(hold b hb).2]
    exact hK.home b (hold b hb).1
  · intro b hb
    rw [hheld] at hb
    rw [(hold b hb).2]
    exact hK.params b (hold b hb).1
  · rw [hheld]
    exact (hK.lists.perm hperm).release hnot (hK.own a ha) hR

/-- A release leaves the other tasks of a core there. -/
theorem left_iff (hK : s.Keeps info ok) (hk : info.kind.keepsList) (ha : a ∈ s.held)
    (h : soloStep s (.release a) = .ok (r, s')) (c : ℕ) (b : Addr) :
    b ∈ ((s'.plugin 0).tasks c).root ↔ b ∈ ((s.plugin 0).tasks c).root ∧ b ≠ a := by
  have hK' := keeps_release hK ha h
  obtain ⟨hs, hheld⟩ := release_move h
  have hR := release_released hs
  rw [hK'.mem hk, hK.mem hk, hheld, hK.nodup.mem_erase_iff]
  constructor
  · rintro ⟨⟨hne, hb⟩, hcpu⟩
    rw [hR.heap_ne hne] at hcpu
    exact ⟨⟨hb, hcpu⟩, hne⟩
  · rintro ⟨⟨hb, hcpu⟩, hne⟩
    rw [hR.heap_ne hne]
    exact ⟨⟨hne, hb⟩, hcpu⟩

/-- The task released was on the list of its core. -/
theorem left_perm (hK : s.Keeps info ok) (hk : info.kind.keepsList) (ha : a ∈ s.held)
    (h : soloStep s (.release a) = .ok (r, s')) :
    ((s.plugin 0).tasks (s.heap a).cpu).root.Perm (a :: ((s'.plugin 0).tasks (s.heap a).cpu).root) := by
  have hnot : a ∉ ((s'.plugin 0).tasks (s.heap a).cpu).root := fun hm => ((left_iff hK hk ha h _ a).mp hm).2 rfl
  refine (List.perm_ext_iff_of_nodup (hK.nodup_list hk _)
    (List.nodup_cons.mpr ⟨hnot, (keeps_release hK ha h).nodup_list hk _⟩)).mpr ?_
  intro b
  rw [List.mem_cons, left_iff hK hk ha h]
  by_cases hba : b = a
  · subst hba
    exact ⟨fun _ => .inl rfl, fun _ => (hK.mem hk).mpr ⟨ha, rfl⟩⟩
  · simp [hba]

/-- **One move keeps the lists.** -/
theorem keeps_step {m : Move} (hid : info.id = 0) (hK : s.Keeps info ok) (hp : Proposes ok s m)
    (h : soloStep s m = .ok (r, s')) : s'.Keeps info ok := by
  cases m with
  | schedule a t => exact keeps_schedule hid hK hp h
  | release a => exact keeps_release hK hp h

theorem keeps_start (alloc : ℕ → Option ℕ) (conf : ConfPlugin) (img : Image) (heap : Heap) (k : Kernel)
    (ok : Params → Prop) :
    (Solo.start alloc conf img heap k).Keeps (initPlugin alloc 0 conf img).toPluginInfo ok := by
  refine ⟨rfl, List.nodup_nil, ?_, ?_, ?_, List.Pairwise.nil, ?_⟩
  · intro a ha
    exact absurd ha List.not_mem_nil
  · intro a ha
    exact absurd ha List.not_mem_nil
  · intro a ha
    exact absurd ha List.not_mem_nil
  · intro i _ _ c
    exact .refl _

end Keeps
end Solo

end Retif
