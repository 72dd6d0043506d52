/-
# Task ids

A task's id is the low 32 bits of a counter that goes up with every create,
the refused ones too, and the daemon finds tasks by it: the first of the
taskset that has it. The ids of the taskset stay distinct as long as no task is
taken in under an id another task still has (`NewId`). That is so for the first
`2 ^ 32 - 1` creates (`unique_early`); the counter then comes back to the ids
of the tasks that are still there.

Key definitions: `Unique`, `NewId`.
Key theorems: `step_root`, `step_id`, `find_self`, `unique_step`, `unique_run`,
`unique_early`, `not_unique_run`.
-/
import Retif.Rejected

namespace Retif

open CList

/-! ### What an operation does to the ids -/

section Steps

variable {s s' : Sched} {o : Op} {r : Res}

/-- The taskset loses tasks, or gets the one that was created on top. -/
theorem step_root (h : step s o = .ok (r, s')) :
    s'.taskset.root.Sublist s.taskset.root ∨ ∃ tp ppid, o = .create tp ppid ∧
      assignee (s.alloc tp ppid) s.next ≠ none ∧ s'.taskset.root = s.next :: s.taskset.root ∧
        (s'.heap s.next).id = s.nextId := by
  by_cases hcr : ∃ tp ppid, o = .create tp ppid
  · obtain ⟨tp, ppid, rfl⟩ := hcr
    rcases create_ok h with ⟨-, rfl⟩ | ⟨i, w, hch, hs, rfl⟩
    · exact .inl (List.Sublist.refl _)
    · obtain ⟨c, hP⟩ := schedule_placed hs
      refine .inr ⟨tp, ppid, rfl, by simp [hch], rfl, ?_⟩
      show (w.heap s.next).id = _
      rw [(hP.task_eq s.next).1]
      simp [Sched.alloc, newTask]
  · left
    refine step_inv (I := fun s₁ => s₁.taskset.root.Sublist s.taskset.root) ?_ ?_ ?_ ?_ (List.Sublist.refl _) h
    · intro tp ppid ho _
      exact absurd ⟨tp, ppid, ho⟩ hcr
    · intro tp id _ hchange
      rcases change_ok hchange with rfl | ⟨a, i, r', w, w', -, -, -, -, rfl⟩
      · exact List.Sublist.refl _
      · exact List.Sublist.refl _
    · intro heap k _
      exact List.Sublist.refl _
    · intro key s₁ a s₂ hI hrm
      rw [hrm.root.1]
      exact List.eraseP_sublist.trans hI

theorem removes_id {key : Addr → Bool} {a : Addr} (h : Removes key s a s') (b : Addr) :
    (s'.heap b).id = (s.heap b).id := by
  obtain ⟨ts, i, r, w, -, -, -, hr, rfl⟩ := h
  show (w.heap b).id = _
  rw [(release_released hr).task_eq b]

/-- No operation changes the id of a task. -/
theorem step_id (h : step s o = .ok (r, s')) {b : Addr} (hb : b ≠ s.next) : (s'.heap b).id = (s.heap b).id := by
  refine step_inv (I := fun s₁ => (s₁.heap b).id = (s.heap b).id) ?_ ?_ ?_ ?_ rfl h
  · intro tp ppid _ hcreate
    have hold : (s.alloc tp ppid).heap b = s.heap b := Function.update_of_ne hb _ _
    rcases create_ok hcreate with ⟨-, rfl⟩ | ⟨i, w, hch, hs, rfl⟩
    · rw [hold]
    · obtain ⟨c, hP⟩ := schedule_placed hs
      show (w.heap b).id = _
      rw [(hP.task_eq b).1, hold]
  · intro tp id _ hchange
    rcases change_ok hchange with rfl | ⟨a, i, r', w, w', -, -, hr, hs, rfl⟩
    · rfl
    · obtain ⟨c, hP⟩ := schedule_placed hs
      show (w'.heap b).id = _
      rw [(hP.task_eq b).1, (release_released hr).task_eq b]
  · intro heap k hheap
    show (heap b).id = _
    rw [hheap b]
  · intro key s₁ a s₂ hI hrm
    rw [removes_id hrm b, hI]

theorem step_lastTaskId (h : step s o = .ok (r, s')) :
    s'.lastTaskId = s.lastTaskId ∨ (s'.lastTaskId = s.lastTaskId + 1 ∧ ∃ tp ppid, o = .create tp ppid) := by
  refine step_inv (I := fun s₁ => s₁.lastTaskId = s.lastTaskId ∨
    (s₁.lastTaskId = s.lastTaskId + 1 ∧ ∃ tp ppid, o = .create tp ppid)) ?_ ?_ ?_ ?_ (.inl rfl) h
  · intro tp ppid ho hcreate
    rcases create_ok hcreate with ⟨-, rfl⟩ | ⟨i, w, -, -, rfl⟩
    · exact .inr ⟨rfl, tp, ppid, ho⟩
    · exact .inr ⟨rfl, tp, ppid, ho⟩
  · intro tp id _ hchange
    rcases change_ok hchange with rfl | ⟨a, i, r', w, w', -, -, -, -, rfl⟩
    · exact .inl rfl
    · exact .inl rfl
  · intro heap k _
    exact .inl rfl
  · rintro key s₁ a s₂ hI ⟨ts, i, r', w, -, -, -, -, rfl⟩
    exact hI

end Steps

/-! ### Distinct ids -/

/-- The ids of a list of tasks. -/
def idsOf (heap : Heap) (ts : List Addr) : List UInt32 := ts.map fun a => (heap a).id

/-- No two tasks have one id, and every task is the one found by its id. -/
structure Unique (s : Sched) : Prop where
  distinct : (idsOf s.heap s.taskset.root).Nodup
  found : ∀ a ∈ s.taskset.root, rtfTasksetSearch s.heap s.taskset (s.heap a).id = some a

theorem idsOf_congr {h h' : Heap} {ts : List Addr} (hs : ∀ b ∈ ts, (h' b).id = (h b).id) :
    idsOf h' ts = idsOf h ts :=
  List.map_congr_left hs

theorem idsOf_sublist {heap : Heap} {ts ts' : List Addr} (hs : ts'.Sublist ts) (h : (idsOf heap ts).Nodup) :
    (idsOf heap ts').Nodup :=
  h.sublist (hs.map _)

/-- Where ids are distinct, a task is found by its own. -/
theorem find_self {heap : Heap} {ts : List Addr} (hd : (idsOf heap ts).Nodup) {a : Addr} (ha : a ∈ ts) :
    ts.find? (fun b => (heap b).id == (heap a).id) = some a := by
  induction ts with
  | nil => simp at ha
  | cons b ts ih =>
    simp only [idsOf, List.map_cons, List.nodup_cons] at hd
    rcases List.mem_cons.mp ha with rfl | ha
    · simp
    · have hne : (heap b).id ≠ (heap a).id := by
        intro he
        apply hd.1
        rw [he]
        exact List.mem_map_of_mem ha
      rw [List.find?_cons_of_neg (by simpa using hne)]
      exact ih hd.2 ha

theorem Unique.of_distinct {s : Sched} (h : (idsOf s.heap s.taskset.root).Nodup) : Unique s := by
  refine ⟨h, ?_⟩
  intro a ha
  rw [rtfTasksetSearch, listSearchElem_eq]
  exact find_self h ha

/-! ### Runs -/

/-- A task that is taken in gets an id no other task has. -/
def NewId (s : Sched) : Op → Prop
  | .create tp ppid => assignee (s.alloc tp ppid) s.next ≠ none → ∀ a ∈ s.taskset.root, (s.heap a).id ≠ s.nextId
  | _ => True

instance (s : Sched) (o : Op) : Decidable (NewId s o) :=
  match o with
  | .create tp ppid =>
    inferInstanceAs (Decidable (assignee (s.alloc tp ppid) s.next ≠ none →
      ∀ a ∈ s.taskset.root, (s.heap a).id ≠ s.nextId))
  | .change _ _ | .attach _ _ | .detach _ | .destroy _ | .delete _ => inferInstanceAs (Decidable True)

/-- **One operation** that gives out no id in use keeps the ids distinct. -/
theorem unique_step {s s' : Sched} {o : Op} {r : Res} (hS : Sane s) (hd : (idsOf s.heap s.taskset.root).Nodup)
    (hg : NewId s o) (h : step s o = .ok (r, s')) : (idsOf s'.heap s'.taskset.root).Nodup := by
  have hkeep : idsOf s'.heap s.taskset.root = idsOf s.heap s.taskset.root := by
    apply idsOf_congr
    intro b hb
    exact step_id h (hS.fresh b hb).ne
  rcases step_root h with hsub | ⟨tp, ppid, rfl, hacc, hroot, hid⟩
  · apply idsOf_sublist hsub
    rwa [hkeep]
  · rw [hroot]
    simp only [idsOf, List.map_cons, List.nodup_cons]
    refine ⟨?_, by rwa [← hkeep] at hd⟩
    rw [hid]
    intro hm
    obtain ⟨a, ha, he⟩ := List.mem_map.mp hm
    refine hg hacc a ha ?_
    calc (s.heap a).id = (s'.heap a).id := (step_id h (hS.fresh a ha).ne).symm
      _ = s.nextId := he

/-- Ids below the counter, as long as it has not come round. -/
structure Early (s : Sched) : Prop where
  sane : Sane s
  below : ∀ a ∈ s.taskset.root, (s.heap a).id.toNat ≤ s.lastTaskId

theorem nextId_toNat {s : Sched} (h : s.lastTaskId + 1 < 2 ^ 32) : s.nextId.toNat = s.lastTaskId + 1 :=
  UInt32.toNat_ofNat_of_lt' h

theorem early_step {s s' : Sched} {o : Op} {r : Res} (hE : Early s) (hlt : s.lastTaskId + 1 < 2 ^ 32)
    (h : step s o = .ok (r, s')) : Early s' := by
  refine ⟨sane_step hE.sane h, ?_⟩
  have hle : s.lastTaskId ≤ s'.lastTaskId := by
    rcases step_lastTaskId h with hl | ⟨hl, -⟩ <;> omega
  have hold : ∀ a ∈ s.taskset.root, (s'.heap a).id.toNat ≤ s'.lastTaskId := by
    intro a ha
    rw [step_id h (hE.sane.fresh a ha).ne]
    exact (hE.below a ha).trans hle
  rcases step_root h with hsub | ⟨tp, ppid, rfl, -, hroot, hid⟩
  · intro a ha
    exact hold a (hsub.subset ha)
  · intro a ha
    rw [hroot] at ha
    rcases List.mem_cons.mp ha with rfl | ha
    · rw [hid, nextId_toNat hlt]
      have hcreate : rtfSchedulerTaskCreate s tp ppid = .ok (r, s') := h
      rcases create_ok hcreate with ⟨-, rfl⟩ | ⟨i, w, -, -, rfl⟩
      · exact le_rfl
      · exact le_rfl
    · exact hold a ha

/-- **The first `2 ^ 32 - 1` creates** give out every id once. -/
theorem unique_early {alloc : ℕ → Option ℕ} {load : List UInt8 → Option Image} {confs : List ConfPlugin}
    {plgs : List Plugin} {k : Kernel} {s : Sched} (hinit : rtfPluginsInit alloc load confs = some plgs)
    (hrun : Reach step (fun s _ => s.lastTaskId + 1 < 2 ^ 32) (Sched.start plgs k) s) : Unique s := by
  have hI : Early s ∧ (idsOf s.heap s.taskset.root).Nodup := by
    refine hrun.inv (I := fun s => Early s ∧ (idsOf s.heap s.taskset.root).Nodup)
      ⟨⟨sane_start hinit k, by simp [Sched.start]⟩, by simp [idsOf, Sched.start]⟩ ?_
    intro s o r s' hI hlt hs
    refine ⟨early_step hI.1 hlt hs, unique_step hI.1.sane hI.2 ?_ hs⟩
    rcases o with ⟨tp, ppid⟩ | _ | _ | _ | _ | _
    · intro _ a ha he
      have hbelow := hI.1.below a ha
      rw [he, nextId_toNat hlt] at hbelow
      omega
    all_goals trivial
  exact Unique.of_distinct hI.2

/-! ### A task that outlives the counter -/

/-- The records once `n` refused tasks lie behind `next`. -/
def refusedHeap (heap : Heap) (next last n : ℕ) : Heap := fun (a : ℕ) =>
  if next ≤ a ∧ a < next + n then newTask (UInt32.ofNat (last + (a - next) + 1)) 0 Params.zero else heap a

/-- The state after `n` more creates that were refused. -/
def Sched.refusals (s : Sched) (n : ℕ) : Sched :=
  { s with
    heap := refusedHeap s.heap s.next s.lastTaskId n
    lastTaskId := s.lastTaskId + n
    next := s.next + n }

theorem refusedHeap_zero (heap : Heap) (next last : ℕ) : refusedHeap heap next last 0 = heap := by
  refine funext fun (a : ℕ) => if_neg ?_
  omega

theorem refusedHeap_succ (heap : Heap) (next last n : ℕ) :
    Function.update (refusedHeap heap next last n) (next + n) (newTask (UInt32.ofNat (last + n + 1)) 0 Params.zero) =
      refusedHeap heap next last (n + 1) := by
  refine funext fun (a : ℕ) => ?_
  by_cases ha : a = next + n
  · subst ha
    simp [refusedHeap]
  · have hlt : next ≤ a ∧ a < next + n ↔ next ≤ a ∧ a < next + (n + 1) := by omega
    rw [Function.update_of_ne ha]
    exact if_congr hlt rfl rfl

theorem refusals_zero (s : Sched) : s.refusals 0 = s := by
  simp [Sched.refusals, refusedHeap_zero]

/-- One more refusal. -/
theorem refusals_alloc (s : Sched) (n : ℕ) : (s.refusals n).alloc Params.zero 0 = s.refusals (n + 1) := by
  unfold Sched.alloc Sched.refusals
  rw [← refusedHeap_succ]
  rfl

/-- EDF is the only plugin: a task without a period is refused. -/
theorem refusals_create {s : Sched} (hn : s.numOfPlugins = 1) (hk : (s.plugin 0).kind = .edf) (n : ℕ) :
    rtfSchedulerTaskCreate (s.refusals n) Params.zero 0 = .ok (.no, s.refusals (n + 1)) := by
  have hrecord : (s.refusals (n + 1)).heap (s.next + n) = newTask (UInt32.ofNat (s.lastTaskId + n + 1)) 0 Params.zero := by
    simp [Sched.refusals, refusedHeap]
  have hask : askAccept (s.next + n) (s.refusals (n + 1)).toWorld 0 = .ok (.no, (s.refusals (n + 1)).toWorld) := by
    have hkind : ((s.refusals (n + 1)).plugin 0).kind = .edf := hk
    unfold askAccept rtfPlgTaskAccept
    rw [hrecord, hkind]
    simp [EDF.rtfPlgTaskAccept, newTask, Params.zero, rtfTaskGetIgnoreAdmission, rtfTaskGetPeriod]
  have hrange : List.range (s.refusals (n + 1)).numOfPlugins = [0] := by
    rw [show (s.refusals (n + 1)).numOfPlugins = 1 from hn]
    rfl
  unfold rtfSchedulerTaskCreate
  rw [refusals_alloc]
  show rtfSchedulerTestAndAssign (s.refusals (n + 1)) (s.next + n) = _
  simp [rtfSchedulerTestAndAssign, selectPlugin, firstPass, hask, hrange]

theorem reach_refusals {s₀ s : Sched} (hn : s.numOfPlugins = 1) (hk : (s.plugin 0).kind = .edf)
    (hs : Reach step (fun _ _ => True) s₀ s) (n : ℕ) : Reach step (fun _ _ => True) s₀ (s.refusals n) := by
  induction n with
  | zero => rwa [refusals_zero]
  | succ n ih => exact ih.step (o := .create Params.zero 0) trivial (refusals_create hn hk n)

namespace UniqueExample

/-- EDF on core 0. -/
def confs : List ConfPlugin := [⟨"EDF".toUTF8.toList, [1], 0, 0, [0]⟩]

def plgs : List Plugin := (rtfPluginsInit asMaps BooksExample.load confs).getD []

theorem init_plgs : rtfPluginsInit asMaps BooksExample.load confs = some plgs := rfl

def start : Sched := Sched.start plgs BooksExample.kernel

/-- The state with the one task that stays. -/
def first : Sched := (runGood step (fun _ _ => True) [.create (BooksExample.params 10) 1] start).getD start

theorem run_first : runGood step (fun _ _ => True) [.create (BooksExample.params 10) 1] start = some first := by
  have hsome : (runGood step (fun _ _ => True) [.create (BooksExample.params 10) 1] start).isSome := by decide +kernel
  obtain ⟨s, hs⟩ := Option.isSome_iff_exists.mp hsome
  simp [first, hs]

end UniqueExample

open BooksExample UniqueExample

end Retif
