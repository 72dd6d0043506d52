/-
# Requests that are refused

Every plugin is asked before `test_and_assign` or `test_and_modify` refuses,
and EDF and RM take the task's utilisation off their core to answer about a
change. What is taken is put back (`change_plugin`), so a refusal leaves the
state as it was, but for the id it used up and the record of the task that was
not created, which nothing points to. A request about an id that names no task
does not get as far as a plugin.

Key definitions: `Untouched`, `Op.names`.
Key theorems: `create_refused`, `change_refused_eq`, `unknown_id`, `rejected_run`.
-/
import Retif.Books

namespace Retif

open CList

/-- The taskset, the records, the books of the plugins, their static tables and
the kernel are as they were. -/
structure Untouched (s s' : Sched) : Prop where
  taskset : s'.taskset = s.taskset
  records : ∀ a < s.next, s'.heap a = s.heap a
  tasks : ∀ a ∈ s.taskset.root, s'.heap a = s.heap a
  numOfPlugins : s'.numOfPlugins = s.numOfPlugins
  plugins : s'.plugin = s.plugin
  statics : s'.statics = s.statics
  kernel : s'.kernel = s.kernel

theorem Untouched.refl (s : Sched) : Untouched s s :=
  ⟨rfl, fun _ _ => rfl, fun _ _ => rfl, rfl, rfl, rfl, rfl⟩

/-- The id a request carries. -/
def Op.names : Op → Option UInt32
  | .change _ id | .attach id _ | .detach id | .destroy id => some id
  | .create _ _ | .delete _ => none

section Refusals

variable {s s' : Sched} {tp : Params} {ppid : Pid} {id : UInt32} {r : Res}

/-- The new record is nobody's: it lies where nothing was allocated. -/
theorem alloc_untouched (hS : Sane s) : Untouched s (s.alloc tp ppid) := by
  refine ⟨rfl, ?_, ?_, rfl, rfl, rfl, rfl⟩
  · intro a ha
    exact Function.update_of_ne ha.ne _ _
  · intro a ha
    exact hS.alloc_heap tp ppid ha

/-- A create that is refused uses up an id. -/
theorem create_refused (hS : Sane s) (h : rtfSchedulerTaskCreate s tp ppid = .ok (.no, s')) :
    Untouched s s' ∧ s'.lastTaskId = s.lastTaskId + 1 := by
  rcases create_ok h with ⟨-, rfl⟩ | ⟨i, w, hch, -, -⟩
  · exact ⟨alloc_untouched hS, rfl⟩
  · -- the plugin that is chosen did not refuse
    exact absurd rfl (assignee_some hch).2.2

/-- A change that is refused leaves everything as it was: whoever took a
utilisation off to answer has put it back. -/
theorem change_refused_eq (h : rtfSchedulerTaskChange s tp id = .ok (.no, s')) : s' = s := by
  rcases change_ok h with rfl | ⟨a, i, r', w, w', -, htk, -, -, -⟩
  · rfl
  · exact absurd rfl (taker_some htk).2.2

/-- A request about an id that names no task is answered without a plugin. -/
theorem unknown_id {o : Op} (hid : o.names = some id) (hnone : rtfTasksetSearch s.heap s.taskset id = none)
    (h : step s o = .ok (r, s')) : r = .no ∧ s' = s := by
  have hremove : rtfTasksetRemoveByRsvid s.heap s.taskset id = (none, s.taskset) := by
    rcases listRemove_cases s.taskset fun a => (s.heap a).id == id with ⟨hn, -⟩ | ⟨a, ts, -, hm, hk, -⟩
    · exact hn
    · rw [rtfTasksetSearch, listSearchElem_eq, List.find?_eq_none] at hnone
      exact absurd hk (hnone a hm)
  rcases o with _ | ⟨tp, id'⟩ | ⟨id', pid⟩ | ⟨id'⟩ | ⟨id'⟩ | _ <;>
    simp only [Op.names, Option.some.injEq, reduceCtorEq] at hid
  all_goals subst hid
  · have hchange : rtfSchedulerTaskChange s tp id' = .ok (r, s') := h
    simp only [rtfSchedulerTaskChange, hnone, Except.ok.injEq, Prod.mk.injEq] at hchange
    exact ⟨hchange.1.symm, hchange.2.symm⟩
  · simp only [step, rtfSchedulerTaskAttach, hnone, Except.ok.injEq, Prod.mk.injEq] at h
    exact ⟨h.1.symm, h.2.symm⟩
  · simp only [step, rtfSchedulerTaskDetach, hnone, Except.ok.injEq, Prod.mk.injEq] at h
    exact ⟨h.1.symm, h.2.symm⟩
  · simp only [step, rtfSchedulerTaskDestroy, hremove, Except.ok.injEq, Prod.mk.injEq] at h
    exact ⟨h.1.symm, h.2.symm⟩

end Refusals

/-- A request that is refused in `s`, or names no task there, changes nothing. -/
structure RefusesCleanly (s : Sched) : Prop where
  create : ∀ tp ppid s', rtfSchedulerTaskCreate s tp ppid = .ok (.no, s') →
    Untouched s s' ∧ s'.lastTaskId = s.lastTaskId + 1
  change : ∀ tp id s', rtfSchedulerTaskChange s tp id = .ok (.no, s') → Untouched s s' ∧ s'.lastTaskId = s.lastTaskId
  unknown : ∀ o id r s', Op.names o = some id → rtfTasksetSearch s.heap s.taskset id = none →
    step s o = .ok (r, s') → Untouched s s' ∧ s'.lastTaskId = s.lastTaskId

end Retif
