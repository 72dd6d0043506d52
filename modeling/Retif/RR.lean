/-
# The RR plugin

`plugins/sched_RR.c`: the declared priorities on `SCHED_RR`. The tasks of a
core are kept in a list, the lowest declared priority first; `n_per_prio`
counts the tasks of a core by declared priority and `dist_prio` the distinct
ones. A task with a priority that is on the core already takes the real
priority of the node behind it, which the source does not check for `NULL`.

`rtf_plg_task_accept` and `rtf_plg_task_change` are FP's too.

Key definitions: `RR.prioRemap`, `RR.assignPriorities`, `RR.rtfPlgTaskAccept`,
`RR.rtfPlgTaskSchedule`, `RR.rtfPlgTaskRelease`.
-/
import Retif.Plugin

namespace Retif

/-- `rtf_plg_task_accept` of RR and FP: no admission test. -/
def acceptAnyway (this : Plugin) (t : Task) : Res :=
  if rtfTaskGetIgnoreAdmission t = 0 ∧ rtfTaskGetPriority t = 0 then .part
  else if hasAnotherPreference this t then .part
  else .ok

/-- `sched_get_priority_max` of `SCHED_RR` and `SCHED_FIFO`. -/
def schedGetPriorityMax : UInt32 := 99

/-- `sched_get_priority_min` of `SCHED_RR` and `SCHED_FIFO`. -/
def schedGetPriorityMin : UInt32 := 1

namespace RR

/-- "Given min/max plugin prio, normalize `prio` in that window". -/
def prioRemap (maxPrioS minPrioS prio : UInt32) : UInt32 :=
  let slope : ℚ := ((maxPrioS - minPrioS + 1).toNat : ℚ) /
    ((schedGetPriorityMax - schedGetPriorityMin + 1).toNat : ℚ)
  toU32 (minPrioS.toNat + slope * (prio - schedGetPriorityMin).toNat)

def leastLoadedCpu (this : Plugin) : Except Fault ℕ := fewestTasks this

/-- The declared priority a walk over the list looks at. -/
def priority (t : Task) : ℕ := (rtfTaskGetPriority t).toNat

/-- The number of priorities of the plugin, as the comparison with `dist_prio` sees it. -/
def window (this : Plugin) : UInt32 := UInt32.ofInt (this.prioMax - this.prioMin + 1)

def assignPriorities (this : Plugin) (st : Statics) (heap : Heap) (cpu : ℕ) : Heap :=
  let currPrio := UInt32.ofInt (this.prioMin - 1)
  let precPrio := UInt32.ofInt (-1)
  if st.distPrio cpu > window this then
    mapLoop (fun t => prioRemap (UInt32.ofInt this.prioMax) (UInt32.ofInt this.prioMin) t.params.priority)
      (this.tasks cpu).root heap
  else rankLoop priority (fun _ curr => curr + 1) (this.tasks cpu).root heap currPrio precPrio 0

def rtfPlgTaskAccept (this : Plugin) (t : Task) : Except Fault Res := .ok (acceptAnyway this t)

def rtfPlgTaskChange (this : Plugin) (t : Task) : Except Fault (Res × Plugin) := do
  let testRes ← rtfPlgTaskAccept this t
  .ok (testRes, this)

/-- The priority of the task just inserted: all priorities of the core are
handed out anew if its declared one is new there, else it is its successor's. -/
def rank (this : Plugin) (st : Statics) (heap : Heap) (a : Addr) (cpu : ℕ) (behind : List Addr) :
    Except Fault (Statics × Heap) :=
  if st.nPerPrio cpu (heap a).params.priority.toNat = 1 then
    let st := st.addDist cpu 1
    .ok (st, assignPriorities this st heap cpu)
  else
    match behind with
    | [] => .error .null
    | next :: _ => .ok (st, Function.update heap a { heap a with schedprio := (heap next).schedprio })

def rtfPlgTaskSchedule (w : World) (i : ℕ) (a : Addr) : Except Fault World := do
  let this := w.plugin i
  let cpu ← leastLoadedCpu this
  let heap := Function.update w.heap a { w.heap a with cpu := cpu, pluginid := this.id }
  checkPrio cpu (heap a).params.priority
  let st := (w.statics this.dl).addPerPrio cpu (heap a).params.priority 1
  let ts ← this.read this.tasks cpu
  let inserted := rtfTasksetAddSortedPrio heap ts a
  let this := this.setTasks cpu inserted.1
  let (st, heap) ← rank this st heap a cpu inserted.2
  let this ← this.addCount (heap a).cpu 1
  .ok (({ w with heap := heap }.setPlugin i this).setStatics this.dl st)

def rtfPlgTaskAttach (k : Kernel) (t : Task) : Res × Kernel := attachPosix .rr k t

def rtfPlgTaskDetach (k : Kernel) (t : Task) : Res × Kernel := detachThread k t

/-- `dist_prio` is taken down when no task of the priority is left. -/
def uncount (st : Statics) (cpu : ℕ) (priority : UInt32) : Statics :=
  let st := st.addPerPrio cpu priority (-1)
  if st.nPerPrio cpu priority.toNat = 0 then st.addDist cpu (-1) else st

def rtfPlgTaskRelease (w : World) (i : ℕ) (a : Addr) : Except Fault (Res × World) := do
  let t := w.heap a
  let this ← (w.plugin i).addCount t.cpu (-1)
  checkPrio t.cpu t.params.priority
  let st := uncount (w.statics this.dl) t.cpu t.params.priority
  let ts ← this.read this.tasks t.cpu
  let this := this.setTasks t.cpu (rtfTasksetRemoveByRsvid w.heap ts t.id).2
  let w := ((w.setPlugin i this).setStatics this.dl st).setTask a { t with pluginid := -1 }
  let (res, kernel) := releaseThread .rr w.kernel t
  .ok (res, { w with kernel := kernel })

end RR
end Retif
