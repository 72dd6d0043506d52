/-
# The RM plugin

`plugins/sched_RM.c`: rate-monotonic priorities on `SCHED_FIFO`. The tasks of
a core are kept in a list, the longest period first, and `dist_prio` counts
the distinct periods on it; the priorities of a core are handed out anew when
a task brings a period that its successor in the list does not have.

Key definitions: `RM.prioRemap`, `RM.assignPriorities`, `RM.rtfPlgTaskAccept`,
`RM.rtfPlgTaskChange`, `RM.rtfPlgTaskSchedule`, `RM.rtfPlgTaskRelease`.
-/
import Retif.Plugin

namespace Retif
namespace RM

/-- "Given min/max plugin prio, normalize `prio` in that window". -/
def prioRemap (maxPrioS minPrioS prio distPrio : UInt32) : UInt32 :=
  let slope : ℚ := ((maxPrioS - minPrioS + 1).toNat : ℚ) / ((distPrio - 1).toNat : ℚ)
  toU32 (minPrioS.toNat + slope * prio.toNat)

def leastLoadedCpu (this : Plugin) : Except Fault ℕ := mostFree this

/-- The period a walk over the list looks at. -/
def period (t : Task) : ℕ := (rtfTaskGetPeriod t).toNat

/-- The number of priorities of the plugin, as the comparison with `dist_prio` sees it. -/
def window (this : Plugin) : UInt32 := UInt32.ofInt (this.prioMax - this.prioMin + 1)

def assignPriorities (this : Plugin) (st : Statics) (heap : Heap) (cpu : ℕ) : Heap :=
  let currPrio := UInt32.ofInt (this.prioMin - 1)
  let precPeriod := UInt32.ofInt (-1)
  if st.distPrio cpu > window this then
    rankLoop period
      (fun idx _ => prioRemap (UInt32.ofInt this.prioMax) (UInt32.ofInt this.prioMin) idx (st.distPrio cpu))
      (this.tasks cpu).root heap currPrio precPeriod 0
  else rankLoop period (fun _ curr => curr + 1) (this.tasks cpu).root heap currPrio precPeriod 0

def rtfPlgTaskAccept (this : Plugin) (t : Task) : Except Fault Res :=
  if rtfTaskGetPeriod t = 0 then .ok .no
  else if rtfTaskGetIgnoreAdmission t ≠ 0 then .ok (demote this t .ok)
  else do
    let testRes ← utilizationTest this (rtfTaskGetUtil t)
    .ok (demote this t testRes)

/-- The test without the task's own utilisation, which is put back. -/
def rtfPlgTaskChange (this : Plugin) (t : Task) : Except Fault (Res × Plugin) :=
  if t.pluginid = this.id ∧ t.acceptedu ≠ 0 then do
    let this ← this.addUtil t.cpu t.acceptedu
    let testRes ← rtfPlgTaskAccept this t
    let this ← this.addUtil t.cpu (-t.acceptedu)
    .ok (testRes, this)
  else do
    let testRes ← rtfPlgTaskAccept this t
    .ok (testRes, this)

/-- The period of the node behind the inserted one is that of `t`. -/
def sameAsNext (heap : Heap) (t : Task) (behind : List Addr) : Option Addr :=
  match behind with
  | next :: _ => if rtfTaskGetPeriod (heap next) = t.params.period then some next else none
  | [] => none

/-- The priority of the task just inserted: its successor's if they share the
period, else all priorities of the core are handed out anew. -/
def rank (this : Plugin) (st : Statics) (heap : Heap) (a : Addr) (cpu : ℕ) (behind : List Addr) :
    Except Fault (Statics × Heap) :=
  match sameAsNext heap (heap a) behind with
  | some next => .ok (st, Function.update heap a { heap a with schedprio := (heap next).schedprio })
  | none => do
    checkCore cpu
    let st := st.addDist cpu 1
    .ok (st, assignPriorities this st heap cpu)

def rtfPlgTaskSchedule (w : World) (i : ℕ) (a : Addr) : Except Fault World := do
  let this := w.plugin i
  let cpu ← leastLoadedCpu this
  let taskUtil := rtfTaskGetUtil (w.heap a)
  let heap := Function.update w.heap a { w.heap a with cpu := cpu, pluginid := this.id }
  let ts ← this.read this.tasks cpu
  let inserted := rtfTasksetAddSortedPr heap ts a
  let this := this.setTasks cpu inserted.1
  let (st, heap) ← rank this (w.statics this.dl) heap a cpu inserted.2
  let t := { heap a with acceptedt := rtfTaskGetRuntime (heap a),
                         acceptedu := if taskUtil ≠ -1 then taskUtil else 0 }
  let this ← this.addUtil t.cpu (-t.acceptedu)
  let this ← this.addCount t.cpu 1
  .ok (({ w with heap := heap }.setTask a t |>.setPlugin i this).setStatics this.dl st)

def rtfPlgTaskAttach (k : Kernel) (t : Task) : Res × Kernel := attachPosix .fifo k t

def rtfPlgTaskDetach (k : Kernel) (t : Task) : Res × Kernel := detachThread k t

/-- The first loop of `rtf_plg_task_release`: another task of the list has the
period of `t`. -/
def hasTwin (heap : Heap) (t : Task) (root : List Addr) : Bool :=
  root.any fun b => (heap b).params.period == t.params.period && (heap b).id != t.id

/-- `dist_prio` is taken down when a twin is found. -/
def uncount (st : Statics) (cpu : ℕ) (twin : Bool) : Except Fault Statics :=
  if twin then do
    checkCore cpu
    .ok (st.addDist cpu (-1))
  else .ok st

/-- The utilisation of `t`, if it took any, is free again. -/
def giveBack (this : Plugin) (cpu : ℕ) (acceptedu : ℚ) : Except Fault Plugin :=
  if acceptedu ≠ 0 then this.addUtil cpu acceptedu else .ok this

def rtfPlgTaskRelease (w : World) (i : ℕ) (a : Addr) : Except Fault (Res × World) := do
  let this := w.plugin i
  let t := w.heap a
  let ts ← this.read this.tasks t.cpu
  let st ← uncount (w.statics this.dl) t.cpu (hasTwin w.heap t ts.root)
  let this ← giveBack this t.cpu t.acceptedu
  let this := this.setTasks t.cpu (rtfTasksetRemoveByRsvid w.heap ts t.id).2
  let this ← this.addCount t.cpu (-1)
  let w := ((w.setPlugin i this).setStatics this.dl st).setTask a { t with pluginid := -1 }
  let (res, kernel) := releaseThread .fifo w.kernel t
  .ok (res, { w with kernel := kernel })

end RM
end Retif
