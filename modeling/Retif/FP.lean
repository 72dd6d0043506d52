/-
# The FP plugin

`plugins/sched_FP.c`: the declared priorities, mapped into the plugin's
window, on `SCHED_FIFO`. No lists and no statics are kept.

Key definitions: `FP.prioRemap`, `FP.rtfPlgTaskAccept`,
`FP.rtfPlgTaskSchedule`, `FP.rtfPlgTaskRelease`.
-/
import Retif.RR

namespace Retif
namespace FP

/-- "Given min/max plugin prio, normalize `prio` in that window". -/
def prioRemap (maxPrioS minPrioS prio : UInt32) : UInt32 :=
  let slope : ℚ := ((maxPrioS - minPrioS).toNat : ℚ) /
    ((schedGetPriorityMax - schedGetPriorityMin).toNat : ℚ)
  toU32 (minPrioS.toNat + slope * (prio - schedGetPriorityMin).toNat)

def leastLoadedCpu (this : Plugin) : Except Fault ℕ := fewestTasks this

def rtfPlgTaskAccept (this : Plugin) (t : Task) : Except Fault Res := .ok (acceptAnyway this t)

def rtfPlgTaskChange (this : Plugin) (t : Task) : Except Fault (Res × Plugin) := do
  let testRes ← rtfPlgTaskAccept this t
  .ok (testRes, this)

/-- The real priority of a declared one. -/
def realPriority (this : Plugin) (priority : UInt32) : UInt32 :=
  if priority = 0 then UInt32.ofInt this.prioMin
  else prioRemap (UInt32.ofInt this.prioMax) (UInt32.ofInt this.prioMin) priority

def rtfPlgTaskSchedule (w : World) (i : ℕ) (a : Addr) : Except Fault World := do
  let this := w.plugin i
  let cpu ← leastLoadedCpu this
  let t := { w.heap a with cpu := cpu, pluginid := this.id,
                           schedprio := realPriority this (rtfTaskGetPriority (w.heap a)) }
  let this ← this.addCount t.cpu 1
  .ok ((w.setTask a t).setPlugin i this)

def rtfPlgTaskAttach (k : Kernel) (t : Task) : Res × Kernel := attachPosix .fifo k t

def rtfPlgTaskDetach (k : Kernel) (t : Task) : Res × Kernel := detachThread k t

def rtfPlgTaskRelease (w : World) (i : ℕ) (a : Addr) : Except Fault (Res × World) := do
  let t := w.heap a
  let this ← (w.plugin i).addCount t.cpu (-1)
  let w := (w.setPlugin i this).setTask a { t with pluginid := -1 }
  let (res, kernel) := releaseThread .fifo w.kernel t
  .ok (res, { w with kernel := kernel })

end FP
end Retif
