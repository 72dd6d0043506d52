/-
# The EDF plugin

`plugins/sched_EDF.c`. A task is accepted when some core has its utilisation
free; it is then put on the core `least_loaded_cpu` names and given its
desired runtime, its runtime, or what is left of that core.

Key definitions: `EDF.rtfPlgTaskAccept`, `EDF.rtfPlgTaskChange`,
`EDF.grant`, `EDF.rtfPlgTaskSchedule`, `EDF.rtfPlgTaskRelease`.
-/
import Retif.Plugin

namespace Retif
namespace EDF

def leastLoadedCpu (this : Plugin) : Except Fault ℕ := mostFree this

/-- The admission test on the budgets. -/
def admission (this : Plugin) (t : Task) : Except Fault Res :=
  if rtfTaskGetDesUtil t = -1 then utilizationTest this (rtfTaskGetUtil t)
  else desiredUtilizationTest this (rtfTaskGetUtil t) (rtfTaskGetDesUtil t)

def rtfPlgTaskAccept (this : Plugin) (t : Task) : Except Fault Res :=
  if rtfTaskGetIgnoreAdmission t ≠ 0 then .ok .no
  else if rtfTaskGetPeriod t = 0 then .ok .no
  else if rtfTaskGetUtil t = -1 then .ok .no
  else do
    let testRes ← admission this t
    .ok (demote this t testRes)

/-- The test without the task's own utilisation, which is put back. -/
def rtfPlgTaskChange (this : Plugin) (t : Task) : Except Fault (Res × Plugin) :=
  if t.pluginid = this.id then do
    let this ← this.addUtil t.cpu t.acceptedu
    let testRes ← rtfPlgTaskAccept this t
    let this ← this.addUtil t.cpu (-t.acceptedu)
    .ok (testRes, this)
  else do
    let testRes ← rtfPlgTaskAccept this t
    .ok (testRes, this)

/-- What `t`, placed on `t.cpu`, is granted. -/
def grant (this : Plugin) (t : Task) : Except Fault Task :=
  if rtfTaskGetDesUtil t = -1 then
    .ok { t with acceptedt := rtfTaskGetRuntime t, acceptedu := rtfTaskGetUtil t }
  else do
    let res ← desiredUtilizationTest this (rtfTaskGetUtil t) (rtfTaskGetDesUtil t)
    if res = .ok then
      .ok { t with acceptedt := rtfTaskGetDesRuntime t, acceptedu := rtfTaskGetUtil t }
    else do
      let free ← this.read this.utilFreePercpu t.cpu
      let acceptedt := toU64 (free * (rtfTaskGetMinDeclared t).toNat)
      .ok { t with acceptedt := acceptedt, acceptedu := acceptedt.toNat / (rtfTaskGetMinDeclared t).toNat }

def rtfPlgTaskSchedule (w : World) (i : ℕ) (a : Addr) : Except Fault World := do
  let this := w.plugin i
  let cpu ← leastLoadedCpu this
  let t ← grant this { w.heap a with cpu := cpu, pluginid := this.id }
  let this ← this.addUtil t.cpu (-t.acceptedu)
  let this ← this.addCount t.cpu 1
  .ok ((w.setTask a t).setPlugin i this)

def rtfPlgTaskAttach (k : Kernel) (t : Task) : Res × Kernel := attachDeadline k t

def rtfPlgTaskDetach (k : Kernel) (t : Task) : Res × Kernel := detachThread k t

def rtfPlgTaskRelease (w : World) (i : ℕ) (a : Addr) : Except Fault (Res × World) := do
  let t := w.heap a
  let this ← (w.plugin i).addUtil t.cpu t.acceptedu
  let this ← this.addCount t.cpu (-1)
  let w := (w.setPlugin i this).setTask a { t with pluginid := -1 }
  let (res, kernel) := releaseThread .deadline w.kernel t
  .ok (res, { w with kernel := kernel })

end EDF
end Retif
