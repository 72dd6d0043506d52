/-
# The scheduler

`retif_scheduler.c` and the table of plugins it dispatches on
(`rtf_plugins_init`, the seven function pointers). The scheduler asks the
plugins in the order of the table, takes the first that answers `RTF_OK`, else
the first that answered `RTF_PARTIAL`.

A task is an address; `next` is the address the next `calloc` gives out, and a
freed address is not given out again. The counter `last_task_id` is unbounded
here: a task's id is its low 32 bits, whatever width the counter has.

Key definitions: `Sched`, `rtfPluginsInit`, `Sched.start`, `selectPlugin`,
`rtfSchedulerTaskCreate`, `rtfSchedulerTaskChange`, `rtfSchedulerTaskAttach`,
`rtfSchedulerTaskDetach`, `rtfSchedulerTaskDestroy`, `rtfSchedulerDelete`, `step`.
-/
import Retif.EDF
import Retif.RM
import Retif.RR
import Retif.FP

namespace Retif

open CList

/-! ### Dispatch on the image of a plugin -/

def rtfPlgTaskAccept (this : Plugin) (t : Task) : Except Fault Res :=
  match this.kind with
  | .edf => EDF.rtfPlgTaskAccept this t
  | .rm => RM.rtfPlgTaskAccept this t
  | .rr => RR.rtfPlgTaskAccept this t
  | .fp => FP.rtfPlgTaskAccept this t

def rtfPlgTaskChange (this : Plugin) (t : Task) : Except Fault (Res × Plugin) :=
  match this.kind with
  | .edf => EDF.rtfPlgTaskChange this t
  | .rm => RM.rtfPlgTaskChange this t
  | .rr => RR.rtfPlgTaskChange this t
  | .fp => FP.rtfPlgTaskChange this t

def rtfPlgTaskSchedule (w : World) (i : ℕ) (a : Addr) : Except Fault World :=
  match (w.plugin i).kind with
  | .edf => EDF.rtfPlgTaskSchedule w i a
  | .rm => RM.rtfPlgTaskSchedule w i a
  | .rr => RR.rtfPlgTaskSchedule w i a
  | .fp => FP.rtfPlgTaskSchedule w i a

def rtfPlgTaskRelease (w : World) (i : ℕ) (a : Addr) : Except Fault (Res × World) :=
  match (w.plugin i).kind with
  | .edf => EDF.rtfPlgTaskRelease w i a
  | .rm => RM.rtfPlgTaskRelease w i a
  | .rr => RR.rtfPlgTaskRelease w i a
  | .fp => FP.rtfPlgTaskRelease w i a

def rtfPlgTaskAttach (this : Plugin) (k : Kernel) (t : Task) : Res × Kernel :=
  match this.kind with
  | .edf => EDF.rtfPlgTaskAttach k t
  | .rm => RM.rtfPlgTaskAttach k t
  | .rr => RR.rtfPlgTaskAttach k t
  | .fp => FP.rtfPlgTaskAttach k t

def rtfPlgTaskDetach (this : Plugin) (k : Kernel) (t : Task) : Res × Kernel :=
  match this.kind with
  | .edf => EDF.rtfPlgTaskDetach k t
  | .rm => RM.rtfPlgTaskDetach k t
  | .rr => RR.rtfPlgTaskDetach k t
  | .fp => FP.rtfPlgTaskDetach k t

/-! ### The table of plugins -/

/-- `conf_plugin_t`. -/
structure ConfPlugin where
  name : List UInt8
  pluginPath : List UInt8
  priorityMin : ℤ
  priorityMax : ℤ
  cores : List ℤ
  deriving DecidableEq

/-- What `dlopen` gives for a file: its code, and the one copy of its statics. -/
structure Image where
  kind : Kind
  dl : ℕ
  deriving DecidableEq

/-- Each plugin is loaded from a file of its own. -/
def OwnFiles (load : List UInt8 → Option Image) (confs : List ConfPlugin) : Prop :=
  (confs.map fun c => (load c.pluginPath).map Image.dl).Nodup

instance (load : List UInt8 → Option Image) (confs : List ConfPlugin) : Decidable (OwnFiles load confs) := by
  unfold OwnFiles; infer_instance

/-- One turn of the loop of `rtf_plugins_init`. `alloc cputot` is the number of
entries the per-core tables get. -/
def initPlugin (alloc : ℕ → Option ℕ) (i : ℕ) (c : ConfPlugin) (img : Image) : Plugin where
  id := i
  name := c.name
  kind := img.kind
  dl := img.dl
  prioMin := c.priorityMin
  prioMax := c.priorityMax
  cpulist := c.cores.map Int.toNat
  entries := alloc c.cores.length
  utilFreePercpu := fun _ => 1
  taskCountPercpu := fun _ => 0
  tasks := fun _ => listInit

/-- The plugins from index `i` on; `none` when a file does not open. -/
def initPlugins (alloc : ℕ → Option ℕ) (load : List UInt8 → Option Image) :
    ℕ → List ConfPlugin → Option (List Plugin)
  | _, [] => some []
  | i, c :: cs => do
    let img ← load c.pluginPath
    let plgs ← initPlugins alloc load (i + 1) cs
    some (initPlugin alloc i c img :: plgs)

def rtfPluginsInit (alloc : ℕ → Option ℕ) (load : List UInt8 → Option Image) (confs : List ConfPlugin) :
    Option (List Plugin) :=
  initPlugins alloc load 0 confs

/-- `calloc(cputot, ...)`, as the source allocates the per-core tables. -/
def byPosition : ℕ → Option ℕ := some

/-- The per-core tables read as maps from core id. -/
def asMaps : ℕ → Option ℕ := fun _ => none

/-! ### The state -/

/-- `struct rtf_scheduler`, with the memory and the kernel it works on. -/
structure Sched extends World where
  numOfPlugins : ℕ
  lastTaskId : ℕ
  taskset : Taskset
  next : Addr

/-- The state `rtf_scheduler_init` leaves, with an empty taskset. -/
def Sched.start (plgs : List Plugin) (k : Kernel) : Sched where
  plugin := fun i => plgs.getD i (initPlugin byPosition i ⟨[], [], 0, 0, []⟩ ⟨.fp, 0⟩)
  statics := fun _ => ⟨fun _ => 0, fun _ _ => 0⟩
  heap := fun _ => Task.zero
  kernel := k
  numOfPlugins := plgs.length
  lastTaskId := 0
  taskset := listInit
  next := 0

/-- `s->plugin[id]`. -/
def Sched.pluginAt (s : Sched) (id : ℤ) : Except Fault ℕ :=
  if 0 ≤ id ∧ id < s.numOfPlugins then .ok id.toNat else .error .plugin

/-! ### Choosing a plugin -/

section Select

/-- The first loop of `test_and_assign` and `test_and_modify`: ask the plugins
until one answers `RTF_OK`, and keep the other answers. -/
def firstPass (ask : World → ℕ → Except Fault (Res × World)) :
    List ℕ → World → Except Fault (Option ℕ × List (ℕ × Res) × World)
  | [], w => .ok (none, [], w)
  | i :: is, w => do
    let (res, w) ← ask w i
    if res = .ok then .ok (some i, [], w)
    else do
      let (found, results, w) ← firstPass ask is w
      .ok (found, (i, res) :: results, w)

/-- Both loops: the plugin chosen and its answer, if there is one. -/
def selectPlugin (ask : World → ℕ → Except Fault (Res × World)) (n : ℕ) (w : World) :
    Except Fault (Option (ℕ × Res) × World) := do
  let (found, results, w) ← firstPass ask (List.range n) w
  match found with
  | some i => .ok (some (i, .ok), w)
  | none => .ok (results.find? fun r => r.2 = .part, w)

/-- `rtf_plg_task_accept` of plugin `i`, asked about the task at `a`. -/
def askAccept (a : Addr) (w : World) (i : ℕ) : Except Fault (Res × World) := do
  let res ← rtfPlgTaskAccept (w.plugin i) (w.heap a)
  .ok (res, w)

/-- `rtf_plg_task_change` of plugin `i`, asked about the task at `a`. -/
def askChange (a : Addr) (w : World) (i : ℕ) : Except Fault (Res × World) := do
  let (res, this) ← rtfPlgTaskChange (w.plugin i) (w.heap a)
  .ok (res, w.setPlugin i this)

end Select

/-! ### The operations -/

def rtfSchedulerTestAndAssign (s : Sched) (a : Addr) : Except Fault (Res × Sched) := do
  let (chosen, w) ← selectPlugin (askAccept a) s.numOfPlugins s.toWorld
  match chosen with
  | some (i, res) => do
    let taskset := rtfTasksetAddTop s.taskset a
    let w ← rtfPlgTaskSchedule w i a
    .ok (res, { s with toWorld := w, taskset := taskset })
  | none => .ok (.no, { s with toWorld := w })

/-- Release and schedule are both those of the plugin that accepts. -/
def rtfSchedulerTestAndModify (s : Sched) (a : Addr) : Except Fault (Res × Sched) := do
  let (chosen, w) ← selectPlugin (askChange a) s.numOfPlugins s.toWorld
  match chosen with
  | some (i, res) => do
    let (_, w) ← rtfPlgTaskRelease w i a
    let w ← rtfPlgTaskSchedule w i a
    .ok (res, { s with toWorld := w })
  | none => .ok (.no, { s with toWorld := w })

/-- The id the next `rtf_scheduler_task_create` gives out. -/
def Sched.nextId (s : Sched) : UInt32 := UInt32.ofNat (s.lastTaskId + 1)

/-- The record `rtf_scheduler_task_create` fills in. -/
def newTask (id : UInt32) (ppid : Pid) (tp : Params) : Task :=
  { Task.zero with id := id, ptid := ppid, pluginid := -1, params := tp }

/-- The state with that record allocated. -/
def Sched.alloc (s : Sched) (tp : Params) (ppid : Pid) : Sched :=
  { s with
    heap := Function.update s.heap s.next (newTask s.nextId ppid tp)
    lastTaskId := s.lastTaskId + 1
    next := s.next + 1 }

def rtfSchedulerTaskCreate (s : Sched) (tp : Params) (ppid : Pid) : Except Fault (Res × Sched) :=
  rtfSchedulerTestAndAssign (s.alloc tp ppid) s.next

/-- The parameters `tp` of the request are not looked at. -/
def rtfSchedulerTaskChange (s : Sched) (_tp : Params) (rtfId : UInt32) : Except Fault (Res × Sched) :=
  match rtfTasksetSearch s.heap s.taskset rtfId with
  | none => .ok (.error, s)
  | some a => rtfSchedulerTestAndModify s a

def rtfSchedulerTaskAttach (s : Sched) (rtfId : UInt32) (pid : Pid) : Except Fault (Res × Sched) :=
  match rtfTasksetSearch s.heap s.taskset rtfId with
  | none => .ok (.error, s)
  | some a => do
    let t := { s.heap a with tid := pid }
    let i ← s.pluginAt t.pluginid
    let (res, kernel) := rtfPlgTaskAttach (s.plugin i) s.kernel t
    .ok (res, { s with heap := Function.update s.heap a t, kernel := kernel })

def rtfSchedulerTaskDetach (s : Sched) (rtfId : UInt32) : Except Fault (Res × Sched) :=
  match rtfTasksetSearch s.heap s.taskset rtfId with
  | none => .ok (.error, s)
  | some a => do
    let i ← s.pluginAt (s.heap a).pluginid
    let (res, kernel) := rtfPlgTaskDetach (s.plugin i) s.kernel (s.heap a)
    .ok (res, { s with kernel := kernel })

/-- Release by the plugin the task names, then free the record. -/
def releaseTask (s : Sched) (a : Addr) : Except Fault Sched := do
  let i ← s.pluginAt (s.heap a).pluginid
  let (_, w) ← rtfPlgTaskRelease s.toWorld i a
  .ok { s with toWorld := w }

def rtfSchedulerTaskDestroy (s : Sched) (rtfId : UInt32) : Except Fault (Res × Sched) :=
  match rtfTasksetRemoveByRsvid s.heap s.taskset rtfId with
  | (none, _) => .ok (.error, s)
  | (some a, ts) => do
    let s ← releaseTask { s with taskset := ts } a
    .ok (.ok, s)

/-- The loop of `rtf_scheduler_delete`; a turn takes one task out of the
taskset, so its length bounds the turns (`deleteLoop_none_left`). -/
def deleteLoop (ppid : Pid) : ℕ → Sched → Except Fault Sched
  | 0, s => .ok s
  | fuel + 1, s =>
    match rtfTasksetRemoveByPpid s.heap s.taskset ppid with
    | (none, _) => .ok s
    | (some a, ts) => do
      let s ← releaseTask { s with taskset := ts } a
      deleteLoop ppid fuel s

def rtfSchedulerDelete (s : Sched) (ppid : Pid) : Except Fault Sched :=
  deleteLoop ppid (listGetSize s.taskset) s

/-! ### The scheduler as a system -/

/-- An operation of the scheduler. `delete` is what a disconnection causes. -/
inductive Op where
  | create (tp : Params) (ppid : Pid)
  | change (tp : Params) (rtfId : UInt32)
  | attach (rtfId : UInt32) (pid : Pid)
  | detach (rtfId : UInt32)
  | destroy (rtfId : UInt32)
  | delete (ppid : Pid)

def step (s : Sched) : Op → Except Fault (Res × Sched)
  | .create tp ppid => rtfSchedulerTaskCreate s tp ppid
  | .change tp rtfId => rtfSchedulerTaskChange s tp rtfId
  | .attach rtfId pid => rtfSchedulerTaskAttach s rtfId pid
  | .detach rtfId => rtfSchedulerTaskDetach s rtfId
  | .destroy rtfId => rtfSchedulerTaskDestroy s rtfId
  | .delete ppid => do
    let s ← rtfSchedulerDelete s ppid
    .ok (.ok, s)

end Retif
