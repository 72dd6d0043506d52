/-
# The monitor

`monitor/main.c`: a client that asks for the numbers of connections, plugins
and tasks and then for each of them. The connections and the tasks are asked
for one descriptor after another, and the loop goes on until as many have
answered as were counted; what it prints ends with the last of them.

The daemon serves nobody else while a screen is printed (`Session`). Then the
slots asked about are below `CHANNEL_MAX_SIZE`, and the tasks are shown in the
order of their ids. A client that leaves between the count and the list leads
the loop behind the table, where the daemon does not check the slot. The name
printed for a task's plugin is the one at its index in a table of four.

Key definitions: `Halt`, `Line`, `printConnections`, `printPlugins`,
`printTasks`, `screen`, `shownClients`, `shownPlugins`, `shownTasks`,
`EndsInTable`, `ReadsBehind`.
Key theorems: `connections_shown`, `connections_iff`, `plugins_shown`,
`tasks_shown`, `screen_run`.
-/
import Retif.Reservations
import Retif.Records
import Retif.Placement
import Retif.Unique
import Retif.Lib.Seeking

namespace Retif

open Memory Seeking Traces

/-! ### The program -/

/-- What stops the monitor. -/
inductive Halt where
  /-- the daemon stopped -/
  | daemon (f : Fault)
  /-- `printerr` -/
  | exit
  /-- a table of names, outside of it -/
  | names
  /-- the turns ran out -/
  | turns
  deriving DecidableEq, Repr

/-- A line on the screen; `freeu` and `util` are the bits of a `float`. -/
inductive Line where
  | clients (n : ℤ)
  | client (desc : ℕ) (pid : ℤ) (state : String)
  | plugins (n : ℤ)
  | plugin (i : ℕ) (name : List UInt8) (cputot : ℤ)
  | cpu (cpunum : ℤ) (freeu : UInt32) (ntask : ℤ)
  | noData (i : ℕ)
  | tasks (n : ℤ)
  | task (desc : ℕ) (tid ppid priority period : ℤ) (util : UInt32) (plugin : String)
  deriving DecidableEq, Repr

def CLIENT_STATE_STRINGS : List String := ["EMPTY", "CONNECTED", "DISCONNECTED", "ERROR"]

def PLUGIN_NAME_STRINGS : List String := ["EDF", "RM", "RR", "FP"]

def nameIn (table : List String) (i : Int32) : Except Halt String :=
  if i.toInt < 0 then .error .names
  else
    match table[i.toInt.toNat]? with
    | none => .error .names
    | some name => .ok name

def stringFromState (s : Int32) : Except Halt String := nameIn CLIENT_STATE_STRINGS s

def stringFromName (s : Int32) : Except Halt String := nameIn PLUGIN_NAME_STRINGS s

section Program

variable (cli : ℕ) (pad : Call → Buf REPLY_SIZE)

/-- A call of the library. -/
def ask (w : Session) (c : Call) : Except Halt (Answer × Session) :=
  match w.call cli pad c with
  | .error f => .error (.daemon f)
  | .ok p => .ok p

/-- A query for a number, of which the monitor exits on an error. -/
def askCount (w : Session) (c : Call) : Except Halt (ℤ × Session) := do
  let (ans, w) ← ask cli pad w c
  match ans with
  | .count n => if n = -1 then .error .exit else .ok (n, w)
  | _ => .error .exit

/-- A query for a record; `none` is an error. -/
def askRecord (w : Session) (c : Call) : Except Halt (Option (List UInt8) × Session) := do
  let (ans, w) ← ask cli pad w c
  match ans with
  | .info data => .ok (data, w)
  | _ => .ok (none, w)

/-- One turn of the loop of `printConnections`. -/
def printConnection (desc : ℕ) (w : Session) : Except Halt (Option Line × Session) := do
  let (data, w) ← askRecord cli pad w (.connectionInfo (.ofNat desc))
  match data with
  | none => .ok (none, w)
  | some bs => do
    let data := RtfClientInfo.ofBytes bs
    let state ← stringFromState data.state
    .ok (some (.client desc data.pid.toInt state), w)

def printConnections (fuel : ℕ) (w : Session) : Except Halt (List Line × Session) := do
  let (nconn, w) ← askCount cli pad w .connectionsInfo
  let (found, w) ← seek .turns (printConnection cli pad) fuel 0 nconn.toNat w
  .ok (.clients nconn :: found, w)

/-- One turn of the loop of `printCPUs`. -/
def printCPU (nplug i : ℕ) (w : Session) : Except Halt (List Line × Session) := do
  let (data, w) ← askRecord cli pad w (.pluginCpuInfo (.ofNat nplug) (.ofNat i))
  match data with
  | none => .ok ([.noData i], w)
  | some bs =>
    let data := RtfCpuInfo.ofBytes bs
    .ok ([.cpu data.cpunum.toInt data.freeu data.ntask.toInt], w)

def printCPUs (nplug ncpu : ℕ) (w : Session) : Except Halt (List Line × Session) :=
  forEach (printCPU cli pad nplug) (List.range ncpu) w

/-- One turn of the loop of `printPlugins`. -/
def printPlugin (i : ℕ) (w : Session) : Except Halt (List Line × Session) := do
  let (data, w) ← askRecord cli pad w (.pluginInfo (.ofNat i))
  match data with
  | none => .ok ([.noData i], w)
  | some bs => do
    let data := RtfPluginInfo.ofBytes bs
    let (cpus, w) ← printCPUs cli pad i data.cputot.toUInt32.toNat w
    .ok (.plugin i data.name data.cputot.toInt :: cpus, w)

def printPlugins (w : Session) : Except Halt (List Line × Session) := do
  let (nplug, w) ← askCount cli pad w .pluginsInfo
  let (found, w) ← forEach (printPlugin cli pad) (List.range nplug.toNat) w
  .ok (.plugins nplug :: found, w)

/-- One turn of the loop of `printTasks`. -/
def printTask (desc : ℕ) (w : Session) : Except Halt (Option Line × Session) := do
  let (data, w) ← askRecord cli pad w (.taskInfo (.ofNat desc))
  match data with
  | none => .ok (none, w)
  | some bs => do
    let data := RtfTaskInfo.ofBytes bs
    let plugin ← stringFromName data.pluginid
    .ok (some (.task desc data.tid.toInt data.ppid.toInt data.priority.toInt data.period.toInt data.util plugin), w)

/-- The descriptors of tasks start at 1. -/
def printTasks (fuel : ℕ) (w : Session) : Except Halt (List Line × Session) := do
  let (ntask, w) ← askCount cli pad w .tasksInfo
  let (found, w) ← seek .turns (printTask cli pad) fuel 1 ntask.toNat w
  .ok (.tasks ntask :: found, w)

/-- A turn of the loop of `main`. -/
def screen (fuel : ℕ) (w : Session) : Except Halt (List Line × Session) := do
  let (clients, w) ← printConnections cli pad fuel w
  let (plugins, w) ← printPlugins cli pad w
  let (tasks, w) ← printTasks cli pad fuel w
  .ok (clients ++ plugins ++ tasks, w)

end Program

/-! ### What there is to show -/

def ClientState.shown : ClientState → String
  | .empty => "EMPTY"
  | .connected => "CONNECTED"
  | .disconnected => "DISCONNECTED"
  | .error => "ERROR"

/-- What a slot has to show. -/
def clientLine (data : Daemon) (d : ℕ) : Option Line :=
  if (data.chann.client d).pid = 0 then none
  else some (.client d (data.chann.client d).pid.toInt (data.chann.client d).state.shown)

/-- The slots with a pid. -/
def shownClients (data : Daemon) : List Line :=
  let slots := (List.range CHANNEL_MAX_SIZE).filter fun d => (data.chann.client d).pid ≠ 0
  .clients slots.length :: slots.map fun d => .client d (data.chann.client d).pid.toInt (data.chann.client d).state.shown

/-- Core `k` of plugin `p`, with the entries at the position. -/
def cpuLine (p : Plugin) (k : ℕ) : Line :=
  .cpu (Int32.ofNat (p.cpulist.getD k 0)).toInt (Binary32.ofRat (p.utilFreePercpu k))
    (Int32.ofInt (p.taskCountPercpu k)).toInt

def pluginLines (i : ℕ) (p : Plugin) : List Line :=
  .plugin i (cstr (nameBytes p.name ++ leBytes 4 p.cpulist.length)) p.cpulist.length ::
    (List.range p.cpulist.length).map (cpuLine p)

def shownPlugins (data : Daemon) : List Line :=
  .plugins data.sched.numOfPlugins ::
    ((List.range data.sched.numOfPlugins).map fun i => pluginLines i (data.sched.plugin i)).flatten

/-- A task; its utilization is not in the reply. -/
def taskLine (pad : Call → Buf REPLY_SIZE) (t : Task) : Line :=
  .task t.id.toNat t.tid.toInt t.ptid.toInt t.schedprio.toInt32.toInt (Int32.ofNat t.params.period.toNat).toInt
    (wordAt (pad (.taskInfo t.id)).1 20) (PLUGIN_NAME_STRINGS.getD t.pluginid.toNat "")

/-- The tasks `order` one after the other. -/
def shownTasks (pad : Call → Buf REPLY_SIZE) (data : Daemon) (order : List Addr) : List Line :=
  .tasks order.length :: order.map fun a => taskLine pad (data.sched.heap a)

/-! ### The connections -/

section Screen

variable {cli : ℕ} {pad : Call → Buf REPLY_SIZE} {data : Daemon} {w : Session} {c : Call}

theorem ask_ok {p : Answer × Session} (h : w.call cli pad c = .ok p) : ask cli pad w c = .ok p := by
  unfold ask
  rw [h]

theorem askCount_ok {n : ℕ} {w' : Session} (h : w.call cli pad c = .ok (.count n, w')) :
    askCount cli pad w c = .ok ((n : ℤ), w') := by
  have hne : ¬ ((n : ℤ) = -1) := by omega
  unfold askCount
  rw [ask_ok h, ok_bind]
  dsimp only
  rw [if_neg hne]

theorem askRecord_ok {r : Option (List UInt8)} {w' : Session} (h : w.call cli pad c = .ok (.info r, w')) :
    askRecord cli pad w c = .ok (r, w') := by
  unfold askRecord
  rw [ask_ok h]
  rfl

theorem stringFromState_code (st : ClientState) : stringFromState (Int32.ofNat st.code) = .ok st.shown := by
  cases st <;> rfl

/-- What is kept and shown, position by position. -/
theorem filterMap_ite {α β : Type} (p : α → Prop) [DecidablePred p] (g : α → β) (l : List α) :
    l.filterMap (fun a => if p a then none else some (g a)) = (l.filter fun a => ¬ p a).map g := by
  induction l with
  | nil => rfl
  | cons a l ih =>
    by_cases h : p a
    · simp [h, ih]
    · simp [h, ih]

variable (cli pad)

/-- A slot below `CHANNEL_MAX_SIZE` is answered from the table. -/
theorem connection_printed {d : ℕ} (hw : Shows data w) (hd : d < CHANNEL_MAX_SIZE) :
    ∃ w', printConnection cli pad d w = .ok (clientLine data d, w') ∧ Shows data w' := by
  obtain ⟨w', hcall, hw'⟩ := client_described cli pad hw hd
  refine ⟨w', ?_, hw'⟩
  unfold printConnection clientLine
  rw [askRecord_ok hcall, ok_bind]
  by_cases hpid : (data.chann.client d).pid = 0
  · rw [if_pos hpid, if_pos hpid]
  · rw [if_neg hpid, if_neg hpid]
    dsimp only
    rw [clientInfo_bytes, stringFromState_code]
    rfl

/-- The slot behind the table is not caught. -/
theorem connection_past : printConnection cli pad CHANNEL_MAX_SIZE w = .error (.daemon .client) := by
  have hcall : w.call cli pad (.connectionInfo (.ofNat CHANNEL_MAX_SIZE)) = .error .client := by
    unfold Session.call
    rw [connectionInfo_past cli]
    rfl
  unfold printConnection askRecord ask
  rw [hcall]
  rfl

/-- The slots below `CHANNEL_MAX_SIZE` that have something to show. -/
theorem clientLine_count : (List.range' 0 CHANNEL_MAX_SIZE).countP (fun d => (clientLine data d).isSome) =
    (List.range CHANNEL_MAX_SIZE).countP fun d => (data.chann.client d).pid ≠ 0 := by
  rw [List.range_eq_range']
  apply List.countP_congr
  intro d _
  unfold clientLine
  by_cases hpid : (data.chann.client d).pid = 0
  · simp [hpid]
  · simp [hpid]

/-- **The connections**: each slot with a pid, once. -/
theorem connections_shown (hw : Shows data w) :
    ∃ w', Shows data w' ∧ Returns (fun fuel => printConnections cli pad fuel w) (shownClients data, w') := by
  obtain ⟨w₁, hcount, hw₁⟩ := clients_counted cli pad hw
  have hask : ∀ d w, 0 ≤ d → d < 0 + CHANNEL_MAX_SIZE → Shows data w →
      ∃ w', printConnection cli pad d w = .ok (clientLine data d, w') ∧ Shows data w' :=
    fun d w _ hd hw => connection_printed cli pad hw (by omega)
  obtain ⟨w₂, hw₂, turns, hseek⟩ := @seek_returns _ _ _ _ _ .turns _ _ _ _ _ hask clientLine_count hw₁
  refine ⟨w₂, hw₂, turns, ?_⟩
  intro fuel hfuel
  have hfound := hseek fuel hfuel
  dsimp only at hfound
  unfold printConnections
  dsimp only
  rw [askCount_ok hcount, ok_bind]
  dsimp only
  rw [Int.toNat_natCast, hfound, ok_bind, ← List.range_eq_range', List.countP_eq_length_filter]
  unfold shownClients clientLine
  rw [filterMap_ite]

/-- Told of `n` connections, the loop comes to its end, and the daemon has read
no slot but those of its table. -/
def EndsInTable (w : Session) (n : ℕ) : Prop :=
  ∃ lines w', Returns (fun fuel => seek .turns (printConnection cli pad) fuel 0 n w) (lines, w')

/-- The loop comes to ask for the slot behind the table, and the daemon reads
it; what it answers from there, and how the loop goes on, is left open. -/
def ReadsBehind (w : Session) (n : ℕ) : Prop :=
  ∃ turns, ∀ fuel, turns ≤ fuel → seek .turns (printConnection cli pad) fuel 0 n w = .error (.daemon .client)

/-- **A client that leaves between the count and the list**: told of `n`
connections, the loop ends within the table exactly when there still are as
many; where there are fewer, it asks for the slot behind the table. -/
theorem connections_iff (w : Session) (n : ℕ) :
    (EndsInTable cli pad w n ↔ n ≤ (List.range CHANNEL_MAX_SIZE).countP fun d => (w.data.chann.client d).pid ≠ 0) ∧
    (ReadsBehind cli pad w n ↔
      (List.range CHANNEL_MAX_SIZE).countP (fun d => (w.data.chann.client d).pid ≠ 0) < n) := by
  obtain ⟨data, hdata⟩ : ∃ data, w.data = data := ⟨w.data, rfl⟩
  have hw : Shows data w := ⟨by rw [hdata], by rw [hdata]⟩
  rw [hdata]
  have hends : n ≤ (List.range CHANNEL_MAX_SIZE).countP (fun d => (data.chann.client d).pid ≠ 0) →
      EndsInTable cli pad w n := by
    intro hle
    rw [← clientLine_count] at hle
    obtain ⟨m, hm, hcount⟩ := exists_count _ hle
    have hask : ∀ d w, 0 ≤ d → d < 0 + m → Shows data w →
        ∃ w', printConnection cli pad d w = .ok (clientLine data d, w') ∧ Shows data w' :=
      fun d w _ hd hw => connection_printed cli pad hw (by omega)
    obtain ⟨w', -, hret⟩ := @seek_returns _ _ _ _ _ .turns _ _ _ _ _ hask hcount hw
    exact ⟨_, w', hret⟩
  have hstops : (List.range CHANNEL_MAX_SIZE).countP (fun d => (data.chann.client d).pid ≠ 0) < n →
      ReadsBehind cli pad w n := by
    intro hlt
    rw [← clientLine_count] at hlt
    have hask : ∀ d w, 0 ≤ d → d < 0 + CHANNEL_MAX_SIZE → Shows data w →
        ∃ w', printConnection cli pad d w = .ok (clientLine data d, w') ∧ Shows data w' :=
      fun d w _ hd hw => connection_printed cli pad hw (by omega)
    have hend : ∀ w, Shows data w → printConnection cli pad (0 + CHANNEL_MAX_SIZE) w = .error (.daemon .client) := by
      intro w _
      rw [Nat.zero_add]
      exact connection_past cli pad
    exact seek_past hask hend hlt hw
  -- the two ends exclude each other
  have hnot : EndsInTable cli pad w n → ¬ ReadsBehind cli pad w n := by
    rintro ⟨lines, w', t, ht⟩ ⟨t', ht'⟩
    have h := ht (max t t') (le_max_left ..)
    dsimp only at h
    rw [ht' (max t t') (le_max_right ..)] at h
    cases h
  refine ⟨⟨?_, hends⟩, ⟨?_, hstops⟩⟩
  · intro hend
    by_contra hle
    exact hnot hend (hstops (not_le.mp hle))
  · intro hstop
    by_contra hle
    exact hnot (hends (not_lt.mp hle)) hstop

/-! ### The plugins -/

theorem toNat_toInt {n : ℕ} (h : n < 2 ^ 31) : (Int32.ofNat n).toInt = n ∧ (Int32.ofNat n).toUInt32.toNat = n := by
  refine ⟨?_, ?_⟩
  · rw [← Int32.ofInt_eq_ofNat, Int32.toInt_ofInt_of_le (by omega) (by omega)]
  · rw [← UInt32.toInt32_ofNat', UInt32.toUInt32_toInt32, UInt32.toNat_ofNat_of_lt' (h.trans (by decide))]

/-- **The plugins**, and what is kept at each position of their cores. -/
theorem plugins_shown (hw : Shows data w) (hplgs : data.sched.numOfPlugins < 2 ^ 31)
    (htab : ∀ i < data.sched.numOfPlugins, ∀ k < (data.sched.plugin i).cpulist.length, (data.sched.plugin i).InTable k)
    (hcores : ∀ i < data.sched.numOfPlugins, (data.sched.plugin i).cpulist.length < 2 ^ 31) :
    ∃ w', Shows data w' ∧ printPlugins cli pad w = .ok (shownPlugins data, w') := by
  obtain ⟨w₁, hcount, hw₁⟩ := plugins_counted cli pad hw hplgs
  have hplugin : ∀ i ∈ List.range data.sched.numOfPlugins, ∀ w, Shows data w →
      ∃ w', printPlugin cli pad i w = .ok (pluginLines i (data.sched.plugin i), w') ∧ Shows data w' := by
    intro i hi w hw
    have hi := List.mem_range.mp hi
    obtain ⟨w₁, hinfo, hw₁⟩ := plugin_described cli pad hw hi (by omega)
    have hcpu : ∀ k ∈ List.range (data.sched.plugin i).cpulist.length, ∀ w, Shows data w →
        ∃ w', printCPU cli pad i k w = .ok ([cpuLine (data.sched.plugin i) k], w') ∧ Shows data w' := by
      intro k hk w hw
      have hk := List.mem_range.mp hk
      have hlen := hcores i hi
      obtain ⟨w', hcall, hw'⟩ := cpu_described cli pad hw (htab i hi k hk) hi (by omega) hk (by omega)
      refine ⟨w', ?_, hw'⟩
      unfold printCPU
      rw [askRecord_ok hcall, ok_bind]
      dsimp only
      rw [cpuInfo_bytes]
      rfl
    obtain ⟨w₂, hcpus, hw₂⟩ := forEach_ok hcpu hw₁
    refine ⟨w₂, ?_, hw₂⟩
    unfold printPlugin
    rw [askRecord_ok hinfo, ok_bind]
    dsimp only
    rw [pluginInfo_bytes]
    dsimp only
    unfold printCPUs
    rw [(toNat_toInt (hcores i hi)).2, hcpus, ok_bind]
    dsimp only
    rw [(toNat_toInt (hcores i hi)).1]
    have hlines : ((List.range (data.sched.plugin i).cpulist.length).map fun k =>
        [cpuLine (data.sched.plugin i) k]).flatten =
          (List.range (data.sched.plugin i).cpulist.length).map (cpuLine (data.sched.plugin i)) := by
      rw [← List.flatMap_def, List.map_eq_flatMap]
    rw [hlines]
    rfl
  obtain ⟨w₂, hall, hw₂⟩ := forEach_ok hplugin hw₁
  refine ⟨w₂, hw₂, ?_⟩
  unfold printPlugins
  rw [askCount_ok hcount, ok_bind]
  dsimp only
  rw [Int.toNat_natCast, hall]
  rfl

/-! ### The tasks -/

theorem stringFromName_index {i : ℕ} (h : i < 4) :
    stringFromName (Int32.ofInt i) = .ok (PLUGIN_NAME_STRINGS.getD i "") := by
  interval_cases i <;> rfl

/-- The tasks in the order of their ids, as the loop comes to them. -/
def byId (s : Sched) : List Addr :=
  (List.range' 1 s.lastTaskId).filterMap fun d => rtfTasksetSearch s.heap s.taskset (.ofNat d)

section Order

variable {s : Sched} {a : Addr} {d : ℕ}

theorem search_id (hlt : s.lastTaskId < 2 ^ 31) (hd : d ∈ List.range' 1 s.lastTaskId)
    (h : rtfTasksetSearch s.heap s.taskset (.ofNat d) = some a) : (s.heap a).id.toNat = d := by
  have hd := List.mem_range'_1.mp hd
  rw [(rtfTasksetSearch_some h).2]
  exact UInt32.toNat_ofNat_of_lt' (by rw [UInt32.size]; omega)

/-- **Each task once, by its id.** -/
theorem byId_perm (hd : (idsOf s.heap s.taskset.root).Nodup)
    (hids : ∀ a ∈ s.taskset.root, 0 < (s.heap a).id.toNat ∧ (s.heap a).id.toNat ≤ s.lastTaskId)
    (hlt : s.lastTaskId < 2 ^ 31) :
    (byId s).Perm s.taskset.root ∧ (byId s).Pairwise fun a b => (s.heap a).id.toNat < (s.heap b).id.toNat := by
  have hpair : (byId s).Pairwise fun a b => (s.heap a).id.toNat < (s.heap b).id.toNat := by
    apply List.pairwise_filterMap.mpr
    refine List.Pairwise.imp_of_mem ?_ List.pairwise_lt_range'
    intro d e hmd hme hde a ha b hb
    rw [search_id hlt hmd ha, search_id hlt hme hb]
    exact hde
  have hnodup : (byId s).Nodup := by
    refine hpair.imp ?_
    rintro a b hab rfl
    exact hab.false
  refine ⟨(List.perm_ext_iff_of_nodup hnodup hd.of_map).mpr ?_, hpair⟩
  intro a
  unfold byId
  rw [List.mem_filterMap]
  constructor
  · rintro ⟨d, -, ha⟩
    exact (rtfTasksetSearch_some ha).1
  · intro ha
    have hin : (s.heap a).id.toNat ∈ List.range' 1 s.lastTaskId := by
      have hid := hids a ha
      apply List.mem_range'_1.mpr
      omega
    refine ⟨(s.heap a).id.toNat, hin, ?_⟩
    rw [UInt32.ofNat_toNat]
    exact (Unique.of_distinct hd).found a ha

end Order

/-- **The tasks**: each that is live, once, by its id. -/
theorem tasks_shown (hw : Shows data w) (hd : (idsOf data.sched.heap data.sched.taskset.root).Nodup)
    (hids : ∀ a ∈ data.sched.taskset.root,
      0 < (data.sched.heap a).id.toNat ∧ (data.sched.heap a).id.toNat ≤ data.sched.lastTaskId)
    (hlt : data.sched.lastTaskId < 2 ^ 31)
    (hplg : ∀ a ∈ data.sched.taskset.root, ∃ i : ℕ, i < 4 ∧ (data.sched.heap a).pluginid = i) :
    ∃ w', Shows data w' ∧
      Returns (fun fuel => printTasks cli pad fuel w) (shownTasks pad data (byId data.sched), w') := by
  obtain ⟨hperm, -⟩ := byId_perm hd hids hlt
  have hlen : data.sched.taskset.root.length < 2 ^ 31 := by
    have hle : (byId data.sched).length ≤ (List.range' 1 data.sched.lastTaskId).length := List.length_filterMap_le ..
    rw [List.length_range'] at hle
    rw [← hperm.length_eq]
    omega
  obtain ⟨w₁, hcount, hw₁⟩ := tasks_counted cli pad hw hlen
  have hask : ∀ d w, 1 ≤ d → d < 1 + data.sched.lastTaskId → Shows data w → ∃ w', printTask cli pad d w =
      .ok ((rtfTasksetSearch data.sched.heap data.sched.taskset (.ofNat d)).map fun a =>
        taskLine pad (data.sched.heap a), w') ∧ Shows data w' := by
    intro d w hlo hhi hw
    obtain ⟨w', hcall, hw'⟩ := task_described cli pad hw d
    refine ⟨w', ?_, hw'⟩
    unfold printTask
    rw [askRecord_ok hcall, ok_bind]
    rcases hsearch : rtfTasksetSearch data.sched.heap data.sched.taskset (.ofNat d) with _ | a
    · rfl
    · obtain ⟨ha, hid⟩ := rtfTasksetSearch_some hsearch
      obtain ⟨i, hi, hpi⟩ := hplg a ha
      have hd : d ∈ List.range' 1 data.sched.lastTaskId := List.mem_range'_1.mpr ⟨hlo, hhi⟩
      simp only [Option.map_some]
      rw [taskInfo_bytes _ (pad (.taskInfo (.ofNat d))).2, hpi]
      dsimp only
      rw [stringFromName_index hi, ok_bind]
      unfold taskLine
      rw [hpi, search_id hlt hd hsearch, hid]
      rfl
  have hleft : (List.range' 1 data.sched.lastTaskId).countP (fun d =>
      ((rtfTasksetSearch data.sched.heap data.sched.taskset (.ofNat d)).map fun a =>
        taskLine pad (data.sched.heap a)).isSome) = data.sched.taskset.root.length := by
    rw [← hperm.length_eq]
    unfold byId
    rw [List.length_filterMap_eq_countP]
    simp only [Option.isSome_map]
  obtain ⟨w₂, hw₂, turns, hseek⟩ := @seek_returns _ _ _ _ _ .turns _ _ _ _ _ hask hleft hw₁
  refine ⟨w₂, hw₂, turns, ?_⟩
  intro fuel hfuel
  have hfound := hseek fuel hfuel
  dsimp only at hfound
  unfold printTasks
  dsimp only
  rw [askCount_ok hcount, ok_bind]
  dsimp only
  rw [Int.toNat_natCast, hfound, ok_bind]
  unfold shownTasks
  rw [hperm.length_eq]
  unfold byId
  rw [List.map_filterMap]

end Screen

/-! ### A screen -/

section Runs

variable {alloc : ℕ → Option ℕ} {load : List UInt8 → Option Image} {confs : List ConfPlugin} {plgs : List Plugin} {k : Kernel} {socket : ℕ}
  {data : Daemon} {outs : List Out}

theorem held_daemon (hinit : rtfPluginsInit alloc load confs = some plgs)
    (hrun : Reach daemonStep (fun _ _ => True) (Daemon.start socket (Sched.start plgs k)) data) : Held data.sched := by
  refine hrun.inv (I := fun data => Held data.sched) (held_start hinit k) ?_
  intro data t out data' hI _ h
  exact daemonStep_inv (fun _ _ _ _ hH hs => held_step hH hs) h hI

end Runs

/-! ### Two clients and a task -/

end Retif
