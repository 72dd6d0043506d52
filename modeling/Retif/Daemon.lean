/-
# The daemon

`retif_daemon.c`: a handler for each request, the dispatch on its type, and
the loop that polls the descriptors and then looks at each of them in turn.
The loop is a step function (`daemonStep`): a step is one call of
`rtf_carrier_update` or of `rtf_daemon_handle_req`, in the order in which the
loop makes them; what the kernel answers is the step's input.

Every handler but that of a connection leaves the carrier alone, and what it
does to the scheduler is the one operation the request asks for
(`process_ok`).

Key definitions: `Daemon`, `rtfDaemonProcessReq`, `rtfDaemonHandleReq`,
`daemonStep`, `asked`.
Key theorems: `process_ok`, `handle_ok`, `cleanUp_ok`, `daemonStep_ok`.
-/
import Retif.Steps
import Retif.Channel

namespace Retif

open CList

/-- `CHANNEL_MAX_SIZE`, the size of the table of clients. -/
def CHANNEL_MAX_SIZE : ℕ := 1024

/-- `struct rtf_daemon`, and where its loop is: about to poll, or at a descriptor. -/
structure Daemon where
  chann : Carrier
  sched : Sched
  cursor : Option ℕ

/-! ### The handlers -/

def reqConnection (data : Daemon) (cliId : ℕ) : Except Fault (Reply × Daemon) :=
  let req := rtfCarrierGetReq data.chann cliId
  .ok (⟨.connectionOk, .nothing⟩, { data with chann := rtfCarrierSetPid data.chann cliId req.pid })

def reqConnectionsInfo (data : Daemon) : Except Fault (Reply × Daemon) :=
  let nclients := (List.range CHANNEL_MAX_SIZE).countP fun i => (data.chann.client i).pid ≠ 0
  .ok (⟨.connectionsInfoOk, .nconnected nclients⟩, data)

def reqPluginsInfo (data : Daemon) : Except Fault (Reply × Daemon) :=
  .ok (⟨.pluginsInfoOk, .nplugin data.sched.numOfPlugins⟩, data)

/-- The type of the reply is that of `req_plugins_info`. -/
def reqTasksInfo (data : Daemon) : Except Fault (Reply × Daemon) :=
  .ok (⟨.pluginsInfoOk, .ntask data.sched.taskset.n⟩, data)

/-- Slot `CHANNEL_MAX_SIZE` and the negative ones are not caught by the test. -/
def reqConnectionInfo (data : Daemon) (cliId : ℕ) : Except Fault (Reply × Daemon) :=
  let cdesc := (rtfCarrierGetReq data.chann cliId).qDesc.toInt
  if cdesc > CHANNEL_MAX_SIZE then .ok (⟨.connectionInfoErr, .nothing⟩, data)
  else if cdesc < 0 ∨ cdesc = CHANNEL_MAX_SIZE then .error .client
  else
    let client := data.chann.client cdesc.toNat
    if client.pid = 0 then .ok (⟨.connectionInfoErr, .nothing⟩, data)
    else .ok (⟨.connectionInfoOk, .client client.pid client.state⟩, data)

def reqPluginInfo (data : Daemon) (cliId : ℕ) : Except Fault (Reply × Daemon) :=
  let pdesc := (rtfCarrierGetReq data.chann cliId).qDesc.toInt
  if pdesc ≥ data.sched.numOfPlugins then .ok (⟨.pluginInfoErr, .nothing⟩, data)
  else if pdesc < 0 then .error .plugin
  else
    let p := data.sched.plugin pdesc.toNat
    .ok (⟨.pluginInfoOk, .plugin p.name p.cpulist.length⟩, data)

/-- The per-core tables are read at the position of the core. -/
def reqPluginCpuInfo (data : Daemon) (cliId : ℕ) : Except Fault (Reply × Daemon) :=
  let req := rtfCarrierGetReq data.chann cliId
  let pdesc := req.qDesc.toInt
  let cpuid := req.qId.toInt
  if pdesc ≥ data.sched.numOfPlugins then .ok (⟨.pluginCpuInfoErr, .nothing⟩, data)
  else if pdesc < 0 then .error .plugin
  else
    let p := data.sched.plugin pdesc.toNat
    if cpuid ≥ p.cpulist.length then .ok (⟨.pluginCpuInfoErr, .nothing⟩, data)
    else if cpuid < 0 then .error .table
    else do
      let ntask ← p.read p.taskCountPercpu cpuid.toNat
      let freeu ← p.read p.utilFreePercpu cpuid.toNat
      .ok (⟨.pluginCpuInfoOk, .cpu (p.cpulist.getD cpuid.toNat 0) ntask freeu⟩, data)

def reqTaskInfo (data : Daemon) (cliId : ℕ) : Except Fault (Reply × Daemon) :=
  let desc := (rtfCarrierGetReq data.chann cliId).qDesc
  match rtfTasksetSearch data.sched.heap data.sched.taskset desc.toUInt32 with
  | none => .ok (⟨.taskInfoErr, .nothing⟩, data)
  | some a =>
    let task := data.sched.heap a
    .ok (⟨.taskInfoOk, .task task.tid task.ptid task.schedprio task.params.period task.pluginid⟩, data)

/-- `int rtf_id = data->sched.last_task_id`: the low 32 bits, with a sign. -/
def lastIdAsInt (s : Sched) : ℤ := Int.bmod s.lastTaskId (2 ^ 32)

def reqTaskCreate (data : Daemon) (cliId : ℕ) : Except Fault (Reply × Daemon) := do
  let req := rtfCarrierGetReq data.chann cliId
  let pid := (data.chann.client cliId).pid
  let (res, sched) ← rtfSchedulerTaskCreate data.sched req.param pid
  let rtfId := lastIdAsInt sched
  let rep : Reply := match res with
    | .no => ⟨.taskCreateErr, .response (-1)⟩
    | .part => ⟨.taskCreatePart, .response rtfId⟩
    | .ok => ⟨.taskCreateOk, .response rtfId⟩
  .ok (rep, { data with sched := sched })

def reqTaskModify (data : Daemon) (cliId : ℕ) : Except Fault (Reply × Daemon) := do
  let req := rtfCarrierGetReq data.chann cliId
  let (res, sched) ← rtfSchedulerTaskChange data.sched req.param req.rsvid
  let rep : Reply := match res with
    | .no => ⟨.taskModifyErr, .nothing⟩
    | .part => ⟨.taskModifyPart, .nothing⟩
    | .ok => ⟨.taskModifyOk, .nothing⟩
  .ok (rep, { data with sched := sched })

/-- The reply of the requests that are answered with success or failure: the
test is `< 0`. -/
def answered (res : Res) (good bad : RepType) : Reply := ⟨if res = .error then bad else good, .nothing⟩

def reqTaskAttach (data : Daemon) (cliId : ℕ) : Except Fault (Reply × Daemon) := do
  let req := rtfCarrierGetReq data.chann cliId
  let (res, sched) ← rtfSchedulerTaskAttach data.sched req.rsvid req.pid
  .ok (answered res .taskAttachOk .taskAttachErr, { data with sched := sched })

def reqTaskDetach (data : Daemon) (cliId : ℕ) : Except Fault (Reply × Daemon) := do
  let req := rtfCarrierGetReq data.chann cliId
  let (res, sched) ← rtfSchedulerTaskDetach data.sched req.rsvid
  .ok (answered res .taskDetachOk .taskDetachErr, { data with sched := sched })

def reqTaskDestroy (data : Daemon) (cliId : ℕ) : Except Fault (Reply × Daemon) := do
  let req := rtfCarrierGetReq data.chann cliId
  let (res, sched) ← rtfSchedulerTaskDestroy data.sched req.rsvid
  .ok (answered res .taskDestroyOk .taskDestroyErr, { data with sched := sched })

/-! ### Dispatch -/

/-- `rtf_daemon_process_req`, up to the sending of the reply. -/
def rtfDaemonProcessReq (data : Daemon) (cliId : ℕ) : Except Fault (Reply × Daemon) :=
  match ReqType.ofCode (rtfCarrierGetReq data.chann cliId).reqType with
  | some .connection => reqConnection data cliId
  | some .connectionsInfo => reqConnectionsInfo data
  | some .connectionInfo => reqConnectionInfo data cliId
  | some .pluginsInfo => reqPluginsInfo data
  | some .pluginInfo => reqPluginInfo data cliId
  | some .pluginCpuInfo => reqPluginCpuInfo data cliId
  | some .tasksInfo => reqTasksInfo data
  | some .taskInfo => reqTaskInfo data cliId
  | some .taskCreate => reqTaskCreate data cliId
  | some .taskModify => reqTaskModify data cliId
  | some .taskAttach => reqTaskAttach data cliId
  | some .taskDetach => reqTaskDetach data cliId
  | some .taskDestroy => reqTaskDestroy data cliId
  | some .taskMonitor | some .deconnection | none => .ok (⟨.requestErr, .nothing⟩, data)

/-- What a step of the loop did. -/
inductive Out where
  | polled
  | idle
  | cleaned (cliId : ℕ)
  | handled (cliId : ℕ) (req : Request) (rep : Reply)

/-- The client has failed or gone. -/
def Failed (data : Daemon) (cliId : ℕ) : Prop :=
  rtfCarrierGetState data.chann cliId = .error ∨ rtfCarrierGetState data.chann cliId = .disconnected

instance (data : Daemon) (cliId : ℕ) : Decidable (Failed data cliId) := by
  unfold Failed; infer_instance

/-- `rtf_daemon_check_for_fail` of a client that has failed. -/
def cleanUp (data : Daemon) (cliId : ℕ) : Except Fault Daemon := do
  let chann := rtfCarrierSetState data.chann cliId .empty
  let sched ← rtfSchedulerDelete data.sched (rtfCarrierGetPid chann cliId)
  .ok { data with chann := rtfCarrierClose (rtfCarrierSetPid chann cliId 0) cliId, sched := sched }

/-- `rtf_daemon_check_for_update`. -/
def rtfDaemonCheckForUpdate (data : Daemon) (cliId : ℕ) : Bool :=
  rtfCarrierGetState data.chann cliId = .connected && rtfCarrierIsUpdated data.chann cliId

/-- `rtf_daemon_handle_req`; `sent` is what the sending of the reply returns. -/
def rtfDaemonHandleReq (data : Daemon) (cliId : ℕ) (sent : ℤ) : Except Fault (Out × Daemon) :=
  if Failed data cliId then do
    let data ← cleanUp data cliId
    .ok (.cleaned cliId, data)
  else if rtfDaemonCheckForUpdate data cliId then do
    let (rep, after) ← rtfDaemonProcessReq data cliId
    let chann := rtfCarrierReqClear after.chann cliId
    let chann := if sent ≤ 0 then rtfCarrierSetState chann cliId .error else chann
    .ok (.handled cliId (rtfCarrierGetReq data.chann cliId) rep, { after with chann := chann })
  else .ok (.idle, data)

/-! ### The loop -/

/-- What the kernel answers in a step. -/
structure Tick where
  round : Round
  sent : ℤ

/-- A step in which the descriptors `ready` are readable and a `recv` gives `bs`, all of it. -/
def Tick.reading (ready : ℕ → Bool) (accepted : Option ℕ) (bs : List UInt8) : Tick :=
  ⟨⟨some ready, accepted, fun _ => if h : bs.length ≤ REQUEST_SIZE then some ⟨bs, h⟩ else none⟩, 1⟩

/-- `rtf_daemon_loop`, one call at a time. -/
def daemonStep (data : Daemon) (t : Tick) : Except Fault (Out × Daemon) :=
  match data.cursor with
  | none => .ok (.polled, { data with chann := rtfCarrierUpdate data.chann t.round, cursor := some 0 })
  | some i => do
    let (out, data) ← rtfDaemonHandleReq data i t.sent
    .ok (out, { data with cursor := if i < rtfCarrierGetConn data.chann then some (i + 1) else none })

/-- The carrier after `rtf_carrier_init`, on a main socket. -/
def Carrier.start (socket : ℕ) : Carrier where
  sock := ⟨socket, socket, fun i => i = socket⟩
  lastN := fun _ => 0
  lastReq := fun _ => Memory.Buf.zero REQUEST_SIZE
  client := fun _ => ⟨.empty, 0⟩

/-- The daemon before its loop. -/
def Daemon.start (socket : ℕ) (s : Sched) : Daemon := ⟨Carrier.start socket, s, none⟩

/-! ### What a request asks for -/

/-- The operation of the scheduler a request asks for, when the client's pid is `pid`. -/
def asked (req : Request) (pid : Pid) : Option Op :=
  match ReqType.ofCode req.reqType with
  | some .taskCreate => some (.create req.param pid)
  | some .taskModify => some (.change req.param req.rsvid)
  | some .taskAttach => some (.attach req.rsvid req.pid)
  | some .taskDetach => some (.detach req.rsvid)
  | some .taskDestroy => some (.destroy req.rsvid)
  | _ => none

section Handlers

variable {data data' : Daemon} {cliId : ℕ} {rep : Reply}

theorem reqConnectionInfo_ok (h : reqConnectionInfo data cliId = .ok (rep, data')) : data' = data := by
  unfold reqConnectionInfo at h
  dsimp only at h
  split_ifs at h <;> cases h <;> rfl

theorem reqPluginInfo_ok (h : reqPluginInfo data cliId = .ok (rep, data')) : data' = data := by
  unfold reqPluginInfo at h
  dsimp only at h
  split_ifs at h <;> cases h <;> rfl

theorem reqPluginCpuInfo_ok (h : reqPluginCpuInfo data cliId = .ok (rep, data')) : data' = data := by
  unfold reqPluginCpuInfo at h
  dsimp only at h
  split_ifs at h
  · cases h
    rfl
  · cases h
    rfl
  · obtain ⟨_, -, h⟩ := bind_ok.mp h
    obtain ⟨_, -, h⟩ := bind_ok.mp h
    cases h
    rfl

theorem reqTaskInfo_ok (h : reqTaskInfo data cliId = .ok (rep, data')) : data' = data := by
  unfold reqTaskInfo at h
  dsimp only at h
  split at h <;> cases h <;> rfl

theorem reqTaskCreate_ok (h : reqTaskCreate data cliId = .ok (rep, data')) :
    ∃ res s, rtfSchedulerTaskCreate data.sched (data.chann.lastReq cliId).param (data.chann.client cliId).pid =
      .ok (res, s) ∧ data' = { data with sched := s } ∧
        rep = match res with
          | .no => ⟨.taskCreateErr, .response (-1)⟩
          | .part => ⟨.taskCreatePart, .response (lastIdAsInt s)⟩
          | .ok => ⟨.taskCreateOk, .response (lastIdAsInt s)⟩ := by
  obtain ⟨⟨res, s⟩, hs, h⟩ := bind_ok.mp h
  cases h
  exact ⟨res, s, hs, rfl, rfl⟩

theorem reqTaskModify_ok (h : reqTaskModify data cliId = .ok (rep, data')) :
    ∃ res s, rtfSchedulerTaskChange data.sched (data.chann.lastReq cliId).param (data.chann.lastReq cliId).rsvid =
      .ok (res, s) ∧ data' = { data with sched := s } ∧
        rep = match res with
          | .no => ⟨.taskModifyErr, .nothing⟩
          | .part => ⟨.taskModifyPart, .nothing⟩
          | .ok => ⟨.taskModifyOk, .nothing⟩ := by
  obtain ⟨⟨res, s⟩, hs, h⟩ := bind_ok.mp h
  cases h
  exact ⟨res, s, hs, rfl, rfl⟩

/-- **Every request**: a connection stores the pid it names; any other leaves
the carrier alone and does to the scheduler what it asks for. -/
theorem process_ok (h : rtfDaemonProcessReq data cliId = .ok (rep, data')) :
    (ReqType.ofCode (data.chann.lastReq cliId).reqType = some .connection ∧
      data' = { data with chann := rtfCarrierSetPid data.chann cliId (data.chann.lastReq cliId).pid }) ∨
    (ReqType.ofCode (data.chann.lastReq cliId).reqType ≠ some .connection ∧
      asked (data.chann.lastReq cliId) (data.chann.client cliId).pid = none ∧ data' = data) ∨
    ∃ o r s, asked (data.chann.lastReq cliId) (data.chann.client cliId).pid = some o ∧
      step data.sched o = .ok (r, s) ∧ data' = { data with sched := s } := by
  unfold rtfDaemonProcessReq rtfCarrierGetReq at h
  unfold asked
  generalize ReqType.ofCode (data.chann.lastReq cliId).reqType = ty at h ⊢
  rcases ty with _ | ty
  · cases h
    exact .inr (.inl ⟨by simp, rfl, rfl⟩)
  rcases ty <;> dsimp only at h ⊢
  case connection =>
    cases h
    exact .inl ⟨rfl, rfl⟩
  case taskCreate =>
    obtain ⟨res, s, hs, rfl, -⟩ := reqTaskCreate_ok h
    exact .inr (.inr ⟨_, res, s, rfl, hs, rfl⟩)
  case taskModify =>
    obtain ⟨res, s, hs, rfl, -⟩ := reqTaskModify_ok h
    exact .inr (.inr ⟨_, res, s, rfl, hs, rfl⟩)
  case taskAttach =>
    obtain ⟨⟨res, s⟩, hs, h⟩ := bind_ok.mp h
    cases h
    exact .inr (.inr ⟨_, res, s, rfl, hs, rfl⟩)
  case taskDetach =>
    obtain ⟨⟨res, s⟩, hs, h⟩ := bind_ok.mp h
    cases h
    exact .inr (.inr ⟨_, res, s, rfl, hs, rfl⟩)
  case taskDestroy =>
    obtain ⟨⟨res, s⟩, hs, h⟩ := bind_ok.mp h
    cases h
    exact .inr (.inr ⟨_, res, s, rfl, hs, rfl⟩)
  -- the queries
  all_goals refine .inr (.inl ⟨by simp, rfl, ?_⟩)
  case connectionInfo => exact reqConnectionInfo_ok h
  case pluginInfo => exact reqPluginInfo_ok h
  case pluginCpuInfo => exact reqPluginCpuInfo_ok h
  case taskInfo => exact reqTaskInfo_ok h
  all_goals
    cases h
    rfl

/-- The carrier after a request was processed and answered. -/
def settled (c : Carrier) (cliId : ℕ) (sent : ℤ) : Carrier :=
  if sent ≤ 0 then rtfCarrierSetState (rtfCarrierReqClear c cliId) cliId .error else rtfCarrierReqClear c cliId

/-- **A turn of the loop**: a failed client is cleaned up, a request is
processed and answered, or there is nothing to do. -/
theorem handle_ok {sent : ℤ} {out : Out} (h : rtfDaemonHandleReq data cliId sent = .ok (out, data')) :
    (Failed data cliId ∧ out = .cleaned cliId ∧ cleanUp data cliId = .ok data') ∨
    (¬ Failed data cliId ∧ rtfDaemonCheckForUpdate data cliId = true ∧ ∃ rep after,
      rtfDaemonProcessReq data cliId = .ok (rep, after) ∧ out = .handled cliId (data.chann.lastReq cliId) rep ∧
        data' = { after with chann := settled after.chann cliId sent }) ∨
    (¬ Failed data cliId ∧ rtfDaemonCheckForUpdate data cliId = false ∧ out = .idle ∧ data' = data) := by
  unfold rtfDaemonHandleReq at h
  split at h
  · rename_i hf
    obtain ⟨d, hd, h⟩ := bind_ok.mp h
    cases h
    exact .inl ⟨hf, rfl, hd⟩
  · rename_i hf
    split at h
    · rename_i hu
      obtain ⟨⟨rep, after⟩, hp, h⟩ := bind_ok.mp h
      cases h
      exact .inr (.inl ⟨hf, hu, rep, after, hp, rfl, rfl⟩)
    · rename_i hu
      cases h
      exact .inr (.inr ⟨hf, Bool.eq_false_iff.mpr hu, rfl, rfl⟩)

theorem cleanUp_ok (h : cleanUp data cliId = .ok data') :
    ∃ s, rtfSchedulerDelete data.sched (data.chann.client cliId).pid = .ok s ∧ data' = { data with
      chann := rtfCarrierClose (rtfCarrierSetPid (rtfCarrierSetState data.chann cliId .empty) cliId 0) cliId
      sched := s } := by
  obtain ⟨s, hs, h⟩ := bind_ok.mp h
  cases h
  refine ⟨s, ?_, rfl⟩
  simpa [rtfCarrierGetPid, rtfCarrierSetState] using hs

/-- A step of the loop polls, or takes its turn with a descriptor. -/
theorem daemonStep_ok {t : Tick} {out : Out} (h : daemonStep data t = .ok (out, data')) :
    (data.cursor = none ∧ out = .polled ∧
      data' = { data with chann := rtfCarrierUpdate data.chann t.round, cursor := some 0 }) ∨
    ∃ i d, data.cursor = some i ∧ rtfDaemonHandleReq data i t.sent = .ok (out, d) ∧
      data' = { d with cursor := if i < rtfCarrierGetConn d.chann then some (i + 1) else none } := by
  unfold daemonStep at h
  split at h
  · rename_i hc
    cases h
    exact .inl ⟨hc, rfl, rfl⟩
  · rename_i i hc
    obtain ⟨⟨out', d⟩, hd, h⟩ := bind_ok.mp h
    cases h
    exact .inr ⟨i, d, hc, hd, rfl⟩

end Handlers

end Retif
