/-
# What a query brings back

The information a client asks the daemon for, from the handler's members to
the record the library copies out of the reply: `struct rtf_client_info`,
`rtf_task_info`, `rtf_plugin_info` and `rtf_cpu_info`, read at the offsets the
handlers' payloads were written at. A session is a client's calls on a daemon
that serves nobody else meanwhile.

Key definitions: `RtfClientInfo`, `RtfTaskInfo`, `RtfPluginInfo`, `RtfCpuInfo`,
`Lib.request`, `Session`, `Session.call`.
Key theorems: `call_request`, `session_call`, `clients_counted`,
`client_described`, `plugin_described`, `cpu_described`, `task_described`.
-/
import Retif.CpuInfo

namespace Retif

open Memory

/-! ### The records -/

/-- A 4-byte number of a record. -/
def wordAt (bs : List UInt8) (off : ℕ) : UInt32 := UInt32.ofNat (leNat (load bs off 4))

/-- An `int` of a record. -/
def intAt (bs : List UInt8) (off : ℕ) : Int32 := (wordAt bs off).toInt32

/-- `struct rtf_client_info`. -/
structure RtfClientInfo where
  pid : Pid
  state : Int32
  deriving DecidableEq

def RtfClientInfo.ofBytes (bs : List UInt8) : RtfClientInfo := ⟨intAt bs 0, intAt bs 4⟩

/-- `struct rtf_task_info`; `util` are the bits of a `float`. -/
structure RtfTaskInfo where
  tid : Pid
  ppid : Pid
  priority : Int32
  period : Int32
  util : UInt32
  pluginid : Int32
  deriving DecidableEq

def RtfTaskInfo.ofBytes (bs : List UInt8) : RtfTaskInfo :=
  ⟨intAt bs 0, intAt bs 4, intAt bs 8, intAt bs 12, wordAt bs 16, intAt bs 20⟩

/-- `struct rtf_plugin_info`; the name as `%s` prints it, which goes on behind a
name that fills its field. -/
structure RtfPluginInfo where
  name : List UInt8
  cputot : Int32
  deriving DecidableEq

def RtfPluginInfo.ofBytes (bs : List UInt8) : RtfPluginInfo := ⟨cstr bs, intAt bs PLUGIN_MAX_NAME⟩

/-- `struct rtf_cpu_info`; `freeu` are the bits of a `float`. -/
structure RtfCpuInfo where
  cpunum : Int32
  freeu : UInt32
  ntask : Int32
  deriving DecidableEq

def RtfCpuInfo.ofBytes (bs : List UInt8) : RtfCpuInfo := ⟨intAt bs 0, wordAt bs 4, intAt bs 8⟩

section Fields

theorem wordAt_head (x : ℕ) (bs : List UInt8) : wordAt (leBytes 4 x ++ bs) 0 = UInt32.ofNat x := by
  unfold wordAt
  rw [leNat_load_head]
  apply UInt32.toNat.inj
  simp

/-- A field behind `k` bytes. -/
theorem wordAt_skip {x y : List UInt8} {off : ℕ} (h : x.length ≤ off) : wordAt (x ++ y) off = wordAt y (off - x.length) := by
  unfold wordAt
  rw [load_skip h]

theorem wordAt_only (x : ℕ) : wordAt (leBytes 4 x) 0 = UInt32.ofNat x := by
  have h := wordAt_head x []
  rwa [List.append_nil] at h

theorem intAt_head (x : ℕ) (bs : List UInt8) : intAt (leBytes 4 x ++ bs) 0 = Int32.ofNat x := by
  unfold intAt
  rw [wordAt_head, UInt32.toInt32_ofNat']

theorem intAt_skip {x y : List UInt8} {off : ℕ} (h : x.length ≤ off) : intAt (x ++ y) off = intAt y (off - x.length) := by
  unfold intAt
  rw [wordAt_skip h]

theorem intAt_only (x : ℕ) : intAt (leBytes 4 x) 0 = Int32.ofNat x := by
  unfold intAt
  rw [wordAt_only, UInt32.toInt32_ofNat']

@[simp] theorem ofNat_toInt32 (x : UInt32) : Int32.ofNat x.toNat = x.toInt32 := by
  rw [← UInt32.toInt32_ofNat', UInt32.ofNat_toNat]

/-- An `int` is stored modulo 2^32. -/
theorem ofNat_emod (v : ℤ) : Int32.ofNat (v % 2 ^ 32).toNat = Int32.ofInt v := by
  have hnonneg : 0 ≤ v % 2 ^ 32 := Int.emod_nonneg v (by norm_num)
  apply Int32.toInt.inj
  rw [← Int32.ofInt_eq_ofNat, Int.toNat_of_nonneg hnonneg, Int32.toInt_ofInt, Int32.toInt_ofInt]
  exact Int.emod_bmod v (2 ^ 32)

end Fields

/-! ### What was written is read -/

section Payloads

variable (pad : List UInt8)

theorem clientInfo_bytes (pid : Pid) (st : ClientState) :
    RtfClientInfo.ofBytes ((Payload.client pid st).bytes pad) = ⟨pid, Int32.ofNat st.code⟩ := by
  unfold RtfClientInfo.ofBytes Payload.bytes
  simp (disch := simp) only [intAt_skip, leBytes_length, Nat.sub_self]
  rw [intAt_head, intAt_only]
  simp

/-- The utilization is whatever was in the reply before. -/
theorem taskInfo_bytes (hpad : pad.length = REPLY_SIZE) (tid ppid : Pid) (priority : UInt32) (period : UInt64)
    (pluginid : ℤ) :
    RtfTaskInfo.ofBytes ((Payload.task tid ppid priority period pluginid).bytes pad) =
      ⟨tid, ppid, priority.toInt32, Int32.ofNat period.toNat, wordAt pad 20, Int32.ofInt pluginid⟩ := by
  have hgap : (load pad 20 4).length = 4 := load_length (by rw [hpad]; decide)
  have hutil : wordAt (load pad 20 4 ++ intBytes pluginid) 0 = wordAt pad 20 := by
    unfold wordAt
    rw [load_append_left (by omega)]
    congr 2
    simp [load]
  unfold RtfTaskInfo.ofBytes Payload.bytes
  simp only [List.append_assoc]
  simp (disch := simp [hgap]) only [intAt_skip, wordAt_skip, leBytes_length, hgap]
  rw [intAt_head, intAt_head, intAt_head, intAt_head, hutil]
  unfold intBytes
  rw [intAt_only, ofNat_emod]
  simp

theorem pluginInfo_bytes (name : List UInt8) (cputot : ℕ) :
    RtfPluginInfo.ofBytes ((Payload.plugin name cputot).bytes pad) =
      ⟨cstr (nameBytes name ++ leBytes 4 cputot), Int32.ofNat cputot⟩ := by
  have hname : (nameBytes name).length = PLUGIN_MAX_NAME := by
    unfold nameBytes
    simp
  unfold RtfPluginInfo.ofBytes Payload.bytes
  rw [intAt_skip hname.le, hname, Nat.sub_self, intAt_only]

theorem cpuInfo_bytes (cpunum : ℕ) (n : ℤ) (freeu : ℚ) :
    RtfCpuInfo.ofBytes ((Payload.cpu cpunum n freeu).bytes pad) =
      ⟨Int32.ofNat cpunum, Binary32.ofRat freeu, Int32.ofInt n⟩ := by
  unfold RtfCpuInfo.ofBytes Payload.bytes floatBytes intBytes
  simp only [List.append_assoc]
  simp (disch := simp) only [intAt_skip, wordAt_skip, leBytes_length, Nat.sub_self]
  rw [intAt_head, wordAt_head, intAt_only, ofNat_emod]
  simp

end Payloads

/-- The record in a reply is its payload. -/
theorem load_payload {rep : Reply} {pad : Buf REPLY_SIZE} {n : ℕ} (h : (rep.payload.bytes pad.1).length = n) :
    load (rep.bytes pad).1 4 n = rep.payload.bytes pad.1 := by
  have hlen : 0 + (leBytes 4 rep.repType.code).length ≤ REPLY_SIZE := by
    rw [leBytes_length]
    decide
  have hoff : 4 ≤ (pad.store 0 (leBytes 4 rep.repType.code) hlen).1.length := by
    rw [(pad.store 0 (leBytes 4 rep.repType.code) hlen).2]
    decide
  have hin := @load_store_inside _ (rep.payload.bytes pad.1) 4 n 0 hoff (by omega)
  calc load (rep.bytes pad).1 4 n = load (rep.payload.bytes pad.1) 0 n := hin
    _ = rep.payload.bytes pad.1 := by rw [← h, load_all]

/-! ### What a call sends -/

namespace Request

variable (r : Request)

@[simp] theorem reqType_setQDesc (desc : Int32) : (r.setQDesc desc).reqType = r.reqType :=
  Buf.num_store_before _ (by omega)

@[simp] theorem reqType_setQId (id : Int32) : (r.setQId id).reqType = r.reqType :=
  Buf.num_store_before _ (by omega)

@[simp] theorem qDesc_setQDesc (desc : Int32) : (r.setQDesc desc).qDesc = desc := by
  have hlt := desc.toUInt32.toNat_lt
  have hnum : (r.setQDesc desc).num 12 4 = desc.toUInt32.toNat % 256 ^ 4 := Buf.num_store_self _
  unfold qDesc
  rw [hnum, Nat.mod_eq_of_lt (by omega), UInt32.ofNat_toNat, Int32.toInt32_toUInt32]

@[simp] theorem qId_setQId (id : Int32) : (r.setQId id).qId = id := by
  have hlt := id.toUInt32.toNat_lt
  have hnum : (r.setQId id).num 8 4 = id.toUInt32.toNat % 256 ^ 4 := Buf.num_store_self _
  unfold qId
  rw [hnum, Nat.mod_eq_of_lt (by omega), UInt32.ofNat_toNat, Int32.toInt32_toUInt32]

@[simp] theorem qDesc_setQId (id : Int32) : (r.setQId id).qDesc = r.qDesc := by
  unfold qDesc setQId
  rw [Buf.num_store_behind _ (by rw [leBytes_length])]

end Request

/-- The request buffer when call `c` sends it. -/
def Lib.request (l : Lib) : Call → Request
  | .connect opened pid => if opened = false then l.req else (l.req.setType .connection).setPid pid
  | .connectionsInfo => l.req.setType .connectionsInfo
  | .pluginsInfo => l.req.setType .pluginsInfo
  | .tasksInfo => l.req.setType .tasksInfo
  | .connectionInfo desc => (l.req.setType .connectionInfo).setQDesc desc.toInt32
  | .taskInfo desc => (l.req.setType .taskInfo).setQDesc desc.toInt32
  | .pluginInfo desc => (l.req.setType .pluginInfo).setQDesc desc.toInt32
  | .pluginCpuInfo desc cpuid => ((l.req.setType .pluginCpuInfo).setQDesc desc.toInt32).setQId cpuid.toInt32
  | .create _ p => createRequest l.req p
  | .change _ p => changeRequest l.req p
  | .attach t pid => attachRequest l.req (l.handle t).taskId pid
  | .detach t => detachRequest l.req (l.handle t).taskId
  | .release t => releaseRequest l.req (l.handle t).taskId

section Calls

variable {l : Lib} {x : Exchange}

theorem communicate_req : (rtfTaskCommunicate l x).2.req = l.req := by
  unfold rtfTaskCommunicate
  split
  · rfl
  · split <;> rfl

theorem counting_req {t : ReqType} : (counting l t x).2.req = l.req.setType t := by
  have hreq := @communicate_req { l with req := l.req.setType t } x
  unfold counting
  generalize rtfTaskCommunicate { l with req := l.req.setType t } x = p at hreq ⊢
  dsimp only at hreq ⊢
  split <;> exact hreq

theorem describing_req {bad : RepType} {size : ℕ} : (describing l bad size x).2.req = l.req := by
  have hreq := @communicate_req l x
  unfold describing
  generalize rtfTaskCommunicate l x = p at hreq ⊢
  dsimp only
  split
  · exact hreq
  · split <;> exact hreq

theorem asking_req {bad : RepType} : (asking l bad x).2.req = l.req := by
  have hreq := @communicate_req l x
  unfold asking
  generalize rtfTaskCommunicate l x = p at hreq ⊢
  dsimp only
  split
  · exact hreq
  · split <;> exact hreq

/-- **What a call sends** does not depend on what the socket does. -/
theorem call_request (c : Call) : (l.call c x).2.req = l.request c := by
  cases c
  case connect opened pid =>
    show (rtfConnect l opened pid x).2.req = if opened = false then l.req else (l.req.setType .connection).setPid pid
    unfold rtfConnect
    by_cases hopened : opened = false
    · rw [if_pos hopened, if_pos hopened]
    · rw [if_neg hopened, if_neg hopened]
      dsimp only
      split
      · rfl
      · split
        · rfl
        · split <;> rfl
  case create t p =>
    have hask := @asking_req { l.keepParams t p with req := createRequest l.req p } x .taskCreateErr
    show (rtfTaskCreate l t p x).2.req = createRequest l.req p
    unfold rtfTaskCreate
    generalize asking { l.keepParams t p with req := createRequest l.req p } .taskCreateErr x = q at hask ⊢
    dsimp only at hask ⊢
    split <;> exact hask
  case connectionsInfo => exact counting_req
  case pluginsInfo => exact counting_req
  case tasksInfo => exact counting_req
  case connectionInfo desc => exact describing_req
  case taskInfo desc => exact describing_req
  case pluginInfo desc => exact describing_req
  case pluginCpuInfo desc cpuid => exact describing_req
  all_goals exact asking_req

end Calls

/-! ### A session -/

/-- The socket takes the whole request and gives the whole reply. -/
def whole (rep : Reply) (pad : Buf REPLY_SIZE) (wild : UInt32) : Exchange :=
  ⟨REQUEST_SIZE, some ⟨(rep.bytes pad).1, by rw [(rep.bytes pad).2]⟩, wild⟩

/-- A client, and the daemon it talks to. -/
structure Session where
  lib : Lib
  data : Daemon

/-- A call of the client on descriptor `cli`, which the daemon serves. `pad` is
what the reply's memory held before. -/
def Session.call (w : Session) (cli : ℕ) (pad : Call → Buf REPLY_SIZE) (c : Call) :
    Except Fault (Answer × Session) := do
  let (rep, data) ← rtfDaemonProcessReq (w.data.holding cli (w.lib.request c)) cli
  let (ans, lib) := w.lib.call c (whole rep (pad c) 0)
  .ok (ans, ⟨lib, data⟩)

section Served

variable {w : Session} {cli : ℕ} {pad : Call → Buf REPLY_SIZE} {c : Call} {l : Lib} {rep : Reply} {b : Buf REPLY_SIZE}
  {wild : UInt32}

/-- A call in a session is one the daemon serves: what it leaves in the request buffer is what was served. -/
theorem session_call {data : Daemon} (h : rtfDaemonProcessReq (w.data.holding cli (w.lib.request c)) cli = .ok (rep, data)) :
    w.call cli pad c = .ok ((w.lib.call c (whole rep (pad c) 0)).1, ⟨(w.lib.call c (whole rep (pad c) 0)).2, data⟩) ∧
      Served w.data cli (w.lib.call c (whole rep (pad c) 0)).2.req (whole rep (pad c) 0) rep data := by
  rw [call_request]
  refine ⟨?_, h, rfl, pad c, _, rfl, rfl⟩
  unfold Session.call
  rw [h]
  rfl

theorem communicate_whole : rtfTaskCommunicate l (whole rep b wild) = (.ok, { l with rep := rep.bytes b }) := by
  have hsent : ¬ ((REQUEST_SIZE : ℤ) = -1) := by decide
  unfold rtfTaskCommunicate whole
  dsimp only
  rw [if_neg hsent]
  congr 2
  apply Subtype.ext
  exact store_all (by rw [(rep.bytes b).2, l.rep.2])

theorem counting_whole {t : ReqType} : (counting l t (whole rep b wild)).1 = countOf (rep.bytes b) := by
  unfold counting
  rw [communicate_whole]
  rfl

theorem describing_whole {bad : RepType} {size : ℕ} : (describing l bad size (whole rep b wild)).1 =
    if rep.repType = bad then none else some (load (rep.bytes b).1 4 size) := by
  unfold describing
  rw [communicate_whole]
  simp only [reduceCtorEq, if_false, repType_bytes, RepType.code_inj]
  split <;> rfl

end Served

/-- The number in a reply, where it fits. -/
theorem countOf_bytes {rep : Reply} {b : Buf REPLY_SIZE} {v : ℤ} (h : rep.payload.bytes b.1 = intBytes v)
    (hlo : -2 ^ 31 ≤ v) (hhi : v < 2 ^ 31) : countOf (rep.bytes b) = v := by
  have hlen : (rep.payload.bytes b.1).length = 4 := by rw [h, intBytes, leBytes_length]
  have hnum : (rep.bytes b).num 4 4 = leNat (intBytes v) := by
    unfold Buf.num
    rw [load_payload hlen, h]
  have hint : (UInt32.ofNat (leNat (intBytes v))).toInt32 = Int32.ofInt v := by
    rw [← ofNat_emod, ← intAt_only]
    rfl
  unfold countOf
  rw [hnum, hint, Int32.toInt_ofInt_of_le hlo hhi]

/-! ### What the queries bring back -/

/-- The session's daemon has the tasks, the plugins and the clients of `data`. -/
structure Shows (data : Daemon) (w : Session) : Prop where
  sched : w.data.sched = data.sched
  client : w.data.chann.client = data.chann.client

theorem ofCode_setType (r : Request) (t : ReqType) : ReqType.ofCode (r.setType t).reqType = some t := by
  rw [Request.reqType_setType, ReqType.ofCode_code]

/-- A descriptor as it is sent and read. -/
theorem toInt_ofNat {d : ℕ} (h : d < 2 ^ 31) : (UInt32.ofNat d).toInt32.toInt = d := by
  rw [UInt32.toInt32_ofNat', ← Int32.ofInt_eq_ofNat, Int32.toInt_ofInt_of_le (by omega) (by omega)]

section Queries

variable {data : Daemon} {w : Session} {c : Call} (cli : ℕ) (pad : Call → Buf REPLY_SIZE)

/-- A query changes nothing it shows. -/
theorem shows_call {rep : Reply} (hw : Shows data w)
    (h : rtfDaemonProcessReq (w.data.holding cli (w.lib.request c)) cli =
      .ok (rep, w.data.holding cli (w.lib.request c))) :
    ∃ w', w.call cli pad c = .ok ((w.lib.call c (whole rep (pad c) 0)).1, w') ∧ Shows data w' :=
  ⟨_, (session_call h).1, hw.sched, hw.client⟩

/-- A query for a number brings it back, where it fits. -/
theorem call_counts {t : ReqType} {rep : Reply} {b : Buf REPLY_SIZE} {v : ℤ}
    (hc : ∀ x, w.lib.call c x = (counting w.lib t x).map .count id) (hrep : rep.payload.bytes b.1 = intBytes v)
    (hlo : -2 ^ 31 ≤ v) (hhi : v < 2 ^ 31) : (w.lib.call c (whole rep b 0)).1 = .count v := by
  have hcount : (counting w.lib t (whole rep b 0)).1 = v := counting_whole.trans (countOf_bytes hrep hlo hhi)
  rw [hc]
  exact congrArg Answer.count hcount

/-- A query for a record brings back the payload, or nothing with the error. -/
theorem call_describes {l : Lib} {bad : RepType} {size : ℕ} {rep : Reply} {b : Buf REPLY_SIZE}
    (hc : ∀ x, w.lib.call c x = (describing l bad size x).map .info id)
    (hsize : rep.repType ≠ bad → (rep.payload.bytes b.1).length = size) :
    (w.lib.call c (whole rep b 0)).1 = .info (if rep.repType = bad then none else some (rep.payload.bytes b.1)) := by
  have hinfo : (describing l bad size (whole rep b 0)).1 =
      if rep.repType = bad then none else some (rep.payload.bytes b.1) := by
    rw [describing_whole]
    by_cases hbad : rep.repType = bad
    · rw [if_pos hbad, if_pos hbad]
    · rw [if_neg hbad, if_neg hbad, load_payload (hsize hbad)]
  rw [hc]
  exact congrArg Answer.info hinfo

@[simp] theorem holding_req (data : Daemon) (i : ℕ) (req : Request) :
    rtfCarrierGetReq (data.holding i req).chann i = req := by
  simp [rtfCarrierGetReq, Daemon.holding]

theorem clients_counted (hw : Shows data w) : ∃ w', w.call cli pad .connectionsInfo =
    .ok (.count ((List.range CHANNEL_MAX_SIZE).countP fun d => (data.chann.client d).pid ≠ 0), w') ∧ Shows data w' := by
  have hle := List.countP_le_length (p := fun d => decide ((data.chann.client d).pid ≠ 0)) (l := List.range CHANNEL_MAX_SIZE)
  rw [List.length_range] at hle
  have hlt := hle.trans_lt (show CHANNEL_MAX_SIZE < 2 ^ 31 by decide)
  have hp : rtfDaemonProcessReq (w.data.holding cli (w.lib.request .connectionsInfo)) cli =
      .ok (⟨.connectionsInfoOk, .nconnected ((List.range CHANNEL_MAX_SIZE).countP fun d =>
        (w.data.chann.client d).pid ≠ 0)⟩, w.data.holding cli (w.lib.request .connectionsInfo)) := by
    unfold rtfDaemonProcessReq
    rw [holding_req, Lib.request, ofCode_setType]
    rfl
  rw [hw.client] at hp
  obtain ⟨w', hcall, hw'⟩ := shows_call cli pad hw hp
  refine ⟨w', ?_, hw'⟩
  rw [hcall, call_counts (t := .connectionsInfo) (fun _ => rfl) rfl (by omega) (by omega)]

/-- Slot `CHANNEL_MAX_SIZE` is asked about and not caught. -/
theorem connectionInfo_past : rtfDaemonProcessReq
    (w.data.holding cli (w.lib.request (.connectionInfo (.ofNat CHANNEL_MAX_SIZE)))) cli = .error .client := by
  have hdesc : (w.lib.request (.connectionInfo (.ofNat CHANNEL_MAX_SIZE))).qDesc.toInt = CHANNEL_MAX_SIZE := by
    rw [Lib.request, Request.qDesc_setQDesc, toInt_ofNat (by decide)]
  have hty : ReqType.ofCode (w.lib.request (.connectionInfo (.ofNat CHANNEL_MAX_SIZE))).reqType =
      some .connectionInfo := by
    rw [Lib.request, Request.reqType_setQDesc, ofCode_setType]
  unfold rtfDaemonProcessReq
  rw [holding_req, hty]
  dsimp only
  unfold reqConnectionInfo
  rw [holding_req, hdesc]
  dsimp only
  rw [if_neg (by omega), if_pos (by simp)]

theorem client_described {d : ℕ} (hw : Shows data w) (hd : d < CHANNEL_MAX_SIZE) :
    ∃ w', w.call cli pad (.connectionInfo (.ofNat d)) =
      .ok (.info (if (data.chann.client d).pid = 0 then none
        else some ((Payload.client (data.chann.client d).pid (data.chann.client d).state).bytes
          (pad (.connectionInfo (.ofNat d))).1)), w') ∧ Shows data w' := by
  have hdesc : (w.lib.request (.connectionInfo (.ofNat d))).qDesc.toInt = d := by
    rw [Lib.request, Request.qDesc_setQDesc, toInt_ofNat (by unfold CHANNEL_MAX_SIZE at hd; omega)]
  have hty : ReqType.ofCode (w.lib.request (.connectionInfo (.ofNat d))).reqType = some .connectionInfo := by
    rw [Lib.request, Request.reqType_setQDesc, ofCode_setType]
  have hp : rtfDaemonProcessReq (w.data.holding cli (w.lib.request (.connectionInfo (.ofNat d)))) cli =
      if (data.chann.client d).pid = 0 then
        .ok (⟨.connectionInfoErr, .nothing⟩, w.data.holding cli (w.lib.request (.connectionInfo (.ofNat d))))
      else .ok (⟨.connectionInfoOk, .client (data.chann.client d).pid (data.chann.client d).state⟩,
        w.data.holding cli (w.lib.request (.connectionInfo (.ofNat d)))) := by
    rw [← hw.client]
    unfold rtfDaemonProcessReq
    rw [holding_req, hty]
    dsimp only
    unfold reqConnectionInfo
    rw [holding_req, hdesc]
    dsimp only
    rw [if_neg (by omega), if_neg (by omega), Int.toNat_natCast]
    rfl
  by_cases hpid : (data.chann.client d).pid = 0
  · rw [if_pos hpid] at hp ⊢
    obtain ⟨w', hcall, hw'⟩ := shows_call cli pad hw hp
    refine ⟨w', ?_, hw'⟩
    rw [hcall, call_describes (fun _ => rfl) (fun h => absurd rfl h)]
    rfl
  · rw [if_neg hpid] at hp ⊢
    obtain ⟨w', hcall, hw'⟩ := shows_call cli pad hw hp
    refine ⟨w', ?_, hw'⟩
    rw [hcall, call_describes (fun _ => rfl) (fun _ => by simp [Payload.bytes])]
    rfl

theorem plugins_counted (hw : Shows data w) (hlt : data.sched.numOfPlugins < 2 ^ 31) :
    ∃ w', w.call cli pad .pluginsInfo = .ok (.count data.sched.numOfPlugins, w') ∧ Shows data w' := by
  have hp : rtfDaemonProcessReq (w.data.holding cli (w.lib.request .pluginsInfo)) cli =
      .ok (⟨.pluginsInfoOk, .nplugin data.sched.numOfPlugins⟩, w.data.holding cli (w.lib.request .pluginsInfo)) := by
    rw [← hw.sched]
    unfold rtfDaemonProcessReq
    rw [holding_req, Lib.request, ofCode_setType]
    rfl
  obtain ⟨w', hcall, hw'⟩ := shows_call cli pad hw hp
  refine ⟨w', ?_, hw'⟩
  rw [hcall, call_counts (t := .pluginsInfo) (fun _ => rfl) rfl (by omega) (by omega)]

theorem tasks_counted (hw : Shows data w) (hlt : data.sched.taskset.root.length < 2 ^ 31) :
    ∃ w', w.call cli pad .tasksInfo = .ok (.count data.sched.taskset.root.length, w') ∧ Shows data w' := by
  rw [← data.sched.taskset.n_eq] at hlt ⊢
  have hp : rtfDaemonProcessReq (w.data.holding cli (w.lib.request .tasksInfo)) cli =
      .ok (⟨.pluginsInfoOk, .ntask data.sched.taskset.n⟩, w.data.holding cli (w.lib.request .tasksInfo)) := by
    rw [← hw.sched]
    unfold rtfDaemonProcessReq
    rw [holding_req, Lib.request, ofCode_setType]
    rfl
  obtain ⟨w', hcall, hw'⟩ := shows_call cli pad hw hp
  refine ⟨w', ?_, hw'⟩
  rw [hcall, call_counts (t := .tasksInfo) (fun _ => rfl) rfl (by omega) (by omega)]

theorem plugin_described {i : ℕ} (hw : Shows data w) (hi : i < data.sched.numOfPlugins) (hlt : i < 2 ^ 31) :
    ∃ w', w.call cli pad (.pluginInfo (.ofNat i)) =
      .ok (.info (some ((Payload.plugin (data.sched.plugin i).name (data.sched.plugin i).cpulist.length).bytes
        (pad (.pluginInfo (.ofNat i))).1)), w') ∧ Shows data w' := by
  have hdesc : (w.lib.request (.pluginInfo (.ofNat i))).qDesc.toInt = i := by
    rw [Lib.request, Request.qDesc_setQDesc, toInt_ofNat hlt]
  have hty : ReqType.ofCode (w.lib.request (.pluginInfo (.ofNat i))).reqType = some .pluginInfo := by
    rw [Lib.request, Request.reqType_setQDesc, ofCode_setType]
  have hp : rtfDaemonProcessReq (w.data.holding cli (w.lib.request (.pluginInfo (.ofNat i)))) cli =
      .ok (⟨.pluginInfoOk, .plugin (data.sched.plugin i).name (data.sched.plugin i).cpulist.length⟩,
        w.data.holding cli (w.lib.request (.pluginInfo (.ofNat i)))) := by
    rw [← hw.sched] at hi ⊢
    have hin : ¬ ((i : ℤ) ≥ (w.data.holding cli (w.lib.request (.pluginInfo (.ofNat i)))).sched.numOfPlugins) := by
      show ¬ ((i : ℤ) ≥ w.data.sched.numOfPlugins)
      omega
    unfold rtfDaemonProcessReq
    rw [holding_req, hty]
    dsimp only
    unfold reqPluginInfo
    rw [holding_req, hdesc]
    dsimp only
    rw [if_neg hin, if_neg (by omega), Int.toNat_natCast]
    rfl
  obtain ⟨w', hcall, hw'⟩ := shows_call cli pad hw hp
  refine ⟨w', ?_, hw'⟩
  rw [hcall, call_describes (fun _ => rfl) (fun _ => by simp [Payload.bytes, nameBytes, PLUGIN_MAX_NAME])]
  rfl

/-- The entries reported are those at the position of the core. -/
theorem cpu_described {i k : ℕ} (hw : Shows data w) (htab : (data.sched.plugin i).InTable k)
    (hi : i < data.sched.numOfPlugins) (hlt : i < 2 ^ 31) (hk : k < (data.sched.plugin i).cpulist.length)
    (hk' : k < 2 ^ 31) :
    ∃ w', w.call cli pad (.pluginCpuInfo (.ofNat i) (.ofNat k)) =
      .ok (.info (some ((Payload.cpu ((data.sched.plugin i).cpulist.getD k 0)
        ((data.sched.plugin i).taskCountPercpu k) ((data.sched.plugin i).utilFreePercpu k)).bytes
          (pad (.pluginCpuInfo (.ofNat i) (.ofNat k))).1)), w') ∧ Shows data w' := by
  have hasks : AsksCore (w.lib.request (.pluginCpuInfo (.ofNat i) (.ofNat k))) i k := by
    refine ⟨?_, ?_, ?_⟩
    · rw [Lib.request, Request.reqType_setQId, Request.reqType_setQDesc, ofCode_setType]
    · rw [Lib.request, Request.qDesc_setQId, Request.qDesc_setQDesc, toInt_ofNat hlt]
    · rw [Lib.request, Request.qId_setQId, toInt_ofNat hk']
  have hp : rtfDaemonProcessReq (w.data.holding cli (w.lib.request (.pluginCpuInfo (.ofNat i) (.ofNat k)))) cli =
      .ok (⟨.pluginCpuInfoOk, .cpu ((data.sched.plugin i).cpulist.getD k 0)
        ((data.sched.plugin i).taskCountPercpu k) ((data.sched.plugin i).utilFreePercpu k)⟩,
        w.data.holding cli (w.lib.request (.pluginCpuInfo (.ofNat i) (.ofNat k)))) := by
    rw [← hw.sched] at hi hk htab ⊢
    rw [← holding_req w.data cli (w.lib.request (.pluginCpuInfo (.ofNat i) (.ofNat k)))] at hasks
    exact cpuInfo_reply hasks hi hk htab
  obtain ⟨w', hcall, hw'⟩ := shows_call cli pad hw hp
  refine ⟨w', ?_, hw'⟩
  rw [hcall, call_describes (fun _ => rfl) (fun _ => by simp [Payload.bytes, floatBytes, intBytes])]
  rfl

theorem task_described (hw : Shows data w) (d : ℕ) :
    ∃ w', w.call cli pad (.taskInfo (.ofNat d)) =
      .ok (.info ((rtfTasksetSearch data.sched.heap data.sched.taskset (.ofNat d)).map fun a =>
        (Payload.task (data.sched.heap a).tid (data.sched.heap a).ptid (data.sched.heap a).schedprio
          (data.sched.heap a).params.period (data.sched.heap a).pluginid).bytes (pad (.taskInfo (.ofNat d))).1), w') ∧
        Shows data w' := by
  have hdesc : (w.lib.request (.taskInfo (.ofNat d))).qDesc.toUInt32 = .ofNat d := by
    rw [Lib.request, Request.qDesc_setQDesc]
    rfl
  have hty : ReqType.ofCode (w.lib.request (.taskInfo (.ofNat d))).reqType = some .taskInfo := by
    rw [Lib.request, Request.reqType_setQDesc, ofCode_setType]
  have hp : rtfDaemonProcessReq (w.data.holding cli (w.lib.request (.taskInfo (.ofNat d)))) cli =
      .ok ((rtfTasksetSearch data.sched.heap data.sched.taskset (.ofNat d)).elim ⟨.taskInfoErr, .nothing⟩ fun a =>
        ⟨.taskInfoOk, .task (data.sched.heap a).tid (data.sched.heap a).ptid (data.sched.heap a).schedprio
          (data.sched.heap a).params.period (data.sched.heap a).pluginid⟩,
        w.data.holding cli (w.lib.request (.taskInfo (.ofNat d)))) := by
    rw [← hw.sched]
    unfold rtfDaemonProcessReq
    rw [holding_req, hty]
    dsimp only
    unfold reqTaskInfo
    rw [holding_req]
    dsimp only
    rw [hdesc]
    have hsearch : rtfTasksetSearch (w.data.holding cli (w.lib.request (.taskInfo (.ofNat d)))).sched.heap
        (w.data.holding cli (w.lib.request (.taskInfo (.ofNat d)))).sched.taskset (.ofNat d) =
          rtfTasksetSearch w.data.sched.heap w.data.sched.taskset (.ofNat d) := rfl
    rw [hsearch]
    cases rtfTasksetSearch w.data.sched.heap w.data.sched.taskset (.ofNat d) <;> rfl
  obtain ⟨w', hcall, hw'⟩ := shows_call cli pad hw hp
  refine ⟨w', ?_, hw'⟩
  rw [hcall]
  cases rtfTasksetSearch data.sched.heap data.sched.taskset (.ofNat d) with
  | none =>
    rw [call_describes (fun _ => rfl) (fun h => absurd rfl h)]
    rfl
  | some a =>
    have hgap : (load (pad (.taskInfo (.ofNat d))).1 20 4).length = 4 := by
      apply load_length
      rw [(pad (.taskInfo (.ofNat d))).2]
      decide
    rw [call_describes (fun _ => rfl) (fun _ => by simp [Payload.bytes, intBytes, hgap])]
    rfl

end Queries

end Retif
