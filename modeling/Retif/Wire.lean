/-
# Requests and replies in memory

`struct rtf_request` and `struct rtf_reply` as bytes, in the x86-64 layout:
80 bytes with the payload at 8, and 40 bytes with the payload at 4. The
members of the payload unions overlap. In a request, `ids.pid` and `ids.rsvid`
lie over the two halves of `param.runtime` (`rsvid_setParam`): a request that
carries parameters carries no id.

Replies are written member by member over whatever the stack held; `Payload`
is the member written.

Key definitions: `ReqType`, `RepType`, `Request`, `Reply`, `Reply.bytes`.
Key theorems: `reqType_setType`, `param_setParam`, `rsvid_setParam`,
`repType_bytes`, `response_bytes`.
-/
import Retif.Task
import Retif.Lib.Memory
import Retif.Lib.Binary32

namespace Retif

open Memory

/-- `enum REQ_TYPE`. -/
inductive ReqType where
  | connection
  | connectionsInfo
  | connectionInfo
  | pluginsInfo
  | pluginInfo
  | pluginCpuInfo
  | tasksInfo
  | taskInfo
  | taskMonitor
  | taskCreate
  | taskModify
  | taskAttach
  | taskDetach
  | taskDestroy
  | deconnection
  deriving DecidableEq, Repr

/-- `enum REP_TYPE`. -/
inductive RepType where
  | requestErr
  | connectionOk
  | connectionErr
  | connectionsInfoOk
  | connectionInfoOk
  | connectionInfoErr
  | pluginsInfoOk
  | pluginInfoOk
  | pluginInfoErr
  | pluginCpuInfoOk
  | pluginCpuInfoErr
  | tasksInfoOk
  | taskInfoOk
  | taskInfoErr
  | taskCreateOk
  | taskCreatePart
  | taskCreateErr
  | taskModifyOk
  | taskModifyPart
  | taskModifyErr
  | taskAttachOk
  | taskAttachErr
  | taskDetachOk
  | taskDetachErr
  | taskDestroyOk
  | taskDestroyErr
  | deconnectionOk
  | deconnectionErr
  deriving DecidableEq, Repr

/-- The number of an enumerator is its place. -/
def ReqType.code (t : ReqType) : ℕ := t.ctorIdx

def RepType.code (t : RepType) : ℕ := t.ctorIdx

/-- The enumerators, by number. -/
def ReqType.all : List ReqType :=
  [.connection, .connectionsInfo, .connectionInfo, .pluginsInfo, .pluginInfo, .pluginCpuInfo, .tasksInfo, .taskInfo,
    .taskMonitor, .taskCreate, .taskModify, .taskAttach, .taskDetach, .taskDestroy, .deconnection]

def ReqType.ofCode (n : ℕ) : Option ReqType := ReqType.all[n]?

theorem ReqType.ofCode_code (t : ReqType) : ReqType.ofCode t.code = some t := by
  cases t <;> rfl

theorem ReqType.code_lt (t : ReqType) : t.code < 256 := by
  cases t <;> decide

theorem RepType.code_lt (t : RepType) : t.code < 256 := by
  cases t <;> decide

theorem RepType.code_inj {t t' : RepType} : t.code = t'.code ↔ t = t' := by
  constructor
  · cases t <;> cases t' <;> first | (intro _; rfl) | (intro h; exact absurd h (by decide))
  · rintro rfl
    rfl

/-- `enum CLIENT_STATE`. -/
inductive ClientState where
  | empty
  | connected
  | disconnected
  | error
  deriving DecidableEq, Repr

def ClientState.code (s : ClientState) : ℕ := s.ctorIdx

/-! ### Requests -/

/-- `sizeof(struct rtf_request)`. -/
def REQUEST_SIZE : ℕ := 80

/-- `struct rtf_request`. -/
abbrev Request := Buf REQUEST_SIZE

/-- `struct rtf_params`, 72 bytes; the last three pad. -/
def paramBytes (p : Params) : List UInt8 :=
  leBytes 8 p.runtime.toNat ++ (leBytes 8 p.desRuntime.toNat ++ (leBytes 8 p.period.toNat ++
    (leBytes 8 p.deadline.toNat ++ (leBytes 4 p.priority.toNat ++ (p.schedPlugin.1 ++
      [p.ignoreAdmission, 0, 0, 0])))))

theorem paramBytes_length (p : Params) : (paramBytes p).length = 72 := by
  have := p.schedPlugin.2
  simp [paramBytes, this, PLUGIN_MAX_NAME]

namespace Request

/-- `req_type`. -/
def reqType (r : Request) : ℕ := r.num 0 4

/-- `payload.ids.pid`. -/
def pid (r : Request) : Pid := (UInt32.ofNat (r.num 8 4)).toInt32

/-- `payload.ids.rsvid`. -/
def rsvid (r : Request) : UInt32 := UInt32.ofNat (r.num 12 4)

/-- `payload.q.id`. -/
def qId (r : Request) : Int32 := (UInt32.ofNat (r.num 8 4)).toInt32

/-- `payload.q.desc`. -/
def qDesc (r : Request) : Int32 := (UInt32.ofNat (r.num 12 4)).toInt32

/-- `payload.param`. -/
def param (r : Request) : Params where
  runtime := UInt64.ofNat (r.num 8 8)
  desRuntime := UInt64.ofNat (r.num 16 8)
  period := UInt64.ofNat (r.num 24 8)
  deadline := UInt64.ofNat (r.num 32 8)
  priority := UInt32.ofNat (r.num 40 4)
  schedPlugin := ⟨load r.1 44 PLUGIN_MAX_NAME, load_length (by rw [r.2]; decide)⟩
  ignoreAdmission := UInt8.ofNat (r.num 76 1)

def setType (r : Request) (t : ReqType) : Request :=
  r.store 0 (leBytes 4 t.code) (by rw [leBytes_length]; decide)

def setPid (r : Request) (pid : Pid) : Request :=
  r.store 8 (leBytes 4 pid.toUInt32.toNat) (by rw [leBytes_length]; decide)

def setRsvid (r : Request) (rsvid : UInt32) : Request :=
  r.store 12 (leBytes 4 rsvid.toNat) (by rw [leBytes_length]; decide)

def setQId (r : Request) (id : Int32) : Request :=
  r.store 8 (leBytes 4 id.toUInt32.toNat) (by rw [leBytes_length]; decide)

def setQDesc (r : Request) (desc : Int32) : Request :=
  r.store 12 (leBytes 4 desc.toUInt32.toNat) (by rw [leBytes_length]; decide)

def setParam (r : Request) (p : Params) : Request :=
  r.store 8 (paramBytes p) (by rw [paramBytes_length]; decide)

/-! ### What is read after what was written -/

variable (r : Request)

@[simp] theorem reqType_setType (t : ReqType) : (r.setType t).reqType = t.code := by
  have hlt := t.code_lt
  calc (r.setType t).reqType = t.code % 256 ^ 4 := Buf.num_store_self _
    _ = t.code := Nat.mod_eq_of_lt (by omega)

@[simp] theorem rsvid_setRsvid (id : UInt32) : (r.setRsvid id).rsvid = id := by
  have hlt := id.toNat_lt
  have hnum : (r.setRsvid id).num 12 4 = id.toNat % 256 ^ 4 := Buf.num_store_self _
  unfold rsvid
  rw [hnum, Nat.mod_eq_of_lt (by omega), UInt32.ofNat_toNat]

@[simp] theorem pid_setPid (pid : Pid) : (r.setPid pid).pid = pid := by
  have hlt := pid.toUInt32.toNat_lt
  have hnum : (r.setPid pid).num 8 4 = pid.toUInt32.toNat % 256 ^ 4 := Buf.num_store_self _
  unfold Request.pid
  rw [hnum, Nat.mod_eq_of_lt (by omega), UInt32.ofNat_toNat, Int32.toInt32_toUInt32]

@[simp] theorem rsvid_setPid (pid : Pid) : (r.setPid pid).rsvid = r.rsvid := by
  unfold rsvid setPid
  rw [Buf.num_store_behind _ (by rw [leBytes_length])]

@[simp] theorem reqType_setRsvid (id : UInt32) : (r.setRsvid id).reqType = r.reqType :=
  Buf.num_store_before _ (by omega)

@[simp] theorem reqType_setPid (pid : Pid) : (r.setPid pid).reqType = r.reqType :=
  Buf.num_store_before _ (by omega)

@[simp] theorem reqType_setParam (p : Params) : (r.setParam p).reqType = r.reqType :=
  Buf.num_store_before _ (by omega)

/-- A field of the parameters just stored. -/
theorem load_setParam (p : Params) (k n : ℕ) (h : k + n ≤ 72) :
    load (r.setParam p).1 (8 + k) n = load (paramBytes p) k n := by
  refine load_store_inside ?_ ?_
  · rw [r.2]
    decide
  · rw [paramBytes_length]
    exact h

end Request

/-- A field of what lies behind `k` more bytes. -/
theorem load_skip {x y : List UInt8} {k n : ℕ} (h : x.length ≤ k) : load (x ++ y) k n = load y (k - x.length) n := by
  have hk : k = x.length + (k - x.length) := by omega
  calc load (x ++ y) k n = load (x ++ y) (x.length + (k - x.length)) n := by rw [← hk]
    _ = load y (k - x.length) n := load_append_right

/-- The number a field starts with. -/
theorem leNat_load_head (k x : ℕ) (y : List UInt8) : leNat (load (leBytes k x ++ y) 0 k) = x % 256 ^ k := by
  have hl := leBytes_length k x
  have hall := load_all (leBytes k x)
  rw [hl] at hall
  rw [load_append_left (by omega), hall, leNat_leBytes]

namespace Request

variable (r : Request) (p : Params)

/-- A number in the parameters just stored. -/
theorem num_setParam (k n : ℕ) (h : k + n ≤ 72) : (r.setParam p).num (8 + k) n = leNat (load (paramBytes p) k n) :=
  congrArg leNat (r.load_setParam p k n h)

/-- **The parameters arrive as they were sent.** -/
theorem param_setParam : (r.setParam p).param = p := by
  have h64 : ∀ x : UInt64, x.toNat % 256 ^ 8 = x.toNat := fun x => Nat.mod_eq_of_lt (by have := x.toNat_lt; omega)
  have h32 : ∀ x : UInt32, x.toNat % 256 ^ 4 = x.toNat := fun x => Nat.mod_eq_of_lt (by have := x.toNat_lt; omega)
  have hlen : p.schedPlugin.1.length = 32 := p.schedPlugin.2
  have hruntime : (r.setParam p).num 8 8 = p.runtime.toNat := by
    refine (num_setParam r p 0 8 (by omega)).trans ?_
    rw [paramBytes, leNat_load_head, h64]
  have hdes : (r.setParam p).num 16 8 = p.desRuntime.toNat := by
    refine (num_setParam r p 8 8 (by omega)).trans ?_
    simp (disch := simp) only [paramBytes, load_skip, leBytes_length]
    rw [leNat_load_head, h64]
  have hperiod : (r.setParam p).num 24 8 = p.period.toNat := by
    refine (num_setParam r p 16 8 (by omega)).trans ?_
    simp (disch := simp) only [paramBytes, load_skip, leBytes_length]
    rw [leNat_load_head, h64]
  have hdeadline : (r.setParam p).num 32 8 = p.deadline.toNat := by
    refine (num_setParam r p 24 8 (by omega)).trans ?_
    simp (disch := simp) only [paramBytes, load_skip, leBytes_length]
    rw [leNat_load_head, h64]
  have hpriority : (r.setParam p).num 40 4 = p.priority.toNat := by
    refine (num_setParam r p 32 4 (by omega)).trans ?_
    simp (disch := simp) only [paramBytes, load_skip, leBytes_length]
    rw [leNat_load_head, h32]
  have hname : load (r.setParam p).1 44 PLUGIN_MAX_NAME = p.schedPlugin.1 := by
    refine (load_setParam r p 36 32 (by omega)).trans ?_
    simp (disch := simp) only [paramBytes, load_skip, leBytes_length]
    rw [load_append_left (by omega)]
    have hall := load_all p.schedPlugin.1
    rwa [hlen] at hall
  have hignore : (r.setParam p).num 76 1 = p.ignoreAdmission.toNat := by
    refine (num_setParam r p 68 1 (by omega)).trans ?_
    simp (disch := simp [hlen]) only [paramBytes, load_skip, leBytes_length, hlen]
    simp [load, leNat]
  unfold param
  rw [hruntime, hdes, hperiod, hdeadline, hpriority, hignore]
  simp only [UInt64.ofNat_toNat, UInt32.ofNat_toNat, UInt8.ofNat_toNat]
  congr 1
  exact Subtype.ext hname

/-- **The id a request with parameters seems to carry** is the upper half of the runtime. -/
theorem rsvid_setParam : (r.setParam p).rsvid = UInt32.ofNat (p.runtime.toNat / 2 ^ 32) := by
  have hsplit : leBytes 8 p.runtime.toNat = leBytes 4 p.runtime.toNat ++ leBytes 4 (p.runtime.toNat / 256 ^ 4) :=
    leBytes_add 4 4 _
  have hnum : (r.setParam p).num 12 4 = p.runtime.toNat / 2 ^ 32 := by
    have hlt := p.runtime.toNat_lt
    refine (num_setParam r p 4 4 (by omega)).trans ?_
    rw [paramBytes, hsplit, List.append_assoc]
    rw [load_skip (by rw [leBytes_length]), leBytes_length, leNat_load_head]
    have hpow : 256 ^ 4 = 2 ^ 32 := by norm_num
    rw [hpow, Nat.mod_eq_of_lt (by omega)]
  unfold rsvid
  rw [hnum]

end Request

/-! ### Replies -/

/-- `sizeof(struct rtf_reply)`. -/
def REPLY_SIZE : ℕ := 40

/-- The member of the payload union that is written. -/
inductive Payload where
  | nothing
  | response (v : ℤ)
  | nconnected (n : ℤ)
  | ntask (n : ℤ)
  | nplugin (n : ℤ)
  | client (pid : Pid) (state : ClientState)
  | task (tid ppid : Pid) (priority : UInt32) (period : UInt64) (pluginid : ℤ)
  | plugin (name : List UInt8) (cputot : ℕ)
  | cpu (cpunum : ℕ) (ntask : ℤ) (freeu : ℚ)

/-- `struct rtf_reply`, as a handler fills it in. -/
structure Reply where
  repType : RepType
  payload : Payload

/-- An `int` in memory. -/
def intBytes (v : ℤ) : List UInt8 := leBytes 4 (v % 2 ^ 32).toNat

/-- A `float` in memory. -/
def floatBytes (q : ℚ) : List UInt8 := leBytes 4 (Binary32.ofRat q).toNat

/-- What `strncpy` makes of a name: cut off, or padded with NULs. -/
def nameBytes (name : List UInt8) : List UInt8 :=
  (cstr name ++ List.replicate PLUGIN_MAX_NAME 0).take PLUGIN_MAX_NAME

/-- The bytes of a payload; `util` of a task is not written, the padding `pad` stays. -/
def Payload.bytes : Payload → List UInt8 → List UInt8
  | .nothing, _ => []
  | .response v, _ => floatBytes v
  | .nconnected n, _ => intBytes n
  | .ntask n, _ => intBytes n
  | .nplugin n, _ => intBytes n
  | .client pid state, _ => leBytes 4 pid.toUInt32.toNat ++ leBytes 4 state.code
  | .task tid ppid priority period pluginid, pad =>
    leBytes 4 tid.toUInt32.toNat ++ leBytes 4 ppid.toUInt32.toNat ++ leBytes 4 priority.toNat ++
      leBytes 4 period.toNat ++ load pad 20 4 ++ intBytes pluginid
  | .plugin name cputot, _ => nameBytes name ++ leBytes 4 cputot
  | .cpu cpunum n freeu, _ => leBytes 4 cpunum ++ floatBytes freeu ++ intBytes n

theorem Payload.bytes_length (p : Payload) (pad : List UInt8) : (p.bytes pad).length ≤ 36 := by
  rcases p with _ | _ | _ | _ | _ | _ | _ | ⟨name, cputot⟩ | _
  case plugin =>
    simp only [Payload.bytes, nameBytes, PLUGIN_MAX_NAME, List.length_append, List.length_take, leBytes_length]
    omega
  case task =>
    simp only [Payload.bytes, intBytes, load, List.length_append, List.length_take, leBytes_length]
    omega
  all_goals simp [Payload.bytes, intBytes, floatBytes]

/-- The reply that is sent: the members written, over what was there. -/
def Reply.bytes (rep : Reply) (pad : Buf REPLY_SIZE) : Buf REPLY_SIZE :=
  (pad.store 0 (leBytes 4 rep.repType.code) (by rw [leBytes_length]; decide)).store 4 (rep.payload.bytes pad.1)
    (by have := rep.payload.bytes_length pad.1; unfold REPLY_SIZE; omega)

/-- `rep_type` of a reply as it was received. -/
def repTypeOf (b : Buf REPLY_SIZE) : ℕ := b.num 0 4

/-- `payload.response` of a reply as it was received; no value if it is an infinity or a NaN. -/
def responseOf (b : Buf REPLY_SIZE) : Option ℚ := Binary32.toRat (UInt32.ofNat (b.num 4 4))

/-- `payload.nconnected`, `payload.ntask` and `payload.nplugin` of a reply as it was received. -/
def countOf (b : Buf REPLY_SIZE) : ℤ := (UInt32.ofNat (b.num 4 4)).toInt32.toInt

theorem repType_bytes (rep : Reply) (pad : Buf REPLY_SIZE) : repTypeOf (rep.bytes pad) = rep.repType.code := by
  have hlt := rep.repType.code_lt
  calc repTypeOf (rep.bytes pad)
      = (pad.store 0 (leBytes 4 rep.repType.code) (by rw [leBytes_length]; decide)).num 0 4 :=
        Buf.num_store_before _ (by omega)
    _ = rep.repType.code % 256 ^ 4 := Buf.num_store_self _
    _ = rep.repType.code := Nat.mod_eq_of_lt (by omega)

/-- An integer sent as a `float` arrives rounded. -/
theorem response_bytes (t : RepType) (v : ℤ) (pad : Buf REPLY_SIZE) :
    responseOf ((Reply.mk t (.response v)).bytes pad) = Binary32.toRat (Binary32.ofRat v) := by
  have hlt := (Binary32.ofRat v).toNat_lt
  have hnum : ((Reply.mk t (.response v)).bytes pad).num 4 4 = (Binary32.ofRat v).toNat % 256 ^ 4 :=
    Buf.num_store_self _
  unfold responseOf
  rw [hnum, Nat.mod_eq_of_lt (by omega), UInt32.ofNat_toNat]

end Retif
