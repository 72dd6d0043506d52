/-
# The client library

`retif_lib.c`: the calls a program makes, each of which fills in the one
request buffer of the process, sends it, and reads the reply into the one
reply buffer. What the socket does in a call is given (`Exchange`).

The calls that ask for an operation end alike (`asking`): an error when `send`
or `recv` failed, a failure when the type now in the reply buffer is that of
the request's refusal, and success otherwise.

Key definitions: `Exchange`, `Lib`, `rtfTaskCommunicate`, `asking`, `Call`,
`Lib.call`, `Served`.
Key theorems: `asking_fst`, `call_decided`, `served_decided`.
-/
import Retif.Daemon

namespace Retif

open Memory

/-- What the socket does in one call: what `send` returns, and what `recv`
gives. `wild` is what the conversion of a `float` that does not fit leaves. -/
structure Exchange where
  sent : ℤ
  recv : Recv REPLY_SIZE
  wild : UInt32

/-- `struct rtf_task`: the id the daemon gave and the parameters last asked for. -/
structure Handle where
  taskId : UInt32
  p : Params

/-- The buffers of `main_channel`, and the handles of the program. -/
structure Lib where
  req : Request
  rep : Buf REPLY_SIZE
  handle : ℕ → Handle

/-- `(uint32_t)` of a `float`. -/
def floatToU32 (q : Option ℚ) (wild : UInt32) : UInt32 :=
  match q with
  | none => wild
  | some q => if -1 < q ∧ q < 2 ^ 32 then toU32 q else wild

/-- `rtf_task_communicate`. A `recv` of no bytes is not an error. -/
def rtfTaskCommunicate (l : Lib) (x : Exchange) : Res × Lib :=
  if x.sent = -1 then (.error, l)
  else
    match x.recv with
    | none => (.error, l)
    | some bs => (.ok, { l with rep := received l.rep bs })

/-! ### The calls -/

/-- `rtf_connect`; `opened` says whether the socket was made and connected. -/
def rtfConnect (l : Lib) (opened : Bool) (pid : Pid) (x : Exchange) : Res × Lib :=
  if opened = false then (.error, l)
  else
    let l := { l with req := (l.req.setType .connection).setPid pid }
    if x.sent < 0 then (.error, l)
    else
      match x.recv with
      | none => (.error, l)
      | some bs =>
        let l := { l with rep := received l.rep bs }
        if repTypeOf l.rep = RepType.connectionErr.code then (.fail, l) else (.ok, l)

/-- The queries for a number. -/
def counting (l : Lib) (t : ReqType) (x : Exchange) : ℤ × Lib :=
  let (ret, l) := rtfTaskCommunicate { l with req := l.req.setType t } x
  if ret = .error then (-1, l) else (countOf l.rep, l)

def rtfConnectionsInfo (l : Lib) (x : Exchange) : ℤ × Lib := counting l .connectionsInfo x

def rtfPluginsInfo (l : Lib) (x : Exchange) : ℤ × Lib := counting l .pluginsInfo x

def rtfTasksInfo (l : Lib) (x : Exchange) : ℤ × Lib := counting l .tasksInfo x

/-- The queries for a record, of which `size` bytes are copied out of the reply. -/
def describing (l : Lib) (bad : RepType) (size : ℕ) (x : Exchange) : Option (List UInt8) × Lib :=
  let (ret, l) := rtfTaskCommunicate l x
  if ret = .error then (none, l)
  else if repTypeOf l.rep = bad.code then (none, l)
  else (some (load l.rep.1 4 size), l)

def rtfConnectionInfo (l : Lib) (desc : UInt32) (x : Exchange) : Option (List UInt8) × Lib :=
  describing { l with req := (l.req.setType .connectionInfo).setQDesc desc.toInt32 } .connectionInfoErr 8 x

def rtfTaskInfo (l : Lib) (desc : UInt32) (x : Exchange) : Option (List UInt8) × Lib :=
  describing { l with req := (l.req.setType .taskInfo).setQDesc desc.toInt32 } .taskInfoErr 24 x

def rtfPluginInfo (l : Lib) (desc : UInt32) (x : Exchange) : Option (List UInt8) × Lib :=
  describing { l with req := (l.req.setType .pluginInfo).setQDesc desc.toInt32 } .pluginInfoErr 36 x

def rtfPluginCpuInfo (l : Lib) (desc cpuid : UInt32) (x : Exchange) : Option (List UInt8) × Lib :=
  describing { l with req := ((l.req.setType .pluginCpuInfo).setQDesc desc.toInt32).setQId cpuid.toInt32 }
    .pluginCpuInfoErr 12 x

/-- The requests for an operation: `bad` is the refusal. -/
def asking (l : Lib) (bad : RepType) (x : Exchange) : Res × Lib :=
  let (ret, l) := rtfTaskCommunicate l x
  if ret = .error then (.error, l)
  else if repTypeOf l.rep = bad.code then (.fail, l)
  else (.ok, l)

/-- The handle keeps the parameters before they are sent. -/
def Lib.keepParams (l : Lib) (t : ℕ) (p : Params) : Lib :=
  { l with handle := Function.update l.handle t { l.handle t with p := p } }

def createRequest (req : Request) (p : Params) : Request := (req.setType .taskCreate).setParam p

def rtfTaskCreate (l : Lib) (t : ℕ) (p : Params) (x : Exchange) : Res × Lib :=
  let (res, l) := asking { l.keepParams t p with req := createRequest l.req p } .taskCreateErr x
  if res = .ok then
    (res, { l with
      handle := Function.update l.handle t { l.handle t with taskId := floatToU32 (responseOf l.rep) x.wild } })
  else (res, l)

/-- The parameters are written over the place of the id; the id is not sent. -/
def changeRequest (req : Request) (p : Params) : Request := (req.setType .taskModify).setParam p

def rtfTaskChange (l : Lib) (t : ℕ) (p : Params) (x : Exchange) : Res × Lib :=
  asking { l.keepParams t p with req := changeRequest l.req p } .taskModifyErr x

def attachRequest (req : Request) (id : UInt32) (pid : Pid) : Request :=
  ((req.setType .taskAttach).setRsvid id).setPid pid

def rtfTaskAttach (l : Lib) (t : ℕ) (pid : Pid) (x : Exchange) : Res × Lib :=
  asking { l with req := attachRequest l.req (l.handle t).taskId pid } .taskAttachErr x

def detachRequest (req : Request) (id : UInt32) : Request := (req.setType .taskDetach).setRsvid id

def rtfTaskDetach (l : Lib) (t : ℕ) (x : Exchange) : Res × Lib :=
  asking { l with req := detachRequest l.req (l.handle t).taskId } .taskDetachErr x

def releaseRequest (req : Request) (id : UInt32) : Request := (req.setType .taskDestroy).setRsvid id

def rtfTaskRelease (l : Lib) (t : ℕ) (x : Exchange) : Res × Lib :=
  asking { l with req := releaseRequest l.req (l.handle t).taskId } .taskDestroyErr x

/-- A call of the library; `t` says which handle. -/
inductive Call where
  | connect (opened : Bool) (pid : Pid)
  | connectionsInfo
  | pluginsInfo
  | tasksInfo
  | connectionInfo (desc : UInt32)
  | taskInfo (desc : UInt32)
  | pluginInfo (desc : UInt32)
  | pluginCpuInfo (desc cpuid : UInt32)
  | create (t : ℕ) (p : Params)
  | change (t : ℕ) (p : Params)
  | attach (t : ℕ) (pid : Pid)
  | detach (t : ℕ)
  | release (t : ℕ)

/-- What a call returns. -/
inductive Answer where
  | res (r : Res)
  | count (n : ℤ)
  | info (data : Option (List UInt8))
  deriving DecidableEq

def Lib.call (l : Lib) (c : Call) (x : Exchange) : Answer × Lib :=
  match c with
  | .connect opened pid => (rtfConnect l opened pid x).map .res id
  | .connectionsInfo => (rtfConnectionsInfo l x).map .count id
  | .pluginsInfo => (rtfPluginsInfo l x).map .count id
  | .tasksInfo => (rtfTasksInfo l x).map .count id
  | .connectionInfo desc => (rtfConnectionInfo l desc x).map .info id
  | .taskInfo desc => (rtfTaskInfo l desc x).map .info id
  | .pluginInfo desc => (rtfPluginInfo l desc x).map .info id
  | .pluginCpuInfo desc cpuid => (rtfPluginCpuInfo l desc cpuid x).map .info id
  | .create t p => (rtfTaskCreate l t p x).map .res id
  | .change t p => (rtfTaskChange l t p x).map .res id
  | .attach t pid => (rtfTaskAttach l t pid x).map .res id
  | .detach t => (rtfTaskDetach l t x).map .res id
  | .release t => (rtfTaskRelease l t x).map .res id

/-! ### How a call ends -/

/-- For a call that asks for an operation, the refusal and the replies of success. -/
def Call.replies : Call → Option (RepType × List RepType)
  | .create .. => some (.taskCreateErr, [.taskCreateOk, .taskCreatePart])
  | .change .. => some (.taskModifyErr, [.taskModifyOk, .taskModifyPart])
  | .attach .. => some (.taskAttachErr, [.taskAttachOk])
  | .detach _ => some (.taskDetachErr, [.taskDetachOk])
  | .release _ => some (.taskDestroyErr, [.taskDestroyOk])
  | _ => none

/-- What is returned, where the reply buffer holds `rep` before the call. -/
def decided (bad : RepType) (x : Exchange) (rep : Buf REPLY_SIZE) : Res :=
  if x.sent = -1 then .error
  else
    match x.recv with
    | none => .error
    | some bs => if repTypeOf (received rep bs) = bad.code then .fail else .ok

section Calls

variable {l : Lib} {bad : RepType} {x : Exchange}

theorem asking_fst : (asking l bad x).1 = decided bad x l.rep := by
  unfold asking rtfTaskCommunicate decided
  by_cases hs : x.sent = -1
  · simp [hs]
  · rcases x.recv with _ | bs
    · simp [hs]
    · simp only [hs, if_false, reduceCtorEq]
      split <;> rfl

/-- Nothing of a handle changes while a request is sent and answered. -/
theorem asking_handle : (asking l bad x).2.handle = l.handle := by
  unfold asking rtfTaskCommunicate
  by_cases hs : x.sent = -1
  · simp [hs]
  · rcases x.recv with _ | bs
    · simp [hs]
    · simp only [hs, if_false, reduceCtorEq]
      split <;> rfl

theorem create_fst {t : ℕ} {p : Params} : (rtfTaskCreate l t p x).1 = decided .taskCreateErr x l.rep := by
  unfold rtfTaskCreate
  have hask := @asking_fst { l.keepParams t p with req := createRequest l.req p } .taskCreateErr x
  generalize asking { l.keepParams t p with req := createRequest l.req p } .taskCreateErr x = r at hask ⊢
  dsimp only
  split <;> exact hask

/-- **Every call for an operation** is decided by the socket and the type that
is in the reply buffer afterwards. -/
theorem call_decided {c : Call} {good : List RepType} (h : c.replies = some (bad, good)) :
    (l.call c x).1 = .res (decided bad x l.rep) := by
  rcases c <;> cases h
  case create t p => exact congrArg Answer.res create_fst
  all_goals exact congrArg Answer.res asking_fst

end Calls

/-! ### A call the daemon serves -/

/-- The daemon with `req` as the request of client `i`. -/
def Daemon.holding (data : Daemon) (i : ℕ) (req : Request) : Daemon :=
  { data with chann := { data.chann with lastReq := Function.update data.chann.lastReq i req } }

/-- In this exchange `req` arrived whole, the daemon processed it as client
`i`'s, and its reply `rep` arrived whole. -/
structure Served (data : Daemon) (i : ℕ) (req : Request) (x : Exchange) (rep : Reply) (data' : Daemon) : Prop where
  processed : rtfDaemonProcessReq (data.holding i req) i = .ok (rep, data')
  sent : x.sent = REQUEST_SIZE
  received : ∃ pad bs, x.recv = some bs ∧ bs.1 = (rep.bytes pad).1

/-- A call that is served is decided by the daemon's reply. -/
theorem served_decided {data data' : Daemon} {i : ℕ} {req : Request} {x : Exchange} {rep : Reply} {bad : RepType}
    {b : Buf REPLY_SIZE} (h : Served data i req x rep data') :
    decided bad x b = if rep.repType = bad then .fail else .ok := by
  obtain ⟨pad, bs, hbs, hbytes⟩ := h.received
  have hsent : x.sent ≠ -1 := by
    rw [h.sent]
    decide
  have hbuf : received b bs = rep.bytes pad := by
    apply Subtype.ext
    have hlen : bs.1.length = b.1.length := by rw [hbytes, (rep.bytes pad).2, b.2]
    calc (received b bs).1 = bs.1 := store_all hlen
      _ = (rep.bytes pad).1 := hbytes
  unfold decided
  simp only [hsent, if_false, hbs, hbuf, repType_bytes, RepType.code_inj]

end Retif
