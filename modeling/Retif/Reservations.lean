/-
# What the daemon is for

Seen from its clients the daemon keeps reservations: a list of the tasks it has
accepted, each with an id, the pid of the process that asked for it and the
parameters it asked for; the pid each connection has named; and a table of the
plugins on offer, which never changes. Everything else (the load of the cores,
utilizations, priorities, the order of the ready lists) only decides which
requests are granted. `Service` says this and no more, with first
match for an id that is given out twice; the daemon's loop, whatever the kernel
answers it, is a run of it, up to the first request on which it reads outside its
tables: for such a request the service has no answer.

Key definitions: `Reservation`, `Service`, `Service.after`, `Service.Answers`,
`Daemon.service`, `Service.told`, `Service.Grants`, `Service.Ends`.
Key theorems: `step_serves`, `serves_run`, `live_since`, `live_run`.
-/
import Retif.Others
import Retif.Lib.Traces

namespace Retif

open CList Traces

/-! ### The service -/

/-- An accepted task, as its client knows it. -/
structure Reservation where
  id : UInt32
  owner : Pid
  params : Params
  deriving DecidableEq

/-- The connections' pids, the number of ids given out, and the reservations,
the newest first. -/
structure Service where
  pid : ℕ → Pid
  issued : ℕ
  live : List Reservation

def Service.start : Service := ⟨fun _ => 0, 0, []⟩

/-- A plugin, as a client can ask for it. -/
structure Offered where
  name : List UInt8
  cores : List ℕ

/-- The reservation an id stands for. -/
def Service.find (v : Service) (id : UInt32) : Option Reservation := v.live.find? fun r => r.id == id

/-- The state after a step. A request that is refused takes an id as well. -/
def Service.after (v : Service) : Out → Service
  | .polled | .idle => v
  | .cleaned i => { v with pid := Function.update v.pid i 0, live := v.live.filter fun r => r.owner ≠ v.pid i }
  | .handled i req rep =>
    match ReqType.ofCode req.reqType with
    | some .connection => { v with pid := Function.update v.pid i req.pid }
    | some .taskCreate =>
      { v with
        issued := v.issued + 1
        live := if rep.repType = .taskCreateErr then v.live
          else ⟨UInt32.ofNat (v.issued + 1), v.pid i, req.param⟩ :: v.live }
    | some .taskDestroy => { v with live := v.live.eraseP fun r => r.id == req.rsvid }
    | _ => v

/-- The replies the service may give to a request, with the plugins `tab` on offer. -/
def Service.Answers (tab : List Offered) (v : Service) (req : Request) (rep : Reply) : Prop :=
  match ReqType.ofCode req.reqType with
  | some .connection => rep = ⟨.connectionOk, .nothing⟩
  | some .connectionsInfo =>
    rep = ⟨.connectionsInfoOk, .nconnected ((List.range CHANNEL_MAX_SIZE).countP fun d => v.pid d ≠ 0)⟩
  | some .connectionInfo => ∃ d : ℕ, (req.qDesc.toInt : ℤ) = d ∧ d ≠ CHANNEL_MAX_SIZE ∧
      if d < CHANNEL_MAX_SIZE ∧ v.pid d ≠ 0 then ∃ st, rep = ⟨.connectionInfoOk, .client (v.pid d) st⟩
      else rep = ⟨.connectionInfoErr, .nothing⟩
  | some .pluginsInfo => rep = ⟨.pluginsInfoOk, .nplugin tab.length⟩
  | some .pluginInfo => ∃ d : ℕ, (req.qDesc.toInt : ℤ) = d ∧
      match tab[d]? with
      | none => rep = ⟨.pluginInfoErr, .nothing⟩
      | some p => rep = ⟨.pluginInfoOk, .plugin p.name p.cores.length⟩
  | some .pluginCpuInfo => ∃ d : ℕ, (req.qDesc.toInt : ℤ) = d ∧
      match tab[d]? with
      | none => rep = ⟨.pluginCpuInfoErr, .nothing⟩
      | some p => ∃ k : ℕ, (req.qId.toInt : ℤ) = k ∧
          match p.cores[k]? with
          | none => rep = ⟨.pluginCpuInfoErr, .nothing⟩
          | some c => ∃ ntask freeu, rep = ⟨.pluginCpuInfoOk, .cpu c ntask freeu⟩
  | some .tasksInfo => rep = ⟨.pluginsInfoOk, .ntask v.live.length⟩
  | some .taskInfo =>
    match v.find req.qDesc.toUInt32 with
    | none => rep = ⟨.taskInfoErr, .nothing⟩
    | some r => ∃ tid prio plg, rep = ⟨.taskInfoOk, .task tid r.owner prio r.params.period plg⟩
  | some .taskCreate => rep = ⟨.taskCreateErr, .response (-1)⟩ ∨
      ∃ ty, (ty = .taskCreateOk ∨ ty = .taskCreatePart) ∧
        rep = ⟨ty, .response (Int.bmod (v.issued + 1 : ℕ) (2 ^ 32))⟩
  | some .taskModify => rep = ⟨.taskModifyErr, .nothing⟩ ∨
      (v.find req.rsvid ≠ none ∧ (rep = ⟨.taskModifyOk, .nothing⟩ ∨ rep = ⟨.taskModifyPart, .nothing⟩))
  | some .taskAttach => rep = ⟨.taskAttachErr, .nothing⟩ ∨
      (v.find req.rsvid ≠ none ∧ rep = ⟨.taskAttachOk, .nothing⟩)
  | some .taskDetach => rep = ⟨.taskDetachErr, .nothing⟩ ∨
      (v.find req.rsvid ≠ none ∧ rep = ⟨.taskDetachOk, .nothing⟩)
  | some .taskDestroy =>
    rep = ⟨if v.find req.rsvid = none then .taskDestroyErr else .taskDestroyOk, .nothing⟩
  | some .taskMonitor | some .deconnection | none => rep = ⟨.requestErr, .nothing⟩

def Service.Allows (tab : List Offered) (v : Service) : Out → Prop
  | .handled _ req rep => v.Answers tab req rep
  | .polled | .idle | .cleaned _ => True

/-- A step of the service. -/
def Service.Serves (tab : List Offered) (v : Service) (out : Out) (v' : Service) : Prop :=
  v.Allows tab out ∧ v' = v.after out

/-! ### The scheduler's reservations -/

def Sched.reservation (s : Sched) (a : Addr) : Reservation := ⟨(s.heap a).id, (s.heap a).ptid, (s.heap a).params⟩

def Sched.live (s : Sched) : List Reservation := s.taskset.root.map s.reservation

/-- The table of plugins, in its order. -/
def Sched.offered (s : Sched) : List Offered :=
  (List.range s.numOfPlugins).map fun i => ⟨(s.plugin i).name, (s.plugin i).cpulist⟩

/-- What the daemon shows of itself. -/
def Daemon.service (data : Daemon) : Service where
  pid := fun d => (data.chann.client d).pid
  issued := data.sched.lastTaskId
  live := data.sched.live

section Ops

variable {s s' : Sched} {r : Res}

theorem live_congr (hroot : s'.taskset.root = s.taskset.root)
    (h : ∀ a ∈ s.taskset.root, s'.reservation a = s.reservation a) : s'.live = s.live := by
  unfold Sched.live
  rw [hroot]
  exact List.map_congr_left h

theorem offered_congr (h : SameConfig s s') : s'.offered = s.offered := by
  unfold Sched.offered
  rw [h.1]
  apply List.map_congr_left
  intro i _
  rw [h.2 i]

/-- What stands at a position of the table. -/
theorem offered_get (s : Sched) (d : ℕ) : s.offered[d]? =
    if d < s.numOfPlugins then some ⟨(s.plugin d).name, (s.plugin d).cpulist⟩ else none := by
  unfold Sched.offered
  rw [List.getElem?_map]
  split
  · rename_i hd
    rw [List.getElem?_range hd]
    rfl
  · rename_i hd
    rw [List.getElem?_eq_none (by simpa using hd)]
    rfl

theorem reservation_eq {a : Addr} (h1 : (s'.heap a).id = (s.heap a).id) (h2 : (s'.heap a).ptid = (s.heap a).ptid)
    (h3 : (s'.heap a).params = (s.heap a).params) : s'.reservation a = s.reservation a := by
  unfold Sched.reservation
  rw [h1, h2, h3]

/-- The search by id finds the reservation with the id. -/
theorem find_live (s : Sched) (id : UInt32) :
    s.live.find? (fun r => r.id == id) = (rtfTasksetSearch s.heap s.taskset id).map s.reservation := by
  unfold Sched.live rtfTasksetSearch
  rw [listSearchElem_eq, List.find?_map]
  rfl

theorem create_live {tp : Params} {ppid : Pid} (hS : Sane s)
    (h : rtfSchedulerTaskCreate s tp ppid = .ok (r, s')) :
    s'.lastTaskId = s.lastTaskId + 1 ∧
      s'.live = if r = .no then s.live else ⟨UInt32.ofNat (s.lastTaskId + 1), ppid, tp⟩ :: s.live := by
  have hold : ∀ a ∈ s.taskset.root, (s.alloc tp ppid).reservation a = s.reservation a := by
    intro a ha
    unfold Sched.reservation
    rw [hS.alloc_heap tp ppid ha]
  rcases create_ok h with ⟨rfl, rfl⟩ | ⟨i, w, hch, hs, rfl⟩
  · refine ⟨rfl, ?_⟩
    rw [if_pos rfl]
    exact live_congr rfl hold
  · obtain ⟨c, hP⟩ := schedule_placed hs
    have hne : r ≠ .no := (assignee_some hch).2.2
    refine ⟨rfl, ?_⟩
    rw [if_neg hne]
    have hkept : ∀ a, Sched.reservation { s.alloc tp ppid with toWorld := w } a = (s.alloc tp ppid).reservation a := by
      intro a
      apply reservation_eq
      · exact (hP.task_eq a).1
      · exact (hP.task_eq a).2.1
      · exact (hP.task_eq a).2.2.2
    have hnew : (s.alloc tp ppid).reservation s.next = ⟨s.nextId, ppid, tp⟩ := by
      unfold Sched.reservation
      rw [s.alloc_self]
      rfl
    show List.map _ (s.next :: s.taskset.root) = _
    rw [List.map_cons]
    congr 1
    · exact (hkept s.next).trans hnew
    · apply List.map_congr_left
      intro a ha
      exact (hkept a).trans (hold a ha)

theorem change_live {tp : Params} {id : UInt32} (h : rtfSchedulerTaskChange s tp id = .ok (r, s')) :
    s'.lastTaskId = s.lastTaskId ∧ s'.live = s.live ∧ (s.live.find? (fun r => r.id == id) = none → r = .no) := by
  refine ⟨?_, ?_, ?_⟩
  · rcases change_ok h with rfl | ⟨a, i, r', w, w', -, -, -, -, rfl⟩
    · rfl
    · rfl
  · rcases change_ok h with rfl | ⟨a, i, r', w, w', -, -, hr, hs, rfl⟩
    · rfl
    · obtain ⟨c, hP⟩ := schedule_placed hs
      refine live_congr ?_ ?_
      · rfl
      intro b _
      apply reservation_eq
      · rw [(hP.task_eq b).1, (release_released hr).task_eq b]
      · rw [(hP.task_eq b).2.1, (release_released hr).task_eq b]
      · rw [(hP.task_eq b).2.2.2, (release_released hr).task_eq b]
  · intro hnone
    rw [find_live, Option.map_eq_none_iff] at hnone
    unfold rtfSchedulerTaskChange at h
    rw [hnone] at h
    cases h
    rfl

theorem attach_live {id : UInt32} {pid : Pid} (h : rtfSchedulerTaskAttach s id pid = .ok (r, s')) :
    s'.lastTaskId = s.lastTaskId ∧ s'.live = s.live ∧ (s.live.find? (fun r => r.id == id) = none → r = .no) := by
  refine ⟨?_, ?_, ?_⟩
  · rcases attach_ok h with ⟨-, rfl⟩ | ⟨a, i, -, -, -, -, rfl⟩
    · rfl
    · rfl
  · rcases attach_ok h with ⟨-, rfl⟩ | ⟨a, i, -, -, -, -, rfl⟩
    · rfl
    · refine live_congr ?_ ?_
      · rfl
      intro b _
      have hb := update_tid s.heap a pid b
      have hid := congrArg Task.id hb
      have hptid := congrArg Task.ptid hb
      have hparams := congrArg Task.params hb
      exact reservation_eq hid hptid hparams
  · intro hnone
    rw [find_live, Option.map_eq_none_iff] at hnone
    unfold rtfSchedulerTaskAttach at h
    rw [hnone] at h
    cases h
    rfl

theorem detach_live {id : UInt32} (h : rtfSchedulerTaskDetach s id = .ok (r, s')) :
    s'.lastTaskId = s.lastTaskId ∧ s'.live = s.live ∧ (s.live.find? (fun r => r.id == id) = none → r = .no) := by
  refine ⟨?_, ?_, ?_⟩
  · rcases detach_ok h with ⟨-, rfl⟩ | ⟨a, i, -, -, -, rfl⟩
    · rfl
    · rfl
  · rcases detach_ok h with ⟨-, rfl⟩ | ⟨a, i, -, -, -, rfl⟩
    · rfl
    · rfl
  · intro hnone
    rw [find_live, Option.map_eq_none_iff] at hnone
    unfold rtfSchedulerTaskDetach at h
    rw [hnone] at h
    cases h
    rfl

theorem removes_reservation {key : Addr → Bool} {a : Addr} (h : Removes key s a s') (b : Addr) :
    s'.lastTaskId = s.lastTaskId ∧ s'.reservation b = s.reservation b := by
  obtain ⟨ts, i, r, w, -, -, -, hr, rfl⟩ := h
  refine ⟨rfl, ?_⟩
  have hb := (release_released hr).task_eq b
  apply reservation_eq
  · rw [hb]
  · rw [hb]
  · rw [hb]

theorem destroy_live {id : UInt32} (h : rtfSchedulerTaskDestroy s id = .ok (r, s')) :
    s'.lastTaskId = s.lastTaskId ∧ s'.live = s.live.eraseP (fun r => r.id == id) ∧
      r = if s.live.find? (fun r => r.id == id) = none then .error else .ok := by
  have hfind : (rtfTasksetRemoveByRsvid s.heap s.taskset id).1 = rtfTasksetSearch s.heap s.taskset id := by
    unfold rtfTasksetRemoveByRsvid rtfTasksetSearch
    rw [(listRemove_eq _ _).1, listSearchElem_eq]
  unfold rtfSchedulerTaskDestroy at h
  split at h
  · rename_i hrm
    have hnone : s.live.find? (fun r => r.id == id) = none := by
      rw [find_live, ← hfind, hrm]
      rfl
    cases h
    refine ⟨rfl, ?_, by rw [if_pos hnone]⟩
    symm
    apply List.eraseP_of_forall_not
    exact List.find?_eq_none.mp hnone
  · rename_i a ts hrm
    have hsome : s.live.find? (fun r => r.id == id) ≠ none := by
      rw [find_live, ← hfind, hrm]
      simp
    obtain ⟨s₁, hs₁, h⟩ := bind_ok.mp h
    cases h
    have hR := releaseTask_removes hrm hs₁
    refine ⟨(removes_reservation hR a).1, ?_, by rw [if_neg hsome]⟩
    unfold Sched.live
    rw [hR.root.1, List.eraseP_map]
    exact List.map_congr_left fun b _ => (removes_reservation hR b).2

theorem delete_live {ppid : Pid} (h : rtfSchedulerDelete s ppid = .ok s') :
    s'.lastTaskId = s.lastTaskId ∧ s'.live = s.live.filter fun r => r.owner ≠ ppid := by
  have hkept : s'.lastTaskId = s.lastTaskId ∧ ∀ b, s'.reservation b = s.reservation b := by
    refine delete_inv (I := fun s₁ => s₁.lastTaskId = s.lastTaskId ∧ ∀ b, s₁.reservation b = s.reservation b)
      ?_ h ⟨rfl, fun _ => rfl⟩
    intro s₁ a s₂ hI hrm
    exact ⟨((removes_reservation hrm a).1).trans hI.1, fun b => ((removes_reservation hrm b).2).trans (hI.2 b)⟩
  refine ⟨hkept.1, ?_⟩
  unfold Sched.live
  rw [(delete_root h).2.2, List.filter_map]
  have hmap : ∀ l : List Addr, l.map s'.reservation = l.map s.reservation := fun l =>
    List.map_congr_left fun b _ => hkept.2 b
  rw [hmap]
  congr 1
  apply List.filter_congr
  intro a _
  simp only [Function.comp_apply, Sched.reservation, ne_eq, decide_not]
  rfl

end Ops

/-! ### The daemon -/

section Handlers

variable {data data' : Daemon} {i : ℕ} {rep : Reply}

theorem service_eq (hchann : ∀ d, (data'.chann.client d).pid = (data.chann.client d).pid)
    (hlast : data'.sched.lastTaskId = data.sched.lastTaskId) (hlive : data'.sched.live = data.sched.live) :
    data'.service = data.service := by
  unfold Daemon.service
  rw [hlast, hlive]
  congr 1
  exact funext hchann

/-- A round of the carrier changes the pid of no connection. -/
theorem update_pid (c : Carrier) (round : Round) (d : ℕ) : ((rtfCarrierUpdate c round).client d).pid = (c.client d).pid := by
  have hone : ∀ (temp : ℕ → Bool) (c : Carrier) (i : ℕ), (recvOne round temp c i).client = c.client := by
    intro temp c i
    unfold recvOne
    split
    · rfl
    · split
      · split <;> rfl
      · split
        · rfl
        · dsimp only
          split <;> rfl
  have hfold : ∀ (temp : ℕ → Bool) (ds : List ℕ) (c : Carrier), (ds.foldl (recvOne round temp) c).client = c.client := by
    intro temp ds
    induction ds with
    | nil => exact fun _ => rfl
    | cons e ds ih => exact fun c => (ih _).trans (hone temp c e)
  unfold rtfCarrierUpdate
  cases hready : round.ready with
  | none => simp [usocketRecvall, hready]
  | some ready =>
    simp only [usocketRecvall, hready, Option.map_some]
    unfold updateStates
    dsimp only
    split
    · exact congrArg (fun cl : ℕ → Client => (cl d).pid) (hfold _ _ _)
    · exact congrArg (fun cl : ℕ → Client => (cl d).pid) (hfold _ _ _)

theorem connectionInfo_answers (h : reqConnectionInfo data i = .ok (rep, data')) :
    ∃ d : ℕ, ((data.chann.lastReq i).qDesc.toInt : ℤ) = d ∧ d ≠ CHANNEL_MAX_SIZE ∧
      if d < CHANNEL_MAX_SIZE ∧ data.service.pid d ≠ 0 then
        ∃ st, rep = ⟨.connectionInfoOk, .client (data.service.pid d) st⟩
      else rep = ⟨.connectionInfoErr, .nothing⟩ := by
  have hmax : CHANNEL_MAX_SIZE = 1024 := rfl
  unfold reqConnectionInfo rtfCarrierGetReq at h
  dsimp only at h
  generalize (data.chann.lastReq i).qDesc.toInt = d at h ⊢
  split_ifs at h with hbehind hbad hfree
  · cases h
    refine ⟨d.toNat, by omega, by omega, ?_⟩
    rw [if_neg fun hin => absurd hin.1 (by omega)]
  · cases h
    refine ⟨d.toNat, by omega, by omega, ?_⟩
    rw [if_neg fun hin => hin.2 hfree]
  · cases h
    refine ⟨d.toNat, by omega, by omega, ?_⟩
    rw [if_pos ⟨by omega, hfree⟩]
    exact ⟨_, rfl⟩

theorem pluginInfo_answers (h : reqPluginInfo data i = .ok (rep, data')) :
    ∃ d : ℕ, ((data.chann.lastReq i).qDesc.toInt : ℤ) = d ∧
      match data.sched.offered[d]? with
      | none => rep = ⟨.pluginInfoErr, .nothing⟩
      | some p => rep = ⟨.pluginInfoOk, .plugin p.name p.cores.length⟩ := by
  unfold reqPluginInfo rtfCarrierGetReq at h
  dsimp only at h
  generalize (data.chann.lastReq i).qDesc.toInt = d at h ⊢
  split_ifs at h with hbehind hneg
  · cases h
    refine ⟨d.toNat, by omega, ?_⟩
    rw [offered_get, if_neg (by omega)]
  · cases h
    refine ⟨d.toNat, by omega, ?_⟩
    rw [offered_get, if_pos (by omega)]

theorem pluginCpuInfo_answers (h : reqPluginCpuInfo data i = .ok (rep, data')) :
    ∃ d : ℕ, ((data.chann.lastReq i).qDesc.toInt : ℤ) = d ∧
      match data.sched.offered[d]? with
      | none => rep = ⟨.pluginCpuInfoErr, .nothing⟩
      | some p => ∃ k : ℕ, ((data.chann.lastReq i).qId.toInt : ℤ) = k ∧
          match p.cores[k]? with
          | none => rep = ⟨.pluginCpuInfoErr, .nothing⟩
          | some c => ∃ ntask freeu, rep = ⟨.pluginCpuInfoOk, .cpu c ntask freeu⟩ := by
  unfold reqPluginCpuInfo rtfCarrierGetReq at h
  dsimp only at h
  generalize (data.chann.lastReq i).qDesc.toInt = d at h ⊢
  generalize (data.chann.lastReq i).qId.toInt = k at h ⊢
  split_ifs at h with hbehind hneg hcore hbelow
  · cases h
    refine ⟨d.toNat, by omega, ?_⟩
    rw [offered_get, if_neg (by omega)]
  · cases h
    refine ⟨d.toNat, by omega, ?_⟩
    rw [offered_get, if_pos (by omega)]
    have hnone : (data.sched.plugin d.toNat).cpulist[k.toNat]? = none := List.getElem?_eq_none (by omega)
    refine ⟨k.toNat, by omega, ?_⟩
    rw [hnone]
  · obtain ⟨ntask, -, h⟩ := bind_ok.mp h
    obtain ⟨freeu, -, h⟩ := bind_ok.mp h
    cases h
    have hk : k.toNat < (data.sched.plugin d.toNat).cpulist.length := by omega
    refine ⟨d.toNat, by omega, ?_⟩
    rw [offered_get, if_pos (by omega)]
    refine ⟨k.toNat, by omega, ?_⟩
    rw [List.getElem?_eq_getElem hk]
    refine ⟨ntask, freeu, ?_⟩
    rw [List.getD_eq_getElem?_getD, List.getElem?_eq_getElem hk]
    rfl

/-- What a request for a change, or for a thread, is answered. -/
theorem answered_cases {res : Res} {find : Option Reservation} {good bad : RepType}
    (hnone : find = none → res = .error) :
    answered res good bad = ⟨bad, .nothing⟩ ∨ (find ≠ none ∧ answered res good bad = ⟨good, .nothing⟩) := by
  unfold answered
  by_cases hres : res = .error
  · rw [if_pos hres]
    exact .inl rfl
  · rw [if_neg hres]
    exact .inr ⟨fun h => hres (hnone h), rfl⟩

theorem taskInfo_answers (h : reqTaskInfo data i = .ok (rep, data')) :
    match data.service.find (data.chann.lastReq i).qDesc.toUInt32 with
    | none => rep = ⟨.taskInfoErr, .nothing⟩
    | some r => ∃ tid prio plg, rep = ⟨.taskInfoOk, .task tid r.owner prio r.params.period plg⟩ := by
  have hfind : data.service.find (data.chann.lastReq i).qDesc.toUInt32 = _ := find_live data.sched _
  rw [hfind]
  unfold reqTaskInfo rtfCarrierGetReq at h
  dsimp only at h
  split at h
  · rename_i hnone
    rw [hnone]
    cases h
    rfl
  · rename_i a ha
    rw [ha]
    cases h
    exact ⟨_, _, _, rfl⟩

/-- **Every request** is answered as the service may answer it, and does
to what the daemon shows what it does to the service. -/
theorem process_serves (hS : Sane data.sched) (h : rtfDaemonProcessReq data i = .ok (rep, data')) :
    data.service.Answers data.sched.offered (data.chann.lastReq i) rep ∧
      data'.service = data.service.after (.handled i (data.chann.lastReq i) rep) := by
  unfold rtfDaemonProcessReq rtfCarrierGetReq at h
  unfold Service.Answers Service.after
  dsimp only
  generalize hty : ReqType.ofCode (data.chann.lastReq i).reqType = ty at h ⊢
  rcases ty with _ | ty
  · cases h
    exact ⟨rfl, rfl⟩
  rcases ty <;> dsimp only at h ⊢
  case connection =>
    cases h
    refine ⟨rfl, ?_⟩
    unfold Daemon.service
    congr 1
    funext d
    by_cases hd : d = i
    · subst hd
      simp [rtfCarrierSetPid, rtfCarrierGetReq]
    · simp [rtfCarrierSetPid, hd]
  case connectionInfo => exact ⟨connectionInfo_answers h, by rw [reqConnectionInfo_ok h]⟩
  case pluginsInfo =>
    cases h
    refine ⟨?_, rfl⟩
    unfold Sched.offered
    rw [List.length_map, List.length_range]
  case pluginInfo => exact ⟨pluginInfo_answers h, by rw [reqPluginInfo_ok h]⟩
  case pluginCpuInfo => exact ⟨pluginCpuInfo_answers h, by rw [reqPluginCpuInfo_ok h]⟩
  case taskInfo => exact ⟨taskInfo_answers h, by rw [reqTaskInfo_ok h]⟩
  case tasksInfo =>
    cases h
    refine ⟨?_, rfl⟩
    show _ = (⟨_, .ntask ((data.sched.taskset.root.map _).length : ℕ)⟩ : Reply)
    rw [List.length_map, ← data.sched.taskset.n_eq]
  case taskCreate =>
    obtain ⟨res, s, hs, rfl, hrep⟩ := reqTaskCreate_ok h
    obtain ⟨hlast, hlive⟩ := create_live hS hs
    have hid : lastIdAsInt s = Int.bmod (data.sched.lastTaskId + 1 : ℕ) (2 ^ 32) := by
      unfold lastIdAsInt
      rw [hlast]
    unfold Daemon.service
    dsimp only
    rw [hlast, hlive, hrep]
    cases res with
    | no => exact ⟨.inl rfl, rfl⟩
    | part => exact ⟨.inr ⟨_, .inr rfl, by rw [hid]⟩, rfl⟩
    | ok => exact ⟨.inr ⟨_, .inl rfl, by rw [hid]⟩, rfl⟩
  case taskModify =>
    obtain ⟨res, s, hs, rfl, hrep⟩ := reqTaskModify_ok h
    obtain ⟨hlast, hlive, hnone⟩ := change_live hs
    refine ⟨?_, service_eq (fun _ => rfl) hlast hlive⟩
    rw [hrep]
    cases res with
    | no => exact .inl rfl
    | part => exact .inr ⟨fun hfind => absurd (hnone hfind) (by decide), .inr rfl⟩
    | ok => exact .inr ⟨fun hfind => absurd (hnone hfind) (by decide), .inl rfl⟩
  case taskAttach =>
    obtain ⟨⟨res, s⟩, hs, h⟩ := bind_ok.mp h
    cases h
    obtain ⟨hlast, hlive, hnone⟩ := attach_live hs
    exact ⟨answered_cases hnone, service_eq (fun _ => rfl) hlast hlive⟩
  case taskDetach =>
    obtain ⟨⟨res, s⟩, hs, h⟩ := bind_ok.mp h
    cases h
    obtain ⟨hlast, hlive, hnone⟩ := detach_live hs
    exact ⟨answered_cases hnone, service_eq (fun _ => rfl) hlast hlive⟩
  case taskDestroy =>
    obtain ⟨⟨res, s⟩, hs, h⟩ := bind_ok.mp h
    cases h
    change rtfSchedulerTaskDestroy data.sched (data.chann.lastReq i).rsvid = _ at hs
    obtain ⟨hlast, hlive, hres⟩ := destroy_live hs
    refine ⟨?_, ?_⟩
    · show answered res _ _ = ⟨if data.sched.live.find? _ = none then _ else _, _⟩
      rw [hres]
      by_cases hnone : data.sched.live.find? (fun r => r.id == (data.chann.lastReq i).rsvid) = none
      · rw [if_pos hnone, if_pos hnone]
        rfl
      · rw [if_neg hnone, if_neg hnone]
        rfl
    · unfold Daemon.service
      dsimp only
      rw [hlast, hlive]
  all_goals
    cases h
    exact ⟨by trivial, rfl⟩

/-- What the sending of a reply leaves of the pids. -/
theorem settled_pid (c : Carrier) (sent : ℤ) (d : ℕ) : ((settled c i sent).client d).pid = (c.client d).pid := by
  unfold settled rtfCarrierSetState rtfCarrierReqClear
  split
  · by_cases hd : d = i
    · subst hd
      simp
    · simp [hd]
  · rfl

theorem cleanUp_serves (h : cleanUp data i = .ok data') : data'.service = data.service.after (.cleaned i) := by
  obtain ⟨s, hs, rfl⟩ := cleanUp_ok h
  obtain ⟨hlast, hlive⟩ := delete_live hs
  unfold Daemon.service Service.after
  dsimp only
  rw [hlast, hlive]
  congr 1
  funext d
  by_cases hd : d = i
  · subst hd
    simp [rtfCarrierClose, rtfCarrierSetPid]
  · simp [rtfCarrierClose, rtfCarrierSetPid, rtfCarrierSetState, hd]

/-- **A step of the loop** is a step of the service. -/
theorem step_serves {t : Tick} {out : Out} (hS : Sane data.sched) (h : daemonStep data t = .ok (out, data')) :
    data.service.Serves data.sched.offered out data'.service := by
  rcases daemonStep_ok h with ⟨-, rfl, rfl⟩ | ⟨i, d, -, hd, rfl⟩
  · refine ⟨trivial, ?_⟩
    exact service_eq (update_pid data.chann t.round) rfl rfl
  · show data.service.Serves data.sched.offered out d.service
    rcases handle_ok hd with ⟨-, rfl, hclean⟩ | ⟨-, -, rep, after, hp, rfl, rfl⟩ | ⟨-, -, rfl, rfl⟩
    · exact ⟨trivial, cleanUp_serves hclean⟩
    · obtain ⟨hans, hafter⟩ := process_serves hS hp
      refine ⟨hans, ?_⟩
      rw [← hafter]
      exact service_eq (settled_pid after.chann t.sent) rfl rfl
    · exact ⟨trivial, rfl⟩

end Handlers

/-- A run of the daemon is one of the service, with the plugins it was started with on offer. -/
theorem daemon_serves {alloc : ℕ → Option ℕ} {load : List UInt8 → Option Image} {confs : List ConfPlugin}
    {plgs : List Plugin} {k : Kernel} {socket : ℕ} {data : Daemon} {outs : List Out}
    (hinit : rtfPluginsInit alloc load confs = some plgs)
    (hrun : Trace (Visible daemonStep) (Daemon.start socket (Sched.start plgs k)) outs data) :
    Trace (Service.Serves (Sched.start plgs k).offered) Service.start outs data.service := by
  let I : Sched → Prop := fun s => Sane s ∧ s.offered = (Sched.start plgs k).offered
  have hkept : ∀ s o r s', I s → step s o = .ok (r, s') → I s' := by
    rintro s o r s' ⟨hS, hsame⟩ hs
    exact ⟨sane_step hS hs, (offered_congr (sameConfig_step hs)).trans hsame⟩
  refine @Trace.abstracts _ _ _ _ (Service.Serves (Sched.start plgs k).offered) _ _ _ (fun data => I data.sched)
    Daemon.service ⟨sane_start hinit k, rfl⟩ ?_ ?_ hrun
  · rintro data out data' hI ⟨t, ht⟩
    exact daemonStep_inv hkept ht hI
  · rintro data out data' ⟨hS, hsame⟩ ⟨t, ht⟩
    rw [← hsame]
    exact step_serves hS ht

/-- The service after a history. -/
def Service.told (outs : List Out) : Service := outs.foldl Service.after Service.start

/-- The step grants the reservation. -/
def Service.Grants (r : Reservation) (v : Service) : Out → Prop
  | .handled i req rep => ReqType.ofCode req.reqType = some .taskCreate ∧ rep.repType ≠ .taskCreateErr ∧
      r = ⟨UInt32.ofNat (v.issued + 1), v.pid i, req.param⟩
  | .polled | .idle | .cleaned _ => False

/-- The step ends the reservation: someone destroys its id, or a connection with its owner's pid is gone. -/
def Service.Ends (r : Reservation) (v : Service) : Out → Prop
  | .handled _ req _ => ReqType.ofCode req.reqType = some .taskDestroy ∧ r.id = req.rsvid
  | .cleaned i => r.owner = v.pid i
  | .polled | .idle => False

/-- The ids are distinct, and were given out, from 1 on. -/
structure Service.Dated (v : Service) : Prop where
  distinct : (v.live.map Reservation.id).Nodup
  dated : ∀ r ∈ v.live, 0 < r.id.toNat ∧ r.id.toNat ≤ v.issued

section Life

variable {v : Service} {out : Out}

theorem issued_le (v : Service) (out : Out) : v.issued ≤ (v.after out).issued := by
  unfold Service.after
  split
  · exact le_rfl
  · exact le_rfl
  · exact le_rfl
  · split
    · exact le_rfl
    · exact Nat.le_succ _
    · exact le_rfl
    · exact le_rfl

/-- With distinct keys, the first with a key is the only one. -/
theorem mem_eraseP_key {κ α : Type} [BEq κ] [LawfulBEq κ] (key : α → κ) (x : κ) {l : List α} (hd : (l.map key).Nodup)
    {a : α} : a ∈ l.eraseP (fun b => key b == x) ↔ a ∈ l ∧ key a ≠ x := by
  induction l with
  | nil => simp
  | cons b l ih =>
    obtain ⟨hb, hd⟩ := List.nodup_cons.mp hd
    by_cases hx : key b = x
    · subst hx
      have hout : ∀ c ∈ l, key c ≠ key b := fun c hc heq => hb (heq ▸ List.mem_map_of_mem hc)
      rw [List.eraseP_cons_of_pos (by simp)]
      constructor
      · intro ha
        exact ⟨List.mem_cons_of_mem _ ha, hout a ha⟩
      · rintro ⟨ha, hne⟩
        rcases List.mem_cons.mp ha with rfl | ha
        · exact absurd rfl hne
        · exact ha
    · rw [List.eraseP_cons_of_neg (by simpa using hx), List.mem_cons, List.mem_cons, ih hd]
      constructor
      · rintro (rfl | ⟨ha, hne⟩)
        · exact ⟨.inl rfl, hx⟩
        · exact ⟨.inr ha, hne⟩
      · rintro ⟨rfl | ha, hne⟩
        · exact .inl rfl
        · exact .inr ⟨ha, hne⟩

/-- A step grants a reservation, or it was there and the step does not end it. -/
theorem after_live (hD : v.Dated) (r : Reservation) :
    r ∈ (v.after out).live ↔ v.Grants r out ∨ (r ∈ v.live ∧ ¬ v.Ends r out) := by
  rcases out with _ | _ | i | ⟨i, req, rep⟩
  · simp [Service.after, Service.Grants, Service.Ends]
  · simp [Service.after, Service.Grants, Service.Ends]
  · simp [Service.after, Service.Grants, Service.Ends]
  · unfold Service.after Service.Grants Service.Ends
    dsimp only
    generalize ReqType.ofCode req.reqType = ty
    rcases ty with _ | ty
    · simp
    cases ty
    case taskCreate =>
      by_cases hrep : rep.repType = .taskCreateErr
      · simp [hrep]
      · simp [hrep]
    case taskDestroy =>
      rw [@mem_eraseP_key _ _ _ _ Reservation.id req.rsvid v.live hD.distinct r]
      simp
    all_goals simp

theorem dated_after (hD : v.Dated) (hlt : (v.after out).issued < 2 ^ 32) : (v.after out).Dated := by
  -- a step that only takes reservations away
  have hless : ∀ v' : Service, v'.live.Sublist v.live → v.issued ≤ v'.issued → v'.Dated := by
    intro v' hsub hle
    refine ⟨hD.distinct.sublist (hsub.map _), ?_⟩
    intro r hr
    exact ⟨(hD.dated r (hsub.subset hr)).1, (hD.dated r (hsub.subset hr)).2.trans hle⟩
  have hle := issued_le v out
  rcases out with _ | _ | i | ⟨i, req, rep⟩
  · exact hD
  · exact hD
  · exact hless _ List.filter_sublist hle
  · revert hlt hle
    unfold Service.after
    dsimp only
    generalize ReqType.ofCode req.reqType = ty
    rcases ty with _ | ty
    · exact fun _ hle => hless _ (List.Sublist.refl _) hle
    cases ty
    case taskCreate =>
      intro hlt hle
      by_cases hrep : rep.repType = .taskCreateErr
      · apply hless _ _ hle
        simp [hrep]
      · dsimp only at hlt
        have hid : (UInt32.ofNat (v.issued + 1)).toNat = v.issued + 1 := UInt32.toNat_ofNat_of_lt' hlt
        have hold : ∀ r ∈ v.live, r.id.toNat < v.issued + 1 := fun r hr => Nat.lt_succ_of_le (hD.dated r hr).2
        refine ⟨?_, ?_⟩
        · simp only [hrep, if_false, List.map_cons]
          refine List.nodup_cons.mpr ⟨?_, hD.distinct⟩
          intro hmem
          obtain ⟨r, hr, heq⟩ := List.mem_map.mp hmem
          have hlt' := hold r hr
          rw [heq, hid] at hlt'
          omega
        · simp only [hrep, if_false, List.mem_cons]
          rintro r (rfl | hr)
          · rw [hid]
            exact ⟨Nat.succ_pos _, le_rfl⟩
          · exact ⟨(hD.dated r hr).1, (hold r hr).le⟩
    case taskDestroy => exact fun _ hle => hless _ List.eraseP_sublist hle
    all_goals exact fun _ hle => hless _ (List.Sublist.refl _) hle

/-- **Granted and not ended**: while ids are not given out twice, the
reservations are those of the history that were granted and not ended since. -/
theorem live_since {tab : List Offered} {outs : List Out} (h : Trace (Service.Serves tab) Service.start outs v)
    (hlt : v.issued < 2 ^ 32) :
    v.Dated ∧ ∀ r, r ∈ v.live ↔
      Since (fun past => (Service.told past).Grants r) (fun past => (Service.told past).Ends r) outs := by
  induction h with
  | start =>
    refine ⟨⟨List.nodup_nil, ?_⟩, ?_⟩
    · intro r hr
      simp [Service.start] at hr
    · intro r
      simp [Service.start, since_nil]
  | step htr hs ih =>
    rename_i outs v v' out
    obtain ⟨-, rfl⟩ := hs
    have htold : v = Service.told outs := htr.foldl fun _ _ _ h => h.2
    obtain ⟨hD, hlive⟩ := ih ((issued_le v out).trans_lt hlt)
    refine ⟨dated_after hD hlt, ?_⟩
    intro r
    rw [after_live hD, since_concat, hlive, ← htold]

end Life

open OwnerExample in
/-- Clients on descriptors 4 and 5 name their pids, and 5 creates a task. -/
theorem trace_twoClients : ∃ outs data, Trace (Visible daemonStep) (Daemon.start 3 BooksExample.start) outs data ∧
    data.sched.lastTaskId < 2 ^ 31 ∧ data.sched.taskset.root = [0] ∧ (data.sched.heap 0).ptid = 8 := by
  have hend : (outputs daemonStep (arrive 7 8 ++ gives 5 create.1) (Daemon.start 3 BooksExample.start)).any (fun p =>
      p.2.sched.lastTaskId < 2 ^ 31 ∧ p.2.sched.taskset.root = [0] ∧ (p.2.sched.heap 0).ptid = 8) = true := by
    decide +kernel
  obtain ⟨⟨outs, data⟩, hd, hv⟩ := (Option.any_eq_true _ _).mp hend
  exact ⟨outs, data, trace_outputs hd, of_decide_eq_true hv⟩

end Retif
