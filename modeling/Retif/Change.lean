/-
# Changing a task, end to end

`rtf_task_change` writes the new parameters over the place of the id in the
request, keeps them in the handle before it knows the answer, and sends the
rest as it is. The daemon looks for the task whose id the upper half of the
new runtime is, admits it once more with the parameters it has, and takes none
of the new ones over.

So the call does what it is for exactly when it changes nothing (`Meant`):
the id is in the runtime, and the parameters are the ones the daemon, or after
a refusal the handle, has already.

Key definitions: `Changes`, `Meant`.
Key theorems: `change_processed`, `changes_iff`, `not_changes`.
-/
import Retif.Library
import Retif.Books

namespace Retif

/-- What the call is for: it acts on the task at `a`, of the others only the
rank may move; success gives the task the new parameters; failure leaves those
of the task and of the handle. -/
structure Changes (data data' : Daemon) (l l' : Lib) (t : ℕ) (p : Params) (a : Addr) (res : Res) : Prop where
  target : rtfTasksetSearch data.sched.heap data.sched.taskset (changeRequest l.req p).rsvid = some a
  others : ∀ b, b ≠ a → data'.sched.heap b =
    { data.sched.heap b with schedprio := (data'.sched.heap b).schedprio }
  success : res = .ok → (data'.sched.heap a).params = p
  failure : res = .fail → (data'.sched.heap a).params = (data.sched.heap a).params ∧
    (l'.handle t).p = (l.handle t).p

/-- The runtime carries the id, and the parameters are nowhere new. -/
structure Meant (data : Daemon) (l : Lib) (t : ℕ) (p : Params) (a : Addr) : Prop where
  carries : UInt32.ofNat (p.runtime.toNat / 2 ^ 32) = (l.handle t).taskId
  taken : taker data.sched a ≠ none → (data.sched.heap a).params = p
  refused : taker data.sched a = none → (l.handle t).p = p

section Served

variable {data data' : Daemon} {i : ℕ} {l : Lib} {t : ℕ} {p : Params} {x : Exchange} {rep : Reply}

/-- The id the daemon reads is the upper half of the runtime. -/
theorem changeRequest_rsvid (req : Request) (p : Params) :
    (changeRequest req p).rsvid = UInt32.ofNat (p.runtime.toNat / 2 ^ 32) :=
  Request.rsvid_setParam _ p

/-- The daemon answers a change with what its scheduler says. -/
theorem change_processed (h : Served data i (changeRequest l.req p) x rep data') :
    ∃ res s, rtfSchedulerTaskChange data.sched (changeRequest l.req p).param (changeRequest l.req p).rsvid =
      .ok (res, s) ∧ data'.sched = s ∧ (rep.repType = .taskModifyErr ↔ res = .no) := by
  have hp := h.processed
  have hreq : (data.holding i (changeRequest l.req p)).chann.lastReq i = changeRequest l.req p := by
    simp [Daemon.holding]
  have hty : ReqType.ofCode (changeRequest l.req p).reqType = some .taskModify := by
    simp [changeRequest, ReqType.ofCode_code]
  unfold rtfDaemonProcessReq rtfCarrierGetReq at hp
  rw [hreq, hty] at hp
  obtain ⟨res, s, hs, rfl, hrep⟩ := reqTaskModify_ok hp
  rw [hreq] at hs
  refine ⟨res, s, hs, rfl, ?_⟩
  rw [hrep]
  cases res <;> simp

/-- A change that returns leaves every task the parameters it had. -/
theorem change_params {s s' : Sched} {tp : Params} {id : UInt32} {r : Res}
    (h : rtfSchedulerTaskChange s tp id = .ok (r, s')) (b : Addr) : (s'.heap b).params = (s.heap b).params := by
  rcases change_ok h with rfl | ⟨a, i, r', w, w', -, -, hr, hs, rfl⟩
  · rfl
  · obtain ⟨c, hP⟩ := schedule_placed hs
    show (w'.heap b).params = _
    rw [(hP.task_eq b).2.2.2, (release_released hr).task_eq b]

/-- A change leaves every other task as it is, but for its rank. -/
theorem change_others {s s' : Sched} {tp : Params} {id : UInt32} {r : Res} {a : Addr}
    (hsearch : rtfTasksetSearch s.heap s.taskset id = some a) (h : rtfSchedulerTaskChange s tp id = .ok (r, s'))
    {b : Addr} (hb : b ≠ a) : s'.heap b = { s.heap b with schedprio := (s'.heap b).schedprio } := by
  rcases change_ok h with rfl | ⟨a', i, r', w, w', ha', -, hr, hs, rfl⟩
  · rfl
  · rw [hsearch] at ha'
    cases ha'
    obtain ⟨c, hP⟩ := schedule_placed hs
    have hrest := hP.rest b hb
    rw [(release_released hr).heap_ne hb] at hrest
    exact hrest

/-- A change is refused exactly when no plugin takes the task. -/
theorem change_refused {s s' : Sched} {tp : Params} {id : UInt32} {r : Res} {a : Addr}
    (hsearch : rtfTasksetSearch s.heap s.taskset id = some a) (h : rtfSchedulerTaskChange s tp id = .ok (r, s')) :
    r = .no ↔ taker s a = none := by
  unfold rtfSchedulerTaskChange at h
  rw [hsearch] at h
  rcases testAndModify_ok h with ⟨rfl, -, hnone⟩ | ⟨j, r', w, w', hsome, -, -, -⟩
  · simp [hnone]
  · have hne := (taker_some hsome).2.2
    simp [hsome, hne]

/-- What the handle holds afterwards. -/
theorem change_handle : ((rtfTaskChange l t p x).2.handle t).p = p := by
  unfold rtfTaskChange
  rw [asking_handle]
  simp [Lib.keepParams]

/-- **Change, end to end**: for a task the daemon has, the call does what it
is for exactly when the runtime carries the id and nothing is changed. -/
theorem changes_iff {a : Addr} (hlive : rtfTasksetSearch data.sched.heap data.sched.taskset (l.handle t).taskId = some a)
    (hserved : Served data i (changeRequest l.req p) x rep data') :
    Changes data data' l (rtfTaskChange l t p x).2 t p a (rtfTaskChange l t p x).1 ↔ Meant data l t p a := by
  obtain ⟨r, s', hchange, hsched, hrep⟩ := change_processed hserved
  have hres : (rtfTaskChange l t p x).1 = if r = .no then .fail else .ok := by
    calc (rtfTaskChange l t p x).1 = decided .taskModifyErr x l.rep := asking_fst
      _ = if rep.repType = .taskModifyErr then .fail else .ok := served_decided hserved
      _ = if r = .no then .fail else .ok := if_congr hrep rfl rfl
  have hkept : (data'.sched.heap a).params = (data.sched.heap a).params := by
    rw [hsched]
    exact change_params hchange a
  -- the daemon finds the task of the handle exactly when it reads the handle's id
  have htarget : rtfTasksetSearch data.sched.heap data.sched.taskset (changeRequest l.req p).rsvid = some a ↔
      UInt32.ofNat (p.runtime.toNat / 2 ^ 32) = (l.handle t).taskId := by
    rw [changeRequest_rsvid]
    constructor
    · intro hfound
      rw [← (rtfTasksetSearch_some hfound).2, ← (rtfTasksetSearch_some hlive).2]
    · intro heq
      rw [heq]
      exact hlive
  constructor
  · rintro ⟨hfound, -, hsuccess, hfailure⟩
    have hno := change_refused hfound hchange
    refine ⟨htarget.mp hfound, ?_, ?_⟩
    · intro htaken
      have hok : (rtfTaskChange l t p x).1 = .ok := by rw [hres, if_neg fun h => htaken (hno.mp h)]
      rw [← hkept]
      exact hsuccess hok
    · intro hrefused
      have hfail : (rtfTaskChange l t p x).1 = .fail := by rw [hres, if_pos (hno.mpr hrefused)]
      rw [← (hfailure hfail).2]
      exact change_handle
  · rintro ⟨hcarries, htaken, hrefused⟩
    have hfound := htarget.mpr hcarries
    have hno := change_refused hfound hchange
    refine ⟨hfound, ?_, ?_, ?_⟩
    · intro b hb
      rw [hsched]
      exact change_others hfound hchange hb
    · intro hok
      have hne : ¬ r = .no := by
        intro hr
        rw [hres, if_pos hr] at hok
        cases hok
      rw [hkept]
      exact htaken fun hnone => hne (hno.mpr hnone)
    · intro hfail
      have hr : r = .no := by
        by_contra hr
        rw [hres, if_neg hr] at hfail
        cases hfail
      exact ⟨hkept, change_handle.trans (hrefused (hno.mp hr)).symm⟩

end Served

/-! ### Two changes -/

namespace ChangeExample

/-- EDF with one task, whose id is 1. -/
def withTask (p : Params) : Daemon :=
  Daemon.start 3 ((runGood step (fun _ _ => True) [.create p 7] BooksExample.start).getD BooksExample.start)

/-- The program's handle of it. -/
def holder (p : Params) : Lib := ⟨Memory.Buf.zero REQUEST_SIZE, Memory.Buf.zero REPLY_SIZE, fun _ => ⟨1, p⟩⟩

/-- Parameters with the id 1 in the upper half of the runtime. -/
def large : Params := { Params.zero with runtime := 0x100000000, period := 0x200000000 }

/-- The exchange in which a reply arrives whole. -/
def replied (rep : Reply) : Exchange :=
  ⟨REQUEST_SIZE, some ⟨(rep.bytes (Memory.Buf.zero REPLY_SIZE)).1, (rep.bytes _).2.le⟩, 0⟩

/-- A request the daemon can process is served. -/
theorem served {data : Daemon} {i : ℕ} {req : Request} {ty : RepType}
    (h : ((rtfDaemonProcessReq (data.holding i req) i).toOption).map (fun r => r.1.repType) = some ty) :
    ∃ rep data', Served data i req (replied rep) rep data' ∧ rep.repType = ty := by
  obtain ⟨⟨rep, data'⟩, hr, hty⟩ := Option.map_eq_some_iff.mp h
  refine ⟨rep, data', ⟨?_, rfl, ⟨_, _, rfl, rfl⟩⟩, hty⟩
  rcases hp : rtfDaemonProcessReq (data.holding i req) i with e | r
  · rw [hp] at hr
    cases hr
  · rw [hp] at hr
    cases hr
    rfl

end ChangeExample

open ChangeExample

/-- Changing nothing, with the id in the runtime, is what the call can do. -/
theorem changes_same : ∃ rep data', Served (withTask large) 4 (changeRequest (holder large).req large) (replied rep) rep
    data' ∧ Changes (withTask large) data' (holder large) (rtfTaskChange (holder large) 0 large (replied rep)).2 0 large
      0 (rtfTaskChange (holder large) 0 large (replied rep)).1 := by
  obtain ⟨rep, data', hserved, -⟩ :=
    @served (withTask large) 4 (changeRequest (holder large).req large) .taskModifyOk (by decide +kernel)
  refine ⟨rep, data', hserved, (changes_iff (by decide +kernel) hserved).mpr ⟨by decide +kernel, ?_, ?_⟩⟩
  · intro _
    decide +kernel
  · intro _
    rfl

/-- A smaller runtime carries the id 0: the change fails, and the handle keeps what was refused. -/
theorem not_changes : ¬ ∀ (data data' : Daemon) (i : ℕ) (l : Lib) (t : ℕ) (p : Params) (x : Exchange) (rep : Reply)
    (a : Addr), rtfTasksetSearch data.sched.heap data.sched.taskset (l.handle t).taskId = some a →
      Served data i (changeRequest l.req p) x rep data' →
        Changes data data' l (rtfTaskChange l t p x).2 t p a (rtfTaskChange l t p x).1 := by
  intro h
  obtain ⟨rep, data', hserved, -⟩ := @served (withTask (BooksExample.params 10)) 4
    (changeRequest (holder (BooksExample.params 10)).req (BooksExample.params 20)) .taskModifyErr (by decide +kernel)
  have hC := h _ data' 4 (holder (BooksExample.params 10)) 0 (BooksExample.params 20) (replied rep) rep 0
    (by decide +kernel) hserved
  exact absurd hC.target (by decide +kernel)

end Retif
