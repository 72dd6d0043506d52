/-
# The id a handle gets

The daemon sends the id of a new task in a `float` and the library reads it
back as an unsigned number. Ids are counted up with every create, the refused
ones too. The handle gets the id as long as it is below `2 ^ 31`, where the
daemon's `int` is not negative yet, and has at most 24 significant binary
digits; from 16777217 on this fails for the first ids.

Key definitions: `Names`, `serveStep`.
Key theorems: `response_id`, `names_iff`, `not_names`.
-/
import Retif.Change
import Retif.Unique

namespace Retif

open Memory Binary32

/-- After a create that succeeded the handle names the task the daemon has put
on top of its taskset: the id is that of the task, the daemon finds the task by
it, and the requests about it carry it. -/
structure Names (data data' : Daemon) (t : ℕ) (res : Res) (l' : Lib) : Prop where
  success : res = .ok
  placed : data'.sched.taskset.root = data.sched.next :: data.sched.taskset.root
  same : (l'.handle t).taskId = (data'.sched.heap data.sched.next).id
  found : rtfTasksetSearch data'.sched.heap data'.sched.taskset (l'.handle t).taskId = some data.sched.next
  sent : ∀ req pid, (attachRequest req (l'.handle t).taskId pid).rsvid = (data'.sched.heap data.sched.next).id ∧
    (detachRequest req (l'.handle t).taskId).rsvid = (data'.sched.heap data.sched.next).id ∧
    (releaseRequest req (l'.handle t).taskId).rsvid = (data'.sched.heap data.sched.next).id

/-! ### The id on its way -/

/-- `int rtf_id`: the id with its highest bit as a sign. -/
theorem lastIdAsInt_eq (s : Sched) :
    lastIdAsInt s = if s.lastTaskId % 2 ^ 32 < 2 ^ 31 then ((s.lastTaskId % 2 ^ 32 : ℕ) : ℤ)
      else -((2 ^ 32 - s.lastTaskId % 2 ^ 32 : ℕ) : ℤ) := by
  unfold lastIdAsInt
  rw [Int.bmod_def]
  split <;> split <;> omega

theorem toU32_natCast {m : ℕ} (h : m < 2 ^ 32) : (toU32 m).toNat = m := by
  have hz := @toU32_toNat (m : ℚ) (Nat.cast_nonneg m) (by rw [Int.floor_natCast]; exact_mod_cast h)
  rw [Int.floor_natCast] at hz
  exact_mod_cast hz

/-- **The id read back**, whatever a conversion that does not fit leaves, is
the id sent exactly when it is below `2 ^ 31` and fits. -/
theorem response_id {n : ℕ} (hn : n < 2 ^ 32) {v : ℤ}
    (hv : v = if n < 2 ^ 31 then (n : ℤ) else -((2 ^ 32 - n : ℕ) : ℤ)) :
    (∀ wild, floatToU32 (toRat (ofRat v)) wild = UInt32.ofNat n) ↔ n < 2 ^ 31 ∧ Binary32.Fits n := by
  have hofNat : (UInt32.ofNat n).toNat = n := UInt32.toNat_ofNat_of_lt' hn
  have hother : ∃ wild : UInt32, wild ≠ UInt32.ofNat n := ⟨UInt32.ofNat n + 1, by simp⟩
  by_cases hsmall : n < 2 ^ 31
  · rw [if_pos hsmall] at hv
    have hcast : (v : ℚ) = n := by
      rw [hv]
      simp
    have hlt : |(n : ℚ)| < 2 ^ 127 := by
      rw [abs_of_nonneg (Nat.cast_nonneg n)]
      calc (n : ℚ) < 2 ^ 31 := by exact_mod_cast hsmall
        _ ≤ 2 ^ 127 := by norm_num
    rw [hcast, toRat_ofRat hlt, ← round_natCast_eq_iff]
    obtain ⟨m, hm⟩ := round_natCast n
    rw [hm]
    constructor
    · intro hall
      refine ⟨hsmall, ?_⟩
      by_cases hfit : (-1 : ℚ) < m ∧ (m : ℚ) < 2 ^ 32
      · have hback := hall 0
        unfold floatToU32 at hback
        dsimp only at hback
        rw [if_pos hfit] at hback
        have hmlt : m < 2 ^ 32 := by exact_mod_cast hfit.2
        have hmn : m = n := by
          calc m = (toU32 m).toNat := (toU32_natCast hmlt).symm
            _ = (UInt32.ofNat n).toNat := by rw [hback]
            _ = n := hofNat
        rw [hmn]
      · obtain ⟨wild, hwild⟩ := hother
        have hback := hall wild
        unfold floatToU32 at hback
        dsimp only at hback
        rw [if_neg hfit] at hback
        exact absurd hback hwild
    · rintro ⟨-, hround⟩ wild
      have hmn : m = n := by exact_mod_cast hround
      have hfit : (-1 : ℚ) < m ∧ (m : ℚ) < 2 ^ 32 := by
        have hnonneg : (0 : ℚ) ≤ m := Nat.cast_nonneg m
        refine ⟨by linarith, ?_⟩
        rw [hmn]
        exact_mod_cast hn
      unfold floatToU32
      dsimp only
      rw [if_pos hfit]
      apply UInt32.toNat_inj.mp
      rw [toU32_natCast (by omega), hmn, hofNat]
  · -- a negative value does not convert
    rw [if_neg hsmall] at hv
    simp only [hsmall, false_and, iff_false]
    intro hall
    have hpos : (1 : ℚ) ≤ ((2 ^ 32 - n : ℕ) : ℚ) := by
      have : 1 ≤ 2 ^ 32 - n := by omega
      exact_mod_cast this
    have hcast : (v : ℚ) = -((2 ^ 32 - n : ℕ) : ℚ) := by
      rw [hv]
      push_cast
      rfl
    have hlt : |(v : ℚ)| < 2 ^ 127 := by
      rw [hcast, abs_neg, abs_of_nonneg (Nat.cast_nonneg _)]
      have : 2 ^ 32 - n < 2 ^ 127 := by omega
      exact_mod_cast this
    rw [toRat_ofRat hlt, hcast, round_neg (by linarith)] at hall
    have hle := one_le_round hpos
    obtain ⟨wild, hwild⟩ := hother
    have hback := hall wild
    unfold floatToU32 at hback
    dsimp only at hback
    rw [if_neg (by intro h; linarith [h.1])] at hback
    exact hwild hback

/-! ### The create -/

section Create

variable {data data' : Daemon} {i : ℕ} {l : Lib} {t : ℕ} {p : Params} {x : Exchange} {rep : Reply}

/-- The daemon has created a task from the parameters that were sent, as one of client `i`. -/
theorem create_served (h : Served data i (createRequest l.req p) x rep data')
    (hok : rep.repType = .taskCreateOk ∨ rep.repType = .taskCreatePart) :
    ∃ ppid j w, rtfPlgTaskSchedule (data.sched.alloc p ppid).toWorld j data.sched.next = .ok w ∧
      data'.sched = { data.sched.alloc p ppid with
        toWorld := w, taskset := rtfTasksetAddTop data.sched.taskset data.sched.next } ∧
      rep.payload = .response (lastIdAsInt data'.sched) := by
  have hp := h.processed
  have hreq : (data.holding i (createRequest l.req p)).chann.lastReq i = createRequest l.req p := by
    simp [Daemon.holding]
  have hparam : (createRequest l.req p).param = p := Request.param_setParam _ p
  have hty : ReqType.ofCode (createRequest l.req p).reqType = some .taskCreate := by
    simp [createRequest, ReqType.ofCode_code]
  unfold rtfDaemonProcessReq rtfCarrierGetReq at hp
  rw [hreq, hty] at hp
  obtain ⟨res, s, hs, rfl, rfl⟩ := reqTaskCreate_ok hp
  rw [hreq, hparam] at hs
  rcases create_ok hs with ⟨rfl, -⟩ | ⟨j, w, -, hw, rfl⟩
  · simp at hok
  · refine ⟨_, j, w, hw, rfl, ?_⟩
    cases res with
    | no => simp at hok
    | part => rfl
    | ok => rfl

/-- The daemon has taken the task in, with the next id, and sends that id. -/
theorem create_processed (h : Served data i (createRequest l.req p) x rep data')
    (hok : rep.repType = .taskCreateOk ∨ rep.repType = .taskCreatePart) :
    data'.sched.taskset.root = data.sched.next :: data.sched.taskset.root ∧
      (data'.sched.heap data.sched.next).id = data.sched.nextId ∧
      rep.payload = .response (lastIdAsInt data'.sched) ∧ data'.sched.lastTaskId = data.sched.lastTaskId + 1 := by
  obtain ⟨ppid, j, w, hw, hsched, hpay⟩ := create_served h hok
  obtain ⟨c, hP⟩ := schedule_placed hw
  rw [hsched] at hpay ⊢
  refine ⟨rfl, ?_, hpay, rfl⟩
  show (w.heap data.sched.next).id = _
  rw [(hP.task_eq _).1, data.sched.alloc_self]
  rfl

/-- The library reads the id from the bytes of the reply. -/
theorem create_taskId (h : Served data i (createRequest l.req p) x rep data') (hrep : rep.repType ≠ .taskCreateErr)
    {v : ℤ} (hv : rep.payload = .response v) :
    (rtfTaskCreate l t p x).1 = .ok ∧
      ((rtfTaskCreate l t p x).2.handle t).taskId = floatToU32 (toRat (ofRat v)) x.wild := by
  obtain ⟨pad, bs, hbs, hbytes⟩ := h.received
  obtain ⟨ty, payload⟩ := rep
  dsimp only at hv hrep
  subst hv
  have hsent : x.sent ≠ -1 := by
    rw [h.sent]
    decide
  have hbuf : ∀ b : Buf REPLY_SIZE, received b bs = (Reply.mk ty (.response v)).bytes pad := by
    intro b
    apply Subtype.ext
    have hlen : bs.1.length = b.1.length := by rw [hbytes, (Reply.bytes _ pad).2, b.2]
    calc (received b bs).1 = bs.1 := store_all hlen
      _ = ((Reply.mk ty (.response v)).bytes pad).1 := hbytes
  have hcode : repTypeOf ((Reply.mk ty (.response v)).bytes pad) ≠ RepType.taskCreateErr.code := by
    rw [repType_bytes, Ne, RepType.code_inj]
    exact hrep
  unfold rtfTaskCreate asking rtfTaskCommunicate
  simp [hsent, hbs, hbuf, hcode, response_bytes]

/-- What a conversion leaves has no part in the exchange. -/
theorem Served.wild {req : Request} (h : Served data i req x rep data') (wild : UInt32) :
    Served data i req { x with wild := wild } rep data' := ⟨h.processed, h.sent, h.received⟩

/-- **The id of the handle**: a create that succeeds gives the handle the id of
the new task exactly when that id is below `2 ^ 31` and has at most 24
significant digits. -/
theorem names_iff (hserved : Served data i (createRequest l.req p) x rep data')
    (hok : rep.repType = .taskCreateOk ∨ rep.repType = .taskCreatePart) :
    (∀ wild, Names data data' t (rtfTaskCreate l t p { x with wild := wild }).1
      (rtfTaskCreate l t p { x with wild := wild }).2) ↔
        data.sched.nextId.toNat < 2 ^ 31 ∧ Binary32.Fits data.sched.nextId.toNat := by
  obtain ⟨hroot, hid, hpay, hlast⟩ := create_processed hserved hok
  have hne : rep.repType ≠ .taskCreateErr := by
    rcases hok with h | h <;> simp [h]
  have hcreate := fun wild => create_taskId (t := t) (hserved.wild wild) hne hpay
  have hnat : data.sched.nextId.toNat = (data.sched.lastTaskId + 1) % 2 ^ 32 := UInt32.toNat_ofNat'
  have hlt : data.sched.nextId.toNat < 2 ^ 32 := data.sched.nextId.toNat_lt
  have hv : lastIdAsInt data'.sched = if data.sched.nextId.toNat < 2 ^ 31 then (data.sched.nextId.toNat : ℤ)
      else -((2 ^ 32 - data.sched.nextId.toNat : ℕ) : ℤ) := by
    rw [lastIdAsInt_eq, hlast, hnat]
  have hback := response_id hlt hv
  rw [UInt32.ofNat_toNat] at hback
  rw [← hback]
  constructor
  · intro hall wild
    rw [← (hcreate wild).2, (hall wild).same, hid]
  · intro hall wild
    have hsame : ((rtfTaskCreate l t p { x with wild := wild }).2.handle t).taskId =
        (data'.sched.heap data.sched.next).id := by
      rw [(hcreate wild).2, hall wild, hid]
    refine ⟨(hcreate wild).1, hroot, hsame, ?_, ?_⟩
    · -- it is the first of the taskset
      unfold rtfTasksetSearch
      rw [CList.listSearchElem_eq, hroot, hsame]
      simp
    · intro req pid
      rw [hsame]
      simp [attachRequest, detachRequest, releaseRequest]

end Create

/-! ### The first id that does not fit -/

/-- The daemon processes a request of a client. -/
def serveStep (data : Daemon) (r : ℕ × Request) : Except Fault (Reply × Daemon) :=
  rtfDaemonProcessReq (data.holding r.1 r.2) r.1

namespace IdsExample

/-- EDF on core 0. -/
def confs : List ConfPlugin := [⟨"EDF".toUTF8.toList, [1], 0, 0, [0]⟩]

def plgs : List Plugin := (rtfPluginsInit asMaps BooksExample.load confs).getD []

theorem init_plgs : rtfPluginsInit asMaps BooksExample.load confs = some plgs := rfl

/-- A request EDF refuses: there is no period. -/
def bad : Request := createRequest (Buf.zero REQUEST_SIZE) Params.zero

/-- The scheduler after `n` creates that were refused. -/
def refused (n : ℕ) : Sched :=
  { Sched.start plgs BooksExample.kernel with
    heap := fun a => if a < n then newTask (UInt32.ofNat (a + 1)) 0 Params.zero else Task.zero
    lastTaskId := n
    next := n }

/-- The daemon then; client 4 has sent the request. -/
def after (n : ℕ) : Daemon := (Daemon.start 3 (refused n)).holding 4 bad

/-- These are refusals from the start on. -/
theorem refused_eq (n : ℕ) : refused n = (Sched.start plgs BooksExample.kernel).refusals n := by
  have hheap : (refused n).heap = refusedHeap (fun _ => Task.zero) 0 0 n := by
    refine funext fun (a : ℕ) => ?_
    simp [refused, refusedHeap]
  unfold Sched.refusals
  rw [show (Sched.start plgs BooksExample.kernel).heap = fun _ => Task.zero from rfl]
  simp [← hheap, refused, Sched.start]

theorem refused_zero : refused 0 = Sched.start plgs BooksExample.kernel := by
  rw [refused_eq, refusals_zero]

theorem refused_create (n : ℕ) : rtfSchedulerTaskCreate (refused n) Params.zero 0 = .ok (.no, refused (n + 1)) := by
  rw [refused_eq, refused_eq]
  exact refusals_create rfl rfl n

/-- A refused create of client 4 leads from one state to the next. -/
theorem serve_refused (n : ℕ) : rtfDaemonProcessReq (after n) 4 = .ok (⟨.taskCreateErr, .response (-1)⟩, after (n + 1)) := by
  have hreq : (after n).chann.lastReq 4 = bad := by simp [after, Daemon.holding]
  have hparam : bad.param = Params.zero := Request.param_setParam _ _
  have hty : ReqType.ofCode bad.reqType = some .taskCreate := by decide +kernel
  unfold rtfDaemonProcessReq rtfCarrierGetReq
  rw [hreq, hty]
  show (rtfSchedulerTaskCreate (refused n) ((after n).chann.lastReq 4).param 0 >>= _) = _
  rw [hreq, hparam, refused_create]
  rfl

/-- As many refused creates as it takes. -/
theorem reach_after (n : ℕ) :
    Reach serveStep (fun _ _ => True) (Daemon.start 3 (Sched.start plgs BooksExample.kernel)) (after (n + 1)) := by
  induction n with
  | zero =>
    have hstep : serveStep (Daemon.start 3 (Sched.start plgs BooksExample.kernel)) (4, bad) =
        .ok (⟨.taskCreateErr, .response (-1)⟩, after 1) := by
      rw [← refused_zero]
      exact serve_refused 0
    exact Reach.start.step trivial hstep
  | succ n ih =>
    have hsame : (after (n + 1)).holding 4 bad = after (n + 1) := by
      simp [after, Daemon.holding]
    have hstep : serveStep (after (n + 1)) (4, bad) = .ok (⟨.taskCreateErr, .response (-1)⟩, after (n + 2)) := by
      unfold serveStep
      rw [hsame]
      exact serve_refused (n + 1)
    exact ih.step trivial hstep

/-- A handle that has no task yet. -/
def fresh : Lib := ⟨Buf.zero REQUEST_SIZE, Buf.zero REPLY_SIZE, fun _ => ⟨0, Params.zero⟩⟩

end IdsExample

open IdsExample ChangeExample

/-- The first task of a daemon is named. -/
theorem names_first : ∃ rep data', Served (Daemon.start 3 BooksExample.start) 4
    (createRequest fresh.req (BooksExample.params 10)) (replied rep) rep data' ∧ ∀ wild,
      Names (Daemon.start 3 BooksExample.start) data' 0
        (rtfTaskCreate fresh 0 (BooksExample.params 10) { replied rep with wild := wild }).1
        (rtfTaskCreate fresh 0 (BooksExample.params 10) { replied rep with wild := wild }).2 := by
  obtain ⟨rep, data', hserved, hty⟩ := @served (Daemon.start 3 BooksExample.start) 4
    (createRequest fresh.req (BooksExample.params 10)) .taskCreateOk (by decide +kernel)
  exact ⟨rep, data', hserved, (names_iff hserved (.inl hty)).mpr (by decide +kernel)⟩

/-- After 16777216 creates that were refused the next task gets the id
16777217, and its handle 16777216. -/
theorem not_names : ¬ ∀ (load : List UInt8 → Option Image) (confs : List ConfPlugin) (plgs : List Plugin) (k : Kernel)
    (socket : ℕ) (data data' : Daemon) (i : ℕ) (l : Lib) (t : ℕ) (p : Params) (x : Exchange) (rep : Reply),
      rtfPluginsInit asMaps load confs = some plgs →
        Reach serveStep (fun _ _ => True) (Daemon.start socket (Sched.start plgs k)) data →
          Served data i (createRequest l.req p) x rep data' →
            rep.repType = .taskCreateOk ∨ rep.repType = .taskCreatePart →
              Names data data' t (rtfTaskCreate l t p x).1 (rtfTaskCreate l t p x).2 := by
  intro h
  obtain ⟨rep, data', hserved, hty⟩ := @served (after 16777216) 4
    (createRequest fresh.req (BooksExample.params 10)) .taskCreateOk (by decide +kernel)
  have hreach : Reach serveStep (fun _ _ => True)
      (Daemon.start 3 (Sched.start IdsExample.plgs BooksExample.kernel)) (after 16777216) := reach_after 16777215
  have hN := h BooksExample.load IdsExample.confs IdsExample.plgs BooksExample.kernel 3 (after 16777216) data' 4 fresh 0
    (BooksExample.params 10) (replied rep) rep init_plgs hreach hserved (.inl hty)
  obtain ⟨-, hid, hpay, hlast⟩ := create_processed hserved (.inl hty)
  have hne : rep.repType ≠ .taskCreateErr := by simp [hty]
  have htask := (create_taskId (t := 0) hserved hne hpay).2
  have hbefore : (after 16777216).sched.lastTaskId = 16777216 := rfl
  have hv : lastIdAsInt data'.sched = 16777217 := by
    rw [lastIdAsInt_eq, hlast, hbefore]
    norm_num
  have hnext : (after 16777216).sched.nextId = 16777217 := by decide +kernel
  have hback : floatToU32 (toRat (ofRat ((16777217 : ℤ) : ℚ))) 0 = 16777216 := by decide +kernel
  have hwild : (replied rep).wild = 0 := rfl
  rw [hv, hwild] at htask
  have hids : (16777216 : UInt32) = 16777217 := by
    calc (16777216 : UInt32) = floatToU32 (toRat (ofRat ((16777217 : ℤ) : ℚ))) 0 := hback.symm
      _ = ((rtfTaskCreate fresh 0 (BooksExample.params 10) (replied rep)).2.handle 0).taskId := htask.symm
      _ = (data'.sched.heap (after 16777216).sched.next).id := hN.same
      _ = (after 16777216).sched.nextId := hid
      _ = 16777217 := hnext
  exact absurd hids (by decide)

end Retif
