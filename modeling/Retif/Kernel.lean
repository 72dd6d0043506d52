/-
# The kernel's scheduling state

What the `sched_*` calls of the plugins act on: for each thread id its policy,
its priority or deadline parameters, and its affinity. Each call either fails
without effect or succeeds, as the next entry of `fate` says; `AllSucceed` is
the kernel in which every call succeeds.

The three plugins on POSIX policies attach alike (`attachPosix`), and all four
detach alike (`detachThread`): the source has one copy in each plugin.

Key definitions: `Kernel`, `attachPosix`, `attachDeadline`, `detachThread`.
Key theorems: `attachPosix_ok`, `attachDeadline_ok`, `detachThread_ok`,
`detachThread_entry_ne`.
-/
import Retif.Task
import Mathlib.Data.Finset.Range

namespace Retif

/-- `SCHED_OTHER`, `SCHED_FIFO`, `SCHED_RR`, `SCHED_DEADLINE`. -/
inductive Policy where
  | other
  | fifo
  | rr
  | deadline
  deriving DecidableEq, Repr

/-- What the kernel holds of a thread. The last three are `sched_attr`'s, in ns. -/
structure Entry where
  policy : Policy
  prio : UInt32
  affinity : Finset ℕ
  schedRuntime : UInt64
  schedDeadline : UInt64
  schedPeriod : UInt64
  deriving DecidableEq

structure Kernel where
  entry : Pid → Entry
  fate : ℕ → Bool
  nprocs : ℕ

namespace Kernel

/-- The outcome of a call that would change the entry of `tid` by `f`. -/
def call (k : Kernel) (tid : Pid) (f : Entry → Entry) : Bool × Kernel :=
  if k.fate 0 then
    (true, { k with entry := Function.update k.entry tid (f (k.entry tid)), fate := fun n => k.fate (n + 1) })
  else (false, { k with fate := fun n => k.fate (n + 1) })

def schedSetaffinity (k : Kernel) (tid : Pid) (set : Finset ℕ) : Bool × Kernel :=
  k.call tid fun e => { e with affinity := set }

def schedSetscheduler (k : Kernel) (tid : Pid) (policy : Policy) (prio : UInt32) : Bool × Kernel :=
  k.call tid fun e => { e with policy := policy, prio := prio }

/-- `sched_setattr` with the policy `SCHED_DEADLINE`. -/
def schedSetattr (k : Kernel) (tid : Pid) (runtime deadline period : UInt64) : Bool × Kernel :=
  k.call tid fun e => { e with policy := .deadline, schedRuntime := runtime, schedDeadline := deadline,
                               schedPeriod := period }

def schedGetscheduler (k : Kernel) (tid : Pid) : Policy := (k.entry tid).policy

/-- Every call succeeds. -/
def AllSucceed (k : Kernel) : Prop := ∀ n, k.fate n = true

end Kernel

/-- `MICRO_TO_NANO`, in `uint64_t`. -/
def MICRO_TO_NANO (micro : UInt64) : UInt64 := micro * 1000

/-- Two calls in a row, each answered by `RTF_ERROR` when it fails. -/
def bothCalls (first : Bool × Kernel) (second : Kernel → Bool × Kernel) : Res × Kernel :=
  if !first.1 then (.error, first.2)
  else if !(second first.2).1 then (.error, (second first.2).2) else (.ok, (second first.2).2)

/-- `rtf_plg_task_attach` of RM, RR and FP: pin the thread, then set `policy`
with the priority the record holds. -/
def attachPosix (policy : Policy) (k : Kernel) (t : Task) : Res × Kernel :=
  bothCalls (k.schedSetaffinity t.tid {t.cpu}) fun k => k.schedSetscheduler t.tid policy t.schedprio

/-- The deadline `rtf_plg_task_attach` of EDF asks for: the period if none is declared. -/
def attrDeadline (t : Task) : UInt64 :=
  if rtfTaskGetDeadline t ≠ 0 then rtfTaskGetDeadline t else rtfTaskGetPeriod t

/-- `rtf_plg_task_attach` of EDF. -/
def attachDeadline (k : Kernel) (t : Task) : Res × Kernel :=
  bothCalls (k.schedSetaffinity t.tid {t.cpu}) fun k =>
    k.schedSetattr t.tid (MICRO_TO_NANO t.acceptedt) (MICRO_TO_NANO (attrDeadline t))
      (MICRO_TO_NANO (rtfTaskGetPeriod t))

/-- `rtf_plg_task_detach` of every plugin: all cores, then `SCHED_OTHER`. -/
def detachThread (k : Kernel) (t : Task) : Res × Kernel :=
  bothCalls (k.schedSetaffinity t.tid (Finset.range k.nprocs)) fun k => k.schedSetscheduler t.tid .other 0

/-- The end of every `rtf_plg_task_release`: detach the thread if it runs under
the plugin's policy ("means no attached flow of ex." otherwise). -/
def releaseThread (policy : Policy) (k : Kernel) (t : Task) : Res × Kernel :=
  if k.schedGetscheduler t.tid ≠ policy then (.ok, k) else detachThread k t

/-! ### What the calls do -/

namespace Kernel

theorem call_entry_ne (k : Kernel) {tid tid' : Pid} (f : Entry → Entry) (h : tid' ≠ tid) :
    (k.call tid f).2.entry tid' = k.entry tid' := by
  unfold call
  split
  · exact Function.update_of_ne h _ _
  · rfl

@[simp] theorem call_nprocs (k : Kernel) (tid : Pid) (f : Entry → Entry) : (k.call tid f).2.nprocs = k.nprocs := by
  unfold call; split <;> rfl

theorem call_allSucceed {k : Kernel} (hk : k.AllSucceed) (tid : Pid) (f : Entry → Entry) :
    (k.call tid f).1 = true ∧ (k.call tid f).2.AllSucceed ∧
      (k.call tid f).2.entry = Function.update k.entry tid (f (k.entry tid)) := by
  unfold call
  rw [if_pos (hk 0)]
  exact ⟨rfl, fun n => hk (n + 1), rfl⟩

end Kernel

open Kernel

/-- Two calls on one thread that succeed change its entry twice. -/
theorem bothCalls_ok {k : Kernel} (hk : k.AllSucceed) (tid : Pid) (f g : Entry → Entry) :
    (bothCalls (k.call tid f) fun k => k.call tid g).1 = .ok ∧
      (bothCalls (k.call tid f) fun k => k.call tid g).2.AllSucceed ∧
      (bothCalls (k.call tid f) fun k => k.call tid g).2.entry =
        Function.update k.entry tid (g (f (k.entry tid))) := by
  obtain ⟨a1, a2, a3⟩ := call_allSucceed hk tid f
  obtain ⟨b1, b2, b3⟩ := call_allSucceed a2 tid g
  simp only [bothCalls, a1, b1, Bool.not_true, Bool.false_eq_true, if_false]
  refine ⟨trivial, b2, ?_⟩
  rw [b3, a3, Function.update_self, Function.update_idem]

/-- Two calls on one thread leave every other thread alone, however they end. -/
theorem bothCalls_entry_ne (k : Kernel) {tid tid' : Pid} (f g : Entry → Entry) (h : tid' ≠ tid) :
    (bothCalls (k.call tid f) fun k => k.call tid g).2.entry tid' = k.entry tid' := by
  have h1 := k.call_entry_ne f h
  have h2 := ((k.call tid f).2.call_entry_ne g h).trans h1
  unfold bothCalls
  by_cases hf : (k.call tid f).1 = true
  · by_cases hg : ((k.call tid f).2.call tid g).1 = true
    · simpa [hf, hg] using h2
    · simpa [hf, hg] using h2
  · simpa [hf] using h1

/-- The entry of a thread attached on a POSIX policy. -/
def posixEntry (policy : Policy) (t : Task) (e : Entry) : Entry :=
  { e with policy := policy, prio := t.schedprio, affinity := {t.cpu} }

/-- The entry of a thread attached to an EDF reservation. -/
def deadlineEntry (t : Task) (e : Entry) : Entry :=
  { e with policy := .deadline, affinity := {t.cpu}, schedRuntime := MICRO_TO_NANO t.acceptedt,
           schedDeadline := MICRO_TO_NANO (attrDeadline t),
           schedPeriod := MICRO_TO_NANO (rtfTaskGetPeriod t) }

theorem attachPosix_ok {k : Kernel} (hk : k.AllSucceed) (policy : Policy) (t : Task) :
    (attachPosix policy k t).1 = .ok ∧ (attachPosix policy k t).2.AllSucceed ∧
      (attachPosix policy k t).2.entry =
        Function.update k.entry t.tid (posixEntry policy t (k.entry t.tid)) :=
  bothCalls_ok hk t.tid _ _

theorem attachDeadline_ok {k : Kernel} (hk : k.AllSucceed) (t : Task) :
    (attachDeadline k t).1 = .ok ∧ (attachDeadline k t).2.AllSucceed ∧
      (attachDeadline k t).2.entry = Function.update k.entry t.tid (deadlineEntry t (k.entry t.tid)) :=
  bothCalls_ok hk t.tid _ _

theorem detachThread_ok {k : Kernel} (hk : k.AllSucceed) (t : Task) :
    (detachThread k t).1 = .ok ∧ (detachThread k t).2.AllSucceed ∧
      (detachThread k t).2.entry = Function.update k.entry t.tid
        { k.entry t.tid with policy := .other, prio := 0, affinity := Finset.range k.nprocs } :=
  bothCalls_ok hk t.tid _ _

/-- Attaching and detaching a thread leaves every other thread alone. -/
theorem attachPosix_entry_ne (policy : Policy) (k : Kernel) (t : Task) {tid : Pid} (h : tid ≠ t.tid) :
    (attachPosix policy k t).2.entry tid = k.entry tid :=
  bothCalls_entry_ne k _ _ h

theorem attachDeadline_entry_ne (k : Kernel) (t : Task) {tid : Pid} (h : tid ≠ t.tid) :
    (attachDeadline k t).2.entry tid = k.entry tid :=
  bothCalls_entry_ne k _ _ h

theorem detachThread_entry_ne (k : Kernel) (t : Task) {tid : Pid} (h : tid ≠ t.tid) :
    (detachThread k t).2.entry tid = k.entry tid :=
  bothCalls_entry_ne k _ _ h

theorem releaseThread_entry_ne (policy : Policy) (k : Kernel) (t : Task) {tid : Pid} (h : tid ≠ t.tid) :
    (releaseThread policy k t).2.entry tid = k.entry tid := by
  unfold releaseThread
  split
  · rfl
  · exact detachThread_entry_ne k t h

theorem releaseThread_allSucceed (policy : Policy) {k : Kernel} (hk : k.AllSucceed) (t : Task) :
    (releaseThread policy k t).2.AllSucceed := by
  unfold releaseThread
  split
  · exact hk
  · exact (detachThread_ok hk t).2.1

end Retif
