/-
# Attaching and detaching when a call fails

Attaching writes the thread's id into the record, pins the thread and sets its
policy; detaching lifts the pin and sets `SCHED_OTHER`. Nothing is taken back
when one of the calls fails. `k.fate 0` and `k.fate 1` are the outcomes of the
two calls an operation makes.

Key definitions: `AsBefore`, `AttachUndone`, `DetachUndone`.
Key theorems: `bothCalls_as_before_iff`, `attach_as_before_iff`,
`detach_as_before_iff`, `failed_as_before_iff`.
-/
import Retif.Placement

namespace Retif

open Kernel

/-! ### Two calls -/

/-- The kernel after the first call, if it succeeds: the thread is pinned. -/
theorem schedSetaffinity_entry {k : Kernel} (h0 : k.fate 0 = true) (tid : Pid) (set : Finset ℕ) :
    (k.schedSetaffinity tid set).2.entry =
      Function.update k.entry tid { k.entry tid with affinity := set } := by
  unfold schedSetaffinity call
  rw [if_pos h0]

/-- **Two calls of which the first pins the thread**: when one fails, all entries
are as before if it was the first, or if the thread was pinned so already. -/
theorem bothCalls_as_before_iff (k : Kernel) (tid : Pid) (set : Finset ℕ) (g : Entry → Entry) :
    ((bothCalls (k.schedSetaffinity tid set) fun k => k.call tid g).1 = .error →
        (bothCalls (k.schedSetaffinity tid set) fun k => k.call tid g).2.entry = k.entry) ↔
      k.fate 0 = false ∨ k.fate 1 = true ∨ (k.entry tid).affinity = set := by
  by_cases h0 : k.fate 0 = true
  · have hent := schedSetaffinity_entry h0 tid set
    have hfirst : (k.schedSetaffinity tid set).1 = true := by simp [schedSetaffinity, call, h0]
    have hfate : (k.schedSetaffinity tid set).2.fate 0 = k.fate 1 := by simp [schedSetaffinity, call, h0]
    by_cases h1 : k.fate 1 = true
    · have hok : (bothCalls (k.schedSetaffinity tid set) fun k => k.call tid g).1 = .ok := by
        simp [bothCalls, hfirst, call, hfate, h1]
      simp [hok, h1]
    · have hrun : bothCalls (k.schedSetaffinity tid set) (fun k => k.call tid g) =
          (.error, ((k.schedSetaffinity tid set).2.call tid g).2) := by
        simp [bothCalls, hfirst, call, hfate, h1]
      have hsame : ((k.schedSetaffinity tid set).2.call tid g).2.entry = (k.schedSetaffinity tid set).2.entry := by
        simp [call, hfate, h1]
      rw [hrun, hsame, hent, Function.update_eq_self_iff]
      simp only [true_implies, h0, h1, Bool.false_eq_true, Bool.true_eq_false, false_or]
      exact ⟨fun he => (congrArg Entry.affinity he).symm, fun he => by rw [← he]⟩
  · have hrun : (bothCalls (k.schedSetaffinity tid set) fun k => k.call tid g).2.entry = k.entry := by
      simp [bothCalls, schedSetaffinity, call, h0]
    simp [hrun, h0]

theorem bothCalls_error_iff (k : Kernel) (tid : Pid) (f g : Entry → Entry) :
    (bothCalls (k.call tid f) fun k => k.call tid g).1 = .error ↔ ¬ (k.fate 0 = true ∧ k.fate 1 = true) := by
  by_cases h0 : k.fate 0 = true
  · by_cases h1 : k.fate 1 = true
    · simp [bothCalls, call, h0, h1]
    · simp [bothCalls, call, h0, h1]
  · simp [bothCalls, call, h0]

/-! ### The four plugins -/

/-- Every plugin pins the thread first and then sets its policy. -/
theorem attach_bothCalls (this : Plugin) (k : Kernel) (t : Task) : ∃ g : Entry → Entry,
    rtfPlgTaskAttach this k t = bothCalls (k.schedSetaffinity t.tid {t.cpu}) fun k => k.call t.tid g := by
  unfold rtfPlgTaskAttach
  split
  · exact ⟨_, rfl⟩
  · exact ⟨_, rfl⟩
  · exact ⟨_, rfl⟩
  · exact ⟨_, rfl⟩

theorem detach_bothCalls (this : Plugin) (k : Kernel) (t : Task) : ∃ g : Entry → Entry,
    rtfPlgTaskDetach this k t =
      bothCalls (k.schedSetaffinity t.tid (Finset.range k.nprocs)) fun k => k.call t.tid g := by
  unfold rtfPlgTaskDetach
  split
  · exact ⟨_, rfl⟩
  · exact ⟨_, rfl⟩
  · exact ⟨_, rfl⟩
  · exact ⟨_, rfl⟩

/-! ### The operations -/

/-- The records and the entries of all threads are those of `s`. -/
def AsBefore (s s' : Sched) : Prop := s'.heap = s.heap ∧ s'.kernel.entry = s.kernel.entry

/-- Attaching `pid` to the task called `id` fails without effect, or not at all. -/
def AttachUndone (s : Sched) (id : UInt32) (pid : Pid) : Prop :=
  ∀ a ∈ rtfTasksetSearch s.heap s.taskset id,
    (s.kernel.fate 0 = true ∧ s.kernel.fate 1 = true) ∨
      (pid = (s.heap a).tid ∧ (s.kernel.fate 0 = false ∨ (s.kernel.entry pid).affinity = {(s.heap a).cpu}))

/-- Detaching the task called `id` fails without effect, or not at all. -/
def DetachUndone (s : Sched) (id : UInt32) : Prop :=
  ∀ a ∈ rtfTasksetSearch s.heap s.taskset id,
    s.kernel.fate 0 = false ∨ s.kernel.fate 1 = true ∨
      (s.kernel.entry (s.heap a).tid).affinity = Finset.range s.kernel.nprocs

section Operations

variable {s s' : Sched} {id : UInt32} {pid : Pid} {r : Res}

/-- The record is as before only if the thread was the task's already. -/
theorem update_tid_eq_iff (h : Heap) (a : Addr) (pid : Pid) :
    Function.update h a { h a with tid := pid } = h ↔ pid = (h a).tid := by
  rw [Function.update_eq_self_iff]
  exact ⟨fun he => congrArg Task.tid he, fun he => by rw [he]⟩

theorem attach_as_before_iff (h : rtfSchedulerTaskAttach s id pid = .ok (r, s')) :
    (r = .error → AsBefore s s') ↔ AttachUndone s id pid := by
  unfold AttachUndone AsBefore
  rcases attach_ok h with ⟨hnone, rfl⟩ | ⟨a, i, ha, -, -, rfl, rfl⟩
  · simp [hnone]
  · obtain ⟨g, hg⟩ := attach_bothCalls (s.plugin i) s.kernel { s.heap a with tid := pid }
    have herr := bothCalls_error_iff s.kernel pid (fun e => { e with affinity := {(s.heap a).cpu} }) g
    have hiff := bothCalls_as_before_iff s.kernel pid {(s.heap a).cpu} g
    rw [hg]
    simp only [ha, Option.mem_def, Option.some.injEq, forall_eq', update_tid_eq_iff]
    change (bothCalls (s.kernel.schedSetaffinity pid {(s.heap a).cpu}) fun k => k.call pid g).1 = .error ↔ _ at herr
    by_cases hboth : s.kernel.fate 0 = true ∧ s.kernel.fate 1 = true
    · exact iff_of_true (fun he => absurd hboth (herr.mp he)) (.inl hboth)
    · have he := herr.mpr hboth
      constructor
      · intro himp
        obtain ⟨htid, hent⟩ := himp he
        refine .inr ⟨htid, ?_⟩
        rcases hiff.mp (fun _ => hent) with h0 | h1 | haff
        · exact .inl h0
        · -- the second call would have been made, so the first one failed
          left
          simpa [h1] using hboth
        · exact .inr haff
      · rintro (hb | ⟨htid, hk⟩) _
        · exact absurd hb hboth
        · refine ⟨htid, hiff.mpr ?_ he⟩
          rcases hk with h0 | haff
          · exact .inl h0
          · exact .inr (.inr haff)

theorem detach_as_before_iff (h : rtfSchedulerTaskDetach s id = .ok (r, s')) :
    (r = .error → AsBefore s s') ↔ DetachUndone s id := by
  unfold rtfSchedulerTaskDetach at h
  unfold DetachUndone AsBefore
  cases ha : rtfTasksetSearch s.heap s.taskset id with
  | none =>
    rw [ha] at h
    cases h
    simp
  | some a =>
    rw [ha] at h
    obtain ⟨i, -, h⟩ := bind_ok.mp h
    obtain ⟨g, hg⟩ := detach_bothCalls (s.plugin i) s.kernel (s.heap a)
    simp only [Except.ok.injEq, Prod.mk.injEq] at h
    obtain ⟨rfl, rfl⟩ := h
    rw [hg]
    simp only [Option.mem_def, Option.some.injEq, forall_eq', true_and]
    exact bothCalls_as_before_iff s.kernel (s.heap a).tid (Finset.range s.kernel.nprocs) g

end Operations

/-! ### Runs -/

/-- **A failed attach or detach leaves everything as it was** exactly when the
call that fails is the first one and the record holds the thread's id already,
or the thread is pinned already as the first call would have it. -/
theorem failed_as_before_iff {alloc : ℕ → Option ℕ} {load : List UInt8 → Option Image} {confs : List ConfPlugin}
    {plgs : List Plugin} {k : Kernel} {s : Sched} (hinit : rtfPluginsInit alloc load confs = some plgs)
    (hrun : Reach step (fun _ _ => True) (Sched.start plgs k) s) (id : UInt32) (pid : Pid) :
    (∃ r s', rtfSchedulerTaskAttach s id pid = .ok (r, s') ∧ ((r = .error → AsBefore s s') ↔ AttachUndone s id pid)) ∧
    ∃ r s', rtfSchedulerTaskDetach s id = .ok (r, s') ∧ ((r = .error → AsBefore s s') ↔ DetachUndone s id) := by
  have hH : Held s := hrun.inv (held_start hinit k) fun _ _ _ _ hI _ hs => held_step hI hs
  have hattach : ∃ q, rtfSchedulerTaskAttach s id pid = .ok q := by
    unfold rtfSchedulerTaskAttach
    split
    · exact ⟨_, rfl⟩
    · rename_i a ha
      obtain ⟨i, hi, -⟩ := hH.pluginAt (rtfTasksetSearch_some ha).1
      exact ⟨_, bind_ok.mpr ⟨i, hi, rfl⟩⟩
  have hdetach : ∃ q, rtfSchedulerTaskDetach s id = .ok q := by
    unfold rtfSchedulerTaskDetach
    split
    · exact ⟨_, rfl⟩
    · rename_i a ha
      obtain ⟨i, hi, -⟩ := hH.pluginAt (rtfTasksetSearch_some ha).1
      exact ⟨_, bind_ok.mpr ⟨i, hi, rfl⟩⟩
  obtain ⟨⟨r, s'⟩, h⟩ := hattach
  obtain ⟨⟨r', s''⟩, h'⟩ := hdetach
  exact ⟨⟨r, s', h, attach_as_before_iff h⟩, ⟨r', s'', h', detach_as_before_iff h'⟩⟩

namespace HalfDoneExample

/-- A kernel with two cores, on which all calls but the `n`-th succeed. -/
def failing (n : ℕ) : Kernel := ⟨fun _ => ⟨.other, 0, {0, 1}, 0, 0, 0⟩, fun m => m ≠ n, 2⟩

end HalfDoneExample

open BooksExample HalfDoneExample

/-- EDF has the task; its first attach fails at the first call. -/
theorem failed_as_before_first : ∃ s, runGood step (fun _ _ => True) [.create (params 10) 1]
    (Sched.start plgs (failing 0)) = some s ∧
      (∃ r s', rtfSchedulerTaskAttach s 1 7 = .ok (r, s') ∧ ((r = .error → AsBefore s s') ↔ AttachUndone s 1 7)) ∧
      ∃ r s', rtfSchedulerTaskDetach s 1 = .ok (r, s') ∧ ((r = .error → AsBefore s s') ↔ DetachUndone s 1) := by
  have hsome : (runGood step (fun _ _ => True) [.create (params 10) 1]
      (Sched.start plgs (failing 0))).isSome := by decide +kernel
  obtain ⟨s, hs⟩ := Option.isSome_iff_exists.mp hsome
  exact ⟨s, hs, failed_as_before_iff init_plgs (reach_runGood hs) 1 7⟩

/-- The policy cannot be set: the thread stays pinned and the record keeps its
id. A detach that fails there leaves the thread of the task on all cores. -/
theorem not_failed_as_before :
    (¬ ∀ (alloc : ℕ → Option ℕ) (load : List UInt8 → Option Image) (confs : List ConfPlugin) (plgs : List Plugin)
      (k : Kernel) (s s' : Sched) (id : UInt32) (pid : Pid), rtfPluginsInit alloc load confs = some plgs →
        Reach step (fun _ _ => True) (Sched.start plgs k) s →
          rtfSchedulerTaskAttach s id pid = .ok (.error, s') → AsBefore s s') ∧
    ¬ ∀ (alloc : ℕ → Option ℕ) (load : List UInt8 → Option Image) (confs : List ConfPlugin) (plgs : List Plugin)
      (k : Kernel) (s s' : Sched) (id : UInt32), rtfPluginsInit alloc load confs = some plgs →
        Reach step (fun _ _ => True) (Sched.start plgs k) s →
          rtfSchedulerTaskDetach s id = .ok (.error, s') → AsBefore s s' := by
  constructor <;> intro h
  · have hend : (runGood step (fun _ _ => True) [.create (params 10) 1] (Sched.start plgs (failing 1))).any (fun s =>
        (rtfSchedulerTaskAttach s 1 7).toOption.any fun q =>
          q.1 = .error ∧ (s.heap 0).tid = 0 ∧ (q.2.heap 0).tid = 7) = true := by decide +kernel
    obtain ⟨s, hs, hv⟩ := (Option.any_eq_true _ _).mp hend
    obtain ⟨⟨r, s'⟩, hq, hr⟩ := (Option.any_eq_true _ _).mp hv
    simp only [decide_eq_true_eq] at hr
    obtain ⟨rfl, h0, h7⟩ := hr
    obtain ⟨hheap, -⟩ := h asMaps load confs plgs _ s s' 1 7 init_plgs (reach_runGood hs) (toOption_ok hq)
    rw [hheap, h0] at h7
    exact absurd h7 (by decide)
  · have hend : (runGood step (fun _ _ => True) [.create (params 10) 1, .attach 1 7]
        (Sched.start plgs (failing 3))).any (fun s => (rtfSchedulerTaskDetach s 1).toOption.any fun q =>
          q.1 = .error ∧ (s.kernel.entry 7).affinity = {0} ∧ (q.2.kernel.entry 7).affinity = {0, 1}) = true := by
      decide +kernel
    obtain ⟨s, hs, hv⟩ := (Option.any_eq_true _ _).mp hend
    obtain ⟨⟨r, s'⟩, hq, hr⟩ := (Option.any_eq_true _ _).mp hv
    simp only [decide_eq_true_eq] at hr
    obtain ⟨rfl, h0, h1⟩ := hr
    obtain ⟨-, hent⟩ := h asMaps load confs plgs _ s s' 1 init_plgs (reach_runGood hs) (toOption_ok hq)
    rw [hent, h0] at h1
    exact absurd h1 (by decide)

end Retif
