/-
# The books and the taskset

Every plugin keeps books of its own: the number of tasks of a core, for EDF
and RM what utilisation is left there, for RM and RR the list of the tasks.
`Books n w ts` says that the books of the plugins below `n` record the tasks
`ts` and nothing else, each on the plugin and the core its record names.

Placing a task adds it to the books, releasing it by the plugin that holds it
takes it off, and every operation keeps them, as long as a task that is
changed stays with its plugin (`KeepsOwner`). `test_and_modify` releases with
the plugin that accepts, and so takes a task off books it is not on.

The counts and utilisations (`Tallies`) and the lists (`Lists`) are followed
apart: the lists are searched by id, the tallies are not.

Key definitions: `placed`, `Books`, `Tallies`, `Lists`, `KeepsOwner`.
Key theorems: `Tallies.place`, `Tallies.release`, `Lists.place`,
`Lists.release`, `tallied_step`, `listed_step`, `books_run`, `not_books_run`.
-/
import Retif.Steps
import Mathlib.Algebra.BigOperators.Group.List.Basic

namespace Retif

open CList

/-- The tasks of `ts` that are on core `c` of plugin `i` by their records. -/
def placed (heap : Heap) (ts : List Addr) (i c : ℕ) : List Addr :=
  ts.filter fun a => decide ((heap a).pluginid = i ∧ (heap a).cpu = c)

/-- The utilisation granted to the tasks of a list. -/
def granted (heap : Heap) (ts : List Addr) : ℚ := (ts.map fun a => (heap a).acceptedu).sum

/-- **The books record `ts`** and nothing else. -/
structure Books (n : ℕ) (w : World) (ts : List Addr) : Prop where
  nodup : ts.Nodup
  held : ∀ a ∈ ts, ∃ i < n, (w.heap a).pluginid = i ∧ (w.heap a).cpu ∈ (w.plugin i).cpulist
  count : ∀ i < n, ∀ c, (w.plugin i).taskCountPercpu c = (placed w.heap ts i c).length
  list : ∀ i < n, (w.plugin i).kind.keepsList → ∀ c, ((w.plugin i).tasks c).root.Perm (placed w.heap ts i c)
  util : ∀ i < n, (w.plugin i).kind.keepsUtil → ∀ c,
    (w.plugin i).utilFreePercpu c = 1 - granted w.heap (placed w.heap ts i c)

/-- The part of the books that is numbers. -/
structure Tallies (n : ℕ) (w : World) (ts : List Addr) : Prop where
  nodup : ts.Nodup
  held : ∀ a ∈ ts, ∃ i < n, (w.heap a).pluginid = i ∧ (w.heap a).cpu ∈ (w.plugin i).cpulist
  count : ∀ i < n, ∀ c, (w.plugin i).taskCountPercpu c = (placed w.heap ts i c).length
  util : ∀ i < n, (w.plugin i).kind.keepsUtil → ∀ c,
    (w.plugin i).utilFreePercpu c = 1 - granted w.heap (placed w.heap ts i c)

/-- The part of the books that is lists, with what makes a task found by its id the right one. -/
structure Lists (n : ℕ) (w : World) (ts : List Addr) : Prop where
  distinct : ts.Pairwise fun a b => (w.heap a).id ≠ (w.heap b).id
  list : ∀ i < n, (w.plugin i).kind.keepsList → ∀ c, ((w.plugin i).tasks c).root.Perm (placed w.heap ts i c)

/-! ### Lists of tasks -/

theorem placed_congr {h h' : Heap} {ts : List Addr}
    (hs : ∀ b ∈ ts, (h' b).pluginid = (h b).pluginid ∧ (h' b).cpu = (h b).cpu) (i c : ℕ) :
    placed h' ts i c = placed h ts i c := by
  unfold placed
  refine List.filter_congr ?_
  intro b hb
  rw [(hs b hb).1, (hs b hb).2]

/-- A task of plugin `i` counts on its own core only. -/
theorem placed_cons {h : Heap} {a : Addr} {i : ℕ} (ha : (h a).pluginid = i) (ts : List Addr) (j d : ℕ) :
    placed h (a :: ts) j d = if j = i ∧ d = (h a).cpu then a :: placed h ts j d else placed h ts j d := by
  unfold placed
  rw [List.filter_cons, ha]
  refine if_congr ?_ rfl rfl
  rw [decide_eq_true_iff, Nat.cast_inj]
  constructor
  · rintro ⟨rfl, rfl⟩
    exact ⟨rfl, rfl⟩
  · rintro ⟨rfl, rfl⟩
    exact ⟨rfl, rfl⟩

theorem mem_placed {h : Heap} {ts : List Addr} {i c : ℕ} {a : Addr} :
    a ∈ placed h ts i c ↔ a ∈ ts ∧ (h a).pluginid = i ∧ (h a).cpu = c := by
  simp [placed]

theorem granted_congr {h h' : Heap} {ts : List Addr} (hs : ∀ b ∈ ts, (h' b).acceptedu = (h b).acceptedu) :
    granted h' ts = granted h ts := by
  unfold granted
  rw [List.map_congr_left hs]

theorem granted_cons (h : Heap) (a : Addr) (ts : List Addr) :
    granted h (a :: ts) = (h a).acceptedu + granted h ts := by
  simp [granted]

theorem granted_perm {h : Heap} {ts ts' : List Addr} (hp : ts.Perm ts') : granted h ts = granted h ts' :=
  (hp.map _).sum_eq

/-! ### The tasks of a core after the two moves -/

section Moves

variable {w w' : World} {i : ℕ} {a : Addr} {c : ℕ} {r : Res} {ts : List Addr}

/-- After scheduling `a`, the tasks of a core are the old ones, and `a` on its own. -/
theorem Placed.placed_eq (hP : Placed w i a c w') (ha : a ∉ ts) (hid : (w.plugin i).id = i) (j d : ℕ) :
    placed w'.heap (a :: ts) j d = if j = i ∧ d = c then a :: placed w.heap ts j d else placed w.heap ts j d := by
  have hpid : (w'.heap a).pluginid = i := by rw [hP.task, hid]
  have hcpu : (w'.heap a).cpu = c := by rw [hP.task]
  have hold : placed w'.heap ts j d = placed w.heap ts j d := by
    refine placed_congr ?_ j d
    intro b hb
    have hne : b ≠ a := fun hba => ha (hba ▸ hb)
    rw [hP.rest b hne]
    exact ⟨rfl, rfl⟩
  rw [placed_cons hpid, hcpu, hold]

theorem Placed.granted_eq (hP : Placed w i a c w') (ha : a ∉ ts) (j d : ℕ) :
    granted w'.heap (placed w.heap ts j d) = granted w.heap (placed w.heap ts j d) := by
  refine granted_congr ?_
  intro b hb
  have hne : b ≠ a := fun hba => ha (hba ▸ (mem_placed.mp hb).1)
  rw [hP.rest b hne]

/-- After releasing `a`, the other tasks are where they were. -/
theorem Released.placed_eq (hR : Released w i a r w') (ha : a ∉ ts) (j d : ℕ) :
    placed w'.heap ts j d = placed w.heap ts j d := by
  refine placed_congr ?_ j d
  intro b hb
  have hne : b ≠ a := fun hba => ha (hba ▸ hb)
  rw [hR.heap_ne hne]
  exact ⟨rfl, rfl⟩

theorem Released.granted_eq (hR : Released w i a r w') (ha : a ∉ ts) (j d : ℕ) :
    granted w'.heap (placed w.heap ts j d) = granted w.heap (placed w.heap ts j d) := by
  refine granted_congr ?_
  intro b hb
  have hne : b ≠ a := fun hba => ha (hba ▸ (mem_placed.mp hb).1)
  rw [hR.heap_ne hne]

end Moves

/-! ### The tallies -/

namespace Tallies

variable {n : ℕ} {w w' : World} {ts ts' : List Addr} {i : ℕ} {a : Addr} {c : ℕ} {r : Res}

/-- The books do not record an order. -/
theorem perm (hT : Tallies n w ts) (hp : ts.Perm ts') : Tallies n w ts' := by
  have hpl : ∀ i c, (placed w.heap ts i c).Perm (placed w.heap ts' i c) := fun i c => hp.filter _
  refine ⟨hp.nodup_iff.mp hT.nodup, fun a ha => hT.held a (hp.mem_iff.mpr ha), ?_, ?_⟩
  · intro i hi c
    rw [hT.count i hi c, (hpl i c).length_eq]
  · intro i hi hk c
    rw [hT.util i hi hk c, granted_perm (hpl i c)]

/-- Only what the records say of place and grant matters. -/
theorem congr (hT : Tallies n w ts) (hp : w'.plugin = w.plugin)
    (hs : ∀ b ∈ ts, (w'.heap b).pluginid = (w.heap b).pluginid ∧ (w'.heap b).cpu = (w.heap b).cpu ∧
      (w'.heap b).acceptedu = (w.heap b).acceptedu) : Tallies n w' ts := by
  have hpl : ∀ i c, placed w'.heap ts i c = placed w.heap ts i c :=
    placed_congr fun b hb => ⟨(hs b hb).1, (hs b hb).2.1⟩
  refine ⟨hT.nodup, ?_, ?_, ?_⟩
  · intro a ha
    rw [(hs a ha).1, (hs a ha).2.1, hp]
    exact hT.held a ha
  · intro i hi c
    rw [hp, hpl, hT.count i hi c]
  · intro i hi hk c
    rw [hp] at hk ⊢
    have hg : granted w'.heap (placed w.heap ts i c) = granted w.heap (placed w.heap ts i c) :=
      granted_congr fun b hb => (hs b (mem_placed.mp hb).1).2.2
    rw [hpl, hg, hT.util i hi hk c]

/-- **Placing** a task adds it to the tallies. -/
theorem place (hT : Tallies n w ts) (ha : a ∉ ts) (hi : i < n) (hid : (w.plugin i).id = i)
    (hP : Placed w i a c w') : Tallies n w' (a :: ts) := by
  refine ⟨List.nodup_cons.mpr ⟨ha, hT.nodup⟩, ?_, ?_, ?_⟩
  · intro b hb
    rcases List.mem_cons.mp hb with rfl | hb
    · refine ⟨i, hi, ?_, ?_⟩
      · rw [hP.task, hid]
      · rw [hP.task, hP.info]
        exact hP.mem
    · obtain ⟨j, hj, h1, h2⟩ := hT.held b hb
      have hne : b ≠ a := fun hba => ha (hba ▸ hb)
      refine ⟨j, hj, ?_, ?_⟩
      · rw [hP.rest b hne, h1]
      · rw [hP.rest b hne, hP.info_eq]
        exact h2
  · intro j hj d
    rw [hP.placed_eq ha hid]
    by_cases hji : j = i
    · subst hji
      rw [hP.count]
      by_cases hd : d = c
      · subst hd
        rw [Function.update_self, if_pos ⟨rfl, rfl⟩, hT.count j hj d, List.length_cons, Nat.cast_succ]
      · rw [Function.update_of_ne hd, if_neg fun h => hd h.2, hT.count j hj d]
    · rw [hP.others j hji, if_neg fun h => hji h.1, hT.count j hj d]
  · intro j hj hk d
    rw [hP.info_eq] at hk
    rw [hP.placed_eq ha hid]
    by_cases hji : j = i
    · subst hji
      rw [hP.util, if_pos hk]
      by_cases hd : d = c
      · subst hd
        rw [Function.update_self, if_pos ⟨rfl, rfl⟩, granted_cons, hP.granted_eq ha, hT.util j hj hk d]
        ring
      · rw [Function.update_of_ne hd, if_neg fun h => hd h.2, hP.granted_eq ha, hT.util j hj hk d]
    · rw [hP.others j hji, if_neg fun h => hji h.1, hP.granted_eq ha, hT.util j hj hk d]

/-- **Releasing** a task by the plugin that holds it takes it off the tallies. -/
theorem release (hT : Tallies n w (a :: ts)) (hown : (w.heap a).pluginid = i) (hR : Released w i a r w') :
    Tallies n w' ts := by
  obtain ⟨ha, hnd⟩ := List.nodup_cons.mp hT.nodup
  refine ⟨hnd, ?_, ?_, ?_⟩
  · intro b hb
    have hne : b ≠ a := fun hba => ha (hba ▸ hb)
    rw [hR.heap_ne hne]
    obtain ⟨j, hj, h1, h2⟩ := hT.held b (List.mem_cons_of_mem a hb)
    exact ⟨j, hj, h1, by rw [hR.info_eq]; exact h2⟩
  · intro j hj d
    have hc := hT.count j hj d
    rw [placed_cons hown] at hc
    rw [hR.placed_eq ha]
    by_cases hji : j = i
    · subst hji
      rw [hR.count]
      by_cases hd : d = (w.heap a).cpu
      · subst hd
        rw [if_pos ⟨rfl, rfl⟩, List.length_cons, Nat.cast_succ] at hc
        rw [Function.update_self, hc]
        ring
      · rw [if_neg fun h => hd h.2] at hc
        rw [Function.update_of_ne hd, hc]
    · rw [if_neg fun h => hji h.1] at hc
      rw [hR.others j hji, hc]
  · intro j hj hk d
    rw [hR.info_eq] at hk
    have hu := hT.util j hj hk d
    rw [placed_cons hown] at hu
    rw [hR.placed_eq ha, hR.granted_eq ha]
    by_cases hji : j = i
    · subst hji
      rw [hR.util, if_pos hk]
      by_cases hd : d = (w.heap a).cpu
      · subst hd
        rw [if_pos ⟨rfl, rfl⟩, granted_cons] at hu
        rw [Function.update_self, hu]
        ring
      · rw [if_neg fun h => hd h.2] at hu
        rw [Function.update_of_ne hd, hu]
    · rw [if_neg fun h => hji h.1] at hu
      rw [hR.others j hji, hu]

end Tallies

/-! ### The lists -/

namespace Lists

variable {n : ℕ} {w w' : World} {ts ts' : List Addr} {i : ℕ} {a : Addr} {c : ℕ} {r : Res}

theorem perm (hL : Lists n w ts) (hp : ts.Perm ts') : Lists n w ts' :=
  ⟨(hp.pairwise_iff fun h => h.symm).mp hL.distinct, fun i hi hk c => (hL.list i hi hk c).trans (hp.filter _)⟩

theorem congr (hL : Lists n w ts) (hp : w'.plugin = w.plugin)
    (hs : ∀ b ∈ ts, (w'.heap b).pluginid = (w.heap b).pluginid ∧ (w'.heap b).cpu = (w.heap b).cpu ∧
      (w'.heap b).id = (w.heap b).id) : Lists n w' ts := by
  refine ⟨?_, ?_⟩
  · refine hL.distinct.imp_of_mem ?_
    intro b d hb hd hne
    rwa [(hs b hb).2.2, (hs d hd).2.2]
  · intro i hi hk c
    rw [hp] at hk ⊢
    rw [placed_congr fun b hb => ⟨(hs b hb).1, (hs b hb).2.1⟩]
    exact hL.list i hi hk c

/-- **Placing** a task puts it on the list of its core. -/
theorem place (hL : Lists n w ts) (ha : a ∉ ts) (hnew : ∀ b ∈ ts, (w.heap b).id ≠ (w.heap a).id)
    (hid : (w.plugin i).id = i) (hP : Placed w i a c w') : Lists n w' (a :: ts) := by
  refine ⟨List.pairwise_cons.mpr ⟨?_, ?_⟩, ?_⟩
  · intro b hb
    rw [(hP.task_eq a).1, (hP.task_eq b).1]
    exact (hnew b hb).symm
  · refine hL.distinct.imp ?_
    intro b d hne
    rwa [(hP.task_eq b).1, (hP.task_eq d).1]
  · intro j hj hk d
    rw [hP.info_eq] at hk
    rw [hP.placed_eq ha hid]
    by_cases hji : j = i
    · subst hji
      refine (hP.list d).trans ?_
      by_cases hd : d = c
      · rw [if_pos ⟨hk, hd⟩, if_pos ⟨rfl, hd⟩]
        exact (hL.list j hj hk d).cons a
      · rw [if_neg fun h => hd h.2, if_neg fun h => hd h.2]
        exact hL.list j hj hk d
    · rw [hP.others j hji, if_neg fun h => hji h.1]
      exact hL.list j hj hk d

/-- **Releasing** a task by the plugin that holds it takes it off the list. -/
theorem release (hL : Lists n w (a :: ts)) (ha : a ∉ ts) (hown : (w.heap a).pluginid = i)
    (hR : Released w i a r w') : Lists n w' ts := by
  obtain ⟨hids, hdis⟩ := List.pairwise_cons.mp hL.distinct
  refine ⟨?_, ?_⟩
  · refine hdis.imp ?_
    intro b d hne
    rwa [hR.task_eq b, hR.task_eq d]
  · intro j hj hk d
    rw [hR.info_eq] at hk
    have hl := hL.list j hj hk d
    rw [placed_cons hown] at hl
    rw [hR.placed_eq ha]
    by_cases hji : j = i
    · subst hji
      rw [hR.list]
      by_cases hd : d = (w.heap a).cpu
      · rw [if_pos ⟨rfl, hd⟩] at hl
        rw [if_pos ⟨hk, hd⟩]
        -- the task found by its id is `a`: no other task of the list has that id
        rcases listRemove_cases ((w.plugin j).tasks d) fun b => (w.heap b).id == (w.heap a).id with
          ⟨-, hn⟩ | ⟨b, l, hb, hm, hkey, -, hp⟩
        · have := hn a (hl.mem_iff.mpr (List.mem_cons_self ..))
          simp at this
        · have hba : b = a := by
            by_contra hne
            rcases List.mem_cons.mp (hl.mem_iff.mp hm) with rfl | hm
            · exact hne rfl
            · exact hids b (mem_placed.mp hm).1 (by simpa using (beq_iff_eq.mp hkey).symm)
          subst hba
          rw [rtfTasksetRemoveByRsvid, hb]
          exact (hp.symm.trans hl).cons_inv
      · rw [if_neg fun h => hd h.2] at hl ⊢
        exact hl
    · rw [if_neg fun h => hji h.1] at hl
      rw [hR.others j hji]
      exact hl

end Lists

/-! ### Runs -/

/-- The tallies of the taskset. -/
structure Tallied (s : Sched) : Prop where
  sane : Sane s
  tallies : Tallies s.numOfPlugins s.toWorld s.taskset.root

/-- The lists of the taskset. -/
def Listed (s : Sched) : Prop := Lists s.numOfPlugins s.toWorld s.taskset.root

/-- A task that is changed stays with its plugin. -/
def KeepsPlugin (s : Sched) : Op → Prop
  | .change _ id => ∀ a ∈ rtfTasksetSearch s.heap s.taskset id, ∀ c ∈ taker s a, (s.heap a).pluginid = c.1
  | _ => True

/-- An id that is given out is not in use. -/
def FreshId (s : Sched) : Op → Prop
  | .create _ _ => ∀ a ∈ s.taskset.root, (s.heap a).id ≠ s.nextId
  | _ => True

def KeepsOwner (s : Sched) (o : Op) : Prop := KeepsPlugin s o ∧ FreshId s o

instance (s : Sched) (o : Op) : Decidable (KeepsPlugin s o) :=
  match o with
  | .change _ id =>
    inferInstanceAs (Decidable (∀ a ∈ rtfTasksetSearch s.heap s.taskset id, ∀ c ∈ taker s a,
      (s.heap a).pluginid = c.1))
  | .create _ _ | .attach _ _ | .detach _ | .destroy _ | .delete _ => inferInstanceAs (Decidable True)

instance (s : Sched) (o : Op) : Decidable (FreshId s o) :=
  match o with
  | .create _ _ => inferInstanceAs (Decidable (∀ a ∈ s.taskset.root, (s.heap a).id ≠ s.nextId))
  | .change _ _ | .attach _ _ | .detach _ | .destroy _ | .delete _ => inferInstanceAs (Decidable True)

instance (s : Sched) (o : Op) : Decidable (KeepsOwner s o) := inferInstanceAs (Decidable (_ ∧ _))

theorem tallied_alloc {s : Sched} (hT : Tallied s) (tp : Params) (ppid : Pid) :
    Tallies s.numOfPlugins (s.alloc tp ppid).toWorld s.taskset.root := by
  refine hT.tallies.congr rfl ?_
  intro b hb
  rw [hT.sane.alloc_heap tp ppid hb]
  exact ⟨rfl, rfl, rfl⟩

theorem tallied_create {s s' : Sched} {tp : Params} {ppid : Pid} {r : Res} (hT : Tallied s)
    (h : rtfSchedulerTaskCreate s tp ppid = .ok (r, s')) : Tallied s' := by
  refine ⟨sane_create hT.sane h, ?_⟩
  have hA := tallied_alloc hT tp ppid
  rcases create_ok h with ⟨-, rfl⟩ | ⟨i, w, hch, hs, rfl⟩
  · exact hA
  · have hi := (assignee_some hch).1
    obtain ⟨c, hP⟩ := schedule_placed hs
    exact hA.place hT.sane.next_not_mem hi (hT.sane.ids i hi) hP

theorem tallied_change {s s' : Sched} {tp : Params} {id : UInt32} {r : Res} (hT : Tallied s)
    (hg : KeepsPlugin s (.change tp id)) (h : rtfSchedulerTaskChange s tp id = .ok (r, s')) : Tallied s' := by
  refine ⟨sane_change hT.sane h, ?_⟩
  rcases change_ok h with rfl | ⟨a, i, r', w, w', ha, hc, hr, hs, rfl⟩
  · exact hT.tallies
  · obtain ⟨hi, -, -⟩ := taker_some hc
    have hown := hg a ha _ hc
    obtain ⟨ts, hp, hat⟩ := hT.sane.split (rtfTasksetSearch_some ha).1
    have hR := release_released hr
    obtain ⟨c, hP⟩ := schedule_placed hs
    have hid : (w.plugin i).id = i := by
      rw [hR.info_eq]
      exact hT.sane.ids i hi
    have hrel : Tallies s.numOfPlugins w ts := (hT.tallies.perm hp).release hown hR
    exact (hrel.place hat hi hid hP).perm hp.symm

theorem tallied_removes {s s' : Sched} {key : Addr → Bool} {a : Addr} (hT : Tallied s)
    (h : Removes key s a s') : Tallied s' := by
  refine ⟨sane_removes hT.sane h, ?_⟩
  obtain ⟨-, hp, -⟩ := h.root
  obtain ⟨ts, i, r, w, -, hown, hi, hr, rfl⟩ := h
  exact (hT.tallies.perm hp).release hown (release_released hr)

/-- Thread ids and the kernel are not tallied. -/
theorem tallied_thread {s : Sched} (hT : Tallied s) {heap : Heap} {k : Kernel}
    (hheap : ∀ b, heap b = { s.heap b with tid := (heap b).tid }) : Tallied { s with heap := heap, kernel := k } := by
  refine ⟨⟨hT.sane.nodup, hT.sane.fresh, hT.sane.ids⟩, hT.tallies.congr rfl ?_⟩
  intro b _
  show (heap b).pluginid = _ ∧ (heap b).cpu = _ ∧ (heap b).acceptedu = _
  rw [hheap b]
  exact ⟨rfl, rfl, rfl⟩

/-- **One operation keeps the tallies.** -/
theorem tallied_step {s s' : Sched} {o : Op} {r : Res} (hT : Tallied s) (hg : KeepsPlugin s o)
    (h : step s o = .ok (r, s')) : Tallied s' := by
  refine step_inv ?_ ?_ ?_ ?_ hT h
  · intro tp ppid _ hcreate
    exact tallied_create hT hcreate
  · rintro tp id rfl hchange
    exact tallied_change hT hg hchange
  · intro heap k hheap
    exact tallied_thread hT hheap
  · intro key s a s' hI hrm
    exact tallied_removes hI hrm

theorem listed_create {s s' : Sched} {tp : Params} {ppid : Pid} {r : Res} (hT : Tallied s) (hL : Listed s)
    (hg : FreshId s (.create tp ppid)) (h : rtfSchedulerTaskCreate s tp ppid = .ok (r, s')) : Listed s' := by
  have hA : Listed (s.alloc tp ppid) := by
    refine Lists.congr hL rfl ?_
    intro b hb
    rw [hT.sane.alloc_heap tp ppid hb]
    exact ⟨rfl, rfl, rfl⟩
  rcases create_ok h with ⟨-, rfl⟩ | ⟨i, w, hch, hs, rfl⟩
  · exact hA
  · have hi := (assignee_some hch).1
    obtain ⟨c, hP⟩ := schedule_placed hs
    refine Lists.place hA hT.sane.next_not_mem ?_ (hT.sane.ids i hi) hP
    intro b hb
    have hb' : ((s.alloc tp ppid).heap b).id = (s.heap b).id := by rw [hT.sane.alloc_heap tp ppid hb]
    have hn : ((s.alloc tp ppid).heap s.next).id = s.nextId := by rw [s.alloc_self]; rfl
    show ((s.alloc tp ppid).heap b).id ≠ ((s.alloc tp ppid).heap s.next).id
    rw [hb', hn]
    exact hg b hb

theorem listed_change {s s' : Sched} {tp : Params} {id : UInt32} {r : Res} (hT : Tallied s) (hL : Listed s)
    (hg : KeepsPlugin s (.change tp id)) (h : rtfSchedulerTaskChange s tp id = .ok (r, s')) : Listed s' := by
  rcases change_ok h with rfl | ⟨a, i, r', w, w', ha, hc, hr, hs, rfl⟩
  · exact hL
  · obtain ⟨hi, -, -⟩ := taker_some hc
    have hown := hg a ha _ hc
    obtain ⟨ts, hp, hat⟩ := hT.sane.split (rtfTasksetSearch_some ha).1
    have hR := release_released hr
    obtain ⟨c, hP⟩ := schedule_placed hs
    have hall : Lists s.numOfPlugins s.toWorld (a :: ts) := hL.perm hp
    have hids := (List.pairwise_cons.mp hall.distinct).1
    have hid : (w.plugin i).id = i := by
      rw [hR.info_eq]
      exact hT.sane.ids i hi
    have hrel : Lists s.numOfPlugins w ts := hall.release hat hown hR
    refine (hrel.place hat ?_ hid hP).perm hp.symm
    intro b hb
    rw [hR.task_eq b, hR.task_eq a]
    exact (hids b hb).symm

theorem listed_removes {s s' : Sched} {key : Addr → Bool} {a : Addr} (hT : Tallied s) (hL : Listed s)
    (h : Removes key s a s') : Listed s' := by
  obtain ⟨-, hp, -⟩ := h.root
  obtain ⟨ts, i, r, w, -, hown, hi, hr, rfl⟩ := h
  have hat := (List.nodup_cons.mp (hp.nodup_iff.mp hT.tallies.nodup)).1
  exact (Lists.perm hL hp).release hat hown (release_released hr)

theorem listed_thread {s : Sched} (hL : Listed s) {heap : Heap} {k : Kernel}
    (hheap : ∀ b, heap b = { s.heap b with tid := (heap b).tid }) : Listed { s with heap := heap, kernel := k } := by
  refine Lists.congr hL rfl ?_
  intro b _
  show (heap b).pluginid = _ ∧ (heap b).cpu = _ ∧ (heap b).id = _
  rw [hheap b]
  exact ⟨rfl, rfl, rfl⟩

/-- **One operation keeps the lists.** -/
theorem listed_step {s s' : Sched} {o : Op} {r : Res} (hT : Tallied s) (hL : Listed s) (hg : KeepsOwner s o)
    (h : step s o = .ok (r, s')) : Listed s' := by
  suffices hboth : Tallied s' ∧ Listed s' from hboth.2
  refine step_inv (I := fun s => Tallied s ∧ Listed s) ?_ ?_ ?_ ?_ ⟨hT, hL⟩ h
  · rintro tp ppid rfl hcreate
    exact ⟨tallied_create hT hcreate, listed_create hT hL hg.2 hcreate⟩
  · rintro tp id rfl hchange
    exact ⟨tallied_change hT hg.1 hchange, listed_change hT hL hg.1 hchange⟩
  · intro heap k hheap
    exact ⟨tallied_thread hT hheap, listed_thread hL hheap⟩
  · intro key s a s' hI hrm
    exact ⟨tallied_removes hI.1 hrm, listed_removes hI.1 hI.2 hrm⟩

theorem tallied_start {alloc : ℕ → Option ℕ} {load : List UInt8 → Option Image} {confs : List ConfPlugin}
    {plgs : List Plugin} (h : rtfPluginsInit alloc load confs = some plgs) (k : Kernel) :
    Tallied (Sched.start plgs k) := by
  refine ⟨sane_start h k, List.nodup_nil, by simp [Sched.start], ?_, ?_⟩
  · intro i hi c
    obtain ⟨_, _, -, -, hp⟩ := start_plugin h k hi
    rw [hp]
    rfl
  · intro i hi _ c
    obtain ⟨_, _, -, -, hp⟩ := start_plugin h k hi
    rw [hp]
    simp [initPlugin, Sched.start, placed, granted]

theorem listed_start {alloc : ℕ → Option ℕ} {load : List UInt8 → Option Image} {confs : List ConfPlugin}
    {plgs : List Plugin} (h : rtfPluginsInit alloc load confs = some plgs) (k : Kernel) :
    Listed (Sched.start plgs k) := by
  refine ⟨List.Pairwise.nil, ?_⟩
  intro i hi _ c
  obtain ⟨_, _, -, -, hp⟩ := start_plugin h k hi
  rw [hp]
  exact .refl _

/-- Both halves, along a run. -/
theorem ledger_run {alloc : ℕ → Option ℕ} {load : List UInt8 → Option Image} {confs : List ConfPlugin}
    {plgs : List Plugin} {k : Kernel} {s : Sched} (hinit : rtfPluginsInit alloc load confs = some plgs)
    (hrun : Reach step KeepsOwner (Sched.start plgs k) s) : Tallied s ∧ Listed s := by
  refine hrun.inv (I := fun s => Tallied s ∧ Listed s) ⟨tallied_start hinit k, listed_start hinit k⟩ ?_
  intro s o r s' hI hg hs
  exact ⟨tallied_step hI.1 hg.1 hs, listed_step hI.1 hI.2 hg hs⟩

/-- **Books and taskset agree** in every run in which a task that is changed
stays with its plugin and no id is given out twice. -/
theorem books_run {load : List UInt8 → Option Image} {confs : List ConfPlugin} {plgs : List Plugin} {k : Kernel}
    {s : Sched} (hinit : rtfPluginsInit asMaps load confs = some plgs)
    (hrun : Reach step KeepsOwner (Sched.start plgs k) s) :
    Books s.numOfPlugins s.toWorld s.taskset.root := by
  obtain ⟨⟨-, hT⟩, hL⟩ := ledger_run hinit hrun
  exact ⟨hT.nodup, hT.held, hT.count, hL.list, hT.util⟩

/-! ### A task that leaves its plugin -/

namespace BooksExample

/-- EDF and RM on core 0. -/
def confs : List ConfPlugin :=
  [⟨"EDF".toUTF8.toList, [1], 0, 0, [0]⟩, ⟨"RM".toUTF8.toList, [2], 10, 20, [0]⟩]

/-- A file for each of the four plugins. -/
def load : List UInt8 → Option Image
  | [1] => some ⟨.edf, 1⟩
  | [2] => some ⟨.rm, 2⟩
  | [3] => some ⟨.rr, 3⟩
  | [4] => some ⟨.fp, 4⟩
  | _ => none

/-- A kernel with one core, in which every call succeeds. -/
def kernel : Kernel := ⟨fun _ => ⟨.other, 0, {0}, 0, 0, 0⟩, fun _ => true, 1⟩

def plgs : List Plugin := (rtfPluginsInit asMaps load confs).getD []

theorem init_plgs : rtfPluginsInit asMaps load confs = some plgs := rfl

def start : Sched := Sched.start plgs kernel

/-- A budget of `runtime` every 100. -/
def params (runtime : UInt64) : Params := { Params.zero with runtime := runtime, period := 100 }

/-- EDF is full when the second task arrives. -/
def twoCreates : List Op := [.create (params 100) 1, .create (params 50) 2]

end BooksExample

open BooksExample

/-- A run that creates, attaches, changes and destroys. -/
theorem books_twoCreates : ∃ s, runGood step KeepsOwner
    (twoCreates ++ [.attach 2 7, .change (params 50) 1, .destroy 1]) start = some s ∧
      Books s.numOfPlugins s.toWorld s.taskset.root := by
  have hsome : (runGood step KeepsOwner
      (twoCreates ++ [.attach 2 7, .change (params 50) 1, .destroy 1]) start).isSome := by decide +kernel
  obtain ⟨s, hs⟩ := Option.isSome_iff_exists.mp hsome
  exact ⟨s, hs, books_run init_plgs (reach_runGood hs)⟩

/-- The second task is on RM when EDF has room again. Changing it makes EDF
release a task it does not hold: it stays on the books of RM. -/
theorem not_books_run : ¬ ∀ (load : List UInt8 → Option Image) (confs : List ConfPlugin) (plgs : List Plugin)
    (k : Kernel) (s : Sched), OwnFiles load confs → rtfPluginsInit asMaps load confs = some plgs →
      Reach step (fun _ _ => True) (Sched.start plgs k) s → Books s.numOfPlugins s.toWorld s.taskset.root := by
  intro h
  have hend : (runGood step (fun _ _ => True) (twoCreates ++ [.destroy 1, .change (params 50) 2]) start).map
      (fun s => ((s.plugin 1).taskCountPercpu 0, (placed s.heap s.taskset.root 1 0).length, s.numOfPlugins)) =
        some (1, 0, 2) := by decide +kernel
  obtain ⟨s, hs, hv⟩ := Option.map_eq_some_iff.mp hend
  simp only [Prod.mk.injEq] at hv
  have hB := h load confs plgs kernel s (by decide +kernel) init_plgs (reach_runGood hs)
  have hc := hB.count 1 (by omega) 0
  omega

end Retif
