/-
# What the operations of an entry look at

`rtf_plg_task_schedule` and `rtf_plg_task_release` of an entry look at the
entry's own books, at the task and those on the entry's lists and, of the
statics of the file, at the cores of the entry. So two worlds that differ in the
books of one entry, in the tasks of that entry and in statics at cores no other
entry of the file has are one world to all other entries (`SameBut`): they go
the same way there (`schedule_lockstep`, `release_lockstep`). What an operation
changes of the statics is at the core the task is put on, or is on.

Key definitions: `UsedBeside`, `SameBut`, `Apart`, `chosenCpu`, `Touches`.
Key theorems: `schedule_lockstep`, `release_lockstep`, `schedule_touches`,
`release_touches`.
-/
import Retif.Effects
import Mathlib.Data.List.Find
import Retif.Lib.Unwinding

namespace Retif

open CList

/-! ### Records -/

section Heaps

variable {S : Addr → Prop} {h h' : Heap}

/-- The two memories hold the same records at the addresses in `S`. -/
def AgreeOn (S : Addr → Prop) (h h' : Heap) : Prop := ∀ b, S b → h b = h' b

theorem AgreeOn.update (hS : AgreeOn S h h') (a : Addr) (t : Task) :
    AgreeOn S (Function.update h a t) (Function.update h' a t) := by
  intro b hb
  by_cases hba : b = a
  · simp [hba]
  · simp [hba, hS b hb]

theorem rankLoop_agree (key : Task → ℕ) (next : UInt32 → UInt32 → UInt32) {as : List Addr} {curr prec idx : UInt32}
    (has : ∀ b ∈ as, S b) (hS : AgreeOn S h h') :
    AgreeOn S (rankLoop key next as h curr prec idx) (rankLoop key next as h' curr prec idx) := by
  induction as generalizing h h' curr prec idx with
  | nil => exact hS
  | cons a as ih =>
    have ha := hS a (has a (List.mem_cons_self ..))
    have has' := fun b hb => has b (List.mem_cons_of_mem a hb)
    unfold rankLoop
    rw [← ha]
    split
    · exact ih has' (hS.update a _)
    · exact ih has' (hS.update a _)

theorem mapLoop_agree (prio : Task → UInt32) {as : List Addr} (has : ∀ b ∈ as, S b) (hS : AgreeOn S h h') :
    AgreeOn S (mapLoop prio as h) (mapLoop prio as h') := by
  induction as generalizing h h' with
  | nil => exact hS
  | cons a as ih =>
    unfold mapLoop
    rw [← hS a (has a (List.mem_cons_self ..))]
    exact ih (fun b hb => has b (List.mem_cons_of_mem a hb)) (hS.update a _)

/-- The place of an element depends on its comparison with the elements there. -/
theorem addSeek_congr {a : Addr} {f g : Addr → Addr → ℤ} {xs : List Addr} (hfg : ∀ x ∈ xs, f a x = g a x) :
    addSeek a f xs = addSeek a g xs := by
  induction xs with
  | nil => rfl
  | cons x xs ih =>
    unfold addSeek
    rw [hfg x (List.mem_cons_self ..), ih fun y hy => hfg y (List.mem_cons_of_mem x hy)]

theorem listAddSorted_congr {ts : Taskset} {a : Addr} {f g : Addr → Addr → ℤ} (hfg : ∀ x ∈ ts.root, f a x = g a x) :
    listAddSorted ts a f = listAddSorted ts a g := by
  obtain ⟨f1, f2⟩ := listAddSorted_eq ts a f
  obtain ⟨g1, g2⟩ := listAddSorted_eq ts a g
  have hseek := addSeek_congr hfg
  apply Prod.ext
  · apply CList.ext
    calc (listAddSorted ts a f).1.root = (addSeek a f ts.root).1 := f1
      _ = (addSeek a g ts.root).1 := by rw [hseek]
      _ = (listAddSorted ts a g).1.root := g1.symm
  · calc (listAddSorted ts a f).2 = (addSeek a f ts.root).2 := f2
      _ = (addSeek a g ts.root).2 := by rw [hseek]
      _ = (listAddSorted ts a g).2 := g2.symm

theorem eraseP_congr {f g : Addr → Bool} {xs : List Addr} (hfg : ∀ x ∈ xs, f x = g x) : xs.eraseP f = xs.eraseP g := by
  induction xs with
  | nil => rfl
  | cons x xs ih =>
    rw [List.eraseP_cons, List.eraseP_cons, hfg x (List.mem_cons_self ..),
      ih fun y hy => hfg y (List.mem_cons_of_mem x hy)]

/-- Which element leaves depends on the keys of the elements there. -/
theorem listRemove_congr {ts : Taskset} {f g : Addr → Bool} (hfg : ∀ x ∈ ts.root, f x = g x) :
    listRemove ts f = listRemove ts g := by
  obtain ⟨f1, f2⟩ := listRemove_eq ts f
  obtain ⟨g1, g2⟩ := listRemove_eq ts g
  apply Prod.ext
  · calc (listRemove ts f).1 = ts.root.find? f := f1
      _ = ts.root.find? g := List.find?_congr hfg
      _ = (listRemove ts g).1 := g1.symm
  · apply CList.ext
    calc (listRemove ts f).2.root = ts.root.eraseP f := f2
      _ = ts.root.eraseP g := eraseP_congr hfg
      _ = (listRemove ts g).2.root := g2.symm

theorem addSortedPr_agree {ts : Taskset} {a : Addr} (ha : S a) (hts : ∀ b ∈ ts.root, S b) (hS : AgreeOn S h h') :
    rtfTasksetAddSortedPr h ts a = rtfTasksetAddSortedPr h' ts a := by
  apply listAddSorted_congr
  intro x hx
  rw [hS a ha, hS x (hts x hx)]

theorem addSortedPrio_agree {ts : Taskset} {a : Addr} (ha : S a) (hts : ∀ b ∈ ts.root, S b) (hS : AgreeOn S h h') :
    rtfTasksetAddSortedPrio h ts a = rtfTasksetAddSortedPrio h' ts a := by
  apply listAddSorted_congr
  intro x hx
  rw [hS a ha, hS x (hts x hx)]

theorem removeByRsvid_agree {ts : Taskset} (hts : ∀ b ∈ ts.root, S b) (hS : AgreeOn S h h') (id : UInt32) :
    rtfTasksetRemoveByRsvid h ts id = rtfTasksetRemoveByRsvid h' ts id := by
  apply listRemove_congr
  intro x hx
  rw [hS x (hts x hx)]

theorem hasTwin_agree {root : List Addr} (hroot : ∀ b ∈ root, S b) (hS : AgreeOn S h h') (t : Task) :
    RM.hasTwin h t root = RM.hasTwin h' t root := by
  unfold RM.hasTwin
  induction root with
  | nil => rfl
  | cons b root ih =>
    rw [List.any_cons, List.any_cons, hS b (hroot b (List.mem_cons_self ..)),
      ih fun x hx => hroot x (List.mem_cons_of_mem b hx)]

end Heaps

/-! ### Statics -/

/-- The statics are the same at core `k`. -/
def StaticsKept (k : ℕ) (st st' : Statics) : Prop := st'.distPrio k = st.distPrio k ∧ st'.nPerPrio k = st.nPerPrio k

theorem StaticsKept.refl (k : ℕ) (st : Statics) : StaticsKept k st st := ⟨rfl, rfl⟩

theorem StaticsKept.symm {k : ℕ} {st st' : Statics} (h : StaticsKept k st st') : StaticsKept k st' st :=
  ⟨h.1.symm, h.2.symm⟩

theorem StaticsKept.trans {k : ℕ} {st st' st'' : Statics} (h : StaticsKept k st st') (h' : StaticsKept k st' st'') :
    StaticsKept k st st'' := ⟨h'.1.trans h.1, h'.2.trans h.2⟩

theorem addDist_kept (st : Statics) {c k : ℕ} (hk : k ≠ c) (n : UInt32) : StaticsKept k st (st.addDist c n) :=
  ⟨Function.update_of_ne hk _ _, rfl⟩

theorem addPerPrio_kept (st : Statics) {c k : ℕ} (hk : k ≠ c) (p : UInt32) (n : ℤ) :
    StaticsKept k st (st.addPerPrio c p n) :=
  ⟨rfl, Function.update_of_ne hk _ _⟩

theorem RR.uncount_kept (st : Statics) {c k : ℕ} (hk : k ≠ c) (p : UInt32) : StaticsKept k st (RR.uncount st c p) := by
  have h := addPerPrio_kept st hk p (-1)
  unfold RR.uncount
  dsimp only
  split
  · exact h.trans (addDist_kept _ hk (-1))
  · exact h

section Counters

variable {C : ℕ → Prop} {st st' : Statics}

/-- The two copies of the statics hold the same at the cores in `C`. -/
def SameAt (C : ℕ → Prop) (st st' : Statics) : Prop := ∀ c, C c → StaticsKept c st st'

theorem SameAt.addDist (hst : SameAt C st st') (c : ℕ) (n : UInt32) : SameAt C (st.addDist c n) (st'.addDist c n) := by
  intro d hd
  refine ⟨?_, (hst d hd).2⟩
  simp only [Statics.addDist, Function.update_apply]
  split
  · rename_i hdc
    rw [← hdc, (hst d hd).1]
  · exact (hst d hd).1

theorem SameAt.addPerPrio (hst : SameAt C st st') (c : ℕ) (p : UInt32) (n : ℤ) :
    SameAt C (st.addPerPrio c p n) (st'.addPerPrio c p n) := by
  intro d hd
  refine ⟨(hst d hd).1, ?_⟩
  simp only [Statics.addPerPrio, Function.update_apply]
  split
  · rename_i hdc
    rw [← hdc, (hst d hd).2]
  · exact (hst d hd).2

/-- What is counted off at a core decides about that core only. -/
theorem SameAt.uncount (hst : SameAt C st st') (c : ℕ) (p : UInt32) :
    SameAt C (RR.uncount st c p) (RR.uncount st' c p) := by
  by_cases hc : C c
  · have h := hst.addPerPrio c p (-1)
    unfold RR.uncount
    dsimp only
    rw [(h c hc).2]
    split
    · exact h.addDist c (-1)
    · exact h
  · intro d hd
    have hdc : d ≠ c := by
      rintro rfl
      exact hc hd
    have hw := RR.uncount_kept st hdc p
    have hv := RR.uncount_kept st' hdc p
    exact hw.symm.trans ((hst d hd).trans hv)

end Counters

/-! ### The rank of a new task -/

section Ranks

variable {S : Addr → Prop} {h h' : Heap} {C : ℕ → Prop} {st st' : Statics} {this : Plugin} {a : Addr} {c : ℕ}
  {behind : List Addr}

/-- The memories agree on `S`, the statics at `C`. -/
def Together (S : Addr → Prop) (C : ℕ → Prop) (x y : Statics × Heap) : Prop := SameAt C x.1 y.1 ∧ AgreeOn S x.2 y.2

theorem RM.rank_lockstep (hc : C c) (ha : S a) (hbehind : ∀ b ∈ behind, S b) (hlist : ∀ b ∈ (this.tasks c).root, S b)
    (hst : SameAt C st st') (hS : AgreeOn S h h') :
    Lockstep (Together S C) (RM.rank this st h a c behind) (RM.rank this st' h' a c behind) := by
  have hsame : RM.sameAsNext h (h a) behind = RM.sameAsNext h' (h' a) behind := by
    unfold RM.sameAsNext
    rcases behind with _ | ⟨next, rest⟩
    · rfl
    · dsimp only
      rw [hS next (hbehind next (List.mem_cons_self ..)), hS a ha]
  unfold RM.rank
  rw [← hsame]
  rcases hnext : RM.sameAsNext h (h a) behind with _ | next
  · apply Lockstep.bind_same
    intro _ _
    have hd := hst.addDist c 1
    refine .ok ⟨hd, ?_⟩
    unfold RM.assignPriorities
    dsimp only
    rw [(hd c hc).1]
    split
    · exact rankLoop_agree _ _ hlist hS
    · exact rankLoop_agree _ _ hlist hS
  · have hmem : next ∈ behind := by
      unfold RM.sameAsNext at hnext
      rcases behind with _ | ⟨b, rest⟩
      · cases hnext
      · dsimp only at hnext
        split at hnext
        · obtain rfl := Option.some.inj hnext
          exact List.mem_cons_self ..
        · cases hnext
    refine .ok ⟨hst, ?_⟩
    rw [hS a ha, hS next (hbehind next hmem)]
    exact hS.update a _

theorem RR.rank_lockstep (hc : C c) (ha : S a) (hbehind : ∀ b ∈ behind, S b) (hlist : ∀ b ∈ (this.tasks c).root, S b)
    (hst : SameAt C st st') (hS : AgreeOn S h h') :
    Lockstep (Together S C) (RR.rank this st h a c behind) (RR.rank this st' h' a c behind) := by
  unfold RR.rank
  rw [(hst c hc).2, ← hS a ha]
  split
  · have hd := hst.addDist c 1
    refine .ok ⟨hd, ?_⟩
    unfold RR.assignPriorities
    dsimp only
    rw [(hd c hc).1]
    split
    · exact mapLoop_agree _ hlist hS
    · exact rankLoop_agree _ _ hlist hS
  · rcases behind with _ | ⟨next, rest⟩
    · exact .error _
    · refine .ok ⟨hst, ?_⟩
      dsimp only
      rw [hS next (hbehind next (List.mem_cons_self ..))]
      exact hS.update a _

end Ranks

/-! ### The statics an operation changes -/

/-- The core `rtf_plg_task_schedule` puts the next task on. -/
def chosenCpu (this : Plugin) : Except Fault ℕ :=
  match this.kind with
  | .edf | .rm => mostFree this
  | .rr | .fp => fewestTasks this

section Counted

variable {w w' : World} {i : ℕ} {a : Addr} {r : Res} {this : Plugin} {st st' : Statics} {heap heap' : Heap} {c k : ℕ}
  {behind : List Addr}

theorem RM.rank_kept (h : RM.rank this st heap a c behind = .ok (st', heap')) (hk : k ≠ c) : StaticsKept k st st' := by
  unfold RM.rank at h
  split at h
  · simp only [Except.ok.injEq, Prod.mk.injEq] at h
    rw [← h.1]
    exact StaticsKept.refl k st
  · obtain ⟨_, -, h⟩ := bind_ok.mp h
    simp only [Except.ok.injEq, Prod.mk.injEq] at h
    rw [← h.1]
    exact addDist_kept st hk 1

theorem RR.rank_kept (h : RR.rank this st heap a c behind = .ok (st', heap')) (hk : k ≠ c) : StaticsKept k st st' := by
  unfold RR.rank at h
  split at h
  · simp only [Except.ok.injEq, Prod.mk.injEq] at h
    rw [← h.1]
    exact addDist_kept st hk 1
  · split at h
    · cases h
    · simp only [Except.ok.injEq, Prod.mk.injEq] at h
      rw [← h.1]
      exact StaticsKept.refl k st

/-- A new task is counted at the core it is put on. -/
theorem schedule_counts (h : rtfPlgTaskSchedule w i a = .ok w') :
    chosenCpu (w.plugin i) = .ok (w'.heap a).cpu ∧
      ∀ k, k ≠ (w'.heap a).cpu → StaticsKept k (w.statics (w.plugin i).dl) (w'.statics (w.plugin i).dl) := by
  unfold chosenCpu
  unfold rtfPlgTaskSchedule at h
  rcases hk : (w.plugin i).kind <;> rw [hk] at h <;> dsimp only at h ⊢
  case edf =>
    obtain ⟨c, t, hc, -, hcpu, -, rfl⟩ := EDF.schedule_ok h
    refine ⟨?_, fun k _ => StaticsKept.refl k _⟩
    simp only [World.setPlugin, World.setTask, Function.update_self, hcpu]
    exact hc
  case rm =>
    obtain ⟨c, st, heap, u, hc, hrank, hcpu, -, rfl⟩ := RM.schedule_ok h
    simp only [World.setPlugin, World.setTask, World.setStatics, Function.update_self, hcpu, Plugin.setTasks]
    exact ⟨hc, fun k hk => RM.rank_kept hrank hk⟩
  case rr =>
    obtain ⟨c, st, heap, hc, -, hrank, hcpu, rfl⟩ := RR.schedule_ok h
    simp only [World.setPlugin, World.setStatics, Function.update_self, hcpu, Plugin.setTasks]
    exact ⟨hc, fun k hk => (addPerPrio_kept _ hk _ 1).trans (RR.rank_kept hrank hk)⟩
  case fp =>
    obtain ⟨c, hc, -, rfl⟩ := FP.schedule_ok h
    refine ⟨?_, fun k _ => StaticsKept.refl k _⟩
    simp only [World.setPlugin, World.setTask, Function.update_self]
    exact hc

/-- A task that leaves is counted off at its core. -/
theorem release_counts (h : rtfPlgTaskRelease w i a = .ok (r, w')) {k : ℕ} (hk : k ≠ (w.heap a).cpu) :
    StaticsKept k (w.statics (w.plugin i).dl) (w'.statics (w.plugin i).dl) := by
  unfold rtfPlgTaskRelease at h
  split at h
  · obtain ⟨p, -, h⟩ := bind_ok.mp h
    obtain ⟨p', -, h⟩ := bind_ok.mp h
    simp only [Except.ok.injEq, Prod.mk.injEq] at h
    rw [← h.2]
    exact StaticsKept.refl k _
  · rw [RM.release_statics h]
    split
    · exact addDist_kept _ hk (-1)
    · exact StaticsKept.refl k _
  · rw [RR.release_statics h]
    exact RR.uncount_kept _ hk _
  · obtain ⟨p, -, h⟩ := bind_ok.mp h
    simp only [Except.ok.injEq, Prod.mk.injEq] at h
    rw [← h.2]
    exact StaticsKept.refl k _

end Counted

/-! ### The world without an entry -/

/-- Core `c` is one of another entry than `B` with statics `d`. -/
def UsedBeside (n B : ℕ) (w : World) (d c : ℕ) : Prop := ∃ j < n, j ≠ B ∧ (w.plugin j).dl = d ∧ c ∈ (w.plugin j).cpulist

instance (n B : ℕ) (w : World) (d c : ℕ) : Decidable (UsedBeside n B w d c) := by unfold UsedBeside; infer_instance

/-- Entry `B` has the tasks `bs` on its lists, the others have none of them. -/
def Apart (B : ℕ) (bs : Addr → Prop) (w : World) : Prop := ∀ j c, ∀ b ∈ ((w.plugin j).tasks c).root, (j = B ↔ bs b)

/-- The two worlds are the same but for entry `B`: the books of the others, the
tasks other than `bs`, and the statics at the cores of the others. -/
structure SameBut (n B : ℕ) (bs : Addr → Prop) (w v : World) : Prop where
  plugin : ∀ j, j ≠ B → w.plugin j = v.plugin j
  heap : AgreeOn (fun a => ¬ bs a) w.heap v.heap
  statics : ∀ d, SameAt (UsedBeside n B w d) (w.statics d) (v.statics d)

theorem usedBeside_congr {n B : ℕ} {w w' : World} (h : ∀ j, (w'.plugin j).toPluginInfo = (w.plugin j).toPluginInfo)
    (d c : ℕ) : UsedBeside n B w' d c ↔ UsedBeside n B w d c := by
  unfold UsedBeside
  simp only [h]

section Operations

variable {n B : ℕ} {bs : Addr → Prop} {w w' v : World} {i : ℕ} {a : Addr}

theorem SameBut.refl (n B : ℕ) (bs : Addr → Prop) (w : World) : SameBut n B bs w w :=
  ⟨fun _ _ => rfl, fun _ _ => rfl, fun _ _ _ => StaticsKept.refl _ _⟩

theorem info_update {p : Plugin} (hp : p.toPluginInfo = (w.plugin i).toPluginInfo) (j : ℕ) :
    (Function.update w.plugin i p j).toPluginInfo = (w.plugin j).toPluginInfo := by
  by_cases hj : j = i
  · rw [hj, Function.update_self, hp]
  · rw [Function.update_of_ne hj]

theorem plugin_update (h : SameBut n B bs w v) (p : Plugin) (j : ℕ) (hj : j ≠ B) :
    Function.update w.plugin i p j = Function.update v.plugin i p j := by
  simp only [Function.update_apply]
  split
  · rfl
  · exact h.plugin j hj

/-- New books and new records. -/
theorem SameBut.setBooks (h : SameBut n B bs w v) {p : Plugin} (hp : p.toPluginInfo = (w.plugin i).toPluginInfo)
    {heap heap' : Heap} {k k' : Kernel} (hheap : AgreeOn (fun a => ¬ bs a) heap heap') :
    SameBut n B bs ⟨Function.update w.plugin i p, w.statics, heap, k⟩
      ⟨Function.update v.plugin i p, v.statics, heap', k'⟩ := by
  refine ⟨plugin_update h p, hheap, ?_⟩
  intro d c hc
  exact h.statics d c ((usedBeside_congr (info_update hp) d c).mp hc)

/-- New books, new records and new statics. -/
theorem SameBut.setAll (h : SameBut n B bs w v) {p : Plugin} (hp : p.toPluginInfo = (w.plugin i).toPluginInfo)
    {heap heap' : Heap} {st st' : Statics} {k k' : Kernel} (hheap : AgreeOn (fun a => ¬ bs a) heap heap')
    (hst : SameAt (UsedBeside n B w p.dl) st st') :
    SameBut n B bs ⟨Function.update w.plugin i p, Function.update w.statics p.dl st, heap, k⟩
      ⟨Function.update v.plugin i p, Function.update v.statics p.dl st', heap', k'⟩ := by
  refine ⟨plugin_update h p, hheap, ?_⟩
  intro d c hc
  have hc := (usedBeside_congr (info_update hp) d c).mp hc
  by_cases hd : d = p.dl
  · simp only [hd, Function.update_self]
    exact hst c (hd ▸ hc)
  · simp only [Function.update_of_ne hd]
    exact h.statics d c hc

theorem Apart.others (h : Apart B bs w) (hi : i ≠ B) (c : ℕ) : ∀ b ∈ ((w.plugin i).tasks c).root, ¬ bs b := by
  intro b hb hbs
  exact hi ((h i c b hb).mpr hbs)

/-- A task that is not one of `bs` may come on the list. -/
theorem Apart.inserted (h : Apart B bs w) (hi : i ≠ B) (ha : ¬ bs a) {c : ℕ} {ts : Taskset}
    (hperm : ts.root.Perm (a :: ((w.plugin i).tasks c).root)) : ∀ b ∈ ts.root, ¬ bs b := by
  intro b hb
  rcases List.mem_cons.mp (hperm.mem_iff.mp hb) with rfl | hb
  · exact ha
  · exact h.others hi c b hb

/-! ### Scheduling -/

theorem EDF.schedule_lockstep (hi : i ≠ B) (ha : ¬ bs a) (h : SameBut n B bs w v) :
    Lockstep (SameBut n B bs) (EDF.rtfPlgTaskSchedule w i a) (EDF.rtfPlgTaskSchedule v i a) := by
  unfold EDF.rtfPlgTaskSchedule
  dsimp only
  rw [← h.plugin i hi, ← h.heap a ha]
  apply Lockstep.bind_same
  intro c _
  apply Lockstep.bind_same
  intro t _
  apply Lockstep.bind_same
  intro p hp
  apply Lockstep.bind_same
  intro p' hp'
  obtain ⟨-, rfl⟩ := addUtil_ok hp
  obtain ⟨-, rfl⟩ := addCount_ok hp'
  exact .ok (h.setBooks (by rfl) (h.heap.update a t))

theorem FP.schedule_lockstep (hi : i ≠ B) (ha : ¬ bs a) (h : SameBut n B bs w v) :
    Lockstep (SameBut n B bs) (FP.rtfPlgTaskSchedule w i a) (FP.rtfPlgTaskSchedule v i a) := by
  unfold FP.rtfPlgTaskSchedule
  dsimp only
  rw [← h.plugin i hi, ← h.heap a ha]
  apply Lockstep.bind_same
  intro c _
  apply Lockstep.bind_same
  intro p hp
  obtain ⟨-, rfl⟩ := addCount_ok hp
  exact .ok (h.setBooks (by rfl) (h.heap.update a _))

/-- What is behind the inserted task was on the list. -/
theorem mem_of_behind {ts : Taskset} {f : Addr → Addr → ℤ} {b : Addr} (hb : b ∈ (listAddSorted ts a f).2) :
    b ∈ ts.root := by
  obtain ⟨pre, hpre, -⟩ := addSeek_spec a f ts.root
  rw [(listAddSorted_eq ts a f).2] at hb
  rw [hpre]
  exact List.mem_append_right _ hb

theorem RM.schedule_lockstep (hi : i ≠ B) (hin : i < n) (ha : ¬ bs a) (hap : Apart B bs w) (h : SameBut n B bs w v) :
    Lockstep (SameBut n B bs) (RM.rtfPlgTaskSchedule w i a) (RM.rtfPlgTaskSchedule v i a) := by
  unfold RM.rtfPlgTaskSchedule
  dsimp only
  rw [← h.plugin i hi, ← h.heap a ha]
  apply Lockstep.bind_same
  intro c hc
  apply Lockstep.bind_same
  intro ts hts
  obtain ⟨-, rfl⟩ := read_ok.mp hts
  have hown := hap.others hi c
  have hS := h.heap.update a { w.heap a with cpu := c, pluginid := (w.plugin i).id }
  have hcw : UsedBeside n B w (w.plugin i).dl c := ⟨i, hin, hi, rfl, (leastLoaded_mem hc).1⟩
  rw [← addSortedPr_agree (S := fun b => ¬ bs b) ha hown hS]
  refine Lockstep.bind
    (RM.rank_lockstep (S := fun b => ¬ bs b) hcw ha (fun b hb => hown b (mem_of_behind hb)) ?_ (h.statics _) hS) ?_
  · intro b hb
    simp only [Plugin.setTasks, Function.update_self] at hb
    exact hap.inserted hi ha (rtfTasksetAddSortedPr_perm _ _ a) b hb
  · rintro ⟨st, heap⟩ ⟨st', heap'⟩ ⟨hst, hheap⟩
    dsimp only at hst hheap ⊢
    rw [← hheap a ha]
    apply Lockstep.bind_same
    intro p hp
    apply Lockstep.bind_same
    intro p' hp'
    obtain ⟨-, rfl⟩ := addUtil_ok hp
    obtain ⟨-, rfl⟩ := addCount_ok hp'
    exact .ok (h.setAll (by rfl) (hheap.update a _) hst)

theorem RR.schedule_lockstep (hi : i ≠ B) (hin : i < n) (ha : ¬ bs a) (hap : Apart B bs w) (h : SameBut n B bs w v) :
    Lockstep (SameBut n B bs) (RR.rtfPlgTaskSchedule w i a) (RR.rtfPlgTaskSchedule v i a) := by
  unfold RR.rtfPlgTaskSchedule
  dsimp only
  rw [← h.plugin i hi, ← h.heap a ha]
  apply Lockstep.bind_same
  intro c hc
  have hown := hap.others hi c
  have hS := h.heap.update a { w.heap a with cpu := c, pluginid := (w.plugin i).id }
  have hcw : UsedBeside n B w (w.plugin i).dl c := ⟨i, hin, hi, rfl, (leastLoaded_mem hc).1⟩
  rw [← hS a ha]
  apply Lockstep.bind_same
  intro _ _
  apply Lockstep.bind_same
  intro ts hts
  obtain ⟨-, rfl⟩ := read_ok.mp hts
  rw [← addSortedPrio_agree (S := fun b => ¬ bs b) ha hown hS]
  refine Lockstep.bind
    (RR.rank_lockstep (S := fun b => ¬ bs b) hcw ha (fun b hb => hown b (mem_of_behind hb)) ?_
      ((h.statics _).addPerPrio c _ 1) hS) ?_
  · intro b hb
    simp only [Plugin.setTasks, Function.update_self] at hb
    exact hap.inserted hi ha (rtfTasksetAddSortedPrio_perm _ _ a) b hb
  · rintro ⟨st, heap⟩ ⟨st', heap'⟩ ⟨hst, hheap⟩
    dsimp only at hst hheap ⊢
    rw [← hheap a ha]
    apply Lockstep.bind_same
    intro p hp
    obtain ⟨-, rfl⟩ := addCount_ok hp
    exact .ok (h.setAll (by rfl) hheap hst)

/-- **Scheduling is local** to the entry. -/
theorem schedule_lockstep (hi : i ≠ B) (hin : i < n) (ha : ¬ bs a) (hap : Apart B bs w) (h : SameBut n B bs w v) :
    Lockstep (SameBut n B bs) (rtfPlgTaskSchedule w i a) (rtfPlgTaskSchedule v i a) := by
  unfold rtfPlgTaskSchedule
  rw [← h.plugin i hi]
  split
  · exact EDF.schedule_lockstep hi ha h
  · exact RM.schedule_lockstep hi hin ha hap h
  · exact RR.schedule_lockstep hi hin ha hap h
  · exact FP.schedule_lockstep hi ha h

/-! ### Releasing -/

/-- The worlds two releases leave. -/
def SameAfter (n B : ℕ) (bs : Addr → Prop) (x y : Res × World) : Prop := SameBut n B bs x.2 y.2

theorem EDF.release_lockstep (hi : i ≠ B) (ha : ¬ bs a) (h : SameBut n B bs w v) :
    Lockstep (SameAfter n B bs) (EDF.rtfPlgTaskRelease w i a) (EDF.rtfPlgTaskRelease v i a) := by
  unfold EDF.rtfPlgTaskRelease
  dsimp only
  rw [← h.plugin i hi, ← h.heap a ha]
  apply Lockstep.bind_same
  intro p hp
  apply Lockstep.bind_same
  intro p' hp'
  obtain ⟨-, rfl⟩ := addUtil_ok hp
  obtain ⟨-, rfl⟩ := addCount_ok hp'
  exact .ok (h.setBooks (by rfl) (h.heap.update a _))

theorem FP.release_lockstep (hi : i ≠ B) (ha : ¬ bs a) (h : SameBut n B bs w v) :
    Lockstep (SameAfter n B bs) (FP.rtfPlgTaskRelease w i a) (FP.rtfPlgTaskRelease v i a) := by
  unfold FP.rtfPlgTaskRelease
  dsimp only
  rw [← h.plugin i hi, ← h.heap a ha]
  apply Lockstep.bind_same
  intro p hp
  obtain ⟨-, rfl⟩ := addCount_ok hp
  exact .ok (h.setBooks (by rfl) (h.heap.update a _))

theorem RM.uncount_lockstep {C : ℕ → Prop} {st st' : Statics} (hst : SameAt C st st') (c : ℕ) (twin : Bool) :
    Lockstep (SameAt C) (RM.uncount st c twin) (RM.uncount st' c twin) := by
  unfold RM.uncount
  split
  · apply Lockstep.bind_same
    intro _ _
    exact .ok (hst.addDist c (-1))
  · exact .ok hst

theorem RM.release_lockstep (hi : i ≠ B) (ha : ¬ bs a) (hap : Apart B bs w) (h : SameBut n B bs w v) :
    Lockstep (SameAfter n B bs) (RM.rtfPlgTaskRelease w i a) (RM.rtfPlgTaskRelease v i a) := by
  unfold RM.rtfPlgTaskRelease
  dsimp only
  rw [← h.plugin i hi, ← h.heap a ha]
  apply Lockstep.bind_same
  intro ts hts
  obtain ⟨-, rfl⟩ := read_ok.mp hts
  rw [← hasTwin_agree (hap.others hi _) h.heap, ← removeByRsvid_agree (hap.others hi _) h.heap]
  refine Lockstep.bind (RM.uncount_lockstep (h.statics _) _ _) ?_
  intro st st' hst
  apply Lockstep.bind_same
  intro p hp
  apply Lockstep.bind_same
  intro p' hp'
  obtain rfl := RM.giveBack_ok hp
  obtain ⟨-, rfl⟩ := addCount_ok hp'
  exact .ok (h.setAll (by rfl) (h.heap.update a _) hst)

theorem RR.release_lockstep (hi : i ≠ B) (ha : ¬ bs a) (hap : Apart B bs w) (h : SameBut n B bs w v) :
    Lockstep (SameAfter n B bs) (RR.rtfPlgTaskRelease w i a) (RR.rtfPlgTaskRelease v i a) := by
  unfold RR.rtfPlgTaskRelease
  dsimp only
  rw [← h.plugin i hi, ← h.heap a ha]
  apply Lockstep.bind_same
  intro p hp
  obtain ⟨-, rfl⟩ := addCount_ok hp
  apply Lockstep.bind_same
  intro _ _
  apply Lockstep.bind_same
  intro ts hts
  obtain ⟨-, rfl⟩ := read_ok.mp hts
  rw [← removeByRsvid_agree (hap.others hi _) h.heap]
  exact .ok (h.setAll (by rfl) (h.heap.update a _) ((h.statics _).uncount _ _))

/-- **Releasing is local** to the entry. -/
theorem release_lockstep (hi : i ≠ B) (ha : ¬ bs a) (hap : Apart B bs w) (h : SameBut n B bs w v) :
    Lockstep (SameAfter n B bs) (rtfPlgTaskRelease w i a) (rtfPlgTaskRelease v i a) := by
  unfold rtfPlgTaskRelease
  rw [← h.plugin i hi]
  split
  · exact EDF.release_lockstep hi ha h
  · exact RM.release_lockstep hi ha hap h
  · exact RR.release_lockstep hi ha hap h
  · exact FP.release_lockstep hi ha h

/-! ### The operations of the entry itself -/

/-- Entry `B` did something to its own books and its own tasks, and of the
statics of its file at most to those at core `c`. -/
structure Touches (B c : ℕ) (bs : Addr → Prop) (w w' : World) : Prop where
  others : ∀ j, j ≠ B → w'.plugin j = w.plugin j
  info : (w'.plugin B).toPluginInfo = (w.plugin B).toPluginInfo
  heap : ∀ b, ¬ bs b → w'.heap b = w.heap b
  statics : ∀ d k, d ≠ (w.plugin B).dl ∨ k ≠ c → StaticsKept k (w.statics d) (w'.statics d)

theorem schedule_touches (hap : Apart B bs w) (ha : bs a) (h : rtfPlgTaskSchedule w B a = .ok w') :
    Touches B (w'.heap a).cpu bs w w' := by
  obtain ⟨c, hP⟩ := schedule_placed h
  refine ⟨hP.others, hP.info, ?_, ?_⟩
  · intro b hb
    apply hP.away b
    · rintro rfl
      exact hb ha
    · intro hm
      exact hb ((hap B c b hm).mp rfl)
  · intro d k hdk
    by_cases hd : d = (w.plugin B).dl
    · rw [hd]
      exact (schedule_counts h).2 k (hdk.resolve_left (not_not.mpr hd))
    · rw [hP.statics d hd]
      exact StaticsKept.refl k _

theorem release_touches {r : Res} (ha : bs a) (h : rtfPlgTaskRelease w B a = .ok (r, w')) :
    Touches B (w.heap a).cpu bs w w' := by
  have hR := release_released h
  refine ⟨hR.others, hR.info, ?_, ?_⟩
  · intro b hb
    apply hR.heap_ne
    rintro rfl
    exact hb ha
  · intro d k hdk
    by_cases hd : d = (w.plugin B).dl
    · rw [hd]
      exact release_counts h (hdk.resolve_left (not_not.mpr hd))
    · rw [hR.statics d hd]
      exact StaticsKept.refl k _

/-- What entry `B` does at a core of its own keeps the others' world. -/
theorem SameBut.touch {c : ℕ} (h : SameBut n B bs w v) (hT : Touches B c bs w w')
    (hc : ¬ UsedBeside n B w (w.plugin B).dl c) : SameBut n B bs w' v := by
  have hinfo : ∀ j, (w'.plugin j).toPluginInfo = (w.plugin j).toPluginInfo := by
    intro j
    by_cases hj : j = B
    · rw [hj, hT.info]
    · rw [hT.others j hj]
  refine ⟨?_, ?_, ?_⟩
  · intro j hj
    rw [hT.others j hj, h.plugin j hj]
  · intro b hb
    rw [hT.heap b hb, h.heap b hb]
  · intro d k hk
    have hk := (usedBeside_congr hinfo d k).mp hk
    have hne : d ≠ (w.plugin B).dl ∨ k ≠ c := by
      by_cases hd : d = (w.plugin B).dl
      · right
        rintro rfl
        exact hc (hd ▸ hk)
      · exact .inl hd
    have hkept := hT.statics d k hne
    exact hkept.symm.trans (h.statics d k hk)

/-! ### The lists -/

theorem schedule_apart (hap : Apart B bs w) (ha : i = B ↔ bs a) (h : rtfPlgTaskSchedule w i a = .ok w') :
    Apart B bs w' := by
  obtain ⟨c, hP⟩ := schedule_placed h
  intro j d b hb
  by_cases hj : j = i
  · rw [hj] at hb ⊢
    have hmem := (hP.list d).mem_iff.mp hb
    split at hmem
    · rcases List.mem_cons.mp hmem with rfl | hmem
      · exact ha
      · exact hap i d b hmem
    · exact hap i d b hmem
  · rw [hP.others j hj] at hb
    exact hap j d b hb

theorem release_apart {r : Res} (hap : Apart B bs w) (h : rtfPlgTaskRelease w i a = .ok (r, w')) : Apart B bs w' := by
  have hR := release_released h
  intro j d b hb
  by_cases hj : j = i
  · rw [hj] at hb ⊢
    apply hap i d b
    rw [hR.list d] at hb
    split at hb
    · rw [rtfTasksetRemoveByRsvid, (listRemove_eq _ _).2] at hb
      exact List.mem_of_mem_eraseP hb
    · exact hb
  · rw [hR.others j hj] at hb
    exact hap j d b hb

end Operations

end Retif
