/-
# The addresses of the records

The plugins and the scheduler never compare addresses, and look at the records
of their tasks only. So a world whose records are elsewhere in memory (`Copied`)
goes the same way: it answers the same, and what it leaves is the same world,
elsewhere (`schedule_copied`, `release_copied`, `select_copied`). What the memory
holds beside those records has no part in it.

Key definitions: `CList.map`, `Plugin.rename`, `Copied`.
Key theorems: `schedule_copied`, `release_copied`, `select_copied`.
-/
import Retif.Locality
import Retif.Lib.Renaming

namespace Retif

open CList Renaming

/-! ### Lists of addresses -/

/-- The list with each element replaced. -/
def CList.map {α β : Type} (f : α → β) (l : CList α) : CList β := ⟨l.n, l.root.map f, by simp [l.n_eq]⟩

@[simp] theorem CList.map_root {α β : Type} (f : α → β) (l : CList α) : (l.map f).root = l.root.map f := rfl

section Lists

variable {π : Addr → Addr} {S : Addr → Prop} {h h' : Heap} {ts : Taskset} {a : Addr}

theorem addTop_map : rtfTasksetAddTop (ts.map π) (π a) = (rtfTasksetAddTop ts a).map π := CList.ext rfl

theorem addSeek_map {cmp cmp' : Addr → Addr → ℤ} {xs : List Addr} (hc : ∀ x ∈ xs, cmp' (π a) (π x) = cmp a x) :
    addSeek (π a) cmp' (xs.map π) = ((addSeek a cmp xs).1.map π, (addSeek a cmp xs).2.map π) := by
  induction xs with
  | nil => rfl
  | cons x xs ih =>
    have hx := hc x (List.mem_cons_self ..)
    simp only [List.map_cons, addSeek, hx, ih fun y hy => hc y (List.mem_cons_of_mem x hy)]
    split
    · rfl
    · rfl

theorem listAddSorted_map {cmp cmp' : Addr → Addr → ℤ} (hc : ∀ x ∈ ts.root, cmp' (π a) (π x) = cmp a x) :
    listAddSorted (ts.map π) (π a) cmp' = ((listAddSorted ts a cmp).1.map π, (listAddSorted ts a cmp).2.map π) := by
  obtain ⟨h1, h2⟩ := listAddSorted_eq ts a cmp
  obtain ⟨h1', h2'⟩ := listAddSorted_eq (ts.map π) (π a) cmp'
  rw [map_root, addSeek_map hc] at h1' h2'
  apply Prod.ext
  · apply CList.ext
    rw [h1', map_root, h1]
  · rw [h2', h2]

theorem listRemove_map {key key' : Addr → Bool} (hk : ∀ x ∈ ts.root, key' (π x) = key x) :
    listRemove (ts.map π) key' = ((listRemove ts key).1.map π, (listRemove ts key).2.map π) := by
  obtain ⟨h1, h2⟩ := listRemove_eq ts key
  obtain ⟨h1', h2'⟩ := listRemove_eq (ts.map π) key'
  apply Prod.ext
  · rw [h1', map_root, List.find?_map, h1]
    exact congrArg _ (List.find?_congr hk)
  · apply CList.ext
    rw [h2', map_root, List.eraseP_map, map_root, h2]
    exact congrArg _ (eraseP_congr hk)

variable (hc : Copies π S h h') (hts : ∀ b ∈ ts.root, S b)

include hc hts

theorem search_map (id : UInt32) : rtfTasksetSearch h' (ts.map π) id = (rtfTasksetSearch h ts id).map π := by
  unfold rtfTasksetSearch
  rw [listSearchElem_eq, listSearchElem_eq, map_root, List.find?_map]
  refine congrArg _ (List.find?_congr ?_)
  intro x hx
  simp only [Function.comp_apply, hc x (hts x hx)]

theorem removeByRsvid_map (id : UInt32) : rtfTasksetRemoveByRsvid h' (ts.map π) id =
    ((rtfTasksetRemoveByRsvid h ts id).1.map π, (rtfTasksetRemoveByRsvid h ts id).2.map π) := by
  apply listRemove_map
  intro x hx
  rw [hc x (hts x hx)]

theorem removeByPpid_map (ppid : Pid) : rtfTasksetRemoveByPpid h' (ts.map π) ppid =
    ((rtfTasksetRemoveByPpid h ts ppid).1.map π, (rtfTasksetRemoveByPpid h ts ppid).2.map π) := by
  apply listRemove_map
  intro x hx
  rw [hc x (hts x hx)]

theorem addSortedPr_map (ha : S a) : rtfTasksetAddSortedPr h' (ts.map π) (π a) =
    ((rtfTasksetAddSortedPr h ts a).1.map π, (rtfTasksetAddSortedPr h ts a).2.map π) := by
  apply listAddSorted_map
  intro x hx
  rw [hc a ha, hc x (hts x hx)]

theorem addSortedPrio_map (ha : S a) : rtfTasksetAddSortedPrio h' (ts.map π) (π a) =
    ((rtfTasksetAddSortedPrio h ts a).1.map π, (rtfTasksetAddSortedPrio h ts a).2.map π) := by
  apply listAddSorted_map
  intro x hx
  rw [hc a ha, hc x (hts x hx)]

theorem hasTwin_map (t : Task) : RM.hasTwin h' t (ts.map π).root = RM.hasTwin h t ts.root := by
  have htwin : RM.hasTwin h' t (ts.map π).root = RM.hasTwin (fun b => h' (π b)) t ts.root := List.any_map
  rw [htwin]
  exact hasTwin_agree hts hc t

end Lists

/-! ### Handing out priorities -/

section Walks

variable {π : Addr → Addr} {S : Addr → Prop} {h h' : Heap} {as : List Addr}

theorem rankLoop_copies (hπ : Function.Injective π) (key : Task → ℕ) (next : UInt32 → UInt32 → UInt32)
    (has : ∀ b ∈ as, S b) (hc : Copies π S h h') {curr prec idx : UInt32} :
    Copies π S (rankLoop key next as h curr prec idx) (rankLoop key next (as.map π) h' curr prec idx) := by
  induction as generalizing h h' curr prec idx with
  | nil => exact hc
  | cons a as ih =>
    have ha := hc a (has a (List.mem_cons_self ..))
    have has' := fun b hb => has b (List.mem_cons_of_mem a hb)
    simp only [List.map_cons, rankLoop, ha]
    split
    · exact ih has' (hc.update hπ a _)
    · exact ih has' (hc.update hπ a _)

theorem mapLoop_copies (hπ : Function.Injective π) (prio : Task → UInt32) (has : ∀ b ∈ as, S b) (hc : Copies π S h h') :
    Copies π S (mapLoop prio as h) (mapLoop prio (as.map π) h') := by
  induction as generalizing h h' with
  | nil => exact hc
  | cons a as ih =>
    simp only [List.map_cons, mapLoop, hc a (has a (List.mem_cons_self ..))]
    exact ih (fun b hb => has b (List.mem_cons_of_mem a hb)) (hc.update hπ a _)

end Walks

/-! ### The books -/

/-- The plugin with the tasks of its lists elsewhere. -/
def Plugin.rename (π : Addr → Addr) (p : Plugin) : Plugin := { p with tasks := fun c => (p.tasks c).map π }

@[simp] theorem Plugin.rename_info (π : Addr → Addr) (p : Plugin) : (p.rename π).toPluginInfo = p.toPluginInfo := rfl

section Books

variable {π π' : Addr → Addr} {p : Plugin}

theorem Plugin.rename_id (p : Plugin) : p.rename id = p := by
  have htasks : (fun c => (p.tasks c).map id) = p.tasks := by
    funext c
    exact CList.ext (List.map_id _)
  unfold Plugin.rename
  rw [htasks]

theorem Plugin.rename_congr (h : ∀ c, ∀ b ∈ (p.tasks c).root, π' b = π b) : p.rename π' = p.rename π := by
  have htasks : (fun c => (p.tasks c).map π') = fun c => (p.tasks c).map π := by
    funext c
    exact CList.ext (List.map_congr_left (h c))
  unfold Plugin.rename
  rw [htasks]

theorem addUtil_rename (c : ℕ) (u : ℚ) :
    Lockstep (fun q q' => q' = q.rename π) (p.addUtil c u) ((p.rename π).addUtil c u) := by
  unfold Plugin.addUtil
  split
  · rename_i hc
    rw [if_pos (show (p.rename π).InTable c from hc)]
    exact .ok rfl
  · rename_i hc
    rw [if_neg (show ¬ (p.rename π).InTable c from hc)]
    exact .error _

theorem addCount_rename (c : ℕ) (n : ℤ) :
    Lockstep (fun q q' => q' = q.rename π) (p.addCount c n) ((p.rename π).addCount c n) := by
  unfold Plugin.addCount
  split
  · rename_i hc
    rw [if_pos (show (p.rename π).InTable c from hc)]
    exact .ok rfl
  · rename_i hc
    rw [if_neg (show ¬ (p.rename π).InTable c from hc)]
    exact .error _

theorem readTasks_rename (c : ℕ) :
    Lockstep (fun ts ts' => ts = p.tasks c ∧ ts' = (p.tasks c).map π) (p.read p.tasks c)
      ((p.rename π).read (p.rename π).tasks c) := by
  unfold Plugin.read
  split
  · rename_i hc
    rw [if_pos (show (p.rename π).InTable c from hc)]
    exact .ok ⟨rfl, rfl⟩
  · rename_i hc
    rw [if_neg (show ¬ (p.rename π).InTable c from hc)]
    exact .error _

theorem setTasks_rename (c : ℕ) (ts : Taskset) :
    (p.rename π).setTasks c (ts.map π) = (p.setTasks c ts).rename π := by
  have htasks : Function.update (fun d => (p.tasks d).map π) c (ts.map π) =
      fun d => (Function.update p.tasks c ts d).map π := by
    funext d
    by_cases hd : d = c
    · simp [hd]
    · simp [hd]
  unfold Plugin.setTasks Plugin.rename
  rw [htasks]

/-! What a plugin decides does not depend on where the tasks of its lists are. -/

theorem scanCpus_rename {α : Type} (table : ℕ → α) (better : α → α → Bool) (best : α) (cs : List ℕ) (cpu : ℕ) :
    scanCpus (p.rename π) table better best cs cpu = scanCpus p table better best cs cpu := by
  induction cs generalizing cpu with
  | nil => rfl
  | cons c cs ih =>
    have hread : (p.rename π).read table c = p.read table c := rfl
    simp only [scanCpus, ih, hread]

theorem leastLoaded_rename {α : Type} (table : ℕ → α) (better : α → α → Bool) :
    leastLoaded (p.rename π) table better = leastLoaded p table better := by
  have hlist : (p.rename π).cpulist = p.cpulist := rfl
  unfold leastLoaded
  rw [hlist]
  cases p.cpulist with
  | nil => rfl
  | cons c cs =>
    have hread : (p.rename π).read table c = p.read table c := rfl
    simp only [hread, scanCpus_rename]

theorem mostFree_rename : mostFree (p.rename π) = mostFree p := leastLoaded_rename ..

theorem fewestTasks_rename : fewestTasks (p.rename π) = fewestTasks p := leastLoaded_rename ..

theorem fitsSome_rename (u : ℚ) (cs : List ℕ) : fitsSome (p.rename π) u cs = fitsSome p u cs := by
  induction cs with
  | nil => rfl
  | cons c cs ih =>
    have hread : (p.rename π).read (p.rename π).utilFreePercpu c = p.read p.utilFreePercpu c := rfl
    simp only [fitsSome, ih, hread]

theorem evalUtilMissing_rename (u : ℚ) : evalUtilMissing (p.rename π) u = evalUtilMissing p u := by
  have hread : ∀ c, (p.rename π).read (p.rename π).utilFreePercpu c = p.read p.utilFreePercpu c := fun _ => rfl
  have hlist : (p.rename π).cpulist = p.cpulist := rfl
  simp only [evalUtilMissing, fitsSome_rename, mostFree_rename, hread, hlist]

theorem utilizationTest_rename (u : ℚ) : utilizationTest (p.rename π) u = utilizationTest p u := by
  simp only [utilizationTest, evalUtilMissing_rename]

theorem desiredUtilizationTest_rename (u d : ℚ) :
    desiredUtilizationTest (p.rename π) u d = desiredUtilizationTest p u d := by
  simp only [desiredUtilizationTest, evalUtilMissing_rename]

theorem grant_rename (t : Task) : EDF.grant (p.rename π) t = EDF.grant p t := by
  have hread : ∀ c, (p.rename π).read (p.rename π).utilFreePercpu c = p.read p.utilFreePercpu c := fun _ => rfl
  simp only [EDF.grant, desiredUtilizationTest_rename, hread]

theorem EDF.accept_rename (t : Task) : EDF.rtfPlgTaskAccept (p.rename π) t = EDF.rtfPlgTaskAccept p t := by
  have hdemote : ∀ r, demote (p.rename π) t r = demote p t r := fun _ => rfl
  simp only [EDF.rtfPlgTaskAccept, EDF.admission, utilizationTest_rename, desiredUtilizationTest_rename, hdemote]

theorem RM.accept_rename (t : Task) : RM.rtfPlgTaskAccept (p.rename π) t = RM.rtfPlgTaskAccept p t := by
  have hdemote : ∀ r, demote (p.rename π) t r = demote p t r := fun _ => rfl
  simp only [RM.rtfPlgTaskAccept, utilizationTest_rename, hdemote]

theorem accept_rename (t : Task) : rtfPlgTaskAccept (p.rename π) t = rtfPlgTaskAccept p t := by
  unfold rtfPlgTaskAccept
  rw [Plugin.rename_info]
  split
  · exact EDF.accept_rename t
  · exact RM.accept_rename t
  · rfl
  · rfl

/-- An answer, and the plugin it leaves. -/
def SameAnswer (π : Addr → Addr) (x y : Res × Plugin) : Prop := y = (x.1, x.2.rename π)

theorem change_rename (t : Task) :
    Lockstep (SameAnswer π) (rtfPlgTaskChange p t) (rtfPlgTaskChange (p.rename π) t) := by
  unfold rtfPlgTaskChange
  rw [Plugin.rename_info]
  split
  · unfold EDF.rtfPlgTaskChange
    rw [Plugin.rename_info]
    split
    · refine Lockstep.bind (addUtil_rename _ _) ?_
      rintro q _ rfl
      rw [EDF.accept_rename]
      apply Lockstep.bind_same
      intro r _
      refine Lockstep.bind (addUtil_rename _ _) ?_
      rintro q' _ rfl
      exact .ok rfl
    · rw [EDF.accept_rename]
      apply Lockstep.bind_same
      intro r _
      exact .ok rfl
  · unfold RM.rtfPlgTaskChange
    rw [Plugin.rename_info]
    split
    · refine Lockstep.bind (addUtil_rename _ _) ?_
      rintro q _ rfl
      rw [RM.accept_rename]
      apply Lockstep.bind_same
      intro r _
      refine Lockstep.bind (addUtil_rename _ _) ?_
      rintro q' _ rfl
      exact .ok rfl
    · rw [RM.accept_rename]
      apply Lockstep.bind_same
      intro r _
      exact .ok rfl
  · exact .ok rfl
  · exact .ok rfl

end Books

/-! ### The world -/

/-- World `v` is world `w` with the tasks in `S` elsewhere. -/
structure Copied (π : Addr → Addr) (S : Addr → Prop) (w v : World) : Prop where
  plugin : ∀ j, v.plugin j = (w.plugin j).rename π
  statics : v.statics = w.statics
  kernel : v.kernel = w.kernel
  heap : Copies π S w.heap v.heap

section World

variable {π : Addr → Addr} {S S' : Addr → Prop} {w v : World} {i : ℕ} {a : Addr}

theorem Copied.mono (h : Copied π S w v) (hS : ∀ a, S' a → S a) : Copied π S' w v :=
  ⟨h.plugin, h.statics, h.kernel, h.heap.mono hS⟩

/-- New books, records and counters, and a new kernel. -/
theorem Copied.set (h : Copied π S w v) (p : Plugin) {st : ℕ → Statics} {heap heap' : Heap} (k : Kernel)
    (hheap : Copies π S heap heap') :
    Copied π S ⟨Function.update w.plugin i p, st, heap, k⟩ ⟨Function.update v.plugin i (p.rename π), st, heap', k⟩ := by
  refine ⟨?_, rfl, rfl, hheap⟩
  intro j
  by_cases hj : j = i
  · simp [hj]
  · simp [hj, h.plugin j]

/-! ### Scheduling -/

theorem EDF.schedule_copied (hπ : Function.Injective π) (ha : S a) (h : Copied π S w v) :
    Lockstep (Copied π S) (EDF.rtfPlgTaskSchedule w i a) (EDF.rtfPlgTaskSchedule v i (π a)) := by
  unfold EDF.rtfPlgTaskSchedule EDF.leastLoadedCpu
  dsimp only
  rw [h.plugin i, h.heap a ha, mostFree_rename, Plugin.rename_info]
  apply Lockstep.bind_same
  intro c _
  rw [grant_rename]
  apply Lockstep.bind_same
  intro t _
  refine Lockstep.bind (addUtil_rename _ _) ?_
  rintro p _ rfl
  refine Lockstep.bind (addCount_rename _ _) ?_
  rintro p' _ rfl
  refine .ok ?_
  simp only [World.setPlugin, World.setTask, h.statics, h.kernel]
  exact h.set p' w.kernel (h.heap.update hπ a t)

theorem FP.schedule_copied (hπ : Function.Injective π) (ha : S a) (h : Copied π S w v) :
    Lockstep (Copied π S) (FP.rtfPlgTaskSchedule w i a) (FP.rtfPlgTaskSchedule v i (π a)) := by
  have hreal : ∀ q, FP.realPriority ((w.plugin i).rename π) q = FP.realPriority (w.plugin i) q := fun _ => rfl
  unfold FP.rtfPlgTaskSchedule FP.leastLoadedCpu
  dsimp only
  rw [h.plugin i, h.heap a ha, fewestTasks_rename, Plugin.rename_info, hreal]
  apply Lockstep.bind_same
  intro c _
  refine Lockstep.bind (addCount_rename _ _) ?_
  rintro p _ rfl
  refine .ok ?_
  simp only [World.setPlugin, World.setTask, h.statics, h.kernel]
  exact h.set p w.kernel (h.heap.update hπ a _)

/-- The counters two walks leave, and the records. -/
def Ranked (π : Addr → Addr) (S : Addr → Prop) (x y : Statics × Heap) : Prop := y.1 = x.1 ∧ Copies π S x.2 y.2

theorem RM.rank_copied (hπ : Function.Injective π) {p : Plugin} {st : Statics} {h h' : Heap} {c : ℕ} {behind : List Addr}
    (ha : S a) (hbehind : ∀ b ∈ behind, S b) (hlist : ∀ b ∈ (p.tasks c).root, S b) (hc : Copies π S h h') :
    Lockstep (Ranked π S) (RM.rank p st h a c behind) (RM.rank (p.rename π) st h' (π a) c (behind.map π)) := by
  have hsame : RM.sameAsNext h' (h' (π a)) (behind.map π) = (RM.sameAsNext h (h a) behind).map π := by
    rcases behind with _ | ⟨next, rest⟩
    · rfl
    · simp only [List.map_cons, RM.sameAsNext, hc next (hbehind next (List.mem_cons_self ..)), hc a ha]
      split
      · rfl
      · rfl
  have hwindow : RM.window (p.rename π) = RM.window p := rfl
  unfold RM.rank
  rw [hsame]
  rcases hnext : RM.sameAsNext h (h a) behind with _ | next
  · apply Lockstep.bind_same
    intro _ _
    refine .ok ⟨rfl, ?_⟩
    unfold RM.assignPriorities
    dsimp only
    rw [hwindow]
    split
    · exact rankLoop_copies hπ _ _ hlist hc
    · exact rankLoop_copies hπ _ _ hlist hc
  · have hmem : next ∈ behind := by
      rcases behind with _ | ⟨b, rest⟩
      · cases hnext
      · simp only [RM.sameAsNext] at hnext
        split at hnext
        · obtain rfl := Option.some.inj hnext
          exact List.mem_cons_self ..
        · cases hnext
    refine .ok ⟨rfl, ?_⟩
    rw [hc a ha, hc next (hbehind next hmem)]
    exact hc.update hπ a _

theorem RR.rank_copied (hπ : Function.Injective π) {p : Plugin} {st : Statics} {h h' : Heap} {c : ℕ} {behind : List Addr}
    (ha : S a) (hbehind : ∀ b ∈ behind, S b) (hlist : ∀ b ∈ (p.tasks c).root, S b) (hc : Copies π S h h') :
    Lockstep (Ranked π S) (RR.rank p st h a c behind) (RR.rank (p.rename π) st h' (π a) c (behind.map π)) := by
  have hwindow : RR.window (p.rename π) = RR.window p := rfl
  unfold RR.rank
  rw [hc a ha]
  split
  · refine .ok ⟨rfl, ?_⟩
    unfold RR.assignPriorities
    dsimp only
    rw [hwindow]
    split
    · exact mapLoop_copies hπ _ hlist hc
    · exact rankLoop_copies hπ _ _ hlist hc
  · rcases behind with _ | ⟨next, rest⟩
    · exact .error _
    · refine .ok ⟨rfl, ?_⟩
      simp only [hc next (hbehind next (List.mem_cons_self ..))]
      exact hc.update hπ a _

theorem RM.schedule_copied (hπ : Function.Injective π) (ha : S a)
    (hlist : ∀ c, ∀ b ∈ ((w.plugin i).tasks c).root, S b) (h : Copied π S w v) :
    Lockstep (Copied π S) (RM.rtfPlgTaskSchedule w i a) (RM.rtfPlgTaskSchedule v i (π a)) := by
  unfold RM.rtfPlgTaskSchedule RM.leastLoadedCpu
  dsimp only
  rw [h.plugin i, h.heap a ha, mostFree_rename, Plugin.rename_info]
  apply Lockstep.bind_same
  intro c _
  refine Lockstep.bind (readTasks_rename c) ?_
  rintro ts _ ⟨rfl, rfl⟩
  have hS := h.heap.update hπ a { w.heap a with cpu := c, pluginid := (w.plugin i).id }
  rw [addSortedPr_map hS (hlist c) ha, setTasks_rename, Plugin.rename_info, h.statics]
  refine Lockstep.bind (RM.rank_copied hπ ha ?_ ?_ hS) ?_
  · exact fun b hb => hlist c b (mem_of_behind hb)
  · intro b hb
    simp only [Plugin.setTasks, Function.update_self] at hb
    rcases List.mem_cons.mp ((rtfTasksetAddSortedPr_perm _ _ a).mem_iff.mp hb) with rfl | hb
    · exact ha
    · exact hlist c b hb
  · rintro ⟨st, heap⟩ ⟨_, heap'⟩ ⟨rfl, hheap⟩
    dsimp only at hheap ⊢
    rw [hheap a ha]
    refine Lockstep.bind (addUtil_rename _ _) ?_
    rintro p _ rfl
    refine Lockstep.bind (addCount_rename _ _) ?_
    rintro p' _ rfl
    refine .ok ?_
    simp only [World.setPlugin, World.setTask, World.setStatics, h.kernel]
    exact h.set p' w.kernel (hheap.update hπ a _)

theorem RR.schedule_copied (hπ : Function.Injective π) (ha : S a)
    (hlist : ∀ c, ∀ b ∈ ((w.plugin i).tasks c).root, S b) (h : Copied π S w v) :
    Lockstep (Copied π S) (RR.rtfPlgTaskSchedule w i a) (RR.rtfPlgTaskSchedule v i (π a)) := by
  unfold RR.rtfPlgTaskSchedule RR.leastLoadedCpu
  dsimp only
  rw [h.plugin i, h.heap a ha, fewestTasks_rename, Plugin.rename_info, h.statics]
  apply Lockstep.bind_same
  intro c _
  have hS := h.heap.update hπ a { w.heap a with cpu := c, pluginid := (w.plugin i).id }
  rw [hS a ha]
  apply Lockstep.bind_same
  intro _ _
  refine Lockstep.bind (readTasks_rename c) ?_
  rintro ts _ ⟨rfl, rfl⟩
  rw [addSortedPrio_map hS (hlist c) ha, setTasks_rename]
  refine Lockstep.bind (RR.rank_copied hπ ha ?_ ?_ hS) ?_
  · exact fun b hb => hlist c b (mem_of_behind hb)
  · intro b hb
    simp only [Plugin.setTasks, Function.update_self] at hb
    rcases List.mem_cons.mp ((rtfTasksetAddSortedPrio_perm _ _ a).mem_iff.mp hb) with rfl | hb
    · exact ha
    · exact hlist c b hb
  · rintro ⟨st, heap⟩ ⟨_, heap'⟩ ⟨rfl, hheap⟩
    dsimp only at hheap ⊢
    rw [hheap a ha]
    refine Lockstep.bind (addCount_rename _ _) ?_
    rintro p _ rfl
    refine .ok ?_
    simp only [World.setPlugin, World.setStatics, h.kernel]
    exact h.set p w.kernel hheap

/-- **Scheduling** a task whose record is elsewhere. -/
theorem schedule_copied (hπ : Function.Injective π) (ha : S a) (hlist : ∀ c, ∀ b ∈ ((w.plugin i).tasks c).root, S b)
    (h : Copied π S w v) : Lockstep (Copied π S) (rtfPlgTaskSchedule w i a) (rtfPlgTaskSchedule v i (π a)) := by
  unfold rtfPlgTaskSchedule
  rw [h.plugin i, Plugin.rename_info]
  split
  · exact EDF.schedule_copied hπ ha h
  · exact RM.schedule_copied hπ ha hlist h
  · exact RR.schedule_copied hπ ha hlist h
  · exact FP.schedule_copied hπ ha h

/-! ### Releasing -/

/-- An answer, and the world it leaves. -/
def CopiedAfter (π : Addr → Addr) (S : Addr → Prop) (x y : Res × World) : Prop := y.1 = x.1 ∧ Copied π S x.2 y.2

theorem EDF.release_copied (hπ : Function.Injective π) (ha : S a) (h : Copied π S w v) :
    Lockstep (CopiedAfter π S) (EDF.rtfPlgTaskRelease w i a) (EDF.rtfPlgTaskRelease v i (π a)) := by
  unfold EDF.rtfPlgTaskRelease
  dsimp only
  rw [h.plugin i, h.heap a ha]
  refine Lockstep.bind (addUtil_rename _ _) ?_
  rintro p _ rfl
  refine Lockstep.bind (addCount_rename _ _) ?_
  rintro p' _ rfl
  simp only [World.setPlugin, World.setTask, h.statics, h.kernel]
  exact .ok ⟨rfl, h.set p' _ (h.heap.update hπ a _)⟩

theorem FP.release_copied (hπ : Function.Injective π) (ha : S a) (h : Copied π S w v) :
    Lockstep (CopiedAfter π S) (FP.rtfPlgTaskRelease w i a) (FP.rtfPlgTaskRelease v i (π a)) := by
  unfold FP.rtfPlgTaskRelease
  dsimp only
  rw [h.plugin i, h.heap a ha]
  refine Lockstep.bind (addCount_rename _ _) ?_
  rintro p _ rfl
  simp only [World.setPlugin, World.setTask, h.statics, h.kernel]
  exact .ok ⟨rfl, h.set p _ (h.heap.update hπ a _)⟩

theorem giveBack_rename {p : Plugin} (c : ℕ) (u : ℚ) :
    Lockstep (fun q q' => q' = q.rename π) (RM.giveBack p c u) (RM.giveBack (p.rename π) c u) := by
  unfold RM.giveBack
  split
  · exact addUtil_rename c u
  · exact .ok rfl

theorem RM.release_copied (hπ : Function.Injective π) (ha : S a)
    (hlist : ∀ c, ∀ b ∈ ((w.plugin i).tasks c).root, S b) (h : Copied π S w v) :
    Lockstep (CopiedAfter π S) (RM.rtfPlgTaskRelease w i a) (RM.rtfPlgTaskRelease v i (π a)) := by
  unfold RM.rtfPlgTaskRelease
  dsimp only
  rw [h.plugin i, h.heap a ha, Plugin.rename_info, h.statics]
  refine Lockstep.bind (readTasks_rename _) ?_
  rintro ts _ ⟨rfl, rfl⟩
  rw [hasTwin_map h.heap (hlist _), removeByRsvid_map h.heap (hlist _)]
  apply Lockstep.bind_same
  intro st _
  refine Lockstep.bind (giveBack_rename _ _) ?_
  rintro p _ rfl
  rw [setTasks_rename]
  refine Lockstep.bind (addCount_rename _ _) ?_
  rintro p' _ rfl
  simp only [World.setPlugin, World.setTask, World.setStatics, h.statics, h.kernel]
  exact .ok ⟨rfl, h.set p' _ (h.heap.update hπ a _)⟩

theorem RR.release_copied (hπ : Function.Injective π) (ha : S a)
    (hlist : ∀ c, ∀ b ∈ ((w.plugin i).tasks c).root, S b) (h : Copied π S w v) :
    Lockstep (CopiedAfter π S) (RR.rtfPlgTaskRelease w i a) (RR.rtfPlgTaskRelease v i (π a)) := by
  unfold RR.rtfPlgTaskRelease
  dsimp only
  rw [h.plugin i, h.heap a ha]
  refine Lockstep.bind (Lockstep.mono (addCount_rename _ _) fun p p' hp _ hR => And.intro hp hR) ?_
  rintro p _ ⟨hp, rfl⟩
  obtain ⟨-, rfl⟩ := addCount_ok hp
  apply Lockstep.bind_same
  intro _ _
  refine Lockstep.bind (readTasks_rename _) ?_
  rintro ts _ ⟨rfl, rfl⟩
  rw [removeByRsvid_map h.heap (hlist _), setTasks_rename]
  simp only [World.setPlugin, World.setTask, World.setStatics, Plugin.rename_info, h.statics, h.kernel]
  refine .ok ⟨rfl, ?_⟩
  dsimp only
  exact h.set _ _ (h.heap.update hπ a _)

/-- **Releasing** a task whose record is elsewhere. -/
theorem release_copied (hπ : Function.Injective π) (ha : S a) (hlist : ∀ c, ∀ b ∈ ((w.plugin i).tasks c).root, S b)
    (h : Copied π S w v) : Lockstep (CopiedAfter π S) (rtfPlgTaskRelease w i a) (rtfPlgTaskRelease v i (π a)) := by
  unfold rtfPlgTaskRelease
  rw [h.plugin i, Plugin.rename_info]
  split
  · exact EDF.release_copied hπ ha h
  · exact RM.release_copied hπ ha hlist h
  · exact RR.release_copied hπ ha hlist h
  · exact FP.release_copied hπ ha h

/-! ### Choosing a plugin -/

/-- Two ways of asking that answer alike. -/
def AskAlike (π : Addr → Addr) (S : Addr → Prop) (ask ask' : World → ℕ → Except Fault (Res × World)) : Prop :=
  ∀ w v i, Copied π S w v → Lockstep (CopiedAfter π S) (ask w i) (ask' v i)

theorem askAccept_copied (ha : S a) : AskAlike π S (askAccept a) (askAccept (π a)) := by
  intro w v i h
  unfold askAccept
  rw [h.plugin i, h.heap a ha, accept_rename]
  apply Lockstep.bind_same
  intro r _
  exact .ok ⟨rfl, h⟩

theorem askChange_copied (ha : S a) : AskAlike π S (askChange a) (askChange (π a)) := by
  intro w v i h
  unfold askChange
  rw [h.plugin i, h.heap a ha]
  refine Lockstep.bind (change_rename _) ?_
  rintro ⟨r, p⟩ _ rfl
  refine .ok ⟨rfl, ?_⟩
  simp only [World.setPlugin, h.statics, h.kernel]
  exact h.set p w.kernel h.heap

variable {ask ask' : World → ℕ → Except Fault (Res × World)}

theorem firstPass_copied (hask : AskAlike π S ask ask') {is : List ℕ} (h : Copied π S w v) :
    Lockstep (fun x y => y.1 = x.1 ∧ y.2.1 = x.2.1 ∧ Copied π S x.2.2 y.2.2) (firstPass ask is w)
      (firstPass ask' is v) := by
  induction is generalizing w v with
  | nil => exact .ok ⟨rfl, rfl, h⟩
  | cons i is ih =>
    unfold firstPass
    refine Lockstep.bind (hask w v i h) ?_
    rintro ⟨r, w1⟩ ⟨_, v1⟩ ⟨rfl, h1⟩
    dsimp only at h1 ⊢
    split
    · exact .ok ⟨rfl, rfl, h1⟩
    · refine Lockstep.bind (ih h1) ?_
      rintro ⟨found, results, w2⟩ ⟨_, _, v2⟩ ⟨rfl, rfl, h2⟩
      exact .ok ⟨rfl, rfl, h2⟩

/-- **Choosing a plugin** for a task whose record is elsewhere. -/
theorem select_copied (hask : AskAlike π S ask ask') (n : ℕ) (h : Copied π S w v) :
    Lockstep (fun x y => y.1 = x.1 ∧ Copied π S x.2 y.2) (selectPlugin ask n w) (selectPlugin ask' n v) := by
  unfold selectPlugin
  refine Lockstep.bind (firstPass_copied hask h) ?_
  rintro ⟨found, results, w1⟩ ⟨_, _, v1⟩ ⟨rfl, rfl, h1⟩
  dsimp only at h1 ⊢
  split
  · exact .ok ⟨rfl, h1⟩
  · exact .ok ⟨rfl, h1⟩

end World

end Retif
