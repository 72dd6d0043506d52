/-
# RR by itself

In every state of a run of moves RR's list of a core is sorted and counted
(`RR.Exact`), the real priorities of its tasks are in the window, the same for
the same declared priority and in the order of the declared ones
(`RR.Ordered`). Releases do not hand priorities out anew, and need not: what
holds of a list holds of every part of it.

A task with a declared priority that is on the core already reads the real
priority of the node behind it. The three redundant structures make that node
exist: the counter says the priority is there, the counter counts the list, and
in a sorted list the new node goes in front of its equals (`RR.NextFound`).

Key definitions: `RR.Ordered`, `RR.NextFound`.
Key theorems: `RR.assign_order`, `RR.ordered_schedule`, `RR.ordered_release`,
`RR.next_found`, `round_robin_run`.
-/
import Retif.Solo
import Retif.Window
import Retif.WorstFit
import Retif.Deletion

namespace Retif

open CList

/-! ### What a walk leaves -/

section Walks

variable {this : Plugin} {st : Statics} {heap : Heap} {c : ℕ}

/-- Counting up over a sorted list keeps the order, and so keeps equals equal. -/
theorem countLoop_order {key : Task → ℕ} {as : List Addr} {a b : Addr} (hw : IntWindow this.toPluginInfo)
    (hnd : as.Nodup) (hs : (keysOf key heap as).Pairwise (· ≤ ·)) (hlt : ∀ x ∈ keysOf key heap as, x < 2 ^ 32)
    (hn : (changes (UInt32.ofInt (-1)) (keysOf key heap as) : ℤ) ≤ this.prioMax - this.prioMin + 1)
    (ha : a ∈ as) (hb : b ∈ as) (hab : key (heap a) ≤ key (heap b)) :
    (rankLoop key (fun _ curr => curr + 1) as heap (UInt32.ofInt (this.prioMin - 1)) (UInt32.ofInt (-1)) 0 a).schedprio ≤
      (rankLoop key (fun _ curr => curr + 1) as heap (UInt32.ofInt (this.prioMin - 1)) (UInt32.ofInt (-1)) 0
        b).schedprio := by
  obtain ⟨h1, h2, h3⟩ := hw
  obtain ⟨i, hi, rfl⟩ := List.getElem_of_mem ha
  obtain ⟨j, hj, rfl⟩ := List.getElem_of_mem hb
  have hstart := ofInt_toNat (x := this.prioMin - 1) (by omega) (by omega)
  have hki : i < (keysOf key heap as).length := keysOf_length.symm ▸ hi
  have hkj : j < (keysOf key heap as).length := keysOf_length.symm ▸ hj
  rw [← keysOf_getElem hi hki, ← keysOf_getElem hj hkj] at hab
  have hrank := @rankAt_sorted (UInt32.ofInt (-1)) _ i j hs hlt hki hkj hab
  have hlast := @rankAt_le (UInt32.ofInt (-1)) _ j hkj
  rw [countLoop_rankAt hnd hi, countLoop_rankAt hnd hj, UInt32.le_iff_toNat_le, countUp_toNat (by omega),
    countUp_toNat (by omega)]
  omega

/-- **What RR's `assign_priorities` leaves**, in both of its regimes: priorities of the
window, in the order of the declared ones. -/
theorem RR.assign_order {a b : Addr} (hw : IntWindow this.toPluginInfo) (hnd : (this.tasks c).root.Nodup)
    (hex : RR.Exact this st heap c) (hpos : ∀ x ∈ keysOf RR.priority heap (this.tasks c).root, 1 ≤ x)
    (ha : a ∈ (this.tasks c).root) (hb : b ∈ (this.tasks c).root)
    (hab : RR.priority (heap a) ≤ RR.priority (heap b)) :
    (RR.assignPriorities this st heap c a).schedprio ≤ (RR.assignPriorities this st heap c b).schedprio := by
  have hmax : MAX_PRIO = 100 := rfl
  unfold RR.assignPriorities
  split
  · obtain ⟨h1, h2, h3⟩ := hw
    have hpa := hpos _ (List.mem_map.mpr ⟨a, ha, rfl⟩)
    have hpb := hex.small _ (List.mem_map.mpr ⟨b, hb, rfl⟩)
    rw [mapLoop_prio hnd a ha, mapLoop_prio hnd b hb]
    exact RR.remap_mono h1 h2 h3 hpa hab (by show RR.priority (heap b) ≤ 99; omega)
  · rename_i hle
    have hsent : (UInt32.ofInt (-1)).toNat = 2 ^ 32 - 1 := rfl
    have hch : changes (UInt32.ofInt (-1)) (keysOf RR.priority heap (this.tasks c).root) = (st.distPrio c).toNat := by
      rw [hex.dist]
      refine changes_sorted hex.sorted ?_
      intro x hx
      have := hex.small x hx
      omega
    have hwin : ((RR.window this).toNat : ℤ) = this.prioMax - this.prioMin + 1 := window_toNat hw
    have hle' : (st.distPrio c).toNat ≤ (RR.window this).toNat := UInt32.le_iff_toNat_le.mp (UInt32.not_lt.mp hle)
    refine countLoop_order hw hnd hex.sorted ?_ (by omega) ha hb hab
    intro x hx
    have := hex.small x hx
    omega

end Walks

/-! ### The invariant of a list -/

/-- **RR's data of a core agree**: the list is sorted and counted, its tasks run at
priorities of the window, equal declared ones at equal ones, lower ones not above
higher ones. -/
structure RR.Ordered (this : Plugin) (st : Statics) (heap : Heap) (c : ℕ) : Prop where
  exact : RR.Exact this st heap c
  window : ∀ a ∈ (this.tasks c).root, InWindow this.toPluginInfo (heap a).schedprio
  equal : ∀ a ∈ (this.tasks c).root, ∀ b ∈ (this.tasks c).root,
    (heap a).params.priority = (heap b).params.priority → (heap a).schedprio = (heap b).schedprio
  lower : ∀ a ∈ (this.tasks c).root, ∀ b ∈ (this.tasks c).root,
    (heap a).params.priority < (heap b).params.priority → (heap a).schedprio ≤ (heap b).schedprio

/-- The node behind the new one, where schedule reads it: it is there, it was on the
list, and it has the declared priority of the new task. -/
def RR.NextFound (w : World) (i : ℕ) (a : Addr) (c : ℕ) : Prop :=
  ((w.statics (w.plugin i).dl).addPerPrio c (w.heap a).params.priority 1).nPerPrio c
      (w.heap a).params.priority.toNat ≠ 1 →
    ∃ next rest, (RR.inserted w i a c).2 = next :: rest ∧ next ∈ ((w.plugin i).tasks c).root ∧
      (w.heap next).params.priority = (w.heap a).params.priority

namespace RR.Ordered

variable {this this' : Plugin} {st st' : Statics} {heap heap' : Heap} {c : ℕ}

/-- One order says both: by antisymmetry equals run at equals. -/
theorem of_order (hex : RR.Exact this st heap c)
    (hwin : ∀ a ∈ (this.tasks c).root, InWindow this.toPluginInfo (heap a).schedprio)
    (hord : ∀ a ∈ (this.tasks c).root, ∀ b ∈ (this.tasks c).root,
      RR.priority (heap a) ≤ RR.priority (heap b) → (heap a).schedprio ≤ (heap b).schedprio) :
    RR.Ordered this st heap c := by
  refine ⟨hex, hwin, ?_, ?_⟩
  · intro a ha b hb heq
    have heq' : RR.priority (heap a) = RR.priority (heap b) := congrArg UInt32.toNat heq
    exact UInt32.le_antisymm (hord a ha b hb heq'.le) (hord b hb a ha heq'.ge)
  · intro a ha b hb hlt
    exact hord a ha b hb (UInt32.lt_iff_toNat_lt.mp hlt).le

theorem order (h : RR.Ordered this st heap c) {a b : Addr} (ha : a ∈ (this.tasks c).root)
    (hb : b ∈ (this.tasks c).root) (hab : RR.priority (heap a) ≤ RR.priority (heap b)) :
    (heap a).schedprio ≤ (heap b).schedprio := by
  rcases Nat.eq_or_lt_of_le hab with heq | hlt
  · rw [h.equal a ha b hb (UInt32.toNat_inj.mp heq)]
    exact UInt32.le_refl _
  · exact h.lower a ha b hb (UInt32.lt_iff_toNat_lt.mpr hlt)

/-- What holds of a list holds of every list of the same records, or of part of them. -/
theorem of_part (h : RR.Ordered this st heap c) (hex : RR.Exact this' st' heap' c)
    (hinfo : this'.toPluginInfo = this.toPluginInfo)
    (hpart : ∀ b ∈ (this'.tasks c).root, ∃ d ∈ (this.tasks c).root,
      (heap' b).params.priority = (heap d).params.priority ∧ (heap' b).schedprio = (heap d).schedprio) :
    RR.Ordered this' st' heap' c := by
  refine ⟨hex, ?_, ?_, ?_⟩
  · intro b hb
    obtain ⟨d, hd, -, hs⟩ := hpart b hb
    rw [hs, hinfo]
    exact h.window d hd
  · intro a ha b hb heq
    obtain ⟨d, hd, hp, hs⟩ := hpart a ha
    obtain ⟨e, he, hp', hs'⟩ := hpart b hb
    rw [hp, hp'] at heq
    rw [hs, hs']
    exact h.equal d hd e he heq
  · intro a ha b hb hlt
    obtain ⟨d, hd, hp, hs⟩ := hpart a ha
    obtain ⟨e, he, hp', hs'⟩ := hpart b hb
    rw [hp, hp'] at hlt
    rw [hs, hs']
    exact h.lower d hd e he hlt

end RR.Ordered

/-! ### Scheduling and releasing -/

section Moves

variable {w w' : World} {i : ℕ} {a : Addr} {c : ℕ}

/-- **The node that schedule reads is there**: the counter counts the list, and the
new node goes in front of its equals. -/
theorem RR.next_found (hex : RR.Exact (w.plugin i) (w.statics (w.plugin i).dl) w.heap c) : RR.NextFound w i a c := by
  intro hone
  have hcount := hex.perPrio (w.heap a).params.priority.toNat
  have hin : (w.heap a).params.priority.toNat ∈ keysOf RR.priority w.heap ((w.plugin i).tasks c).root := by
    by_contra hn
    rw [List.count_eq_zero.mpr hn] at hcount
    exact hone (by simp [Statics.addPerPrio, hcount])
  have hpar : ∀ b, RR.priority (w.assign i a c b) = RR.priority (w.heap b) := by
    intro b
    show (w.assign i a c b).params.priority.toNat = _
    rw [assign_params]
    rfl
  have hsorted : ((w.plugin i).tasks c).root.Pairwise
      fun x y => RR.priority (w.assign i a c x) ≤ RR.priority (w.assign i a c y) := by
    simp only [hpar]
    exact List.pairwise_map.mp hex.sorted
  obtain ⟨x, hx, hxa⟩ := List.mem_map.mp hin
  have hnext := (@addSeek_next (fun x => RR.priority (w.assign i a c x))
    (fun x y => taskCmp (w.assign i a c x) (w.assign i a c y) .priority .asc) a _ (fun x => taskCmp_asc_pos)
    hsorted).mp ⟨x, hx, by rw [hpar, hpar]; exact hxa⟩
  obtain ⟨next, rest, hr, hkey⟩ := hnext
  have hbehind : (RR.inserted w i a c).2 = next :: rest := by
    unfold RR.inserted rtfTasksetAddSortedPrio
    rw [(listAddSorted_eq _ a _).2, hr]
  rw [hpar, hpar] at hkey
  exact ⟨next, rest, hbehind, behind_mem hbehind, UInt32.toNat_inj.mp hkey⟩

/-- Ranking the task just inserted. -/
theorem RR.ordered_rank {st : Statics} {heap : Heap} (hw : IntWindow (w.plugin i).toPluginInfo)
    (hord : RR.Ordered (w.plugin i) (w.statics (w.plugin i).dl) w.heap c)
    (hnd : (a :: ((w.plugin i).tasks c).root).Nodup)
    (hpos : ∀ b ∈ a :: ((w.plugin i).tasks c).root, 1 ≤ (w.heap b).params.priority.toNat)
    (hp : (w.heap a).params.priority.toNat < MAX_PRIO)
    (hr : RR.rank ((w.plugin i).setTasks c (RR.inserted w i a c).1)
      ((w.statics (w.plugin i).dl).addPerPrio c (w.heap a).params.priority 1) (w.assign i a c) a c
        (RR.inserted w i a c).2 = .ok (st, heap)) :
    RR.Ordered ((w.plugin i).setTasks c (RR.inserted w i a c).1) st heap c := by
  have htasks := (w.plugin i).setTasks_self c (RR.inserted w i a c).1
  have hperm : (RR.inserted w i a c).1.root.Perm (a :: ((w.plugin i).tasks c).root) :=
    rtfTasksetAddSortedPrio_perm _ _ a
  have hcounted := RR.inserted_exact hord.exact hp hr
  have hsame := (RR.rank_frame hr).1
  have hpar : ∀ b, (heap b).params = (w.heap b).params := by
    intro b
    rw [hsame b]
    exact assign_params w i a c b
  have hasg : ∀ b ∈ ((w.plugin i).tasks c).root, w.assign i a c b = w.heap b := by
    intro b hb
    have hne : b ≠ a := fun hba => (List.nodup_cons.mp hnd).1 (hba ▸ hb)
    exact w.assign_ne i hne c
  have hexact : RR.Exact ((w.plugin i).setTasks c (RR.inserted w i a c).1) st heap c := by
    refine hcounted.congr rfl ?_ rfl rfl
    intro b _
    rw [hpar, assign_params]
  by_cases hone : ((w.statics (w.plugin i).dl).addPerPrio c (w.heap a).params.priority 1).nPerPrio c
      (w.assign i a c a).params.priority.toNat = 1
  · -- the priority is new: all are handed out anew
    have hst := RR.rank_statics hr
    rw [if_pos hone] at hst
    unfold RR.rank at hr
    rw [if_pos hone] at hr
    have hheap : heap = RR.assignPriorities ((w.plugin i).setTasks c (RR.inserted w i a c).1) st (w.assign i a c) c := by
      rw [hst]
      exact (congrArg Prod.snd (Except.ok.inj hr)).symm
    have hnd' : (((w.plugin i).setTasks c (RR.inserted w i a c).1).tasks c).root.Nodup := by
      rw [htasks]
      exact hperm.nodup_iff.mpr hnd
    have hpos' : ∀ x ∈ keysOf RR.priority (w.assign i a c)
        (((w.plugin i).setTasks c (RR.inserted w i a c).1).tasks c).root, 1 ≤ x := by
      rw [htasks]
      intro x hx
      obtain ⟨b, hb, rfl⟩ := List.mem_map.mp hx
      show 1 ≤ (w.assign i a c b).params.priority.toNat
      rw [assign_params]
      exact hpos b (hperm.mem_iff.mp hb)
    have hwin := @RR.assign_window ((w.plugin i).setTasks c (RR.inserted w i a c).1) st (w.assign i a c) c hw hnd'
      hcounted.sorted hcounted.small hcounted.dist fun _ x hx => Nat.one_le_iff_ne_zero.mp (hpos' x hx)
    refine .of_order hexact ?_ ?_
    · rw [hheap]
      exact hwin
    · intro x hx y hy hxy
      have hprio : ∀ b, RR.priority (heap b) = RR.priority (w.assign i a c b) := by
        intro b
        show (heap b).params.priority.toNat = (w.assign i a c b).params.priority.toNat
        rw [hpar, assign_params]
      rw [hprio, hprio] at hxy
      rw [hheap]
      exact RR.assign_order hw hnd' hcounted hpos' hx hy hxy
  · -- the task runs at the priority of the node behind it
    have hone' := hone
    rw [assign_params] at hone'
    obtain ⟨next, rest, hbehind, hmem, hkey⟩ := RR.next_found hord.exact hone'
    unfold RR.rank at hr
    rw [if_neg hone, hbehind] at hr
    have hheap := congrArg Prod.snd (Except.ok.inj hr)
    dsimp only at hheap
    refine hord.of_part hexact rfl ?_
    rw [htasks]
    intro b hb
    rcases List.mem_cons.mp (hperm.mem_iff.mp hb) with rfl | hb
    · refine ⟨next, hmem, by rw [hpar, hkey], ?_⟩
      rw [← hheap, Function.update_self]
      show (w.assign i b c next).schedprio = _
      rw [hasg next hmem]
    · refine ⟨b, hb, by rw [hpar], ?_⟩
      have hne : b ≠ a := fun hba => (List.nodup_cons.mp hnd).1 (hba ▸ hb)
      rw [← hheap, Function.update_of_ne hne, hasg b hb]

/-- **Scheduling keeps RR's data in agreement**, on every core. -/
theorem RR.ordered_schedule (hw : IntWindow (w.plugin i).toPluginInfo)
    (hord : ∀ c, RR.Ordered (w.plugin i) (w.statics (w.plugin i).dl) w.heap c)
    (hnd : ∀ c, (a :: ((w.plugin i).tasks c).root).Nodup)
    (hdis : ∀ c d, ∀ b ∈ ((w.plugin i).tasks c).root, b ∈ ((w.plugin i).tasks d).root → c = d)
    (hpos : ∀ c, ∀ b ∈ a :: ((w.plugin i).tasks c).root, 1 ≤ (w.heap b).params.priority.toNat)
    (hinfo : (w'.plugin i).toPluginInfo = (w.plugin i).toPluginInfo)
    (h : RR.rtfPlgTaskSchedule w i a = .ok w') :
    ∀ d, RR.Ordered (w'.plugin i) (w'.statics (w.plugin i).dl) w'.heap d := by
  have hexact := RR.exact_schedule (fun c => (hord c).exact) h
  obtain ⟨c, -, hp, htasks, hr⟩ := RR.schedule_ranked h
  have hranked := RR.ordered_rank hw (hord c) (hnd c) (hpos c) hp hr
  intro d
  by_cases hd : d = c
  · subst hd
    refine hranked.of_part (hexact d) hinfo ?_
    rw [htasks]
    exact fun b hb => ⟨b, hb, rfl, rfl⟩
  · -- the lists of the other cores have no task in common with that of `c`
    refine (hord d).of_part (hexact d) hinfo ?_
    rw [htasks, Function.update_of_ne hd]
    intro b hb
    have hne : b ≠ a := fun hba => (List.nodup_cons.mp (hnd d)).1 (hba ▸ hb)
    have hperm : (RR.inserted w i a c).1.root.Perm (a :: ((w.plugin i).tasks c).root) :=
      rtfTasksetAddSortedPrio_perm _ _ a
    have hnot : b ∉ (((w.plugin i).setTasks c (RR.inserted w i a c).1).tasks c).root :=
      setTasks_not_mem hperm hne fun hm => hd (hdis d c b hb hm)
    have hkeep : w'.heap b = w.heap b := by
      rw [(RR.rank_frame hr).2 b hne hnot]
      exact Function.update_of_ne hne _ _
    exact ⟨b, hb, by rw [hkeep], by rw [hkeep]⟩

/-- **Releasing keeps RR's data in agreement**: no priority is written. -/
theorem RR.ordered_release {r : Res} (hord : ∀ c, RR.Ordered (w.plugin i) (w.statics (w.plugin i).dl) w.heap c)
    (hk : (w.plugin i).kind = .rr)
    (hperm : ((w.plugin i).tasks (w.heap a).cpu).root.Perm (a :: ((w'.plugin i).tasks (w.heap a).cpu).root))
    (h : RR.rtfPlgTaskRelease w i a = .ok (r, w')) :
    ∀ d, RR.Ordered (w'.plugin i) (w'.statics (w.plugin i).dl) w'.heap d := by
  have hexact := RR.exact_release (fun c => (hord c).exact) hperm h
  have hR := RR.release_released hk h
  intro d
  refine (hord d).of_part (hexact d) hR.info ?_
  intro b hb
  refine ⟨b, ?_, by rw [hR.task_eq b], by rw [hR.task_eq b]⟩
  by_cases hd : d = (w.heap a).cpu
  · subst hd
    exact hperm.mem_iff.mpr (List.mem_cons_of_mem a hb)
  · rw [hR.list, if_neg fun hc => hd hc.2] at hb
    exact hb

end Moves

/-! ### Runs -/

/-- A declared priority of `SCHED_RR`. -/
def RR.Declared (p : Params) : Prop := schedGetPriorityMin ≤ p.priority ∧ p.priority ≤ schedGetPriorityMax

instance RR.decidableDeclared : DecidablePred RR.Declared := fun p =>
  inferInstanceAs (Decidable (schedGetPriorityMin ≤ p.priority ∧ p.priority ≤ schedGetPriorityMax))

theorem RR.declared_toNat {p : Params} (h : RR.Declared p) : 1 ≤ p.priority.toNat ∧ p.priority.toNat ≤ 99 :=
  ⟨UInt32.le_iff_toNat_le.mp h.1, UInt32.le_iff_toNat_le.mp h.2⟩

section Runs

variable {s s' : Solo} {info : PluginInfo} {m : Move} {r : Res}

/-- RR's data agree on every core. -/
def RR.Agree (s : Solo) : Prop := ∀ c, RR.Ordered (s.plugin 0) (s.statics (s.plugin 0).dl) s.heap c

/-- The record of a task that is not held is on no list. -/
theorem RR.agree_written {a : Addr} (hord : RR.Agree s) (ha : ∀ c, a ∉ ((s.plugin 0).tasks c).root) (t : Task) (c : ℕ) :
    RR.Ordered ((s.setTask a t).plugin 0) ((s.setTask a t).statics (s.plugin 0).dl) (s.setTask a t).heap c := by
  have hold : ∀ b ∈ ((s.plugin 0).tasks c).root, (s.setTask a t).heap b = s.heap b := by
    intro b hb
    have hne : b ≠ a := fun hba => ha c (hba ▸ hb)
    exact Solo.setTask_ne _ _ hne
  refine (hord c).of_part ((hord c).exact.congr rfl ?_ rfl rfl) rfl ?_
  · intro b hb
    rw [hold b hb]
  · intro b hb
    exact ⟨b, hb, by rw [hold b hb], by rw [hold b hb]⟩

/-- **One move** keeps RR's data in agreement. -/
theorem RR.agree_step (hw : IntWindow info) (hk : info.kind = .rr) (hK : s.Keeps info RR.Declared)
    (hord : RR.Agree s) (hp : Proposes RR.Declared s m) (h : soloStep s m = .ok (r, s')) : RR.Agree s' := by
  have hkl : info.kind.keepsList := by
    rw [hk]
    rfl
  have hkind : (s.plugin 0).kind = .rr := by rw [hK.info_eq, hk]
  cases m with
  | schedule a t =>
    obtain ⟨ha, -, hok⟩ := hp
    obtain ⟨h, -⟩ := schedule_move h
    obtain ⟨_, hP⟩ := Retif.schedule_placed h
    have hoff := hK.off_lists hkl ha
    unfold Retif.rtfPlgTaskSchedule at h
    rw [show ((s.setTask a t).plugin 0).kind = .rr from hkind] at h
    have hdl : (s'.plugin 0).dl = (s.plugin 0).dl := congrArg PluginInfo.dl hP.info
    unfold RR.Agree
    rw [hdl]
    refine RR.ordered_schedule (w := s.setTask a t) (a := a) ?_ (RR.agree_written hord hoff t) ?_ ?_ ?_ hP.info h
    · show IntWindow (s.plugin 0).toPluginInfo
      rw [hK.info_eq]
      exact hw
    · exact fun c => List.nodup_cons.mpr ⟨hoff c, hK.nodup_list hkl c⟩
    · intro c d b hb hb'
      rw [← ((hK.mem hkl).mp hb).2, ← ((hK.mem hkl).mp hb').2]
    · intro c b hb
      by_cases hba : b = a
      · rw [hba, Solo.setTask_self]
        exact (RR.declared_toNat hok).1
      · rw [Solo.setTask_ne _ _ hba]
        have hb := (List.mem_cons.mp hb).resolve_left hba
        exact (RR.declared_toNat (hK.params b ((hK.mem hkl).mp hb).1)).1
  | release a =>
    have hperm := Solo.left_perm hK hkl hp h
    obtain ⟨h, -⟩ := release_move h
    have hR := Retif.release_released h
    have hdl : (s'.plugin 0).dl = (s.plugin 0).dl := congrArg PluginInfo.dl hR.info
    unfold Retif.rtfPlgTaskRelease at h
    rw [hkind] at h
    unfold RR.Agree
    rw [hdl]
    exact RR.ordered_release hord hkind hperm h

/-- With an entry for every core of the plugin, scheduling returns. -/
theorem RR.schedule_returns {w : World} {i : ℕ} {a : Addr} (hne : (w.plugin i).cpulist ≠ [])
    (hroom : ∀ c ∈ (w.plugin i).cpulist, (w.plugin i).InTable c ∧ c < MAX_CPU)
    (hp : (w.heap a).params.priority.toNat < MAX_PRIO) (hnext : ∀ c, RR.NextFound w i a c) :
    ∃ w', RR.rtfPlgTaskSchedule w i a = .ok w' := by
  refine bind_returns (leastLoaded_returns hne fun c hc => (hroom c hc).1) fun c hc => ?_
  obtain ⟨hmem, htab⟩ := leastLoaded_mem hc
  have hpar : (w.assign i a c a).params = (w.heap a).params := assign_params w i a c a
  refine bind_returns ⟨(), checkPrio_ok.mpr ⟨(hroom c hmem).2, ?_⟩⟩ fun _ _ => ?_
  · show (w.assign i a c a).params.priority.toNat < MAX_PRIO
    rw [hpar]
    exact hp
  refine bind_returns ⟨_, read_ok.mpr ⟨htab, rfl⟩⟩ fun ts hts => ?_
  obtain ⟨-, rfl⟩ := read_ok.mp hts
  refine bind_returns ?_ fun sh hsh => ?_
  · unfold RR.rank
    split
    · exact ⟨_, rfl⟩
    · rename_i hone
      -- the counter is not 1, so the node is there
      change ¬ ((w.statics (w.plugin i).dl).addPerPrio c (w.assign i a c a).params.priority 1).nPerPrio c
        (w.assign i a c a).params.priority.toNat = 1 at hone
      rw [hpar] at hone
      obtain ⟨next, rest, hbehind, -⟩ := hnext c hone
      change (rtfTasksetAddSortedPrio (w.assign i a c) ((w.plugin i).tasks c) a).2 = next :: rest at hbehind
      unfold World.assign at hbehind
      rw [hbehind]
      exact ⟨_, rfl⟩
  · obtain ⟨st, heap⟩ := sh
    have hcpu : (heap a).cpu = c := by
      rw [(RR.rank_frame hsh).1 a, Function.update_self]
    refine bind_returns (addCount_returns ?_ _) fun _ _ => ⟨_, rfl⟩
    show (w.plugin i).InTable (heap a).cpu
    rw [hcpu]
    exact htab

/-- With an entry for every core of the plugin, every move returns. -/
theorem RR.move_returns (hk : info.kind = .rr) (hK : s.Keeps info RR.Declared) (hord : RR.Agree s)
    (hne : info.cpulist ≠ []) (hroom : ∀ c ∈ info.cpulist, info.InTable c ∧ c < MAX_CPU)
    (hp : Proposes RR.Declared s m) : ∃ r s', soloStep s m = .ok (r, s') := by
  have hkl : info.kind.keepsList := by
    rw [hk]
    rfl
  have hkind : (s.plugin 0).kind = .rr := by rw [hK.info_eq, hk]
  have hmax : MAX_PRIO = 100 := rfl
  cases m with
  | schedule a t =>
    obtain ⟨ha, -, hok⟩ := hp
    have hoff := hK.off_lists hkl ha
    have hprio := (RR.declared_toNat hok).2
    rw [← hK.info_eq] at hne hroom
    obtain ⟨w, hw⟩ : ∃ w, RR.rtfPlgTaskSchedule (s.setTask a t) 0 a = .ok w := by
      refine RR.schedule_returns hne hroom ?_ fun c => RR.next_found (RR.agree_written hord hoff t c).exact
      rw [Solo.setTask_self]
      omega
    refine ⟨.ok, ⟨w, a :: s.held⟩, bind_ok.mpr ⟨w, ?_, rfl⟩⟩
    unfold Retif.rtfPlgTaskSchedule
    rw [show ((s.setTask a t).plugin 0).kind = .rr from hkind]
    exact hw
  | release a =>
    obtain ⟨htab, hcore⟩ := hroom _ (hK.home a hp)
    have hprio := (RR.declared_toNat (hK.params a hp)).2
    obtain ⟨r, w, hw⟩ : ∃ r w, Retif.rtfPlgTaskRelease s.toWorld 0 a = .ok (r, w) := by
      refine Retif.release_returns ?_ ⟨fun _ => hcore, fun _ => by omega⟩
      rw [hK.info_eq]
      exact htab
    exact ⟨r, ⟨w, s.held.erase a⟩, bind_ok.mpr ⟨(r, w), hw, rfl⟩⟩

variable {alloc : ℕ → Option ℕ} {conf : ConfPlugin} {d : ℕ} {heap : Heap} {k : Kernel}

/-- **RR by itself.** In every state of every run of moves its data agree on every core;
the node that schedule reads is there, with the declared priority of the new task; and
if the tables have an entry for each of its cores, every move returns. -/
theorem round_robin_run (hmin : 1 ≤ conf.priorityMin) (hle : conf.priorityMin ≤ conf.priorityMax)
    (hmax : conf.priorityMax < 2 ^ 31)
    (hrun : Reach soloStep (Proposes RR.Declared) (Solo.start alloc conf ⟨.rr, d⟩ heap k) s) :
    RR.Agree s ∧
      (∀ a t, Proposes RR.Declared s (.schedule a t) → ∀ c, RR.NextFound (s.setTask a t) 0 a c) ∧
      ((s.plugin 0).cpulist ≠ [] → (∀ c ∈ (s.plugin 0).cpulist, (s.plugin 0).InTable c ∧ c < MAX_CPU) →
        ∀ m, Proposes RR.Declared s m → ∃ r s', soloStep s m = .ok (r, s')) := by
  have hI : s.Keeps (initPlugin alloc 0 conf ⟨.rr, d⟩).toPluginInfo RR.Declared ∧ RR.Agree s := by
    refine hrun.inv
      (I := fun s => s.Keeps (initPlugin alloc 0 conf ⟨.rr, d⟩).toPluginInfo RR.Declared ∧ RR.Agree s) ?_ ?_
    · refine ⟨Solo.keeps_start .., fun c => .of_order ⟨List.Pairwise.nil, ?_, fun p => rfl, rfl⟩ ?_ ?_⟩
      · intro x hx
        exact absurd hx List.not_mem_nil
      · intro a ha
        exact absurd ha List.not_mem_nil
      · intro a ha
        exact absurd ha List.not_mem_nil
    · rintro s m r s' ⟨hK, hord⟩ hp h
      exact ⟨Solo.keeps_step rfl hK hp h, RR.agree_step ⟨hmin, hle, hmax⟩ rfl hK hord hp h⟩
  obtain ⟨hK, hord⟩ := hI
  refine ⟨hord, ?_, ?_⟩
  · intro a t hp c
    exact RR.next_found (RR.agree_written hord (hK.off_lists rfl hp.1) t c).exact
  · intro hne hroom m hp
    rw [hK.info_eq] at hne hroom
    exact RR.move_returns rfl hK hord hne hroom hp

end Runs

namespace RoundRobinExample

/-- RR on core 0, with two priorities. -/
def conf : ConfPlugin := ⟨"RR".toUTF8.toList, [3], 10, 11, [0]⟩

def start : Solo := Solo.start asMaps conf ⟨.rr, 3⟩ (fun _ => Task.zero) BooksExample.kernel

/-- A task with the given id and declared priority. -/
def task (id priority : UInt32) : Task :=
  { Task.zero with id := id, params := { Params.zero with priority := priority } }

/-- The third priority is one more than the window has. -/
def moves : List Move :=
  [.schedule 0 (task 1 5), .schedule 1 (task 2 70), .schedule 2 (task 3 5), .schedule 3 (task 4 99), .release 0,
    .schedule 0 (task 5 70)]

end RoundRobinExample

open RoundRobinExample in
/-- Five tasks that come, one that goes. -/
theorem round_robin_five : ∃ s, runGood soloStep (Proposes RR.Declared) moves start = some s ∧
    (RR.Agree s ∧
      (∀ a t, Proposes RR.Declared s (.schedule a t) → ∀ c, RR.NextFound (s.setTask a t) 0 a c) ∧
      ((s.plugin 0).cpulist ≠ [] → (∀ c ∈ (s.plugin 0).cpulist, (s.plugin 0).InTable c ∧ c < MAX_CPU) →
        ∀ m, Proposes RR.Declared s m → ∃ r s', soloStep s m = .ok (r, s'))) := by
  have hsome : (runGood soloStep (Proposes RR.Declared) moves start).isSome := by decide +kernel
  obtain ⟨s, hs⟩ := Option.isSome_iff_exists.mp hsome
  exact ⟨s, hs, round_robin_run (by decide) (by decide) (by decide) (reach_runGood hs)⟩

end Retif
