/-
# What an admission depends on

The plugins decide on counters that every create, change and release since
the start has added to or taken from. Where the books are kept
(`KeepsPlugin`), the decision is the one a scheduler would come to that keeps
nothing but the tasks themselves: `judge` looks at what the tasks that are
there now were granted, and at the request. So the answer of a create, and the
plugin that gets the task, are those of `judge` in every run, whatever came and
went before.

Key definitions: `Spare`, `judge`, `Judged`.
Key theorems: `accept_judge`, `create_judged`, `judged_run`.
-/
import Retif.Selection

namespace Retif

open CList

/-- Some core of plugin `i` has `u` left, by what its tasks were granted. -/
def Spare (s : Sched) (i : ℕ) (u : ℚ) : Prop :=
  ∃ c ∈ (s.plugin i).cpulist, u ≤ 1 - granted s.heap (placed s.heap s.taskset.root i c)

instance (s : Sched) (i : ℕ) (u : ℚ) : Decidable (Spare s i u) := by unfold Spare; infer_instance

/-- The answer of plugin `i` to `t`, from the tasks that are there. -/
def judge (s : Sched) (t : Task) (i : ℕ) : Res :=
  match (s.plugin i).kind with
  | .edf =>
    if rtfTaskGetIgnoreAdmission t ≠ 0 ∨ rtfTaskGetPeriod t = 0 ∨ rtfTaskGetUtil t = -1 then .no
    else if rtfTaskGetDesUtil t = -1 then
      demote (s.plugin i) t (if Spare s i (rtfTaskGetUtil t) then .ok else .no)
    else
      demote (s.plugin i) t
        (if Spare s i (rtfTaskGetDesUtil t) then .ok else if Spare s i (rtfTaskGetUtil t) then .part else .no)
  | .rm =>
    if rtfTaskGetPeriod t = 0 then .no
    else if rtfTaskGetIgnoreAdmission t ≠ 0 then demote (s.plugin i) t .ok
    else demote (s.plugin i) t (if Spare s i (rtfTaskGetUtil t) then .ok else .no)
  | .rr | .fp => acceptAnyway (s.plugin i) t

/-- The question, put to `judge`. -/
def askJudge (s : Sched) (t : Task) (w : World) (i : ℕ) : Except Fault (Res × World) := .ok (judge s t i, w)

/-- A create that ends in `s'` with the answer `r` is what the answers of
`judge` make of it: refused, or on top of the taskset with the plugin chosen. -/
def Judged (s : Sched) (tp : Params) (ppid : Pid) (r : Res) (s' : Sched) : Prop :=
  ∃ chosen, Choice (fun i => .ok (judge s (newTask s.nextId ppid tp) i)) s.numOfPlugins chosen ∧
    match chosen with
    | none => r = .no ∧ s'.taskset.root = s.taskset.root
    | some (i, best) => r = best ∧ s'.taskset.root = s.next :: s.taskset.root ∧ (s'.heap s.next).pluginid = i

section Judge

variable {s s' : Sched} {t : Task} {i : ℕ} {r : Res}

/-- What the counters have left is what the tasks have left. -/
theorem fits_iff_spare (hT : Tallied s) (hi : i < s.numOfPlugins) (hk : (s.plugin i).kind.keepsUtil) (u : ℚ) :
    Fits (s.plugin i) u ↔ Spare s i u := by
  unfold Fits Spare
  refine exists_congr fun c => and_congr_right fun _ => ?_
  rw [hT.tallies.util i hi hk c]

theorem EDF.accept_judge (hT : Tallied s) (hi : i < s.numOfPlugins) (hk : (s.plugin i).kind = .edf)
    (h : EDF.rtfPlgTaskAccept (s.plugin i) t = .ok r) : r = judge s t i := by
  have hspare := fun u => fits_iff_spare hT hi (by rw [hk]; rfl) u
  unfold judge
  rw [hk]
  unfold EDF.rtfPlgTaskAccept at h
  dsimp only
  by_cases hout : rtfTaskGetIgnoreAdmission t ≠ 0 ∨ rtfTaskGetPeriod t = 0 ∨ rtfTaskGetUtil t = -1
  · rw [if_pos hout]
    split_ifs at h with h1 h2 h3
    · exact (Except.ok.inj h).symm
    · exact (Except.ok.inj h).symm
    · exact (Except.ok.inj h).symm
    · exact absurd hout (by simp [h1, h2, h3])
  · rw [if_neg hout]
    push Not at hout
    obtain ⟨h1, h2, h3⟩ := hout
    rw [if_neg (not_not.mpr h1), if_neg h2, if_neg h3] at h
    obtain ⟨res, hadm, h⟩ := bind_ok.mp h
    obtain rfl := Except.ok.inj h
    unfold EDF.admission at hadm
    by_cases hdes : rtfTaskGetDesUtil t = -1
    · rw [if_pos hdes] at hadm ⊢
      rw [utilizationTest_ok hadm, if_congr (hspare _) rfl rfl]
    · rw [if_neg hdes] at hadm ⊢
      rw [desiredUtilizationTest_ok hadm, if_congr (hspare _) rfl (if_congr (hspare _) rfl rfl)]

theorem RM.accept_judge (hT : Tallied s) (hi : i < s.numOfPlugins) (hk : (s.plugin i).kind = .rm)
    (h : RM.rtfPlgTaskAccept (s.plugin i) t = .ok r) : r = judge s t i := by
  have hspare := fun u => fits_iff_spare hT hi (by rw [hk]; rfl) u
  unfold judge
  rw [hk]
  unfold RM.rtfPlgTaskAccept at h
  dsimp only
  by_cases h1 : rtfTaskGetPeriod t = 0
  · rw [if_pos h1] at h ⊢
    exact (Except.ok.inj h).symm
  rw [if_neg h1] at h ⊢
  by_cases h2 : rtfTaskGetIgnoreAdmission t ≠ 0
  · rw [if_pos h2] at h ⊢
    exact (Except.ok.inj h).symm
  · rw [if_neg h2] at h ⊢
    obtain ⟨res, htest, h⟩ := bind_ok.mp h
    obtain rfl := Except.ok.inj h
    rw [utilizationTest_ok htest, if_congr (hspare _) rfl rfl]

/-- **A plugin answers what `judge` says**, where its books are kept. -/
theorem accept_judge (hT : Tallied s) (hi : i < s.numOfPlugins) (h : rtfPlgTaskAccept (s.plugin i) t = .ok r) :
    r = judge s t i := by
  unfold rtfPlgTaskAccept at h
  rcases hk : (s.plugin i).kind with _ | _ | _ | _ <;> rw [hk] at h
  · exact EDF.accept_judge hT hi hk h
  · exact RM.accept_judge hT hi hk h
  · unfold judge
    rw [hk]
    exact (Except.ok.inj h).symm
  · unfold judge
    rw [hk]
    exact (Except.ok.inj h).symm

end Judge

/-! ### The search -/

section Search

variable {ask ask' : World → ℕ → Except Fault (Res × World)} {w w' : World}

/-- The first pass goes the same way with plugins that answer the same where they are asked. -/
theorem firstPass_same (hask : Asks ask) {is : List ℕ} {found : Option ℕ} {results : List (ℕ × Res)}
    (hsame : ∀ i ∈ is, ∀ q, ask w i = .ok q → ask' w i = .ok q) (h : firstPass ask is w = .ok (found, results, w')) :
    firstPass ask' is w = .ok (found, results, w') := by
  induction is generalizing w' found results with
  | nil => exact h
  | cons k is ih =>
    obtain ⟨⟨r, w1⟩, hr, hrest⟩ := bind_ok.mp h
    obtain rfl := hask _ _ _ _ hr
    refine bind_ok.mpr ⟨(r, w1), hsame k (List.mem_cons_self ..) _ hr, ?_⟩
    dsimp only at hrest ⊢
    split at hrest
    · rename_i hok
      rw [if_pos hok]
      exact hrest
    · rename_i hok
      rw [if_neg hok]
      obtain ⟨⟨found', results', w2⟩, hf, hlast⟩ := bind_ok.mp hrest
      have hmore := ih (fun i hi => hsame i (List.mem_cons_of_mem k hi)) hf
      exact bind_ok.mpr ⟨_, hmore, hlast⟩

theorem selectPlugin_same (hask : Asks ask) {n : ℕ} {chosen : Option (ℕ × Res)}
    (hsame : ∀ i < n, ∀ q, ask w i = .ok q → ask' w i = .ok q) (h : selectPlugin ask n w = .ok (chosen, w')) :
    selectPlugin ask' n w = .ok (chosen, w') := by
  obtain ⟨⟨found, results, w1⟩, hf, hrest⟩ := bind_ok.mp h
  obtain ⟨rfl, -⟩ := firstPass_ok hask hf
  have hpass := firstPass_same hask (fun i hi => hsame i (List.mem_range.mp hi)) hf
  exact bind_ok.mpr ⟨_, hpass, hrest⟩

end Search

/-! ### The create -/

section Create

variable {s s' : Sched} {tp : Params} {ppid : Pid} {r : Res}

/-- **A create is answered as the tasks that are there have it.** -/
theorem create_judged (hT : Tallied s) (h : rtfSchedulerTaskCreate s tp ppid = .ok (r, s')) :
    Judged s tp ppid r s' := by
  obtain ⟨⟨chosen, w⟩, hsel, hrest⟩ := bind_ok.mp h
  obtain ⟨rfl, hin⟩ := selectPlugin_ok (askAccept_asks s.next) hsel
  -- the answers of `judge` lead both passes the same way
  have hsame : ∀ i < s.numOfPlugins, ∀ q, askAccept s.next (s.alloc tp ppid).toWorld i = .ok q →
      askJudge s (newTask s.nextId ppid tp) (s.alloc tp ppid).toWorld i = .ok q := by
    intro i hi q hq
    obtain ⟨res, hres, hq⟩ := bind_ok.mp hq
    have hself := s.alloc_self tp ppid
    change rtfPlgTaskAccept (s.plugin i) ((s.alloc tp ppid).heap s.next) = .ok res at hres
    rw [hself] at hres
    unfold askJudge
    rw [← accept_judge hT hi hres]
    exact hq
  have hjudge := @selectPlugin_same _ (askJudge s (newTask s.nextId ppid tp)) _ _ (askAccept_asks s.next) _ _ hsame hsel
  have hasks : Asks (askJudge s (newTask s.nextId ppid tp)) := by
    intro w i r w' heq
    exact (Prod.mk.inj (Except.ok.inj heq)).2.symm
  refine ⟨chosen, selectPlugin_choice hasks hjudge, ?_⟩
  rcases chosen with _ | ⟨i, best⟩
  · simp only [Except.ok.injEq, Prod.mk.injEq] at hrest
    obtain ⟨rfl, rfl⟩ := hrest
    exact ⟨rfl, rfl⟩
  · obtain ⟨w1, hw1, hrest⟩ := bind_ok.mp hrest
    simp only [Except.ok.injEq, Prod.mk.injEq] at hrest
    obtain ⟨rfl, rfl⟩ := hrest
    obtain ⟨c, hP⟩ := schedule_placed hw1
    refine ⟨rfl, rfl, ?_⟩
    show (w1.heap s.next).pluginid = i
    rw [hP.task]
    exact hT.sane.ids i (hin i best rfl).1

end Create

/-! ### Runs -/

/-- **Nothing that came and went counts**: in every run in which a task that is
changed stays with its plugin, a create is answered, and its task placed, by
what the tasks that are there were granted. -/
theorem judged_run {alloc : ℕ → Option ℕ} {load : List UInt8 → Option Image} {confs : List ConfPlugin}
    {plgs : List Plugin} {k : Kernel} {s s' : Sched} {tp : Params} {ppid : Pid} {r : Res}
    (hinit : rtfPluginsInit alloc load confs = some plgs) (hrun : Reach step KeepsPlugin (Sched.start plgs k) s)
    (h : step s (.create tp ppid) = .ok (r, s')) : Judged s tp ppid r s' := by
  have hT : Tallied s := by
    refine hrun.inv (I := Tallied) (tallied_start hinit k) ?_
    intro s o r s' hT hg hs
    exact tallied_step hT hg hs
  exact create_judged hT h

/-! ### A create after a destroy -/

namespace JudgedExample

open BooksExample

/-- Two tasks come, one goes. -/
def ops : List Op := [.create (params 50) 1, .create (params 60) 1, .destroy 1]

end JudgedExample

open JudgedExample BooksExample

theorem judged_oneLeft : ∃ s s', runGood step KeepsPlugin ops BooksExample.start = some s ∧
    step s (.create (params 50) 1) = .ok (.ok, s') ∧ Judged s (params 50) 1 .ok s' := by
  have hend : (runGood step KeepsPlugin ops BooksExample.start).any (fun s =>
      (step s (.create (params 50) 1)).toOption.any fun q => q.1 = .ok) = true := by decide +kernel
  obtain ⟨s, hs, hv⟩ := (Option.any_eq_true _ _).mp hend
  obtain ⟨⟨r, s'⟩, hq, hr⟩ := (Option.any_eq_true _ _).mp hv
  obtain rfl : r = .ok := of_decide_eq_true hr
  have hstep := toOption_ok hq
  exact ⟨s, s', hs, hstep, judged_run init_plgs (reach_runGood hs) hstep⟩

end Retif
