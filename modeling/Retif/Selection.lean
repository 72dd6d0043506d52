/-
# Which plugin gets a new task

`test_and_assign` asks the plugins in the order of the table until one answers
`RTF_OK`; if none does, it goes over the answers again for the first
`RTF_PARTIAL`. `Choice` says what that search is for: the first plugin with the
best answer anyone gave. A plugin whose name is not the one the request asks
for never answers `RTF_OK`, on any branch of any of the four `accept`
functions (`accept_ok_named`), so the plugin that is asked for gets the task if
it answers `RTF_OK`.

Key definitions: `Choice`, `Assigned`.
Key theorems: `selectPlugin_choice`, `accept_ok_named`, `selection_run`.
-/
import Retif.Rejected
import Retif.Placement

namespace Retif

open CList

/-! ### The search -/

/-- The best answer of the plugins below `n`, and the first that gave it. -/
inductive Choice (answer : ℕ → Except Fault Res) (n : ℕ) : Option (ℕ × Res) → Prop
  | ok {i : ℕ} : i < n → answer i = .ok .ok → (∀ j < i, answer j ≠ .ok .ok) → Choice answer n (some (i, .ok))
  | part {i : ℕ} : i < n → answer i = .ok .part → (∀ j < i, answer j ≠ .ok .part) →
      (∀ j < n, answer j ≠ .ok .ok) → Choice answer n (some (i, .part))
  | none : (∀ j < n, answer j = .ok .no) → Choice answer n none

/-- The first pass stops at the first `RTF_OK` of an ascending list; without one
it has the answers of the whole list, in its order. -/
theorem firstPass_first {ask : World → ℕ → Except Fault (Res × World)} (hask : Asks ask) {w w' : World}
    {is : List ℕ} {found : Option ℕ} {results : List (ℕ × Res)} (hs : is.Pairwise (· < ·))
    (h : firstPass ask is w = .ok (found, results, w')) :
    (∀ i ∈ found, ∀ j ∈ is, j < i → ∃ r, ask w j = .ok (r, w) ∧ r ≠ .ok) ∧
      (found = none → results.map Prod.fst = is ∧ ∀ q ∈ results, q.2 ≠ .ok) := by
  induction is generalizing w' found results with
  | nil =>
    simp only [firstPass, Except.ok.injEq, Prod.mk.injEq] at h
    obtain ⟨rfl, rfl, -⟩ := h
    simp
  | cons k is ih =>
    obtain ⟨hk, hs⟩ := List.pairwise_cons.mp hs
    obtain ⟨⟨r, w1⟩, hr, hrest⟩ := bind_ok.mp h
    obtain rfl := hask _ _ _ _ hr
    dsimp only at hrest
    split at hrest
    · -- the first of the list: nothing is below it
      simp only [Except.ok.injEq, Prod.mk.injEq] at hrest
      obtain ⟨rfl, rfl, -⟩ := hrest
      refine ⟨?_, by simp⟩
      intro i hi j hj hji
      obtain rfl : k = i := by simpa using hi
      rcases List.mem_cons.mp hj with rfl | hj
      · exact absurd hji (lt_irrefl _)
      · exact absurd hji (hk j hj).le.not_gt
    · rename_i hne
      obtain ⟨⟨found', results', w2⟩, hf, hrest⟩ := bind_ok.mp hrest
      simp only [Except.ok.injEq, Prod.mk.injEq] at hrest
      obtain ⟨rfl, rfl, -⟩ := hrest
      obtain ⟨ih1, ih2⟩ := ih hs hf
      refine ⟨?_, ?_⟩
      · intro i hi j hj hji
        rcases List.mem_cons.mp hj with rfl | hj
        · exact ⟨r, hr, hne⟩
        · exact ih1 i hi j hj hji
      · intro hn
        obtain ⟨h1, h2⟩ := ih2 hn
        refine ⟨by simp [h1], ?_⟩
        intro q hq
        rcases List.mem_cons.mp hq with rfl | hq
        · exact hne
        · exact h2 q hq

/-- The first match in a list that ascends: what is below it does not match. -/
theorem find_first {results : List (ℕ × Res)} {p : ℕ × Res → Bool} {q : ℕ × Res}
    (hs : (results.map Prod.fst).Pairwise (· < ·)) (hf : results.find? p = some q) :
    ∀ q' ∈ results, q'.1 < q.1 → p q' = false := by
  induction results with
  | nil => simp at hf
  | cons x results ih =>
    simp only [List.map_cons, List.pairwise_cons, List.mem_map, forall_exists_index, and_imp,
      forall_apply_eq_imp_iff₂] at hs
    by_cases hx : p x = true
    · simp only [List.find?_cons_of_pos hx, Option.some.injEq] at hf
      subst hf
      intro q' hq' hlt
      rcases List.mem_cons.mp hq' with rfl | hq'
      · exact absurd hlt (lt_irrefl _)
      · exact absurd hlt (hs.1 q' hq').le.not_gt
    · rw [List.find?_cons_of_neg hx] at hf
      intro q' hq' hlt
      rcases List.mem_cons.mp hq' with rfl | hq'
      · simpa using hx
      · exact ih hs.2 hf q' hq' hlt

/-- What a plugin answers, when the question changes nothing. -/
def answers (ask : World → ℕ → Except Fault (Res × World)) (w : World) (i : ℕ) : Except Fault Res :=
  (ask w i).map Prod.fst

theorem answers_eq {ask : World → ℕ → Except Fault (Res × World)} {w w' : World} {i : ℕ} {r : Res}
    (h : ask w i = .ok (r, w')) : answers ask w i = .ok r := by
  simp [answers, h, Except.map]

/-- **The two passes** find the first plugin with the best answer. -/
theorem selectPlugin_choice {ask : World → ℕ → Except Fault (Res × World)} (hask : Asks ask) {n : ℕ}
    {w w' : World} {chosen : Option (ℕ × Res)} (h : selectPlugin ask n w = .ok (chosen, w')) :
    Choice (answers ask w) n chosen := by
  obtain ⟨⟨found, results, w1⟩, hf, hrest⟩ := bind_ok.mp h
  obtain ⟨rfl, h1, h2, -⟩ := firstPass_ok hask hf
  obtain ⟨h3, h4⟩ := firstPass_first hask List.pairwise_lt_range hf
  dsimp only at hrest
  split at hrest
  · rename_i i
    simp only [Except.ok.injEq, Prod.mk.injEq] at hrest
    obtain ⟨rfl, -⟩ := hrest
    obtain ⟨hi, ha⟩ := h1 i rfl
    rw [List.mem_range] at hi
    apply Choice.ok hi (answers_eq ha)
    intro j hj
    obtain ⟨r, hr, hne⟩ := h3 i rfl j (List.mem_range.mpr (hj.trans hi)) hj
    rw [answers_eq hr]
    simpa using hne
  · obtain ⟨hall, hnok⟩ := h4 rfl
    -- every plugin has its answer in the list
    have hans : ∀ j < n, ∃ r, (j, r) ∈ results ∧ answers ask w1 j = .ok r ∧ r ≠ .ok := by
      intro j hj
      have hm : j ∈ results.map Prod.fst := by rw [hall]; exact List.mem_range.mpr hj
      obtain ⟨⟨k, r⟩, hq, rfl⟩ := List.mem_map.mp hm
      exact ⟨r, hq, answers_eq (h2 _ hq).2, hnok _ hq⟩
    simp only [Except.ok.injEq, Prod.mk.injEq] at hrest
    obtain ⟨hfind, -⟩ := hrest
    rcases chosen with _ | ⟨i, r⟩
    · apply Choice.none
      intro j hj
      obtain ⟨r, hm, ha, hne⟩ := hans j hj
      have hnp := List.find?_eq_none.mp hfind _ hm
      rw [ha]
      rcases r with _ | _ | _
      · exact absurd rfl hne
      · simp at hnp
      · rfl
    · obtain rfl : r = .part := by simpa using List.find?_some hfind
      obtain ⟨hi, ha⟩ := h2 _ (List.mem_of_find?_eq_some hfind)
      rw [List.mem_range] at hi
      have hsorted : (results.map Prod.fst).Pairwise (· < ·) := by rw [hall]; exact List.pairwise_lt_range
      apply Choice.part hi (answers_eq ha)
      · intro j hj
        obtain ⟨r, hm, haj, -⟩ := hans j (hj.trans hi)
        have hnp := find_first hsorted hfind _ hm hj
        rw [haj]
        simpa using hnp
      · intro j hj
        obtain ⟨r, -, haj, hne⟩ := hans j hj
        rw [haj]
        simpa using hne

/-! ### The plugin a request names -/

/-- Without a wish for another plugin, or without `RTF_OK`. -/
theorem demote_ok {this : Plugin} {t : Task} {r : Res} (h : demote this t r = .ok) :
    hasAnotherPreference this t = false := by
  unfold demote at h
  by_cases hp : hasAnotherPreference this t = true
  · by_cases hr : r = .ok
    · simp [hp, hr] at h
    · simp [hr] at h
  · simpa using hp

/-- **`RTF_OK` comes from the plugin that is asked for**, or for none. -/
theorem accept_ok_named {this : Plugin} {t : Task} (h : rtfPlgTaskAccept this t = .ok .ok) :
    hasAnotherPreference this t = false := by
  have hanyway : acceptAnyway this t = .ok → hasAnotherPreference this t = false := by
    intro h
    unfold acceptAnyway at h
    by_cases hp : hasAnotherPreference this t = true
    · rw [if_pos hp] at h
      split at h <;> simp at h
    · simpa using hp
  unfold rtfPlgTaskAccept at h
  split at h
  · unfold EDF.rtfPlgTaskAccept at h
    split at h
    · simp at h
    split at h
    · simp at h
    split at h
    · simp at h
    obtain ⟨r, -, h⟩ := bind_ok.mp h
    exact demote_ok (Except.ok.inj h)
  · unfold RM.rtfPlgTaskAccept at h
    split at h
    · simp at h
    split at h
    · exact demote_ok (Except.ok.inj h)
    obtain ⟨r, -, h⟩ := bind_ok.mp h
    exact demote_ok (Except.ok.inj h)
  · exact hanyway (Except.ok.inj h)
  · exact hanyway (Except.ok.inj h)

theorem preferred_eq {this : Plugin} {t : Task} {name : List UInt8} (h : hasAnotherPreference this t = false)
    (hname : rtfTaskGetPreferredPlugin t = some name) : cstr this.name = name := by
  unfold hasAnotherPreference at h
  rw [hname] at h
  simpa using h

/-! ### The create -/

/-- What plugin `i` answers to the task a create makes. -/
def Sched.answer (s : Sched) (tp : Params) (ppid : Pid) (i : ℕ) : Except Fault Res :=
  rtfPlgTaskAccept (s.plugin i) (newTask s.nextId ppid tp)

/-- The new task is on top of the taskset, where plugin `i` has put it. -/
structure PlacedBy (s : Sched) (tp : Params) (ppid : Pid) (i : ℕ) (s' : Sched) : Prop where
  root : s'.taskset.root = s.next :: s.taskset.root
  scheduled : rtfPlgTaskSchedule (s.alloc tp ppid).toWorld i s.next = .ok s'.toWorld
  record : (s'.heap s.next).id = s.nextId ∧ (s'.heap s.next).ptid = ppid ∧ (s'.heap s.next).params = tp
  plugin : (s'.heap s.next).pluginid = i
  core : (s'.heap s.next).cpu ∈ (s.plugin i).cpulist

/-- The answer of a create, and the plugin that got the task. -/
structure Assigned (s : Sched) (tp : Params) (ppid : Pid) (r : Res) (s' : Sched) : Prop where
  /-- some plugin says `RTF_OK`: the first such has the task -/
  ok_iff : r = .ok ↔ ∃ i < s.numOfPlugins, s.answer tp ppid i = .ok .ok
  ok : r = .ok → ∃ i < s.numOfPlugins, s.answer tp ppid i = .ok .ok ∧
    (∀ j < i, s.answer tp ppid j ≠ .ok .ok) ∧ PlacedBy s tp ppid i s'
  /-- none does, some plugin says `RTF_PARTIAL`: the first such has it -/
  part_iff : r = .part ↔ (¬ ∃ i < s.numOfPlugins, s.answer tp ppid i = .ok .ok) ∧
    ∃ i < s.numOfPlugins, s.answer tp ppid i = .ok .part
  part : r = .part → ∃ i < s.numOfPlugins, s.answer tp ppid i = .ok .part ∧
    (∀ j < i, s.answer tp ppid j ≠ .ok .part) ∧ PlacedBy s tp ppid i s'
  /-- all refuse, and nothing is placed -/
  no : r = .no → Untouched s s' ∧ ∀ i < s.numOfPlugins, s.answer tp ppid i = .ok .no
  /-- the plugin that is asked for has the task if it says `RTF_OK` -/
  preferred : ∀ P < s.numOfPlugins, rtfTaskGetPreferredPlugin (newTask s.nextId ppid tp) = some (cstr (s.plugin P).name) →
    s.answer tp ppid P = .ok .ok → PlacedBy s tp ppid P s'

section Create

variable {s s' : Sched} {tp : Params} {ppid : Pid} {r : Res}

theorem answers_askAccept (s : Sched) (tp : Params) (ppid : Pid) (i : ℕ) :
    answers (askAccept s.next) (s.alloc tp ppid).toWorld i = s.answer tp ppid i := by
  have hself := s.alloc_self tp ppid
  unfold answers askAccept Sched.answer
  rw [hself]
  show Except.map Prod.fst (rtfPlgTaskAccept (s.plugin i) _ >>= _) = _
  rcases rtfPlgTaskAccept (s.plugin i) (newTask s.nextId ppid tp) with e | r <;> rfl

/-- What a create does, by the choice it makes. -/
theorem create_choice (hS : Sane s) (h : rtfSchedulerTaskCreate s tp ppid = .ok (r, s')) :
    (r = .no ∧ Untouched s s' ∧ Choice (s.answer tp ppid) s.numOfPlugins none) ∨
      ∃ i, Choice (s.answer tp ppid) s.numOfPlugins (some (i, r)) ∧ PlacedBy s tp ppid i s' := by
  have hans : answers (askAccept s.next) (s.alloc tp ppid).toWorld = s.answer tp ppid :=
    funext (answers_askAccept s tp ppid)
  obtain ⟨⟨chosen, w⟩, hsel, hrest⟩ := bind_ok.mp h
  have hchoice := selectPlugin_choice (askAccept_asks s.next) hsel
  obtain ⟨rfl, hin⟩ := selectPlugin_ok (askAccept_asks s.next) hsel
  rw [hans] at hchoice
  rcases chosen with _ | ⟨i, res⟩
  · simp only [Except.ok.injEq, Prod.mk.injEq] at hrest
    obtain ⟨rfl, rfl⟩ := hrest
    exact .inl ⟨rfl, alloc_untouched hS, hchoice⟩
  · obtain ⟨w1, hw1, hrest⟩ := bind_ok.mp hrest
    simp only [Except.ok.injEq, Prod.mk.injEq] at hrest
    obtain ⟨rfl, rfl⟩ := hrest
    obtain ⟨c, hP⟩ := schedule_placed hw1
    have hself := s.alloc_self tp ppid
    refine .inr ⟨i, hchoice, rfl, hw1, ?_, ?_, ?_⟩
    · obtain ⟨h1, h2, -, h4⟩ := hP.task_eq s.next
      exact ⟨h1.trans (by rw [hself]; rfl), h2.trans (by rw [hself]; rfl), h4.trans (by rw [hself]; rfl)⟩
    · show (w1.heap s.next).pluginid = i
      rw [hP.task]
      exact hS.ids i (hin i res rfl).1
    · show (w1.heap s.next).cpu ∈ (s.plugin i).cpulist
      rw [hP.task]
      exact hP.mem

/-- The first plugin with `RTF_OK` is the one asked for, where names are distinct. -/
theorem choice_preferred {i P : ℕ} {name : List UInt8}
    (hnames : ∀ i < s.numOfPlugins, ∀ j < s.numOfPlugins, cstr (s.plugin i).name = cstr (s.plugin j).name → i = j)
    (hi : i < s.numOfPlugins) (hP : P < s.numOfPlugins) (hok : s.answer tp ppid i = .ok .ok)
    (hwish : rtfTaskGetPreferredPlugin (newTask s.nextId ppid tp) = some name)
    (hname : name = cstr (s.plugin P).name) : i = P := by
  apply hnames i hi P hP
  rw [preferred_eq (accept_ok_named hok) hwish, hname]

theorem create_assigned (hS : Sane s)
    (hnames : ∀ i < s.numOfPlugins, ∀ j < s.numOfPlugins, cstr (s.plugin i).name = cstr (s.plugin j).name → i = j)
    (h : rtfSchedulerTaskCreate s tp ppid = .ok (r, s')) : Assigned s tp ppid r s' := by
  rcases create_choice hS h with ⟨rfl, hun, hno⟩ | ⟨i, hchoice, hby⟩
  · rcases hno with _ | _ | hall
    have hnok : ¬ ∃ i < s.numOfPlugins, s.answer tp ppid i = .ok .ok := by
      rintro ⟨i, hi, hok⟩
      simp [hall i hi] at hok
    have hnpart : ¬ ∃ i < s.numOfPlugins, s.answer tp ppid i = .ok .part := by
      rintro ⟨i, hi, hok⟩
      simp [hall i hi] at hok
    refine ⟨by simpa using hnok, by simp, by simpa using fun _ => hnpart, by simp, fun _ => ⟨hun, hall⟩, ?_⟩
    intro P hP _ hok
    exact absurd ⟨P, hP, hok⟩ hnok
  · rcases hchoice with ⟨hi, hok, hfirst⟩ | ⟨hi, hpart, hfirst, hnone⟩
    · have hsome : ∃ i < s.numOfPlugins, s.answer tp ppid i = .ok .ok := ⟨i, hi, hok⟩
      refine ⟨by simpa using hsome, fun _ => ⟨i, hi, hok, hfirst, hby⟩, ?_, by simp, by simp, ?_⟩
      · simp only [reduceCtorEq, false_iff, not_and]
        exact fun hn => absurd hsome hn
      · intro P hP hwish _
        obtain rfl := choice_preferred hnames hi hP hok hwish rfl
        exact hby
    · have hnok : ¬ ∃ i < s.numOfPlugins, s.answer tp ppid i = .ok .ok := by
        rintro ⟨j, hj, hok⟩
        exact hnone j hj hok
      refine ⟨by simpa using hnok, by simp, ?_, fun _ => ⟨i, hi, hpart, hfirst, hby⟩, by simp, ?_⟩
      · simpa [hnok] using ⟨i, hi, hpart⟩
      · intro P hP _ hok
        exact absurd ⟨P, hP, hok⟩ hnok

end Create

/-! ### Runs -/

/-- The plugins of the table have distinct names, as C strings. -/
def DistinctNames (confs : List ConfPlugin) : Prop := (confs.map fun c => cstr c.name).Nodup

/-- Configured names are the names of the plugins in every state of a run. -/
theorem distinctNames_run {alloc : ℕ → Option ℕ} {load : List UInt8 → Option Image} {confs : List ConfPlugin}
    {plgs : List Plugin} {k : Kernel} {s : Sched} (hinit : rtfPluginsInit alloc load confs = some plgs)
    (hd : DistinctNames confs) (hrun : Reach step (fun _ _ => True) (Sched.start plgs k) s) :
    ∀ i < s.numOfPlugins, ∀ j < s.numOfPlugins, cstr (s.plugin i).name = cstr (s.plugin j).name → i = j := by
  have hsame : SameConfig (Sched.start plgs k) s :=
    hrun.inv (SameConfig.refl _) fun _ _ _ _ hI _ hs => hI.trans (sameConfig_step hs)
  obtain ⟨hn, hinfo⟩ := hsame
  have hname : ∀ i < s.numOfPlugins, (confs.map fun c => cstr c.name)[i]? = some (cstr (s.plugin i).name) := by
    intro i hi
    rw [hn] at hi
    obtain ⟨c, img, hc, -, hp⟩ := start_plugin hinit k hi
    rw [hinfo i, hp, List.getElem?_map, hc]
    rfl
  intro i hi j hj he
  have hij := hname i hi
  rw [he, ← hname j hj] at hij
  have hlt : i < (confs.map fun c => cstr c.name).length := by
    by_contra hge
    have hnone := List.getElem?_eq_none (not_lt.mp hge)
    rw [hname i hi] at hnone
    simp at hnone
  exact (List.getElem?_inj hlt hd).mp hij

/-- **Plugin selection on create**, in every state of every run. -/
theorem selection_run {load : List UInt8 → Option Image} {confs : List ConfPlugin} {plgs : List Plugin}
    {k : Kernel} {s s' : Sched} {tp : Params} {ppid : Pid} {r : Res}
    (hinit : rtfPluginsInit asMaps load confs = some plgs) (hd : DistinctNames confs)
    (hrun : Reach step (fun _ _ => True) (Sched.start plgs k) s)
    (h : rtfSchedulerTaskCreate s tp ppid = .ok (r, s')) : Assigned s tp ppid r s' := by
  have hS : Sane s := hrun.inv (sane_start hinit k) fun _ _ _ _ hI _ hs => sane_step hI hs
  exact create_assigned hS (distinctNames_run hinit hd hrun) h

open BooksExample in
/-- EDF is full: the second task is for RM. -/
theorem selection_second : ∃ s s', runGood step (fun _ _ => True) [.create (params 100) 1] start = some s ∧
    rtfSchedulerTaskCreate s (params 50) 2 = .ok (.ok, s') ∧ Assigned s (params 50) 2 .ok s' := by
  have hsome : (runGood step (fun _ _ => True) [.create (params 100) 1] start).any (fun s =>
      (rtfSchedulerTaskCreate s (params 50) 2).toOption.any fun q => q.1 = .ok) = true := by decide +kernel
  obtain ⟨s, hs, hq⟩ := (Option.any_eq_true _ _).mp hsome
  obtain ⟨⟨r, s'⟩, hok, hr⟩ := (Option.any_eq_true _ _).mp hq
  obtain rfl : r = .ok := of_decide_eq_true hr
  have hcreate : rtfSchedulerTaskCreate s (params 50) 2 = .ok (.ok, s') := toOption_ok hok
  exact ⟨s, s', hs, hcreate, selection_run init_plgs (by unfold DistinctNames; decide +kernel) (reach_runGood hs) hcreate⟩

end Retif
