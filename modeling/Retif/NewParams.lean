/-
# Whether a change applies the new parameters

`rtf_scheduler_task_change` looks the task up and tests it again, with the
parameters it has: the ones of the request are never read. What the test is
asked about is right: the plugins answer as they would with the reservation of
the task taken out of the utilisations of its owner (`change_without`), and the
one chosen is the first with the best answer.

So a change does what it is for exactly when the request says nothing new, or
when the task would be refused with the old and with the new parameters
(`NothingNew`).

Key definitions: `Plugin.without`, `Sched.answerTo`, `Acceptable`, `Applies`,
`NothingNew`.
Key theorems: `change_without`, `modify_choice`,
`applies_iff`, `not_applies`.
-/
import Retif.Selection
import Retif.Change

namespace Retif

/-! ### The books without a task -/

/-- The utilisations of the plugin without those of the task, if it is the owner. -/
def Plugin.without (this : Plugin) (t : Task) : Plugin :=
  if t.pluginid = this.id then
    { this with
      utilFreePercpu := Function.update this.utilFreePercpu t.cpu (this.utilFreePercpu t.cpu + t.acceptedu) }
  else this

/-- What plugin `i` answers to the task at `a` with the parameters `tp`, its own
reservation taken out. -/
def Sched.answerTo (s : Sched) (a : Addr) (tp : Params) (i : ℕ) : Except Fault Res :=
  rtfPlgTaskAccept ((s.plugin i).without (s.heap a)) { s.heap a with params := tp }

/-- Some plugin would accept it. -/
def Acceptable (s : Sched) (a : Addr) (tp : Params) : Prop :=
  ∃ i < s.numOfPlugins, ∃ r, s.answerTo a tp i = .ok r ∧ r ≠ .no

/-! ### What a change is for -/

/-- The same budget, utilisation, real priority and core. -/
structure SameReservation (t u : Task) : Prop where
  acceptedt : t.acceptedt = u.acceptedt
  acceptedu : t.acceptedu = u.acceptedu
  schedprio : t.schedprio = u.schedprio
  cpu : t.cpu = u.cpu

/-- What plugin `i` computes for the task at `a` from the parameters `tp`, in the books
it has when it is called: `t` is the record it writes. -/
def Computes (s : Sched) (a : Addr) (tp : Params) (i : ℕ) (t : Task) : Prop :=
  ∃ r w w', rtfPlgTaskRelease s.toWorld i a = .ok (r, w) ∧
    rtfPlgTaskSchedule (w.setTask a { w.heap a with params := tp }) i a = .ok w' ∧ t = w'.heap a

/-- **What a change is for**: the task at `a` is the one its id names; it is accepted
exactly when the plugins would accept it with the new parameters; and then it has these,
and the reservation that the accepting plugin computes from them. -/
structure Applies (s : Sched) (tp : Params) (a : Addr) (r : Res) (s' : Sched) : Prop where
  named : rtfTasksetSearch s.heap s.taskset (s.heap a).id = some a
  answered : r ≠ .no ↔ Acceptable s a tp
  params : r ≠ .no → (s'.heap a).params = tp
  computed : r ≠ .no → ∃ i t, Choice (s.answerTo a tp) s.numOfPlugins (some (i, r)) ∧ Computes s a tp i t ∧
    SameReservation (s'.heap a) t

/-- The request says nothing new, or the task is refused either way. -/
structure NothingNew (s : Sched) (tp : Params) (a : Addr) : Prop where
  named : rtfTasksetSearch s.heap s.taskset (s.heap a).id = some a
  same : tp = (s.heap a).params ∨ ¬ Acceptable s a (s.heap a).params ∧ ¬ Acceptable s a tp

/-! ### The test of a change -/

section Test

variable {this p : Plugin} {t : Task} {r : Res}

@[simp] theorem Plugin.without_info (this : Plugin) (t : Task) : (this.without t).toPluginInfo = this.toPluginInfo := by
  unfold Plugin.without
  split <;> rfl

theorem Plugin.without_owner (h : t.pluginid = this.id) (hadd : this.addUtil t.cpu t.acceptedu = .ok p) :
    this.without t = p := by
  rw [Plugin.without, if_pos h, (addUtil_ok hadd).2]

theorem Plugin.without_other (h : t.pluginid ≠ this.id) : this.without t = this := if_neg h

theorem Plugin.without_zero (h : t.acceptedu = 0) : this.without t = this := by
  unfold Plugin.without
  split
  · rw [h, add_zero, Function.update_eq_self]
  · rfl

/-- RR and FP test no utilisation. -/
theorem acceptAnyway_without (this : Plugin) (t u : Task) : acceptAnyway (this.without u) t = acceptAnyway this t := by
  unfold acceptAnyway hasAnotherPreference
  rw [Plugin.without_info]

/-- The owner asks itself with the utilisation of the task put back for a moment. -/
theorem ownerAsks_without {accept : Plugin → Task → Except Fault Res} (hown : t.pluginid = this.id)
    (h : (do
      let this ← this.addUtil t.cpu t.acceptedu
      let testRes ← accept this t
      let this ← this.addUtil t.cpu (-t.acceptedu)
      .ok (testRes, this)) = .ok (r, p)) : accept (this.without t) t = .ok r := by
  obtain ⟨p1, hadd, h⟩ := bind_ok.mp h
  obtain ⟨r1, hr, h⟩ := bind_ok.mp h
  obtain ⟨p2, -, h⟩ := bind_ok.mp h
  cases h
  rw [Plugin.without_owner hown hadd]
  exact hr

theorem EDF.change_without (h : EDF.rtfPlgTaskChange this t = .ok (r, p)) :
    EDF.rtfPlgTaskAccept (this.without t) t = .ok r := by
  unfold EDF.rtfPlgTaskChange at h
  split at h
  · rename_i hown
    exact ownerAsks_without hown h
  · rename_i hown
    obtain ⟨r1, hr, h⟩ := bind_ok.mp h
    cases h
    rw [Plugin.without_other hown]
    exact hr

theorem RM.change_without (h : RM.rtfPlgTaskChange this t = .ok (r, p)) :
    RM.rtfPlgTaskAccept (this.without t) t = .ok r := by
  unfold RM.rtfPlgTaskChange at h
  split at h
  · rename_i hown
    exact ownerAsks_without hown.1 h
  · rename_i hown
    obtain ⟨r1, hr, h⟩ := bind_ok.mp h
    cases h
    have hsame : this.without t = this := by
      by_cases hid : t.pluginid = this.id
      · exact Plugin.without_zero (not_not.mp fun hu => hown ⟨hid, hu⟩)
      · exact Plugin.without_other hid
    rw [hsame]
    exact hr

/-- **The simulated removal**: asked about a change, each plugin answers as it would
to a new task with its reservation taken out. -/
theorem change_without (h : rtfPlgTaskChange this t = .ok (r, p)) : rtfPlgTaskAccept (this.without t) t = .ok r := by
  unfold rtfPlgTaskChange at h
  unfold rtfPlgTaskAccept
  rw [Plugin.without_info]
  split at h
  · exact EDF.change_without h
  · exact RM.change_without h
  · cases h
    exact congrArg Except.ok (acceptAnyway_without this t t)
  · cases h
    exact congrArg Except.ok (acceptAnyway_without this t t)

end Test

/-! ### The choice of a change -/

section Choosing

variable {ask ask' : World → ℕ → Except Fault (Res × World)} {s s' : Sched} {a : Addr} {r : Res}

/-- Questions with the same answers are put in the same way. -/
theorem firstPass_imp (h : ∀ w i q, ask w i = .ok q → ask' w i = .ok q) {is : List ℕ} {w : World}
    {q : Option ℕ × List (ℕ × Res) × World} (hq : firstPass ask is w = .ok q) : firstPass ask' is w = .ok q := by
  induction is generalizing w q with
  | nil => exact hq
  | cons i is ih =>
    obtain ⟨⟨r, w1⟩, hr, hrest⟩ := bind_ok.mp hq
    refine bind_ok.mpr ⟨(r, w1), h _ _ _ hr, ?_⟩
    dsimp only at hrest ⊢
    split at hrest
    · rename_i hok
      rw [if_pos hok]
      exact hrest
    · rename_i hne
      obtain ⟨q', hq', hrest⟩ := bind_ok.mp hrest
      rw [if_neg hne]
      exact bind_ok.mpr ⟨q', ih hq', hrest⟩

theorem selectPlugin_imp (h : ∀ w i q, ask w i = .ok q → ask' w i = .ok q) {n : ℕ} {w : World}
    {q : Option (ℕ × Res) × World} (hq : selectPlugin ask n w = .ok q) : selectPlugin ask' n w = .ok q := by
  obtain ⟨p, hp, hrest⟩ := bind_ok.mp hq
  exact bind_ok.mpr ⟨p, firstPass_imp h hp, hrest⟩

/-- The question whether plugin `i` accepts the task at `a` with its reservation taken out. -/
def askWithout (a : Addr) (w : World) (i : ℕ) : Except Fault (Res × World) := do
  let res ← rtfPlgTaskAccept ((w.plugin i).without (w.heap a)) (w.heap a)
  .ok (res, w)

theorem askWithout_asks (a : Addr) : Asks (askWithout a) := by
  intro w i r w' h
  obtain ⟨res, -, h⟩ := bind_ok.mp h
  cases h
  rfl

theorem askChange_without {w : World} {i : ℕ} {q : Res × World} (h : askChange a w i = .ok q) :
    askWithout a w i = .ok q := by
  obtain ⟨⟨res, this⟩, hc, hrest⟩ := bind_ok.mp h
  obtain rfl := change_plugin hc
  cases hrest
  refine bind_ok.mpr ⟨res, change_without hc, ?_⟩
  simp [World.setPlugin]

theorem answers_without (s : Sched) (a : Addr) :
    answers (askWithout a) s.toWorld = s.answerTo a (s.heap a).params := by
  funext i
  unfold answers askWithout Sched.answerTo
  cases rtfPlgTaskAccept ((s.plugin i).without (s.heap a)) (s.heap a) <;> rfl

/-- **Whom a change turns to**: the first plugin with the best answer, asked about the task as it is. -/
theorem modify_choice (h : rtfSchedulerTestAndModify s a = .ok (r, s')) :
    Choice (s.answerTo a (s.heap a).params) s.numOfPlugins (taker s a) := by
  obtain ⟨⟨chosen, w⟩, hsel, -⟩ := bind_ok.mp h
  have hch : taker s a = chosen := by
    unfold taker chosenBy
    rw [hsel]
  rw [hch, ← answers_without]
  exact selectPlugin_choice (askWithout_asks a) (selectPlugin_imp (fun _ _ _ => askChange_without) hsel)

/-- Someone is chosen exactly when someone accepts. -/
theorem choice_some_iff {answer : ℕ → Except Fault Res} {n : ℕ} {chosen : Option (ℕ × Res)}
    (h : Choice answer n chosen) : chosen ≠ none ↔ ∃ i < n, ∃ r, answer i = .ok r ∧ r ≠ .no := by
  cases h with
  | ok hi ha _ => exact iff_of_true (by simp) ⟨_, hi, _, ha, by simp⟩
  | part hi ha _ _ => exact iff_of_true (by simp) ⟨_, hi, _, ha, by simp⟩
  | none hall =>
    refine iff_of_false (by simp) ?_
    rintro ⟨i, hi, r, ha, hr⟩
    rw [hall i hi] at ha
    cases ha
    exact hr rfl

end Choosing

/-! ### What a change does -/

section Changing

variable {s s' : Sched} {tp : Params} {a : Addr} {r : Res}

/-- A change that finds the task tests that task again. -/
theorem change_modify (hnamed : rtfTasksetSearch s.heap s.taskset (s.heap a).id = some a)
    (h : rtfSchedulerTaskChange s tp (s.heap a).id = .ok (r, s')) : rtfSchedulerTestAndModify s a = .ok (r, s') := by
  unfold rtfSchedulerTaskChange at h
  rwa [hnamed] at h

/-- **The answer** is about the parameters the task has. -/
theorem change_answered (hnamed : rtfTasksetSearch s.heap s.taskset (s.heap a).id = some a)
    (h : rtfSchedulerTaskChange s tp (s.heap a).id = .ok (r, s')) : r ≠ .no ↔ Acceptable s a (s.heap a).params := by
  have hchoice := modify_choice (change_modify hnamed h)
  calc r ≠ .no ↔ taker s a ≠ none := not_congr (change_refused hnamed h)
    _ ↔ Acceptable s a (s.heap a).params := choice_some_iff hchoice

/-- The reservation is the one the chosen plugin computes from them. -/
theorem change_computed (hnamed : rtfTasksetSearch s.heap s.taskset (s.heap a).id = some a)
    (h : rtfSchedulerTaskChange s tp (s.heap a).id = .ok (r, s')) (hr : r ≠ .no) :
    ∃ i t, Choice (s.answerTo a (s.heap a).params) s.numOfPlugins (some (i, r)) ∧
      Computes s a (s.heap a).params i t ∧ SameReservation (s'.heap a) t := by
  have hmodify := change_modify hnamed h
  have hchoice := modify_choice hmodify
  rcases testAndModify_ok hmodify with ⟨hno, -, -⟩ | ⟨i, r', w, w', hc, hrel, hs, rfl⟩
  · exact absurd hno hr
  · rw [hc] at hchoice
    have hparams : (w.heap a).params = (s.heap a).params := by rw [(release_released hrel).task_eq a]
    have hheld : w.setTask a { w.heap a with params := (s.heap a).params } = w := by
      unfold World.setTask
      rw [← hparams, Function.update_eq_self]
    exact ⟨i, w'.heap a, hchoice, ⟨r', w, w', hrel, by rwa [hheld], rfl⟩, rfl, rfl, rfl, rfl⟩

/-- **Whether a change applies its parameters**: exactly when the request says nothing
new, or the task is refused with the old and with the new parameters. -/
theorem applies_iff (h : rtfSchedulerTaskChange s tp (s.heap a).id = .ok (r, s')) :
    Applies s tp a r s' ↔ NothingNew s tp a := by
  constructor
  · rintro ⟨hnamed, hanswered, hparams, -⟩
    have hold := change_answered hnamed h
    refine ⟨hnamed, ?_⟩
    by_cases hr : r = .no
    · exact .inr ⟨fun hacc => hold.mpr hacc hr, fun hacc => hanswered.mpr hacc hr⟩
    · exact .inl ((hparams hr).symm.trans (change_params h a))
  · rintro ⟨hnamed, rfl | ⟨hold, hnew⟩⟩
    · exact ⟨hnamed, change_answered hnamed h, fun _ => change_params h a, change_computed hnamed h⟩
    · have hno : ¬ r ≠ .no := mt (change_answered hnamed h).mp hold
      exact ⟨hnamed, iff_of_false hno hnew, fun hr => absurd hr hno, fun hr => absurd hr hno⟩

end Changing

/-! ### One task, changed -/

open BooksExample

/-- The task is changed to what it has. -/
theorem applies_same : ∃ s r s', runGood step (fun _ _ => True) [.create (params 10) 1] start = some s ∧
    rtfSchedulerTaskChange s (params 10) 1 = .ok (r, s') ∧ Applies s (params 10) 0 r s' := by
  have hend : (runGood step (fun _ _ => True) [.create (params 10) 1] start).any (fun s =>
      (s.heap 0).id = 1 ∧ rtfTasksetSearch s.heap s.taskset 1 = some 0 ∧ params 10 = (s.heap 0).params ∧
        (rtfSchedulerTaskChange s (params 10) 1).toOption.isSome) = true := by decide +kernel
  obtain ⟨s, hs, hv⟩ := (Option.any_eq_true _ _).mp hend
  obtain ⟨hid, hnamed, hsame, hq⟩ := of_decide_eq_true hv
  obtain ⟨⟨r, s'⟩, hok⟩ := Option.isSome_iff_exists.mp hq
  have hchange := toOption_ok hok
  refine ⟨s, r, s', hs, hchange, ?_⟩
  rw [← hid] at hnamed hchange
  exact (applies_iff hchange).mpr ⟨hnamed, .inl hsame⟩

/-- A change to twice the runtime is accepted, and the task keeps the runtime it had. -/
theorem not_applies : ¬ ∀ (alloc : ℕ → Option ℕ) (load : List UInt8 → Option Image) (confs : List ConfPlugin)
    (plgs : List Plugin) (k : Kernel) (s s' : Sched) (tp : Params) (a : Addr) (r : Res),
      rtfPluginsInit alloc load confs = some plgs → Reach step (fun _ _ => True) (Sched.start plgs k) s →
        a ∈ s.taskset.root → rtfSchedulerTaskChange s tp (s.heap a).id = .ok (r, s') → Applies s tp a r s' := by
  intro h
  have hend : (runGood step (fun _ _ => True) [.create (params 10) 1] start).any (fun s =>
      0 ∈ s.taskset.root ∧ (rtfSchedulerTaskChange s (params 20) (s.heap 0).id).toOption.any fun q =>
        q.1 = .ok ∧ (q.2.heap 0).params = params 10) = true := by decide +kernel
  obtain ⟨s, hs, hv⟩ := (Option.any_eq_true _ _).mp hend
  obtain ⟨hmem, hq⟩ := of_decide_eq_true hv
  obtain ⟨⟨r, s'⟩, hok, hr⟩ := (Option.any_eq_true _ _).mp hq
  obtain ⟨rfl, hparams⟩ := of_decide_eq_true hr
  have hA := h _ _ _ _ _ s s' (params 20) 0 _ init_plgs (reach_runGood hs) hmem (toOption_ok hok)
  rw [hA.params (by decide)] at hparams
  exact absurd hparams (by decide)

end Retif
