/-
# Two entries of one file

A configuration may name one file in two entries. `dlopen` then gives one
image, so the two have one copy of the file-level statics: `dist_prio` (RM, RR)
and `n_per_prio` (RR) count, for each core, the tasks of both.

A run here is a run of calls to the entries, in any order. The run without the
tasks of entry `B` goes the way of the whole run for all other entries, as long
as `B` places its tasks, and takes them back, on cores no other entry of its
file has, and every call finds its entries in the tables (`undisturbed_run`): a
priority from `MAX_PRIO` on is counted in the row of another core. On a common
core it does not: the second entry finds its priority counted already and looks
for a task behind the one it inserted (`not_undisturbed`).

Key definitions: `PlgCall`, `plgStep`, `Proper`, `KeepsOff`, `InTables`, `Undisturbed`.
Key theorems: `call_lockstep`, `undisturbed_run`, `undisturbed_ownCores`,
`not_undisturbed`.
-/
import Mathlib.Data.List.GetD
import Retif.Locality
import Retif.Config
import Retif.Books

namespace Retif

/-! ### Calls -/

/-- The functions of a plugin. -/
inductive PlgOp where
  | accept
  | change
  | schedule
  | attach (pid : Pid)
  | detach
  | release
  deriving DecidableEq

/-- A call of a function of entry `entry` for the task at `task`. -/
structure PlgCall where
  entry : ℕ
  op : PlgOp
  task : Addr

/-- A call, with the answer of `accept` and `change`. What the others return is
the kernel's answer. -/
def plgStep (w : World) (call : PlgCall) : Except Fault (Option Res × World) :=
  match call.op with
  | .accept => do
    let (res, w) ← askAccept call.task w call.entry
    .ok (some res, w)
  | .change => do
    let (res, w) ← askChange call.task w call.entry
    .ok (some res, w)
  | .schedule => do
    let w ← rtfPlgTaskSchedule w call.entry call.task
    .ok (none, w)
  | .attach pid =>
    let t := { w.heap call.task with tid := pid }
    let (_, kernel) := rtfPlgTaskAttach (w.plugin call.entry) w.kernel t
    .ok (none, { w with heap := Function.update w.heap call.task t, kernel := kernel })
  | .detach =>
    let (_, kernel) := rtfPlgTaskDetach (w.plugin call.entry) w.kernel (w.heap call.task)
    .ok (none, { w with kernel := kernel })
  | .release => do
    let (_, w) ← rtfPlgTaskRelease w call.entry call.task
    .ok (none, w)

/-- The entries as `rtf_plugins_init` leaves them, and the records of the tasks to come. -/
def World.start (plgs : List Plugin) (heap : Heap) (k : Kernel) : World :=
  { (Sched.start plgs k).toWorld with heap := heap }

/-- `accept` and `change` ask; any entry may be asked about any task. -/
def PlgOp.asks : PlgOp → Bool
  | .accept | .change => true
  | _ => false

/-- The call is to one of the `n` entries; `bs` are the tasks of entry `B`. -/
def Proper (n B : ℕ) (bs : Addr → Prop) (call : PlgCall) : Prop :=
  call.entry < n ∧ (call.op.asks = false → (call.entry = B ↔ bs call.task))

/-- The core on which a call places a task or takes one back. -/
def PlgCall.core (w : World) (call : PlgCall) : Option ℕ :=
  match call.op with
  | .schedule => (chosenCpu (w.plugin call.entry)).toOption
  | .release => some (w.heap call.task).cpu
  | _ => none

/-- What `B` places or takes back, it does on a core no other entry of its file has. -/
def KeepsOff (n B : ℕ) (w : World) (call : PlgCall) : Prop :=
  call.entry = B → ∀ c ∈ call.core w, ¬ UsedBeside n B w (w.plugin B).dl c

/-- The call finds what it looks up: the entry has a core, its cores have entries
in the tables, and so have the core and, for RR, the priority of a task that is
placed or taken back. -/
def InTables (w : World) (call : PlgCall) : Prop :=
  let this := w.plugin call.entry
  let t := w.heap call.task
  this.cpulist ≠ [] ∧ Roomy this.toPluginInfo ∧
    match call.op with
    | .change => t.pluginid = this.id → this.InTable t.cpu
    | .schedule => this.kind = .rr → t.params.priority.toNat < MAX_PRIO
    | .release => this.InTable t.cpu ∧ Fenced this.toPluginInfo t
    | .accept | .attach _ | .detach => True

/-- What is asked of the calls of a run. -/
def Separate (n B : ℕ) (bs : Addr → Prop) (w : World) (call : PlgCall) : Prop :=
  Proper n B bs call ∧ InTables w call ∧ KeepsOff n B w call

/-- The call is about a task of `B`, or a question put to `B`. -/
def Concerns (B : ℕ) (bs : Addr → Prop) (call : PlgCall) : Prop := call.entry = B ∨ bs call.task

/-- What is seen of a call: the answer, and the core and the priority of every task other than `bs`. -/
def SameSeen (bs : Addr → Prop) (x y : Option Res × World) : Prop :=
  x.1 = y.1 ∧ ∀ a, ¬ bs a →
    (x.2.heap a).cpu = (y.2.heap a).cpu ∧ (x.2.heap a).schedprio = (y.2.heap a).schedprio

section Runs

variable {n B : ℕ} {bs : Addr → Prop}

instance [DecidablePred bs] (call : PlgCall) : Decidable (Proper n B bs call) := by unfold Proper; infer_instance

instance [DecidablePred bs] (call : PlgCall) : Decidable (Concerns B bs call) := by unfold Concerns; infer_instance

instance (w : World) (call : PlgCall) : Decidable (KeepsOff n B w call) := by unfold KeepsOff; infer_instance

instance (w : World) (call : PlgCall) : Decidable (InTables w call) :=
  match call with
  | ⟨i, .change, a⟩ =>
    inferInstanceAs (Decidable ((w.plugin i).cpulist ≠ [] ∧ Roomy (w.plugin i).toPluginInfo ∧
      ((w.heap a).pluginid = (w.plugin i).id → (w.plugin i).InTable (w.heap a).cpu)))
  | ⟨i, .schedule, a⟩ =>
    inferInstanceAs (Decidable ((w.plugin i).cpulist ≠ [] ∧ Roomy (w.plugin i).toPluginInfo ∧
      ((w.plugin i).kind = .rr → (w.heap a).params.priority.toNat < MAX_PRIO)))
  | ⟨i, .release, a⟩ =>
    inferInstanceAs (Decidable ((w.plugin i).cpulist ≠ [] ∧ Roomy (w.plugin i).toPluginInfo ∧
      (w.plugin i).InTable (w.heap a).cpu ∧ Fenced (w.plugin i).toPluginInfo (w.heap a)))
  | ⟨i, .accept, _⟩ | ⟨i, .attach _, _⟩ | ⟨i, .detach, _⟩ =>
    inferInstanceAs (Decidable ((w.plugin i).cpulist ≠ [] ∧ Roomy (w.plugin i).toPluginInfo ∧ True))

instance [DecidablePred bs] (w : World) (call : PlgCall) : Decidable (Separate n B bs w call) :=
  inferInstanceAs (Decidable (_ ∧ _ ∧ _))

/-- Entry `A` does after the calls `calls` what it does after those of them
that do not concern `B`, whatever it is called for next that is in the tables. -/
def Undisturbed (n A B : ℕ) (bs : Addr → Prop) [DecidablePred bs] (start : World) (calls : List PlgCall) (w : World) :
    Prop :=
  ∃ v, Runs plgStep (fun _ => Proper n B bs) start (calls.filter fun call => ¬ Concerns B bs call) v ∧
    ∀ call, call.entry = A → ¬ bs call.task → InTables w call →
      Lockstep (SameSeen bs) (plgStep w call) (plgStep v call)

end Runs

/-! ### One call -/

section Steps

variable {n B : ℕ} {bs : Addr → Prop} {w w' v : World} {call : PlgCall} {r : Option Res}

/-- A question changes nothing. -/
theorem question_same (hop : call.op.asks = true) (h : plgStep w call = .ok (r, w')) : w' = w := by
  obtain ⟨i, op, a⟩ := call
  unfold plgStep at h
  rcases op <;> dsimp only at h
  case accept =>
    obtain ⟨⟨res, w1⟩, hask, hret⟩ := bind_ok.mp h
    obtain rfl := askAccept_asks a _ _ _ _ hask
    simp only [Except.ok.injEq, Prod.mk.injEq] at hret
    exact hret.2.symm
  case change =>
    obtain ⟨⟨res, w1⟩, hask, hret⟩ := bind_ok.mp h
    obtain rfl := askChange_asks a _ _ _ _ hask
    simp only [Except.ok.injEq, Prod.mk.injEq] at hret
    exact hret.2.symm
  all_goals cases hop

/-- Lists stay apart. -/
theorem call_apart (hap : Apart B bs w) (hp : Proper n B bs call) (h : plgStep w call = .ok (r, w')) :
    Apart B bs w' := by
  by_cases hop : call.op.asks = true
  · rwa [question_same hop h]
  · obtain ⟨i, op, a⟩ := call
    have hmoves := hp.2 (Bool.eq_false_iff.mpr hop)
    unfold plgStep at h
    rcases op <;> dsimp only at h hmoves
    case accept => exact absurd rfl hop
    case change => exact absurd rfl hop
    case schedule =>
      obtain ⟨w1, hs, h⟩ := bind_ok.mp h
      simp only [Except.ok.injEq, Prod.mk.injEq] at h
      exact h.2 ▸ schedule_apart hap hmoves hs
    case attach =>
      simp only [Except.ok.injEq, Prod.mk.injEq] at h
      exact h.2 ▸ hap
    case detach =>
      simp only [Except.ok.injEq, Prod.mk.injEq] at h
      exact h.2 ▸ hap
    case release =>
      obtain ⟨⟨res, w1⟩, hr, h⟩ := bind_ok.mp h
      simp only [Except.ok.injEq, Prod.mk.injEq] at h
      exact h.2 ▸ release_apart hap hr

/-- **A call to another entry** goes one way in the two worlds. -/
theorem call_lockstep (hap : Apart B bs w) (h : SameBut n B bs w v) (hi : call.entry ≠ B) (hin : call.entry < n)
    (ha : ¬ bs call.task) :
    Lockstep (fun x y => x.1 = y.1 ∧ SameBut n B bs x.2 y.2) (plgStep w call) (plgStep v call) := by
  obtain ⟨i, op, a⟩ := call
  dsimp only at hi hin ha
  unfold plgStep
  rcases op <;> dsimp only
  case accept =>
    unfold askAccept
    rw [← h.plugin i hi, ← h.heap a ha, bind_assoc, bind_assoc]
    apply Lockstep.bind_same
    intro res _
    exact .ok ⟨rfl, h⟩
  case change =>
    unfold askChange
    rw [← h.plugin i hi, ← h.heap a ha, bind_assoc, bind_assoc]
    apply Lockstep.bind_same
    rintro ⟨res, p⟩ hc
    obtain rfl := change_plugin hc
    exact .ok ⟨rfl, h.setBooks (by rfl) h.heap⟩
  case schedule =>
    refine Lockstep.bind (schedule_lockstep hi hin ha hap h) ?_
    intro x y hxy
    exact .ok ⟨rfl, hxy⟩
  case attach pid =>
    rw [← h.heap a ha]
    exact .ok ⟨rfl, h.plugin, h.heap.update a _, h.statics⟩
  case detach =>
    exact .ok ⟨rfl, h.plugin, h.heap, h.statics⟩
  case release =>
    refine Lockstep.bind (release_lockstep hi ha hap h) ?_
    rintro ⟨rx, x⟩ ⟨ry, y⟩ hxy
    exact .ok ⟨rfl, hxy⟩

/-- **A call that concerns `B`** is not seen by the others. -/
theorem call_unseen (hap : Apart B bs w) (h : SameBut n B bs w v) (hp : Proper n B bs call)
    (hu : KeepsOff n B w call) (hB : Concerns B bs call) (hs : plgStep w call = .ok (r, w')) :
    SameBut n B bs w' v := by
  by_cases hop : call.op.asks = true
  · rwa [question_same hop hs]
  obtain ⟨i, op, a⟩ := call
  have hiff := hp.2 (Bool.eq_false_iff.mpr hop)
  obtain ⟨rfl, ha⟩ : i = B ∧ bs a := by
    rcases hB with hi | ha
    · exact ⟨hi, hiff.mp hi⟩
    · exact ⟨hiff.mpr ha, ha⟩
  unfold plgStep at hs
  rcases op <;> dsimp only at hs
  case accept => exact absurd rfl hop
  case change => exact absurd rfl hop
  case schedule =>
    obtain ⟨w1, hsch, hs⟩ := bind_ok.mp hs
    simp only [Except.ok.injEq, Prod.mk.injEq] at hs
    obtain ⟨-, rfl⟩ := hs
    apply h.touch (schedule_touches hap ha hsch)
    apply hu rfl
    unfold PlgCall.core
    rw [(schedule_counts hsch).1]
    rfl
  case attach pid =>
    simp only [Except.ok.injEq, Prod.mk.injEq] at hs
    obtain ⟨-, rfl⟩ := hs
    refine ⟨h.plugin, ?_, h.statics⟩
    intro b hb
    have hne : b ≠ a := by
      rintro rfl
      exact hb ha
    rw [← h.heap b hb]
    exact Function.update_of_ne hne _ _
  case detach =>
    simp only [Except.ok.injEq, Prod.mk.injEq] at hs
    obtain ⟨-, rfl⟩ := hs
    exact ⟨h.plugin, h.heap, h.statics⟩
  case release =>
    obtain ⟨⟨res, w1⟩, hrel, hs⟩ := bind_ok.mp hs
    simp only [Except.ok.injEq, Prod.mk.injEq] at hs
    obtain ⟨-, rfl⟩ := hs
    apply h.touch (release_touches ha hrel)
    apply hu rfl
    rfl

end Steps

/-! ### Runs -/

theorem start_apart {alloc : ℕ → Option ℕ} {load : List UInt8 → Option Image} {confs : List ConfPlugin}
    {plgs : List Plugin} (hinit : rtfPluginsInit alloc load confs = some plgs) (heap : Heap) (k : Kernel) (B : ℕ)
    (bs : Addr → Prop) : Apart B bs (World.start plgs heap k) := by
  have hlists : ∀ j c, (((World.start plgs heap k).plugin j).tasks c).root = [] := by
    intro j c
    by_cases hj : j < plgs.length
    · obtain ⟨_, _, -, -, hp⟩ := start_plugin hinit k hj
      change (((Sched.start plgs k).plugin j).tasks c).root = []
      rw [hp]
      rfl
    · simp only [World.start, Sched.start, List.getD_eq_default _ _ (not_lt.mp hj)]
      rfl
  intro j c b hb
  rw [hlists] at hb
  exact absurd hb List.not_mem_nil

/-- A run and the one without the calls that concern `B` go side by side. -/
theorem sameBut_run {alloc : ℕ → Option ℕ} {load : List UInt8 → Option Image} {conf : Configuration}
    {plgs : List Plugin} {heap : Heap} {k : Kernel} {B : ℕ} {bs : Addr → Prop} [DecidablePred bs]
    {calls : List PlgCall} {w : World} (hinit : rtfPluginsInit alloc load conf.plugins = some plgs)
    (hrun : Runs plgStep (Separate plgs.length B bs) (World.start plgs heap k) calls w) :
    ∃ v, Runs plgStep (fun _ => Proper plgs.length B bs) (World.start plgs heap k)
      (calls.filter fun call => ¬ Concerns B bs call) v ∧ Apart B bs w ∧ SameBut plgs.length B bs w v := by
  let R : World → World → Prop := fun w v => Apart B bs w ∧ SameBut plgs.length B bs w v
  have h0 : R (World.start plgs heap k) (World.start plgs heap k) := ⟨start_apart hinit heap k B bs, .refl ..⟩
  have hdrop : ∀ w v call r w', R w v → decide (¬ Concerns B bs call) = false →
      Separate plgs.length B bs w call → plgStep w call = .ok (r, w') → R w' v := by
    rintro w v call r w' ⟨hap, h⟩ hdrop ⟨hp, -, hu⟩ hs
    have hB : Concerns B bs call := by simpa using hdrop
    exact ⟨call_apart hap hp hs, call_unseen hap h hp hu hB hs⟩
  have hkeep : ∀ w v call r w', R w v → decide (¬ Concerns B bs call) = true →
      Separate plgs.length B bs w call → plgStep w call = .ok (r, w') →
      Proper plgs.length B bs call ∧ ∃ r' v', plgStep v call = .ok (r', v') ∧ R w' v' := by
    rintro w v call r w' ⟨hap, h⟩ hkeep ⟨hp, -, -⟩ hs
    have hnot : ¬ Concerns B bs call := by simpa using hkeep
    obtain ⟨hi, ha⟩ := not_or.mp hnot
    obtain ⟨⟨r', v'⟩, hv, -, h'⟩ := (call_lockstep hap h hi hp.1 ha).of_ok hs
    exact ⟨hp, r', v', hv, call_apart hap hp hs, h'⟩
  exact runs_filter _ h0 hdrop hkeep hrun

/-- From states that agree off `B` another entry goes on alike. -/
theorem undisturbed_of_sameBut {n A B : ℕ} {bs : Addr → Prop} [DecidablePred bs] {start w v : World}
    {calls : List PlgCall} (hA : A < n) (hAB : A ≠ B)
    (hv : Runs plgStep (fun _ => Proper n B bs) start (calls.filter fun call => ¬ Concerns B bs call) v)
    (hap : Apart B bs w) (h : SameBut n B bs w v) : Undisturbed n A B bs start calls w := by
  refine ⟨v, hv, ?_⟩
  rintro call rfl ha -
  apply (call_lockstep hap h hAB hA ha).mono
  rintro x y - - ⟨hans, hsame⟩
  refine ⟨hans, ?_⟩
  intro b hb
  rw [hsame.heap b hb]
  exact ⟨rfl, rfl⟩

/-- **The run without `B`** goes the way of the whole run for any other entry,
when `B` places and takes back its tasks on cores no other entry of its file has
and every call is in the tables. -/
theorem undisturbed_run {alloc : ℕ → Option ℕ} {load : List UInt8 → Option Image} {conf : Configuration}
    {plgs : List Plugin} {heap : Heap} {k : Kernel} {A B : ℕ} {bs : Addr → Prop} [DecidablePred bs]
    {calls : List PlgCall} {w : World} (hinit : rtfPluginsInit alloc load conf.plugins = some plgs)
    (hA : A < plgs.length) (hAB : A ≠ B)
    (hrun : Runs plgStep (Separate plgs.length B bs) (World.start plgs heap k) calls w) :
    Undisturbed plgs.length A B bs (World.start plgs heap k) calls w := by
  obtain ⟨v, hv, hap, h⟩ := sameBut_run hinit hrun
  exact undisturbed_of_sameBut hA hAB hv hap h

/-! ### Cores of its own -/

/-- No other entry of the file of `B` has a core of `B`. -/
def OwnCores (n B : ℕ) (w : World) : Prop := ∀ c ∈ (w.plugin B).cpulist, ¬ UsedBeside n B w (w.plugin B).dl c

/-- Entry `B` is asked to take back tasks it holds. -/
def ReturnsOwn (B : ℕ) (w : World) (call : PlgCall) : Prop :=
  call.entry = B → call.op = .release → (w.heap call.task).pluginid = (w.plugin B).id

/-- Tasks of `B` that it holds are on its cores. -/
def Homed (B : ℕ) (bs : Addr → Prop) (w : World) : Prop :=
  ∀ b, bs b → (w.heap b).pluginid = (w.plugin B).id → (w.heap b).cpu ∈ (w.plugin B).cpulist

theorem chosenCpu_mem {this : Plugin} {c : ℕ} (h : chosenCpu this = .ok c) : c ∈ this.cpulist := by
  unfold chosenCpu at h
  split at h
  all_goals exact (leastLoaded_mem h).1

section Homes

variable {n B : ℕ} {bs : Addr → Prop} {w w' : World} {call : PlgCall} {r : Option Res}

theorem plgStep_info (h : plgStep w call = .ok (r, w')) (j : ℕ) :
    (w'.plugin j).toPluginInfo = (w.plugin j).toPluginInfo := by
  by_cases hop : call.op.asks = true
  · rw [question_same hop h]
  obtain ⟨i, op, a⟩ := call
  unfold plgStep at h
  rcases op <;> dsimp only at h
  case accept => exact absurd rfl hop
  case change => exact absurd rfl hop
  case schedule =>
    obtain ⟨w1, hs, h⟩ := bind_ok.mp h
    simp only [Except.ok.injEq, Prod.mk.injEq] at h
    obtain ⟨c, hP⟩ := schedule_placed hs
    exact h.2 ▸ hP.info_eq j
  case attach =>
    simp only [Except.ok.injEq, Prod.mk.injEq] at h
    rw [← h.2]
  case detach =>
    simp only [Except.ok.injEq, Prod.mk.injEq] at h
    rw [← h.2]
  case release =>
    obtain ⟨⟨res, w1⟩, hr, h⟩ := bind_ok.mp h
    simp only [Except.ok.injEq, Prod.mk.injEq] at h
    exact h.2 ▸ (release_released hr).info_eq j

theorem ownCores_step (hown : OwnCores n B w) (h : plgStep w call = .ok (r, w')) : OwnCores n B w' := by
  have hinfo := plgStep_info h
  intro c hc
  rw [hinfo B] at hc ⊢
  rw [usedBeside_congr hinfo]
  exact hown c hc

/-- A task comes to `B` on a core of `B`. -/
theorem homed_step (hhome : Homed B bs w) (hp : Proper n B bs call) (hid : (w.plugin B).id ≠ -1)
    (h : plgStep w call = .ok (r, w')) : Homed B bs w' := by
  have hinfo := plgStep_info h B
  by_cases hop : call.op.asks = true
  · rwa [question_same hop h]
  obtain ⟨i, op, a⟩ := call
  have hiff := hp.2 (Bool.eq_false_iff.mpr hop)
  intro b hb hheld
  rw [hinfo] at hheld ⊢
  unfold plgStep at h
  rcases op <;> dsimp only at h
  case accept => exact absurd rfl hop
  case change => exact absurd rfl hop
  case schedule =>
    obtain ⟨w1, hs, h⟩ := bind_ok.mp h
    simp only [Except.ok.injEq, Prod.mk.injEq] at h
    obtain ⟨-, rfl⟩ := h
    obtain ⟨c, hP⟩ := schedule_placed hs
    by_cases hba : b = a
    · have hi : i = B := hiff.mpr (hba ▸ hb)
      rw [hba, hP.task, ← hi]
      exact hP.mem
    · rw [hP.rest b hba] at hheld ⊢
      exact hhome b hb hheld
  case attach pid =>
    simp only [Except.ok.injEq, Prod.mk.injEq] at h
    rw [← h.2] at hheld ⊢
    by_cases hba : b = a
    · subst hba
      simp only [Function.update_self] at hheld ⊢
      exact hhome b hb hheld
    · simp only [Function.update_of_ne hba] at hheld ⊢
      exact hhome b hb hheld
  case detach =>
    simp only [Except.ok.injEq, Prod.mk.injEq] at h
    rw [← h.2] at hheld ⊢
    exact hhome b hb hheld
  case release =>
    obtain ⟨⟨res, w1⟩, hr, h⟩ := bind_ok.mp h
    simp only [Except.ok.injEq, Prod.mk.injEq] at h
    obtain ⟨-, rfl⟩ := h
    have hR := release_released hr
    by_cases hba : b = a
    · rw [hba, hR.heap, Function.update_self] at hheld
      exact absurd hheld.symm hid
    · rw [hR.heap_ne hba] at hheld ⊢
      exact hhome b hb hheld

/-- On cores of its own `B` keeps off the others. -/
theorem keepsOff_own (hown : OwnCores n B w) (hhome : Homed B bs w) (hp : Proper n B bs call)
    (hheld : ReturnsOwn B w call) : KeepsOff n B w call := by
  obtain ⟨i, op, a⟩ := call
  rintro rfl c hc
  apply hown
  rcases op <;> simp only [PlgCall.core, Option.mem_def, reduceCtorEq] at hc
  case schedule => exact chosenCpu_mem (toOption_ok hc)
  case release =>
    obtain rfl := Option.some.inj hc
    exact hhome a ((hp.2 rfl).mp rfl) (hheld rfl rfl)

end Homes

/-- **Entries without common cores** do not disturb each other: those of one
file, too, when each takes back tasks it holds. -/
theorem undisturbed_ownCores {alloc : ℕ → Option ℕ} {load : List UInt8 → Option Image} {conf : Configuration}
    {plgs : List Plugin} {heap : Heap} {k : Kernel} {A B : ℕ} {bs : Addr → Prop} [DecidablePred bs]
    {calls : List PlgCall} {w : World} (hinit : rtfPluginsInit alloc load conf.plugins = some plgs)
    (hA : A < plgs.length) (hB : B < plgs.length) (hAB : A ≠ B) (hnew : ∀ b, bs b → (heap b).pluginid = -1)
    (hown : OwnCores plgs.length B (World.start plgs heap k))
    (hrun : Runs plgStep (fun w call => Proper plgs.length B bs call ∧ InTables w call ∧ ReturnsOwn B w call)
      (World.start plgs heap k) calls w) :
    Undisturbed plgs.length A B bs (World.start plgs heap k) calls w := by
  have hid : ((World.start plgs heap k).plugin B).id ≠ -1 := by
    obtain ⟨_, _, -, -, hp⟩ := start_plugin hinit k hB
    change ((Sched.start plgs k).plugin B).id ≠ -1
    rw [hp]
    simp [initPlugin]
  have hhome : Homed B bs (World.start plgs heap k) := by
    intro b hb hheld
    exact absurd ((hnew b hb).symm.trans hheld).symm hid
  let I : World → Prop := fun w => OwnCores plgs.length B w ∧ Homed B bs w ∧ (w.plugin B).id ≠ -1
  have hstep : ∀ w call r w', I w → Proper plgs.length B bs call ∧ InTables w call ∧ ReturnsOwn B w call →
      plgStep w call = .ok (r, w') → Separate plgs.length B bs w call ∧ I w' := by
    rintro w call r w' ⟨hown, hhome, hid⟩ ⟨hp, htab, hheld⟩ hs
    refine ⟨⟨hp, htab, keepsOff_own hown hhome hp hheld⟩, ownCores_step hown hs, homed_step hhome hp hid hs, ?_⟩
    rwa [plgStep_info hs B]
  have hkept := (hrun.strengthen (I := I) ⟨hown, hhome, hid⟩ hstep).1
  obtain ⟨v, hv, hap, h⟩ := sameBut_run hinit hkept
  exact undisturbed_of_sameBut hA hAB hv hap h

/-! ### A common core -/

namespace IsolationExample

/-- Two entries of the file `[3]`, with priorities 10 to 20 and 1 to 5, on the given cores. -/
def conf (coresA coresB : List ℤ) : Configuration :=
  ⟨1, [⟨"A".toUTF8.toList, [3], 10, 20, coresA⟩, ⟨"B".toUTF8.toList, [3], 1, 5, coresB⟩]⟩

def plgs (coresA coresB : List ℤ) : List Plugin :=
  (rtfPluginsInit asMaps BooksExample.load (conf coresA coresB).plugins).getD []

theorem init_plgs (coresA coresB : List ℤ) :
    rtfPluginsInit asMaps BooksExample.load (conf coresA coresB).plugins = some (plgs coresA coresB) := rfl

/-- The name `B` as a preferred plugin. -/
def named : NameField := ⟨66 :: List.replicate 31 0, rfl⟩

/-- Priority 5, with a preference for `B`. -/
def forB : Params := { Params.zero with priority := 5, schedPlugin := named }

/-- Priority 5. -/
def forAny : Params := { Params.zero with priority := 5 }

/-- The tasks the daemon makes of two requests. -/
def heap : Heap := fun a => if a = 0 then newTask 1 1 forB else newTask 2 1 forAny

/-- `B` takes the first task after `A` was asked for it. -/
def calls : List PlgCall := [⟨0, .accept, 0⟩, ⟨1, .accept, 0⟩, ⟨1, .schedule, 0⟩]

def start (coresA coresB : List ℤ) : World := World.start (plgs coresA coresB) heap BooksExample.kernel

/-- The task of `B`. -/
def mine (a : Addr) : Prop := a = 0

instance : DecidablePred mine := fun a => inferInstanceAs (Decidable (a = 0))

end IsolationExample

open IsolationExample

/-- On cores of their own, `A` places its task as if it were alone. -/
theorem undisturbed_apart : ∃ w,
    runGood plgStep (Separate 2 1 mine) calls (start [0] [1]) = some w ∧
      Undisturbed 2 0 1 mine (start [0] [1]) calls w := by
  have hsome : (runGood plgStep (Separate 2 1 mine) calls (start [0] [1])).isSome := by decide +kernel
  obtain ⟨w, hw⟩ := Option.isSome_iff_exists.mp hsome
  exact ⟨w, hw, undisturbed_run (init_plgs [0] [1]) (by decide) (by decide) (runs_runGood hw)⟩

/-- On a common core `A` finds its priority counted, and no task behind its
own: it stops at a `NULL` node, where alone it places the task. -/
theorem not_undisturbed : ¬ ∀ (numProcs : ℕ) (alloc : ℕ → Option ℕ) (load : List UInt8 → Option Image)
    (conf : Configuration) (plgs : List Plugin) (heap : Heap) (k : Kernel) (p q : ConfPlugin) (A B : ℕ)
    (bs : Addr → Prop) (_ : DecidablePred bs) (calls : List PlgCall) (w : World),
      configurationValid numProcs conf = true → rtfPluginsInit alloc load conf.plugins = some plgs →
      conf.plugins[A]? = some p → conf.plugins[B]? = some q → A ≠ B → p.pluginPath = q.pluginPath →
      ((load p.pluginPath).map Image.kind = some .rm ∨ (load p.pluginPath).map Image.kind = some .rr) →
      Runs plgStep (fun _ => Proper plgs.length B bs) (World.start plgs heap k) calls w →
      Undisturbed plgs.length A B bs (World.start plgs heap k) calls w := by
  intro h
  have hend : (runGood plgStep (fun _ => Proper 2 1 mine) calls (start [0] [0])).map
      (fun w => (decide (InTables w ⟨0, .schedule, 1⟩), match plgStep w ⟨0, .schedule, 1⟩ with
        | .ok _ => none
        | .error e => some e)) = some (true, some .null) := by decide +kernel
  obtain ⟨w, hw, hboth⟩ := Option.map_eq_some_iff.mp hend
  obtain ⟨htab, hnull⟩ := Prod.mk.inj hboth
  obtain ⟨v, hv, hsame⟩ := h 4 asMaps BooksExample.load (conf [0] [0]) (plgs [0] [0]) heap BooksExample.kernel _ _ 0 1
    mine inferInstance calls w (by decide +kernel) (init_plgs [0] [0]) rfl rfl (by decide) rfl (.inr rfl)
    (runs_runGood hw)
  have hnone : (calls.filter fun call => ¬ Concerns 1 mine call) = [] := by decide
  rw [hnone] at hv
  obtain rfl := hv.nil_eq
  have halone : (plgStep (start [0] [0]) ⟨0, .schedule, 1⟩).isOk = true := by decide +kernel
  have hlock := hsame ⟨0, .schedule, 1⟩ rfl (by decide) (of_decide_eq_true htab)
  generalize hx : plgStep w ⟨0, .schedule, 1⟩ = x at hlock hnull
  generalize hy : plgStep (World.start (plgs [0] [0]) heap BooksExample.kernel) ⟨0, .schedule, 1⟩ = y at hlock
  have hyok : y.isOk = true := hy ▸ halone
  cases hlock with
  | ok _ => simp at hnull
  | error e => simp [Except.isOk, Except.toBool] at hyok

/-- Two requests take the daemon there. -/
example : (runGood step (fun _ _ => True) [.create forB 1] (Sched.start (plgs [0] [0]) BooksExample.kernel)).isSome ∧
    (runGood step (fun _ _ => True) [.create forB 1, .create forAny 1]
      (Sched.start (plgs [0] [0]) BooksExample.kernel)).isNone := by decide +kernel

end Retif
