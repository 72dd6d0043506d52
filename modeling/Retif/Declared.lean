/-
# The parameters a program declares

A program fills in a parameter record with setters, one for each parameter, and
`rtf_task_create` sends the record; the daemon keeps it in the task. The record
arrives as it was sent (`create_params`). What is in it is the last value given
for each parameter but one: `rtf_params_set_des_runtime` writes the runtime.

Key definitions: `Setter`, `prepared`, `Declares`, `OwnBudgets`.
Key theorems: `prepared_fields`, `declares_iff`, `run_comm_iff`, `create_params`,
`declared_iff`, `not_declared`.
-/
import Mathlib.Data.List.TakeWhile
import Retif.Ids

namespace Retif

/-! ### The setters of the library -/

/-- `strncpy` into a `char[PLUGIN_MAX_NAME]`: padded with NULs. -/
def strncpyName (name : List UInt8) : NameField :=
  ⟨(cstr name ++ List.replicate PLUGIN_MAX_NAME 0).take PLUGIN_MAX_NAME, by simp⟩

def rtfParamsInit : Params := Params.zero

def rtfParamsSetRuntime (p : Params) (runtime : UInt64) : Params := { p with runtime := runtime }

/-- The field that is written is that of the runtime. -/
def rtfParamsSetDesRuntime (p : Params) (runtime : UInt64) : Params := { p with runtime := runtime }

def rtfParamsSetPeriod (p : Params) (period : UInt64) : Params := { p with period := period }

def rtfParamsSetDeadline (p : Params) (deadline : UInt64) : Params := { p with deadline := deadline }

def rtfParamsSetPriority (p : Params) (priority : UInt32) : Params := { p with priority := priority }

def rtfParamsSetScheduler (p : Params) (schedPlugin : List UInt8) : Params :=
  { p with schedPlugin := strncpyName schedPlugin }

def rtfParamsIgnoreAdmission (p : Params) (ignoreAdmission : UInt8) : Params :=
  { p with ignoreAdmission := ignoreAdmission }

/-- A string shorter than `PLUGIN_MAX_NAME`. -/
abbrev Name := {s : List UInt8 // 0 ∉ s ∧ s.length < PLUGIN_MAX_NAME}

/-- A call of a setter. -/
inductive Setter where
  | runtime (x : UInt64)
  | desRuntime (x : UInt64)
  | period (x : UInt64)
  | deadline (x : UInt64)
  | priority (x : UInt32)
  | scheduler (name : Name)
  | ignoreAdmission (x : UInt8)

def Setter.run : Setter → Params → Params
  | .runtime x, p => rtfParamsSetRuntime p x
  | .desRuntime x, p => rtfParamsSetDesRuntime p x
  | .period x, p => rtfParamsSetPeriod p x
  | .deadline x, p => rtfParamsSetDeadline p x
  | .priority x, p => rtfParamsSetPriority p x
  | .scheduler name, p => rtfParamsSetScheduler p name.1
  | .ignoreAdmission x, p => rtfParamsIgnoreAdmission p x

/-- The record after the calls, in their order. -/
def prepared (calls : List Setter) : Params := calls.foldl (fun p c => c.run p) rtfParamsInit

/-! ### What the calls declare -/

/-- The parameters. -/
inductive Parameter where
  | runtime
  | desRuntime
  | period
  | deadline
  | priority
  | scheduler
  | ignoreAdmission
  deriving DecidableEq

/-- The parameter a call is for. -/
def Setter.parameter : Setter → Parameter
  | .runtime _ => .runtime
  | .desRuntime _ => .desRuntime
  | .period _ => .period
  | .deadline _ => .deadline
  | .priority _ => .priority
  | .scheduler _ => .scheduler
  | .ignoreAdmission _ => .ignoreAdmission

def Setter.asRuntime : Setter → Option UInt64
  | .runtime x => some x
  | _ => none

def Setter.asDesRuntime : Setter → Option UInt64
  | .desRuntime x => some x
  | _ => none

def Setter.asPeriod : Setter → Option UInt64
  | .period x => some x
  | _ => none

def Setter.asDeadline : Setter → Option UInt64
  | .deadline x => some x
  | _ => none

def Setter.asPriority : Setter → Option UInt32
  | .priority x => some x
  | _ => none

def Setter.asScheduler : Setter → Option (List UInt8)
  | .scheduler name => some name.1
  | _ => none

def Setter.asIgnoreAdmission : Setter → Option UInt8
  | .ignoreAdmission x => some x
  | _ => none

/-- The budget a call gives, as a runtime or as a desired one. -/
def Setter.asBudget (c : Setter) : Option UInt64 := c.asRuntime <|> c.asDesRuntime

/-- The last value the calls give, or `initial`. -/
def lastGiven {α : Type} (value : Setter → Option α) (initial : α) (calls : List Setter) : α :=
  (calls.filterMap value).getLastD initial

/-- **What a record is to hold**: the last value given for each parameter, or zero. -/
structure Declares (calls : List Setter) (p : Params) : Prop where
  runtime : p.runtime = lastGiven Setter.asRuntime 0 calls
  desRuntime : p.desRuntime = lastGiven Setter.asDesRuntime 0 calls
  period : p.period = lastGiven Setter.asPeriod 0 calls
  deadline : p.deadline = lastGiven Setter.asDeadline 0 calls
  priority : p.priority = lastGiven Setter.asPriority 0 calls
  scheduler : cstr p.schedPlugin.1 = lastGiven Setter.asScheduler [] calls
  ignoreAdmission : p.ignoreAdmission = lastGiven Setter.asIgnoreAdmission 0 calls

/-- No desired runtime but 0 is left, and the last budget given is the runtime. -/
structure OwnBudgets (calls : List Setter) : Prop where
  desRuntime : lastGiven Setter.asDesRuntime 0 calls = 0
  runtime : lastGiven Setter.asBudget 0 calls = lastGiven Setter.asRuntime 0 calls

/-! ### What the calls leave -/

theorem lastGiven_nil {α : Type} (value : Setter → Option α) (initial : α) : lastGiven value initial [] = initial := rfl

theorem lastGiven_snoc {α : Type} (value : Setter → Option α) (initial : α) (calls : List Setter) (c : Setter) :
    lastGiven value initial (calls ++ [c]) = (value c).getD (lastGiven value initial calls) := by
  unfold lastGiven
  rw [List.filterMap_append]
  rcases h : value c with _ | x <;> simp [h, List.getLastD_eq_getLast?]

theorem prepared_snoc (calls : List Setter) (c : Setter) : prepared (calls ++ [c]) = c.run (prepared calls) := by
  simp [prepared]

/-- A short name is read back as it was copied. -/
theorem cstr_strncpyName (name : Name) : cstr (strncpyName name.1).1 = name.1 := by
  obtain ⟨s, hs, hlen⟩ := name
  have hall : ∀ b ∈ s, decide (b ≠ 0) = true := by
    intro b hb
    exact decide_eq_true fun h0 => hs (h0 ▸ hb)
  have hself : cstr s = s := List.takeWhile_eq_self_iff.mpr hall
  have hpos : 0 < PLUGIN_MAX_NAME - s.length := by omega
  show cstr ((cstr s ++ List.replicate PLUGIN_MAX_NAME 0).take PLUGIN_MAX_NAME) = s
  rw [hself, List.take_append, List.take_of_length_le hlen.le, List.take_replicate, min_eq_left (by omega)]
  unfold cstr
  rw [List.takeWhile_append_of_pos hall]
  obtain ⟨k, hk⟩ : ∃ k, PLUGIN_MAX_NAME - s.length = k + 1 := ⟨_, (Nat.succ_pred_eq_of_pos hpos).symm⟩
  rw [hk, List.replicate_succ, List.takeWhile_cons_of_neg (by simp), List.append_nil]

/-- **The record after the calls**: the runtime is the last budget of either
kind, the desired runtime stays 0, and the others are as declared. -/
theorem prepared_fields (calls : List Setter) :
    (prepared calls).runtime = lastGiven Setter.asBudget 0 calls ∧ (prepared calls).desRuntime = 0 ∧
      (prepared calls).period = lastGiven Setter.asPeriod 0 calls ∧
      (prepared calls).deadline = lastGiven Setter.asDeadline 0 calls ∧
      (prepared calls).priority = lastGiven Setter.asPriority 0 calls ∧
      cstr (prepared calls).schedPlugin.1 = lastGiven Setter.asScheduler [] calls ∧
      (prepared calls).ignoreAdmission = lastGiven Setter.asIgnoreAdmission 0 calls := by
  induction calls using List.reverseRecOn with
  | nil =>
    simp only [lastGiven_nil]
    decide
  | append_singleton calls c ih =>
    obtain ⟨h1, h2, h3, h4, h5, h6, h7⟩ := ih
    simp only [prepared_snoc, lastGiven_snoc]
    cases c with
    | scheduler name =>
      refine ⟨h1, h2, h3, h4, h5, ?_, h7⟩
      exact cstr_strncpyName name
    | _ => simp [Setter.run, rtfParamsSetRuntime, rtfParamsSetDesRuntime, rtfParamsSetPeriod, rtfParamsSetDeadline,
        rtfParamsSetPriority, rtfParamsIgnoreAdmission, Setter.asBudget, Setter.asRuntime, Setter.asDesRuntime,
        Setter.asPeriod, Setter.asDeadline, Setter.asPriority, Setter.asScheduler, Setter.asIgnoreAdmission, *]

theorem declares_iff (calls : List Setter) : Declares calls (prepared calls) ↔ OwnBudgets calls := by
  obtain ⟨hrun, hdes, hperiod, hdeadline, hpriority, hscheduler, hignore⟩ := prepared_fields calls
  constructor
  · intro h
    exact ⟨h.desRuntime.symm.trans hdes, hrun.symm.trans h.runtime⟩
  · rintro ⟨h1, h2⟩
    exact ⟨hrun.trans h2, hdes.trans h1.symm, hperiod, hdeadline, hpriority, hscheduler, hignore⟩

/-- **Setters of different parameters commute**, but for a runtime and a desired
runtime that differ. -/
theorem run_comm_iff {c d : Setter} (h : c.parameter ≠ d.parameter) :
    (∀ p, d.run (c.run p) = c.run (d.run p)) ↔ ∀ x ∈ c.asBudget, ∀ y ∈ d.asBudget, x = y := by
  have hbudgets : ∀ x y : UInt64,
      (∀ p : Params, { p with runtime := y } = { p with runtime := x }) ↔ x = y := by
    intro x y
    constructor
    · intro hall
      exact (congrArg Params.runtime (hall Params.zero)).symm
    · rintro rfl p
      rfl
  rcases c with x | x | _ | _ | _ | _ | _
  · rcases d with y | y | _ | _ | _ | _ | _
    case runtime => exact absurd rfl h
    case desRuntime =>
      refine (hbudgets x y).trans ?_
      simp [Setter.asBudget, Setter.asRuntime, Setter.asDesRuntime]
    all_goals exact iff_of_true (fun _ => rfl) (by simp [Setter.asBudget, Setter.asRuntime, Setter.asDesRuntime])
  · rcases d with y | y | _ | _ | _ | _ | _
    case runtime =>
      refine (hbudgets x y).trans ?_
      simp [Setter.asBudget, Setter.asRuntime, Setter.asDesRuntime]
    case desRuntime => exact absurd rfl h
    all_goals exact iff_of_true (fun _ => rfl) (by simp [Setter.asBudget, Setter.asRuntime, Setter.asDesRuntime])
  all_goals
    refine iff_of_true ?_ (by simp [Setter.asBudget, Setter.asRuntime, Setter.asDesRuntime])
    rcases d with _ | _ | _ | _ | _ | _ | _
  all_goals
    first
    | exact absurd rfl h
    | exact fun _ => rfl

/-! ### On the way to the task -/

section Create

variable {data data' : Daemon} {i : ℕ} {l : Lib} {p : Params} {x : Exchange} {rep : Reply}

/-- **The task of a create that is accepted** has the parameters that were sent. -/
theorem create_params (h : Served data i (createRequest l.req p) x rep data')
    (hok : rep.repType = .taskCreateOk ∨ rep.repType = .taskCreatePart) :
    data'.sched.taskset.root = data.sched.next :: data.sched.taskset.root ∧
      (data'.sched.heap data.sched.next).params = p := by
  obtain ⟨ppid, j, w, hw, hsched, -⟩ := create_served h hok
  obtain ⟨c, hP⟩ := schedule_placed hw
  rw [hsched]
  refine ⟨rfl, ?_⟩
  show (w.heap data.sched.next).params = p
  rw [(hP.task_eq _).2.2.2, data.sched.alloc_self]
  rfl

/-- The daemon has the task on top of its taskset, with the last values given. -/
structure Delivered (calls : List Setter) (data data' : Daemon) : Prop where
  added : data'.sched.taskset.root = data.sched.next :: data.sched.taskset.root
  declared : Declares calls (data'.sched.heap data.sched.next).params

/-- **Declared parameters reach the daemon** exactly when no desired runtime was
declared or overwrote the runtime; and setters of different parameters commute
but for two different budgets. -/
theorem declared_iff {calls : List Setter} (hserved : Served data i (createRequest l.req (prepared calls)) x rep data')
    (hok : rep.repType = .taskCreateOk ∨ rep.repType = .taskCreatePart) :
    (Delivered calls data data' ↔ OwnBudgets calls) ∧
      ∀ c d : Setter, c.parameter ≠ d.parameter →
        ((∀ p, d.run (c.run p) = c.run (d.run p)) ↔ ∀ x ∈ c.asBudget, ∀ y ∈ d.asBudget, x = y) := by
  obtain ⟨hadded, hparams⟩ := create_params hserved hok
  refine ⟨?_, fun c d h => run_comm_iff h⟩
  rw [← declares_iff, ← hparams]
  exact ⟨fun h => h.declared, fun h => ⟨hadded, h⟩⟩

end Create

/-! ### A runtime and a desired runtime -/

open IdsExample ChangeExample

theorem declared_runtime : ∃ rep data', Served (Daemon.start 3 BooksExample.start) 4
    (createRequest fresh.req (prepared [.runtime 10, .period 100])) (replied rep) rep data' ∧
      Delivered [.runtime 10, .period 100] (Daemon.start 3 BooksExample.start) data' := by
  obtain ⟨rep, data', hserved, hty⟩ := @served (Daemon.start 3 BooksExample.start) 4
    (createRequest fresh.req (prepared [.runtime 10, .period 100])) .taskCreateOk (by decide +kernel)
  exact ⟨rep, data', hserved, (declared_iff hserved (.inl hty)).1.mpr ⟨by decide, by decide⟩⟩

/-- The desired runtime 20 takes the place of the runtime 10. -/
theorem not_declared : ¬ ∀ (data data' : Daemon) (i : ℕ) (l : Lib) (calls : List Setter) (x : Exchange) (rep : Reply),
    Served data i (createRequest l.req (prepared calls)) x rep data' →
      rep.repType = .taskCreateOk ∨ rep.repType = .taskCreatePart → Delivered calls data data' := by
  intro h
  obtain ⟨rep, data', hserved, hty⟩ := @served (Daemon.start 3 BooksExample.start) 4
    (createRequest fresh.req (prepared [.runtime 10, .desRuntime 20, .period 100])) .taskCreateOk (by decide +kernel)
  have hD := h _ _ _ _ _ _ _ hserved (.inl hty)
  have hdes := hD.declared.desRuntime
  rw [(create_params hserved (.inl hty)).2] at hdes
  exact absurd hdes (by decide)

end Retif
