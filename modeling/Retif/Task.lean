/-
# Tasks and their declared parameters

`retif_types.h` and `retif_task.c`: the parameters a client declares, the
record the daemon keeps of a task, and what is computed from them. The fields
of `struct rtf_task` that nothing reads (`euid`, `egid`, `clk`) are left out.

Utilisations are exact rationals where the source has a `float`; the integers
keep the widths of the source. `int min = rtf_task_get_min_declared(t)` is the
narrowing `toInt`.

Key definitions: `Params`, `Task`, `rtfTaskGetUtil`, `taskCmp`.
-/
import Mathlib.Tactic
import Mathlib.Data.Rat.Floor

namespace Retif

/-- `PLUGIN_MAX_NAME`. -/
def PLUGIN_MAX_NAME : ℕ := 32

/-- A `char[PLUGIN_MAX_NAME]`. -/
abbrev NameField := {b : List UInt8 // b.length = PLUGIN_MAX_NAME}

/-- The C string in a `char` array: the bytes before the first NUL. -/
def cstr (b : List UInt8) : List UInt8 := b.takeWhile (· ≠ 0)

/-- The array of all NULs. -/
def NameField.zero : NameField := ⟨List.replicate PLUGIN_MAX_NAME 0, by simp⟩

/-- `struct rtf_params`. -/
structure Params where
  runtime : UInt64
  desRuntime : UInt64
  period : UInt64
  deadline : UInt64
  priority : UInt32
  schedPlugin : NameField
  ignoreAdmission : UInt8
  deriving DecidableEq

/-- `rtf_params_init`, `RTF_PARAM_INIT`: all zero bytes. -/
def Params.zero : Params := ⟨0, 0, 0, 0, 0, NameField.zero, 0⟩

/-- The answers: `RTF_OK` is 1, `RTF_PARTIAL` and `RTF_FAIL` are 0, `RTF_NO`
and `RTF_ERROR` are -1. -/
inductive Res where
  | ok
  | part
  | no
  deriving DecidableEq, Repr

/-- `RTF_FAIL`, the same number as `RTF_PARTIAL`. -/
abbrev Res.fail : Res := .part

/-- `RTF_ERROR`, the same number as `RTF_NO`. -/
abbrev Res.error : Res := .no

/-- Where a `struct rtf_task` lives. -/
abbrev Addr := ℕ

/-- A `pid_t`. -/
abbrev Pid := Int32

/-- `struct rtf_task`. -/
structure Task where
  id : UInt32
  ptid : Pid
  tid : Pid
  cpu : ℕ
  schedprio : UInt32
  pluginid : ℤ
  acceptedt : UInt64
  acceptedu : ℚ
  params : Params

/-- The record `rtf_task_init` allocates with `calloc`. -/
def Task.zero : Task := ⟨0, 0, 0, 0, 0, 0, 0, 0, Params.zero⟩

/-! ### Narrowing -/

/-- A `uint64_t` stored in an `int`: its low 32 bits in two's complement. -/
def toInt (x : UInt64) : ℤ := Int.bmod x.toNat (2 ^ 32)

/-- A rational cut off towards zero. -/
def trunc (q : ℚ) : ℤ := q.num.tdiv q.den

/-- A floating value stored in a `uint32_t`: cut off, then the low 32 bits. -/
def toU32 (q : ℚ) : UInt32 := UInt32.ofInt (trunc q)

/-- A floating value stored in a `uint64_t`. -/
def toU64 (q : ℚ) : UInt64 := UInt64.ofInt (trunc q)

theorem trunc_of_nonneg {q : ℚ} (h : 0 ≤ q) : trunc q = ⌊q⌋ := by
  unfold trunc
  rw [Rat.floor_def', Int.tdiv_eq_ediv_of_nonneg (Rat.num_nonneg.mpr h)]

theorem toU64_toNat {q : ℚ} (h0 : 0 ≤ q) (h1 : ⌊q⌋ < 2 ^ 64) : ((toU64 q).toNat : ℤ) = ⌊q⌋ := by
  have hf := Int.floor_nonneg.mpr h0
  have hlt : ⌊q⌋.toNat < 2 ^ 64 := by omega
  unfold toU64 UInt64.ofInt
  rw [trunc_of_nonneg h0, Int.emod_eq_of_lt hf h1, UInt64.toNat_ofNat_of_lt' hlt]
  omega

theorem toU32_toNat {q : ℚ} (h0 : 0 ≤ q) (h1 : ⌊q⌋ < 2 ^ 32) : ((toU32 q).toNat : ℤ) = ⌊q⌋ := by
  have hf := Int.floor_nonneg.mpr h0
  have hlt : ⌊q⌋.toNat < 2 ^ 32 := by omega
  unfold toU32 UInt32.ofInt
  rw [trunc_of_nonneg h0, Int.emod_eq_of_lt hf h1, UInt32.toNat_ofNat_of_lt' hlt]
  omega

/-! ### Getters of `retif_task.c` -/

def rtfTaskGetPeriod (t : Task) : UInt64 := t.params.period

def rtfTaskGetRuntime (t : Task) : UInt64 := t.params.runtime

def rtfTaskGetDesRuntime (t : Task) : UInt64 := t.params.desRuntime

def rtfTaskGetDeadline (t : Task) : UInt64 := t.params.deadline

def rtfTaskGetPriority (t : Task) : UInt32 := t.params.priority

def rtfTaskGetIgnoreAdmission (t : Task) : UInt8 := t.params.ignoreAdmission

/-- The string at `sched_plugin`. Without a NUL in the field it goes on in
`ignore_admission` behind it; the padding after that is zero. -/
def schedPluginString (p : Params) : List UInt8 := cstr (p.schedPlugin.1 ++ [p.ignoreAdmission])

/-- `NULL` when the name is empty. -/
def rtfTaskGetPreferredPlugin (t : Task) : Option (List UInt8) :=
  if schedPluginString t.params = [] then none else some (schedPluginString t.params)

/-- The smaller of period and deadline, of those that are declared. -/
def rtfTaskGetMinDeclared (t : Task) : UInt64 :=
  if t.params.period = 0 then t.params.deadline
  else if t.params.deadline = 0 then t.params.period
  else if t.params.deadline < t.params.period then t.params.deadline else t.params.period

/-- What `rtf_task_get_util` and `rtf_task_get_des_util` share: -1 when the
budget or the (narrowed) minimum is 0. -/
def utilOf (budget : UInt64) (t : Task) : ℚ :=
  if toInt (rtfTaskGetMinDeclared t) = 0 ∨ budget = 0 then -1
  else (budget.toNat : ℚ) / (toInt (rtfTaskGetMinDeclared t) : ℚ)

def rtfTaskGetUtil (t : Task) : ℚ := utilOf t.params.runtime t

def rtfTaskGetDesUtil (t : Task) : ℚ := utilOf t.params.desRuntime t

/-! ### Comparison -/

/-- `enum PARAM`. -/
inductive Param where
  | runtime
  | period
  | deadline
  | priority
  deriving DecidableEq

/-- `ASC` or `DSC`: the sign the comparison is multiplied with. -/
inductive Order where
  | asc
  | dsc
  deriving DecidableEq

def Order.sign : Order → ℤ
  | .asc => 1
  | .dsc => -1

/-- The declared value a comparison looks at. -/
def Param.of (p : Param) (t : Task) : ℕ :=
  match p with
  | .runtime => t.params.runtime.toNat
  | .period => t.params.period.toNat
  | .deadline => t.params.deadline.toNat
  | .priority => t.params.priority.toNat

/-- The three-way comparison the four `task_cmp_*` functions make. -/
def cmpNat (x y : ℕ) : ℤ := if x > y then 1 else if x < y then -1 else 0

def taskCmpDeadline (t1 t2 : Task) : ℤ := cmpNat t1.params.deadline.toNat t2.params.deadline.toNat

def taskCmpPeriod (t1 t2 : Task) : ℤ := cmpNat t1.params.period.toNat t2.params.period.toNat

def taskCmpRuntime (t1 t2 : Task) : ℤ := cmpNat t1.params.runtime.toNat t2.params.runtime.toNat

def taskCmpPriority (t1 t2 : Task) : ℤ := cmpNat t1.params.priority.toNat t2.params.priority.toNat

def taskCmp (t1 t2 : Task) (p : Param) (flag : Order) : ℤ :=
  match p with
  | .period => flag.sign * taskCmpPeriod t1 t2
  | .runtime => flag.sign * taskCmpRuntime t1 t2
  | .deadline => flag.sign * taskCmpDeadline t1 t2
  | .priority => flag.sign * taskCmpPriority t1 t2

theorem taskCmp_eq (t1 t2 : Task) (p : Param) (flag : Order) :
    taskCmp t1 t2 p flag = flag.sign * cmpNat (p.of t1) (p.of t2) := by
  cases p <;> rfl

theorem cmpNat_pos {x y : ℕ} : 0 < cmpNat x y ↔ y < x := by
  unfold cmpNat; split_ifs <;> omega

theorem cmpNat_neg {x y : ℕ} : cmpNat x y < 0 ↔ x < y := by
  unfold cmpNat; split_ifs <;> omega

theorem taskCmp_asc_pos {t1 t2 : Task} {p : Param} :
    0 < taskCmp t1 t2 p .asc ↔ p.of t2 < p.of t1 := by
  rw [taskCmp_eq, Order.sign, one_mul, cmpNat_pos]

theorem taskCmp_dsc_pos {t1 t2 : Task} {p : Param} :
    0 < taskCmp t1 t2 p .dsc ↔ p.of t1 < p.of t2 := by
  rw [taskCmp_eq, Order.sign, neg_one_mul, Int.neg_pos, cmpNat_neg]

end Retif
