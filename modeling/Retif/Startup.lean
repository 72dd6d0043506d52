/-
# Starting and stopping the daemon

`rtf_daemon_init` reads the configuration, saves two parameters of the kernel
and overwrites them, opens the socket and loads the plugins; any stage ends it
with an error. `rtf_daemon_destroy` writes the saved values back. A stage that
fails after the parameters were overwritten leaves them so.

The two files of procfs are two values, and every read and write of them
succeeds. What `parse_conf` does is taken without a bound on its nesting: it
returns what it returns under some bound (`ParseConf.unique`).

An element that `malloc` gave is a record whatever it holds (`Env.fresh`):
nothing here follows the pointers in it. What the checks read of it is in `Unset`.

Key definitions: `Env`, `rtfDaemonInit`, `Machine.rtfDaemonDestroy`, `GivenBack`.
Key theorems: `parses_iff`, `starts_iff`, `givenBack_iff`, `not_givenBack`.
-/
import Retif.Overlap
import Retif.Raised
import Retif.CpuInfo

namespace Retif

open CString

/-! ### The parameters of the kernel -/

/-- `sched_rr_timeslice_ms` and `sched_rt_runtime_us`. -/
structure Procfs where
  rrTimeslice : ℤ
  rtRuntime : ℤ

/-- `struct proc_backup`. -/
structure ProcBackup where
  rrTimeslice : ℤ
  rtRuntime : ℤ

def setRtKernelParams (fs : Procfs) (c : FullConfiguration) : Procfs :=
  let fs := { fs with rrTimeslice := c.rrTimeslice }
  { fs with rtRuntime := -1 }

def saveRtKernelParams (fs : Procfs) : ProcBackup := ⟨fs.rrTimeslice, fs.rtRuntime⟩

def restoreRtKernelParams (fs : Procfs) (b : ProcBackup) : Procfs :=
  let fs := { fs with rrTimeslice := b.rrTimeslice }
  { fs with rtRuntime := b.rtRuntime }

/-- What was saved comes back, whatever was written since. -/
theorem restore_save (fs fs' : Procfs) : restoreRtKernelParams fs' (saveRtKernelParams fs) = fs := rfl

/-! ### The daemon from its start on -/

/-- What the daemon finds: the file as `yaml_parser_load` leaves it, the elements
it gets from `malloc`, the configuration before it is filled in, the socket it
gets from `rtf_carrier_init`, `sched_rt_period_us` and the files of the plugins. -/
structure Env where
  numProcs : ℕ
  strtod : List UInt8 → Conversion ℚ
  fresh : ℕ → ConfPlugin
  loaded : Option Document
  errno : Bool
  conf : FullConfiguration
  carrier : Option ℕ
  rtPeriod : ℤ
  load : List UInt8 → Option Image
  kernel : Kernel

/-- `parse_configuration`, as the daemon calls it. -/
def Env.parse (env : Env) (fuel : ℕ) : Option (ℕ × FullConfiguration) :=
  parseConfiguration env.numProcs env.strtod env.fresh fuel env.loaded env.errno env.conf

/-- `none` is an error. `rt_runtime` is read after the daemon has written it. -/
def rtfSchedulerInit (env : Env) (fs : Procfs) (conf : FullConfiguration) : Option Sched :=
  let procfsMaxUtil : ℚ := fs.rtRuntime / env.rtPeriod
  if fs.rtRuntime ≠ -1 ∧ procfsMaxUtil < conf.schedMaxUtil then none
  else do
    let plgs ← rtfPluginsInit byPosition env.load conf.plugins
    some (Sched.start plgs env.kernel)

/-- The daemon with the values it saved, and the kernel's parameters. -/
structure Machine extends Daemon where
  procfs : Procfs
  backup : ProcBackup

/-- `rtf_daemon_init`: the parameters it leaves with an error, or the daemon it starts. -/
def rtfDaemonInit (fuel : ℕ) (env : Env) (fs : Procfs) : Option (Except Procfs Machine) := do
  let (ret, conf) ← env.parse fuel
  if ret ≠ 0 then some (.error fs)
  else
    let backup := saveRtKernelParams fs
    let fs := setRtKernelParams fs conf
    match env.carrier with
    | none => some (.error fs)
    | some socket =>
      match rtfSchedulerInit env fs conf with
      | none => some (.error fs)
      | some s => some (.ok ⟨Daemon.start socket s, fs, backup⟩)

/-- A step of the loop; no handler opens a file of procfs. -/
def machineStep (m : Machine) (t : Tick) : Except Fault (Out × Machine) := do
  let (out, data) ← daemonStep m.toDaemon t
  .ok (out, { m with toDaemon := data })

/-- `rtf_daemon_destroy`: the tasks are freed, then the parameters are restored. -/
def Machine.rtfDaemonDestroy (m : Machine) : Machine :=
  { m with sched := Retif.rtfDaemonDestroy m.sched, procfs := restoreRtKernelParams m.procfs m.backup }

/-! ### Without a bound on the nesting -/

/-- `parse_conf` returns `r`. -/
def ParseConf (env : Env) (document : Document) (root : Node) (r : Parsed FullConfiguration) : Prop :=
  ∃ fuel, parseConf document env.strtod env.fresh fuel root env.errno env.conf = some r

/-- `parse_configuration` returns `ret` and leaves `conf`. -/
def Env.Parses (env : Env) (ret : ℕ) (conf : FullConfiguration) : Prop := ∃ fuel, env.parse fuel = some (ret, conf)

/-- `rtf_daemon_init` returns. -/
def Env.Starts (env : Env) (fs : Procfs) (r : Except Procfs Machine) : Prop := ∃ fuel, rtfDaemonInit fuel env fs = some r

section Unbounded

variable {env : Env} {fs : Procfs}

theorem ParseConf.unique {document : Document} {root : Node} {r r' : Parsed FullConfiguration}
    (h : ParseConf env document root r) (h' : ParseConf env document root r') : r = r' := by
  obtain ⟨fuel, h⟩ := h
  obtain ⟨fuel', h'⟩ := h'
  have hmax := parseConf_mono (le_max_left fuel fuel') h
  have hmax' := parseConf_mono (le_max_right fuel fuel') h'
  exact Option.some.inj (hmax.symm.trans hmax')

/-- **What `parse_configuration` returns**, stage by stage. -/
theorem parses_iff {ret : ℕ} {conf : FullConfiguration} : env.Parses ret conf ↔
    (env.loaded = none ∧ ret = 0 ∧ conf = env.conf) ∨
      ∃ document root r, env.loaded = some document ∧ document.root = some root ∧ ParseConf env document root r ∧
        conf = r.out ∧
          ret = if r.ret ≠ 0 then r.ret else if configurationValid env.numProcs r.out.toConfiguration then 0 else 1 := by
  unfold Env.Parses Env.parse parseConfiguration
  rcases env.loaded with _ | document
  · constructor
    · rintro ⟨_, h⟩
      obtain ⟨rfl, rfl⟩ := Prod.mk.inj (Option.some.inj h)
      exact .inl ⟨rfl, rfl, rfl⟩
    · rintro (⟨-, rfl, rfl⟩ | ⟨document, -, -, hload, -⟩)
      · exact ⟨0, rfl⟩
      · cases hload
  · simp only [reduceCtorEq, false_and, false_or, Option.some.injEq, Option.bind_eq_bind, Option.bind_eq_some_iff]
    constructor
    · rintro ⟨fuel, root, hroot, r, hr, h⟩
      refine ⟨document, root, r, rfl, hroot, ⟨fuel, hr⟩, ?_⟩
      split_ifs at h ⊢ <;> simp_all
    · rintro ⟨_, root, r, rfl, hroot, ⟨fuel, hr⟩, rfl, rfl⟩
      refine ⟨fuel, root, hroot, r, hr, ?_⟩
      split_ifs <;> rfl

/-- **What `rtf_daemon_init` returns**: after a configuration without complaints
both later stages decide. -/
theorem starts_iff {r : Except Procfs Machine} : env.Starts fs r ↔ ∃ ret conf, env.Parses ret conf ∧
    r = if ret ≠ 0 then .error fs
      else match env.carrier, rtfSchedulerInit env (setRtKernelParams fs conf) conf with
        | some socket, some s => .ok ⟨Daemon.start socket s, setRtKernelParams fs conf, saveRtKernelParams fs⟩
        | _, _ => .error (setRtKernelParams fs conf) := by
  unfold Env.Starts Env.Parses rtfDaemonInit
  constructor
  · rintro ⟨fuel, h⟩
    obtain ⟨⟨ret, conf⟩, hparse, h⟩ := Option.bind_eq_some_iff.mp h
    refine ⟨ret, conf, ⟨fuel, hparse⟩, ?_⟩
    dsimp only at h
    split_ifs at h ⊢
    · exact (Option.some.inj h).symm
    · rcases hcarrier : env.carrier with _ | socket <;> rw [hcarrier] at h
      · exact (Option.some.inj h).symm
      · rcases hs : rtfSchedulerInit env (setRtKernelParams fs conf) conf with _ | s <;> simp only [hs] at h
        · exact (Option.some.inj h).symm
        · exact (Option.some.inj h).symm
  · rintro ⟨ret, conf, ⟨fuel, hparse⟩, rfl⟩
    refine ⟨fuel, ?_⟩
    simp only [hparse, Option.bind_eq_bind, Option.bind_some]
    split_ifs
    · rfl
    · rcases env.carrier with _ | socket
      · rfl
      · rcases rtfSchedulerInit env (setRtKernelParams fs conf) conf with _ | s
        · rfl
        · rfl

end Unbounded

/-! ### What becomes of the kernel's parameters -/

/-- **The parameters are given back**: by a start that fails, and by a stop,
whatever the daemon did in between. -/
def GivenBack (env : Env) (fs : Procfs) : Prop :=
  (∀ fs', env.Starts fs (.error fs') → fs' = fs) ∧
    ∀ m, env.Starts fs (.ok m) → ∀ m', Reach machineStep (fun _ _ => True) m m' → m'.rtfDaemonDestroy.procfs = fs

/-- The stages after the configuration both succeed. -/
def LaterSucceed (env : Env) (conf : FullConfiguration) : Prop :=
  env.carrier.isSome ∧ (rtfPluginsInit byPosition env.load conf.plugins).isSome

/-- With the -1 just written the kernel's limit is not looked at. -/
theorem schedulerInit_eq (env : Env) (fs : Procfs) (conf : FullConfiguration) :
    rtfSchedulerInit env (setRtKernelParams fs conf) conf =
      (rtfPluginsInit byPosition env.load conf.plugins).map (Sched.start · env.kernel) := by
  unfold rtfSchedulerInit setRtKernelParams
  rw [if_neg (by simp)]
  cases rtfPluginsInit byPosition env.load conf.plugins <;> rfl

/-- The saved values stay as they are while the daemon runs. -/
theorem backup_run {m m' : Machine} (hrun : Reach machineStep (fun _ _ => True) m m') : m'.backup = m.backup := by
  refine hrun.inv (I := fun m' => m'.backup = m.backup) rfl ?_
  intro m₁ t out m₂ hI _ h
  obtain ⟨⟨out', data⟩, -, h⟩ := bind_ok.mp h
  cases h
  exact hI

theorem setRtKernelParams_same {fs : Procfs} {conf : FullConfiguration} :
    setRtKernelParams fs conf = fs ↔ fs.rrTimeslice = conf.rrTimeslice ∧ fs.rtRuntime = -1 := by
  rcases fs with ⟨rr, rt⟩
  simp only [setRtKernelParams, Procfs.mk.injEq]
  rw [eq_comm, @eq_comm _ (-1)]

/-- A start that fails behind the parameters leaves the new ones. -/
theorem GivenBack.later {env : Env} {fs : Procfs} {conf : FullConfiguration} (h : GivenBack env fs)
    (hparses : env.Parses 0 conf) :
    LaterSucceed env conf ∨ (fs.rrTimeslice = conf.rrTimeslice ∧ fs.rtRuntime = -1) := by
  by_contra hnot
  rw [not_or] at hnot
  refine hnot.2 (setRtKernelParams_same.mp (h.1 _ (starts_iff.mpr ⟨0, conf, hparses, ?_⟩)))
  have hlater := hnot.1
  unfold LaterSucceed at hlater
  rw [if_neg (not_not.mpr rfl), schedulerInit_eq]
  rcases hcarrier : env.carrier with _ | socket
  · rfl
  · rcases hplgs : rtfPluginsInit byPosition env.load conf.plugins with _ | plgs
    · rfl
    · simp [hcarrier, hplgs] at hlater

/-- They are given back exactly where a configuration that is not refused is
followed by two stages that succeed, or held these values already. -/
theorem givenBack_iff {env : Env} {fs : Procfs} : GivenBack env fs ↔ ∀ conf, env.Parses 0 conf →
    LaterSucceed env conf ∨ (fs.rrTimeslice = conf.rrTimeslice ∧ fs.rtRuntime = -1) := by
  constructor
  · intro h conf hparses
    exact h.later hparses
  · intro hall
    refine ⟨?_, ?_⟩
    · intro fs' hstarts
      obtain ⟨ret, conf, hparses, hr⟩ := starts_iff.mp hstarts
      split at hr
      · exact Except.error.inj hr
      · rename_i hret
        obtain rfl : ret = 0 := not_not.mp hret
        rw [schedulerInit_eq] at hr
        rcases hall conf hparses with ⟨hcarrier, hplgs⟩ | hvalues
        · obtain ⟨socket, hsocket⟩ := Option.isSome_iff_exists.mp hcarrier
          obtain ⟨plgs, hplgs⟩ := Option.isSome_iff_exists.mp hplgs
          simp [hsocket, hplgs] at hr
        · have hleft : fs' = setRtKernelParams fs conf := by
            split at hr
            · cases hr
            · exact Except.error.inj hr
          rw [hleft]
          exact setRtKernelParams_same.mpr hvalues
    · intro m hstarts m' hrun
      obtain ⟨ret, conf, -, hr⟩ := starts_iff.mp hstarts
      have hbackup : m.backup = saveRtKernelParams fs := by
        split at hr
        · cases hr
        · split at hr
          · rw [Except.ok.inj hr]
          · cases hr
      show restoreRtKernelParams m'.procfs m'.backup = fs
      rw [backup_run hrun, hbackup, restore_save]

/-! ### A socket that is taken -/

namespace StartupExample

/-- Nothing is loaded, and the socket is to be had. -/
def malformed : Env where
  numProcs := 2
  strtod := OverlapExample.strtod
  fresh := fun _ => OverlapExample.blank
  loaded := none
  errno := false
  conf := OverlapExample.zero
  carrier := some 3
  rtPeriod := 1000000
  load := BooksExample.load
  kernel := BooksExample.kernel

/-- A file with no plugins, and the socket cannot be bound. -/
def taken : Env := { malformed with loaded := some ⟨[.mapping []]⟩, carrier := none }

end StartupExample

open StartupExample

/-- The daemon does not start, and throttling stays off. -/
theorem not_givenBack : ¬ ∀ (env : Env) (fs : Procfs), GivenBack env fs := by
  intro h
  have hparses : taken.Parses 0 OverlapExample.zero :=
    parses_iff.mpr (.inr ⟨_, .mapping [], ⟨0, false, OverlapExample.zero⟩, rfl, rfl, ⟨1, rfl⟩, rfl, by decide +kernel⟩)
  rcases (h taken ⟨100, 950000⟩).later hparses with ⟨hcarrier, -⟩ | ⟨-, hruntime⟩
  · simp [taken] at hcarrier
  · exact absurd hruntime (by decide)

end Retif
