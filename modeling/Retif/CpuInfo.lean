/-
# The core a CPU info names

`req_plugin_cpu_info` takes a position in `cpulist`: it names the core there
and reads the per-core tables at the position. Schedule and release keep those
tables by core id. The reply tells what is kept for the core it names where
the core with the id `k` stands at position `k`; elsewhere it tells what is
kept under another index.

Key definitions: `AsksCore`, `ReportsCore`.
Key theorems: `cpuInfo_reply`, `sameConfig_daemon`, `cpuInfo_run`, `not_cpuInfo_run`.
-/
import Retif.Queries

namespace Retif

/-- The request asks about position `pos` of the cores of plugin `p`. -/
structure AsksCore (req : Request) (p pos : ℕ) : Prop where
  reqType : ReqType.ofCode req.reqType = some .pluginCpuInfo
  plugin : req.qDesc.toInt = p
  position : req.qId.toInt = pos

/-- The reply to client `i` names core `c` of plugin `p` and carries what the
plugin keeps for the tasks on `c`: their number, and the utilisation they
leave. -/
def ReportsCore (data : Daemon) (i p c : ℕ) : Prop :=
  rtfDaemonProcessReq data i =
    .ok (⟨.pluginCpuInfoOk, .cpu c ((data.sched.plugin p).taskCountPercpu c) ((data.sched.plugin p).utilFreePercpu c)⟩,
      data)

section Reply

variable {data : Daemon} {i p pos : ℕ}

/-- **The reply** names the core at the position and carries the entries at the position. -/
theorem cpuInfo_reply (hreq : AsksCore (data.chann.lastReq i) p pos) (hp : p < data.sched.numOfPlugins)
    (hpos : pos < (data.sched.plugin p).cpulist.length) (htab : (data.sched.plugin p).InTable pos) :
    rtfDaemonProcessReq data i =
      .ok (⟨.pluginCpuInfoOk, .cpu ((data.sched.plugin p).cpulist.getD pos 0)
        ((data.sched.plugin p).taskCountPercpu pos) ((data.sched.plugin p).utilFreePercpu pos)⟩, data) := by
  have hread : ∀ {α : Type} (table : ℕ → α), (data.sched.plugin p).read table pos = .ok (table pos) :=
    fun table => read_ok.mpr ⟨htab, rfl⟩
  have hdesc : ¬ ((p : ℤ) ≥ data.sched.numOfPlugins) ∧ ¬ ((p : ℤ) < 0) := by omega
  have hid : ¬ ((pos : ℤ) ≥ (data.sched.plugin p).cpulist.length) ∧ ¬ ((pos : ℤ) < 0) := by omega
  simp only [rtfDaemonProcessReq, reqPluginCpuInfo, rtfCarrierGetReq, hreq.reqType, hreq.plugin, hreq.position,
    Int.toNat_natCast, hdesc, hid, if_false, hread, ok_bind]

/-- So it reports the core exactly when the entries at the position are those of the core. -/
theorem reportsCore_iff {c : ℕ} (hreq : AsksCore (data.chann.lastReq i) p pos) (hp : p < data.sched.numOfPlugins)
    (hc : (data.sched.plugin p).cpulist[pos]? = some c) (htab : (data.sched.plugin p).InTable pos) :
    ReportsCore data i p c ↔
      (data.sched.plugin p).taskCountPercpu pos = (data.sched.plugin p).taskCountPercpu c ∧
        (data.sched.plugin p).utilFreePercpu pos = (data.sched.plugin p).utilFreePercpu c := by
  obtain ⟨hpos, -⟩ := List.getElem?_eq_some_iff.mp hc
  unfold ReportsCore
  rw [cpuInfo_reply hreq hp hpos htab, List.getD_eq_getElem?_getD, hc]
  simp

end Reply

/-! ### Runs -/

/-- The plugins of a running daemon are those it was started with, but for their books. -/
theorem sameConfig_daemon {socket : ℕ} {s : Sched} {data : Daemon}
    (hrun : Reach daemonStep (fun _ _ => True) (Daemon.start socket s) data) : SameConfig s data.sched := by
  refine hrun.inv (I := fun data => SameConfig s data.sched) (.refl s) ?_
  intro data t out data' hI _ h
  exact daemonStep_inv (fun _ _ _ _ hS hs => hS.trans (sameConfig_step hs)) h hI

section Runs

variable {alloc : ℕ → Option ℕ} {load : List UInt8 → Option Image} {confs : List ConfPlugin} {plgs : List Plugin}
  {k : Kernel} {socket : ℕ} {data : Daemon} {p : ℕ} {conf : ConfPlugin}

/-- What a configured plugin looks like in every state the daemon reaches. -/
theorem plugin_daemon (hinit : rtfPluginsInit alloc load confs = some plgs)
    (hrun : Reach daemonStep (fun _ _ => True) (Daemon.start socket (Sched.start plgs k)) data)
    (hconf : confs[p]? = some conf) : p < data.sched.numOfPlugins ∧
      (data.sched.plugin p).cpulist = conf.cores.map Int.toNat ∧
        (data.sched.plugin p).entries = alloc conf.cores.length := by
  obtain ⟨hn, hinfo⟩ := sameConfig_daemon hrun
  have hp : p < (Sched.start plgs k).numOfPlugins := by
    obtain ⟨hlen, -⟩ := initPlugins_spec hinit
    obtain ⟨hlt, -⟩ := List.getElem?_eq_some_iff.mp hconf
    show p < plgs.length
    omega
  obtain ⟨conf', img, hconf', -, hplugin⟩ := start_plugin hinit k hp
  obtain rfl := Option.some.inj (hconf.symm.trans hconf')
  have hcpulist := congrArg PluginInfo.cpulist (hinfo p)
  have hentries := congrArg PluginInfo.entries (hinfo p)
  rw [hplugin] at hcpulist hentries
  exact ⟨hn ▸ hp, hcpulist, hentries⟩

/-- **The CPU info of position `pos`**, in every state the daemon reaches: where
core `pos` stands there, the reply reports it; and any core standing there is
reported just when the tables hold the same for `pos` as for the core. The
tables have an entry for each position. -/
theorem cpuInfo_run {i pos : ℕ} {req : Request} {core : ℤ} (halloc : ∀ n, ∀ m ∈ alloc n, n ≤ m)
    (hinit : rtfPluginsInit alloc load confs = some plgs)
    (hrun : Reach daemonStep (fun _ _ => True) (Daemon.start socket (Sched.start plgs k)) data)
    (hconf : confs[p]? = some conf) (hcore : conf.cores[pos]? = some core) (hreq : AsksCore req p pos) :
    (core = pos → ReportsCore (data.holding i req) i p core.toNat) ∧
      (ReportsCore (data.holding i req) i p core.toNat ↔
        (data.sched.plugin p).taskCountPercpu pos = (data.sched.plugin p).taskCountPercpu core.toNat ∧
          (data.sched.plugin p).utilFreePercpu pos = (data.sched.plugin p).utilFreePercpu core.toNat) := by
  obtain ⟨hp, hcpulist, hentries⟩ := plugin_daemon hinit hrun hconf
  have hc : (data.sched.plugin p).cpulist[pos]? = some core.toNat := by simp [hcpulist, hcore]
  have htab : (data.sched.plugin p).InTable pos := by
    intro n hn
    rw [hentries] at hn
    obtain ⟨hpos, -⟩ := List.getElem?_eq_some_iff.mp hcore
    exact hpos.trans_le (halloc _ _ hn)
  have hheld : AsksCore ((data.holding i req).chann.lastReq i) p pos := by simpa [Daemon.holding] using hreq
  have hiff : ReportsCore (data.holding i req) i p core.toNat ↔ _ := reportsCore_iff hheld hp hc htab
  refine ⟨?_, hiff⟩
  rintro rfl
  apply hiff.mpr
  simp [Daemon.holding]

end Runs

/-! ### Cores in another order -/

namespace CpuInfoExample

/-- FP on cores 1 and 0, in this order. -/
def confs : List ConfPlugin := [⟨"FP".toUTF8.toList, [4], 10, 20, [1, 0]⟩]

def plgs : List Plugin := (rtfPluginsInit byPosition BooksExample.load confs).getD []

theorem init_plgs : rtfPluginsInit byPosition BooksExample.load confs = some plgs := rfl

/-- The same on cores 0 and 1. -/
def inOrder : List ConfPlugin := [⟨"FP".toUTF8.toList, [4], 10, 20, [0, 1]⟩]

def inOrderPlgs : List Plugin := (rtfPluginsInit byPosition BooksExample.load inOrder).getD []

theorem init_inOrderPlgs : rtfPluginsInit byPosition BooksExample.load inOrder = some inOrderPlgs := rfl

/-- Client 5 asks about the first core of the first plugin. -/
def asks : Request :=
  Request.setQDesc (Request.setQId (Request.setType (Memory.Buf.zero REQUEST_SIZE) .pluginCpuInfo) 0) 0

theorem asksCore_asks : AsksCore asks 0 0 := ⟨by decide +kernel, by decide +kernel, by decide +kernel⟩

/-- Two clients arrive and the second one creates a task. -/
def visit : List Tick := OwnerExample.arrive 7 8 ++ OwnerExample.gives 5 OwnerExample.create.1

end CpuInfoExample

open CpuInfoExample

/-- A task is placed on core 0, and the reply about position 0 counts it. -/
theorem cpuInfo_visit : ∃ data, Reach daemonStep (fun _ _ => True)
    (Daemon.start 3 (Sched.start CpuInfoExample.inOrderPlgs BooksExample.kernel)) data ∧
      (data.sched.plugin 0).taskCountPercpu 0 = 1 ∧ ReportsCore (data.holding 5 CpuInfoExample.asks) 5 0 0 := by
  have hend : (runGood daemonStep (fun _ _ => True) CpuInfoExample.visit
      (Daemon.start 3 (Sched.start CpuInfoExample.inOrderPlgs BooksExample.kernel))).any (fun data =>
        (data.sched.plugin 0).taskCountPercpu 0 = 1) = true := by decide +kernel
  obtain ⟨data, hd, hv⟩ := (Option.any_eq_true _ _).mp hend
  have hreach := reach_runGood hd
  have halloc : ∀ n, ∀ m ∈ byPosition n, n ≤ m := by
    intro n m hm
    cases hm
    exact le_rfl
  have hcore := @cpuInfo_run byPosition BooksExample.load CpuInfoExample.inOrder CpuInfoExample.inOrderPlgs
    BooksExample.kernel 3 data 0 _ 5 0 CpuInfoExample.asks 0 halloc CpuInfoExample.init_inOrderPlgs hreach rfl rfl
    asksCore_asks
  exact ⟨data, hreach, of_decide_eq_true hv, hcore.1 rfl⟩

/-- The task is on core 1, and the reply about position 0, core 1, counts none. -/
theorem not_cpuInfo_run : ¬ ∀ (numProcs : ℕ) (util : ℚ) (load : List UInt8 → Option Image) (confs : List ConfPlugin)
    (plgs : List Plugin) (k : Kernel) (socket : ℕ) (data : Daemon) (i p pos : ℕ) (req : Request) (conf : ConfPlugin)
    (core : ℤ), configurationValid numProcs ⟨util, confs⟩ = true →
      rtfPluginsInit byPosition load confs = some plgs →
        Reach daemonStep (fun _ _ => True) (Daemon.start socket (Sched.start plgs k)) data →
          confs[p]? = some conf → conf.cores[pos]? = some core → AsksCore req p pos →
            ReportsCore (data.holding i req) i p core.toNat := by
  intro h
  have hend : (runGood daemonStep (fun _ _ => True) CpuInfoExample.visit
      (Daemon.start 3 (Sched.start CpuInfoExample.plgs BooksExample.kernel))).any (fun data =>
        (data.sched.plugin 0).cpulist = [1, 0] ∧ (data.sched.plugin 0).entries = some 2 ∧
          data.sched.numOfPlugins = 1 ∧ (data.sched.plugin 0).taskCountPercpu 0 = 0 ∧
            (data.sched.plugin 0).taskCountPercpu 1 = 1) = true := by decide +kernel
  obtain ⟨data, hd, hv⟩ := (Option.any_eq_true _ _).mp hend
  obtain ⟨hcpulist, hentries, hn, hslot, hcount⟩ := of_decide_eq_true hv
  have hreports : ReportsCore (data.holding 5 CpuInfoExample.asks) 5 0 1 :=
    h 2 1 _ _ _ _ _ _ 5 0 0 _ _ _ (by decide +kernel) CpuInfoExample.init_plgs (reach_runGood hd) rfl rfl asksCore_asks
  have hsame := (reportsCore_iff (by simpa [Daemon.holding] using asksCore_asks) (by simp [Daemon.holding, hn])
    (by simp [Daemon.holding, hcpulist]) (by simp [Daemon.holding, PluginInfo.InTable, hentries])).mp hreports
  have hbad : (data.sched.plugin 0).taskCountPercpu 0 = (data.sched.plugin 0).taskCountPercpu 1 := hsame.1
  rw [hslot, hcount] at hbad
  exact absurd hbad (by decide)

end Retif
