/-
# The queries about one client, one plugin, one core

The handlers index the table of clients, the table of plugins and the per-core
tables with numbers a client sends. Their tests catch what is too large, but
for slot `CHANNEL_MAX_SIZE` of the clients, and nothing that is negative. In
the model an access out of range stops the handler.

Key definitions: `Indexes`, `SafelyAnswered`, `Allocated`.
Key theorems: `reqConnectionInfo_answers`, `reqPluginInfo_answers`,
`reqPluginCpuInfo_answers`, `queries_answer_iff`, `allocated_run`.
-/
import Retif.Indices
import Retif.Others

namespace Retif

/-- `i` is an index of a table of `n` entries. -/
def Indexes (i : ℤ) (n : ℕ) : Prop := 0 ≤ i ∧ i < n

/-- The handler answers, so that all its accesses were in range, and with
`err` unless its indices are `valid`. -/
def SafelyAnswered (handler : Except Fault (Reply × Daemon)) (valid : Prop) (err : RepType) : Prop :=
  ∃ rep data, handler = .ok (rep, data) ∧ (¬ valid → rep = ⟨err, .nothing⟩)

theorem safelyAnswered_error {valid : Prop} {err : RepType} {e : Fault} : ¬ SafelyAnswered (.error e) valid err := by
  rintro ⟨rep, data, h, -⟩
  cases h

theorem safelyAnswered_ok {valid : Prop} {err : RepType} {rep : Reply} {data : Daemon} :
    SafelyAnswered (.ok (rep, data)) valid err ↔ (¬ valid → rep = ⟨err, .nothing⟩) := by
  constructor
  · rintro ⟨rep', data', h, himp⟩
    simp only [Except.ok.injEq, Prod.mk.injEq] at h
    obtain ⟨rfl, rfl⟩ := h
    exact himp
  · exact fun himp => ⟨rep, data, rfl, himp⟩

/-- The per-core tables have an entry for each core, as `rtf_plugins_init` allocates them. -/
def Allocated (s : Sched) : Prop :=
  ∀ i < s.numOfPlugins, (s.plugin i).entries = some (s.plugin i).cpulist.length

section Handlers

variable (data : Daemon) (cliId : ℕ)

theorem reqConnectionInfo_answers :
    SafelyAnswered (reqConnectionInfo data cliId)
        (Indexes (rtfCarrierGetReq data.chann cliId).qDesc.toInt CHANNEL_MAX_SIZE) .connectionInfoErr ↔
      0 ≤ (rtfCarrierGetReq data.chann cliId).qDesc.toInt ∧
        (rtfCarrierGetReq data.chann cliId).qDesc.toInt ≠ CHANNEL_MAX_SIZE := by
  unfold reqConnectionInfo Indexes
  generalize (rtfCarrierGetReq data.chann cliId).qDesc.toInt = cdesc
  dsimp only
  split_ifs with hbig hout hnone
  · simp only [safelyAnswered_ok, implies_true, true_iff]
    omega
  · simp only [safelyAnswered_error, false_iff]
    omega
  · simp only [safelyAnswered_ok, implies_true, true_iff]
    omega
  · have hin : 0 ≤ cdesc ∧ cdesc < CHANNEL_MAX_SIZE := by omega
    simp only [safelyAnswered_ok, hin, and_self, not_true_eq_false, false_implies, true_iff, true_and]
    omega

theorem reqPluginInfo_answers :
    SafelyAnswered (reqPluginInfo data cliId)
        (Indexes (rtfCarrierGetReq data.chann cliId).qDesc.toInt data.sched.numOfPlugins) .pluginInfoErr ↔
      0 ≤ (rtfCarrierGetReq data.chann cliId).qDesc.toInt := by
  unfold reqPluginInfo Indexes
  generalize (rtfCarrierGetReq data.chann cliId).qDesc.toInt = pdesc
  dsimp only
  split_ifs with hbig hneg
  · simp only [safelyAnswered_ok, implies_true, true_iff]
    omega
  · simp only [safelyAnswered_error, false_iff]
    omega
  · have hin : 0 ≤ pdesc ∧ pdesc < data.sched.numOfPlugins := by omega
    simp [safelyAnswered_ok, hin]

/-- Where the first index is too large, the second is not looked at. -/
theorem reqPluginCpuInfo_answers (htab : Allocated data.sched) :
    SafelyAnswered (reqPluginCpuInfo data cliId)
        (Indexes (rtfCarrierGetReq data.chann cliId).qDesc.toInt data.sched.numOfPlugins ∧
          Indexes (rtfCarrierGetReq data.chann cliId).qId.toInt
            (data.sched.plugin (rtfCarrierGetReq data.chann cliId).qDesc.toInt.toNat).cpulist.length)
        .pluginCpuInfoErr ↔
      0 ≤ (rtfCarrierGetReq data.chann cliId).qDesc.toInt ∧
        (data.sched.numOfPlugins ≤ (rtfCarrierGetReq data.chann cliId).qDesc.toInt ∨
          0 ≤ (rtfCarrierGetReq data.chann cliId).qId.toInt) := by
  unfold reqPluginCpuInfo Indexes
  dsimp only
  generalize (rtfCarrierGetReq data.chann cliId).qDesc.toInt = pdesc
  generalize (rtfCarrierGetReq data.chann cliId).qId.toInt = cpuid
  split_ifs with hbig hneg hcpu hcneg
  · simp only [safelyAnswered_ok, implies_true, true_iff]
    omega
  · simp only [safelyAnswered_error, false_iff]
    omega
  · simp only [safelyAnswered_ok, implies_true, true_iff]
    omega
  · simp only [safelyAnswered_error, false_iff]
    omega
  · have hlt : pdesc.toNat < data.sched.numOfPlugins := by omega
    have hin : (data.sched.plugin pdesc.toNat).InTable cpuid.toNat := by
      intro n hn
      rw [htab _ hlt] at hn
      cases hn
      omega
    have hread : ∀ {α : Type} (table : ℕ → α),
        (data.sched.plugin pdesc.toNat).read table cpuid.toNat = .ok (table cpuid.toNat) :=
      fun table => read_ok.mpr ⟨hin, rfl⟩
    rw [hread, ok_bind, hread, ok_bind, safelyAnswered_ok]
    have hvalid : (0 ≤ pdesc ∧ pdesc < data.sched.numOfPlugins) ∧
        (0 ≤ cpuid ∧ cpuid < (data.sched.plugin pdesc.toNat).cpulist.length) := by omega
    exact iff_of_true (fun hn => absurd hvalid hn) (by omega)

/-- **The queries access what is there, and answer any other index with their
error**, exactly when no index is negative and no client is asked about in
slot `CHANNEL_MAX_SIZE`. -/
theorem queries_answer_iff (htab : Allocated data.sched) :
    (SafelyAnswered (reqConnectionInfo data cliId)
        (Indexes (rtfCarrierGetReq data.chann cliId).qDesc.toInt CHANNEL_MAX_SIZE) .connectionInfoErr ↔
      0 ≤ (rtfCarrierGetReq data.chann cliId).qDesc.toInt ∧
        (rtfCarrierGetReq data.chann cliId).qDesc.toInt ≠ CHANNEL_MAX_SIZE) ∧
    (SafelyAnswered (reqPluginInfo data cliId)
        (Indexes (rtfCarrierGetReq data.chann cliId).qDesc.toInt data.sched.numOfPlugins) .pluginInfoErr ↔
      0 ≤ (rtfCarrierGetReq data.chann cliId).qDesc.toInt) ∧
    (SafelyAnswered (reqPluginCpuInfo data cliId)
        (Indexes (rtfCarrierGetReq data.chann cliId).qDesc.toInt data.sched.numOfPlugins ∧
          Indexes (rtfCarrierGetReq data.chann cliId).qId.toInt
            (data.sched.plugin (rtfCarrierGetReq data.chann cliId).qDesc.toInt.toNat).cpulist.length)
        .pluginCpuInfoErr ↔
      0 ≤ (rtfCarrierGetReq data.chann cliId).qDesc.toInt ∧
        (data.sched.numOfPlugins ≤ (rtfCarrierGetReq data.chann cliId).qDesc.toInt ∨
          0 ≤ (rtfCarrierGetReq data.chann cliId).qId.toInt)) :=
  ⟨reqConnectionInfo_answers data cliId, reqPluginInfo_answers data cliId, reqPluginCpuInfo_answers data cliId htab⟩

end Handlers

/-! ### Runs -/

theorem allocated_start {load : List UInt8 → Option Image} {confs : List ConfPlugin} {plgs : List Plugin}
    (hinit : rtfPluginsInit byPosition load confs = some plgs) (k : Kernel) : Allocated (Sched.start plgs k) := by
  intro i hi
  obtain ⟨c, img, -, -, hp⟩ := start_plugin hinit k hi
  rw [hp]
  simp [initPlugin, byPosition]

theorem allocated_step {s s' : Sched} {o : Op} {r : Res} (hA : Allocated s) (h : step s o = .ok (r, s')) :
    Allocated s' := by
  obtain ⟨hn, hinfo⟩ := sameConfig_step h
  intro i hi
  rw [hinfo i]
  exact hA i (hn ▸ hi)

/-- The tables keep their size in every state the daemon reaches. -/
theorem allocated_run {load : List UInt8 → Option Image} {confs : List ConfPlugin} {plgs : List Plugin}
    {k : Kernel} {socket : ℕ} {data : Daemon} (hinit : rtfPluginsInit byPosition load confs = some plgs)
    (hrun : Reach daemonStep (fun _ _ => True) (Daemon.start socket (Sched.start plgs k)) data) :
    Allocated data.sched := by
  refine hrun.inv (I := fun data => Allocated data.sched) (allocated_start hinit k) ?_
  intro data t out data' hI _ h
  exact daemonStep_inv (fun _ _ _ _ hA hs => allocated_step hA hs) h hI

namespace QueriesExample

/-- The daemon at its start with RM on cores 0 and 1, and a query of client 5. -/
def asks (desc id : Int32) : Daemon :=
  (Daemon.start 3 (Sched.start IndicesExample.plgs BooksExample.kernel)).holding 5
    (Request.setQDesc (Request.setQId (Memory.Buf.zero REQUEST_SIZE) id) desc)

end QueriesExample

open QueriesExample

theorem queries_answer_first :
    (SafelyAnswered (reqConnectionInfo (asks 0 0) 5)
        (Indexes (rtfCarrierGetReq (asks 0 0).chann 5).qDesc.toInt CHANNEL_MAX_SIZE) .connectionInfoErr ↔
      0 ≤ (rtfCarrierGetReq (asks 0 0).chann 5).qDesc.toInt ∧
        (rtfCarrierGetReq (asks 0 0).chann 5).qDesc.toInt ≠ CHANNEL_MAX_SIZE) ∧
    (SafelyAnswered (reqPluginInfo (asks 0 0) 5)
        (Indexes (rtfCarrierGetReq (asks 0 0).chann 5).qDesc.toInt (asks 0 0).sched.numOfPlugins) .pluginInfoErr ↔
      0 ≤ (rtfCarrierGetReq (asks 0 0).chann 5).qDesc.toInt) ∧
    (SafelyAnswered (reqPluginCpuInfo (asks 0 0) 5)
        (Indexes (rtfCarrierGetReq (asks 0 0).chann 5).qDesc.toInt (asks 0 0).sched.numOfPlugins ∧
          Indexes (rtfCarrierGetReq (asks 0 0).chann 5).qId.toInt
            ((asks 0 0).sched.plugin (rtfCarrierGetReq (asks 0 0).chann 5).qDesc.toInt.toNat).cpulist.length)
        .pluginCpuInfoErr ↔
      0 ≤ (rtfCarrierGetReq (asks 0 0).chann 5).qDesc.toInt ∧
        ((asks 0 0).sched.numOfPlugins ≤ (rtfCarrierGetReq (asks 0 0).chann 5).qDesc.toInt ∨
          0 ≤ (rtfCarrierGetReq (asks 0 0).chann 5).qId.toInt)) :=
  queries_answer_iff (asks 0 0) 5 (allocated_start IndicesExample.init_plgs BooksExample.kernel)

/-- Client 1024, plugin -1 and core -1 of plugin 0: each is read out of range. -/
theorem not_queries_answer :
    ¬ SafelyAnswered (reqConnectionInfo (asks 1024 0) 5)
        (Indexes (rtfCarrierGetReq (asks 1024 0).chann 5).qDesc.toInt CHANNEL_MAX_SIZE) .connectionInfoErr ∧
    ¬ SafelyAnswered (reqPluginInfo (asks (-1) 0) 5)
        (Indexes (rtfCarrierGetReq (asks (-1) 0).chann 5).qDesc.toInt (asks (-1) 0).sched.numOfPlugins)
        .pluginInfoErr ∧
    ¬ SafelyAnswered (reqPluginCpuInfo (asks 0 (-1)) 5)
        (Indexes (rtfCarrierGetReq (asks 0 (-1)).chann 5).qDesc.toInt (asks 0 (-1)).sched.numOfPlugins ∧
          Indexes (rtfCarrierGetReq (asks 0 (-1)).chann 5).qId.toInt
            ((asks 0 (-1)).sched.plugin (rtfCarrierGetReq (asks 0 (-1)).chann 5).qDesc.toInt.toNat).cpulist.length)
        .pluginCpuInfoErr := by
  refine ⟨?_, ?_, ?_⟩
  · rw [reqConnectionInfo_answers]
    decide +kernel
  · rw [reqPluginInfo_answers]
    decide +kernel
  · rw [reqPluginCpuInfo_answers _ _ (allocated_start IndicesExample.init_plgs BooksExample.kernel)]
    decide +kernel

end Retif
