/-
# Plugins and what they keep

`struct rtf_plugin`, the file-level statics of the plugin images, and the
parts of the four plugins that are the same in several of them: the choice of
a core, the utilisation tests, the preferred plugin, and the walk that hands
out priorities.

The per-core tables are indexed by core id. `entries` says how many entries
they have: `some cputot` as `rtf_plugins_init` allocates them, or `none` for
tables read as maps from core id. An index past the last entry, a core past
`MAX_CPU`, a priority past `MAX_PRIO`, the first core of an empty list and a
`NULL` node are faults: the run stops there.

The scan of `least_loaded_cpu` compares every core with the first one and
remembers the last that beats it: it never updates the best value
(`scanCpus_eq`).

Key definitions: `Plugin`, `Statics`, `World`, `Fault`, `leastLoaded`,
`evalUtilMissing`, `rankLoop`.
Key theorems: `leastLoaded_mem`, `leastLoaded_eq`, `utilizationTest_ok`,
`desiredUtilizationTest_ok`, `rankLoop_frame`.
-/
import Retif.TaskList
import Retif.Kernel
import Retif.Lib.Runs

namespace Retif

/-- What stops a run. -/
inductive Fault where
  /-- a per-core table of a plugin, past its last entry -/
  | table
  /-- a static table, at a core from `MAX_CPU` on -/
  | core
  /-- `n_per_prio`, at a priority from `MAX_PRIO` on -/
  | prio
  /-- `cpulist[0]` of an empty list -/
  | cpulist
  /-- a `NULL` node -/
  | null
  /-- `s->plugin[i]` outside the table -/
  | plugin
  /-- `client[i]` outside the table -/
  | client
  deriving DecidableEq, Repr

/-- The four plugins of `plugins/`. -/
inductive Kind where
  | edf
  | rm
  | rr
  | fp
  deriving DecidableEq, Repr

def MAX_CPU : ℕ := 32

def MAX_PRIO : ℕ := 100

/-- The fields of `struct rtf_plugin` that never change. `kind` and `dl` are
the image `dl_ptr` points to: its code, and which copy of its statics. -/
structure PluginInfo where
  id : ℤ
  name : List UInt8
  kind : Kind
  dl : ℕ
  prioMin : ℤ
  prioMax : ℤ
  cpulist : List ℕ
  entries : Option ℕ

/-- `struct rtf_plugin`. -/
structure Plugin extends PluginInfo where
  utilFreePercpu : ℕ → ℚ
  taskCountPercpu : ℕ → ℤ
  tasks : ℕ → Taskset

/-- The file-level statics of an image: `dist_prio` (RM, RR) and `n_per_prio` (RR). -/
structure Statics where
  distPrio : ℕ → UInt32
  nPerPrio : ℕ → ℕ → ℤ

/-- What the plugins work on. -/
structure World where
  plugin : ℕ → Plugin
  statics : ℕ → Statics
  heap : Heap
  kernel : Kernel

def World.setTask (w : World) (a : Addr) (t : Task) : World :=
  { w with heap := Function.update w.heap a t }

def World.setPlugin (w : World) (i : ℕ) (p : Plugin) : World :=
  { w with plugin := Function.update w.plugin i p }

def World.setStatics (w : World) (d : ℕ) (st : Statics) : World :=
  { w with statics := Function.update w.statics d st }

/-! ### Tables -/

/-- Core `c` has an entry in the per-core tables. -/
def PluginInfo.InTable (this : PluginInfo) (c : ℕ) : Prop := ∀ n ∈ this.entries, c < n

instance (this : PluginInfo) (c : ℕ) : Decidable (this.InTable c) := by
  unfold PluginInfo.InTable; infer_instance

/-- A read of a per-core table. -/
def Plugin.read {α : Type} (this : Plugin) (table : ℕ → α) (c : ℕ) : Except Fault α :=
  if this.InTable c then .ok (table c) else .error .table

def Plugin.addUtil (this : Plugin) (c : ℕ) (u : ℚ) : Except Fault Plugin :=
  if this.InTable c then
    .ok { this with utilFreePercpu := Function.update this.utilFreePercpu c (this.utilFreePercpu c + u) }
  else .error .table

def Plugin.addCount (this : Plugin) (c : ℕ) (n : ℤ) : Except Fault Plugin :=
  if this.InTable c then
    .ok { this with taskCountPercpu := Function.update this.taskCountPercpu c (this.taskCountPercpu c + n) }
  else .error .table

def Plugin.setTasks (this : Plugin) (c : ℕ) (ts : Taskset) : Plugin :=
  { this with tasks := Function.update this.tasks c ts }

theorem Plugin.setTasks_self (this : Plugin) (c : ℕ) (ts : Taskset) : (this.setTasks c ts).tasks c = ts :=
  Function.update_self ..

/-- `dist_prio[c]` is an entry of the static table. -/
def checkCore (c : ℕ) : Except Fault Unit := if c < MAX_CPU then .ok () else .error .core

/-- `n_per_prio[c][p]` is an entry of the static table. -/
def checkPrio (c : ℕ) (p : UInt32) : Except Fault Unit := do
  checkCore c
  if p.toNat < MAX_PRIO then .ok () else .error .prio

def Statics.addDist (st : Statics) (c : ℕ) (n : UInt32) : Statics :=
  { st with distPrio := Function.update st.distPrio c (st.distPrio c + n) }

def Statics.addPerPrio (st : Statics) (c : ℕ) (p : UInt32) (n : ℤ) : Statics :=
  { st with
    nPerPrio := Function.update st.nPerPrio c
      (Function.update (st.nPerPrio c) p.toNat (st.nPerPrio c p.toNat + n)) }

theorem Statics.addDist_self (st : Statics) (c : ℕ) (n : UInt32) :
    (st.addDist c n).distPrio c = st.distPrio c + n := Function.update_self ..

theorem Statics.addDist_ne (st : Statics) {c d : ℕ} (hd : d ≠ c) (n : UInt32) :
    (st.addDist c n).distPrio d = st.distPrio d := Function.update_of_ne hd _ _

theorem read_ok {α : Type} {this : Plugin} {table : ℕ → α} {c : ℕ} {v : α} :
    this.read table c = .ok v ↔ this.InTable c ∧ table c = v := by
  unfold Plugin.read; split <;> simp_all

theorem addUtil_ok {this p : Plugin} {c : ℕ} {u : ℚ} (h : this.addUtil c u = .ok p) :
    this.InTable c ∧
      p = { this with utilFreePercpu := Function.update this.utilFreePercpu c (this.utilFreePercpu c + u) } := by
  unfold Plugin.addUtil at h; split at h <;> simp_all

theorem addCount_ok {this p : Plugin} {c : ℕ} {n : ℤ} (h : this.addCount c n = .ok p) :
    this.InTable c ∧
      p = { this with taskCountPercpu := Function.update this.taskCountPercpu c (this.taskCountPercpu c + n) } := by
  unfold Plugin.addCount at h; split at h <;> simp_all

theorem checkCore_ok {c : ℕ} {u : Unit} : checkCore c = .ok u ↔ c < MAX_CPU := by
  unfold checkCore; split <;> simp_all

theorem checkPrio_ok {c : ℕ} {p : UInt32} {u : Unit} :
    checkPrio c p = .ok u ↔ c < MAX_CPU ∧ p.toNat < MAX_PRIO := by
  unfold checkPrio
  rw [bind_ok]
  constructor
  · rintro ⟨_, h1, h2⟩
    refine ⟨checkCore_ok.mp h1, ?_⟩
    split at h2
    · assumption
    · cases h2
  · rintro ⟨h1, h2⟩
    exact ⟨(), checkCore_ok.mpr h1, by rw [if_pos h2]⟩

/-! ### The choice of a core -/

section Scan

variable {α : Type}

/-- The loop of `least_loaded_cpu` from the second core on. `best` is the value
of the first core throughout. -/
def scanCpus (this : Plugin) (table : ℕ → α) (better : α → α → Bool) (best : α) :
    List ℕ → ℕ → Except Fault ℕ
  | [], cpu => .ok cpu
  | c :: cs, cpu => do
    let v ← this.read table c
    scanCpus this table better best cs (if better v best then c else cpu)

/-- `least_loaded_cpu`, for the table and the comparison of the plugin. -/
def leastLoaded (this : Plugin) (table : ℕ → α) (better : α → α → Bool) : Except Fault ℕ :=
  match this.cpulist with
  | [] => .error .cpulist
  | c :: cs => do
    let best ← this.read table c
    scanCpus this table better best cs c

/-- The scan ends on the last core that beats `best`. -/
theorem scanCpus_eq {this : Plugin} {table : ℕ → α} {better : α → α → Bool} {best : α} {cs : List ℕ} {cpu c : ℕ}
    (h : scanCpus this table better best cs cpu = .ok c) :
    c = (cs.filter fun d => better (table d) best).getLastD cpu ∧ ∀ d ∈ cs, this.InTable d := by
  induction cs generalizing cpu with
  | nil =>
    obtain rfl := Except.ok.inj h
    exact ⟨rfl, by simp⟩
  | cons d cs ih =>
    obtain ⟨v, hv, h⟩ := bind_ok.mp h
    obtain ⟨hd, rfl⟩ := read_ok.mp hv
    obtain ⟨h1, h2⟩ := ih h
    refine ⟨?_, by simpa using ⟨hd, h2⟩⟩
    by_cases hb : better (table d) best = true
    · rw [if_pos hb] at h1
      rw [List.filter_cons, if_pos hb, List.getLastD_cons, h1]
    · rw [if_neg hb] at h1
      rw [List.filter_cons, if_neg hb, h1]

/-- What `least_loaded_cpu` picks: the last core that beats the first, or the first. -/
theorem leastLoaded_eq {this : Plugin} {table : ℕ → α} {better : α → α → Bool} {c : ℕ}
    (h : leastLoaded this table better = .ok c) : ∃ c₀ cs, this.cpulist = c₀ :: cs ∧
      c = (cs.filter fun d => better (table d) (table c₀)).getLastD c₀ ∧ ∀ d ∈ this.cpulist, this.InTable d := by
  unfold leastLoaded at h
  split at h
  · cases h
  · rename_i c₀ cs hl
    obtain ⟨v, hv, h⟩ := bind_ok.mp h
    obtain ⟨h0, rfl⟩ := read_ok.mp hv
    obtain ⟨h1, h2⟩ := scanCpus_eq h
    exact ⟨c₀, cs, hl, h1, by rw [hl]; simpa using ⟨h0, h2⟩⟩

/-- The core picked is one of the plugin's. -/
theorem leastLoaded_mem {this : Plugin} {table : ℕ → α} {better : α → α → Bool} {c : ℕ}
    (h : leastLoaded this table better = .ok c) : c ∈ this.cpulist ∧ this.InTable c := by
  obtain ⟨c₀, cs, hl, hc, hin⟩ := leastLoaded_eq h
  have hm : c ∈ this.cpulist := by
    rw [hl, hc, List.getLastD_eq_getLast?]
    cases hf : (cs.filter fun d => better (table d) (table c₀)).getLast? with
    | none => simp
    | some d =>
      have := List.mem_of_getLast? hf
      simp only [Option.getD_some]
      exact List.mem_cons_of_mem _ (List.mem_filter.mp this).1
  exact ⟨hm, hin c hm⟩

end Scan

/-! ### The utilisation tests -/

/-- The first loop of `eval_util_missing`: does some core have `taskUtil` free? -/
def fitsSome (this : Plugin) (taskUtil : ℚ) : List ℕ → Except Fault Bool
  | [] => .ok false
  | c :: cs => do
    let free ← this.read this.utilFreePercpu c
    if taskUtil ≤ free then .ok true else fitsSome this taskUtil cs

/-- `least_loaded_cpu` of EDF and RM: the most free utilisation. -/
def mostFree (this : Plugin) : Except Fault ℕ :=
  leastLoaded this this.utilFreePercpu fun v best => decide (v > best)

/-- `least_loaded_cpu` of RR and FP: the fewest tasks. -/
def fewestTasks (this : Plugin) : Except Fault ℕ :=
  leastLoaded this this.taskCountPercpu fun v best => decide (v < best)

def evalUtilMissing (this : Plugin) (taskUtil : ℚ) : Except Fault ℚ := do
  let fits ← fitsSome this taskUtil this.cpulist
  if fits then .ok 0
  else do
    let cpuMin ← mostFree this
    let free ← this.read this.utilFreePercpu cpuMin
    .ok (taskUtil - free)

def utilizationTest (this : Plugin) (taskUtil : ℚ) : Except Fault Res := do
  let missingUtil ← evalUtilMissing this taskUtil
  if missingUtil = 0 then .ok .ok else .ok .no

def desiredUtilizationTest (this : Plugin) (taskUtil taskDesUtil : ℚ) : Except Fault Res := do
  let missingUtil ← evalUtilMissing this taskUtil
  let missingDesUtil ← evalUtilMissing this taskDesUtil
  if missingDesUtil = 0 then .ok .ok
  else if missingDesUtil > 0 ∧ missingUtil = 0 then .ok .part
  else .ok .no

/-- The request names another plugin. -/
def hasAnotherPreference (this : Plugin) (t : Task) : Bool :=
  match rtfTaskGetPreferredPlugin t with
  | some preferred => decide (cstr this.name ≠ preferred)
  | none => false

/-- "if not preferred plugin support is partial". -/
def demote (this : Plugin) (t : Task) (res : Res) : Res :=
  if hasAnotherPreference this t ∧ res = .ok then .part else res

theorem demote_no {this : Plugin} {t : Task} {r : Res} : demote this t r = .no ↔ r = .no := by
  unfold demote
  split
  · rename_i h; simp [h.2]
  · rfl

/-- Some core of the plugin has `u` free. -/
def Fits (this : Plugin) (u : ℚ) : Prop := ∃ c ∈ this.cpulist, u ≤ this.utilFreePercpu c

instance (this : Plugin) (u : ℚ) : Decidable (Fits this u) := by unfold Fits; infer_instance

theorem fitsSome_ok {this : Plugin} {u : ℚ} {cs : List ℕ} {b : Bool} (h : fitsSome this u cs = .ok b) :
    b = true ↔ ∃ c ∈ cs, u ≤ this.utilFreePercpu c := by
  induction cs with
  | nil =>
    obtain rfl := Except.ok.inj h
    simp
  | cons c cs ih =>
    obtain ⟨v, hv, h⟩ := bind_ok.mp h
    obtain ⟨-, rfl⟩ := read_ok.mp hv
    split at h
    · rename_i hc
      obtain rfl := Except.ok.inj h
      simp [hc]
    · rename_i hc
      rw [ih h]
      simp [hc]

/-- The missing utilisation is 0 exactly when some core fits, else positive. -/
theorem evalUtilMissing_ok {this : Plugin} {u m : ℚ} (h : evalUtilMissing this u = .ok m) :
    (m = 0 ↔ Fits this u) ∧ (¬ Fits this u → 0 < m) := by
  obtain ⟨b, hb, h⟩ := bind_ok.mp h
  have hf : b = true ↔ Fits this u := fitsSome_ok hb
  split at h
  · rename_i hbt
    cases h
    exact ⟨by simp [hf.mp hbt], fun hn => absurd (hf.mp hbt) hn⟩
  · rename_i hbf
    have hn : ¬ Fits this u := fun hfit => hbf (hf.mpr hfit)
    obtain ⟨c, hc, h⟩ := bind_ok.mp h
    obtain ⟨v, hv, h⟩ := bind_ok.mp h
    obtain ⟨-, rfl⟩ := read_ok.mp hv
    cases h
    have hlt : this.utilFreePercpu c < u := by
      by_contra hle
      exact hn ⟨c, (leastLoaded_mem hc).1, not_lt.mp hle⟩
    have hpos : 0 < u - this.utilFreePercpu c := by linarith
    exact ⟨⟨fun h0 => absurd h0 hpos.ne', fun hfit => absurd hfit hn⟩, fun _ => hpos⟩

theorem utilizationTest_ok {this : Plugin} {u : ℚ} {r : Res} (h : utilizationTest this u = .ok r) :
    r = if Fits this u then .ok else .no := by
  obtain ⟨m, hm, h⟩ := bind_ok.mp h
  obtain ⟨h0, -⟩ := evalUtilMissing_ok hm
  by_cases hf : Fits this u
  · rw [if_pos (h0.mpr hf)] at h; cases h; rw [if_pos hf]
  · rw [if_neg (fun h' => hf (h0.mp h'))] at h; cases h; rw [if_neg hf]

theorem desiredUtilizationTest_ok {this : Plugin} {u d : ℚ} {r : Res}
    (h : desiredUtilizationTest this u d = .ok r) :
    r = if Fits this d then .ok else if Fits this u then .part else .no := by
  obtain ⟨m, hm, h⟩ := bind_ok.mp h
  obtain ⟨n, hn, h⟩ := bind_ok.mp h
  obtain ⟨hm0, -⟩ := evalUtilMissing_ok hm
  obtain ⟨hn0, hn1⟩ := evalUtilMissing_ok hn
  by_cases hd : Fits this d
  · rw [if_pos (hn0.mpr hd)] at h; cases h; rw [if_pos hd]
  · rw [if_neg (fun h' => hd (hn0.mp h'))] at h
    rw [if_neg hd]
    by_cases hu : Fits this u
    · rw [if_pos ⟨hn1 hd, hm0.mpr hu⟩] at h; cases h; rw [if_pos hu]
    · rw [if_neg (fun h' => hu (hm0.mp h'.2))] at h; cases h; rw [if_neg hu]

/-! ### Handing out priorities -/

/-- The walk of `assign_priorities` over a list: a task whose key is the one
remembered gets the priority of the task before it, any other gets the next
one. What is remembered of the key is its low 32 bits (`unsigned int
prec_period`, `prec_prio`); `idx` counts the priorities handed out. -/
def rankLoop (key : Task → ℕ) (next : UInt32 → UInt32 → UInt32) :
    List Addr → Heap → UInt32 → UInt32 → UInt32 → Heap
  | [], heap, _, _, _ => heap
  | a :: as, heap, curr, prec, idx =>
    if prec.toNat = key (heap a) then
      rankLoop key next as (Function.update heap a { heap a with schedprio := curr }) curr prec idx
    else
      rankLoop key next as (Function.update heap a { heap a with schedprio := next idx curr })
        (next idx curr) (UInt32.ofNat (key (heap a))) (idx + 1)

/-- Two heaps that differ in real priorities only. -/
def SamePrio (h h' : Heap) : Prop := ∀ a, h' a = { h a with schedprio := (h' a).schedprio }

theorem SamePrio.refl (h : Heap) : SamePrio h h := fun _ => rfl

theorem SamePrio.trans {h h' h'' : Heap} (h1 : SamePrio h h') (h2 : SamePrio h' h'') : SamePrio h h'' := by
  intro a
  rw [h2 a, h1 a]

theorem samePrio_update (h : Heap) (a : Addr) (p : UInt32) :
    SamePrio h (Function.update h a { h a with schedprio := p }) := by
  intro b
  by_cases hb : b = a
  · subst hb; simp
  · simp [hb]

/-- The walk changes nothing but real priorities. -/
theorem rankLoop_samePrio (key : Task → ℕ) (next : UInt32 → UInt32 → UInt32) (as : List Addr) (heap : Heap)
    (curr prec idx : UInt32) : SamePrio heap (rankLoop key next as heap curr prec idx) := by
  induction as generalizing heap curr prec idx with
  | nil => exact .refl heap
  | cons a as ih =>
    unfold rankLoop
    split
    · exact (samePrio_update heap a _).trans (ih _ _ _ _)
    · exact (samePrio_update heap a _).trans (ih _ _ _ _)

/-- The walk leaves the tasks that are not on the list alone. -/
theorem rankLoop_frame (key : Task → ℕ) (next : UInt32 → UInt32 → UInt32) {b : Addr} (as : List Addr) (heap : Heap)
    (curr prec idx : UInt32) (hb : b ∉ as) : rankLoop key next as heap curr prec idx b = heap b := by
  induction as generalizing heap curr prec idx with
  | nil => rfl
  | cons a as ih =>
    simp only [List.mem_cons, not_or] at hb
    unfold rankLoop
    split
    · rw [ih _ _ _ _ hb.2, Function.update_of_ne hb.1]
    · rw [ih _ _ _ _ hb.2, Function.update_of_ne hb.1]

/-- `assign_priorities` of RR in its other regime: each task alone. -/
def mapLoop (prio : Task → UInt32) : List Addr → Heap → Heap
  | [], heap => heap
  | a :: as, heap => mapLoop prio as (Function.update heap a { heap a with schedprio := prio (heap a) })

theorem mapLoop_samePrio (prio : Task → UInt32) (as : List Addr) (heap : Heap) :
    SamePrio heap (mapLoop prio as heap) := by
  induction as generalizing heap with
  | nil => exact .refl heap
  | cons a as ih => exact (samePrio_update heap a _).trans (ih _)

theorem mapLoop_frame (prio : Task → UInt32) {b : Addr} (as : List Addr) (heap : Heap) (hb : b ∉ as) :
    mapLoop prio as heap b = heap b := by
  induction as generalizing heap with
  | nil => rfl
  | cons a as ih =>
    simp only [List.mem_cons, not_or] at hb
    rw [mapLoop, ih _ hb.2, Function.update_of_ne hb.1]

end Retif
