/-
# Which faults the plugins can stop with

The plugins index three kinds of tables: their own per-core tables, the static
tables and the list of their cores. Each function here is read for a class
`bad` of faults: it avoids them where the table, or the core, is large enough,
in so far as the class has that fault at all. `Indexing` leaves out the faults
that no bound on an index prevents.

Key definitions: `Indexing`, `Room`.
Key theorems: `accept_avoids`, `change_avoids`, `schedule_avoids`,
`release_avoids`, `selectPlugin_avoids`.
-/
import Retif.Steps

namespace Retif

/-- Faults about indices: not an empty list of cores, a priority or `NULL`. -/
structure Indexing (bad : Fault → Prop) : Prop where
  cpulist : ¬ bad .cpulist
  prio : ¬ bad .prio
  null : ¬ bad .null

/-- Core `c` has an entry wherever the plugin looks it up. -/
def Room (bad : Fault → Prop) (this : PluginInfo) (c : ℕ) : Prop :=
  (bad .table → this.InTable c) ∧ (bad .core → this.kind.keepsList → c < MAX_CPU)

variable {bad : Fault → Prop}

/-! ### Tables -/

section Tables

variable {this : Plugin} {α : Type}

theorem read_avoids {table : ℕ → α} {c : ℕ} (h : bad .table → this.InTable c) : Avoids bad (this.read table c) := by
  unfold Plugin.read
  split
  · exact .ok _
  · rename_i hn
    exact .error fun hb => hn (h hb)

theorem addUtil_avoids {c : ℕ} {u : ℚ} (h : bad .table → this.InTable c) : Avoids bad (this.addUtil c u) := by
  unfold Plugin.addUtil
  split
  · exact .ok _
  · rename_i hn
    exact .error fun hb => hn (h hb)

theorem addCount_avoids {c : ℕ} {n : ℤ} (h : bad .table → this.InTable c) : Avoids bad (this.addCount c n) := by
  unfold Plugin.addCount
  split
  · exact .ok _
  · rename_i hn
    exact .error fun hb => hn (h hb)

theorem addUtil_returns {c : ℕ} (h : this.InTable c) (u : ℚ) : ∃ p, this.addUtil c u = .ok p :=
  ⟨_, if_pos h⟩

theorem addCount_returns {c : ℕ} (h : this.InTable c) (n : ℤ) : ∃ p, this.addCount c n = .ok p :=
  ⟨_, if_pos h⟩

theorem checkCore_avoids {c : ℕ} (h : bad .core → c < MAX_CPU) : Avoids bad (checkCore c) := by
  unfold checkCore
  split
  · exact .ok _
  · rename_i hn
    exact .error fun hb => hn (h hb)

theorem checkPrio_avoids {c : ℕ} {p : UInt32} (hb : Indexing bad) (h : bad .core → c < MAX_CPU) :
    Avoids bad (checkPrio c p) := by
  refine Avoids.bind (checkCore_avoids h) fun _ _ => ?_
  split
  · exact .ok _
  · exact .error hb.prio

end Tables

/-! ### The functions of the plugins -/

section Functions

variable {this : Plugin} {α : Type}

theorem scanCpus_avoids {table : ℕ → α} {better : α → α → Bool} {best : α} : ∀ {cs : List ℕ} {cpu : ℕ},
    (∀ c ∈ cs, bad .table → this.InTable c) → Avoids bad (scanCpus this table better best cs cpu)
  | [], _, _ => .ok _
  | c :: cs, cpu, h => by
    refine Avoids.bind (read_avoids (h c (List.mem_cons_self ..))) fun v _ => ?_
    exact scanCpus_avoids fun d hd => h d (List.mem_cons_of_mem c hd)

theorem leastLoaded_avoids {table : ℕ → α} {better : α → α → Bool} (hb : Indexing bad)
    (h : ∀ c ∈ this.cpulist, bad .table → this.InTable c) : Avoids bad (leastLoaded this table better) := by
  unfold leastLoaded
  split
  · exact .error hb.cpulist
  · rename_i c cs hl
    rw [hl] at h
    refine Avoids.bind (read_avoids (h c (List.mem_cons_self ..))) fun v _ => ?_
    exact scanCpus_avoids fun d hd => h d (List.mem_cons_of_mem c hd)

theorem fitsSome_avoids {u : ℚ} : ∀ {cs : List ℕ}, (∀ c ∈ cs, bad .table → this.InTable c) →
    Avoids bad (fitsSome this u cs)
  | [], _ => .ok _
  | c :: cs, h => by
    refine Avoids.bind (read_avoids (h c (List.mem_cons_self ..))) fun v _ => ?_
    split
    · exact .ok _
    · exact fitsSome_avoids fun d hd => h d (List.mem_cons_of_mem c hd)

theorem evalUtilMissing_avoids {u : ℚ} (hb : Indexing bad) (h : ∀ c ∈ this.cpulist, bad .table → this.InTable c) :
    Avoids bad (evalUtilMissing this u) := by
  refine Avoids.bind (fitsSome_avoids h) fun b _ => ?_
  split
  · exact .ok _
  · refine Avoids.bind (leastLoaded_avoids hb h) fun c hc => ?_
    refine Avoids.bind (read_avoids fun _ => (leastLoaded_mem hc).2) fun v _ => ?_
    exact .ok _

theorem utilizationTest_avoids {u : ℚ} (hb : Indexing bad) (h : ∀ c ∈ this.cpulist, bad .table → this.InTable c) :
    Avoids bad (utilizationTest this u) := by
  refine Avoids.bind (evalUtilMissing_avoids hb h) fun m _ => ?_
  split <;> exact .ok _

theorem desiredUtilizationTest_avoids {u d : ℚ} (hb : Indexing bad)
    (h : ∀ c ∈ this.cpulist, bad .table → this.InTable c) : Avoids bad (desiredUtilizationTest this u d) := by
  refine Avoids.bind (evalUtilMissing_avoids hb h) fun m _ => ?_
  refine Avoids.bind (evalUtilMissing_avoids hb h) fun n _ => ?_
  split
  · exact .ok _
  · split <;> exact .ok _

theorem EDF.accept_avoids {t : Task} (hb : Indexing bad) (h : ∀ c ∈ this.cpulist, bad .table → this.InTable c) :
    Avoids bad (EDF.rtfPlgTaskAccept this t) := by
  unfold EDF.rtfPlgTaskAccept
  split
  · exact .ok _
  split
  · exact .ok _
  split
  · exact .ok _
  refine Avoids.bind ?_ fun _ _ => .ok _
  unfold EDF.admission
  split
  · exact utilizationTest_avoids hb h
  · exact desiredUtilizationTest_avoids hb h

theorem RM.accept_avoids {t : Task} (hb : Indexing bad) (h : ∀ c ∈ this.cpulist, bad .table → this.InTable c) :
    Avoids bad (RM.rtfPlgTaskAccept this t) := by
  unfold RM.rtfPlgTaskAccept
  split
  · exact .ok _
  split
  · exact .ok _
  exact Avoids.bind (utilizationTest_avoids hb h) fun _ _ => .ok _

/-- Asking a plugin reads its cores only. -/
theorem accept_avoids {t : Task} (hb : Indexing bad) (h : ∀ c ∈ this.cpulist, Room bad this.toPluginInfo c) :
    Avoids bad (rtfPlgTaskAccept this t) := by
  have h' : ∀ c ∈ this.cpulist, bad .table → this.InTable c := fun c hc => (h c hc).1
  unfold rtfPlgTaskAccept
  split
  · exact EDF.accept_avoids hb h'
  · exact RM.accept_avoids hb h'
  · exact .ok _
  · exact .ok _

/-- Asking about a change also touches the core of a task of its own. -/
theorem change_avoids {t : Task} (hb : Indexing bad) (h : ∀ c ∈ this.cpulist, Room bad this.toPluginInfo c)
    (ht : t.pluginid = this.id → Room bad this.toPluginInfo t.cpu) : Avoids bad (rtfPlgTaskChange this t) := by
  have h' : ∀ c ∈ this.cpulist, bad .table → this.InTable c := fun c hc => (h c hc).1
  unfold rtfPlgTaskChange
  split
  · unfold EDF.rtfPlgTaskChange
    split
    · rename_i hown
      refine Avoids.bind (addUtil_avoids (ht hown).1) fun p hp => ?_
      obtain ⟨-, rfl⟩ := addUtil_ok hp
      refine Avoids.bind (EDF.accept_avoids hb h') fun r _ => ?_
      exact Avoids.bind (addUtil_avoids (ht hown).1) fun _ _ => .ok _
    · exact Avoids.bind (EDF.accept_avoids hb h') fun _ _ => .ok _
  · unfold RM.rtfPlgTaskChange
    split
    · rename_i hown
      refine Avoids.bind (addUtil_avoids (ht hown.1).1) fun p hp => ?_
      obtain ⟨-, rfl⟩ := addUtil_ok hp
      refine Avoids.bind (RM.accept_avoids hb h') fun r _ => ?_
      exact Avoids.bind (addUtil_avoids (ht hown.1).1) fun _ _ => .ok _
    · exact Avoids.bind (RM.accept_avoids hb h') fun _ _ => .ok _
  · exact .ok _
  · exact .ok _

theorem EDF.grant_avoids {t : Task} (hb : Indexing bad) (h : ∀ c ∈ this.cpulist, bad .table → this.InTable c)
    (ht : this.InTable t.cpu) : Avoids bad (EDF.grant this t) := by
  unfold EDF.grant
  split
  · exact .ok _
  · refine Avoids.bind (desiredUtilizationTest_avoids hb h) fun res _ => ?_
    split
    · exact .ok _
    · exact Avoids.bind (read_avoids fun _ => ht) fun _ _ => .ok _

variable {w : World} {i : ℕ} {a : Addr}

/-- Scheduling looks up the core it picks, one of the plugin's. -/
theorem schedule_avoids (hb : Indexing bad)
    (hR : ∀ c ∈ (w.plugin i).cpulist, Room bad (w.plugin i).toPluginInfo c) :
    Avoids bad (rtfPlgTaskSchedule w i a) := by
  have h : ∀ c ∈ (w.plugin i).cpulist, bad .table → (w.plugin i).InTable c := fun c hc => (hR c hc).1
  unfold rtfPlgTaskSchedule
  split
  · refine Avoids.bind (leastLoaded_avoids hb h) fun c hc => ?_
    have hin := (leastLoaded_mem hc).2
    refine Avoids.bind (EDF.grant_avoids hb h hin) fun t ht => ?_
    obtain ⟨x, u, rfl⟩ := EDF.grant_ok ht
    refine Avoids.bind (addUtil_avoids fun _ => hin) fun p hp => ?_
    obtain ⟨-, rfl⟩ := addUtil_ok hp
    exact Avoids.bind (addCount_avoids fun _ => hin) fun _ _ => .ok _
  · rename_i hk
    refine Avoids.bind (leastLoaded_avoids hb h) fun c hc => ?_
    obtain ⟨hmem, hin⟩ := leastLoaded_mem hc
    refine Avoids.bind (read_avoids fun _ => hin) fun ts hts => ?_
    refine Avoids.bind ?_ fun sh hsh => ?_
    · unfold RM.rank
      split
      · exact .ok _
      · exact Avoids.bind (checkCore_avoids fun hc => (hR c hmem).2 hc (by rw [hk]; rfl)) fun _ _ => .ok _
    · obtain ⟨st, heap⟩ := sh
      have hcpu : (heap a).cpu = c := by
        have := (RM.rank_frame hsh).1 a
        rw [Function.update_self] at this
        rw [this]
      have hin' : (w.plugin i).InTable (heap a).cpu := by rw [hcpu]; exact hin
      refine Avoids.bind (addUtil_avoids fun _ => hin') fun p hp => ?_
      obtain ⟨-, rfl⟩ := addUtil_ok hp
      exact Avoids.bind (addCount_avoids fun _ => hin') fun _ _ => .ok _
  · rename_i hk
    refine Avoids.bind (leastLoaded_avoids hb h) fun c hc => ?_
    obtain ⟨hmem, hin⟩ := leastLoaded_mem hc
    refine Avoids.bind (checkPrio_avoids hb fun hc => (hR c hmem).2 hc (by rw [hk]; rfl)) fun _ _ => ?_
    refine Avoids.bind (read_avoids fun _ => hin) fun ts hts => ?_
    refine Avoids.bind ?_ fun sh hsh => ?_
    · unfold RR.rank
      split
      · exact .ok _
      · split
        · exact .error hb.null
        · exact .ok _
    · obtain ⟨st, heap⟩ := sh
      have hcpu : (heap a).cpu = c := by
        have := (RR.rank_frame hsh).1 a
        rw [Function.update_self] at this
        rw [this]
      have hin' : (w.plugin i).InTable (heap a).cpu := by rw [hcpu]; exact hin
      exact Avoids.bind (addCount_avoids fun _ => hin') fun _ _ => .ok _
  · refine Avoids.bind (leastLoaded_avoids hb h) fun c hc => ?_
    exact Avoids.bind (addCount_avoids fun _ => (leastLoaded_mem hc).2) fun _ _ => .ok _

/-- Releasing looks up the core the record names. -/
theorem release_avoids (hb : Indexing bad) (h : Room bad (w.plugin i).toPluginInfo (w.heap a).cpu) :
    Avoids bad (rtfPlgTaskRelease w i a) := by
  obtain ⟨htab, hcore⟩ := h
  unfold rtfPlgTaskRelease
  split
  · refine Avoids.bind (addUtil_avoids htab) fun p hp => ?_
    obtain ⟨-, rfl⟩ := addUtil_ok hp
    exact Avoids.bind (addCount_avoids htab) fun _ _ => .ok _
  · rename_i hk
    refine Avoids.bind (read_avoids htab) fun ts _ => ?_
    refine Avoids.bind ?_ fun st _ => ?_
    · unfold RM.uncount
      split
      · exact Avoids.bind (checkCore_avoids fun hc => hcore hc (by rw [hk]; rfl)) fun _ _ => .ok _
      · exact .ok _
    · refine Avoids.bind ?_ fun p hp => ?_
      · unfold RM.giveBack
        split
        · exact addUtil_avoids htab
        · exact .ok _
      · obtain rfl := RM.giveBack_ok hp
        exact Avoids.bind (addCount_avoids htab) fun _ _ => .ok _
  · rename_i hk
    refine Avoids.bind (addCount_avoids htab) fun p hp => ?_
    obtain ⟨-, rfl⟩ := addCount_ok hp
    refine Avoids.bind (checkPrio_avoids hb fun hc => hcore hc (by rw [hk]; rfl)) fun _ _ => ?_
    exact Avoids.bind (read_avoids htab) fun _ _ => .ok _
  · exact Avoids.bind (addCount_avoids htab) fun _ _ => .ok _

end Functions

/-! ### Choosing -/

theorem firstPass_avoids {ask : World → ℕ → Except Fault (Res × World)} (hask : Asks ask) {w : World} :
    ∀ {is : List ℕ}, (∀ i ∈ is, Avoids bad (ask w i)) → Avoids bad (firstPass ask is w)
  | [], _ => .ok _
  | i :: is, h => by
    refine Avoids.bind (h i (List.mem_cons_self ..)) fun rw hrw => ?_
    obtain ⟨r, w'⟩ := rw
    obtain rfl := hask _ _ _ _ hrw
    dsimp only
    split
    · exact .ok _
    · refine Avoids.bind (firstPass_avoids hask fun j hj => h j (List.mem_cons_of_mem i hj)) fun _ _ => ?_
      exact .ok _

theorem selectPlugin_avoids {ask : World → ℕ → Except Fault (Res × World)} (hask : Asks ask) {n : ℕ} {w : World}
    (h : ∀ i < n, Avoids bad (ask w i)) : Avoids bad (selectPlugin ask n w) := by
  refine Avoids.bind (firstPass_avoids hask fun i hi => h i (List.mem_range.mp hi)) fun q _ => ?_
  obtain ⟨found, results, w'⟩ := q
  dsimp only
  split <;> exact .ok _

end Retif
