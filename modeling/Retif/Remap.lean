/-
# The remapped priorities

The three `prio_remap` functions, and the regimes of `assign_priorities`: when
what they give stays in the window of the plugin. RM divides by `dist_prio - 1`
and so leaves the window at the top when it hands out `dist_prio` priorities;
RR and FP leave it for a declared priority that is not one of `SCHED_RR`'s.

Key definitions: `InWindow`, `WindowOk`, `IntWindow`, `RM.Ranks`.
Key theorems: `RM.assign_window`, `RR.assign_window`, `FP.remap_window`.
-/
import Retif.Ranks
import Retif.RM
import Retif.FP

namespace Retif

/-- The priority is one of the plugin's. -/
def InWindow (this : PluginInfo) (p : UInt32) : Prop := this.prioMin ≤ p.toNat ∧ p.toNat ≤ this.prioMax

/-- The window is one of `SCHED_FIFO` and `SCHED_RR` priorities. -/
def WindowOk (this : PluginInfo) : Prop := 1 ≤ this.prioMin ∧ this.prioMin ≤ this.prioMax ∧ this.prioMax ≤ 99

/-- The window is one of C's `int`s, from 1 on. -/
def IntWindow (this : PluginInfo) : Prop := 1 ≤ this.prioMin ∧ this.prioMin ≤ this.prioMax ∧ this.prioMax < 2 ^ 31

theorem WindowOk.int {this : PluginInfo} (hw : WindowOk this) : IntWindow this := by
  obtain ⟨h1, h2, h3⟩ := hw
  exact ⟨h1, h2, by omega⟩

theorem ofInt_toNat {x : ℤ} (h0 : 0 ≤ x) (h1 : x < 2 ^ 32) : ((UInt32.ofInt x).toNat : ℤ) = x := by
  have hlt : x.toNat < 2 ^ 32 := by omega
  unfold UInt32.ofInt
  rw [Int.emod_eq_of_lt h0 h1, UInt32.toNat_ofNat_of_lt' hlt]
  omega

/-- A rational between the bounds of a window is cut off to a priority in it. -/
theorem toU32_window {m M : ℤ} {q : ℚ} (hm : 0 ≤ m) (hM : M < 2 ^ 31) (h1 : (m : ℚ) ≤ q) (h2 : q < M + 1) :
    m ≤ (toU32 q).toNat ∧ (toU32 q).toNat ≤ M := by
  have h0 : (0 : ℚ) ≤ q := le_trans (by exact_mod_cast hm) h1
  have hlow : m ≤ ⌊q⌋ := Int.le_floor.mpr h1
  have hhigh : ⌊q⌋ < M + 1 := Int.floor_lt.mpr (by exact_mod_cast h2)
  have hval := toU32_toNat h0 (by omega)
  omega

theorem toU32_mono {p q : ℚ} (h0 : 0 ≤ p) (hpq : p ≤ q) (hq : ⌊q⌋ < 2 ^ 32) : toU32 p ≤ toU32 q := by
  have hfloor := Int.floor_le_floor hpq
  have hp := toU32_toNat h0 (by omega)
  have hq := toU32_toNat (h0.trans hpq) hq
  rw [UInt32.le_iff_toNat_le]
  omega

section Arithmetic

variable {m M : ℤ}

theorem span_toNat (h1 : 1 ≤ m) (h2 : m ≤ M) (h3 : M < 2 ^ 31) :
    ((UInt32.ofInt M - UInt32.ofInt m).toNat : ℤ) = M - m := by
  have hM := ofInt_toNat (x := M) (by omega) (by omega)
  have hm := ofInt_toNat (x := m) (by omega) (by omega)
  have hle : UInt32.ofInt m ≤ UInt32.ofInt M := by
    rw [UInt32.le_iff_toNat_le]
    omega
  rw [UInt32.toNat_sub_of_le _ _ hle]
  omega

theorem width_toNat (h1 : 1 ≤ m) (h2 : m ≤ M) (h3 : M < 2 ^ 31) :
    ((UInt32.ofInt M - UInt32.ofInt m + 1).toNat : ℤ) = M - m + 1 := by
  have hspan := span_toNat h1 h2 h3
  have hone : (1 : UInt32).toNat = 1 := rfl
  rw [UInt32.toNat_add, hone]
  omega

theorem sub_one_toNat {p : UInt32} (hp : 1 ≤ p.toNat) : (p - 1).toNat = p.toNat - 1 := by
  have hle : (1 : UInt32) ≤ p := UInt32.le_iff_toNat_le.mpr hp
  rw [UInt32.toNat_sub_of_le _ _ hle]
  rfl

/-- A part of a width, below the whole. -/
theorem slope_bounds {w x y : ℚ} (hw : 0 < w) (h0 : 0 ≤ x) (hxy : x < y) : 0 ≤ w / y * x ∧ w / y * x < w := by
  have hy : 0 < y := h0.trans_lt hxy
  refine ⟨mul_nonneg (div_nonneg hw.le hy.le) h0, ?_⟩
  calc w / y * x < w / y * y := mul_lt_mul_of_pos_left hxy (div_pos hw hy)
    _ = w := div_mul_cancel₀ w hy.ne'

/-- RM's `prio_remap` in whole numbers: the part of the window that is below `idx`. -/
theorem RM.remap_toNat {idx d : UInt32} (h1 : 1 ≤ m) (h2 : m ≤ M) (h3 : M < 2 ^ 31) (hd : 2 ≤ d.toNat)
    (hidx : idx.toNat + 1 ≤ d.toNat) :
    ((RM.prioRemap (UInt32.ofInt M) (UInt32.ofInt m) idx d).toNat : ℤ) =
      m + (M - m + 1) * idx.toNat / (d.toNat - 1 : ℕ) := by
  have hm := ofInt_toNat (x := m) (by omega) (by omega)
  have hw := width_toNat h1 h2 h3
  have hmq : ((UInt32.ofInt m).toNat : ℚ) = m := by exact_mod_cast hm
  have hwq : ((UInt32.ofInt M - UInt32.ofInt m + 1).toNat : ℚ) = M - m + 1 := by exact_mod_cast hw
  have hpos : (0 : ℤ) < (d.toNat - 1 : ℕ) := by omega
  have hpart : 0 ≤ (M - m + 1) * idx.toNat / (d.toNat - 1 : ℕ) :=
    Int.ediv_nonneg (Int.mul_nonneg (by omega) (by omega)) hpos.le
  have hwhole : (M - m + 1) * idx.toNat / (d.toNat - 1 : ℕ) ≤ M - m + 1 :=
    Int.ediv_le_of_le_mul hpos (Int.mul_le_mul_of_nonneg_left (by omega) (by omega))
  have hfrac : ((M : ℚ) - m + 1) / ((d.toNat - 1 : ℕ) : ℚ) * (idx.toNat : ℚ) =
      (((M - m + 1) * idx.toNat : ℤ) : ℚ) / ((d.toNat - 1 : ℕ) : ℚ) := by
    rw [div_mul_eq_mul_div]
    push_cast
    rfl
  have hfloor : ⌊(m : ℚ) + ((M : ℚ) - m + 1) / ((d.toNat - 1 : ℕ) : ℚ) * (idx.toNat : ℚ)⌋ =
      m + (M - m + 1) * idx.toNat / (d.toNat - 1 : ℕ) := by
    rw [hfrac, Int.floor_intCast_add, Rat.floor_intCast_div_natCast]
  unfold RM.prioRemap
  dsimp only
  rw [sub_one_toNat (by omega), hmq, hwq, toU32_toNat ?_ (by omega), hfloor]
  refine Int.floor_nonneg.mp ?_
  omega

/-- RM's `prio_remap` stays in the window below the last of `distPrio` priorities. -/
theorem RM.remap_window {idx d : UInt32} (h1 : 1 ≤ m) (h2 : m ≤ M) (h3 : M < 2 ^ 31) (hidx : idx.toNat + 1 < d.toNat) :
    m ≤ (RM.prioRemap (UInt32.ofInt M) (UInt32.ofInt m) idx d).toNat ∧
      (RM.prioRemap (UInt32.ofInt M) (UInt32.ofInt m) idx d).toNat ≤ M := by
  have hval := @RM.remap_toNat m M idx d h1 h2 h3 (by omega) hidx.le
  have hpos : (0 : ℤ) < (d.toNat - 1 : ℕ) := by omega
  have hpart : 0 ≤ (M - m + 1) * idx.toNat / (d.toNat - 1 : ℕ) :=
    Int.ediv_nonneg (Int.mul_nonneg (by omega) (by omega)) hpos.le
  have hless : (M - m + 1) * idx.toNat / (d.toNat - 1 : ℕ) < M - m + 1 :=
    Int.ediv_lt_of_lt_mul hpos (Int.mul_lt_mul_of_pos_left (by omega) (by omega))
  omega

/-- What RR's `prio_remap` cuts off. -/
theorem RR.remap_eq {p : UInt32} (h1 : 1 ≤ m) (h2 : m ≤ M) (h3 : M < 2 ^ 31) (hp : 1 ≤ p.toNat) :
    RR.prioRemap (UInt32.ofInt M) (UInt32.ofInt m) p =
      toU32 (m + ((M : ℚ) - m + 1) / 99 * ((p.toNat - 1 : ℕ) : ℚ)) := by
  have hm := ofInt_toNat (x := m) (by omega) (by omega)
  have hw := width_toNat h1 h2 h3
  have hp : (p - schedGetPriorityMin).toNat = p.toNat - 1 := sub_one_toNat hp
  have h99 : (schedGetPriorityMax - schedGetPriorityMin + 1).toNat = 99 := rfl
  unfold RR.prioRemap
  dsimp only
  rw [hp, h99]
  have hmq : ((UInt32.ofInt m).toNat : ℚ) = m := by exact_mod_cast hm
  have hwq : ((UInt32.ofInt M - UInt32.ofInt m + 1).toNat : ℚ) = M - m + 1 := by exact_mod_cast hw
  rw [hmq, hwq]
  norm_num

theorem RR.remap_bounds {p : ℕ} (h2 : m ≤ M) (hp1 : 1 ≤ p) (hp2 : p ≤ 99) :
    (m : ℚ) ≤ m + ((M : ℚ) - m + 1) / 99 * ((p - 1 : ℕ) : ℚ) ∧
      (m : ℚ) + ((M : ℚ) - m + 1) / 99 * ((p - 1 : ℕ) : ℚ) < M + 1 := by
  have hwpos : (0 : ℚ) < (M : ℚ) - m + 1 := by
    have : (m : ℚ) ≤ M := by exact_mod_cast h2
    linarith
  have hlt : ((p - 1 : ℕ) : ℚ) < 99 := by exact_mod_cast (by omega : p - 1 < 99)
  obtain ⟨hlow, hhigh⟩ := slope_bounds hwpos (Nat.cast_nonneg _) hlt
  exact ⟨by linarith, by linarith⟩

/-- RR's `prio_remap` stays in the window for the priorities of `SCHED_RR`. -/
theorem RR.remap_window {p : UInt32} (h1 : 1 ≤ m) (h2 : m ≤ M) (h3 : M < 2 ^ 31) (hp1 : 1 ≤ p.toNat)
    (hp2 : p.toNat ≤ 99) :
    m ≤ (RR.prioRemap (UInt32.ofInt M) (UInt32.ofInt m) p).toNat ∧
      (RR.prioRemap (UInt32.ofInt M) (UInt32.ofInt m) p).toNat ≤ M := by
  obtain ⟨hlow, hhigh⟩ := RR.remap_bounds h2 hp1 hp2
  rw [RR.remap_eq h1 h2 h3 hp1]
  exact toU32_window (by omega) h3 hlow hhigh

/-- RR's `prio_remap` does not turn the order of two priorities around. -/
theorem RR.remap_mono {p q : UInt32} (h1 : 1 ≤ m) (h2 : m ≤ M) (h3 : M < 2 ^ 31) (hp : 1 ≤ p.toNat)
    (hpq : p.toNat ≤ q.toNat) (hq : q.toNat ≤ 99) :
    RR.prioRemap (UInt32.ofInt M) (UInt32.ofInt m) p ≤ RR.prioRemap (UInt32.ofInt M) (UInt32.ofInt m) q := by
  have hp0 := (RR.remap_bounds h2 hp (hpq.trans hq)).1
  obtain ⟨hq0, hq1⟩ := RR.remap_bounds h2 (hp.trans hpq) hq
  have hwpos : (0 : ℚ) ≤ ((M : ℚ) - m + 1) / 99 := by
    have : (m : ℚ) ≤ M := by exact_mod_cast h2
    apply div_nonneg
    · linarith
    · norm_num
  have hcast : ((p.toNat - 1 : ℕ) : ℚ) ≤ ((q.toNat - 1 : ℕ) : ℚ) := by exact_mod_cast Nat.sub_le_sub_right hpq 1
  have hmul := mul_le_mul_of_nonneg_left hcast hwpos
  have hm0 : (0 : ℚ) ≤ m := by exact_mod_cast (by omega : 0 ≤ m)
  rw [RR.remap_eq h1 h2 h3 hp, RR.remap_eq h1 h2 h3 (hp.trans hpq)]
  refine toU32_mono (hm0.trans hp0) (by linarith) ?_
  refine (Int.floor_lt.mpr ?_).trans_le (show M + 1 ≤ 2 ^ 32 by omega)
  exact_mod_cast hq1

/-- FP's priorities stay in the window up to 99, and as far above as the slope allows. -/
theorem FP.remap_window {p : UInt32} (h1 : 1 ≤ m) (h2 : m ≤ M) (h3 : M < 2 ^ 31) (hp1 : 1 ≤ p.toNat)
    (hp2 : (M - m) * ((p.toNat : ℤ) - 99) < 98) :
    m ≤ (FP.prioRemap (UInt32.ofInt M) (UInt32.ofInt m) p).toNat ∧
      (FP.prioRemap (UInt32.ofInt M) (UInt32.ofInt m) p).toNat ≤ M := by
  have hm := ofInt_toNat (x := m) (by omega) (by omega)
  have hw := span_toNat h1 h2 h3
  have hp : (p - schedGetPriorityMin).toNat = p.toNat - 1 := sub_one_toNat hp1
  have h98 : (schedGetPriorityMax - schedGetPriorityMin).toNat = 98 := rfl
  unfold FP.prioRemap
  dsimp only
  rw [hp, h98]
  have hmq : ((UInt32.ofInt m).toNat : ℚ) = m := by exact_mod_cast hm
  have hwq : ((UInt32.ofInt M - UInt32.ofInt m).toNat : ℚ) = M - m := by exact_mod_cast hw
  rw [hmq, hwq]
  have hwpos : (0 : ℚ) ≤ (M : ℚ) - m := by
    have : (m : ℚ) ≤ M := by exact_mod_cast h2
    linarith
  have h0 : (0 : ℚ) ≤ ((p.toNat - 1 : ℕ) : ℚ) := Nat.cast_nonneg _
  have hcast : ((p.toNat - 1 : ℕ) : ℚ) = (p.toNat : ℚ) - 1 := by
    rw [Nat.cast_sub hp1, Nat.cast_one]
  have hbound : ((M : ℚ) - m) * ((p.toNat : ℚ) - 99) < 98 := by exact_mod_cast hp2
  refine toU32_window (by omega) (by omega) ?_ ?_
  · have := mul_nonneg (div_nonneg hwpos (by norm_num : (0 : ℚ) ≤ ((98 : ℕ) : ℚ))) h0
    linarith
  · have hslope : ((M : ℚ) - m) / ((98 : ℕ) : ℚ) * ((p.toNat - 1 : ℕ) : ℚ) < (M : ℚ) - m + 1 := by
      rw [div_mul_eq_mul_div, div_lt_iff₀ (by norm_num), hcast]
      push_cast
      linarith
    linarith

end Arithmetic

/-! ### The walks -/

section Walks

variable {this : Plugin} {st : Statics} {heap : Heap} {c : ℕ}

theorem window_toNat (hw : IntWindow this.toPluginInfo) :
    ((UInt32.ofInt (this.prioMax - this.prioMin + 1)).toNat : ℤ) = this.prioMax - this.prioMin + 1 := by
  obtain ⟨h1, h2, h3⟩ := hw
  exact ofInt_toNat (by omega) (by omega)

/-- Counting up from below the window, as many priorities as it has stay inside. -/
theorem stepwise_window {key : Task → ℕ} {as : List Addr} (hw : IntWindow this.toPluginInfo) (hnd : as.Nodup)
    (hfirst : ∀ x ∈ (keysOf key heap as).head?, x ≠ 2 ^ 32 - 1)
    (hn : (changes (UInt32.ofInt (-1)) (keysOf key heap as) : ℤ) ≤ this.prioMax - this.prioMin + 1) :
    ∀ a ∈ as, InWindow this.toPluginInfo ((rankLoop key (fun _ curr => curr + 1) as heap
      (UInt32.ofInt (this.prioMin - 1)) (UInt32.ofInt (-1)) 0) a).schedprio := by
  obtain ⟨h1, h2, h3⟩ := hw
  have hsent : (UInt32.ofInt (-1)).toNat = 2 ^ 32 - 1 := rfl
  have hstart := ofInt_toNat (x := this.prioMin - 1) (by omega) (by omega)
  intro a ha
  obtain ⟨i, hi, rfl⟩ := List.getElem_of_mem ha
  have hki : i < (keysOf key heap as).length := keysOf_length.symm ▸ hi
  have hpos := @rankAt_pos (UInt32.ofInt (-1)) _ (fun x hx => by rw [hsent]; exact (hfirst x hx).symm) i hki
  have hle := @rankAt_le (UInt32.ofInt (-1)) _ i hki
  unfold InWindow
  rw [countLoop_rankAt hnd hi, countUp_toNat (by omega)]
  omega

/-- What the walk gives the ranks where the periods are more than the priorities. -/
def RM.remapped (this : PluginInfo) (distPrio : UInt32) : ℕ → UInt32
  | 0 => UInt32.ofInt (this.prioMin - 1)
  | j + 1 => RM.prioRemap (UInt32.ofInt this.prioMax) (UInt32.ofInt this.prioMin) (UInt32.ofNat j) distPrio

/-- In the remapping walk, the task of rank `j` gets the remapped priority of `j - 1`. -/
theorem RM.remapLoop_rankAt {as : List Addr} {dist prec : UInt32} (hnd : as.Nodup) {i : ℕ} (hi : i < as.length) :
    (rankLoop RM.period
      (fun idx _ => RM.prioRemap (UInt32.ofInt this.prioMax) (UInt32.ofInt this.prioMin) idx dist) as heap
      (UInt32.ofInt (this.prioMin - 1)) prec 0 as[i]).schedprio =
        RM.remapped this.toPluginInfo dist (rankAt prec (keysOf RM.period heap as) i) := by
  have h := @rankLoop_rankAt RM.period
    (fun idx _ => RM.prioRemap (UInt32.ofInt this.prioMax) (UInt32.ofInt this.prioMin) idx dist)
    (RM.remapped this.toPluginInfo dist) as heap prec 0 hnd (fun _ => rfl) i hi
  rwa [Nat.zero_add] at h

/-- What the walk of RM over `keys`, the periods of a core's list, needs to stay in the window: it does
not start with the period it takes for "none", and hands out no more priorities than there are, or
fewer than the slope is made for. -/
def RM.Ranks (this : PluginInfo) (dist : UInt32) (keys : List ℕ) : Prop :=
  (∀ x ∈ keys.head?, x ≠ 2 ^ 32 - 1) ∧
    if dist > UInt32.ofInt (this.prioMax - this.prioMin + 1) then changes (UInt32.ofInt (-1)) keys < dist.toNat
    else (changes (UInt32.ofInt (-1)) keys : ℤ) ≤ this.prioMax - this.prioMin + 1

instance (this : PluginInfo) (dist : UInt32) (keys : List ℕ) : Decidable (RM.Ranks this dist keys) := by
  unfold RM.Ranks; infer_instance

theorem RM.assign_window (hw : IntWindow this.toPluginInfo) (hnd : (this.tasks c).root.Nodup)
    (hr : RM.Ranks this.toPluginInfo (st.distPrio c) (keysOf RM.period heap (this.tasks c).root)) :
    ∀ a ∈ (this.tasks c).root, InWindow this.toPluginInfo (RM.assignPriorities this st heap c a).schedprio := by
  obtain ⟨hfirst, hcount⟩ := hr
  unfold RM.assignPriorities RM.window
  split at hcount
  · rename_i hgt
    rw [if_pos hgt]
    obtain ⟨h1, h2, h3⟩ := hw
    have hsent : (UInt32.ofInt (-1)).toNat = 2 ^ 32 - 1 := rfl
    have hd := (st.distPrio c).toNat_lt
    intro a ha
    obtain ⟨i, hi, rfl⟩ := List.getElem_of_mem ha
    have hki : i < (keysOf RM.period heap (this.tasks c).root).length := keysOf_length.symm ▸ hi
    have hpos := @rankAt_pos (UInt32.ofInt (-1)) _ (fun x hx => by rw [hsent]; exact (hfirst x hx).symm) i hki
    have hle := @rankAt_le (UInt32.ofInt (-1)) _ i hki
    rw [RM.remapLoop_rankAt hnd hi]
    obtain ⟨j, hj⟩ := Nat.exists_eq_add_of_le' hpos
    rw [hj] at hle ⊢
    have hidx : (UInt32.ofNat j).toNat = j := UInt32.toNat_ofNat_of_lt' (by show j < 2 ^ 32; omega)
    exact RM.remap_window h1 h2 h3 (by rw [hidx]; omega)
  · rename_i hle
    rw [if_neg hle]
    exact stepwise_window hw hnd hfirst hcount

/-- RR's walk: sorted, with as many distinct priorities as `dist_prio` says. -/
theorem RR.assign_window (hw : IntWindow this.toPluginInfo) (hnd : (this.tasks c).root.Nodup)
    (hs : (keysOf RR.priority heap (this.tasks c).root).Pairwise (· ≤ ·))
    (hsmall : ∀ x ∈ keysOf RR.priority heap (this.tasks c).root, x < MAX_PRIO)
    (hdist : (st.distPrio c).toNat = (keysOf RR.priority heap (this.tasks c).root).toFinset.card)
    (hzero : st.distPrio c > RR.window this → ∀ x ∈ keysOf RR.priority heap (this.tasks c).root, x ≠ 0) :
    ∀ a ∈ (this.tasks c).root, InWindow this.toPluginInfo (RR.assignPriorities this st heap c a).schedprio := by
  have hmax : MAX_PRIO = 100 := rfl
  unfold RR.assignPriorities
  split
  · rename_i hgt
    obtain ⟨h1, h2, h3⟩ := hw
    intro a ha
    have hmem : RR.priority (heap a) ∈ keysOf RR.priority heap (this.tasks c).root := List.mem_map.mpr ⟨a, ha, rfl⟩
    have hp1 := hzero hgt _ hmem
    have hp2 := hsmall _ hmem
    rw [mapLoop_prio hnd a ha]
    exact RR.remap_window h1 h2 h3 (Nat.pos_of_ne_zero hp1) (by show RR.priority (heap a) ≤ 99; omega)
  · rename_i hle
    have hsent : (UInt32.ofInt (-1)).toNat = 2 ^ 32 - 1 := rfl
    have hwin := window_toNat hw
    have hch : changes (UInt32.ofInt (-1)) (keysOf RR.priority heap (this.tasks c).root) = (st.distPrio c).toNat := by
      rw [hdist]
      refine changes_sorted hs ?_
      intro x hx
      have := hsmall x hx
      omega
    refine stepwise_window hw hnd ?_ ?_
    · intro x hx
      have := hsmall x (List.mem_of_mem_head? hx)
      omega
    · have hle' : (st.distPrio c).toNat ≤ (RR.window this).toNat := by
        rw [← UInt32.le_iff_toNat_le]
        exact UInt32.not_lt.mp hle
      have hwin' : ((RR.window this).toNat : ℤ) = this.prioMax - this.prioMin + 1 := hwin
      omega

end Walks

end Retif
