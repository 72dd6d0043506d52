/-
# The priorities RM hands out

`assign_priorities` on a sorted list with an exact `dist_prio`: when are the
priorities rate-monotonic (`RM.RateMonotonic`)? The walk remembers 32 bits of a
period, so it must not start with the period it takes for "none", and:

* with at least as many priorities as periods it counts them up, and all is
  well when it tells neighbours apart (`Discerned`), as it does below 2^32;
* with fewer, `prio_remap` divides by one less than the number of periods, so
  the last period gets the priority above the window, unless the walk takes
  fewer steps than there are periods; and then two equal periods that it takes
  for different ones must still get the same share of the window.

Key definitions: `RM.RateMonotonic`, `RM.Discerns`.
Key theorems: `RM.count_iff`, `RM.remap_iff`, `RM.discerns_small`,
`rate_monotonic_iff`, `not_rate_monotonic`.
-/
import Retif.Remap

namespace Retif

open CList

/-- The number of priorities of the plugin. -/
def PluginInfo.width (this : PluginInfo) : ℤ := this.prioMax - this.prioMin + 1

/-- **Rate-monotonic priorities** of the tasks `as`, whose records are in `heap` and which
run at the priorities in `heap'`. -/
structure RM.RateMonotonic (this : PluginInfo) (as : List Addr) (heap heap' : Heap) : Prop where
  window : ∀ a ∈ as, InWindow this (heap' a).schedprio
  equal : ∀ a ∈ as, ∀ b ∈ as, (heap a).params.period = (heap b).params.period →
    (heap' a).schedprio = (heap' b).schedprio
  shorter : ∀ a ∈ as, ∀ b ∈ as, (heap b).params.period < (heap a).params.period →
    (heap' a).schedprio ≤ (heap' b).schedprio
  strict : ((keysOf RM.period heap as).toFinset.card : ℤ) ≤ this.width →
    ∀ a ∈ as, ∀ b ∈ as, (heap b).params.period < (heap a).params.period →
      (heap' a).schedprio < (heap' b).schedprio

/-- What the walk remembers before the first task: `unsigned int prec_period = -1`. -/
def RM.none32 : UInt32 := UInt32.ofInt (-1)

/-- The share of the window below the `i`-th of `keys`, by the rank the walk has reached there. -/
def RM.share (this : PluginInfo) (keys : List ℕ) (i : ℕ) : ℤ :=
  this.width * (rankAt RM.none32 keys i - 1 : ℕ) / (keys.toFinset.card - 1 : ℕ)

/-- The walk over the periods `keys` hands out rate-monotonic priorities. -/
def RM.Discerns (this : PluginInfo) (keys : List ℕ) : Prop :=
  (∀ x ∈ keys.head?, x ≠ 2 ^ 32 - 1) ∧
    if (keys.toFinset.card : ℤ) ≤ this.width then Discerned keys
    else changes RM.none32 keys < keys.toFinset.card ∧
      ∀ i (hi : i < keys.length) (h : i + 1 < keys.length), keys[i] = keys[i + 1] →
        RM.share this keys i = RM.share this keys (i + 1)

/-- The same, by the places on the list: rank `j` is given the priority `R j`. -/
structure RM.ByRank (this : PluginInfo) (keys : List ℕ) (R : ℕ → UInt32) : Prop where
  window : ∀ i < keys.length, InWindow this (R (rankAt RM.none32 keys i))
  equal : ∀ i j (hi : i < keys.length) (hj : j < keys.length), i ≤ j → keys[i] = keys[j] →
    R (rankAt RM.none32 keys i) = R (rankAt RM.none32 keys j)
  differ : ∀ i j (hi : i < keys.length) (hj : j < keys.length), i ≤ j → keys[i] ≠ keys[j] →
    R (rankAt RM.none32 keys i) ≤ R (rankAt RM.none32 keys j) ∧
      ((keys.toFinset.card : ℤ) ≤ this.width → R (rankAt RM.none32 keys i) < R (rankAt RM.none32 keys j))

section Walks

variable {this : PluginInfo} {as : List Addr} {heap heap' : Heap} {R : ℕ → UInt32} {keys : List ℕ}

/-- The periods do not increase along the list. -/
theorem RM.rateMonotonic_iff (hs : (keysOf RM.period heap as).Pairwise (· ≥ ·))
    (hR : ∀ i (hi : i < as.length), (heap' as[i]).schedprio = R (rankAt RM.none32 (keysOf RM.period heap as) i)) :
    RM.RateMonotonic this as heap heap' ↔ RM.ByRank this (keysOf RM.period heap as) R := by
  have hlen : (keysOf RM.period heap as).length = as.length := keysOf_length
  have hkey : ∀ i (hi : i < as.length) (hk : i < (keysOf RM.period heap as).length),
      (keysOf RM.period heap as)[i] = (heap as[i]).params.period.toNat := fun i hi hk => keysOf_getElem hi hk
  have hsort := List.pairwise_iff_getElem.mp hs
  constructor
  · rintro ⟨hwin, hequal, hshort, hstrict⟩
    refine ⟨?_, ?_, ?_⟩
    · intro i hi
      have hi' : i < as.length := hlen ▸ hi
      rw [← hR i hi']
      exact hwin _ (List.getElem_mem hi')
    · intro i j hi hj hij heq
      have hj' : j < as.length := hlen ▸ hj
      have hi' : i < as.length := hlen ▸ hi
      rw [hkey i hi', hkey j hj'] at heq
      rw [← hR i hi', ← hR j hj']
      exact hequal _ (List.getElem_mem hi') _ (List.getElem_mem hj') (UInt64.toNat_inj.mp heq)
    · intro i j hi hj hij hne
      have hj' : j < as.length := hlen ▸ hj
      have hi' : i < as.length := hlen ▸ hi
      have hlt : (heap as[j]).params.period < (heap as[i]).params.period := by
        rw [UInt64.lt_iff_toNat_lt, ← hkey i hi' hi, ← hkey j hj' hj]
        rcases Nat.eq_or_lt_of_le hij with rfl | hij
        · exact absurd rfl hne
        · exact lt_of_le_of_ne (hsort i j hi hj hij) hne.symm
      rw [← hR i hi', ← hR j hj']
      exact ⟨hshort _ (List.getElem_mem hi') _ (List.getElem_mem hj') hlt,
        fun hn => hstrict hn _ (List.getElem_mem hi') _ (List.getElem_mem hj') hlt⟩
  · rintro ⟨hwin, hequal, hdiff⟩
    have hpair : ∀ a ∈ as, ∀ b ∈ as, (heap b).params.period < (heap a).params.period →
        (heap' a).schedprio ≤ (heap' b).schedprio ∧
          (((keysOf RM.period heap as).toFinset.card : ℤ) ≤ this.width → (heap' a).schedprio < (heap' b).schedprio) := by
      intro a ha b hb hlt
      obtain ⟨i, hi, rfl⟩ := List.getElem_of_mem ha
      obtain ⟨j, hj, rfl⟩ := List.getElem_of_mem hb
      have hki : i < (keysOf RM.period heap as).length := hlen ▸ hi
      have hkj : j < (keysOf RM.period heap as).length := hlen ▸ hj
      rw [UInt64.lt_iff_toNat_lt, ← hkey i hi hki, ← hkey j hj hkj] at hlt
      rw [hR i hi, hR j hj]
      refine hdiff i j hki hkj ?_ hlt.ne'
      -- the shorter period comes behind
      by_contra hij
      have := hsort j i hkj hki (not_le.mp hij)
      omega
    refine ⟨?_, ?_, fun a ha b hb hlt => (hpair a ha b hb hlt).1, fun hn a ha b hb hlt => (hpair a ha b hb hlt).2 hn⟩
    · intro a ha
      obtain ⟨i, hi, rfl⟩ := List.getElem_of_mem ha
      rw [hR i hi]
      exact hwin i (hlen ▸ hi)
    · intro a ha b hb heq
      obtain ⟨i, hi, rfl⟩ := List.getElem_of_mem ha
      obtain ⟨j, hj, rfl⟩ := List.getElem_of_mem hb
      have hki : i < (keysOf RM.period heap as).length := hlen ▸ hi
      have hkj : j < (keysOf RM.period heap as).length := hlen ▸ hj
      have heq' : (keysOf RM.period heap as)[i] = (keysOf RM.period heap as)[j] := by
        rw [hkey i hi hki, hkey j hj hkj, heq]
      rw [hR i hi, hR j hj]
      rcases Nat.le_total i j with hij | hji
      · exact hequal i j hki hkj hij heq'
      · exact (hequal j i hkj hki hji heq'.symm).symm

theorem RM.none32_toNat : RM.none32.toNat = 2 ^ 32 - 1 := rfl

/-- A walk that tells neighbours apart takes a step for every period. -/
theorem RM.discerned_steps (hs : keys.Pairwise (· ≥ ·)) (hfirst : ∀ x ∈ keys.head?, x ≠ 2 ^ 32 - 1)
    (hd : Discerned keys) : changes RM.none32 keys = keys.toFinset.card := by
  refine changes_discerned (r := (· ≥ ·)) (fun _ _ h h' => le_antisymm h' h) hs ?_ hd
  intro x hx
  rw [RM.none32_toNat]
  exact (hfirst x hx).symm

/-- Ranks start at 1 when the first period is not the one taken for "none". -/
theorem RM.rank_pos (hfirst : ∀ x ∈ keys.head?, x ≠ 2 ^ 32 - 1) {i : ℕ} (hi : i < keys.length) :
    1 ≤ rankAt RM.none32 keys i := by
  refine rankAt_pos ?_ hi
  intro x hx
  rw [RM.none32_toNat]
  exact (hfirst x hx).symm

/-- A first task with the period taken for "none" stays below the window. -/
theorem RM.ByRank.first (h : RM.ByRank this keys R) (hbelow : ((R 0).toNat : ℤ) < this.prioMin) :
    ∀ x ∈ keys.head?, x ≠ 2 ^ 32 - 1 := by
  intro x hx heq
  rcases keys with _ | ⟨y, ys⟩
  · cases hx
  · obtain rfl : y = x := by simpa using hx
    have hpos : 0 < (y :: ys).length := Nat.succ_pos _
    have hzero : rankAt RM.none32 (y :: ys) 0 = 0 := by
      rw [rankAt_zero hpos, List.getElem_cons_zero, if_pos]
      rw [RM.none32_toNat, heq]
    have hwin := (h.window 0 hpos).1
    rw [hzero] at hwin
    omega

/-- **Counting up**, with at least as many priorities as periods: all depends on whether neighbours are told apart. -/
theorem RM.count_iff (hw : IntWindow this) (hs : keys.Pairwise (· ≥ ·))
    (hn : (keys.toFinset.card : ℤ) ≤ this.width) :
    RM.ByRank this keys (countUp (UInt32.ofInt (this.prioMin - 1))) ↔
      (∀ x ∈ keys.head?, x ≠ 2 ^ 32 - 1) ∧ Discerned keys := by
  obtain ⟨h1, h2, h3⟩ := hw
  have hstart := ofInt_toNat (x := this.prioMin - 1) (by omega) (by omega)
  have hwidth : this.width = this.prioMax - this.prioMin + 1 := rfl
  constructor
  · intro h
    refine ⟨h.first (by show ((UInt32.ofInt (this.prioMin - 1)).toNat : ℤ) < _; omega), ?_⟩
    rw [Discerned, List.isChain_iff_getElem]
    intro i hi
    have hrank := @rankAt_succ RM.none32 keys i hi
    constructor
    · -- one rank for two periods: the shorter one does not get more
      intro hseen
      by_contra hne
      rw [if_pos hseen, Nat.add_zero] at hrank
      have hlt := (h.differ i (i + 1) (by omega) hi (Nat.le_succ i) hne).2 hn
      rw [hrank] at hlt
      exact UInt32.lt_irrefl _ hlt
    · -- two ranks for one period: the next rank gets one more
      intro heq
      by_contra hseen
      rw [if_neg hseen] at hrank
      have hsame := h.equal i (i + 1) (by omega) hi (Nat.le_succ i) heq
      rw [hrank] at hsame
      have hone : (1 : UInt32).toNat = 1 := rfl
      have := congrArg UInt32.toNat hsame
      rw [countUp, UInt32.toNat_add, hone] at this
      omega
  · rintro ⟨hfirst, hd⟩
    have hch := RM.discerned_steps hs hfirst hd
    have hval : ∀ i < keys.length, ((countUp (UInt32.ofInt (this.prioMin - 1)) (rankAt RM.none32 keys i)).toNat : ℤ) =
        this.prioMin - 1 + rankAt RM.none32 keys i := by
      intro i hi
      have hle := @rankAt_le RM.none32 keys i hi
      rw [countUp_toNat (by omega)]
      omega
    refine ⟨?_, ?_, ?_⟩
    · intro i hi
      have hpos := RM.rank_pos hfirst hi
      have hle := @rankAt_le RM.none32 keys i hi
      have := hval i hi
      unfold InWindow
      omega
    · intro i j _ hj hij heq
      rw [rankAt_eq (r := (· ≥ ·)) (fun _ _ h h' => le_antisymm h' h) hs hd hij hj heq]
    · intro i j hi hj hij hne
      have hlt := @rankAt_ne RM.none32 keys i j hd hij hj hne
      have hi := hval i hi
      have hj := hval j hj
      have hless : countUp (UInt32.ofInt (this.prioMin - 1)) (rankAt RM.none32 keys i) <
          countUp (UInt32.ofInt (this.prioMin - 1)) (rankAt RM.none32 keys j) := by
        rw [UInt32.lt_iff_toNat_lt]
        omega
      exact ⟨UInt32.le_of_lt hless, fun _ => hless⟩

/-- A rank up to the number of periods gets its share of the window. -/
theorem RM.remapped_toNat {d : UInt32} (hw : IntWindow this) (hn : this.width < d.toNat) {j : ℕ} (h1 : 1 ≤ j)
    (h2 : j ≤ d.toNat) :
    ((RM.remapped this d j).toNat : ℤ) = this.prioMin + this.width * (j - 1 : ℕ) / (d.toNat - 1 : ℕ) := by
  obtain ⟨hmin, hle, hmax⟩ := hw
  have hwidth : this.width = this.prioMax - this.prioMin + 1 := rfl
  have hlt := d.toNat_lt
  obtain ⟨j, rfl⟩ := Nat.exists_eq_add_of_le' h1
  have hidx : (UInt32.ofNat j).toNat = j := UInt32.toNat_ofNat_of_lt' (by show j < 2 ^ 32; omega)
  have hval := @RM.remap_toNat this.prioMin this.prioMax (UInt32.ofNat j) d hmin hle hmax (by omega) (by omega)
  rw [hidx] at hval
  exact hval

/-- **Remapping**, with fewer priorities than periods: the last of as many ranks as there are periods is above
the window, so one has to be missing. -/
theorem RM.remap_iff {d : UInt32} (hw : IntWindow this) (hs : keys.Pairwise (· ≥ ·))
    (hd : d.toNat = keys.toFinset.card) (hn : ¬ (keys.toFinset.card : ℤ) ≤ this.width) :
    RM.ByRank this keys (RM.remapped this d) ↔
      (∀ x ∈ keys.head?, x ≠ 2 ^ 32 - 1) ∧ changes RM.none32 keys < keys.toFinset.card ∧
        ∀ i (hi : i < keys.length) (h : i + 1 < keys.length), keys[i] = keys[i + 1] →
          RM.share this keys i = RM.share this keys (i + 1) := by
  have hwidth : this.width = this.prioMax - this.prioMin + 1 := rfl
  have hn' : this.width < d.toNat := by omega
  obtain ⟨hmin, hle, hmax⟩ := id hw
  have hcard : (0 : ℤ) < (keys.toFinset.card - 1 : ℕ) := by omega
  have hstart := ofInt_toNat (x := this.prioMin - 1) (by omega) (by omega)
  constructor
  · intro h
    have hfirst := h.first (by show ((UInt32.ofInt (this.prioMin - 1)).toNat : ℤ) < _; omega)
    have hfew : changes RM.none32 keys < keys.toFinset.card := by
      by_contra hmany
      obtain ⟨i, hi, hr⟩ := @rankAt_attained RM.none32 keys d.toNat (by omega) (by omega)
      have htop := (h.window i hi).2
      rw [hr, RM.remapped_toNat hw hn' (by omega) le_rfl, hd, Int.mul_ediv_cancel _ hcard.ne'] at htop
      omega
    refine ⟨hfirst, hfew, ?_⟩
    intro i _ hi heq
    have hsame := congrArg (fun p : UInt32 => (p.toNat : ℤ)) (h.equal i (i + 1) (by omega) hi (Nat.le_succ i) heq)
    have hle1 := @rankAt_le RM.none32 keys i (by omega)
    have hle2 := @rankAt_le RM.none32 keys (i + 1) hi
    rw [RM.remapped_toNat hw hn' (RM.rank_pos hfirst (by omega)) (by omega),
      RM.remapped_toNat hw hn' (RM.rank_pos hfirst hi) (by omega), hd] at hsame
    exact Int.add_left_cancel hsame
  · rintro ⟨hfirst, hfew, hshare⟩
    have hval : ∀ i < keys.length, ((RM.remapped this d (rankAt RM.none32 keys i)).toNat : ℤ) =
        this.prioMin + RM.share this keys i := by
      intro i hi
      have hle := @rankAt_le RM.none32 keys i hi
      rw [RM.remapped_toNat hw hn' (RM.rank_pos hfirst hi) (by omega), hd]
      rfl
    refine ⟨?_, ?_, ?_⟩
    · intro i hi
      have hpos := RM.rank_pos hfirst hi
      have hrank := @rankAt_le RM.none32 keys i hi
      have hlow : 0 ≤ RM.share this keys i := Int.ediv_nonneg (Int.mul_nonneg (by omega) (by omega)) hcard.le
      have hhigh : RM.share this keys i < this.width :=
        Int.ediv_lt_of_lt_mul hcard (Int.mul_lt_mul_of_pos_left (by omega) (by omega))
      have := hval i hi
      unfold InWindow
      omega
    · intro i j hi hj hij heq
      have hsame : RM.share this keys i = RM.share this keys j :=
        const_between (r := (· ≥ ·)) (fun _ _ h h' => le_antisymm h' h) hs hij hj heq
          fun l hl => hshare l (by omega) hl
      have hi := hval i hi
      have hj := hval j hj
      rw [← UInt32.toNat_inj]
      omega
    · intro i j hi hj hij hne
      have hrank : (rankAt RM.none32 keys i - 1 : ℕ) ≤ rankAt RM.none32 keys j - 1 :=
        Nat.sub_le_sub_right (rankAt_mono hij hj) 1
      have hmono : RM.share this keys i ≤ RM.share this keys j :=
        Int.ediv_le_ediv hcard (Int.mul_le_mul_of_nonneg_left (by exact_mod_cast hrank) (by omega))
      have hi := hval i hi
      have hj := hval j hj
      refine ⟨?_, fun hfits => absurd hfits hn⟩
      rw [UInt32.le_iff_toNat_le]
      omega

/-- Periods below 2^32 - 1 are all discerned: what is left is that there are no more of them than priorities. -/
theorem RM.discerns_small (hs : keys.Pairwise (· ≥ ·)) (hsmall : ∀ x ∈ keys, x < 2 ^ 32 - 1) :
    RM.Discerns this keys ↔ (keys.toFinset.card : ℤ) ≤ this.width := by
  have hfirst : ∀ x ∈ keys.head?, x ≠ 2 ^ 32 - 1 := fun x hx => (hsmall x (List.mem_of_mem_head? hx)).ne
  have hd : Discerned keys := discerned_small fun x hx => (hsmall x hx).trans (by omega)
  unfold RM.Discerns
  by_cases hn : (keys.toFinset.card : ℤ) ≤ this.width
  · rw [if_pos hn]
    exact ⟨fun _ => hn, fun _ => ⟨hfirst, hd⟩⟩
  · rw [if_neg hn]
    have hch := RM.discerned_steps hs hfirst hd
    exact ⟨fun h => absurd hch h.2.1.ne, fun h => absurd h hn⟩

end Walks

section Assign

variable {this : Plugin} {st : Statics} {heap : Heap} {c : ℕ}

/-- **RM's `assign_priorities` is rate-monotonic exactly** when its walk discerns the periods. -/
theorem rate_monotonic_iff (hw : IntWindow this.toPluginInfo) (hnd : (this.tasks c).root.Nodup)
    (hs : (keysOf RM.period heap (this.tasks c).root).Pairwise (· ≥ ·))
    (hdist : (st.distPrio c).toNat = (keysOf RM.period heap (this.tasks c).root).toFinset.card) :
    RM.RateMonotonic this.toPluginInfo (this.tasks c).root heap (RM.assignPriorities this st heap c) ↔
      RM.Discerns this.toPluginInfo (keysOf RM.period heap (this.tasks c).root) := by
  have hwin : ((RM.window this).toNat : ℤ) = this.width := window_toNat hw
  have hgt : st.distPrio c > RM.window this ↔
      ¬ ((keysOf RM.period heap (this.tasks c).root).toFinset.card : ℤ) ≤ this.width := by
    rw [gt_iff_lt, UInt32.lt_iff_toNat_lt, hdist]
    omega
  unfold RM.Discerns RM.assignPriorities
  by_cases hn : ((keysOf RM.period heap (this.tasks c).root).toFinset.card : ℤ) ≤ this.width
  · rw [if_pos hn, if_neg fun h => hgt.mp h hn]
    refine (RM.rateMonotonic_iff hs ?_).trans (RM.count_iff hw hs hn)
    intro i hi
    exact countLoop_rankAt hnd hi
  · rw [if_neg hn, if_pos (hgt.mpr hn)]
    refine (RM.rateMonotonic_iff hs ?_).trans (RM.remap_iff hw hs hdist hn)
    intro i hi
    exact RM.remapLoop_rankAt hnd hi

end Assign

/-! ### One period more than there are priorities -/

namespace RateMonotonicExample

/-- RM with the priorities from 10 to `top` and three tasks on core 0. -/
def rm (top : ℤ) : Plugin where
  id := 0
  name := "RM".toUTF8.toList
  kind := .rm
  dl := 0
  prioMin := 10
  prioMax := top
  cpulist := [0]
  entries := none
  utilFreePercpu := fun _ => 1
  taskCountPercpu := fun _ => 3
  tasks := fun _ => ⟨3, [0, 1, 2], rfl⟩

/-- The tasks have the periods 30, 20 and 10. -/
def heap : Heap := fun a =>
  { Task.zero with
    params := { Params.zero with period := match a with | 0 => 30 | 1 => 20 | _ => 10 } }

def statics : Statics := ⟨fun _ => 3, fun _ _ => 0⟩

end RateMonotonicExample

open RateMonotonicExample

/-- Three periods and three priorities. -/
theorem rate_monotonic_three :
    RM.RateMonotonic (rm 12).toPluginInfo [0, 1, 2] heap (RM.assignPriorities (rm 12) statics heap 0) := by
  refine (@rate_monotonic_iff (rm 12) statics heap 0 ?_ ?_ ?_ rfl).mpr ⟨?_, ?_⟩
  · exact ⟨by decide, by decide, by decide⟩
  · decide
  · decide
  · decide
  · rw [if_pos (by decide)]
    exact discerned_small (by decide)

/-- Three periods and two priorities: the shortest period gets the priority above the window. -/
theorem not_rate_monotonic : ¬ ∀ (this : Plugin) (st : Statics) (heap : Heap) (c : ℕ), IntWindow this.toPluginInfo →
    (this.tasks c).root ≠ [] → (this.tasks c).root.Nodup →
    (keysOf RM.period heap (this.tasks c).root).Pairwise (· ≥ ·) →
    (∀ x ∈ keysOf RM.period heap (this.tasks c).root, 0 < x) →
    (st.distPrio c).toNat = (keysOf RM.period heap (this.tasks c).root).toFinset.card →
      RM.RateMonotonic this.toPluginInfo (this.tasks c).root heap (RM.assignPriorities this st heap c) := by
  intro h
  have hrm := h (rm 11) statics heap 0 ⟨by decide, by decide, by decide⟩ (by decide) (by decide) (by decide) (by decide)
    rfl
  have hwin := (hrm.window 2 (by decide)).2
  have hprio : (RM.assignPriorities (rm 11) statics heap 0 2).schedprio = 12 := by decide +kernel
  rw [hprio] at hwin
  exact absurd hwin (by decide)

end Retif
