/-
# Loops over a source that answers

Two loops of a program that asks for one record after another: a loop over
given positions, and one that goes on from a position until it has found a
given number of records. The source has a state, which every question may
change; what it answers to the questions of the loop is given by a function of
the position, under an invariant of the source.

Key definitions: `forEach`, `seek`.
Key theorems: `forEach_ok`, `seek_returns`, `seek_past`.
-/
import Retif.Lib.Runs

namespace Seeking

open Retif

variable {σ ε α β : Type}

/-- The positions `is` one after the other; what is found is put in order. -/
def forEach (body : ℕ → σ → Except ε (List β × σ)) : List ℕ → σ → Except ε (List β × σ)
  | [], s => .ok ([], s)
  | i :: is, s => do
    let (found, s) ← body i s
    let (rest, s) ← forEach body is s
    .ok (found ++ rest, s)

/-- From `desc` on until `left` records are found; `out` where the turns run out. -/
def seek (out : ε) (ask : ℕ → σ → Except ε (Option α × σ)) : ℕ → ℕ → ℕ → σ → Except ε (List α × σ)
  | 0, _, _, _ => .error out
  | fuel + 1, desc, left, s =>
    if left = 0 then .ok ([], s)
    else do
      let (r, s) ← ask desc s
      match r with
      | none => seek out ask fuel (desc + 1) left s
      | some a => do
        let (rest, s) ← seek out ask fuel (desc + 1) (left - 1) s
        .ok (a :: rest, s)

section Answers

variable {I : σ → Prop} {s : σ}

/-- Each position gives what it gives, whatever the others were asked before. -/
theorem forEach_ok {body : ℕ → σ → Except ε (List β × σ)} {f : ℕ → List β} {is : List ℕ}
    (hbody : ∀ i ∈ is, ∀ s, I s → ∃ s', body i s = .ok (f i, s') ∧ I s') (hI : I s) :
    ∃ s', forEach body is s = .ok ((is.map f).flatten, s') ∧ I s' := by
  induction is generalizing s with
  | nil => exact ⟨s, rfl, hI⟩
  | cons i is ih =>
    obtain ⟨s₁, h₁, hI₁⟩ := hbody i (List.mem_cons_self ..) s hI
    obtain ⟨s₂, h₂, hI₂⟩ := ih (fun j hj => hbody j (List.mem_cons_of_mem i hj)) hI₁
    refine ⟨s₂, ?_, hI₂⟩
    unfold forEach
    rw [h₁, ok_bind]
    dsimp only
    rw [h₂]
    rfl

/-- **The loop ends with all of them**: where `left` of the `n` positions from
`lo` on have a record, the loop finds those and asks for no position behind. -/
theorem seek_returns {out : ε} {ask : ℕ → σ → Except ε (Option α × σ)} {f : ℕ → Option α} {lo n left : ℕ}
    (hask : ∀ d s, lo ≤ d → d < lo + n → I s → ∃ s', ask d s = .ok (f d, s') ∧ I s')
    (hleft : (List.range' lo n).countP (fun d => (f d).isSome) = left) (hI : I s) :
    ∃ s', I s' ∧ Returns (fun fuel => seek out ask fuel lo left s) ((List.range' lo n).filterMap f, s') := by
  suffices ∃ s', I s' ∧ ∀ fuel, n + 1 ≤ fuel →
      seek out ask fuel lo left s = .ok ((List.range' lo n).filterMap f, s') by
    obtain ⟨s', hI', h⟩ := this
    exact ⟨s', hI', n + 1, h⟩
  induction n generalizing lo left s with
  | zero =>
    refine ⟨s, hI, ?_⟩
    intro fuel hfuel
    obtain ⟨fuel, rfl⟩ := Nat.exists_eq_add_of_le' hfuel
    have hzero : left = 0 := by simpa using hleft.symm
    subst hzero
    rfl
  | succ n ih =>
    rw [List.range'_succ] at hleft ⊢
    by_cases hzero : left = 0
    · -- nothing is left to be found
      have hnone : ((lo :: List.range' (lo + 1) n).filterMap f) = [] := by
        apply List.filterMap_eq_nil_iff.mpr
        intro d hd
        rw [hzero, List.countP_eq_zero] at hleft
        simpa using hleft d hd
      refine ⟨s, hI, ?_⟩
      intro fuel hfuel
      obtain ⟨fuel, rfl⟩ := Nat.exists_eq_add_of_le' hfuel
      rw [hnone]
      simp [seek, hzero]
    · obtain ⟨s₁, h₁, hI₁⟩ := hask lo s le_rfl (by omega) hI
      have hask' : ∀ d s, lo + 1 ≤ d → d < lo + 1 + n → I s → ∃ s', ask d s = .ok (f d, s') ∧ I s' :=
        fun d s hlo hhi => hask d s (by omega) (by omega)
      have hone : ∀ fuel, seek out ask (fuel + 1) lo left s = (f lo).elim (seek out ask fuel (lo + 1) left s₁)
          fun a => seek out ask fuel (lo + 1) (left - 1) s₁ >>= fun p => .ok (a :: p.1, p.2) := by
        intro fuel
        rw [seek, if_neg hzero, h₁, ok_bind]
        cases f lo <;> rfl
      cases hf : f lo with
      | none =>
        rw [List.countP_cons_of_neg (by simp [hf])] at hleft
        obtain ⟨s₂, hI₂, h₂⟩ := ih hask' hleft hI₁
        refine ⟨s₂, hI₂, ?_⟩
        rintro (_ | fuel) hfuel
        · omega
        rw [List.filterMap_cons_none hf, hone, hf]
        exact h₂ fuel (by omega)
      | some a =>
        rw [List.countP_cons_of_pos (by simp [hf])] at hleft
        obtain ⟨s₂, hI₂, h₂⟩ := @ih s₁ (lo + 1) (left - 1) hask' (by omega) hI₁
        refine ⟨s₂, hI₂, ?_⟩
        rintro (_ | fuel) hfuel
        · omega
        rw [List.filterMap_cons_some hf, hone, hf]
        rw [Option.elim_some, h₂ fuel (by omega)]
        rfl

/-- **The loop runs past the end**: where fewer than `left` of the `n`
positions from `lo` on have a record, the position behind them is asked for. -/
theorem seek_past {out e : ε} {ask : ℕ → σ → Except ε (Option α × σ)} {f : ℕ → Option α} {lo n left : ℕ}
    (hask : ∀ d s, lo ≤ d → d < lo + n → I s → ∃ s', ask d s = .ok (f d, s') ∧ I s')
    (hend : ∀ s, I s → ask (lo + n) s = .error e) (hleft : (List.range' lo n).countP (fun d => (f d).isSome) < left)
    (hI : I s) : ∃ turns, ∀ fuel, turns ≤ fuel → seek out ask fuel lo left s = .error e := by
  refine ⟨n + 1, ?_⟩
  induction n generalizing lo left s with
  | zero =>
    rintro (_ | fuel) hfuel
    · omega
    · have hne : left ≠ 0 := by
        simp only [List.range'_zero, List.countP_nil] at hleft
        omega
      have herr : ask lo s = .error e := hend s hI
      rw [seek, if_neg hne, herr]
      rfl
  | succ n ih =>
    rintro (_ | fuel) hfuel
    · omega
    · rw [List.range'_succ] at hleft
      have hne : left ≠ 0 := by omega
      obtain ⟨s₁, h₁, hI₁⟩ := hask lo s le_rfl (by omega) hI
      have hask' : ∀ d s, lo + 1 ≤ d → d < lo + 1 + n → I s → ∃ s', ask d s = .ok (f d, s') ∧ I s' :=
        fun d s hlo hhi => hask d s (by omega) (by omega)
      have hend' : ∀ s, I s → ask (lo + 1 + n) s = .error e := by
        have heq : lo + 1 + n = lo + (n + 1) := by omega
        rw [heq]
        exact hend
      rw [seek, if_neg hne, h₁, ok_bind]
      cases hf : f lo with
      | none =>
        rw [List.countP_cons_of_neg (by simp [hf])] at hleft
        exact ih hask' hend' hleft hI₁ fuel (by omega)
      | some a =>
        rw [List.countP_cons_of_pos (by simp [hf])] at hleft
        have hrest := @ih s₁ (lo + 1) (left - 1) hask' hend' (by omega) hI₁ fuel (by omega)
        dsimp only
        rw [hrest]
        rfl

/-- With no more records asked for than there are, some positions hold just as many. -/
theorem exists_count (p : ℕ → Bool) {lo n left : ℕ} (h : left ≤ (List.range' lo n).countP p) :
    ∃ m ≤ n, (List.range' lo m).countP p = left := by
  induction n with
  | zero =>
    have hzero : left = 0 := by simpa using h
    exact ⟨0, le_rfl, hzero.symm⟩
  | succ n ih =>
    rw [List.range'_1_concat, List.countP_append] at h
    by_cases hle : left ≤ (List.range' lo n).countP p
    · obtain ⟨m, hm, hcount⟩ := ih hle
      exact ⟨m, Nat.le_succ_of_le hm, hcount⟩
    · refine ⟨n + 1, le_rfl, ?_⟩
      have hone : [lo + n].countP p ≤ 1 := List.countP_le_length
      rw [List.range'_1_concat, List.countP_append]
      omega

end Answers

end Seeking
