/-
# A run and the run without some of its operations

Two computations in lockstep return related values or stop with the same
fault. A run of which some operations are left out goes the same way, as far
as a relation between the two states tells, when an operation that is left out
keeps the relation and one that stays takes related states to related states
(`runs_filter`).

Key definitions: `Lockstep`, `Runs`.
Key theorems: `Lockstep.bind`, `runs_filter`, `runs_runGood`.
-/
import Retif.Lib.Runs

namespace Retif

/-! ### Two computations -/

/-- Both return, related values, or both stop, with one fault. -/
inductive Lockstep {ε α β : Type} (R : α → β → Prop) : Except ε α → Except ε β → Prop
  | ok {a : α} {b : β} : R a b → Lockstep R (.ok a) (.ok b)
  | error (e : ε) : Lockstep R (.error e) (.error e)

namespace Lockstep

variable {ε α β α' β' : Type} {R : α → β → Prop} {Q : α' → β' → Prop}

theorem refl (x : Except ε α) : Lockstep (· = ·) x x := by
  cases x with
  | error e => exact .error e
  | ok a => exact .ok rfl

/-- The rule for a bind. -/
theorem bind {x : Except ε α} {y : Except ε β} {f : α → Except ε α'} {g : β → Except ε β'} (h : Lockstep R x y)
    (hf : ∀ a b, R a b → Lockstep Q (f a) (g b)) : Lockstep Q (x >>= f) (y >>= g) := by
  cases h with
  | ok hR => exact hf _ _ hR
  | error e => exact .error e

/-- The rule for a bind where the first halves are one. -/
theorem bind_same {x : Except ε α} {f : α → Except ε α'} {g : α → Except ε β'}
    (hf : ∀ a, x = .ok a → Lockstep Q (f a) (g a)) : Lockstep Q (x >>= f) (x >>= g) := by
  cases x with
  | error e => exact .error e
  | ok a => exact hf a rfl

theorem mono {R' : α → β → Prop} {x : Except ε α} {y : Except ε β} (h : Lockstep R x y)
    (hR : ∀ a b, x = .ok a → y = .ok b → R a b → R' a b) : Lockstep R' x y := by
  cases h with
  | ok h => exact .ok (hR _ _ rfl rfl h)
  | error e => exact .error e

theorem of_ok {x : Except ε α} {y : Except ε β} {a : α} (h : Lockstep R x y) (hx : x = .ok a) :
    ∃ b, y = .ok b ∧ R a b := by
  cases h with
  | ok h =>
    obtain rfl := Except.ok.inj hx
    exact ⟨_, rfl, h⟩
  | error e => cases hx

theorem of_ok_right {x : Except ε α} {y : Except ε β} {b : β} (h : Lockstep R x y) (hy : y = .ok b) :
    ∃ a, x = .ok a ∧ R a b := by
  cases h with
  | ok h =>
    obtain rfl := Except.ok.inj hy
    exact ⟨_, rfl, h⟩
  | error e => cases hy

theorem error_iff {x : Except ε α} {y : Except ε β} (h : Lockstep R x y) (e : ε) : y = .error e ↔ x = .error e := by
  cases h with
  | ok h => simp
  | error e' => simp

end Lockstep

/-! ### Two runs -/

section Runs

variable {σ ο ε ρ : Type} {step : σ → ο → Except ε (ρ × σ)} {good good' : σ → ο → Prop} {s₀ s s' : σ}

/-- The run of a list of operations, each of which meets `good` and returns. -/
inductive Runs (step : σ → ο → Except ε (ρ × σ)) (good : σ → ο → Prop) (s₀ : σ) : List ο → σ → Prop
  | nil : Runs step good s₀ [] s₀
  | snoc {os : List ο} {o : ο} {s s' : σ} {r : ρ} : Runs step good s₀ os s → good s o → step s o = .ok (r, s') →
      Runs step good s₀ (os ++ [o]) s'

theorem Runs.nil_eq (h : Runs step good s₀ [] s) : s = s₀ := by
  generalize hos : ([] : List ο) = os at h
  cases h with
  | nil => rfl
  | snoc => simp at hos

theorem Runs.append {os os' : List ο} (h : Runs step good s₀ os s) (h' : Runs step good s os' s') :
    Runs step good s₀ (os ++ os') s' := by
  induction h' with
  | nil => rwa [List.append_nil]
  | snoc _ hg hs ih =>
    rw [← List.append_assoc]
    exact ih.snoc hg hs

/-- Operations that meet `good` meet `good'` where an invariant says so. -/
theorem Runs.strengthen {I : σ → Prop} {os : List ο} (h0 : I s₀)
    (hstep : ∀ s o r s', I s → good s o → step s o = .ok (r, s') → good' s o ∧ I s') (h : Runs step good s₀ os s) :
    Runs step good' s₀ os s ∧ I s := by
  induction h with
  | nil => exact ⟨.nil, h0⟩
  | snoc _ hg hs ih =>
    obtain ⟨hr, hI⟩ := ih
    obtain ⟨hg', hI'⟩ := hstep _ _ _ _ hI hg hs
    exact ⟨hr.snoc hg' hs, hI'⟩

/-- **The run without some operations** goes the way of the whole run. -/
theorem runs_filter {R : σ → σ → Prop} {os : List ο} (keep : ο → Bool) (h0 : R s₀ s₀)
    (hdrop : ∀ s v o r s', R s v → keep o = false → good s o → step s o = .ok (r, s') → R s' v)
    (hkeep : ∀ s v o r s', R s v → keep o = true → good s o → step s o = .ok (r, s') →
      good' v o ∧ ∃ r' v', step v o = .ok (r', v') ∧ R s' v')
    (h : Runs step good s₀ os s) : ∃ v, Runs step good' s₀ (os.filter keep) v ∧ R s v := by
  induction h with
  | nil => exact ⟨s₀, .nil, h0⟩
  | snoc _ hg hs ih =>
    rename_i os o s s' r _
    obtain ⟨v, hv, hR⟩ := ih
    by_cases hk : keep o = true
    · obtain ⟨hg', r', v', hstep, hR'⟩ := hkeep _ _ _ _ _ hR hk hg hs
      refine ⟨v', ?_, hR'⟩
      rw [List.filter_append, List.filter_cons_of_pos hk, List.filter_nil]
      exact hv.snoc hg' hstep
    · refine ⟨v, ?_, hdrop _ _ _ _ _ hR (Bool.eq_false_iff.mpr hk) hg hs⟩
      rw [List.filter_append, List.filter_cons_of_neg hk, List.filter_nil, List.append_nil]
      exact hv

variable [∀ s o, Decidable (good s o)]

theorem runs_runGood {os : List ο} (h : runGood step good os s = some s') : Runs step good s os s' := by
  induction os generalizing s with
  | nil =>
    obtain rfl := Option.some.inj h
    exact .nil
  | cons o os ih =>
    unfold runGood at h
    split at h
    · rename_i hg
      split at h
      · rename_i hs
        exact (Runs.nil.snoc hg hs).append (ih h)
      · cases h
    · cases h

end Runs

end Retif
