/-
# Runs of a step function that can stop

A system is a step function `σ → ο → Except ε (ρ × σ)`: in a state, an
operation either stops the run with a fault or answers and moves on. `Reach`
is what a run reaches when every step of it meets a condition on the state
before the step; `Reach.inv` is the rule for what holds all along a run.
`Avoids` is for computations that may stop, but not with certain faults,
`Returns` for those that are given a number of turns.

Key definitions: `Reach`, `runGood`, `Avoids`, `Returns`.
Key theorems: `bind_ok`, `Avoids.bind`, `Returns.unique`, `Reach.inv`, `Reach.mono`, `reach_runGood`.
-/
import Mathlib.Tactic

namespace Retif

/-! ### Computations that can stop -/

section Except

variable {ε α β : Type}

/-- A bind that returns: both halves returned. -/
theorem bind_ok {x : Except ε α} {f : α → Except ε β} {b : β} :
    (x >>= f) = .ok b ↔ ∃ a, x = .ok a ∧ f a = .ok b := by
  cases x with
  | error e => simp [bind, Except.bind]
  | ok a => simp [bind, Except.bind]

/-- A bind that stops: its first half did, or its second. -/
theorem bind_error {x : Except ε α} {f : α → Except ε β} {e : ε} :
    (x >>= f) = .error e ↔ x = .error e ∨ ∃ a, x = .ok a ∧ f a = .error e := by
  cases x with
  | error e' => simp [bind, Except.bind]
  | ok a => simp [bind, Except.bind]

/-- A bind returns when its first half does, and its second on what that returns. -/
theorem bind_returns {x : Except ε α} {f : α → Except ε β} (hx : ∃ a, x = .ok a)
    (hf : ∀ a, x = .ok a → ∃ b, f a = .ok b) : ∃ b, (x >>= f) = .ok b := by
  obtain ⟨a, ha⟩ := hx
  obtain ⟨b, hb⟩ := hf a ha
  exact ⟨b, bind_ok.mpr ⟨a, ha, hb⟩⟩

@[simp] theorem ok_bind (a : α) (f : α → Except ε β) : (Except.ok a >>= f) = f a := rfl

@[simp] theorem error_bind (e : ε) (f : α → Except ε β) : ((.error e : Except ε α) >>= f) = .error e := rfl

theorem toOption_ok {x : Except ε α} {a : α} (h : x.toOption = some a) : x = .ok a := by
  cases x with
  | error e => simp [Except.toOption] at h
  | ok b => simpa [Except.toOption] using h

/-- The computation does not stop with a `bad` fault. -/
def Avoids (bad : ε → Prop) (x : Except ε α) : Prop := ∀ e, x = .error e → ¬ bad e

variable {bad : ε → Prop}

theorem Avoids.ok (a : α) : Avoids bad (.ok a : Except ε α) := by
  intro e h
  cases h

theorem Avoids.error {e : ε} (h : ¬ bad e) : Avoids bad (.error e : Except ε α) := by
  intro e' h'
  cases h'
  exact h

/-- The rule for a bind: the second half is reached from what the first returns. -/
theorem Avoids.bind {x : Except ε α} {f : α → Except ε β} (hx : Avoids bad x)
    (hf : ∀ a, x = .ok a → Avoids bad (f a)) : Avoids bad (x >>= f) := by
  intro e h
  rcases bind_error.mp h with h | ⟨a, ha, h⟩
  · exact hx e h
  · exact hf a ha e h

/-- A computation that is given a number of turns comes to an end: from some
number on it returns `a`. -/
def Returns (x : ℕ → Except ε α) (a : α) : Prop := ∃ turns, ∀ fuel, turns ≤ fuel → x fuel = .ok a

theorem Returns.unique {x : ℕ → Except ε α} {a a' : α} (h : Returns x a) (h' : Returns x a') : a = a' := by
  obtain ⟨n, hn⟩ := h
  obtain ⟨n', hn'⟩ := h'
  have heq := (hn (max n n') (le_max_left ..)).symm.trans (hn' (max n n') (le_max_right ..))
  simpa using heq

end Except

/-! ### Runs -/

section Reach

variable {σ ο ε ρ : Type}

/-- The states a run from `s₀` reaches when every step of it meets `good`. -/
inductive Reach (step : σ → ο → Except ε (ρ × σ)) (good : σ → ο → Prop) (s₀ : σ) : σ → Prop
  | start : Reach step good s₀ s₀
  | step {s s' : σ} {o : ο} {r : ρ} : Reach step good s₀ s → good s o → step s o = .ok (r, s') →
      Reach step good s₀ s'

variable {step : σ → ο → Except ε (ρ × σ)} {good good' : σ → ο → Prop} {s₀ s s' : σ}

/-- The invariant rule: what holds at the start and is kept by every good step
holds in every state reached. -/
theorem Reach.inv {I : σ → Prop} (h0 : I s₀)
    (hstep : ∀ s o r s', I s → good s o → step s o = .ok (r, s') → I s')
    (h : Reach step good s₀ s) : I s := by
  induction h with
  | start => exact h0
  | step _ hg hs ih => exact hstep _ _ _ _ ih hg hs

/-- A weaker condition reaches more. -/
theorem Reach.mono (hg : ∀ s o, good s o → good' s o) (h : Reach step good s₀ s) :
    Reach step good' s₀ s := by
  induction h with
  | start => exact .start
  | step _ h1 hs ih => exact ih.step (hg _ _ h1) hs

theorem Reach.trans (h : Reach step good s₀ s) (h' : Reach step good s s') : Reach step good s₀ s' := by
  induction h' with
  | start => exact h
  | step _ hg hs ih => exact ih.step hg hs

variable [∀ s o, Decidable (good s o)]

/-- The run of a list of operations, as long as each meets `good` and returns. -/
def runGood (step : σ → ο → Except ε (ρ × σ)) (good : σ → ο → Prop) [∀ s o, Decidable (good s o)] :
    List ο → σ → Option σ
  | [], s => some s
  | o :: os, s =>
    if good s o then
      match step s o with
      | .ok (_, s') => runGood step good os s'
      | .error _ => none
    else none

theorem reach_runGood {os : List ο} (h : runGood step good os s = some s') : Reach step good s s' := by
  induction os generalizing s with
  | nil => cases h; exact .start
  | cons o os ih =>
    unfold runGood at h
    split at h
    · rename_i hg
      split at h
      · rename_i hs
        exact (Reach.start.step hg hs).trans (ih h)
      · cases h
    · cases h

end Reach

end Retif
