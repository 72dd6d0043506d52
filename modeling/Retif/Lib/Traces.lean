/-
# Traces

A run of a system with the labels of its steps, and what one system's runs say
about another's. A step is a relation: a label stands for what can be seen of
it, and more than one state may follow.

Key definitions: `Trace`, `Since`, `Visible`, `outputs`, `Answered`, `answers`.
Key theorems: `Trace.inv`, `Trace.abstracts`, `Trace.foldl`, `since_concat`,
`trace_outputs`, `Trace.lockstep`, `trace_answers`.
-/
import Retif.Lib.Unwinding

namespace Traces

open Retif

section Trace

variable {σ τ ℓ : Type}

/-- The runs from `s₀`, with the labels of their steps in order. -/
inductive Trace (step : σ → ℓ → σ → Prop) (s₀ : σ) : List ℓ → σ → Prop
  | start : Trace step s₀ [] s₀
  | step {ls : List ℓ} {s s' : σ} {l : ℓ} : Trace step s₀ ls s → step s l s' → Trace step s₀ (ls ++ [l]) s'

variable {step : σ → ℓ → σ → Prop} {step' : τ → ℓ → τ → Prop} {s₀ s : σ} {t₀ t : τ} {ls : List ℓ}

/-- What holds at the start and is kept by every step holds at the end of a trace. -/
theorem Trace.inv {I : σ → Prop} (h0 : I s₀) (hstep : ∀ s l s', I s → step s l s' → I s')
    (h : Trace step s₀ ls s) : I s := by
  induction h with
  | start => exact h0
  | step _ hs ih => exact hstep _ _ _ ih hs

/-- **Abstraction**: where each step of a system is, seen through `view`, a
step of the other with the same label, so is each trace. The steps may rely on
an invariant of the first system. -/
theorem Trace.abstracts {I : σ → Prop} {view : σ → τ} (h0 : I s₀) (hinv : ∀ s l s', I s → step s l s' → I s')
    (hsim : ∀ s l s', I s → step s l s' → step' (view s) l (view s')) (h : Trace step s₀ ls s) :
    Trace step' (view s₀) ls (view s) := by
  induction h with
  | start => exact .start
  | step htr hs ih => exact ih.step (hsim _ _ _ (htr.inv h0 hinv) hs)

/-- A step before a trace. -/
theorem Trace.cons {l : ℓ} {s₁ : σ} (h1 : step s₀ l s₁) (h : Trace step s₁ ls s) : Trace step s₀ (l :: ls) s := by
  induction h with
  | start => exact Trace.start.step h1
  | step _ hs ih => exact ih.step hs

/-- Where a label tells the state that follows, a trace tells the state it ends in. -/
theorem Trace.foldl {after : τ → ℓ → τ} (hafter : ∀ t l t', step' t l t' → t' = after t l)
    (h : Trace step' t₀ ls t) : t = ls.foldl after t₀ := by
  induction h with
  | start => rfl
  | step _ hs ih =>
    rw [List.foldl_concat, ← ih]
    exact hafter _ _ _ hs

end Trace

/-! ### What has begun and not ended -/

section Since

variable {ℓ : Type} {begins ends : List ℓ → ℓ → Prop} {ls : List ℓ}

/-- A step of the trace begins it, and no later step ends it; whether a step
does may depend on the trace before it. -/
def Since (begins ends : List ℓ → ℓ → Prop) (ls : List ℓ) : Prop :=
  ∃ pre l post, ls = pre ++ l :: post ∧ begins pre l ∧
    ∀ mid l' rest, post = mid ++ l' :: rest → ¬ ends (pre ++ l :: mid) l'

theorem since_nil : ¬ Since begins ends [] := by
  rintro ⟨pre, l, post, h, -, -⟩
  simp at h

/-- **One step more**: it begins, or had begun and does not end. -/
theorem since_concat {l : ℓ} : Since begins ends (ls ++ [l]) ↔ begins ls l ∨ (Since begins ends ls ∧ ¬ ends ls l) := by
  constructor
  · rintro ⟨pre, m, post, heq, hb, he⟩
    rcases List.eq_nil_or_concat' post with rfl | ⟨post', x, rfl⟩
    · left
      obtain ⟨rfl, hlast⟩ := List.append_inj' heq rfl
      cases hlast
      exact hb
    · right
      have heq' : ls ++ [l] = (pre ++ m :: post') ++ [x] := by simpa using heq
      obtain ⟨rfl, hlast⟩ := List.append_inj' heq' rfl
      cases hlast
      refine ⟨⟨pre, m, post', rfl, hb, ?_⟩, he post' l [] rfl⟩
      rintro mid l' rest rfl
      exact he mid l' (rest ++ [l]) (by simp)
  · rintro (hb | ⟨⟨pre, m, post, rfl, hb, he⟩, hl⟩)
    · refine ⟨ls, l, [], rfl, hb, ?_⟩
      intro mid l' rest h
      simp at h
    · refine ⟨pre, m, post ++ [l], by simp, hb, ?_⟩
      intro mid l' rest h
      rcases List.eq_nil_or_concat' rest with rfl | ⟨rest', x, rfl⟩
      · obtain ⟨rfl, hlast⟩ := List.append_inj' h rfl
        cases hlast
        exact hl
      · have h' : post ++ [l] = (mid ++ l' :: rest') ++ [x] := by simpa using h
        obtain ⟨rfl, -⟩ := List.append_inj' h' rfl
        exact he mid l' rest' rfl

end Since

/-! ### The traces of a step function -/

section Visible

variable {σ ο ε ρ : Type}

/-- The step that can be seen: with some input it gives `r`. -/
def Visible (step : σ → ο → Except ε (ρ × σ)) (s : σ) (r : ρ) (s' : σ) : Prop :=
  ∃ o, step s o = .ok (r, s')

variable {step : σ → ο → Except ε (ρ × σ)} {s₀ s : σ} {rs : List ρ}

theorem Trace.reach (h : Trace (Visible step) s₀ rs s) : Reach step (fun _ _ => True) s₀ s := by
  induction h with
  | start => exact .start
  | step _ hs ih =>
    obtain ⟨o, ho⟩ := hs
    exact ih.step trivial ho

/-- The run of a list of inputs, as long as each step returns, with what the steps give. -/
def outputs (step : σ → ο → Except ε (ρ × σ)) : List ο → σ → Option (List ρ × σ)
  | [], s => some ([], s)
  | o :: os, s =>
    match step s o with
    | .ok (r, s') => (outputs step os s').map fun p => (r :: p.1, p.2)
    | .error _ => none

theorem trace_outputs {os : List ο} (h : outputs step os s₀ = some (rs, s)) : Trace (Visible step) s₀ rs s := by
  induction os generalizing s₀ rs with
  | nil =>
    cases h
    exact .start
  | cons o os ih =>
    unfold outputs at h
    split at h
    · rename_i r s' hs
      obtain ⟨p, hp, hpq⟩ := Option.map_eq_some_iff.mp h
      cases hpq
      exact (ih hp).cons ⟨o, hs⟩
    · cases h

end Visible

/-! ### Operations and their answers -/

section Answered

variable {σ τ ο ε ρ : Type} {step : σ → ο → Except ε (ρ × σ)} {good : σ → ο → Prop}
  {step' : τ → ο → Except ε (ρ × τ)} {good' : τ → ο → Prop} {s₀ s : σ} {t₀ t : τ} {ls : List (ο × ρ)}

/-- The step of an operation that meets `good`; the operation and its answer are seen. -/
def Answered (step : σ → ο → Except ε (ρ × σ)) (good : σ → ο → Prop) (s : σ) (l : ο × ρ) (s' : σ) : Prop :=
  good s l.1 ∧ step s l.1 = .ok (l.2, s')

/-- **Lockstep** along a trace: where related states answer alike and stay
related, a trace of the second system is one of the first. -/
theorem Trace.lockstep {R : σ → τ → Prop} {I : σ → Prop} (h0 : R s₀ t₀) (hI : I s₀)
    (hgood : ∀ s t o, I s → R s t → good' t o → good s o)
    (hinv : ∀ s o r s', I s → good s o → step s o = .ok (r, s') → I s')
    (hstep : ∀ s t o, I s → R s t → Lockstep (fun x y => y.1 = x.1 ∧ R x.2 y.2) (step s o) (step' t o))
    (h : Trace (Answered step' good') t₀ ls t) : ∃ s, Trace (Answered step good) s₀ ls s ∧ I s ∧ R s t := by
  induction h with
  | start => exact ⟨s₀, .start, hI, h0⟩
  | step _ hs ih =>
    obtain ⟨s, htr, hIs, hR⟩ := ih
    obtain ⟨hg, hs⟩ := hs
    obtain ⟨⟨r, s'⟩, hs', rfl, hR'⟩ := (hstep s _ _ hIs hR).of_ok_right hs
    have hg' := hgood s _ _ hIs hR hg
    exact ⟨s', htr.step ⟨hg', hs'⟩, hinv _ _ _ _ hIs hg' hs', hR'⟩

variable [∀ s o, Decidable (good s o)]

/-- The run of a list of operations, as long as each meets `good` and returns, with the answers. -/
def answers (step : σ → ο → Except ε (ρ × σ)) (good : σ → ο → Prop) [∀ s o, Decidable (good s o)] :
    List ο → σ → Option (List (ο × ρ) × σ)
  | [], s => some ([], s)
  | o :: os, s =>
    if good s o then
      match step s o with
      | .ok (r, s') => (answers step good os s').map fun p => ((o, r) :: p.1, p.2)
      | .error _ => none
    else none

theorem trace_answers {os : List ο} (h : answers step good os s₀ = some (ls, s)) :
    Trace (Answered step good) s₀ ls s := by
  induction os generalizing s₀ ls with
  | nil =>
    cases h
    exact .start
  | cons o os ih =>
    unfold answers at h
    split at h
    · rename_i hg
      split at h
      · rename_i r s' hs
        obtain ⟨p, hp, hpq⟩ := Option.map_eq_some_iff.mp h
        cases hpq
        exact (ih hp).cons ⟨hg, hs⟩
      · cases h
    · cases h

end Answered

end Traces
