/-
# Memories under other addresses

`Copies π S h h'` says that `h'` holds at `π a` what `h` holds at `a`, for the
addresses `a` in `S`; what else the two memories hold is of no account. Writing
to both keeps it (`Copies.update`), and so does giving one more address a place
in the other memory (`moved`), for which `π` is changed at that address only.

Key definitions: `Copies`, `moved`.
Key theorems: `Copies.update`, `Copies.moved`, `moved_injective`.
-/
import Mathlib.Logic.Equiv.Basic
import Mathlib.Logic.Function.Basic

namespace Renaming

variable {α β γ : Type*} {π : α → β} {S S' : α → Prop} {h : α → γ} {h' : β → γ}

/-- What is in `h` at the addresses in `S` is in `h'` where `π` says. -/
def Copies (π : α → β) (S : α → Prop) (h : α → γ) (h' : β → γ) : Prop := ∀ a, S a → h' (π a) = h a

theorem Copies.mono (hc : Copies π S h h') (hS : ∀ a, S' a → S a) : Copies π S' h h' := fun a ha => hc a (hS a ha)

/-- Other contents at addresses of no account. -/
theorem Copies.congr (hc : Copies π S h h') {g : α → γ} {g' : β → γ} (hg : ∀ a, S a → g a = h a)
    (hg' : ∀ a, S a → g' (π a) = h' (π a)) : Copies π S g g' := by
  intro a ha
  rw [hg' a ha, hc a ha, hg a ha]

variable [DecidableEq β]

/-- A write to both. -/
theorem Copies.update [DecidableEq α] (hc : Copies π S h h') (hπ : Function.Injective π) (a : α) (v : γ) :
    Copies π S (Function.update h a v) (Function.update h' (π a) v) := by
  intro b hb
  by_cases hba : b = a
  · simp [hba]
  · rw [Function.update_of_ne hba, Function.update_of_ne fun hab => hba (hπ hab)]
    exact hc b hb

/-! ### One address more -/

/-- `π` with `a` at `b`; the address that was at `b` changes places with `a`. -/
def moved (π : α → β) (a : α) (b : β) (x : α) : β := Equiv.swap (π a) b (π x)

@[simp] theorem moved_self (π : α → β) (a : α) (b : β) : moved π a b a = b := Equiv.swap_apply_left ..

theorem moved_of_ne (hπ : Function.Injective π) {a x : α} {b : β} (hx : x ≠ a) (hb : π x ≠ b) :
    moved π a b x = π x := Equiv.swap_apply_of_ne_of_ne (fun hxa => hx (hπ hxa)) hb

theorem moved_injective (hπ : Function.Injective π) (a : α) (b : β) : Function.Injective (moved π a b) :=
  (Equiv.swap (π a) b).injective.comp hπ

/-- A place for `a` where nothing of account is. -/
theorem Copies.moved [DecidableEq α] (hc : Copies π S h h') (hπ : Function.Injective π) {a : α} {b : β} (ha : ¬ S a)
    (hb : ∀ x, S x → π x ≠ b) (v : γ) :
    Copies (moved π a b) (fun x => x = a ∨ S x) (Function.update h a v) (Function.update h' b v) := by
  rintro x (rfl | hx)
  · simp
  · have hxa : x ≠ a := fun hxa => ha (hxa ▸ hx)
    rw [moved_of_ne hπ hxa (hb x hx), Function.update_of_ne (hb x hx), Function.update_of_ne hxa]
    exact hc x hx

end Renaming
