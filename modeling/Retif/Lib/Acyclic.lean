/-
# Calls that come to an end

`r a b` says that the call `a` makes the call `b`. All that `a` leads to comes
to an end where `a` is accessible the other way round. Of finitely many calls
this is so exactly where none that is made leads back to itself
(`acc_iff_acyclic`); and it is so wherever a count goes down from each call to
those it makes (`acc_of_count`).

Key theorems: `not_cycle`, `acc_of_acyclic`, `acc_iff_acyclic`, `acc_of_count`.
-/
import Mathlib.Data.Fintype.Card
import Mathlib.Data.Set.Finite.Basic
import Mathlib.Logic.Relation

namespace Acyclic

open Relation

variable {α : Type} {r : α → α → Prop} {a b : α}

/-- What comes to an end does not lead back to itself. -/
theorem not_cycle (h : Acc (flip r) a) : ¬ TransGen r a a := by
  intro hcycle
  induction h with
  | intro a _ ih =>
    obtain ⟨b, hab, hba⟩ := TransGen.head'_iff.mp hcycle
    exact ih b hab (TransGen.tail' hba hab)

/-- What a call leads to comes to an end with it. -/
theorem acc_reached (h : Acc (flip r) a) (hab : ReflTransGen r a b) : Acc (flip r) b := by
  induction hab with
  | refl => exact h
  | tail _ hbc ih => exact ih.inv hbc

/-- Among finitely many calls one that does not end comes back. -/
theorem acc_of_acyclic (hfin : {b | ReflTransGen r a b}.Finite) (h : ∀ b, ReflTransGen r a b → ¬ TransGen r b b) :
    Acc (flip r) a := by
  let Made := {b // ReflTransGen r a b}
  let after : Made → Made → Prop := fun c b => TransGen r b.1 c.1
  have : Finite Made := hfin.to_subtype
  have : IsTrans Made after := ⟨fun _ _ _ hcb hdc => hdc.trans hcb⟩
  have : Std.Irrefl after := ⟨fun b => h b.1 b.2⟩
  have hwf : WellFounded after := Finite.wellFounded_of_trans_of_irrefl after
  suffices hall : ∀ b : Made, Acc (flip r) b.1 from hall ⟨a, .refl⟩
  intro b
  induction b using hwf.induction with
  | _ b ih => exact .intro b.1 fun c hbc => ih ⟨c, b.2.tail hbc⟩ (.single hbc)

/-- **On finitely many calls** all comes to an end exactly where there is no cycle. -/
theorem acc_iff_acyclic (hfin : {b | ReflTransGen r a b}.Finite) :
    Acc (flip r) a ↔ ∀ b, ReflTransGen r a b → ¬ TransGen r b b := by
  constructor
  · intro h b hab
    exact not_cycle (acc_reached h hab)
  · exact acc_of_acyclic hfin

/-- A count that goes down ends. -/
theorem acc_of_count {P : ℕ → α → Prop} (hstep : ∀ n a b, P n a → r a b → ∃ m < n, P m b) {n : ℕ} (h : P n a) :
    Acc (flip r) a := by
  induction n using Nat.strong_induction_on generalizing a with
  | _ n ih =>
    refine .intro a fun b hab => ?_
    obtain ⟨m, hlt, hb⟩ := hstep n a b h hab
    exact ih m hlt hb

end Acyclic
