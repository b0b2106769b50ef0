import Mathlib.Tactic

/-! # Loops that join a part of every item -/

namespace Joins
open List

variable {σ ι α : Type} [SemilatticeSup α] [OrderBot α] [DecidableEq ι] {view : σ → α}
  {step : σ → ι → σ} {part : ι → α} (hstep : ∀ s x, view (step s x) = view s ⊔ part x)
include hstep

/-- By induction on the items: every turn joins the part of one item to what is there. -/
lemma view_foldl (xs : List ι) (s : σ) :
    view (xs.foldl step s) = view s ⊔ xs.toFinset.sup part := by
  induction xs generalizing s with
  | nil => exact (sup_bot_eq _).symm
  | cons x xs ih => rw [foldl_cons, ih, hstep, sup_assoc, toFinset_cons, Finset.sup_insert]

lemma view_merge_foldl {merge : σ → σ → σ} (hmerge : ∀ s t, view (merge s t) = view s ⊔ view t)
    {s : σ} (hs : view s = ⊥) {xs ys zs : List ι} (h : ∀ x, x ∈ zs ↔ x ∈ xs ∨ x ∈ ys) :
    view (merge (xs.foldl step s) (ys.foldl step s)) = view (zs.foldl step s) := by
  have hzs : zs.toFinset = xs.toFinset ∪ ys.toFinset := by
    ext x
    simp [h]
  simp only [hmerge, view_foldl hstep, hs, bot_sup_eq, hzs, Finset.sup_union]

end Joins
