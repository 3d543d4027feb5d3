import Mathlib.Data.List.Chain
import Mathlib.Tactic.Lemma

set_option relaxedAutoImplicit false
set_option autoImplicit false

/-!
# Graded relations

A relation along which an integer goes down by one has no cycles: the members of a chain are at
different heights. When the heights are bounded below, the relation is well founded.

## Main definitions

* `Program.Graded` — every step goes down by one.

## Main results

* `Program.Graded.rank_of_chain` — the heights along a chain.
* `Program.Graded.nodup_of_chain` — a chain does not return.
* `Program.Graded.wellFounded` — there is no endless descent above a bound.
-/

namespace Program

variable {α : Type} {R : α → α → Prop} {rank : α → ℤ}

/-- Every step of the relation goes down by one. -/
def Graded (R : α → α → Prop) (rank : α → ℤ) : Prop := ∀ a b, R a b → rank b = rank a - 1

namespace Graded

/-- The heights along a chain. -/
lemma rank_of_chain (h : Graded R rank) {a : α} {l : List α} (hchain : (a :: l).IsChain R)
    {i : ℕ} {b : α} (hi : (a :: l)[i]? = some b) : rank b = rank a - i := by
  induction l generalizing a i with
  | nil =>
    cases i with
    | zero =>
      rw [List.getElem?_cons_zero, Option.some.injEq] at hi
      simp [hi]
    | succ i => simp at hi
  | cons c l ih =>
    rw [List.isChain_cons_cons] at hchain
    cases i with
    | zero =>
      rw [List.getElem?_cons_zero, Option.some.injEq] at hi
      simp [hi]
    | succ i =>
      rw [List.getElem?_cons_succ] at hi
      have hstep := h a c hchain.1
      have hrest := ih hchain.2 hi
      push_cast
      omega

/-- A chain does not return: later members are lower. -/
lemma nodup_of_chain (h : Graded R rank) {l : List α} (hchain : l.IsChain R) : l.Nodup := by
  have hlower : l.IsChain fun a b => rank b < rank a := by
    refine hchain.imp fun a b hab => ?_
    have hstep := h a b hab
    omega
  have htrans : IsTrans α fun a b => rank b < rank a := ⟨fun _ _ _ hab hbc => Int.lt_trans hbc hab⟩
  refine (List.isChain_iff_pairwise.mp hlower).imp fun {a b} hab heq => ?_
  rw [heq] at hab
  exact Int.lt_irrefl _ hab

/-- There is no endless descent above a bound. -/
lemma wellFounded (h : Graded R rank) (hbound : ∀ a b, R a b → 0 ≤ rank b) :
    WellFounded fun b a => R a b := by
  refine Subrelation.wf ?_ (measure fun a => (rank a).toNat).wf
  intro b a hab
  have hstep := h a b hab
  have hpos := hbound a b hab
  change (rank b).toNat < (rank a).toNat
  omega

end Graded

end Program
