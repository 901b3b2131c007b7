import Mathlib.Algebra.Order.Ring.Nat
import Mathlib.Algebra.BigOperators.Group.Finset.Basic
import Mathlib.Algebra.BigOperators.Group.Finset.Piecewise
import Mathlib.Data.Fintype.BigOperators

/-!
Sums over all points of a finite type, as a mapping has one value at every key: what one write
does to them, and that they are sums over the few points where the mapping is not zero.
-/
namespace PointSums
variable {A : Type} [Fintype A] [DecidableEq A]

theorem sum_update (f : A → ℕ) (a : A) (n : ℕ) :
    (∑ b, Function.update f a n b) + f a = (∑ b, f b) + n := by
  rw [Finset.sum_update_of_mem (Finset.mem_univ a), ← Finset.add_sum_erase _ f (Finset.mem_univ a),
    Finset.sdiff_singleton_eq_erase]
  omega

theorem sum_change (f g : A → ℕ) (a : A) (others : ∀ b, b ≠ a → g b = f b) :
    (∑ b, g b) + f a = (∑ b, f b) + g a := by
  have changed : g = Function.update f a (g a) := by
    funext b
    by_cases same : b = a
    · subst same
      simp
    · rw [Function.update_of_ne same]
      exact others b same
  have trade := sum_update f a (g a)
  rw [← changed] at trade
  exact trade

theorem sum_listed (f : A → ℕ) (points : List A) (distinct : points.Nodup)
    (zero : ∀ b, b ∉ points → f b = 0) : ∑ b, f b = (points.map f).sum := by
  rw [← Finset.sum_subset (Finset.subset_univ points.toFinset)
    (fun b _ absent => zero b (by simpa using absent)), List.sum_toFinset f distinct]

end PointSums
