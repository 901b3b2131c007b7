import Mathlib.Algebra.Order.Field.Basic
import Mathlib.Algebra.Order.Ring.Nat
import Mathlib.Data.Nat.Cast.Order.Ring
import Mathlib.Tactic.Linarith
import Mathlib.Tactic.Ring

/-!
The positive root of a falling quadratic, found with a square root that is rounded down to
a natural number and a quotient that is truncated. No exact root is needed: four times the
leading coefficient times the value is the discriminant minus a square, so the sign of the
value at a point is the order of two squares.
-/
namespace QuadraticRoot
variable {K : Type} [Field K] [LinearOrder K] [IsStrictOrderedRing K]

def value (α β γ s : K) : K := γ + β * s - α * s ^ 2

def discriminant (α β γ : K) : K := β ^ 2 + 4 * α * γ

omit [LinearOrder K] [IsStrictOrderedRing K] in
theorem value_complete (α β γ s : K) :
    4 * α * value α β γ s = discriminant α β γ - (2 * α * s - β) ^ 2 := by
  unfold value discriminant
  ring

theorem value_nonneg (α β γ s : K) (leading : 0 < α)
    (within : (2 * α * s - β) ^ 2 ≤ discriminant α β γ) : 0 ≤ value α β γ s := by
  have complete := value_complete α β γ s
  have scaled : 0 ≤ 4 * α * value α β γ s := by linarith
  exact nonneg_of_mul_nonneg_right scaled (by linarith)

theorem value_neg (α β γ s : K) (leading : 0 < α)
    (beyond : discriminant α β γ < (2 * α * s - β) ^ 2) : value α β γ s < 0 := by
  have complete := value_complete α β γ s
  have scaled : 4 * α * value α β γ s < 0 := by linarith
  exact neg_of_mul_neg_right scaled (by linarith)

theorem discriminant_nonneg (α β γ : K) (leading : 0 ≤ α) (start : 0 ≤ γ) :
    0 ≤ discriminant α β γ := by
  have square := sq_nonneg β
  have product := mul_nonneg leading start
  unfold discriminant
  linarith

/-- The natural number `n` is the square root of the discriminant, rounded down. -/
structure Rooted (α β γ : K) (n : ℕ) : Prop where
  below : (n : K) ^ 2 ≤ discriminant α β γ
  above : discriminant α β γ < ((n : K) + 1) ^ 2

section Bracket
variable {α β γ : K} {n s : ℕ}

theorem neg_linear_lt (leading : 0 < α) (start : 0 ≤ γ) (root : Rooted α β γ n) :
    -β < (n : K) + 1 := by
  have product := mul_nonneg leading.le start
  have square : (-β) ^ 2 < ((n : K) + 1) ^ 2 := by
    have above := root.above
    unfold discriminant at above
    linarith [neg_sq β]
  exact lt_of_pow_lt_pow_left₀ 2 (by positivity) square

theorem value_at_quotient (leading : 0 < α) (start : 0 ≤ γ) (root : Rooted α β γ n)
    (low : 2 * α * s ≤ n + β) : 0 ≤ value α β γ (s : K) := by
  apply value_nonneg α β γ s leading
  have positive : (0 : K) ≤ 2 * α * s := by positivity
  rcases le_total 0 (2 * α * s - β) with right | left
  · have bound : 2 * α * s - β ≤ n := by linarith
    exact (pow_le_pow_left₀ right bound 2).trans root.below
  · -- left of the vertex the square is at most that of the linear coefficient
    have near : (2 * α * s - β) ^ 2 ≤ β ^ 2 := by
      apply sq_le_sq'
      · linarith
      · linarith
    have product := mul_nonneg leading.le start
    unfold discriminant
    linarith

theorem value_beyond_quotient (unit : 1 ≤ α) (root : Rooted α β γ n)
    (high : n + β < 2 * α * (s + 1)) : value α β γ ((s : K) + 2) < 0 := by
  apply value_neg α β γ _ (by linarith)
  have far : (n : K) + 1 < 2 * α * (s + 2) - β := by linarith
  have square : ((n : K) + 1) ^ 2 < (2 * α * (s + 2) - β) ^ 2 :=
    pow_lt_pow_left₀ far (by positivity) (by norm_num)
  exact root.above.trans square

/-- The truncated absolute value of the quotient lies within two units below the root. The
    absolute value matters only when the root was rounded below the linear coefficient, and
    then the quotient truncates to zero. -/
theorem bracket (unit : 1 ≤ α) (start : 0 ≤ γ) (root : Rooted α β γ n)
    (low : (s : K) ≤ |((n : K) + β) / (2 * α)|) (high : |((n : K) + β) / (2 * α)| < s + 1) :
    0 ≤ value α β γ (s : K) ∧ value α β γ ((s : K) + 2) < 0 := by
  have leading : 0 < α := by linarith
  have double : 0 < 2 * α := by linarith
  rcases le_or_gt 0 ((n : K) + β) with positive | negative
  · rw [abs_of_nonneg (div_nonneg positive double.le)] at low high
    rw [le_div_iff₀ double] at low
    rw [div_lt_iff₀ double] at high
    constructor
    · apply value_at_quotient leading start root
      linarith
    · apply value_beyond_quotient unit root
      linarith
  · have close := neg_linear_lt leading start root
    have small : |((n : K) + β) / (2 * α)| < 1 := by
      rw [abs_div, abs_of_neg negative, abs_of_pos double, div_lt_one double]
      linarith
    have zero : s = 0 := by
      have bound : (s : K) < 1 := low.trans_lt small
      have : s < 1 := by exact_mod_cast bound
      omega
    subst zero
    constructor
    · unfold value
      simpa using start
    · apply value_beyond_quotient unit root
      push_cast
      linarith

end Bracket
end QuadraticRoot
