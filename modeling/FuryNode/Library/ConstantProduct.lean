import Mathlib.Algebra.Order.Field.Basic
import Mathlib.Tactic.Linarith
import Mathlib.Tactic.Ring

/-!
Swaps against two depths whose product is kept. An amount is quoted when it is at most
what the depths give, so that fees and rounding down only make it smaller. Going there and
back at inverse factors never gains.
-/
namespace ConstantProduct
variable {K : Type} [Field K] [LinearOrder K] [IsStrictOrderedRing K]
variable {φ ψ X Y Z x y q r X' d : K}

/-- `y` is at most what the depths `X` and `Y` give for `x` at the factor `φ`. -/
def Quoted (φ X x Y y : K) : Prop := y * (X + x) ≤ φ * (x * Y)

/-- What is bought for `x` is sold again, on a pool where it is no larger a share of the depth. -/
theorem round_trip (inverse : ψ * φ = 1) (positive : 0 < ψ) (depthX : 0 ≤ X + x) (depthY : 0 < Y)
    (depthZ : 0 < Z + y) (back : 0 ≤ X') (there : Quoted φ X x Y q) (sold : Quoted ψ Z y X' r)
    (share : y * Y ≤ q * (Z + y)) : r * (X + x) ≤ x * X' := by
  unfold Quoted at there sold
  have scale : 0 ≤ ψ * X' := mul_nonneg positive.le back
  have chain := calc r * (X + x) * ((Z + y) * Y)
    _ = r * (Z + y) * ((X + x) * Y) := by ring
    _ ≤ ψ * (y * X') * ((X + x) * Y) := mul_le_mul_of_nonneg_right sold (mul_nonneg depthX depthY.le)
    _ = ψ * X' * (X + x) * (y * Y) := by ring
    _ ≤ ψ * X' * (X + x) * (q * (Z + y)) := mul_le_mul_of_nonneg_left share (mul_nonneg scale depthX)
    _ = ψ * X' * (Z + y) * (q * (X + x)) := by ring
    _ ≤ ψ * X' * (Z + y) * (φ * (x * Y)) := mul_le_mul_of_nonneg_left there (mul_nonneg scale depthZ.le)
    _ = ψ * φ * (x * X' * ((Z + y) * Y)) := by ring
    _ = x * X' * ((Z + y) * Y) := by rw [inverse, one_mul]
  exact le_of_mul_le_mul_right chain (mul_pos depthZ depthY)

/-- On the way back the first depth has grown by `d`, which is at least what was sent. -/
theorem round_trip_loses (inverse : ψ * φ = 1) (positive : 0 < ψ) (depthX : 0 < X) (sent : 0 ≤ x)
    (grown : x ≤ d) (depthY : 0 < Y) (depthZ : 0 < Z + y) (there : Quoted φ X x Y q)
    (sold : Quoted ψ Z y (X + d) r) (share : y * Y ≤ q * (Z + y)) : r ≤ d := by
  have depth : 0 < X + x := by linarith
  have bound := round_trip inverse positive depth.le depthY depthZ (by linarith) there sold share
  have more : x * (X + d) ≤ d * (X + x) := by
    have side : x * X ≤ d * X := mul_le_mul_of_nonneg_right grown depthX.le
    linarith [mul_comm d x, mul_add x X d, mul_add d X x]
  exact le_of_mul_le_mul_right (bound.trans more) depth

/-- Two depths after some trades, against those before: the product has not fallen, and where
    one depth is gone the other has not fallen. -/
structure Ahead (X Y X' Y' : K) : Prop where
  product : X * Y ≤ X' * Y'
  first : Y' = 0 → X ≤ X'
  second : X' = 0 → Y ≤ Y'

omit [IsStrictOrderedRing K] in
theorem ahead_refl {X Y : K} : Ahead X Y X Y := ⟨le_rfl, fun _ => le_rfl, fun _ => le_rfl⟩

omit [IsStrictOrderedRing K] in
theorem ahead_symm {Y' : K} (ahead : Ahead X Y X' Y') : Ahead Y X Y' X' :=
  ⟨by rw [mul_comm Y, mul_comm Y']; exact ahead.product, ahead.second, ahead.first⟩

theorem ahead_trade {Y' : K} (ahead : Ahead X Y X' Y') (depth : 0 ≤ X') (sent : 0 ≤ x)
    (quoted : Quoted 1 X' x Y' y) (left : 0 < Y' - y) (idle : X' + x = 0 → y ≤ 0) :
    Ahead X Y (X' + x) (Y' - y) := by
  refine ⟨?_, fun gone => absurd gone left.ne', ?_⟩
  · have kept : X' * Y' ≤ (X' + x) * (Y' - y) := by
      unfold Quoted at quoted
      linarith [mul_sub (X' + x) Y' y, add_mul X' x Y', mul_comm y (X' + x)]
    exact ahead.product.trans kept
  · intro gone
    have empty : X' = 0 := by linarith
    have before := ahead.second empty
    linarith [idle gone]

theorem ahead_no_profit {Y' : K} (ahead : Ahead X Y X' Y') (depth : 0 ≤ X) (other : 0 ≤ Y')
    (given : Y' ≤ Y) : X ≤ X' := by
  rcases other.eq_or_lt with gone | some
  · exact ahead.first gone.symm
  · have bound : X * Y' ≤ X' * Y' := (mul_le_mul_of_nonneg_left given depth).trans ahead.product
    exact le_of_mul_le_mul_right bound some

end ConstantProduct
