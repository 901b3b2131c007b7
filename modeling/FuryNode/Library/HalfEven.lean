import Mathlib.Algebra.Order.Ring.Nat
import Mathlib.Algebra.Order.Group.Nat
import Mathlib.Tactic.Linarith

/-!
Rounding a quotient of naturals to the nearest integer, ties to the even one.
-/
namespace HalfEven

def halfEven (n d : Nat) : Nat :=
  if 2 * (n % d) < d then n / d
  else if d < 2 * (n % d) then n / d + 1
  else if n / d % 2 = 0 then n / d else n / d + 1

theorem halfEven_cases (n d : Nat) : halfEven n d = n / d ∨ halfEven n d = n / d + 1 := by
  unfold halfEven
  split
  · exact Or.inl rfl
  · split
    · exact Or.inr rfl
    · split
      · exact Or.inl rfl
      · exact Or.inr rfl

theorem halfEven_mul {m d : Nat} (positive : 0 < d) : halfEven (m * d) d = m := by
  simp [halfEven, Nat.mul_div_cancel m positive, positive]

theorem halfEven_le_of_le_mul {n d m : Nat} (positive : 0 < d) (bound : n ≤ m * d) :
    halfEven n d ≤ m := by
  have floor : n / d ≤ m := Nat.div_le_of_le_mul (by rw [Nat.mul_comm]; exact bound)
  by_cases exactly : n / d = m
  · have whole := Nat.div_add_mod n d
    rw [exactly, Nat.mul_comm] at whole
    have none : n % d = 0 := by omega
    simp [halfEven, none, positive, exactly]
  · rcases halfEven_cases n d with low | high <;> omega

theorem le_halfEven_of_mul_le {n d m : Nat} (positive : 0 < d) (bound : m * d ≤ n) :
    m ≤ halfEven n d := by
  have floor : m ≤ n / d := (Nat.le_div_iff_mul_le positive).mpr bound
  rcases halfEven_cases n d with low | high <;> omega

theorem halfEven_near (n : Nat) {d : Nat} (positive : 0 < d) :
    2 * n ≤ 2 * (d * halfEven n d) + d ∧ 2 * (d * halfEven n d) ≤ 2 * n + d := by
  have whole := Nat.div_add_mod n d
  have less := Nat.mod_lt n positive
  have next : d * (n / d + 1) = d * (n / d) + d := Nat.mul_succ d (n / d)
  unfold halfEven
  split
  · omega
  · split
    · omega
    · split
      · omega
      · omega

theorem halfEven_mono (n m d : Nat) (order : n ≤ m) : halfEven n d ≤ halfEven m d := by
  have floors : n / d ≤ m / d := Nat.div_le_div_right order
  by_cases same : n / d = m / d
  · have left := Nat.div_add_mod n d
    have right := Nat.div_add_mod m d
    rw [same] at left
    -- on one floor the remainders are in order, and so are the branches they select
    unfold halfEven
    rw [same]
    split_ifs <;> omega
  · rcases halfEven_cases n d with low | high <;> rcases halfEven_cases m d with down | up <;> omega

end HalfEven
