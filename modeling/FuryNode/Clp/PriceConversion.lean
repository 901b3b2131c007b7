import FuryNode.Clp.SpotPrices
import FuryNode.Clp.SwapOutcomes

/-!
The conversions between decimals and rationals, and the two spot prices of a pool that go
through them. A rational is cut off at 18 digits, so a decimal survives the way there and
back, and the exact prices are reciprocal while the decimals stay below them.
-/
namespace FuryNode
open StatefulProgram BeginBlock

/-- The integer next to a rational on the side of zero. -/
def towardZero (x : ℚ) : ℤ := if 0 ≤ x then ⌊x⌋ else ⌈x⌉

theorem tdiv_towardZero {a : ℤ} {b : ℕ} (positive : 0 < b) : a.tdiv b = towardZero ((a : ℚ) / b) := by
  have divides : (0 : ℚ) < b := by exact_mod_cast positive
  unfold towardZero
  by_cases nonneg : 0 ≤ a
  · have quotient : (0 : ℚ) ≤ (a : ℚ) / b := div_nonneg (by exact_mod_cast nonneg) divides.le
    rw [if_pos quotient, Int.tdiv_eq_ediv_of_nonneg nonneg, Rat.floor_intCast_div_natCast]
  · have negative : (a : ℚ) < 0 := by exact_mod_cast not_le.mp nonneg
    have quotient : ¬(0 : ℚ) ≤ (a : ℚ) / b := not_le.mpr (div_neg_of_neg_of_pos negative divides)
    have mirrored : a.tdiv b = -((-a) / b) := by
      rw [← Int.tdiv_eq_ediv_of_nonneg (by omega), Int.neg_tdiv, neg_neg]
    rw [if_neg quotient, mirrored, ← Rat.floor_intCast_div_natCast, Int.cast_neg, neg_div,
      Int.floor_neg, neg_neg]

theorem towardZero_near (x : ℚ) : |(towardZero x : ℚ) - x| < 1 := by
  unfold towardZero
  rw [abs_lt]
  split
  · constructor
    · linarith [Int.lt_floor_add_one x]
    · linarith [Int.floor_le x]
  · constructor
    · linarith [Int.le_ceil x]
    · linarith [Int.ceil_lt_add_one x]

theorem towardZero_below (x : ℚ) (nonneg : 0 ≤ x) : 0 ≤ towardZero x ∧ (towardZero x : ℚ) ≤ x := by
  rw [towardZero, if_pos nonneg]
  exact ⟨Int.floor_nonneg.mpr nonneg, Int.floor_le x⟩

theorem towardZero_intCast (i : ℤ) : towardZero i = i := by
  simp [towardZero]

theorem fits_iff_size (i : ℤ) : Dec.fits i ↔ i.natAbs.size ≤ 315 := by
  unfold Dec.fits
  exact Nat.size_le.symm

theorem scaled_raw (q : ℚ) : (q.num * 10 ^ 18).tdiv q.den = towardZero (q * 10 ^ 18) := by
  rw [tdiv_towardZero q.den_pos]
  have value : ((q.num * 10 ^ 18 : ℤ) : ℚ) / q.den = q * 10 ^ 18 := by
    rw [Int.cast_mul, mul_div_right_comm, Rat.num_div_den]
    norm_num
  rw [value]

theorem decToRat_scaled (d : Dec) : decToRat d * 10 ^ 18 = d.raw := by
  unfold decToRat
  norm_num

theorem ratToDec_value (q : ℚ) : ratToDec q =
    if (towardZero (q * 10 ^ 18)).natAbs.size ≤ 315 then .ok ⟨towardZero (q * 10 ^ 18)⟩
    else .error (.decimalOutOfRange (towardZero (q * 10 ^ 18)).natAbs.size) := by
  simp only [ratToDec, scaled_raw, fits_iff_size]

theorem ratToDec_ok (q : ℚ) (d : Dec) : ratToDec q = .ok d ↔
    d.raw = towardZero (q * 10 ^ 18) ∧ (towardZero (q * 10 ^ 18)).natAbs.size ≤ 315 := by
  rw [ratToDec_value]
  constructor
  · intro converted
    split at converted
    · rename_i bits
      cases converted
      exact ⟨rfl, bits⟩
    · cases converted
  · intro converted
    rw [if_pos converted.2, ← converted.1]

theorem ratToDec_near {q : ℚ} {d : Dec} (converted : ratToDec q = .ok d) :
    |decToRat d - q| < 1 / 10 ^ 18 := by
  obtain ⟨raw, _⟩ := (ratToDec_ok q d).mp converted
  have near := towardZero_near (q * 10 ^ 18)
  rw [← raw, ← decToRat_scaled, ← sub_mul, abs_mul, abs_of_pos (by positivity : (0 : ℚ) < 10 ^ 18)] at near
  rwa [lt_div_iff₀ (by positivity)]

/-- A decimal is converted there and back without loss, and a rational is cut off towards zero
    at 18 digits, which fails exactly if the result needs more than 315 bits. -/
theorem conversion_truncates :
    (∀ d : Dec, d.raw.natAbs.size ≤ 315 → ratToDec (decToRat d) = .ok d) ∧
    ∀ q : ℚ,
      (∀ d, ratToDec q = .ok d → d.raw = towardZero (q * 10 ^ 18) ∧ |decToRat d - q| < 1 / 10 ^ 18) ∧
      ((∃ e, ratToDec q = .error e) ↔ 315 < (towardZero (q * 10 ^ 18)).natAbs.size) := by
  constructor
  · intro d bits
    apply (ratToDec_ok _ _).mpr
    rw [decToRat_scaled, towardZero_intCast]
    exact ⟨rfl, bits⟩
  · intro q
    constructor
    · intro d converted
      exact ⟨((ratToDec_ok q d).mp converted).1, ratToDec_near converted⟩
    · rw [ratToDec_value]
      split <;> simp <;> omega

/-- The least decimal of 315 bits is converted there and back. -/
theorem least_decimal_converted : ratToDec (decToRat ⟨-(2 ^ 315 - 1)⟩) = .ok ⟨-(2 ^ 315 - 1)⟩ :=
  conversion_truncates.1 _ (by rw [← fits_iff_size]; decide +kernel)

/-- The rational that `CalcSpotPriceX` converts. -/
def spotPriceX (X Y decimalsX decimalsY : ℕ) (rate : Dec) (isXNative : Bool) : ℚ :=
  (if isXNative then (Y / X : ℚ) * calcPmtpFactor rate else (Y / X : ℚ) / calcPmtpFactor rate) *
    calcDenomChangeMultiplier decimalsX decimalsY

def nativeDepth (pool : Pool) : ℕ := pool.nativeAssetBalance + pool.nativeLiabilities
def externalDepth (pool : Pool) : ℕ := pool.externalAssetBalance + pool.externalLiabilities

def spotPriceNative (pool : Pool) (decimalsExternal : ℕ) (rate : Dec) : ℚ :=
  spotPriceX (nativeDepth pool) (externalDepth pool) nativeAssetDecimals decimalsExternal rate true

def spotPriceExternal (pool : Pool) (decimalsExternal : ℕ) (rate : Dec) : ℚ :=
  spotPriceX (externalDepth pool) (nativeDepth pool) decimalsExternal nativeAssetDecimals rate false

theorem calcSpotPriceX_converts {X : ℕ} (Y decimalsX decimalsY : ℕ) {rate : Dec} (isXNative : Bool)
    (filled : 0 < X) (factor : calcPmtpFactor rate ≠ 0) :
    calcSpotPriceX X Y decimalsX decimalsY rate isXNative =
      .ok (ratToDec (spotPriceX X Y decimalsX decimalsY rate isXNative)) := by
  unfold calcSpotPriceX spotPriceX ratQuo
  rw [if_neg (by omega)]
  cases isXNative with
  | true => rfl
  | false => simp only [Bool.false_eq_true, if_false, if_neg factor]; rfl

theorem multipliers_cancel (x y : ℕ) :
    calcDenomChangeMultiplier x y * calcDenomChangeMultiplier y x = 1 := by
  have power : ∀ n : ℕ, (10 ^ n : ℚ) ≠ 0 := fun n => by positivity
  unfold calcDenomChangeMultiplier
  by_cases less : y < x
  · rw [if_pos less, if_neg (by omega), mul_one_div_cancel (power _)]
  · rw [if_neg less]
    by_cases greater : x < y
    · rw [if_pos greater, one_div_mul_cancel (power _)]
    · obtain rfl : x = y := by omega
      simp

theorem multiplier_pos (x y : ℕ) : 0 < calcDenomChangeMultiplier x y := by
  unfold calcDenomChangeMultiplier
  split <;> positivity

theorem exact_prices_cancel {X Y x y : ℕ} {rate : Dec} (filled : 0 < X) (full : 0 < Y)
    (factor : 0 < calcPmtpFactor rate) :
    spotPriceX X Y x y rate true * spotPriceX Y X y x rate false = 1 := by
  have nonzero : (X : ℚ) ≠ 0 ∧ (Y : ℚ) ≠ 0 := ⟨by positivity, by positivity⟩
  obtain ⟨first, second⟩ := nonzero
  have scales := multipliers_cancel x y
  have prices : (Y / X : ℚ) * calcPmtpFactor rate * ((X / Y : ℚ) / calcPmtpFactor rate) = 1 := by
    have divides := factor.ne'
    field_simp
  simp only [spotPriceX, Bool.false_eq_true, if_true, if_false]
  rw [mul_mul_mul_comm, prices, scales, one_mul]

theorem spotPriceX_nonneg {X Y x y : ℕ} {rate : Dec} {isXNative : Bool}
    (factor : 0 < calcPmtpFactor rate) : 0 ≤ spotPriceX X Y x y rate isXNative := by
  have scale := (multiplier_pos x y).le
  unfold spotPriceX
  split <;> positivity

/-- The decimal of a price is below it by less than its last digit. -/
theorem converted_below {q : ℚ} {d : Dec} (nonneg : 0 ≤ q) (converted : ratToDec q = .ok d) :
    0 ≤ decToRat d ∧ decToRat d ≤ q ∧ q - decToRat d < 1 / 10 ^ 18 := by
  obtain ⟨raw, _⟩ := (ratToDec_ok q d).mp converted
  obtain ⟨positive, below⟩ := towardZero_below (q * 10 ^ 18) (by positivity)
  have scaled := decToRat_scaled d
  have near := abs_lt.mp (ratToDec_near converted)
  have whole : (0 : ℚ) ≤ d.raw := by
    rw [raw]
    exact_mod_cast positive
  rw [← raw] at below
  refine ⟨?_, ?_, ?_⟩
  · linarith
  · linarith
  · linarith [near.1]

/-- The exact prices of a pool are reciprocal, and the decimals stay below them by less than
    their last digit, so that their product is at most one. -/
theorem spot_prices_reciprocal (pool : Pool) (decimalsExternal : ℕ) (rate native external : Dec)
    (filled : 0 < nativeDepth pool ∧ 0 < externalDepth pool) (above : -10 ^ 18 < rate.raw)
    (nativePrice : calcSpotPriceNative pool decimalsExternal rate = .ok (.ok native))
    (externalPrice : calcSpotPriceExternal pool decimalsExternal rate = .ok (.ok external)) :
    ratToDec (spotPriceNative pool decimalsExternal rate) = .ok native ∧
      ratToDec (spotPriceExternal pool decimalsExternal rate) = .ok external ∧
      spotPriceNative pool decimalsExternal rate * spotPriceExternal pool decimalsExternal rate = 1 ∧
      decToRat native * decToRat external ≤ 1 ∧
      (decToRat native ≤ spotPriceNative pool decimalsExternal rate ∧
        spotPriceNative pool decimalsExternal rate - decToRat native < 1 / 10 ^ 18) ∧
      decToRat external ≤ spotPriceExternal pool decimalsExternal rate ∧
      spotPriceExternal pool decimalsExternal rate - decToRat external < 1 / 10 ^ 18 := by
  have factor := calcPmtpFactor_pos above
  have first : ratToDec (spotPriceNative pool decimalsExternal rate) = .ok native := by
    obtain ⟨depths, debt, computed⟩ := except_bind_succeeds.mp nativePrice
    obtain ⟨_, _, rfl⟩ := (extractDebt_native pool depths).mp debt
    have converted := calcSpotPriceX_converts (externalDepth pool)
      nativeAssetDecimals decimalsExternal true filled.1 factor.ne'
    exact Except.ok.inj (converted.symm.trans computed)
  have second : ratToDec (spotPriceExternal pool decimalsExternal rate) = .ok external := by
    obtain ⟨depths, debt, computed⟩ := except_bind_succeeds.mp externalPrice
    obtain ⟨_, _, rfl⟩ := (extractDebt_external pool depths).mp debt
    have converted := calcSpotPriceX_converts (nativeDepth pool)
      decimalsExternal nativeAssetDecimals false filled.2 factor.ne'
    exact Except.ok.inj (converted.symm.trans computed)
  have exact_product : spotPriceNative pool decimalsExternal rate *
      spotPriceExternal pool decimalsExternal rate = 1 :=
    exact_prices_cancel filled.1 filled.2 factor
  have nonneg : 0 ≤ spotPriceNative pool decimalsExternal rate := spotPriceX_nonneg factor
  obtain ⟨_, nativeBelow, nativeNear⟩ := converted_below nonneg first
  obtain ⟨externalNonneg, externalBelow, externalNear⟩ :=
    converted_below (spotPriceX_nonneg factor) second
  have product : decToRat native * decToRat external ≤ 1 := by
    calc decToRat native * decToRat external
        ≤ spotPriceNative pool decimalsExternal rate * spotPriceExternal pool decimalsExternal rate :=
          mul_le_mul nativeBelow externalBelow externalNonneg nonneg
      _ = 1 := exact_product
  exact ⟨first, second, exact_product, product, ⟨nativeBelow, nativeNear⟩, externalBelow, externalNear⟩

/-- Seven external units of six decimals against three of fury, at a rate of one half. -/
theorem sevenths_reciprocal :
    let pool : Pool := { Pool.zero with nativeAssetBalance := 3, externalAssetBalance := 5, externalLiabilities := 2 }
    ∃ native external, calcSpotPriceNative pool 6 ⟨5 * 10 ^ 17⟩ = .ok (.ok native) ∧
      calcSpotPriceExternal pool 6 ⟨5 * 10 ^ 17⟩ = .ok (.ok external) ∧
      decToRat native * decToRat external ≤ 1 := by
  intro pool
  have first : calcSpotPriceNative pool 6 ⟨5 * 10 ^ 17⟩ = .ok (.ok ⟨3500000000000000000000000000000⟩) := by
    decide +kernel
  have second : calcSpotPriceExternal pool 6 ⟨5 * 10 ^ 17⟩ = .ok (.ok ⟨285714⟩) := by
    decide +kernel
  exact ⟨_, _, first, second,
    (spot_prices_reciprocal pool 6 _ _ _ (by decide) (by decide) first second).2.2.2.1⟩
end FuryNode
