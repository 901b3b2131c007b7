import FuryNode.Clp.Calculations

/-!
What a withdrawal pays against the exact share of the units it burns. The share is a quotient by
a quotient of decimals, each rounded to the nearest digit, so it can lie above the exact one; how
far is said once for the two quotients and then used at both ways of making it whole.
-/
namespace FuryNode
open StatefulProgram

section Shares
variable {D P B : ℕ} {units share : Dec}

/-- The two quotients of a share of at most `B` units: the ratio and the share by it. -/
theorem shareOfDepth_near (nonneg : 0 ≤ units.raw) (within : units.raw ≤ B * Dec.precision)
    (computed : shareOfDepth (Dec.ofInt D) (Dec.ofInt P) units = .ok share) :
    ∃ ratio : ℤ, 0 < ratio ∧ 0 ≤ share.raw ∧
      (2 * share.raw - 1) * ratio ≤ 2 * D * (Dec.precision : ℤ) ^ 2 ∧
      2 * P * (Dec.precision : ℤ) ^ 2 <
        (2 * Dec.precision * ratio + (Dec.precision + 2)) * B := by
  have scale : (0 : ℤ) < Dec.precision := by exact_mod_cast Dec.precision_pos
  simp only [shareOfDepth, except_bind_succeeds] at computed
  obtain ⟨ratio, first, second⟩ := computed
  have some : units.raw ≠ 0 := by
    intro zero
    simp [Dec.quo, zero] at first
  have divides : ratio.raw ≠ 0 := by
    intro zero
    simp [Dec.quo, zero] at second
  obtain ⟨ratioNonneg, _, ratioLow⟩ := Dec.quo_near (Dec.ofInt_nonneg P) (by omega) first
  obtain ⟨shareNonneg, shareHigh, _⟩ := Dec.quo_near (Dec.ofInt_nonneg D) (by omega) second
  simp only [Dec.ofInt] at ratioLow shareHigh
  refine ⟨ratio.raw, by omega, shareNonneg, ?_, ?_⟩
  · linarith
  · apply lt_of_mul_lt_mul_left _ scale.le
    have factor : 0 ≤ 2 * (Dec.precision : ℤ) * ratio.raw + (Dec.precision + 2) := by positivity
    have scaled := mul_le_mul_of_nonneg_left within factor
    linarith

theorem shareOfDepth_le (nonneg : 0 ≤ units.raw) (within : units.raw ≤ B * Dec.precision)
    (part : B ≤ P) (computed : shareOfDepth (Dec.ofInt D) (Dec.ofInt P) units = .ok share) :
    (2 * share.raw - 1) * (P * (Dec.precision - 1)) ≤ 2 * D * B * (Dec.precision : ℤ) ^ 2 := by
  obtain ⟨ratio, positive, shareNonneg, high, low⟩ := shareOfDepth_near nonneg within computed
  have scale : (2 : ℤ) ≤ Dec.precision := by decide
  have all : (B : ℤ) ≤ P := by exact_mod_cast part
  have ratioBound : (P : ℤ) * (Dec.precision - 1) ≤ ratio * B := by
    have fewer : ((Dec.precision : ℤ) + 2) * B ≤ (2 * Dec.precision) * P := by
      have := mul_le_mul (by linarith : (Dec.precision : ℤ) + 2 ≤ 2 * Dec.precision) all
        (Int.natCast_nonneg B) (by linarith)
      exact this
    apply le_of_mul_le_mul_left _ (by linarith : (0 : ℤ) < 2 * Dec.precision)
    linarith
  rcases shareNonneg.eq_or_lt with none | some
  · have product : 0 ≤ (P : ℤ) * (Dec.precision - 1) :=
      mul_nonneg (Int.natCast_nonneg P) (by linarith)
    have right : 0 ≤ 2 * D * B * (Dec.precision : ℤ) ^ 2 :=
      mul_nonneg (by positivity) (sq_nonneg _)
    rw [← none]
    linarith
  · calc (2 * share.raw - 1) * (P * (Dec.precision - 1)) ≤ (2 * share.raw - 1) * (ratio * B) :=
          mul_le_mul_of_nonneg_left ratioBound (by linarith)
      _ = (2 * share.raw - 1) * ratio * B := by ring
      _ ≤ 2 * D * (Dec.precision : ℤ) ^ 2 * B :=
          mul_le_mul_of_nonneg_right high (Int.natCast_nonneg B)
      _ = 2 * D * B * (Dec.precision : ℤ) ^ 2 := by ring

theorem decToUint_le {d : Dec} {m : ℕ} (nonneg : 0 ≤ d.raw) (computed : decToUint d = .ok m) :
    m * (Dec.precision : ℤ) ≤ d.raw := by
  simp only [decToUint, Dec.truncateInt, except_bind_succeeds, Dec.toInt_succeeds,
    Uint.ofBigInt_succeeds] at computed
  obtain ⟨_, ⟨_, rfl⟩, same, _⟩ := computed
  rw [← same, Int.tdiv_eq_ediv_of_nonneg nonneg]
  exact Int.ediv_mul_le _ (by decide)

theorem decRoundToUint_le {d : Dec} {m : ℕ} (nonneg : 0 ≤ d.raw)
    (computed : decRoundToUint d = .ok m) :
    2 * (m * (Dec.precision : ℤ)) ≤ 2 * d.raw + Dec.precision := by
  simp only [decRoundToUint, Dec.roundInt, except_bind_succeeds, Dec.toInt_succeeds,
    Uint.ofBigInt_succeeds] at computed
  obtain ⟨_, ⟨_, rfl⟩, same, _⟩ := computed
  obtain ⟨n, raw⟩ := Int.eq_ofNat_of_zero_le nonneg
  rw [raw, Dec.chop_natCast] at same
  have whole : HalfEven.halfEven n Dec.precision = m := by exact_mod_cast same
  have near := (HalfEven.halfEven_near n Dec.precision_pos).2
  rw [whole] at near
  rw [raw]
  have cast : 2 * ((Dec.precision : ℤ) * m) ≤ 2 * n + Dec.precision := by exact_mod_cast near
  linarith

/-- The largest depth of which the refunds of all units together are never more than all of it. -/
def refundableDepth : ℕ := 2 * 10 ^ 18 - 6

/-- Two rounded quotients at scale `E` do not lift a share of `u` units of the depth `D` by a whole
    part, as long as the depth is below twice the scale. -/
theorem rounded_share_lt {E D P u m ratio : ℤ} (wide : 0 < E) (depth : (E + 2) * (D + 2) ≤ 2 * E ^ 2)
    (deep : 0 ≤ D) (one : 1 ≤ m) (units : 1 ≤ u) (fewer : u ≤ P)
    (high : (2 * (m * E) - 1) * ratio ≤ 2 * D * E ^ 2) (low : 2 * P * E ^ 2 < (2 * E * ratio + (E + 2)) * u) :
    m * P < u * (D + 1) := by
  by_contra above
  have excess : u ≤ m * P - D * u := by linarith
  have digits : 0 < 2 * (m * E) - 1 := by
    have product : 1 * 1 ≤ m * E := mul_le_mul one wide one_pos.le (by linarith)
    linarith
  -- the two quotients together, with the share replaced by its whole part
  have chained : (2 * (m * E) - 1) * (2 * P * E ^ 2) <
      4 * D * E ^ 3 * u + (2 * (m * E) - 1) * (E + 2) * u := by
    have first := mul_lt_mul_of_pos_left low digits
    have second := mul_le_mul_of_nonneg_right high (by positivity : 0 ≤ 2 * E * u)
    linarith
  -- a large amount of few units is no worse than one of all units
  have spread : m * u + P ≤ m * P + u := by
    have product := mul_nonneg (sub_nonneg.mpr one) (sub_nonneg.mpr fewer)
    linarith
  have cleared : 2 * E ^ 2 * (m * P - D * u) < (E + 2) * (m * P + u) := by
    apply lt_of_mul_lt_mul_left _ (by linarith : 0 ≤ 2 * E)
    have spreadScaled := mul_le_mul_of_nonneg_left spread (by positivity : 0 ≤ 2 * E * (E + 2))
    have rest : 0 ≤ (E + 2) * u := by positivity
    have slack : 0 ≤ 4 * E * P := mul_nonneg (by linarith) (by linarith)
    linarith
  have total : m * P + u ≤ (D + 2) * (m * P - D * u) := by
    have scaled := mul_le_mul_of_nonneg_left excess (by positivity : 0 ≤ D + 1)
    linarith
  have upper := mul_le_mul_of_nonneg_left total (by linarith : 0 ≤ E + 2)
  have lower := mul_le_mul_of_nonneg_right depth (by linarith : 0 ≤ m * P - D * u)
  linarith

/-- The whole part of a share of `u` units is below the share of a depth that is one larger. -/
theorem truncated_share_lt {u m : ℕ} (some : 0 < u) (part : u ≤ P) (small : D ≤ refundableDepth)
    (computed : shareOfDepth (Dec.ofInt D) (Dec.ofInt P) (Dec.ofInt u) = .ok share)
    (truncated : decToUint share = .ok m) : m * P < u * (D + 1) := by
  rcases Nat.eq_zero_or_pos m with rfl | positive
  · rw [zero_mul]
    positivity
  have unitsRaw : (Dec.ofInt u).raw = u * Dec.precision := rfl
  obtain ⟨ratio, ratioPos, shareNonneg, high, low⟩ :=
    shareOfDepth_near (B := u) (Dec.ofInt_nonneg u) unitsRaw.le computed
  have whole := decToUint_le shareNonneg truncated
  generalize scale : (Dec.precision : ℤ) = E at *
  have value : E = 10 ^ 18 := by rw [← scale]; rfl
  have wide : (0 : ℤ) < E := by rw [value]; norm_num
  have depth : (E + 2) * ((D : ℤ) + 2) ≤ 2 * E ^ 2 := by
    have bound : (D : ℤ) + 2 ≤ 2 * 10 ^ 18 - 4 := by
      unfold refundableDepth at small
      omega
    rw [value]
    linarith
  have ratioHigh : (2 * (m * E) - 1) * ratio ≤ 2 * D * E ^ 2 :=
    (mul_le_mul_of_nonneg_right (by linarith) ratioPos.le).trans high
  have one : (1 : ℤ) ≤ m := by exact_mod_cast positive
  have units : (1 : ℤ) ≤ u := by exact_mod_cast some
  have fewer : (u : ℤ) ≤ P := by exact_mod_cast part
  have below := rounded_share_lt wide depth (Int.natCast_nonneg D) one units fewer ratioHigh low
  exact_mod_cast below

end Shares

section Paid
variable {P D B m u : ℕ} {units share : Dec}

/-- An amount paid for `burned` of `P` units: the exact share up to a relative digit, half a digit
    and what making it whole can add. -/
def NearShare (added : ℚ) (P depth burned amount : ℕ) : Prop :=
  (amount : ℚ) * P ≤
    depth * burned * (10 ^ 18 / (10 ^ 18 - 1)) + P * (added + 1 / (2 * 10 ^ 18))

theorem precision_cast : ((Dec.precision : ℤ) : ℚ) = 10 ^ 18 := by
  norm_num [Dec.precision]

theorem nearShare_of_raw {added : ℚ} {raw : ℤ}
    (amount : (m : ℚ) * 10 ^ 18 ≤ raw + added * 10 ^ 18)
    (bound : (2 * raw - 1) * (P * ((Dec.precision : ℤ) - 1)) ≤ 2 * D * B * (Dec.precision : ℤ) ^ 2) :
    NearShare added P D B m := by
  have exact : (2 * (raw : ℚ) - 1) * (P * (10 ^ 18 - 1)) ≤ 2 * D * B * (10 ^ 18) ^ 2 := by
    rw [← precision_cast]
    exact_mod_cast bound
  have units : (0 : ℚ) ≤ P := Nat.cast_nonneg P
  have scaled := mul_le_mul_of_nonneg_right amount units
  have regrouped : (D : ℚ) * B * (10 ^ 18 / (10 ^ 18 - 1)) + P * (added + 1 / (2 * 10 ^ 18)) =
      (2 * D * B * (10 ^ 18) ^ 2 / (10 ^ 18 - 1) + P * (2 * 10 ^ 18 * added + 1)) / (2 * 10 ^ 18) := by
    ring
  have divided : (2 * (raw : ℚ) - 1) * P ≤ 2 * D * B * (10 ^ 18) ^ 2 / (10 ^ 18 - 1) := by
    rw [le_div_iff₀ (by norm_num)]
    linarith
  unfold NearShare
  rw [regrouped, le_div_iff₀ (by norm_num)]
  linarith

theorem truncated_near (nonneg : 0 ≤ units.raw) (within : units.raw ≤ B * Dec.precision)
    (part : B ≤ P) (computed : shareOfDepth (Dec.ofInt D) (Dec.ofInt P) units = .ok share)
    (truncated : decToUint share = .ok m) : NearShare 0 P D B m := by
  obtain ⟨_, _, shareNonneg, _, _⟩ := shareOfDepth_near nonneg within computed
  have whole := decToUint_le shareNonneg truncated
  have cast : (m : ℚ) * ((Dec.precision : ℤ) : ℚ) ≤ share.raw := by exact_mod_cast whole
  rw [precision_cast] at cast
  exact nearShare_of_raw (by linarith) (shareOfDepth_le nonneg within part computed)

theorem rounded_near (nonneg : 0 ≤ units.raw) (within : units.raw ≤ B * Dec.precision)
    (part : B ≤ P) (computed : shareOfDepth (Dec.ofInt D) (Dec.ofInt P) units = .ok share)
    (rounded : decRoundToUint share = .ok m) : NearShare (1 / 2) P D B m := by
  obtain ⟨_, _, shareNonneg, _, _⟩ := shareOfDepth_near nonneg within computed
  have whole := decRoundToUint_le shareNonneg rounded
  have cast : 2 * ((m : ℚ) * ((Dec.precision : ℤ) : ℚ)) ≤
      2 * share.raw + ((Dec.precision : ℤ) : ℚ) := by exact_mod_cast whole
  rw [precision_cast] at cast
  exact nearShare_of_raw (by linarith) (shareOfDepth_le nonneg within part computed)

theorem unitsToClaim_le {denominator claim : Dec} {w : ℤ} (least : 1 ≤ w) (most : w ≤ 10000)
    (first : (Dec.ofInt 10000).quo (Dec.ofInt w) = .ok denominator)
    (second : (Dec.ofInt u).quo denominator = .ok claim) :
    0 ≤ claim.raw ∧ claim.raw ≤ u * Dec.precision := by
  have divides : denominator.raw ≠ 0 := by
    intro zero
    simp [Dec.quo, zero] at second
  have scale : (2 : ℤ) < Dec.precision := by decide
  have points : 0 < (Dec.ofInt w).raw := mul_pos (by omega) (by linarith)
  obtain ⟨denominatorNonneg, _, low⟩ := Dec.quo_near (Dec.ofInt_nonneg 10000) points first
  obtain ⟨claimNonneg, high, _⟩ := Dec.quo_near (Dec.ofInt_nonneg u) (by omega) second
  simp only [Dec.ofInt, Nat.cast_ofNat] at low high
  generalize (Dec.precision : ℤ) = E at *
  have wide : 0 < E := by linarith
  -- the denominator is at least one
  have unit : E ≤ denominator.raw := by
    by_contra less
    have below : denominator.raw ≤ E - 1 := by omega
    have cleared : 20000 * E ^ 2 < (2 * E * denominator.raw + (E + 2)) * w := by
      apply lt_of_mul_lt_mul_left _ wide.le
      linarith
    have factor : 0 ≤ 2 * E * denominator.raw + (E + 2) := by positivity
    have all := mul_le_mul_of_nonneg_left most factor
    have product := mul_le_mul_of_nonneg_left below (by linarith : 0 ≤ 2 * E)
    linarith
  refine ⟨claimNonneg, ?_⟩
  by_contra more
  have above : (u : ℤ) * E + 1 ≤ claim.raw := by omega
  have product := mul_le_mul_of_nonneg_right above denominatorNonneg
  have whole := mul_le_mul_of_nonneg_left unit (by positivity : 0 ≤ (u : ℤ) * E)
  linarith

theorem calculateWithdrawal_near {native external left swap : ℕ} {w : ℤ} {nativeDepth externalDepth : ℕ}
    (part : u ≤ P) (least : 1 ≤ w) (most : w ≤ 10000)
    (computed : calculateWithdrawal P nativeDepth externalDepth u w 0 =
      .ok (native, external, left, swap)) :
    NearShare 0 P nativeDepth (u - left) native ∧ NearShare 0 P externalDepth (u - left) external := by
  simp only [calculateWithdrawal, except_bind_succeeds, except_pure_succeeds, Dec.sub,
    Dec.checked_succeeds, Prod.mk.injEq] at computed
  obtain ⟨nativeF, nativeRead, externalF, externalRead, unitsF, unitsRead, pointsF, pointsRead, _, _,
    denominator, first, claim, second, externalShare, externalComputed, nativeShare, nativeComputed, _, _,
    _, ⟨_, rfl⟩, _, nativeWhole, _, externalWhole, rest, leftWhole, _, _, rfl, rfl, rfl, _⟩ := computed
  obtain rfl := Dec.fromDigits_succeeds nativeRead
  obtain rfl := Dec.fromDigits_succeeds externalRead
  obtain rfl := Dec.fromDigits_succeeds unitsRead
  obtain rfl := Dec.fromDigits_succeeds pointsRead
  obtain ⟨nonneg, claimed⟩ := unitsToClaim_le least most first second
  have unitsRaw : (Dec.ofInt u).raw = u * Dec.precision := rfl
  have kept := decToUint_le (by dsimp only; linarith) leftWhole
  dsimp only at kept
  rw [unitsRaw] at kept
  -- what is burned covers what is claimed
  have within : claim.raw ≤ (u - rest : ℕ) * Dec.precision := by
    have fewer : rest ≤ u := by
      have scale : (0 : ℤ) < Dec.precision := by exact_mod_cast Dec.precision_pos
      have bound : (rest : ℤ) ≤ u := le_of_mul_le_mul_right (by linarith) scale
      exact_mod_cast bound
    rw [Nat.cast_sub fewer, sub_mul]
    linarith
  have less : u - rest ≤ P := by omega
  exact ⟨truncated_near nonneg within less nativeComputed nativeWhole,
    truncated_near nonneg within less externalComputed externalWhole⟩

theorem decRoundToUint_whole {n m : ℕ} (computed : decRoundToUint ⟨n * Dec.precision⟩ = .ok m) :
    m = n := by
  simp only [decRoundToUint, Dec.roundInt, except_bind_succeeds, Dec.toInt_succeeds,
    Uint.ofBigInt_succeeds, Dec.chop_whole] at computed
  obtain ⟨_, ⟨_, rfl⟩, same, _⟩ := computed
  exact_mod_cast same.symm

theorem calculateWithdrawalFromUnits_near {native external left W nativeDepth externalDepth : ℕ}
    (part : u ≤ P) (covered : W ≤ u)
    (computed : calculateWithdrawalFromUnits P nativeDepth externalDepth u W =
      .ok (native, external, left)) :
    NearShare (1 / 2) P nativeDepth (u - left) native ∧
      NearShare (1 / 2) P externalDepth (u - left) external := by
  simp only [calculateWithdrawalFromUnits, except_bind_succeeds, except_pure_succeeds, Dec.sub,
    Dec.checked_succeeds, Prod.mk.injEq] at computed
  obtain ⟨nativeF, nativeRead, externalF, externalRead, unitsF, unitsRead, burnedF, burnedRead,
    externalShare, externalComputed, nativeShare, nativeComputed, _, ⟨_, rfl⟩, _, nativeWhole, _,
    externalWhole, rest, leftWhole, rfl, rfl, rfl⟩ := computed
  obtain rfl := Dec.fromDigits_succeeds nativeRead
  obtain rfl := Dec.fromDigits_succeeds externalRead
  obtain rfl := Dec.fromDigits_succeeds unitsRead
  obtain rfl := Dec.fromDigits_succeeds burnedRead
  have difference : (Dec.ofInt u).raw - (Dec.ofInt W).raw = (u - W : ℕ) * Dec.precision := by
    simp only [Dec.ofInt]
    rw [Nat.cast_sub covered, sub_mul]
  rw [difference] at leftWhole
  have kept := decRoundToUint_whole leftWhole
  have burned : u - rest = W := by omega
  have unitsRaw : (Dec.ofInt W).raw = W * Dec.precision := rfl
  rw [burned]
  exact ⟨rounded_near (Dec.ofInt_nonneg W) unitsRaw.le (covered.trans part) nativeComputed nativeWhole,
    rounded_near (Dec.ofInt_nonneg W) unitsRaw.le (covered.trans part) externalComputed externalWhole⟩

/-- Withdrawals pay the share of the units they burn, up to the rounding of decimals; the one by
    units also rounds what it pays to the nearest amount. -/
theorem withdrawals_near_share (P u nativeDepth externalDepth : ℕ) (part : u ≤ P) :
    (∀ (w : ℤ) (native external left swap : ℕ), 1 ≤ w → w ≤ 10000 →
      calculateWithdrawal P nativeDepth externalDepth u w 0 = .ok (native, external, left, swap) →
      NearShare 0 P nativeDepth (u - left) native ∧
        NearShare 0 P externalDepth (u - left) external) ∧
    ∀ W native external left : ℕ, 1 ≤ W → W ≤ u →
      calculateWithdrawalFromUnits P nativeDepth externalDepth u W = .ok (native, external, left) →
      NearShare (1 / 2) P nativeDepth (u - left) native ∧
        NearShare (1 / 2) P externalDepth (u - left) external := by
  constructor
  · intro w native external left swap least most computed
    exact calculateWithdrawal_near part least most computed
  · intro W native external left _ covered computed
    exact calculateWithdrawalFromUnits_near part covered computed

theorem withdrawals_near_share_sample :
    calculateWithdrawal 10 7 (10 ^ 30) 3 10000 0 = .ok (2, 300000000000000000030000000000, 0, 0) ∧
      NearShare 0 10 7 (3 - 0) 2 :=
  have computed : calculateWithdrawal 10 7 (10 ^ 30) 3 10000 0 =
      .ok (2, 300000000000000000030000000000, 0, 0) := by decide +kernel
  ⟨computed, ((withdrawals_near_share 10 3 7 (10 ^ 30) (by decide)).1 10000 _ _ _ _ (by decide) (by decide)
    computed).1⟩

/-- The ratio of 10 to 3 units rounds down and the share by it up; one of 3 units of a depth of 5
    is paid 2. -/
theorem withdrawals_overpay :
    (calculateWithdrawal 10 7 (10 ^ 30) 3 10000 0 = .ok (2, 300000000000000000030000000000, 0, 0) ∧
      10 ^ 30 * (3 - 0) < 300000000000000000030000000000 * 10) ∧
    (calculateWithdrawalFromUnits 3 5 5 1 1 = .ok (2, 2, 0) ∧ 5 * (1 - 0) < 2 * 3) := by
  decide +kernel

end Paid

end FuryNode
