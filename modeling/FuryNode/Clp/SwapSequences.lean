import FuryNode.Clp.SwapEffects
import FuryNode.Margin.Pricing

/-!
Sequences of swaps on one pool. The product of the two depths never falls under a swap that
gives at most what they quote. Selling an external asset always does; selling fury under a
positive running rate gives more, unless its fee takes back what the rate adds.
-/
namespace FuryNode
open StatefulProgram ConstantProduct

structure SwapOrder where
  sentAmount : ℕ
  toAsset : String
  swapFeeRate : Dec

/-- A pool, and what a trader gained of both assets since the first swap. -/
structure Trading where
  pool : Pool
  fury : ℤ
  external : ℤ

/-- One call of `SwapOne`. -/
def Trading.swap (rate : Dec) (t : Trading) (o : SwapOrder) : Fallible Trading := do
  let (received, _, _, pool) ← swapOne o.sentAmount o.toAsset t.pool rate o.swapFeeRate
  pure (if o.toAsset = nativeSymbol then ⟨pool, t.fury + received, t.external - o.sentAmount⟩
    else ⟨pool, t.fury - o.sentAmount, t.external + received⟩)

def swapAll (rate : Dec) (orders : List SwapOrder) (pool : Pool) : Fallible Trading :=
  orders.foldlM (Trading.swap rate) ⟨pool, 0, 0⟩

/-- A sale of fury for which the fee takes back what the running rate adds, with a unit to
    spare for the rounding of the fee. Without a running rate nothing has to be taken back. -/
def ShiftCovered (rate : Dec) (pool : Pool) (o : SwapOrder) : Prop :=
  let quote := calcRawXYK o.sentAmount (pool.depth .native) (pool.depth .external)
  o.toAsset = nativeSymbol ∨ rate.raw = 0 ∨
    calcPmtpFactor rate * (1 - decToRat o.swapFeeRate) * quote + 1 ≤ quote

def CoveredAlong (rate : Dec) : List SwapOrder → Trading → Prop
  | [], _ => True
  | o :: rest, t => ShiftCovered rate t.pool o ∧ ∀ next, t.swap rate o = .ok next → CoveredAlong rate rest next

section Amounts
variable {toFury : Bool} {X x Y y fee : ℕ} {rate swapFeeRate : Dec}

theorem calcSwapResult_amount (computed : calcSwapResult toFury X x Y rate swapFeeRate = .ok (y, fee)) :
    y = 0 ∨ (X ≠ 0 ∧ x ≠ 0 ∧ Y ≠ 0 ∧ ∃ A, calcAdjusted toFury X x Y rate = .ok A ∧
      (y : ℚ) ≤ A ∧ (y : ℚ) < A * (1 - decToRat swapFeeRate) + 1) := by
  unfold calcSwapResult at computed
  split at computed
  · cases computed
    exact Or.inl rfl
  · rename_i depths
    simp only [except_bind_succeeds, except_pure_succeeds, Uint.ofBigInt_succeeds, Uint.sub_succeeds,
      Prod.mk.injEq] at computed
    obtain ⟨A, adjusted, percentFee, ⟨cut, _⟩, whole, ⟨truncated, _⟩, _, ⟨covers, rfl⟩, rfl, _⟩ := computed
    by_cases nothing : whole - percentFee = 0
    · exact Or.inl nothing
    · refine Or.inr ⟨by omega, by omega, by omega, A, adjusted, ?_, ?_⟩
      all_goals
        have below : (whole : ℚ) ≤ A := ratIntQuo_le truncated (by omega)
        rw [Nat.cast_sub covers]
      · have : (0 : ℚ) ≤ percentFee := Nat.cast_nonneg _
        linarith
      · have above := ratIntQuo_gt cut
        linarith

theorem calcRawXYK_nonneg (x X Y : ℕ) : 0 ≤ calcRawXYK x X Y := by
  unfold calcRawXYK
  positivity

theorem quoted_of_le_raw (some : x ≠ 0) (bound : (y : ℚ) ≤ calcRawXYK x X Y) :
    Quoted (1 : ℚ) X x Y y := by
  unfold calcRawXYK at bound
  have total : (0 : ℚ) < X + x := by
    have : 0 < x := Nat.pos_of_ne_zero some
    positivity
  rw [le_div_iff₀ total] at bound
  unfold Quoted
  linarith

theorem quoted_nothing : Quoted (1 : ℚ) X x Y (0 : ℕ) := by
  unfold Quoted
  rw [Nat.cast_zero, zero_mul, one_mul]
  positivity

theorem calcPmtpFactor_ge_one (nonneg : 0 ≤ rate.raw) : 1 ≤ calcPmtpFactor rate := by
  unfold calcPmtpFactor decToRat
  have : (0 : ℚ) ≤ (rate.raw : ℚ) / ((10 ^ 18 : ℤ) : ℚ) := by
    have : (0 : ℚ) ≤ rate.raw := by exact_mod_cast nonneg
    positivity
  linarith

/-- A sale of an external asset: the running rate only makes it smaller. -/
theorem external_sale_quoted (nonneg : 0 ≤ rate.raw)
    (computed : calcSwapResult true X x Y rate swapFeeRate = .ok (y, fee)) :
    Quoted (1 : ℚ) X x Y y ∧ (X = 0 → y = 0) := by
  rcases calcSwapResult_amount computed with rfl | ⟨depth, some, _, A, adjusted, within, _⟩
  · exact ⟨quoted_nothing, fun _ => rfl⟩
  · refine ⟨quoted_of_le_raw some (within.trans ?_), fun empty => absurd empty depth⟩
    have factor := calcPmtpFactor_ge_one nonneg
    simp only [calcAdjusted, reduceIte, ratQuo] at adjusted
    split at adjusted
    · cases adjusted
    · cases adjusted
      exact div_le_self (calcRawXYK_nonneg x X Y) factor

theorem fury_sale_quoted
    (covered : rate.raw = 0 ∨ calcPmtpFactor rate * (1 - decToRat swapFeeRate) * calcRawXYK x X Y + 1 ≤
      calcRawXYK x X Y)
    (computed : calcSwapResult false X x Y rate swapFeeRate = .ok (y, fee)) :
    Quoted (1 : ℚ) X x Y y ∧ (X = 0 → y = 0) := by
  rcases calcSwapResult_amount computed with rfl | ⟨depth, some, _, A, adjusted, within, less⟩
  · exact ⟨quoted_nothing, fun _ => rfl⟩
  · refine ⟨quoted_of_le_raw some ?_, fun empty => absurd empty depth⟩
    simp only [calcAdjusted, Bool.false_eq_true, reduceIte, Except.ok.injEq] at adjusted
    subst adjusted
    rcases covered with unshifted | paid
    · have one : calcPmtpFactor rate = 1 := by simp [calcPmtpFactor, decToRat, unshifted]
      rwa [one, mul_one] at within
    · have regrouped : calcRawXYK x X Y * calcPmtpFactor rate * (1 - decToRat swapFeeRate) =
          calcPmtpFactor rate * (1 - decToRat swapFeeRate) * calcRawXYK x X Y := by ring
      rw [regrouped] at less
      linarith

end Amounts

section Sequences
variable {rate : Dec}

/-- What `SwapOne` read from the pool. -/
theorem swapOne_amount {sentAmount : ℕ} {toAsset : String} {pool finalPool : Pool} {swapFeeRate : Dec}
    {received fee impact : ℕ}
    (computed : swapOne sentAmount toAsset pool rate swapFeeRate = .ok (received, fee, impact, finalPool)) :
    calcSwapResult (toAsset = nativeSymbol) (pool.depth (sideOf toAsset).other) sentAmount
      (pool.depth (sideOf toAsset)) rate swapFeeRate = .ok (received, fee) := by
  have bought : (pool.extractValues toAsset).2.2.1 = decide (toAsset = nativeSymbol) := by
    unfold Pool.extractValues
    split <;> simp_all
  simp only [swapOne, except_bind_succeeds, except_pure_succeeds, Prod.mk.injEq] at computed
  obtain ⟨depths, extracted, _, _, ⟨amount, cost⟩, calculated, _, _, _, _, rfl, rfl, _⟩ := computed
  obtain rfl := extractValues_depths extracted
  rwa [bought] at calculated

/-- What a trader took is what the pool gave, and the depths are ahead of the first ones. -/
structure TradeBalanced (first : Pool) (t : Trading) : Prop where
  fury : t.fury = first.depth .native - t.pool.depth .native
  external : t.external = first.depth .external - t.pool.depth .external
  ahead : Ahead (first.depth .native : ℚ) (first.depth .external) (t.pool.depth .native)
    (t.pool.depth .external)

/-- The depths after a swap of `x` for `y`, on whichever side. -/
theorem ahead_swapped {a b : ℚ} {X x Y y X' Y' : ℕ} (ahead : Ahead a b (X : ℚ) Y)
    (quoted : Quoted (1 : ℚ) X x Y y) (idle : X = 0 → y = 0) (enough : y < Y) (sold : X' = X + x)
    (bought : Y' + y = Y) : Ahead a b (X' : ℚ) Y' := by
  have soldDepth : (X' : ℚ) = X + x := by exact_mod_cast sold
  have boughtDepth : (Y' : ℚ) = Y - y := by
    rw [← bought]
    push_cast
    ring
  rw [soldDepth, boughtDepth]
  refine ahead_trade ahead (Nat.cast_nonneg X) (Nat.cast_nonneg x) quoted ?_ ?_
  · exact sub_pos.mpr (by exact_mod_cast enough)
  · intro none
    have empty : X = 0 := by
      have : X + x = 0 := by exact_mod_cast none
      omega
    simp [idle empty]

section Depths
variable {pool finalPool : Pool} {toAsset : String} {swapFeeRate : Dec} {sentAmount received fee impact : ℕ}

/-- What a swap into the side `s` does to a pool: two balances move, the rest stays. -/
structure Swaps (pool finalPool : Pool) (s : Side) (sentAmount received : ℕ) : Prop where
  sold : finalPool.amount s.other .balance = pool.amount s.other .balance + sentAmount
  bought : finalPool.amount s .balance + received = pool.amount s .balance
  stocked : 0 < finalPool.amount s .balance
  kept : ∀ side field, field ≠ .balance → finalPool.amount side field = pool.amount side field
  units : finalPool.poolUnits = pool.poolUnits

theorem swapOne_swaps
    (computed : swapOne sentAmount toAsset pool rate swapFeeRate = .ok (received, fee, impact, finalPool)) :
    Swaps pool finalPool (sideOf toAsset) sentAmount received := by
  obtain ⟨enough, rfl⟩ := swapOne_succeeds computed
  unfold Pool.stock at enough
  by_cases native : toAsset = nativeSymbol
  · simp only [native, reduceIte] at enough
    simp only [native, sideOf, reduceIte, Pool.swapped]
    refine ⟨rfl, Nat.sub_add_cancel enough.le, Nat.sub_pos_of_lt enough, ?_, rfl⟩
    intro side field other
    cases side <;> cases field <;> first | rfl | exact absurd rfl other
  · simp only [native, reduceIte] at enough
    simp only [native, sideOf, reduceIte, Pool.swapped]
    refine ⟨rfl, Nat.sub_add_cancel enough.le, Nat.sub_pos_of_lt enough, ?_, rfl⟩
    intro side field other
    cases side <;> cases field <;> first | rfl | exact absurd rfl other

theorem swaps_depth_sold {s : Side} (swaps : Swaps pool finalPool s sentAmount received) :
    finalPool.depth s.other = pool.depth s.other + sentAmount := by
  have owed := swaps.kept s.other .liabilities (by decide)
  have sold := swaps.sold
  unfold Pool.depth
  omega

theorem swaps_depth_bought {s : Side} (swaps : Swaps pool finalPool s sentAmount received) :
    finalPool.depth s + received = pool.depth s := by
  have owed := swaps.kept s .liabilities (by decide)
  have bought := swaps.bought
  unfold Pool.depth
  omega

theorem swaps_received_lt {s : Side} (swaps : Swaps pool finalPool s sentAmount received) :
    received < pool.depth s := by
  have bought := swaps.bought
  have stocked := swaps.stocked
  unfold Pool.depth
  omega

end Depths

theorem swap_balanced {first : Pool} {t next : Trading} {o : SwapOrder} (nonneg : 0 ≤ rate.raw)
    (covered : ShiftCovered rate t.pool o) (balanced : TradeBalanced first t)
    (swapped : t.swap rate o = .ok next) : TradeBalanced first next := by
  simp only [Trading.swap, except_bind_succeeds, except_pure_succeeds] at swapped
  obtain ⟨⟨received, fee, impact, pool⟩, computed, rfl⟩ := swapped
  have swaps := swapOne_swaps computed
  have sold := swaps_depth_sold swaps
  have bought := swaps_depth_bought swaps
  have less := swaps_received_lt swaps
  have amount := swapOne_amount computed
  have fury := balanced.fury
  have external := balanced.external
  by_cases native : o.toAsset = nativeSymbol
  · simp only [native, decide_true, sideOf, reduceIte, Side.other] at amount sold bought less
    obtain ⟨quoted, idle⟩ := external_sale_quoted nonneg amount
    simp only [native, reduceIte]
    refine ⟨?_, ?_, ahead_symm (ahead_swapped (ahead_symm balanced.ahead) quoted idle less sold bought)⟩
    · dsimp only
      omega
    · dsimp only
      omega
  · simp only [native, decide_false, sideOf, reduceIte, Side.other] at amount sold bought less
    obtain ⟨quoted, idle⟩ := fury_sale_quoted (covered.resolve_left native) amount
    simp only [native, reduceIte]
    refine ⟨?_, ?_, ahead_swapped balanced.ahead quoted idle less sold bought⟩
    · dsimp only
      omega
    · dsimp only
      omega

theorem swapAll_balanced {pool : Pool} {orders : List SwapOrder} {t : Trading} (nonneg : 0 ≤ rate.raw)
    (covered : CoveredAlong rate orders ⟨pool, 0, 0⟩) (swapped : swapAll rate orders pool = .ok t) :
    TradeBalanced pool t := by
  have start : CoveredAlong rate orders ⟨pool, 0, 0⟩ ∧ TradeBalanced pool ⟨pool, 0, 0⟩ :=
    ⟨covered, by simp, by simp, ahead_refl⟩
  have kept := foldlM_preserves (I := fun rest t => CoveredAlong rate rest t ∧ TradeBalanced pool t) orders _ t
    (fun o rest d next holds step => ⟨holds.1.2 next step,
      swap_balanced nonneg holds.1.1 holds.2 step⟩) start swapped
  exact kept.2

/-- A trader who swaps on one pool, any amounts in any directions, and ends with no less of one
    asset has no more of the other, as long as every sale of fury is covered. -/
theorem no_riskless_profit (pool : Pool) (orders : List SwapOrder) (t : Trading) (nonneg : 0 ≤ rate.raw)
    (covered : CoveredAlong rate orders ⟨pool, 0, 0⟩) (swapped : swapAll rate orders pool = .ok t) :
    (0 ≤ t.external → t.fury ≤ 0) ∧ (0 ≤ t.fury → t.external ≤ 0) := by
  obtain ⟨fury, external, ahead⟩ := swapAll_balanced nonneg covered swapped
  constructor
  · intro kept
    have given : (t.pool.depth .external : ℚ) ≤ pool.depth .external := by
      have : t.pool.depth .external ≤ pool.depth .external := by omega
      exact_mod_cast this
    have more := ahead_no_profit ahead (Nat.cast_nonneg _) (Nat.cast_nonneg _) given
    have : pool.depth .native ≤ t.pool.depth .native := by exact_mod_cast more
    omega
  · intro kept
    have given : (t.pool.depth .native : ℚ) ≤ pool.depth .native := by
      have : t.pool.depth .native ≤ pool.depth .native := by omega
      exact_mod_cast this
    have more := ahead_no_profit (ahead_symm ahead) (Nat.cast_nonneg _) (Nat.cast_nonneg _) given
    have : pool.depth .external ≤ t.pool.depth .external := by exact_mod_cast more
    omega

end Sequences

namespace PlainPolicy

def evenPool : Pool := {
  externalAsset := "ceth"
  nativeAssetBalance := 10 ^ 6
  externalAssetBalance := 10 ^ 6
  poolUnits := 10 ^ 6 }

def thereAndBack (swapFeeRate : Dec) (sold first second : ℕ) : List SwapOrder :=
  [⟨sold, "ceth", swapFeeRate⟩, ⟨first, nativeSymbol, swapFeeRate⟩, ⟨second, nativeSymbol, swapFeeRate⟩]

/-- Without a running rate the way back loses. -/
theorem no_riskless_profit_unshifted :
    ∃ t, swapAll Dec.zero (thereAndBack ⟨3 * 10 ^ 15⟩ 333333 125000 124000) evenPool = .ok t ∧
      (0 ≤ t.external → t.fury ≤ 0) ∧ (0 ≤ t.fury → t.external ≤ 0) := by
  have succeeds : (swapAll Dec.zero (thereAndBack ⟨3 * 10 ^ 15⟩ 333333 125000 124000) evenPool).isOk = true := by
    decide +kernel
  rcases swapped : swapAll Dec.zero (thereAndBack ⟨3 * 10 ^ 15⟩ 333333 125000 124000) evenPool with e | t
  · rw [swapped] at succeeds
    cases succeeds
  · have covered : CoveredAlong Dec.zero (thereAndBack ⟨3 * 10 ^ 15⟩ 333333 125000 124000) ⟨evenPool, 0, 0⟩ :=
      ⟨Or.inr (Or.inl rfl), fun _ _ => ⟨Or.inl rfl, fun _ _ => ⟨Or.inl rfl, fun _ _ => trivial⟩⟩⟩
    exact ⟨t, rfl, no_riskless_profit evenPool _ t le_rfl covered swapped⟩

/-- At a running rate of 1 a sale of 333333 fury is bought back in two parts for a profit of
    27776 fury, and nothing is left over or missing of the external asset. -/
theorem split_swaps_profit :
    (swapAll Dec.one (thereAndBack Dec.zero 333333 250000 249999) evenPool).map
      (fun t => (t.fury, t.external)) = .ok (27776, 0) := by
  decide +kernel

end PlainPolicy
end FuryNode
