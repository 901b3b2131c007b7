import FuryNode.Clp.BeginBlock
import FuryNode.Library.EventRuns

/-!
`PolicyRun` and its panics. A price that cannot be computed becomes zero and the loop goes
on, but the depths of a pool are added without a check, and the external price divides by
the PMTP factor, which an administrator can make zero.
-/
namespace FuryNode
open StatefulProgram StatefulProgram.Prog KeyedTable BeginBlock
variable {β : Type}

/-- The depths of a pool fit, and no price is divided by a factor of zero. -/
def PriceSafe (rate : Dec) (pool : Pool) : Prop :=
  pool.nativeAssetBalance + pool.nativeLiabilities < 2 ^ 256 ∧
    pool.externalAssetBalance + pool.externalLiabilities < 2 ^ 256 ∧
    (pool.externalAssetBalance + pool.externalLiabilities ≠ 0 → rate.raw ≠ -10 ^ 18)

instance (rate : Dec) (pool : Pool) : Decidable (PriceSafe rate pool) := inferInstanceAs (Decidable (_ ∧ _))

variable {rate : Dec} {pool : Pool}

theorem calcPmtpFactor_zero : calcPmtpFactor rate = 0 ↔ rate.raw = -10 ^ 18 := by
  unfold calcPmtpFactor decToRat
  constructor
  · intro zero
    have whole : (rate.raw : ℚ) = -10 ^ 18 := by
      push_cast at zero
      field_simp at zero
      linarith
    exact_mod_cast whole
  · intro minus
    rw [minus]
    norm_num

theorem extractDebt_native (pool : Pool) (depths : ℕ × ℕ) :
    pool.extractDebt pool.nativeAssetBalance pool.externalAssetBalance false = .ok depths ↔
      pool.nativeAssetBalance + pool.nativeLiabilities < 2 ^ 256 ∧
      pool.externalAssetBalance + pool.externalLiabilities < 2 ^ 256 ∧
      depths = (pool.nativeAssetBalance + pool.nativeLiabilities,
        pool.externalAssetBalance + pool.externalLiabilities) := by
  simp only [Pool.extractDebt, Bool.false_eq_true, reduceIte, except_bind_succeeds, except_pure_succeeds,
    Uint.add_succeeds, and_assoc, exists_and_left, exists_eq_left, eq_comm (b := depths)]

theorem extractDebt_external (pool : Pool) (depths : ℕ × ℕ) :
    pool.extractDebt pool.externalAssetBalance pool.nativeAssetBalance true = .ok depths ↔
      pool.nativeAssetBalance + pool.nativeLiabilities < 2 ^ 256 ∧
      pool.externalAssetBalance + pool.externalLiabilities < 2 ^ 256 ∧
      depths = (pool.externalAssetBalance + pool.externalLiabilities,
        pool.nativeAssetBalance + pool.nativeLiabilities) := by
  simp only [Pool.extractDebt, reduceIte, except_bind_succeeds, except_pure_succeeds, Uint.add_succeeds,
    and_assoc, exists_and_left, exists_eq_left, eq_comm (b := depths)]

/-- The price of the native asset is a product, so only a sum can panic. -/
theorem calcSpotPriceX_native (X Y decimalsX decimalsY : ℕ) (rate : Dec) :
    ∃ price, calcSpotPriceX X Y decimalsX decimalsY rate true = .ok price := by
  unfold calcSpotPriceX
  split
  · exact ⟨_, rfl⟩
  · exact ⟨_, rfl⟩

theorem calcSpotPriceX_external {X Y decimalsX decimalsY : ℕ} :
    (∃ price, calcSpotPriceX X Y decimalsX decimalsY rate false = .ok price) ↔
      (X ≠ 0 → rate.raw ≠ -10 ^ 18) := by
  unfold calcSpotPriceX ratQuo
  split
  · rename_i empty
    exact ⟨fun _ filled => absurd empty filled, fun _ => ⟨_, rfl⟩⟩
  · rename_i filled
    simp only [Bool.false_eq_true, reduceIte]
    split
    · rename_i zero
      refine ⟨?_, fun safe => absurd (calcPmtpFactor_zero.mp zero) (safe filled)⟩
      rintro ⟨price, computed⟩
      cases computed
    · rename_i nonzero
      exact ⟨fun _ _ => calcPmtpFactor_zero.not.mp nonzero, fun _ => ⟨_, rfl⟩⟩

theorem calcSpotPriceNative_succeeds {decimalsExternal : ℕ} :
    (∃ price, calcSpotPriceNative pool decimalsExternal rate = .ok price) ↔
      pool.nativeAssetBalance + pool.nativeLiabilities < 2 ^ 256 ∧
      pool.externalAssetBalance + pool.externalLiabilities < 2 ^ 256 := by
  simp only [calcSpotPriceNative, except_bind_succeeds, extractDebt_native]
  constructor
  · rintro ⟨_, _, ⟨native, external, _⟩, _⟩
    exact ⟨native, external⟩
  · rintro ⟨native, external⟩
    obtain ⟨price, computed⟩ := calcSpotPriceX_native (pool.nativeAssetBalance + pool.nativeLiabilities)
      (pool.externalAssetBalance + pool.externalLiabilities) nativeAssetDecimals decimalsExternal rate
    exact ⟨price, _, ⟨native, external, rfl⟩, computed⟩

theorem calcSpotPriceExternal_succeeds {decimalsExternal : ℕ} :
    (∃ price, calcSpotPriceExternal pool decimalsExternal rate = .ok price) ↔ PriceSafe rate pool := by
  simp only [calcSpotPriceExternal, except_bind_succeeds, extractDebt_external]
  constructor
  · rintro ⟨price, _, ⟨native, external, rfl⟩, computed⟩
    exact ⟨native, external, calcSpotPriceX_external.mp ⟨price, computed⟩⟩
  · rintro ⟨native, external, divisible⟩
    obtain ⟨price, computed⟩ := (calcSpotPriceX_external ).mpr divisible
    exact ⟨price, _, ⟨native, external, rfl⟩, computed⟩

section Loop
variable (env : PolicyEnv β) (rate : Dec)

/-- The prices that `PolicyRun` computes for a pool are those it stores. -/
def SpotPriced (s : PolicyState β) (pool : Pool) : Prop :=
  ∀ decimalsExternal, getAssetDecimals s pool.externalAsset = some decimalsExternal →
    ∃ native external, calcSpotPriceNative pool decimalsExternal rate = .ok native ∧
      calcSpotPriceExternal pool decimalsExternal rate = .ok external ∧
      s.swapPrices pool.key = some (priceOrZero native, priceOrZero external)

def Priceable (s : PolicyState β) (pool : Pool) : Prop :=
  ∀ decimalsExternal, getAssetDecimals s pool.externalAsset = some decimalsExternal → PriceSafe rate pool

theorem updatePrices_succeeds (s t : PolicyState β) (u : Unit)
    (valid : assetValidate env.toEnv pool.externalAsset = .ok true) :
    (updatePrices env rate pool).run s = (.ok u, t) ↔
      (getAssetDecimals s pool.externalAsset = none ∧ s = t) ∨
      ∃ decimalsExternal native external,
        getAssetDecimals s pool.externalAsset = some decimalsExternal ∧
        calcSpotPriceNative pool decimalsExternal rate = .ok native ∧
        calcSpotPriceExternal pool decimalsExternal rate = .ok external ∧
        t = { s with swapPrices :=
          Function.update s.swapPrices pool.key (some (priceOrZero native, priceOrZero external)) } := by
  simp only [updatePrices, read_then]
  cases getAssetDecimals s pool.externalAsset with
  | none => simp [pure_succeeds]
  | some decimalsExternal =>
    simp only [setSwapPrices, ofExcept_then, valid, when_succeeds, modify_succeeds, reduceCtorEq, false_and,
      false_or, Option.some.injEq, Except.ok.injEq]
    constructor
    · rintro ⟨native, computed, external, divided, _, rfl, ⟨_, rfl⟩ | ⟨never, _⟩⟩
      · exact ⟨_, native, external, rfl, computed, divided, rfl⟩
      · exact absurd rfl never
    · rintro ⟨_, native, external, rfl, computed, divided, rfl⟩
      exact ⟨native, computed, external, divided, true, rfl, Or.inl ⟨rfl, rfl⟩⟩

theorem updatePrices_runs {s : PolicyState β}
    (valid : assetValidate env.toEnv pool.externalAsset = .ok true) :
    (∃ t, (updatePrices env rate pool).run s = (.ok (), t)) ↔ Priceable rate s pool := by
  simp only [updatePrices_succeeds env rate s _ () valid]
  constructor
  · rintro ⟨t, ⟨unknown, _⟩ | ⟨decimalsExternal, _, external, _, _, divided, _⟩⟩ decimals found
    · rw [unknown] at found
      cases found
    · exact calcSpotPriceExternal_succeeds.mp ⟨external, divided⟩
  · intro priceable
    rcases found : getAssetDecimals s pool.externalAsset with _ | decimalsExternal
    · exact ⟨s, Or.inl ⟨rfl, rfl⟩⟩
    · have safe := priceable decimalsExternal found
      obtain ⟨native, computed⟩ := calcSpotPriceNative_succeeds.mpr ⟨safe.1, safe.2.1⟩
      obtain ⟨external, divided⟩ := calcSpotPriceExternal_succeeds.mpr safe
      exact ⟨_, Or.inr ⟨decimalsExternal, native, external, rfl, computed, divided, rfl⟩⟩

structure OnlyPrices (keys : List PoolKey) (s t : PolicyState β) : Prop where
  decimals : ∀ symbol, getAssetDecimals t symbol = getAssetDecimals s symbol
  others : ∀ key, key ∉ keys → t.swapPrices key = s.swapPrices key

theorem updatePrices_effect (s t : PolicyState β) (pool : Pool)
    (valid : assetValidate env.toEnv pool.externalAsset = .ok true)
    (run : (updatePrices env rate pool).run s = (.ok (), t)) :
    OnlyPrices [pool.key] s t ∧ SpotPriced rate t pool := by
  obtain ⟨unknown, rfl⟩ | ⟨decimalsExternal, native, external, found, computed, divided, rfl⟩ :=
    (updatePrices_succeeds env rate s t () valid).mp run
  · refine ⟨⟨fun _ => rfl, fun _ _ => rfl⟩, fun decimals found => ?_⟩
    rw [unknown] at found
    cases found
  · refine ⟨⟨fun _ => rfl, fun key other => ?_⟩, fun decimals again => ?_⟩
    · exact Function.update_of_ne (by simpa using other) _ _
    · obtain rfl : decimalsExternal = decimals := Option.some.inj (found.symm.trans again)
      exact ⟨native, external, computed, divided, Function.update_self _ _ _⟩

variable {env rate} in
/-- The loop prices every pool, and each key is written by its own pool only. -/
theorem forEach_updatePrices_effect (pools : List Pool) (s t : PolicyState β)
    (valid : ∀ pool ∈ pools, assetValidate env.toEnv pool.externalAsset = .ok true)
    (distinct : (pools.map Pool.key).Nodup)
    (run : (forEach (updatePrices env rate) pools).run s = (.ok (), t)) :
    OnlyPrices (pools.map Pool.key) s t ∧ ∀ pool ∈ pools, SpotPriced rate t pool := by
  induction pools generalizing s with
  | nil =>
    obtain ⟨_, rfl⟩ := pure_succeeds.mp run
    exact ⟨⟨fun _ => rfl, fun _ _ => rfl⟩, by simp⟩
  | cons pool rest ih =>
    simp only [List.map_cons, List.nodup_cons] at distinct
    obtain ⟨_, r, first, later⟩ := bind_ok run
    obtain ⟨head, priced⟩ := updatePrices_effect env rate s r pool (valid pool (by simp)) first
    obtain ⟨tail, others⟩ := ih r (fun p member => valid p (by simp [member])) distinct.2 later
    refine ⟨⟨fun symbol => (tail.decimals symbol).trans (head.decimals symbol), ?_⟩, ?_⟩
    · intro key other
      simp only [List.map_cons, List.mem_cons, not_or] at other
      exact (tail.others key other.2).trans (head.others key (by simpa using other.1))
    · intro p member
      rcases List.mem_cons.mp member with rfl | later
      · -- the pools that follow have other keys
        intro decimals found
        rw [tail.decimals] at found
        obtain ⟨native, external, computed, divided, stored⟩ := priced decimals found
        exact ⟨native, external, computed, divided, (tail.others _ distinct.1).trans stored⟩
      · exact others p later

variable {env rate} in
theorem forEach_updatePrices_runs {pools : List Pool} (s : PolicyState β)
    (valid : ∀ pool ∈ pools, assetValidate env.toEnv pool.externalAsset = .ok true) :
    (∃ t, (forEach (updatePrices env rate) pools).run s = (.ok (), t)) ↔
      ∀ pool ∈ pools, Priceable rate s pool := by
  induction pools generalizing s with
  | nil => simp [forEach, pure_succeeds]
  | cons pool rest ih =>
    have validHead := valid pool (by simp)
    have validRest : ∀ p ∈ rest, assetValidate env.toEnv p.externalAsset = .ok true :=
      fun p member => valid p (by simp [member])
    have carried : ∀ r, (updatePrices env rate pool).run s = (.ok (), r) →
        ((∀ p ∈ rest, Priceable rate r p) ↔ ∀ p ∈ rest, Priceable rate s p) := by
      intro r first
      have same := (updatePrices_effect env rate s r pool validHead first).1.decimals
      simp only [Priceable, same]
    constructor
    · rintro ⟨t, run⟩
      obtain ⟨_, r, first, later⟩ := bind_ok run
      have tail := (carried r first).mp ((ih r validRest).mp ⟨t, later⟩)
      have head := (updatePrices_runs env rate validHead).mp ⟨r, first⟩
      intro p member
      rcases List.mem_cons.mp member with rfl | inRest
      · exact head
      · exact tail p inRest
    · intro all
      obtain ⟨r, first⟩ := (updatePrices_runs env rate validHead).mpr (all pool (by simp))
      obtain ⟨t, later⟩ := (ih r validRest).mpr ((carried r first).mpr fun p member => all p (by simp [member]))
      exact ⟨t, (bind_succeeds _ _ _ _ _).mpr ⟨(), r, first, later⟩⟩

/-- `PolicyRun` over stored pools gets through, with the prices of every pool whose decimals
    are found, exactly when the depths of each such pool fit and no external price is divided
    by a factor of zero. -/
theorem policyRun_total_iff (s : PolicyState β)
    (stored : ∀ pool ∈ s.world.pools.rows, assetValidate env.toEnv pool.externalAsset = .ok true) :
    (∃ t, (policyRun env rate).run s = (.ok (), t) ∧ ∀ pool ∈ s.world.pools.rows, SpotPriced rate t pool) ↔
      ∀ pool ∈ s.world.pools.rows, Priceable rate s pool := by
  simp only [policyRun, read_then]
  rw [← forEach_updatePrices_runs s stored]
  constructor
  · rintro ⟨t, run, _⟩
    exact ⟨t, run⟩
  · rintro ⟨t, run⟩
    exact ⟨t, run, (forEach_updatePrices_effect _ s t stored s.world.pools.distinct run).2⟩

end Loop

namespace PlainPolicy

/-- The pool at its genesis depths is priced with the rate of genesis. -/
theorem policyRun_total_iff_genesis :
    ∃ t, (policyRun env Dec.zero).run start = (.ok (), t) ∧
      ∀ pool ∈ start.world.pools.rows, SpotPriced Dec.zero t pool := by
  refine (policyRun_total_iff env Dec.zero start ?_).mpr ?_
  · decide +kernel
  · intro pool member decimals _
    have safe : ∀ pool ∈ start.world.pools.rows, PriceSafe Dec.zero pool := by decide +kernel
    exact safe pool member

/-- An administrator sets the running rate to -1, and the chain halts at the next block. -/
theorem policyRun_divides_by_zero :
    let s := (PolicyMsg.modifyPmtpRates ⟨"carol", "", "-1.0", false⟩).deliver env start
    s.runningRate = ⟨-10 ^ 18⟩ ∧
      ((policyRun env s.runningRate).run s).1 = .error (.panic .divisionByZero) ∧
      ((nextBlock env).run s).1 = .error (.panic .divisionByZero) := by
  decide +kernel

end PlainPolicy
end FuryNode
