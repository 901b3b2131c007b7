import FuryNode.Genesis.State
import FuryNode.Margin.BlockSafety
import FuryNode.Margin.Books

/-!
What an export and an import give back. The import returns exactly if every row and address it
reads passes its check; the state it then returns is known in full, and it is the exported one
only if all that is not exported stood at the values the import writes.
-/
namespace FuryNode.Genesis
open StatefulProgram KeyedTable KeyedTable.Table Dispensation
variable {β : Type}

section Loading
variable {κ ν : Type} {key : ν → κ} [DecidableEq κ] [StoreOrder κ]

theorem load_succeeds {f : Table key → ν → Outcome (Table key)} {accept : ν → Outcome Bool}
    (loads : ∀ t v, f t v = accept v >>= fun keep => pure (if keep then t.put v else t))
    (rows : List ν) (t u : Table key) :
    rows.foldlM f t = .ok u ↔ (∀ v ∈ rows, ∃ keep, accept v = .ok keep) ∧
      u = t.putAll (rows.filter (fun v => accept v = .ok true)) := by
  induction rows generalizing t with
  | nil => simp [putAll, pure, Except.pure, eq_comm]
  | cons v rest ih =>
    rw [List.foldlM_cons, except_bind_succeeds]
    constructor
    · intro loaded
      obtain ⟨next, first, later⟩ := loaded
      rw [loads, except_bind_succeeds] at first
      obtain ⟨keep, admitted, written⟩ := first
      obtain rfl := except_pure_succeeds.mp written
      obtain ⟨others, same⟩ := (ih _).mp later
      refine ⟨?_, ?_⟩
      · intro w member
        rcases List.mem_cons.mp member with rfl | after
        · exact ⟨keep, admitted⟩
        · exact others w after
      · cases keep with
        | true => simp [same, admitted, putAll]
        | false => simp [same, admitted]
    · intro whole
      obtain ⟨admitted, same⟩ := whole
      obtain ⟨keep, first⟩ := admitted v (by simp)
      refine ⟨if keep then t.put v else t, ?_, ?_⟩
      · rw [loads, except_bind_succeeds]
        exact ⟨keep, first, rfl⟩
      · apply (ih _).mpr
        refine ⟨fun w member => admitted w (by simp [member]), ?_⟩
        cases keep with
        | true => simp [same, first, putAll]
        | false => simp [same, first]

theorem load_all_succeeds {f : Table key → ν → Outcome (Table key)} {valid : ν → Prop}
    {failure : ν → GenesisPanic} [DecidablePred valid]
    (loads : ∀ t v, f t v = if valid v then .ok (t.put v) else .error (failure v))
    (rows : List ν) (t u : Table key) :
    rows.foldlM f t = .ok u ↔ (∀ v ∈ rows, valid v) ∧ u = t.putAll rows := by
  have admits : ∀ t v, f t v = (if valid v then .ok true else .error (failure v) : Outcome Bool) >>=
      fun keep => pure (if keep then t.put v else t) := by
    intro t v
    rw [loads]
    by_cases holds : valid v
    · rw [if_pos holds, if_pos holds]
      rfl
    · rw [if_neg holds, if_neg holds]
      rfl
  rw [load_succeeds admits]
  have each (v : ν) : (∃ keep, (if valid v then .ok true else .error (failure v) : Outcome Bool) = .ok keep) ↔
      valid v := by
    by_cases holds : valid v <;> simp [holds]
  simp only [each]
  refine and_congr_right fun admitted => ?_
  rw [List.filter_eq_self.mpr]
  intro v member
  simp [admitted v member]

end Loading

section Addresses
variable {env : Env β}

theorem decode_succeeds (entry : String) (a : AccAddress) :
    decode env entry = .ok a ↔ env.accAddressFromBech32 entry = some a := by
  unfold decode
  cases env.accAddressFromBech32 entry <;> simp

theorem decode_again {addresses : List AccAddress}
    (decoded : ∀ a ∈ addresses, ∃ entry, env.accAddressFromBech32 entry = some a) :
    (addresses.map env.addressString).mapM (decode env) = .ok addresses := by
  induction addresses with
  | nil => rfl
  | cons a rest ih =>
    obtain ⟨entry, first⟩ := decoded a (by simp)
    have again : decode env (env.addressString a) = .ok a :=
      (decode_succeeds _ _).mpr (env.decode_string entry a first)
    have later := ih (fun b member => decoded b (by simp [member]))
    rw [List.map_cons, List.mapM_cons, again, later]
    rfl

theorem decode_all (entries : List String) (addresses : List AccAddress)
    (decoded : entries.mapM (decode env) = .ok addresses) :
    (∀ entry ∈ entries, (env.accAddressFromBech32 entry).isSome) ∧
      (∀ a ∈ addresses, ∃ entry, env.accAddressFromBech32 entry = some a) ∧
      (addresses = [] ↔ entries = []) := by
  induction entries generalizing addresses with
  | nil =>
    obtain rfl := except_pure_succeeds.mp decoded
    simp
  | cons entry rest ih =>
    simp only [List.mapM_cons, except_bind_succeeds, except_pure_succeeds, decode_succeeds] at decoded
    obtain ⟨a, first, others, later, rfl⟩ := decoded
    obtain ⟨readable, sources, _⟩ := ih others later
    refine ⟨?_, ?_, by simp⟩
    · intro e member
      rcases List.mem_cons.mp member with rfl | after
      · simp [first]
      · exact readable e after
    · intro b member
      rcases List.mem_cons.mp member with rfl | after
      · exact ⟨entry, first⟩
      · exact sources b after

theorem decode_each (entries : List String)
    (decodable : ∀ entry ∈ entries, (env.accAddressFromBech32 entry).isSome) :
    ∃ addresses, entries.mapM (decode env) = .ok addresses := by
  induction entries with
  | nil => exact ⟨[], rfl⟩
  | cons entry rest ih =>
    obtain ⟨a, found⟩ := Option.isSome_iff_exists.mp (decodable entry (by simp))
    obtain ⟨addresses, later⟩ := ih (fun other member => decodable other (by simp [member]))
    refine ⟨a :: addresses, ?_⟩
    rw [List.mapM_cons, (decode_succeeds _ _).mpr found, later]
    rfl

end Addresses

section Modules
variable {env : Env β}

theorem validateAsset_succeeds {symbol : String} {valid : Bool} :
    validateAsset env symbol = .ok valid ↔ assetValidate env symbol = .ok valid := by
  unfold validateAsset
  cases assetValidate env symbol <;> simp

def poolFailure (env : Env β) (p : Pool) : GenesisPanic :=
  match assetValidate env p.externalAsset with
  | .ok _ => .poolCouldNotBeSet p
  | .error _ => .invalidDenom p.externalAsset

theorem importPool_loads (env : Env β) (t : Table Pool.key) (p : Pool) :
    importPool env t p = if assetValidate env p.externalAsset = .ok true then .ok (t.put p)
      else .error (poolFailure env p) := by
  unfold importPool validateAsset poolFailure
  cases assetValidate env p.externalAsset with
  | error e => rfl
  | ok valid => cases valid <;> rfl

def restoredClp (env : Env β) (data : ClpGenesis) (wl : List AccAddress) : ClpStore where
  params := data.params
  addressWhitelist := wl.map env.addressString
  pools := .putAll .empty data.poolList
  providers := .putAll .empty
    (data.liquidityProviders.filter (fun lp => validateAsset env lp.asset = .ok true))
  rewardParams := getDefaultRewardParams
  pmtpRateParams := ⟨Dec.zero, Dec.zero, Dec.zero⟩
  pmtpEpoch := ⟨0, 0⟩
  pmtpParams := getDefaultPmtpParams
  liquidityProtectionParams := getDefaultLiquidityProtectionParams
  currentFuryLiquidityThreshold := getDefaultLiquidityProtectionParams.maxFuryLiquidityThreshold
  swapFeeParams := defaultSwapFeeParams
  providerDistributionPeriods := []
  requests := .empty
  queues := .empty

theorem initClp_succeeds (data : ClpGenesis) (s : ClpStore) :
    initClp env data = .ok s ↔ data.addressWhitelist ≠ [] ∧
      (∀ p ∈ data.poolList, assetValidate env p.externalAsset = .ok true) ∧
      (∀ lp ∈ data.liquidityProviders, ∃ keep, validateAsset env lp.asset = .ok keep) ∧
      ∃ wl, data.addressWhitelist.mapM (decode env) = .ok wl ∧ s = restoredClp env data wl := by
  have pools (u : Table Pool.key) := load_all_succeeds (importPool_loads env) data.poolList .empty u
  have loads (t : Table LiquidityProvider.key) (lp : LiquidityProvider) : importProvider env t lp =
      validateAsset env lp.asset >>= fun keep => pure (if keep then t.put lp else t) := rfl
  have providers (u : Table LiquidityProvider.key) :=
    load_succeeds loads data.liquidityProviders .empty u
  unfold initClp
  by_cases none : data.addressWhitelist = []
  · rw [if_pos none]
    simp only [none, ne_eq, not_true_eq_false, false_and, iff_false]
    intro impossible
    cases impossible
  · rw [if_neg none]
    simp only [except_bind_succeeds, except_pure_succeeds, pools, providers, none, ne_eq, not_false_eq_true,
      true_and]
    constructor
    · intro ⟨wl, decoded, _, ⟨valid, rfl⟩, _, ⟨readable, rfl⟩, written⟩
      exact ⟨valid, readable, wl, decoded, written.symm⟩
    · intro ⟨valid, readable, wl, decoded, written⟩
      exact ⟨wl, decoded, _, ⟨valid, rfl⟩, _, ⟨readable, rfl⟩, written.symm⟩

theorem initMargin_succeeds (data : MarginParams × Dec) (s : MarginStore) :
    initMargin data = .ok s ↔ data.2.raw ≠ 0 ∧ 0 ≤ data.1.leverageMax.raw ∧
      s = ⟨data.1, data.2, .empty, 0, 0⟩ := by
  unfold initMargin
  split
  · rename_i invalid
    simp only [reduceCtorEq, false_iff]
    intro ⟨modifier, leverage, _⟩
    rcases invalid with zero | negative
    · exact modifier zero
    · omega
  · rename_i valid
    simp only [Except.ok.injEq]
    constructor
    · intro same
      exact ⟨fun zero => valid (Or.inl zero), not_lt.mp (fun less => valid (Or.inr less)), same.symm⟩
    · intro ⟨_, _, same⟩
      exact same.symm

theorem clp_restored {s s' : ClpStore} :
    exportClp env s >>= initClp env = .ok s' ↔ s.addressWhitelist ≠ [] ∧
      (∀ p ∈ page s.pools.rows, assetValidate env p.externalAsset = .ok true) ∧
      (∀ lp ∈ page s.providers.rows, ∃ keep, validateAsset env lp.asset = .ok keep) ∧
      ∃ wl, s.addressWhitelist.mapM (decode env) = .ok wl ∧ s' = restoredClp env
        ⟨s.params, wl.map env.addressString, page s.pools.rows, page s.providers.rows⟩ wl := by
  simp only [exportClp, except_bind_succeeds, except_pure_succeeds, initClp_succeeds]
  constructor
  · intro ⟨_, ⟨wl, decoded, rfl⟩, listed, pools, providers, again, decodedAgain, restored⟩
    obtain ⟨_, sources, emptied⟩ := decode_all _ _ decoded
    rw [decode_again sources] at decodedAgain
    obtain rfl := Except.ok.inj decodedAgain
    refine ⟨?_, pools, providers, wl, decoded, restored⟩
    intro none
    apply listed
    simp [emptied.mpr none]
  · intro ⟨listed, pools, providers, wl, decoded, restored⟩
    obtain ⟨_, sources, emptied⟩ := decode_all _ _ decoded
    refine ⟨_, ⟨wl, decoded, rfl⟩, ?_, pools, providers, wl, decode_again sources, restored⟩
    intro none
    exact listed (emptied.mp (List.map_eq_nil_iff.mp none))

theorem margin_restored {s s' : MarginStore} (restored : exportMargin env s >>= initMargin = .ok s') :
    (env.accAddressFromBech32 s.params.forceCloseFundAddress).isSome ∧
      (env.accAddressFromBech32 s.params.incrementalInterestPaymentFundAddress).isSome ∧
      s.sqModifier.raw ≠ 0 ∧ 0 ≤ s.params.leverageMax.raw ∧
      s'.mtps = .empty ∧ s'.mtpCount = 0 ∧ s'.openMtpCount = 0 := by
  simp only [exportMargin, except_bind_succeeds, except_pure_succeeds, decode_succeeds, initMargin_succeeds]
    at restored
  obtain ⟨_, ⟨_, first, _, second, rfl⟩, modifier, leverage, rfl⟩ := restored
  exact ⟨by simp [first], by simp [second], modifier, leverage, rfl, rfl, rfl⟩

theorem margin_restores {s : MarginStore}
    (forceClose : (env.accAddressFromBech32 s.params.forceCloseFundAddress).isSome)
    (incremental : (env.accAddressFromBech32 s.params.incrementalInterestPaymentFundAddress).isSome)
    (modifier : s.sqModifier.raw ≠ 0) (leverage : 0 ≤ s.params.leverageMax.raw) :
    ∃ s', exportMargin env s >>= initMargin = .ok s' := by
  obtain ⟨a, first⟩ := Option.isSome_iff_exists.mp forceClose
  obtain ⟨b, second⟩ := Option.isSome_iff_exists.mp incremental
  simp only [exportMargin, except_bind_succeeds, except_pure_succeeds, decode_succeeds, initMargin_succeeds]
  exact ⟨_, _, ⟨a, first, b, second, rfl⟩, modifier, leverage, rfl⟩

end Modules

section Records
variable {env : DispensationEnv β}

theorem leading_cases (status : DistributionStatus) :
    status.leading = 0x00 ∨ status.leading = 0x11 ∨ status.leading = 0x12 := by
  cases status with
  | pending => exact Or.inl rfl
  | completed => exact Or.inr (Or.inl rfl)
  | failed => exact Or.inr (Or.inr rfl)
  | unspecified => exact Or.inr (Or.inl rfl)

theorem mem_getRecords {t : Table DistributionRecord.key} {r : DistributionRecord} :
    r ∈ getRecords t ↔ r ∈ t.rows := by
  have leading := leading_cases r.distributionStatus
  simp only [getRecords, List.mem_flatMap, List.mem_filter, List.mem_cons, List.not_mem_nil, or_false,
    decide_eq_true_eq]
  constructor
  · intro ⟨_, _, member, _⟩
    exact member
  · intro member
    rcases leading with pending | completed | failed
    · exact ⟨.pending, Or.inl rfl, member, pending⟩
    · exact ⟨.completed, Or.inr (Or.inl rfl), member, completed⟩
    · exact ⟨.failed, Or.inr (Or.inr rfl), member, failed⟩

theorem getRecords_distinct (t : Table DistributionRecord.key) : ((getRecords t).map DistributionRecord.key).Nodup := by
  have part (n : ℕ) : ((t.rows.filter (fun r => r.key.leading = n)).map DistributionRecord.key).Nodup :=
    t.distinct.sublist (List.filter_sublist.map _)
  have apart (m n : ℕ) (different : m ≠ n) : List.Disjoint
      ((t.rows.filter (fun r => r.key.leading = m)).map DistributionRecord.key)
      ((t.rows.filter (fun r => r.key.leading = n)).map DistributionRecord.key) := by
    intro k left right
    obtain ⟨r, inLeft, rfl⟩ := List.mem_map.mp left
    obtain ⟨q, inRight, same⟩ := List.mem_map.mp right
    have first := (List.mem_filter.mp inLeft).2
    have second := (List.mem_filter.mp inRight).2
    simp only [decide_eq_true_eq] at first second
    exact different (by rw [← first, ← second, same])
  simp only [getRecords, List.flatMap_cons, List.flatMap_nil, List.append_nil, List.map_append,
    DistributionStatus.leading]
  apply (part 0x00).append ((part 0x11).append (part 0x12) (apart _ _ (by decide)))
  rw [List.disjoint_append_right]
  exact ⟨apart _ _ (by decide), apart _ _ (by decide)⟩

theorem initDispensation_succeeds {data : DispensationGenesis} {s : DispensationStore} :
    initDispensation env data = .ok s ↔ (∀ r ∈ data.distributionRecords, r.validate env = true) ∧
      (∀ d ∈ data.distributions, validateDistribution d = true) ∧
      (∀ c ∈ data.claims, validateClaim c = true) ∧
      s = ⟨.putAll .empty data.distributionRecords, .putAll .empty data.distributions,
        .putAll .empty data.claims, some ⟨⟨nativeSymbol, 0⟩⟩⟩ := by
  have records (u : Table DistributionRecord.key) := load_all_succeeds
    (fun t v => (rfl : importRow (DistributionRecord.validate env) .settingDistributionRecord t v = _))
    data.distributionRecords .empty u
  have distributions (u : Table Distribution.key) := load_all_succeeds
    (fun t v => (rfl : importRow validateDistribution .settingDistribution t v = _)) data.distributions .empty u
  have claims (u : Table UserClaim.key) := load_all_succeeds
    (fun t v => (rfl : importRow validateClaim .settingClaim t v = _)) data.claims .empty u
  simp only [initDispensation, except_bind_succeeds, except_pure_succeeds, records, distributions, claims]
  constructor
  · intro ⟨_, ⟨first, rfl⟩, _, ⟨second, rfl⟩, _, ⟨third, rfl⟩, same⟩
    exact ⟨first, second, third, same.symm⟩
  · intro ⟨first, second, third, same⟩
    exact ⟨_, ⟨first, rfl⟩, _, ⟨second, rfl⟩, _, ⟨third, rfl⟩, same.symm⟩

end Records

/-- The stores hold the same pools, providers, positions with their counters, parameters, removal
    queues and requests, distributions and records, and mint counter. -/
structure Same (s s' : Stores) : Prop where
  pools : ∀ k, s.clp.pools.get k = s'.clp.pools.get k
  providers : ∀ k, s.clp.providers.get k = s'.clp.providers.get k
  mtps : ∀ k, s.margin.mtps.get k = s'.margin.mtps.get k
  mtpCount : s.margin.mtpCount = s'.margin.mtpCount
  openMtpCount : s.margin.openMtpCount = s'.margin.openMtpCount
  rewardParams : s.clp.rewardParams = s'.clp.rewardParams
  pmtpRateParams : s.clp.pmtpRateParams = s'.clp.pmtpRateParams
  liquidityProtectionParams : s.clp.liquidityProtectionParams = s'.clp.liquidityProtectionParams
  threshold : s.clp.currentFuryLiquidityThreshold = s'.clp.currentFuryLiquidityThreshold
  swapFeeParams : s.clp.swapFeeParams = s'.clp.swapFeeParams
  periods : s.clp.providerDistributionPeriods = s'.clp.providerDistributionPeriods
  requests : ∀ k, s.clp.requests.get k = s'.clp.requests.get k
  queues : ∀ symbol, s.clp.getRemovalQueue symbol = s'.clp.getRemovalQueue symbol
  distributions : ∀ k, s.dispensation.distributions.get k = s'.dispensation.distributions.get k
  records : ∀ k, s.dispensation.records.get k = s'.dispensation.records.get k
  mintController : s.dispensation.mintController = s'.dispensation.mintController

/-- What an export can be read back from: its rows and addresses pass the checks of the import. -/
structure Readable (env : DispensationEnv β) (s : Stores) : Prop where
  whitelisted : s.clp.addressWhitelist ≠ []
  decodable : ∀ entry ∈ s.clp.addressWhitelist, (env.accAddressFromBech32 entry).isSome
  forceCloseFund : (env.accAddressFromBech32 s.margin.params.forceCloseFundAddress).isSome
  incrementalFund : (env.accAddressFromBech32 s.margin.params.incrementalInterestPaymentFundAddress).isSome
  modifier : s.margin.sqModifier.raw ≠ 0
  leverage : 0 ≤ s.margin.params.leverageMax.raw
  pools : s.clp.pools.rows.length ≤ pageLimit
  poolAssets : ∀ p ∈ s.clp.pools.rows, assetValidate env.toEnv p.externalAsset = .ok true
  providers : s.clp.providers.rows.length ≤ pageLimit
  providerAssets : ∀ lp ∈ s.clp.providers.rows, assetValidate env.toEnv lp.asset = .ok true
  records : ∀ r ∈ s.dispensation.records.rows, r.validate env = true
  distributions : ∀ d ∈ s.dispensation.distributions.rows, validateDistribution d = true
  claims : ∀ c ∈ s.dispensation.claims.rows, validateClaim c = true

/-- All that is not exported stands where an import leaves it. -/
structure AtDefaults (s : Stores) : Prop where
  rewardParams : s.clp.rewardParams = getDefaultRewardParams
  pmtpRateParams : s.clp.pmtpRateParams = ⟨Dec.zero, Dec.zero, Dec.zero⟩
  liquidityProtectionParams : s.clp.liquidityProtectionParams = getDefaultLiquidityProtectionParams
  threshold : s.clp.currentFuryLiquidityThreshold =
    getDefaultLiquidityProtectionParams.maxFuryLiquidityThreshold
  swapFeeParams : s.clp.swapFeeParams = defaultSwapFeeParams
  periods : s.clp.providerDistributionPeriods = []
  requests : s.clp.requests.rows = []
  queues : ∀ symbol, s.clp.getRemovalQueue symbol = { symbol := symbol }
  mtps : s.margin.mtps.rows = []
  mtpCount : s.margin.mtpCount = 0
  openMtpCount : s.margin.openMtpCount = 0
  mintController : s.dispensation.mintController = some ⟨⟨nativeSymbol, 0⟩⟩

def Matched (s : Stores) : Prop := ∀ p ∈ s.clp.pools.rows, Balanced s.margin.mtps p

instance (mtps : Table MTP.key) (p : Pool) : Decidable (Balanced mtps p) :=
  decidable_of_iff (∀ side ∈ [Side.native, .external], p.amount side .liabilities = total (owed p.key side) mtps ∧
      p.amount side .custody = total (held p.key side) mtps) (by
    constructor
    · intro both
      have all (side : Side) := both side (by cases side <;> simp)
      exact ⟨fun side => (all side).1, fun side => (all side).2⟩
    · intro balanced side _
      exact ⟨balanced.liabilities side, balanced.custody side⟩)

instance (s : Stores) : Decidable (Matched s) := inferInstanceAs (Decidable (∀ p ∈ _, _))

section RoundTrip
variable {env : DispensationEnv β} {s s' : Stores}

theorem get_empty_iff {κ ν : Type} {key : ν → κ} [DecidableEq κ] {t : Table key} :
    (∀ k, t.get k = (.empty : Table key).get k) ↔ t.rows = [] := by
  constructor
  · intro same
    apply List.eq_nil_iff_forall_not_mem.mpr
    intro v member
    have inside := (mem_congr same).mp member
    simp [Table.empty] at inside
  · intro none k
    apply get_congr
    intro v
    rw [none]
    simp [Table.empty]

theorem page_sublist {α : Type} (entries : List α) : (page entries).Sublist entries := List.take_sublist _ _

theorem page_all_iff {α : Type} {entries : List α} : page entries = entries ↔ entries.length ≤ pageLimit :=
  List.take_eq_self_iff _

theorem roundTrip_succeeds : roundTrip env s = .ok s' ↔
    exportClp env.toEnv s.clp >>= initClp env.toEnv = .ok s'.clp ∧
      exportMargin env.toEnv s.margin >>= initMargin = .ok s'.margin ∧
      initDispensation env (exportDispensation s.dispensation) = .ok s'.dispensation := by
  simp only [roundTrip, except_bind_succeeds, except_pure_succeeds]
  constructor
  · intro ⟨clpData, clpExport, marginData, marginExport, _, clp, _, margin, _, dispensation, restored⟩
    subst restored
    exact ⟨⟨clpData, clpExport, clp⟩, ⟨marginData, marginExport, margin⟩, dispensation⟩
  · intro ⟨⟨clpData, clpExport, clp⟩, ⟨marginData, marginExport, margin⟩, dispensation⟩
    exact ⟨clpData, clpExport, marginData, marginExport, _, clp, _, margin, _, dispensation, rfl⟩

/-- The providers that an import keeps are all of them only if none was beyond the page or has an
    asset that is dropped. -/
theorem kept_all_iff {ν : Type} {entries : List ν} {keep : ν → Bool} :
    (page entries).filter keep = entries ↔ entries.length ≤ pageLimit ∧ ∀ v ∈ entries, keep v = true := by
  constructor
  · intro all
    have paged : page entries = entries := by
      apply (page_sublist entries).eq_of_length_le
      have shorter := List.length_filter_le keep (page entries)
      rwa [all] at shorter
    rw [paged] at all
    exact ⟨page_all_iff.mp paged, List.filter_eq_self.mp all⟩
  · intro ⟨short, kept⟩
    rw [page_all_iff.mpr short]
    exact List.filter_eq_self.mpr kept

theorem records_restored {t : Table DistributionRecord.key} (k : RecordKey) :
    t.get k = ((.empty : Table DistributionRecord.key).putAll (getRecords t)).get k := by
  apply get_congr
  intro r
  rw [mem_reload (getRecords_distinct t), mem_getRecords]

theorem same_matched (same : Same s s') (matched : Matched s) : Matched s' := by
  intro p member
  obtain ⟨liabilities, custody⟩ := matched p ((mem_congr same.pools).mpr member)
  have totals (f : MTP → ℕ) : total f s.margin.mtps = total f s'.margin.mtps := by
    apply total_congr
    intro k
    rw [same.mtps k]
  refine ⟨fun side => ?_, fun side => ?_⟩
  · rw [liabilities side, totals]
  · rw [custody side, totals]

/-- What is read back is what was stored only if it could be read and the rest stood at defaults. -/
theorem same_restorable (restored : roundTrip env s = .ok s') (same : Same s s') :
    Readable env s ∧ AtDefaults s := by
  obtain ⟨clp, margin, dispensation⟩ := roundTrip_succeeds.mp restored
  obtain ⟨listed, poolAssets, _, wl, decoded, clpState⟩ := clp_restored.mp clp
  obtain ⟨forceClose, incremental, modifier, leverage, mtps, mtpCount, openMtpCount⟩ :=
    margin_restored margin
  obtain ⟨records, distributions, claims, dispensationState⟩ := initDispensation_succeeds.mp dispensation
  have pools : page s.clp.pools.rows = s.clp.pools.rows := by
    apply (get_reload_iff (page_sublist _)).mp
    simpa [clpState, restoredClp] using same.pools
  have providers := same.providers
  rw [clpState] at providers
  have kept := kept_all_iff.mp ((get_reload_iff
    (List.filter_sublist.trans (page_sublist _))).mp providers)
  constructor
  · exact {
      whitelisted := listed
      decodable := (decode_all _ _ decoded).1
      forceCloseFund := forceClose
      incrementalFund := incremental
      modifier := modifier
      leverage := leverage
      pools := page_all_iff.mp pools
      poolAssets := by rwa [pools] at poolAssets
      providers := kept.1
      providerAssets := by
        intro lp member
        exact validateAsset_succeeds.mp (of_decide_eq_true (kept.2 lp member))
      records := by
        intro r member
        exact records r (mem_getRecords.mpr member)
      distributions := distributions
      claims := claims }
  · exact {
      rewardParams := by simp [same.rewardParams, clpState, restoredClp]
      pmtpRateParams := by simp [same.pmtpRateParams, clpState, restoredClp]
      liquidityProtectionParams := by simp [same.liquidityProtectionParams, clpState, restoredClp]
      threshold := by simp [same.threshold, clpState, restoredClp]
      swapFeeParams := by simp [same.swapFeeParams, clpState, restoredClp]
      periods := by simp [same.periods, clpState, restoredClp]
      requests := by
        apply get_empty_iff.mp
        simpa [clpState, restoredClp] using same.requests
      queues := by
        intro symbol
        rw [same.queues, clpState]
        rfl
      mtps := by
        apply get_empty_iff.mp
        simpa [mtps] using same.mtps
      mtpCount := by rw [same.mtpCount, mtpCount]
      openMtpCount := by rw [same.openMtpCount, openMtpCount]
      mintController := by simp [same.mintController, dispensationState] }

theorem restorable_same (readable : Readable env s) (defaults : AtDefaults s) :
    ∃ s', roundTrip env s = .ok s' ∧ Same s s' := by
  obtain ⟨wl, decoded⟩ := decode_each _ readable.decodable
  obtain ⟨margin, marginRestored⟩ := margin_restores readable.forceCloseFund
    readable.incrementalFund readable.modifier readable.leverage
  obtain ⟨_, _, _, _, mtps, mtpCount, openMtpCount⟩ := margin_restored marginRestored
  have pools := page_all_iff.mpr readable.pools
  have providers := page_all_iff.mpr readable.providers
  have assets (lp : LiquidityProvider) (member : lp ∈ s.clp.providers.rows) :
      validateAsset env.toEnv lp.asset = .ok true :=
    validateAsset_succeeds.mpr (readable.providerAssets lp member)
  have kept := kept_all_iff.mpr
    ⟨readable.providers, fun lp member => decide_eq_true (assets lp member)⟩
  refine ⟨⟨_, margin, _⟩, roundTrip_succeeds.mpr ⟨clp_restored.mpr ⟨readable.whitelisted, ?_, ?_, wl,
    decoded, rfl⟩, marginRestored, initDispensation_succeeds.mpr ⟨?_, readable.distributions,
    readable.claims, rfl⟩⟩, ?_⟩
  · rw [pools]
    exact readable.poolAssets
  · intro lp member
    rw [providers] at member
    exact ⟨true, assets lp member⟩
  · intro r member
    exact readable.records r (mem_getRecords.mp member)
  · exact {
      pools := (get_reload_iff (page_sublist _)).mpr pools
      providers := (get_reload_iff (List.filter_sublist.trans (page_sublist _))).mpr kept
      mtps := by
        rw [mtps]
        exact get_empty_iff.mpr defaults.mtps
      mtpCount := by rw [defaults.mtpCount, mtpCount]
      openMtpCount := by rw [defaults.openMtpCount, openMtpCount]
      rewardParams := defaults.rewardParams
      pmtpRateParams := defaults.pmtpRateParams
      liquidityProtectionParams := defaults.liquidityProtectionParams
      threshold := defaults.threshold
      swapFeeParams := defaults.swapFeeParams
      periods := defaults.periods
      requests := get_empty_iff.mpr defaults.requests
      queues := defaults.queues
      distributions := (get_reload_iff (List.Sublist.refl _)).mpr rfl
      records := records_restored
      mintController := defaults.mintController }

end RoundTrip

namespace FreshChain

def clpParams : ClpParams :=
  { LedgerBank.clpParams with
    maxFuryLiquidityThreshold := getDefaultLiquidityProtectionParams.maxFuryLiquidityThreshold
    maxFuryLiquidityThresholdAsset := getDefaultLiquidityProtectionParams.maxFuryLiquidityThresholdAsset
    liquidityRemovalCancelPeriod := getDefaultRewardParams.liquidityRemovalCancelPeriod }

def block (height : ℤ) : BlockContext := { LedgerBank.block height with clp := clpParams }

def genesis : World LedgerBank.Balances :=
  { LedgerBank.genesis with
    clp := clpParams
    currentFuryLiquidityThreshold := getDefaultLiquidityProtectionParams.maxFuryLiquidityThreshold }

/-- The stores of a chain on which no policy was ever started and nothing was dispensed. -/
def storesOf (w : World LedgerBank.Balances) : Stores where
  clp := {
    params := ⟨0, w.clp.enableRemovalQueue⟩
    addressWhitelist := w.clp.clpWhiteList.getD []
    pools := w.pools
    providers := w.providers
    rewardParams := ⟨w.clp.liquidityRemovalLockPeriod, w.clp.liquidityRemovalCancelPeriod,
      w.clp.rewardPeriods, w.rewardPeriodStartTime⟩
    pmtpRateParams := ⟨Dec.zero, w.clp.pmtpCurrentRunningRate, Dec.zero⟩
    pmtpEpoch := ⟨0, 0⟩
    pmtpParams := getDefaultPmtpParams
    liquidityProtectionParams := ⟨w.clp.maxFuryLiquidityThreshold, w.clp.maxFuryLiquidityThresholdAsset,
      14400, w.clp.liquidityProtectionIsActive⟩
    currentFuryLiquidityThreshold := w.currentFuryLiquidityThreshold
    swapFeeParams := ⟨w.clp.defaultSwapFeeRate, w.clp.tokenParams⟩
    providerDistributionPeriods := w.clp.distributionPeriods
    requests := w.requests
    queues := w.queues }
  margin := ⟨w.margin, ⟨10 ^ 43⟩, w.mtps, w.mtpCount, w.openMtpCount⟩
  dispensation := ⟨PlainDispensation.start.records, PlainDispensation.start.distributions,
    PlainDispensation.start.claims, PlainDispensation.start.mintController⟩

def pooledRun : List ChainEvent :=
  [.clp (.message (block 2) (.createPool ⟨"alice", "ceth", 10 ^ 18, 10 ^ 18⟩))]

def openedRun : List ChainEvent :=
  pooledRun ++ [.margin (.beginBlock (block 3)),
    .margin (.message (block 3) (.open' ⟨"bob", "fury", 10 ^ 16, "ceth", .long, ⟨2 * 10 ^ 18⟩⟩))]

def after (run : List ChainEvent) : Stores := storesOf (runChain LedgerBank.env run genesis)

end FreshChain

end FuryNode.Genesis
