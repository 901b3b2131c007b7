import FuryNode.Clp.SwapEffects
import FuryNode.Sdk.LedgerBank

/-!
The end of a pool and its providers. The list of providers is read with the largest limit,
for which the end of the page wraps to where the reading starts: a first record of another
asset ends the reading with nothing read, and the pool goes without its providers being paid.
-/
namespace FuryNode
open StatefulProgram StatefulProgram.Prog KeyedTable KeyedTable.Table ClpKeeper Pagination
variable {β : Type}

/-- Payouts to some providers of a pool, one after the other: each gets its share of the pool
    from the module account. -/
inductive Refunded (env : Env β) (symbol : String) (pool : Pool) : List LiquidityProvider → β → β → Prop
  | nil (b : β) : Refunded env symbol pool [] b b
  | cons (lp : LiquidityProvider) (rest : List LiquidityProvider) (b c d : β) (address : AccAddress)
      (native external unitsLeft swapAmount : ℕ)
      (share : calculateAllAssetsForLP pool lp = .ok (native, external, unitsLeft, swapAmount))
      (decoded : env.accAddressFromBech32 lp.liquidityProviderAddress = some address)
      (paid : Moves (env.bank.getBalance b) (env.bank.getBalance c) (moduleAddress env) address
        (pairAmount symbol external native))
      (later : Refunded env symbol pool rest c d) : Refunded env symbol pool (lp :: rest) b d

def providersOf (asset : String) (w : World β) : List LiquidityProvider :=
  w.providers.rows.filter (fun lp => lp.asset = asset)

/-- Every provider of the pool is paid and its record deleted, and no other record changes. -/
def AllRefunded (env : Env β) (symbol : String) (pool : Pool) (w w' : World β) : Prop :=
  Refunded env symbol pool (providersOf symbol w) w.bank w'.bank ∧
    w'.providers.rows = w.providers.rows.filter (fun lp => lp.asset ≠ symbol)

/-- The first record of the store is one of the asset unless there is none, and the records of
    the asset can be counted in 64 bits. -/
def Listable (symbol : String) (w : World β) : Prop :=
  (providersOf symbol w = [] ∨ ∀ lp ∈ w.providers.rows.head?, lp.asset = symbol) ∧
    (providersOf symbol w).length < 2 ^ 64

theorem listed_providers (symbol : String) (w : World β) :
    getLiquidityProvidersForAsset symbol w =
      if ∀ lp ∈ w.providers.rows.head?, lp.asset = symbol then (providersOf symbol w).take (2 ^ 64 - 1)
      else [] := by
  unfold getLiquidityProvidersForAsset providersOf
  rw [filteredPaginate_max]
  simp only [decide_eq_true_eq]

theorem listed_all_iff (symbol : String) (w : World β) :
    getLiquidityProvidersForAsset symbol w = providersOf symbol w ↔ Listable symbol w := by
  rw [listed_providers]
  unfold Listable
  by_cases first : ∀ lp ∈ w.providers.rows.head?, lp.asset = symbol
  · rw [if_pos first, List.take_eq_self_iff]
    constructor
    · intro bound
      exact ⟨Or.inr first, by omega⟩
    · rintro ⟨_, bound⟩
      omega
  · rw [if_neg first]
    constructor
    · intro empty
      rw [← empty]
      exact ⟨Or.inl rfl, by simp⟩
    · rintro ⟨empty | always, _⟩
      · exact empty.symm
      · exact absurd always first

theorem listed_sublist (symbol : String) (w : World β) :
    (getLiquidityProvidersForAsset symbol w).Sublist (providersOf symbol w) := by
  rw [listed_providers]
  split
  · exact List.take_sublist _ _
  · exact List.nil_sublist _

section Refunds
variable (env : Env β) (symbol : String) (pool : Pool)

def remaining (lps : List LiquidityProvider) (providers : Table LiquidityProvider.key) :
    List LiquidityProvider :=
  providers.rows.filter (fun r => r.key ∉ lps.map LiquidityProvider.key)

theorem remaining_cons (lp : LiquidityProvider) (rest : List LiquidityProvider)
    (providers : Table LiquidityProvider.key) :
    remaining rest (providers.delete lp.key) = remaining (lp :: rest) providers := by
  simp only [remaining, Table.delete, List.filter_filter, List.map_cons, List.mem_cons, not_or]
  refine List.filter_congr fun r _ => ?_
  rw [Bool.and_comm]
  simp only [ne_eq, Bool.decide_and]

theorem refundProviders_pays (left : ClpMsgServer.Remaining) (lps : List LiquidityProvider) (w : World β) :
    Ensures (ClpMsgServer.refundProviders env symbol pool left lps) w (fun _ w' =>
      Refunded env symbol pool lps w.bank w'.bank ∧ w'.providers.rows = remaining lps w.providers) := by
  induction lps generalizing left w with
  | nil => exact ensures_pure ⟨.nil w.bank, by simp [remaining]⟩
  | cons lp rest ih =>
    refine ensures_bind (refundProvider_effect env) ?_
    rintro next _ ⟨address, b, native, external, unitsLeft, swapAmount, share, decoded, moved, _, _, _, _, _, rfl⟩
    refine ensures_mono (ih next _) ?_
    rintro _ w' ⟨later, records⟩
    rw [remaining_cons] at records
    exact ⟨.cons lp rest w.bank b w'.bank address native external unitsLeft swapAmount share decoded moved later,
      records⟩

theorem decommissionPool_pays {msg : MsgDecommissionPool} {w : World β}
    (found : w.pools.get ⟨msg.symbol⟩ = some pool) :
    Ensures (ClpMsgServer.decommissionPool env msg) w (fun _ w' =>
      Refunded env msg.symbol pool (getLiquidityProvidersForAsset msg.symbol w) w.bank w'.bank ∧
      w'.providers.rows = remaining (getLiquidityProvidersForAsset msg.symbol w) w.providers) := by
  unfold ClpMsgServer.decommissionPool
  refine ensures_bind (fun p v run => getPool_succeeds.mp run) ?_
  rintro p _ ⟨again, rfl⟩
  obtain rfl : pool = p := Option.some.inj (found.symm.trans again)
  have key : pool.externalAsset = msg.symbol := congrArg PoolKey.symbol (w.pools.get_key _ _ found)
  refine ensures_ofExcept_then fun _ _ => ensures_read_then (ensures_ofExcept_then fun _ _ =>
    ensures_require_then fun _ => ensures_require_then fun _ => ?_)
  rw [key]
  refine ensures_bind (refundProviders_pays env msg.symbol pool _ _ w) ?_
  rintro _ r ⟨paid, records⟩
  refine Action.ensures_wrapped ?_
  intro u w' run
  obtain rfl := destroyPool_succeeds run
  exact ⟨paid, records⟩

end Refunds

section Completeness
variable (symbol : String) (w : World β)

theorem remaining_providersOf :
    remaining (providersOf symbol w) w.providers = w.providers.rows.filter (fun lp => lp.asset ≠ symbol) := by
  refine List.filter_congr fun r member => ?_
  simp only [decide_eq_decide, ne_eq, not_iff_not]
  constructor
  · intro listed
    obtain ⟨lp, belongs, same⟩ := List.mem_map.mp listed
    have asset : lp.asset = symbol := by simpa using (List.mem_filter.mp belongs).2
    have sameAsset : lp.asset = r.asset := congrArg ProviderKey.symbol same
    rw [← sameAsset]
    exact asset
  · intro asset
    exact List.mem_map_of_mem (List.mem_filter.mpr ⟨member, by simpa using asset⟩)

theorem listed_of_deleted
    (deleted : remaining (getLiquidityProvidersForAsset symbol w) w.providers =
      w.providers.rows.filter (fun lp => lp.asset ≠ symbol)) :
    getLiquidityProvidersForAsset symbol w = providersOf symbol w := by
  have distinct : (providersOf symbol w).Nodup :=
    (List.Nodup.of_map _ w.providers.distinct).filter _
  have sub := listed_sublist symbol w
  have all : providersOf symbol w ⊆ getLiquidityProvidersForAsset symbol w := by
    intro lp belongs
    obtain ⟨stored, asset⟩ := List.mem_filter.mp belongs
    by_contra unlisted
    have kept : lp ∈ remaining (getLiquidityProvidersForAsset symbol w) w.providers := by
      refine List.mem_filter.mpr ⟨stored, ?_⟩
      simp only [decide_eq_true_eq]
      intro listed
      obtain ⟨other, member, same⟩ := List.mem_map.mp listed
      have otherStored := (List.mem_filter.mp (sub.subset member)).1
      rw [List.inj_on_of_nodup_map w.providers.distinct otherStored stored same] at member
      exact unlisted member
    rw [deleted] at kept
    have apart := (List.mem_filter.mp kept).2
    simp_all
  exact sub.eq_of_length_le (List.subperm_of_subset distinct all).length_le

end Completeness

/-- A decommissioning that succeeds pays and deletes every provider of the pool, and leaves all
    other records, exactly when the store can be listed with the limit it asks for. -/
theorem decommission_refunds_iff (env : Env β) (msg : MsgDecommissionPool) (pool : Pool) (w w' : World β)
    (u : Unit) (found : w.pools.get ⟨msg.symbol⟩ = some pool)
    (run : (ClpMsgServer.decommissionPool env msg).run w = (.ok u, w')) :
    AllRefunded env msg.symbol pool w w' ↔ Listable msg.symbol w := by
  obtain ⟨paid, records⟩ := decommissionPool_pays env pool found u w' run
  rw [← listed_all_iff]
  constructor
  · rintro ⟨_, deleted⟩
    exact listed_of_deleted msg.symbol w (records.symm.trans deleted)
  · intro listed
    rw [listed] at paid records
    exact ⟨paid, records.trans (remaining_providersOf msg.symbol w)⟩

namespace SmallPools

def cethPool : Pool := {
  externalAsset := "ceth"
  nativeAssetBalance := 10 ^ 15
  externalAssetBalance := 10 ^ 15
  poolUnits := 10 ^ 15 }

def provider (asset address : String) (units : ℕ) : LiquidityProvider := {
  asset := asset
  liquidityProviderUnits := units
  liquidityProviderAddress := address }

def listed : World LedgerBank.Balances :=
  { LedgerBank.pooled with
    pools := ⟨[cethPool], by simp⟩
    providers := ⟨[provider "ceth" "alice" (4 * 10 ^ 14), provider "ceth" "bob" (6 * 10 ^ 14),
      provider "cusd" "carol" 7], by decide⟩ }

def hidden : World LedgerBank.Balances :=
  { LedgerBank.pooled with
    pools := ⟨[cethPool], by simp⟩
    providers := ⟨[provider "cbtc" "bob" 7, provider "ceth" "alice" (10 ^ 15)], by decide⟩ }

def closing : MsgDecommissionPool := ⟨"carol", "ceth"⟩

def closed (w : World LedgerBank.Balances) : World LedgerBank.Balances :=
  ((ClpMsgServer.decommissionPool LedgerBank.env closing).run w).2

theorem decommission_refunds_iff_listed :
    ((ClpMsgServer.decommissionPool LedgerBank.env closing).run listed).1 = .ok () ∧
      AllRefunded LedgerBank.env "ceth" cethPool listed (closed listed) := by
  have succeeds : ((ClpMsgServer.decommissionPool LedgerBank.env closing).run listed).1 = .ok () := by
    decide +kernel
  have listable : Listable "ceth" listed := ⟨Or.inr (by decide), by decide⟩
  exact ⟨succeeds, (decommission_refunds_iff LedgerBank.env closing cethPool listed (closed listed) ()
    (by decide +kernel) (by rw [← succeeds, closed])).mpr listable⟩

/-- The pool is decommissioned, and its only provider keeps a record and gets nothing. -/
theorem decommission_skips_provider :
    ((ClpMsgServer.decommissionPool LedgerBank.env closing).run hidden).1 = .ok () ∧
      (closed hidden).pools.rows = [] ∧
      provider "ceth" "alice" (10 ^ 15) ∈ (closed hidden).providers.rows ∧
      (closed hidden).bank ⟨[1]⟩ "ceth" = hidden.bank ⟨[1]⟩ "ceth" ∧
      (closed hidden).bank ⟨[1]⟩ "fury" = hidden.bank ⟨[1]⟩ "fury" := by
  decide +kernel

end SmallPools
end FuryNode
