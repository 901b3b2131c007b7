import FuryNode.Clp.Decommission
import FuryNode.Clp.Units

/-!
Who can lose something to x/clp. Coins leave an account only for a message it signed, and its
units of a pool change only by such a message or with the end of the pool.
-/
namespace FuryNode
open StatefulProgram StatefulProgram.Prog KeyedTable KeyedTable.Table ClpKeeper
variable {β : Type} {env : Env β} {account : AccAddress}

theorem moves_spare {before after : AccAddress → String → ℕ} {sender recipient : AccAddress}
    {amt : String → ℕ} (moves : Moves before after sender recipient amt) (other : account ≠ sender)
    (d : String) : before account d ≤ after account d := by
  have moved := moves account d
  rw [if_neg other] at moved
  omega

/-- The end of a block mints, burns and pays from the module account only. -/
theorem endBlocker_credits (order : MapOrder) (w : World β) :
    Meets (endBlocker env order) w (fun _ t => Credits env w.bank t.bank)
      (fun _ t => Credits env w.bank t.bank) := by
  have inv : CreditInvariant env (fun t => Credits env w.bank t.bank) (fun _ => True) := {
    rows := fun _ _ _ _ => trivial
    written := fun _ _ _ kept => kept
    settled := fun _ _ _ _ _ more kept a d outside => (kept a d outside).trans (more a d outside)
    rewarded := fun _ _ _ _ _ => trivial }
  exact endBlocker_keeps inv order (fun _ _ _ _ _ _ _ _ _ _ _ _ _ _ => trivial)
    (fun _ _ _ => le_rfl)

section Events
variable {closed : String → Prop} {w w' : World β}

/-- The account keeps its coins, and the units its spellings hold in pools that are not closed. -/
structure Intact (env : Env β) (account : AccAddress) (closed : String → Prop) (w w' : World β) :
    Prop where
  coins : ∀ d, env.bank.getBalance w.bank account d ≤ env.bank.getBalance w'.bank account d
  units : ∀ asset holder, ¬closed asset → env.accAddressFromBech32 holder = some account →
    ledger w'.providers ⟨asset, holder⟩ = ledger w.providers ⟨asset, holder⟩

theorem Intact.trans {w'' : World β} (first : Intact env account closed w w')
    (second : Intact env account closed w' w'') : Intact env account closed w w'' :=
  ⟨fun d => (first.coins d).trans (second.coins d), fun asset holder stays held =>
    (second.units asset holder stays held).trans (first.units asset holder stays held)⟩

/-- `GetSigners`. -/
def ClpMsg.signer : ClpMsg → String
  | .createPool m | .addLiquidity m | .removeLiquidity m | .removeLiquidityUnits m | .swap m
  | .decommissionPool m => m.signer

/-- No record that a signer writes, under its own spelling or under the usual one, is held by
    another account. -/
theorem other_holder {signer holder : String} {addr : AccAddress}
    (decoded : env.accAddressFromBech32 signer = some addr) (other : addr ≠ account)
    (held : env.accAddressFromBech32 holder = some account) :
    signer ≠ holder ∧ env.addressString addr ≠ holder := by
  constructor
  · rintro rfl
    exact other (Option.some.inj (decoded.symm.trans held))
  · rintro rfl
    exact other (Option.some.inj ((env.decode_string _ _ decoded).symm.trans held))

theorem refunded_spare {symbol : String} {pool : Pool} {lps : List LiquidityProvider} {b b' : β}
    (outside : account ≠ moduleAddress env) (refunded : Refunded env symbol pool lps b b') (d : String) :
    env.bank.getBalance b account d ≤ env.bank.getBalance b' account d := by
  induction refunded with
  | nil => exact le_rfl
  | cons _ _ _ _ _ _ _ _ _ _ _ _ paid _ ih => exact (moves_spare paid outside d).trans ih

theorem remaining_ledger {symbol asset holder : String} {lps : List LiquidityProvider}
    (listed : ∀ lp ∈ lps, lp.asset = symbol) (other : asset ≠ symbol)
    (records : w'.providers.rows = remaining lps w.providers) :
    ledger w'.providers ⟨asset, holder⟩ = ledger w.providers ⟨asset, holder⟩ := by
  unfold ledger
  congr 1
  ext lp
  rw [get_some_iff, get_some_iff, records, remaining, List.mem_filter]
  constructor
  · exact fun found => ⟨found.1.1, found.2⟩
  · rintro ⟨member, key⟩
    refine ⟨⟨member, ?_⟩, key⟩
    rw [decide_eq_true_eq, key]
    intro paid
    obtain ⟨r, read, same⟩ := List.mem_map.mp paid
    exact other ((congrArg ProviderKey.symbol same).symm.trans (listed r read))

theorem removal_intact {externalAsset signer : String} {pool : Pool} {lp : LiquidityProvider}
    {native external lpUnitsLeft : ℕ} (outside : account ≠ moduleAddress env)
    (unsigned : env.accAddressFromBech32 signer ≠ some account)
    (effect : RemovalEffect env externalAsset signer pool lp native external lpUnitsLeft w w') :
    Intact env account closed w w' := by
  obtain ⟨addr, b, providers, decoded, moves, rfl, units⟩ := effect.written
  refine ⟨moves_spare moves outside, fun asset holder _ held => ?_⟩
  rw [units, withdrawnLedger, if_neg]
  intro same
  obtain rfl : signer = holder := congrArg ProviderKey.address same
  exact unsigned held

theorem message_intact (msg : ClpMsg) (empty : w.requests.rows = [])
    (outside : account ≠ moduleAddress env)
    (unsigned : env.accAddressFromBech32 msg.signer ≠ some account)
    (closes : ∀ m, msg = .decommissionPool m → closed m.symbol) :
    Ensures (msg.action env) w (fun _ w' => Intact env account closed w w') := by
  intro u w' run
  have other : ∀ addr, env.accAddressFromBech32 msg.signer = some addr → addr ≠ account :=
    fun addr decoded same => unsigned (same ▸ decoded)
  have effect := action_effect env msg empty u w' run
  cases effect with
  | createPool m _ _ _ _ _ _ _ _ effect =>
    obtain ⟨addr, b, providers, decoded, moves, rfl, units⟩ := effect.written
    refine ⟨moves_spare moves (other addr decoded).symm, fun asset holder _ held => ?_⟩
    have apart := (other_holder decoded (other addr decoded) held).2
    rw [units, if_neg (fun same => apart (congrArg ProviderKey.address same))]
  | addLiquidity m _ _ _ _ _ _ _ effect =>
    obtain ⟨addr, b, providers, _, decoded, moves, rfl, units⟩ := effect.written
    refine ⟨moves_spare moves (other addr decoded).symm, fun asset holder _ held => ?_⟩
    obtain ⟨spelled, named⟩ := other_holder decoded (other addr decoded) held
    rw [units, addedLedger]
    split
    · rw [if_neg (fun same => spelled (congrArg ProviderKey.address same))]
    · rw [if_neg (fun same => named (congrArg ProviderKey.address same))]
  | removeLiquidity m _ _ _ _ _ _ _ _ _ _ _ effect =>
    exact removal_intact outside unsigned effect
  | removeLiquidityUnits m _ _ _ _ _ _ _ _ _ _ effect =>
    exact removal_intact outside unsigned effect
  | swap m _ _ _ _ effect =>
    obtain ⟨addr, b, paid, _, _, _, decoded, taken, sent, _, rfl⟩ := effect
    exact ⟨fun d => (moves_spare taken (other addr decoded).symm d).trans
      (moves_spare sent outside d), fun _ _ _ _ => rfl⟩
  | decommissionPool m _ _ effect =>
    obtain ⟨pool, _, _, _, _, found, _⟩ := effect
    obtain ⟨refunded, records⟩ := runMsg_effect env
      (fun _ _ _ => decommissionPool_pays env pool found) u w' run
    refine ⟨refunded_spare outside refunded, fun asset holder stays _ => ?_⟩
    refine remaining_ledger (fun lp read => ?_) (fun same => stays (same ▸ closes m rfl)) records
    exact of_decide_eq_true (List.mem_filter.mp ((listed_sublist m.symbol w).subset read)).2

/-- One event, a message that the account did not sign or an end of block. -/
theorem event_intact (e : ClpEvent) (settled : Settled w) (outside : account ≠ moduleAddress env)
    (unsigned : ∀ c msg, e = .message c msg → env.accAddressFromBech32 msg.signer ≠ some account)
    (closes : ∀ c m, e = .message c (.decommissionPool m) → closed m.symbol) :
    Intact env account closed w (e.step env w) := by
  cases e with
  | message c msg =>
    refine transact_preserves (Intact env account closed w) _ _ (fun u t run => ?_)
      ⟨fun _ => le_rfl, fun _ _ _ _ => rfl⟩
    have intact : Intact env account closed (w.within c) t :=
      message_intact msg (w := w.within c) settled.no_requests outside (unsigned c msg rfl)
        (fun m same => closes c m (same ▸ rfl)) u t run
    exact ⟨intact.coins, intact.units⟩
  | endBlock c order =>
    have credits := transact_preserves (fun t : World β => Credits env w.bank t.bank) _ _
      (endBlocker_credits order (w.within c)).ok (fun _ _ _ => le_rfl)
    refine ⟨fun d => credits account d outside, ?_⟩
    intro asset holder _ _
    rw [(endBlock_step env).providers]

/-- Along every run of messages and ends of blocks, an account that signs no message never loses
    coins, and its units change in no pool but those that are closed. -/
theorem unsigned_account_intact {events : List ClpEvent} (settled : Settled w)
    (outside : account ≠ moduleAddress env) (unsigned : ∀ c msg, .message c msg ∈ events →
      env.accAddressFromBech32 msg.signer ≠ some account)
    (closes : ∀ c m, .message c (.decommissionPool m) ∈ events → closed m.symbol) :
    Intact env account closed w (runEvents env events w) := by
  induction events generalizing w with
  | nil => exact ⟨fun _ => le_rfl, fun _ _ _ _ => rfl⟩
  | cons e rest ih =>
    have first := event_intact e settled outside (fun c msg same => unsigned c msg (by simp [same]))
      (fun c m same => closes c m (by simp [same]))
    exact first.trans (ih (step_settled env e settled)
      (fun c msg later => unsigned c msg (List.mem_cons_of_mem _ later))
      (fun c m later => closes c m (List.mem_cons_of_mem _ later)))

end Events

def provided : World LedgerBank.Balances := createdPool.step LedgerBank.env LedgerBank.genesis

/-- Bob adds to the pool of alice, trades and withdraws, and the block pays its providers. -/
theorem intact_beside_bob :
    ledger provided.providers ⟨"ceth", "alice"⟩ = some (10 ^ 18) ∧
      Intact LedgerBank.env ⟨[1]⟩ (fun _ => False) provided
        (runEvents LedgerBank.env accountedRun.tail provided) := by
  refine ⟨by decide +kernel, unsigned_account_intact (step_settled _ createdPool ⟨rfl, rfl⟩)
    (by decide) ?_ ?_⟩
  · intro c msg member
    simp only [accountedRun, List.tail_cons, List.mem_cons, ClpEvent.message.injEq, reduceCtorEq,
      List.not_mem_nil, or_false] at member
    rcases member with ⟨_, rfl⟩ | ⟨_, rfl⟩ | ⟨_, rfl⟩ <;> decide
  · simp [accountedRun]

end FuryNode
