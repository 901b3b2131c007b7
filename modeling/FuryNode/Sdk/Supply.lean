import FuryNode.Sdk.LedgerBank

/-!
The supplies that a bank keeps, with what the SDK documents about them, and a bank that keeps
them beside its balances.
-/
namespace FuryNode

/-- `GetSupply`: transfers keep the supplies, a mint and a burn change them by their coins. -/
structure Supply {β : Type} (bank : BankKeeper β) where
  supply : β → String → ℤ
  fromModule_keeps : ∀ b b' senderModule recipient amt,
    bank.sendCoinsFromModuleToAccount b senderModule recipient amt = .ok b' → supply b' = supply b
  toModule_keeps : ∀ b b' sender recipientModule amt,
    bank.sendCoinsFromAccountToModule b sender recipientModule amt = .ok b' → supply b' = supply b
  mint_raises : ∀ b b' moduleName amt, bank.mintCoins b moduleName amt = .ok b' → ∀ d,
    supply b' d = supply b d + amountOf amt d
  burn_lowers : ∀ b b' moduleName amt, bank.burnCoins b moduleName amt = .ok b' → ∀ d,
    supply b' d = supply b d - amountOf amt d

namespace SuppliedBank
open LedgerBank

structure Accounts where
  balances : Balances
  supply : String → ℤ

/-- A call on the balances, after which the supplies change by the coins times `sign`. -/
def lift (call : Balances → Except BankFailure Balances) (sign : ℤ) (amt : Coins) (b : Accounts) :
    Except BankFailure Accounts :=
  match call b.balances with
  | .ok balances => .ok ⟨balances, fun d => b.supply d + sign * amountOf amt d⟩
  | .error f => .error f

theorem lift_ok {call : Balances → Except BankFailure Balances} {sign : ℤ} {amt : Coins} {b b' : Accounts}
    (done : lift call sign amt b = .ok b') : call b.balances = .ok b'.balances ∧
      b'.supply = fun d => b.supply d + sign * amountOf amt d := by
  unfold lift at done
  split at done
  · rename_i balances called
    cases done
    exact ⟨called, rfl⟩
  · cases done

def bank : BankKeeper Accounts where
  moduleAddress := LedgerBank.moduleAddress
  burners := [clpModuleName]
  getBalance b := b.balances
  sendCoinsFromModuleToAccount b senderModule recipient amt :=
    lift (fun b => LedgerBank.bank.sendCoinsFromModuleToAccount b senderModule recipient amt) 0 amt b
  sendCoinsFromAccountToModule b sender recipientModule amt :=
    lift (fun b => LedgerBank.bank.sendCoinsFromAccountToModule b sender recipientModule amt) 0 amt b
  mintCoins b moduleName amt := lift (fun b => LedgerBank.bank.mintCoins b moduleName amt) 1 amt b
  burnCoins b moduleName amt := lift (fun b => LedgerBank.bank.burnCoins b moduleName amt) (-1) amt b
  fromModule_moves := by
    intro b b' senderModule recipient amt sent
    exact LedgerBank.bank.fromModule_moves _ _ _ _ _ (lift_ok sent).1
  toModule_moves := by
    intro b b' sender recipientModule amt sent
    exact LedgerBank.bank.toModule_moves _ _ _ _ _ (lift_ok sent).1
  fromModule_blocked := by
    intro b b' senderModule recipientModule amt sent
    exact LedgerBank.bank.fromModule_blocked _ _ _ _ _ (lift_ok sent).1
  mint_adds := by
    intro b b' moduleName amt minted
    exact LedgerBank.bank.mint_adds _ _ _ _ (lift_ok minted).1
  burn_removes := by
    intro b b' moduleName amt burned
    exact LedgerBank.bank.burn_removes _ _ _ _ (lift_ok burned).1
  burn_succeeds := by
    intro b moduleName amt burner enough
    obtain ⟨balances, burned⟩ := LedgerBank.bank.burn_succeeds b.balances moduleName amt burner enough
    exact ⟨_, by simp only [lift, burned]; rfl⟩

def supplies : Supply bank where
  supply b := b.supply
  fromModule_keeps := by
    intro b b' senderModule recipient amt sent
    dsimp only [bank] at sent
    have changed := (lift_ok sent).2
    simp [changed]
  toModule_keeps := by
    intro b b' sender recipientModule amt sent
    dsimp only [bank] at sent
    have changed := (lift_ok sent).2
    simp [changed]
  mint_raises := by
    intro b b' moduleName amt minted d
    dsimp only [bank] at minted
    have changed := (lift_ok minted).2
    simp [changed]
  burn_lowers := by
    intro b b' moduleName amt burned d
    dsimp only [bank] at burned
    have changed := (lift_ok burned).2
    simp [changed, Int.sub_eq_add_neg]

def env : Env Accounts where
  bank := bank
  accAddressFromBech32 := decode
  addressString := encode
  validateDenom := LedgerBank.env.validateDenom
  canSign := LedgerBank.env.canSign
  mustFloat64 := LedgerBank.env.mustFloat64
  decay := LedgerBank.env.decay
  decode_string := decode_encode
  module_cannot_sign := LedgerBank.env.module_cannot_sign
  native_denom := LedgerBank.env.native_denom
  float_nonneg := LedgerBank.env.float_nonneg
  clp_burner := LedgerBank.env.clp_burner

end SuppliedBank

end FuryNode
