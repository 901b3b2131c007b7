import FuryNode.Sdk.Supply
import FuryNode.EthBridge.Blacklist

/-!
What a lock or a burn moves: the amount leaves the sender and the supply, and the gas in ceth
reaches the receiver account, or stays with the module. The coins are built in different ways for
the two kinds and with and without a receiver account, and building them may panic.
-/
namespace FuryNode
open StatefulProgram StatefulProgram.Prog TransferKeeper BridgeKeeper
variable {β : Type}

/-- What the SDK documents of the bank for x/ethbridge: transfers move coins and keep supplies, and
    nothing panics while the module has its account and its permissions. -/
structure BridgeBankDocs (env : TransferEnv β) where
  supply : Supply env.chain.bank
  send_moves : ∀ b b' sender recipient amt, env.sendCoins b sender recipient amt = .ok b' →
    Moves (env.chain.bank.getBalance b) (env.chain.bank.getBalance b') sender recipient (amountOf amt)
  send_keeps : ∀ b b' sender recipient amt, env.sendCoins b sender recipient amt = .ok b' →
    supply.supply b' = supply.supply b
  send_quiet : ∀ b sender recipient amt, env.sendCoins b sender recipient amt ≠ .error .panicked
  toModule_quiet : ∀ b sender amt,
    env.chain.bank.sendCoinsFromAccountToModule b sender ethbridgeModuleName amt ≠ .error .panicked
  burns : ∀ b amt,
    (∀ d, amountOf amt d ≤ env.chain.bank.getBalance b (env.chain.bank.moduleAddress ethbridgeModuleName) d) →
      ∃ b', env.chain.bank.burnCoins b ethbridgeModuleName amt = .ok b'
  ceth_denom : env.chain.validateDenom cethSymbol = true

namespace Transfer

def amountNat (m : Transfer) : ℕ := m.amount.value.toNat

def gasNat (m : Transfer) : ℕ := m.cethAmount.value.toNat

def symbolCoins (m : Transfer) : Coins := [⟨m.symbol, m.amountNat⟩]

def gasCoins (m : Transfer) : Coins := [⟨cethSymbol, m.gasNat⟩]

def owed (m : Transfer) (d : String) : ℕ := amountOf m.symbolCoins d + amountOf m.gasCoins d

end Transfer

def CoinsFit (env : TransferEnv β) (m : TransferMsg) : Prop :=
  env.chain.validateDenom m.transfer.symbol = true ∧
    (m.transfer.symbol = cethSymbol → m.kind = .burn ∧ m.transfer.gasNat + m.transfer.amountNat < 2 ^ 256)

section Effects
variable (env : TransferEnv β) (docs : BridgeBankDocs env) (sender : AccAddress) (m : TransferMsg)

def gasAccount (s : TransferState β) : AccAddress :=
  s.cethReceiverAccount.getD (env.chain.bank.moduleAddress ethbridgeModuleName)

structure MovedExactly (s t : TransferState β) : Prop where
  sender_pays : ∀ d, env.chain.bank.getBalance t.bank sender d + m.transfer.owed d =
    env.chain.bank.getBalance s.bank sender d
  supply_drops : ∀ d, docs.supply.supply t.bank d =
    docs.supply.supply s.bank d - amountOf m.transfer.symbolCoins d
  gas_arrives : env.chain.bank.getBalance t.bank (gasAccount env s) cethSymbol =
    env.chain.bank.getBalance s.bank (gasAccount env s) cethSymbol + m.transfer.gasNat

/-- A transfer does not panic, and if it succeeds it has moved exactly its amounts. -/
def TransfersExactly (s : TransferState β) : Prop :=
  ∀ outcome t, (process env sender m).run s = (outcome, t) →
    outcome ≠ .error .panic ∧ (outcome = .ok () → MovedExactly env docs sender m s t)

/-- The coins can be built, and the gas does not come back to the sender. -/
def CoinsApart (s : TransferState β) : Prop :=
  m.transfer.ethereumReceiver ∈ s.blacklist ∨
    match s.cethReceiverAccount with
    | none => CoinsFit env m
    | some receiver => ∀ b, env.sendCoins s.bank sender receiver m.transfer.gasCoins = .ok b →
        env.chain.validateDenom m.transfer.symbol = true ∧
        (receiver = sender → ∀ b', env.chain.bank.sendCoinsFromAccountToModule b sender ethbridgeModuleName
          m.transfer.symbolCoins ≠ .ok b')

end Effects

/-! Building coins. -/

section Coins
variable {env : TransferEnv β}

variable (env) in
theorem coinOf_valid {symbol : String} (amount : ℤ) (nonneg : 0 ≤ amount)
    (valid : env.chain.validateDenom symbol = true) : coinOf env symbol amount = .ok ⟨symbol, amount.toNat⟩ := by
  have made := (newCoin_succeeds env.chain symbol amount.toNat).mpr ⟨valid, rfl⟩
  simp [coinOf, not_lt.mpr nonneg, made]

theorem coinOf_invalid {symbol : String} (amount : ℤ) (valid : ¬env.chain.validateDenom symbol = true) :
    coinOf env symbol amount = .error .panic := by
  unfold coinOf newCoin
  simp [valid]

theorem coinsOf_nonzero (coins : List Coin) (nonzero : ∀ c ∈ coins, c.amount ≠ 0) :
    ((coins.map Coin.denom).Nodup → ∃ made, coinsOf coins = .ok made ∧ ∀ d, amountOf made d = amountOf coins d) ∧
      (¬(coins.map Coin.denom).Nodup → coinsOf coins = .error .panic) := by
  have kept : coins.filter (fun c => c.amount ≠ 0) = coins := by
    apply List.filter_eq_self.mpr
    intro c member
    exact decide_eq_true (nonzero c member)
  have perm : (sanitizeCoins coins).Perm coins := by
    unfold sanitizeCoins
    rw [kept]
    exact List.perm_insertionSort _ _
  have names : ((sanitizeCoins coins).map Coin.denom).Nodup ↔ (coins.map Coin.denom).Nodup :=
    (perm.map Coin.denom).nodup_iff
  constructor
  · intro distinct
    have made : newCoins coins = .ok (sanitizeCoins coins) := if_pos (names.mpr distinct)
    exact ⟨sanitizeCoins coins, by simp [coinsOf, made], newCoins_amounts coins _ made⟩
  · intro repeated
    have failed : newCoins coins = .error (.panic .duplicateDenom) :=
      if_neg (fun distinct => repeated (names.mp distinct))
    simp [coinsOf, failed]

theorem coinsOf_single (c : Coin) (nonzero : c.amount ≠ 0) : coinsOf [c] = .ok [c] := by
  simp [coinsOf, newCoins, sanitizeCoins, nonzero]

end Coins

theorem validateBasic_positive {geth : Geth} {m : TransferMsg} (valid : m.validateBasic geth = .ok ()) :
    0 < m.transfer.amount.value ∧ 0 < m.transfer.cethAmount.value := by
  obtain ⟨kind, transfer⟩ := m
  cases kind with
  | lock =>
    simp only [TransferMsg.validateBasic, Transfer.validateLock, except_bind_succeeds, check_succeeds] at valid
    obtain ⟨_, _, _, _, _, _, _, _, _, amount, _, gas, _⟩ := valid
    unfold lockGasCost at gas
    exact ⟨amount, by dsimp only at gas ⊢; omega⟩
  | burn =>
    simp only [TransferMsg.validateBasic, Transfer.validateBurn, except_bind_succeeds, check_succeeds] at valid
    obtain ⟨_, _, _, _, _, _, _, _, _, amount, _, _, _, _, _, gas, _⟩ := valid
    unfold burnGasCost at gas
    exact ⟨amount, by dsimp only at gas ⊢; omega⟩

section Payment
variable {env : TransferEnv β} (docs : BridgeBankDocs env) {sender : AccAddress} {m : TransferMsg}
  {s : TransferState β}

theorem onBank_ok (call : β → Except BankFailure β) {b : β} (called : call s.bank = .ok b) :
    (onBank call).run s = (.ok (), { s with bank := b }) := by
  simp [onBank, bind, Prog.read, called, Prog.modify]

theorem onBank_refused (call : β → Except BankFailure β) (called : call s.bank = .error .refused) :
    (onBank call).run s = (.error .errBank, s) := by
  simp [onBank, bind, Prog.read, called, fail]

variable (amount : 0 < m.transfer.amount.value) (gas : 0 < m.transfer.cethAmount.value)

variable (env) in
include amount in
theorem symbolCoin_made (valid : env.chain.validateDenom m.transfer.symbol = true) :
    coinOf env m.transfer.symbol m.transfer.amount.value = .ok ⟨m.transfer.symbol, m.transfer.amountNat⟩ ∧
      coinsOf [⟨m.transfer.symbol, m.transfer.amountNat⟩] = .ok m.transfer.symbolCoins := by
  have nonzero : m.transfer.amountNat ≠ 0 := by
    unfold Transfer.amountNat
    omega
  exact ⟨coinOf_valid env _ amount.le valid, coinsOf_single _ nonzero⟩

include docs gas in
theorem gasCoin_made :
    coinOf env cethSymbol m.transfer.cethAmount.value = .ok ⟨cethSymbol, m.transfer.gasNat⟩ ∧
      coinsOf [⟨cethSymbol, m.transfer.gasNat⟩] = .ok m.transfer.gasCoins := by
  have nonzero : m.transfer.gasNat ≠ 0 := by
    unfold Transfer.gasNat
    omega
  exact ⟨coinOf_valid env _ gas.le docs.ceth_denom, coinsOf_single _ nonzero⟩

/-- The last part of a transfer: coins go to the module, and the amount is burned there. -/
def deposit (env : TransferEnv β) (sender : AccAddress) (m : TransferMsg) (coins : Coins) :
    TransferAction β Unit := do
  onBank (fun b => env.chain.bank.sendCoinsFromAccountToModule b sender ethbridgeModuleName coins)
  let coin ← ofExcept (coinOf env m.transfer.symbol m.transfer.amount.value)
  let burned ← ofExcept (coinsOf [coin])
  onBank (fun b => env.chain.bank.burnCoins b ethbridgeModuleName burned)

theorem transferCoins_deposit : transferCoins env sender m = (payGas env sender m >>= deposit env sender m) := rfl

include docs amount in
theorem deposit_outcome (apart : sender ≠ env.chain.bank.moduleAddress ethbridgeModuleName)
    (valid : env.chain.validateDenom m.transfer.symbol = true) (coins : Coins)
    (covers : ∀ d, amountOf m.transfer.symbolCoins d ≤ amountOf coins d) :
    ((deposit env sender m coins).run s = (.error .errBank, s) ∧
      ∀ b, env.chain.bank.sendCoinsFromAccountToModule s.bank sender ethbridgeModuleName coins ≠ .ok b) ∨
    ∃ b b', env.chain.bank.sendCoinsFromAccountToModule s.bank sender ethbridgeModuleName coins = .ok b ∧
      env.chain.bank.burnCoins b ethbridgeModuleName m.transfer.symbolCoins = .ok b' ∧
      (deposit env sender m coins).run s = (.ok (), { s with bank := b' }) := by
  cases sent : env.chain.bank.sendCoinsFromAccountToModule s.bank sender ethbridgeModuleName coins with
  | error f =>
    cases f with
    | panicked => exact absurd sent (docs.toModule_quiet _ _ _)
    | refused =>
      left
      exact ⟨stop_then (onBank_refused _ sent), fun b same => by cases same⟩
  | ok b =>
    right
    have moved := env.chain.bank.toModule_moves _ _ _ _ _ sent
    obtain ⟨b', burned⟩ := docs.burns b m.transfer.symbolCoins (by
      intro d
      have balance := moved (env.chain.bank.moduleAddress ethbridgeModuleName) d
      have enough := covers d
      simp only [if_true, Ne.symm apart, if_false] at balance
      omega)
    refine ⟨b, b', rfl, burned, ?_⟩
    obtain ⟨coin, single⟩ := symbolCoin_made env amount valid
    have rest : (do
        let coin ← ofExcept (coinOf env m.transfer.symbol m.transfer.amount.value)
        let burned ← ofExcept (coinsOf [coin])
        onBank (fun b => env.chain.bank.burnCoins b ethbridgeModuleName burned) : TransferAction β Unit) =
        onBank (fun b => env.chain.bank.burnCoins b ethbridgeModuleName m.transfer.symbolCoins) := by
      rw [coin, ofExcept_ok_then, single, ofExcept_ok_then]
    exact (run_then (onBank_ok _ sent) rest).trans (onBank_ok (s := { s with bank := b }) _ burned)

theorem deposit_effect (apart : sender ≠ env.chain.bank.moduleAddress ethbridgeModuleName) (coins : Coins)
    {b b' b'' : β} (sent : env.chain.bank.sendCoinsFromAccountToModule b sender ethbridgeModuleName coins = .ok b')
    (burned : env.chain.bank.burnCoins b' ethbridgeModuleName m.transfer.symbolCoins = .ok b'') :
    (∀ d, env.chain.bank.getBalance b'' sender d + amountOf coins d = env.chain.bank.getBalance b sender d) ∧
    (∀ a d, a ≠ sender → env.chain.bank.getBalance b'' a d +
        (if a = env.chain.bank.moduleAddress ethbridgeModuleName then amountOf m.transfer.symbolCoins d else 0) =
      env.chain.bank.getBalance b a d +
        (if a = env.chain.bank.moduleAddress ethbridgeModuleName then amountOf coins d else 0)) ∧
    ∀ d, docs.supply.supply b'' d = docs.supply.supply b d - amountOf m.transfer.symbolCoins d := by
  have moved := env.chain.bank.toModule_moves _ _ _ _ _ sent
  have removed := env.chain.bank.burn_removes _ _ _ _ burned
  refine ⟨?_, ?_, ?_⟩
  · intro d
    have first := moved sender d
    have second := removed sender d
    simp only [if_true, apart, if_false] at first second
    omega
  · intro a d other
    have first := moved a d
    have second := removed a d
    simp only [other, if_false] at first
    omega
  · intro d
    rw [docs.supply.burn_lowers _ _ _ _ burned, docs.supply.toModule_keeps _ _ _ _ _ sent]

include docs amount gas

theorem payGas_total (absent : s.cethReceiverAccount = none) (burn : m.kind = .burn ∧ m.transfer.symbol = cethSymbol) :
    (CoinsFit env m → ∃ coins, (payGas env sender m).run s = (.ok coins, s) ∧
      ∀ d, amountOf coins d = m.transfer.owed d) ∧
    (¬CoinsFit env m → (payGas env sender m).run s = (.error .panic, s)) := by
  have size : (m.transfer.cethAmount.value + m.transfer.amount.value).natAbs =
      m.transfer.gasNat + m.transfer.amountNat := by
    unfold Transfer.gasNat Transfer.amountNat
    omega
  have valid : env.chain.validateDenom m.transfer.symbol = true := burn.2 ▸ docs.ceth_denom
  constructor
  · intro fits
    have small := (fits.2 burn.2).2
    have sum : addInt m.transfer.cethAmount m.transfer.amount =
        .ok (m.transfer.cethAmount.value + m.transfer.amount.value) := if_pos (size ▸ small)
    have coin := coinOf_valid env
      (m.transfer.cethAmount.value + m.transfer.amount.value) (by omega) docs.ceth_denom
    have single := coinsOf_single
      ⟨cethSymbol, (m.transfer.cethAmount.value + m.transfer.amount.value).toNat⟩ (by dsimp only; omega)
    refine ⟨[⟨cethSymbol, (m.transfer.cethAmount.value + m.transfer.amount.value).toNat⟩], ?_, ?_⟩
    · simp only [payGas, bind, Prog.read, absent, burn, and_self, if_true, Prog.ofExcept, sum, coin, single]
    · intro d
      simp only [Transfer.owed, Transfer.symbolCoins, Transfer.gasCoins, amountOf_cons, amountOf_nil, burn.2]
      unfold Transfer.gasNat Transfer.amountNat
      split <;> omega
  · intro unfit
    have large : ¬(m.transfer.cethAmount.value + m.transfer.amount.value).natAbs < 2 ^ 256 := by
      intro small
      exact unfit ⟨valid, fun _ => ⟨burn.1, size ▸ small⟩⟩
    have overflow : addInt m.transfer.cethAmount m.transfer.amount = .error .panic := if_neg large
    simp only [payGas, bind, Prog.read, absent, burn, and_self, if_true, Prog.ofExcept, overflow]

theorem payGas_pair (absent : s.cethReceiverAccount = none)
    (other : ¬(m.kind = .burn ∧ m.transfer.symbol = cethSymbol)) :
    (CoinsFit env m → ∃ coins, (payGas env sender m).run s = (.ok coins, s) ∧
      ∀ d, amountOf coins d = m.transfer.owed d) ∧
    (¬CoinsFit env m → (payGas env sender m).run s = (.error .panic, s)) := by
  by_cases valid : env.chain.validateDenom m.transfer.symbol = true
  · obtain ⟨coin, _⟩ := symbolCoin_made env amount valid
    obtain ⟨gasCoin, _⟩ := gasCoin_made docs gas
    have nonzero : ∀ c ∈ [(⟨m.transfer.symbol, m.transfer.amountNat⟩ : Coin), ⟨cethSymbol, m.transfer.gasNat⟩],
        c.amount ≠ 0 := by
      intro c member
      unfold Transfer.gasNat Transfer.amountNat at member
      simp only [List.mem_cons, List.not_mem_nil, or_false] at member
      rcases member with rfl | rfl
      · dsimp only
        omega
      · dsimp only
        omega
    obtain ⟨distinct, repeated⟩ := coinsOf_nonzero _ nonzero
    have names : (([(⟨m.transfer.symbol, m.transfer.amountNat⟩ : Coin), ⟨cethSymbol, m.transfer.gasNat⟩]).map
        Coin.denom).Nodup ↔ m.transfer.symbol ≠ cethSymbol := by simp
    constructor
    · intro fits
      have apart : m.transfer.symbol ≠ cethSymbol := fun same => other ⟨(fits.2 same).1, same⟩
      obtain ⟨coins, made, amounts⟩ := distinct (names.mpr apart)
      refine ⟨coins, ?_, ?_⟩
      · simp only [payGas, bind, Prog.read, absent, other, if_false, Prog.ofExcept, coin, gasCoin, made]
      · intro d
        rw [amounts]
        simp only [Transfer.owed, Transfer.symbolCoins, Transfer.gasCoins, amountOf_cons, amountOf_nil,
          Nat.add_zero]
    · intro unfit
      have same : m.transfer.symbol = cethSymbol := by
        by_contra apart
        exact unfit ⟨valid, fun same => absurd same apart⟩
      have failed := repeated (fun nodup => names.mp nodup same)
      simp only [payGas, bind, Prog.read, absent, other, if_false, Prog.ofExcept, coin, gasCoin, failed]
  · have failed := coinOf_invalid m.transfer.amount.value valid
    constructor
    · intro fits
      exact absurd fits.1 valid
    · intro _
      simp only [payGas, bind, Prog.read, absent, other, if_false, Prog.ofExcept, failed]

omit amount in
theorem payGas_refused {receiver : AccAddress} (present : s.cethReceiverAccount = some receiver)
    (sent : env.sendCoins s.bank sender receiver m.transfer.gasCoins = .error .refused) :
    (payGas env sender m).run s = (.error .errBank, s) := by
  obtain ⟨gasCoin, single⟩ := gasCoin_made docs gas
  have refused := onBank_refused (s := s) (fun b => env.sendCoins b sender receiver m.transfer.gasCoins) sent
  simp only [payGas, bind, Prog.read, present, Prog.ofExcept, gasCoin, single, refused]

theorem payGas_paid {receiver : AccAddress} (present : s.cethReceiverAccount = some receiver) {b : β}
    (sent : env.sendCoins s.bank sender receiver m.transfer.gasCoins = .ok b) :
    (env.chain.validateDenom m.transfer.symbol = true →
      (payGas env sender m).run s = (.ok m.transfer.symbolCoins, { s with bank := b })) ∧
    (¬env.chain.validateDenom m.transfer.symbol = true →
      (payGas env sender m).run s = (.error .panic, { s with bank := b })) := by
  obtain ⟨gasCoin, single⟩ := gasCoin_made docs gas
  have paid := onBank_ok (s := s) (fun b => env.sendCoins b sender receiver m.transfer.gasCoins) sent
  constructor
  · intro valid
    obtain ⟨coin, made⟩ := symbolCoin_made env amount valid
    simp only [payGas, bind, Prog.read, present, Prog.ofExcept, gasCoin, single, paid, coin, made]
  · intro invalid
    have failed := coinOf_invalid m.transfer.amount.value invalid
    simp only [payGas, bind, Prog.read, present, Prog.ofExcept, gasCoin, single, paid, failed]

end Payment

section Exactness
variable {env : TransferEnv β} {docs : BridgeBankDocs env} {sender : AccAddress} {m : TransferMsg}
  {s t : TransferState β}

theorem exactly_of_error {e : TransferErr} (ran : (process env sender m).run s = (.error e, t))
    (quiet : e ≠ .panic) : TransfersExactly env docs sender m s := by
  intro outcome u again
  rw [ran] at again
  cases again
  exact ⟨by simpa using quiet, fun impossible => by cases impossible⟩

theorem not_exactly_of_panic (ran : (process env sender m).run s = (.error .panic, t)) :
    ¬TransfersExactly env docs sender m s := by
  intro exactly
  exact (exactly _ _ ran).1 rfl

theorem exactly_of_ok (ran : (process env sender m).run s = (.ok (), t)) :
    TransfersExactly env docs sender m s ↔ MovedExactly env docs sender m s t := by
  constructor
  · intro exactly
    exact (exactly _ _ ran).2 rfl
  · intro moved outcome u again
    rw [ran] at again
    cases again
    exact ⟨by simp, fun _ => moved⟩

variable (apart : sender ≠ env.chain.bank.moduleAddress ethbridgeModuleName)
  (amount : 0 < m.transfer.amount.value) (gas : 0 < m.transfer.cethAmount.value)
  (absent : m.transfer.ethereumReceiver ∉ s.blacklist)
include apart amount gas absent

theorem exactly_with_module (none : s.cethReceiverAccount = none) :
    TransfersExactly env docs sender m s ↔ CoinsFit env m := by
  have paid : (CoinsFit env m → ∃ coins, (payGas env sender m).run s = (.ok coins, s) ∧
      ∀ d, amountOf coins d = m.transfer.owed d) ∧
      (¬CoinsFit env m → (payGas env sender m).run s = (.error .panic, s)) := by
    by_cases burn : m.kind = .burn ∧ m.transfer.symbol = cethSymbol
    · exact payGas_total docs amount gas none burn
    · exact payGas_pair docs amount gas none burn
  have start := process_unlisted env sender absent
  rw [transferCoins_deposit] at start
  by_cases fits : CoinsFit env m
  · obtain ⟨coins, made, amounts⟩ := paid.1 fits
    have ran : (process env sender m).run s = (deposit env sender m coins).run s :=
      start.trans (run_then made rfl)
    refine ⟨fun _ => fits, fun _ => ?_⟩
    rcases deposit_outcome docs (s := s) amount apart fits.1 coins
      (fun d => by rw [amounts, Transfer.owed]; omega) with ⟨refused, _⟩ | ⟨b, b', sent, burned, done⟩
    · exact exactly_of_error (ran.trans refused) (by simp)
    · obtain ⟨pays, others, supplies⟩ := deposit_effect docs apart coins sent burned
      apply (exactly_of_ok (ran.trans done)).mpr
      refine ⟨?_, supplies, ?_⟩
      · intro d
        rw [← amounts]
        exact pays d
      · have arrives := others (env.chain.bank.moduleAddress ethbridgeModuleName) cethSymbol (Ne.symm apart)
        have total := amounts cethSymbol
        simp only [if_true] at arrives
        simp only [Transfer.owed, Transfer.gasCoins, amountOf_cons, amountOf_nil, if_true] at total
        rw [gasAccount, none]
        dsimp only [Option.getD_none]
        omega
  · have failed : (process env sender m).run s = (.error .panic, s) := start.trans (stop_then (paid.2 fits))
    exact ⟨fun exactly => absurd exactly (not_exactly_of_panic failed), fun fit => absurd fit fits⟩

theorem exactly_with_receiver {receiver : AccAddress} (present : s.cethReceiverAccount = some receiver) :
    TransfersExactly env docs sender m s ↔
      ∀ b, env.sendCoins s.bank sender receiver m.transfer.gasCoins = .ok b →
        env.chain.validateDenom m.transfer.symbol = true ∧
        (receiver = sender → ∀ b', env.chain.bank.sendCoinsFromAccountToModule b sender ethbridgeModuleName
          m.transfer.symbolCoins ≠ .ok b') := by
  have start := process_unlisted env sender absent
  rw [transferCoins_deposit] at start
  cases paid : env.sendCoins s.bank sender receiver m.transfer.gasCoins with
  | error f =>
    cases f with
    | panicked => exact absurd paid (docs.send_quiet _ _ _ _)
    | refused =>
      have ran := start.trans (stop_then (payGas_refused docs gas present paid))
      refine ⟨?_, fun _ => exactly_of_error ran (by simp)⟩
      intro _ b impossible
      cases impossible
  | ok b =>
    obtain ⟨continues, panics⟩ := payGas_paid docs amount gas present paid
    by_cases valid : env.chain.validateDenom m.transfer.symbol = true
    · have ran : (process env sender m).run s =
          (deposit env sender m m.transfer.symbolCoins).run { s with bank := b } :=
        start.trans (run_then (continues valid) rfl)
      rcases deposit_outcome docs (s := { s with bank := b }) amount apart valid m.transfer.symbolCoins
        (fun d => le_refl _) with ⟨refused, never⟩ | ⟨b', b'', sent, burned, done⟩
      · refine ⟨fun _ c same => ?_, fun _ => exactly_of_error (ran.trans refused) (by simp)⟩
        cases same
        exact ⟨valid, fun _ => never⟩
      · obtain ⟨pays, others, supplies⟩ := deposit_effect docs (b := b) apart m.transfer.symbolCoins sent burned
        have moved := docs.send_moves _ _ _ _ _ paid
        have gasPaid : amountOf m.transfer.gasCoins cethSymbol = m.transfer.gasNat := by
          simp [Transfer.gasCoins, amountOf_cons, amountOf_nil]
        rw [exactly_of_ok (ran.trans done)]
        by_cases own : receiver = sender
        · -- the gas comes back, so the sender keeps it
          constructor
          · intro exactly
            have kept := moved sender cethSymbol
            have after := pays cethSymbol
            have claimed := exactly.sender_pays cethSymbol
            simp only [own, if_true] at kept
            dsimp only [Transfer.owed] at claimed
            rw [gasPaid] at claimed
            unfold Transfer.gasNat at claimed
            omega
          · intro never
            exact absurd sent ((never b rfl).2 own b')
        · refine ⟨fun _ c same => ?_, fun _ => ⟨?_, ?_, ?_⟩⟩
          · cases same
            exact ⟨valid, fun back => absurd back own⟩
          · intro d
            have first := moved sender d
            have second := pays d
            simp only [if_true, Ne.symm own, if_false] at first
            dsimp only [Transfer.owed]
            omega
          · intro d
            rw [supplies, docs.send_keeps _ _ _ _ _ paid]
          · have first := moved receiver cethSymbol
            have second := others receiver cethSymbol own
            simp only [if_true, own, if_false] at first
            rw [gasAccount, present]
            dsimp only [Option.getD_some]
            omega
    · have ran := start.trans (stop_then (panics valid))
      constructor
      · intro exactly
        exact absurd exactly (not_exactly_of_panic ran)
      · intro meets
        exact absurd (meets b rfl).1 valid

end Exactness

theorem transfers_exactly_iff (env : TransferEnv β) (docs : BridgeBankDocs env) (sender : AccAddress)
    (signs : env.chain.canSign sender = true) (m : TransferMsg) (valid : m.validateBasic env.geth = .ok ())
    (s : TransferState β) : TransfersExactly env docs sender m s ↔ CoinsApart env sender m s := by
  have apart : sender ≠ env.chain.bank.moduleAddress ethbridgeModuleName := by
    intro same
    rw [same, env.chain.module_cannot_sign] at signs
    cases signs
  obtain ⟨amount, gas⟩ := validateBasic_positive valid
  by_cases listed : m.transfer.ethereumReceiver ∈ s.blacklist
  · have rejected := process_listed env sender listed
    exact ⟨fun _ => Or.inl listed, fun _ => exactly_of_error rejected (by simp)⟩
  · unfold CoinsApart
    cases account : s.cethReceiverAccount with
    | none =>
      rw [exactly_with_module apart amount gas listed account]
      simp only [listed, false_or]
    | some receiver =>
      rw [exactly_with_receiver apart amount gas listed account]
      simp only [listed, false_or]

/-! Transfers of alice over a bank that keeps supplies. -/
namespace SuppliedBridge

def sendCoins (b : SuppliedBank.Accounts) (sender recipient : AccAddress) (coins : Coins) :
    Except BankFailure SuppliedBank.Accounts :=
  SuppliedBank.lift (fun b => LedgerBank.transfer b sender recipient coins) 0 coins b

def env : TransferEnv SuppliedBank.Accounts where
  chain := SuppliedBank.env
  oracle := PlainOracle.keeper
  geth := PlainBridge.geth
  marshalContent content := some content.symbol
  unmarshalContent _ := none
  sendCoins := sendCoins

theorem transfer_quiet {b : LedgerBank.Balances} {sender recipient : AccAddress} {amt : Coins} :
    LedgerBank.transfer b sender recipient amt ≠ .error .panicked := by
  unfold LedgerBank.transfer
  split <;> simp

theorem lift_quiet {call : LedgerBank.Balances → Except BankFailure LedgerBank.Balances} {sign : ℤ} {amt : Coins}
    {b : SuppliedBank.Accounts} (quiet : call b.balances ≠ .error .panicked) :
    SuppliedBank.lift call sign amt b ≠ .error .panicked := by
  unfold SuppliedBank.lift
  split
  · simp
  · rename_i f failed
    intro panicked
    cases panicked
    exact quiet failed

def docs : BridgeBankDocs env where
  supply := SuppliedBank.supplies
  send_moves := by
    intro b b' sender recipient amt sent
    dsimp only [env, sendCoins] at sent
    exact LedgerBank.transfer_moves (SuppliedBank.lift_ok sent).1
  send_keeps := by
    intro b b' sender recipient amt sent
    dsimp only [env, sendCoins] at sent
    have kept := (SuppliedBank.lift_ok sent).2
    simpa [SuppliedBank.supplies] using kept
  send_quiet := by
    intro b sender recipient amt
    dsimp only [env, sendCoins]
    apply lift_quiet
    exact transfer_quiet
  toModule_quiet := by
    intro b sender amt
    dsimp only [env, SuppliedBank.env, SuppliedBank.bank]
    apply lift_quiet
    exact transfer_quiet
  burns := by
    intro b amt enough
    have covered : LedgerBank.covers b.balances (LedgerBank.moduleAddress ethbridgeModuleName) amt :=
      fun c _ => enough c.denom
    have burned : LedgerBank.burn b.balances ethbridgeModuleName amt = .ok _ := if_pos covered
    exact ⟨_, by simp only [env, SuppliedBank.env, SuppliedBank.bank, LedgerBank.bank, SuppliedBank.lift, burned]; rfl⟩
  ceth_denom := by decide

/-- Alice owns pegged dollars and ceth; `account` receives the gas. -/
def start (account : Option AccAddress) : TransferState SuppliedBank.Accounts where
  bank := ⟨fun a d => if a = ⟨[1]⟩ ∧ (d = "cusd" ∨ d = "ceth") then 10 ^ 20 else 0, fun _ => 10 ^ 20⟩
  accounts a := if a = ⟨[1]⟩ then some 7 else none
  peggyTokens := ["cusd"]
  oracle := PlainOracle.genesis
  paused := false
  blacklist := []
  cethReceiverAccount := account

def message (kind : TransferKind) (symbol : String) : TransferMsg :=
  ⟨kind, { (PlainTransfers.burn 5 PlainBlacklist.five_fits).transfer with symbol := symbol }⟩

end SuppliedBridge

/-- A burn of dollars with carol as receiver of the gas. -/
theorem burn_transfers_exactly :
    TransfersExactly SuppliedBridge.env SuppliedBridge.docs ⟨[1]⟩ (SuppliedBridge.message .burn "cusd")
      (SuppliedBridge.start (some ⟨[3]⟩)) :=
  (transfers_exactly_iff SuppliedBridge.env SuppliedBridge.docs ⟨[1]⟩ (by decide)
    (SuppliedBridge.message .burn "cusd") (by decide +kernel) (SuppliedBridge.start (some ⟨[3]⟩))).mpr
    (Or.inr (fun _ _ => ⟨by decide, fun same => absurd same (by decide)⟩))

/-- A lock of ceth without receiver account panics, as does a lock of a symbol that is no denomination;
    and if alice receives the gas herself, she keeps it. -/
theorem transfers_not_exact :
    ((process SuppliedBridge.env ⟨[1]⟩ (SuppliedBridge.message .lock "ceth")).run (SuppliedBridge.start none)).1 =
        .error .panic ∧
      ((process SuppliedBridge.env ⟨[1]⟩ (SuppliedBridge.message .lock "x")).run (SuppliedBridge.start none)).1 =
        .error .panic ∧
      ¬TransfersExactly SuppliedBridge.env SuppliedBridge.docs ⟨[1]⟩ (SuppliedBridge.message .lock "ceth")
        (SuppliedBridge.start none) ∧
      ¬TransfersExactly SuppliedBridge.env SuppliedBridge.docs ⟨[1]⟩ (SuppliedBridge.message .lock "x")
        (SuppliedBridge.start none) ∧
      ¬TransfersExactly SuppliedBridge.env SuppliedBridge.docs ⟨[1]⟩ (SuppliedBridge.message .burn "cusd")
        (SuppliedBridge.start (some ⟨[1]⟩)) := by
  have doubled : ((process SuppliedBridge.env ⟨[1]⟩ (SuppliedBridge.message .lock "ceth")).run
      (SuppliedBridge.start none)).1 = .error .panic := by decide +kernel
  have unnamed : ((process SuppliedBridge.env ⟨[1]⟩ (SuppliedBridge.message .lock "x")).run
      (SuppliedBridge.start none)).1 = .error .panic := by decide +kernel
  have burned : ((process SuppliedBridge.env ⟨[1]⟩ (SuppliedBridge.message .burn "cusd")).run
      (SuppliedBridge.start (some ⟨[1]⟩))).1 = .ok () := by decide +kernel
  have kept : ((process SuppliedBridge.env ⟨[1]⟩ (SuppliedBridge.message .burn "cusd")).run
      (SuppliedBridge.start (some ⟨[1]⟩))).2.bank.balances ⟨[1]⟩ "ceth" = 10 ^ 20 := by decide +kernel
  refine ⟨doubled, unnamed, ?_, ?_, ?_⟩
  · intro exactly
    exact (exactly _ _ rfl).1 doubled
  · intro exactly
    exact (exactly _ _ rfl).1 unnamed
  · intro exactly
    have paid := ((exactly _ _ rfl).2 burned).sender_pays "ceth"
    change ((process SuppliedBridge.env ⟨[1]⟩ (SuppliedBridge.message .burn "cusd")).run
      (SuppliedBridge.start (some ⟨[1]⟩))).2.bank.balances ⟨[1]⟩ "ceth" + _ = _ at paid
    rw [kept] at paid
    exact absurd paid (by decide +kernel)

end FuryNode
