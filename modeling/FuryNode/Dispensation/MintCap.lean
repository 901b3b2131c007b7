import FuryNode.Library.EventRuns
import FuryNode.Sdk.Supply
import FuryNode.Dispensation.Keeper

/-!
The minting of the dispensation module: every block mints a fixed amount for the ecosystem pool
and counts it, until the counter is at its maximum. The bank may refuse the mint or the transfer
after it, in any block.
-/
namespace FuryNode.Dispensation
open StatefulProgram StatefulProgram.Prog
variable {β : Type}

/-- What the next block mints when the counter is at `n`. -/
def blockAmount (n : ℕ) : ℕ := min mintAmountPerBlock (maxMintAmount - n)

def mintCoinsOf (n : ℕ) : Coins := [⟨nativeSymbol, blockAmount n⟩]

def counterAt (n : ℕ) : Option MintController := some ⟨⟨nativeSymbol, n⟩⟩

section Block
variable (env : DispensationEnv β) (s : Store β) (n : ℕ) (controller : s.mintController = counterAt n)

theorem blockAmount_pos (below : n < maxMintAmount) : blockAmount n ≠ 0 := by
  unfold blockAmount mintAmountPerBlock
  omega

include controller in
theorem mintAmount_block (below : n < maxMintAmount) : mintAmount s = some (blockAmount n) := by
  unfold mintAmount isLastBlock blockAmount counterAt at *
  rw [controller]
  dsimp only [Option.map_some]
  split
  · rename_i last
    rw [decide_eq_true_iff] at last
    congr 1
    omega
  · rename_i more
    rw [decide_eq_true_iff] at more
    congr 1
    omega

theorem newCoins_block (below : n < maxMintAmount) :
    newCoins [⟨nativeSymbol, blockAmount n⟩] = .ok (mintCoinsOf n) := by
  have some := blockAmount_pos n below
  simp [newCoins, sanitizeCoins, mintCoinsOf, some]

theorem mintCoins_valid (below : n < maxMintAmount) :
    Coins.isValid env.toEnv (mintCoinsOf n) = true ∧ (mintCoinsOf n).length = 1 := by
  have some := blockAmount_pos n below
  have denom := env.native_denom
  simp only [Coins.isValid, mintCoinsOf, List.all_cons, denom, List.all_nil, List.map_cons, List.map_nil,
    List.pairwise_cons, List.not_mem_nil, false_implies, implies_true, List.Pairwise.nil, and_self,
    decide_true, Bool.and_true, Bool.true_and, decide_eq_true_iff, List.length_cons, List.length_nil,
    Nat.zero_add, and_true]
  omega

theorem amount_minted : amountOf (mintCoinsOf n) nativeSymbol = blockAmount n := by
  simp [amountOf, mintCoinsOf]

theorem beginBlocker_mints {pool : AccAddress} (decodes : env.accAddressFromBech32 ecoPool = some pool)
    (below : n < maxMintAmount) (controller : s.mintController = counterAt n) :
    (beginBlocker env).run s = (mintTo env pool (mintCoinsOf n)).run s := by
  have mintable : tokensCanBeMinted s = .ok true := by
    simp [tokensCanBeMinted, controller, counterAt, check, pure, Except.pure, bind, Except.bind, below]
  have amount := mintAmount_block s n controller below
  have coin : newCoin env.toEnv nativeSymbol (blockAmount n) = .ok ⟨nativeSymbol, blockAmount n⟩ := by
    simp [newCoin, env.native_denom]
  have coins := newCoins_block n below
  have valid := mintCoins_valid env n below
  simp [beginBlocker, bind, Prog.read, Prog.ofExcept, mintable, when, amount, coin, coins, valid, decodes]

theorem beginBlocker_done (controller : s.mintController = counterAt maxMintAmount) :
    (beginBlocker env).run s = (.ok (), s) := by
  have done : tokensCanBeMinted s = .ok false := by
    simp [tokensCanBeMinted, controller, counterAt, check, pure, Except.pure, bind, Except.bind]
  simp [beginBlocker, bind, Prog.read, Prog.ofExcept, done, when, pure]

include controller in
theorem addMintAmount_counts (below : n < maxMintAmount) :
    (addMintAmount (⟨nativeSymbol, blockAmount n⟩ : Coin)).run s =
      (.ok (), { s with mintController := counterAt (n + blockAmount n) }) := by
  have fits : n + blockAmount n < 2 ^ 256 := by
    unfold blockAmount maxMintAmount at *
    omega
  have sum : addCoin ⟨nativeSymbol, n⟩ ⟨nativeSymbol, blockAmount n⟩ =
      .ok ⟨nativeSymbol, n + blockAmount n⟩ := by
    have added := (Uint.add_succeeds n (blockAmount n) _).mpr ⟨fits, rfl⟩
    simp [addCoin, check, pure, Except.pure, bind, Except.bind, added]
  simp [addMintAmount, controller, counterAt, bind, Prog.read, Prog.ofExcept, sum, Prog.modify]

end Block

/-- The bank accepts the mint of the next block, and does not panic over the transfer. -/
def MintAccepted (env : DispensationEnv β) (pool : AccAddress) (n : ℕ) (b : β) : Prop :=
  ∃ b', env.bank.mintCoins b moduleName (mintCoinsOf n) = .ok b' ∧
    env.bank.sendCoinsFromModuleToAccount b' moduleName pool (mintCoinsOf n) ≠ .error .panicked

theorem nextBlock_outcome {env : DispensationEnv β} (supply : Supply env.bank) {pool : AccAddress}
    (decodes : env.accAddressFromBech32 ecoPool = some pool) (blockTime : Timestamp) {s : Store β} {n : ℕ}
    (controller : s.mintController = counterAt n) (bounded : n ≤ maxMintAmount) :
    let t := transact (nextBlock env blockTime) s
    (n < maxMintAmount ∧ MintAccepted env pool n s.bank ∧
      t.mintController = counterAt (n + blockAmount n) ∧
      supply.supply t.bank nativeSymbol = supply.supply s.bank nativeSymbol + blockAmount n) ∨
    ((n = maxMintAmount ∨ ¬MintAccepted env pool n s.bank) ∧
      t.mintController = counterAt n ∧ supply.supply t.bank nativeSymbol = supply.supply s.bank nativeSymbol) := by
  intro t
  rcases Nat.lt_or_eq_of_le bounded with below | full
  · let s' : Store β := { s with height := s.height + 1, blockTime := blockTime }
    have ran : (nextBlock env blockTime).run s = (mintTo env pool (mintCoinsOf n)).run s' :=
      beginBlocker_mints env s' n decodes below controller
    cases minted : env.bank.mintCoins s.bank moduleName (mintCoinsOf n) with
    | error f =>
      have refused : ¬MintAccepted env pool n s.bank := by
        intro accepted
        obtain ⟨b, made, _⟩ := accepted
        rw [minted] at made
        cases made
      right
      refine ⟨Or.inr refused, ?_⟩
      cases f with
      | refused =>
        have idle : (nextBlock env blockTime).run s = (.ok (), s') := by
          rw [ran]
          simp [mintTo, tryBank, bind, Prog.read, s', minted, pure, when]
        rw [show t = s' from transact_ok idle]
        exact ⟨controller, rfl⟩
      | panicked =>
        have undone : (nextBlock env blockTime).run s = (.error (.panic .bankPanicked), s') := by
          rw [ran]
          simp [mintTo, tryBank, bind, Prog.read, s', minted, fail]
        rw [show t = s from transact_error undone]
        exact ⟨controller, rfl⟩
    | ok b =>
      have raised := supply.mint_raises _ _ _ _ minted nativeSymbol
      rw [amount_minted] at raised
      have first : (mintCoinsOf n).index 0 = .ok ⟨nativeSymbol, blockAmount n⟩ := rfl
      cases sent : env.bank.sendCoinsFromModuleToAccount b moduleName pool (mintCoinsOf n) with
      | ok b' =>
        left
        refine ⟨below, ⟨b, minted, by rw [sent]; simp⟩, ?_⟩
        have counted := addMintAmount_counts { s' with bank := b' } n controller below
        have done : (nextBlock env blockTime).run s =
            (.ok (), { s' with bank := b', mintController := counterAt (n + blockAmount n) }) := by
          rw [ran, ← counted]
          simp [mintTo, tryBank, bind, Prog.read, s', minted, sent, pure, when, Prog.modify, Prog.ofExcept, first]
        rw [show t = _ from transact_ok done]
        exact ⟨rfl, (congrFun (supply.fromModule_keeps _ _ _ _ _ sent) _).trans raised⟩
      | error f =>
        cases f with
        | refused =>
          left
          refine ⟨below, ⟨b, minted, by rw [sent]; simp⟩, ?_⟩
          have counted := addMintAmount_counts { s' with bank := b } n controller below
          have done : (nextBlock env blockTime).run s =
              (.ok (), { s' with bank := b, mintController := counterAt (n + blockAmount n) }) := by
            rw [ran, ← counted]
            simp [mintTo, tryBank, bind, Prog.read, s', minted, sent, pure, when, Prog.modify, Prog.ofExcept, first]
          rw [show t = _ from transact_ok done]
          exact ⟨rfl, raised⟩
        | panicked =>
          right
          have refused : ¬MintAccepted env pool n s.bank := by
            intro accepted
            obtain ⟨b', made, quiet⟩ := accepted
            rw [minted] at made
            cases made
            exact quiet sent
          have undone : (nextBlock env blockTime).run s =
              (.error (.panic .bankPanicked), { s' with bank := b }) := by
            rw [ran]
            simp [mintTo, tryBank, bind, Prog.read, s', minted, sent, pure, when, Prog.modify, fail]
          rw [show t = s from transact_error undone]
          exact ⟨Or.inr refused, controller, rfl⟩
  · subst full
    have ran : (nextBlock env blockTime).run s =
        (.ok (), { s with height := s.height + 1, blockTime := blockTime }) :=
      beginBlocker_done env { s with height := s.height + 1, blockTime := blockTime } controller
    right
    refine ⟨Or.inl rfl, ?_, ?_⟩
    · rw [show t = _ from transact_ok ran]
      exact controller
    · rw [show t = _ from transact_ok ran]

/-- A begin of block of the module, or whatever happens elsewhere: the bank and the rest of the
    store change in any way, the counter does not. -/
inductive MintEvent (β : Type) where
  | beginBlock (blockTime : Timestamp)
  | elsewhere (change : Store β → Store β)

structure MintAccounts (β : Type) where
  store : Store β
  minted : ℤ

def MintAccounts.counter (a : MintAccounts β) : ℕ :=
  (a.store.mintController.map (fun controller => controller.totalCounter.amount)).getD 0

section Runs
variable (env : DispensationEnv β) (supply : Supply env.bank) (pool : AccAddress)

def MintEvent.step : MintEvent β → MintAccounts β → MintAccounts β
  | .beginBlock blockTime, a =>
      let t := transact (nextBlock env blockTime) a.store
      ⟨t, a.minted + (supply.supply t.bank nativeSymbol - supply.supply a.store.bank nativeSymbol)⟩
  | .elsewhere change, a =>
      ⟨{ change a.store with mintController := a.store.mintController }, a.minted⟩

def blockCount : List (MintEvent β) → ℕ
  | [] => 0
  | .beginBlock _ :: rest => blockCount rest + 1
  | .elsewhere _ :: rest => blockCount rest

/-- The mint of a block does not fail. -/
def MintEvent.Accepted (a : MintAccounts β) : MintEvent β → Prop
  | .beginBlock _ => a.counter = maxMintAmount ∨ MintAccepted env pool a.counter a.store.bank
  | .elsewhere _ => True

/-- `n` is what is counted and what was minted, and is at most the maximum. -/
structure Counted (a : MintAccounts β) (n : ℕ) : Prop where
  controller : a.store.mintController = counterAt n
  minted : a.minted = n
  bounded : n ≤ maxMintAmount

variable {a : MintAccounts β} {n : ℕ}

theorem counted_counter (counted : Counted a n) : a.counter = n := by
  simp [MintAccounts.counter, counted.controller, counterAt]

variable (decodes : env.accAddressFromBech32 ecoPool = some pool)
include decodes

theorem mint_step (e : MintEvent β) (counted : Counted a n) :
    ∃ m, Counted (e.step env supply a) m ∧
      (m = n ∨ (n < maxMintAmount ∧ m = n + blockAmount n)) ∧
      (e.Accepted env pool a → m = n + blockCount [e] * blockAmount n) := by
  cases e with
  | elsewhere change =>
    exact ⟨n, ⟨counted.controller, counted.minted, counted.bounded⟩, Or.inl rfl, fun _ => by simp [blockCount]⟩
  | beginBlock blockTime =>
    have minted := counted.minted
    have outcome := nextBlock_outcome supply decodes blockTime counted.controller counted.bounded
    dsimp only at outcome
    rcases outcome with ⟨below, _, controller, raised⟩ | ⟨idle, controller, same⟩
    · have bounded : n + blockAmount n ≤ maxMintAmount := by
        unfold blockAmount
        omega
      have total : (MintEvent.step env supply (.beginBlock blockTime) a).minted =
          ((n + blockAmount n : ℕ) : ℤ) := by
        dsimp only [MintEvent.step]
        omega
      exact ⟨n + blockAmount n, ⟨controller, total, bounded⟩, Or.inr ⟨below, rfl⟩,
        fun _ => by simp [blockCount]⟩
    · have total : (MintEvent.step env supply (.beginBlock blockTime) a).minted = n := by
        dsimp only [MintEvent.step]
        omega
      refine ⟨n, ⟨controller, total, counted.bounded⟩, Or.inl rfl, ?_⟩
      intro accepted
      -- a block that mints nothing although its mint is accepted is at the maximum
      have full : n = maxMintAmount := by
        dsimp only [MintEvent.Accepted] at accepted
        rw [counted_counter counted] at accepted
        exact accepted.elim id (fun mints => idle.resolve_right (fun refused => refused mints))
      simp [full, blockAmount]

theorem run_counted (events : List (MintEvent β)) (counted : Counted a n) :
    ∃ m, Counted (EventRuns.run (MintEvent.step env supply) events a) m := by
  induction events generalizing a n with
  | nil => exact ⟨n, counted⟩
  | cons e rest ih =>
    obtain ⟨m, next, _⟩ := mint_step env supply pool decodes e counted
    exact ih next

theorem run_accepted {events : List (MintEvent β)} (counted : Counted a n)
    (accepted : EventRuns.Guarded (MintEvent.step env supply) (fun a e => e.Accepted env pool a) events a) :
    Counted (EventRuns.run (MintEvent.step env supply) events a)
      (min maxMintAmount (n + blockCount events * mintAmountPerBlock)) := by
  induction events generalizing a n with
  | nil =>
    have same : min maxMintAmount (n + blockCount ([] : List (MintEvent β)) * mintAmountPerBlock) = n := by
      have bounded := counted.bounded
      simp only [blockCount]
      omega
    rw [same]
    exact counted
  | cons e rest ih =>
    obtain ⟨m, next, _, grows⟩ := mint_step env supply pool decodes e counted
    have later := ih next accepted.2
    have grown := grows accepted.1
    have same : min maxMintAmount (n + blockCount (e :: rest) * mintAmountPerBlock) =
        min maxMintAmount (m + blockCount rest * mintAmountPerBlock) := by
      have bounded := counted.bounded
      cases e with
      | elsewhere change =>
        simp only [blockCount] at grown ⊢
        omega
      | beginBlock blockTime =>
        simp only [blockCount, Nat.add_mul, Nat.one_mul] at grown ⊢
        unfold blockAmount at grown
        omega
    rw [same]
    exact later

end Runs

/-- `ceil(MaxMintAmount / MintAmountPerBlock)`. -/
def blocksToCap : ℕ := (maxMintAmount + mintAmountPerBlock - 1) / mintAmountPerBlock

/-- After any blocks from a counter of zero, the counter is what the module has minted, and at most the
    maximum. No event lowers it or raises it by more than the amount of a block, nothing is minted
    once it is full, and enough further blocks without a failed mint fill it exactly. -/
theorem mint_cap (env : DispensationEnv β) (supply : Supply env.bank) (pool : AccAddress)
    (decodes : env.accAddressFromBech32 ecoPool = some pool) (s : Store β)
    (start : s.mintController = some ⟨⟨nativeSymbol, 0⟩⟩) (events : List (MintEvent β)) :
    let a := EventRuns.run (MintEvent.step env supply) events ⟨s, 0⟩
    (a.counter : ℤ) = a.minted ∧ a.counter ≤ maxMintAmount ∧
      (∀ e : MintEvent β, a.counter ≤ (e.step env supply a).counter ∧
        (e.step env supply a).counter ≤ a.counter + mintAmountPerBlock ∧
        (a.counter = maxMintAmount → (e.step env supply a).minted = a.minted)) ∧
      ∀ later, EventRuns.Guarded (MintEvent.step env supply) (fun a e => e.Accepted env pool a) later a →
        blocksToCap ≤ blockCount later →
        (EventRuns.run (MintEvent.step env supply) later a).counter = maxMintAmount := by
  intro a
  have begun : Counted (⟨s, 0⟩ : MintAccounts β) 0 := ⟨start, rfl, Nat.zero_le _⟩
  obtain ⟨n, counted⟩ : ∃ n, Counted a n := run_counted env supply pool decodes events begun
  rw [counted_counter counted]
  refine ⟨counted.minted.symm, counted.bounded, ?_, ?_⟩
  · intro e
    obtain ⟨m, next, change, _⟩ := mint_step env supply pool decodes e counted
    have amount : blockAmount n ≤ mintAmountPerBlock := Nat.min_le_left _ _
    rw [counted_counter next, next.minted, counted.minted]
    omega
  · intro later accepted enough
    have covered : maxMintAmount ≤ blocksToCap * mintAmountPerBlock := by decide +kernel
    have blocks := Nat.mul_le_mul_right mintAmountPerBlock enough
    rw [counted_counter (run_accepted env supply pool decodes counted accepted)]
    omega

namespace SuppliedDispensation

def poolAddress : AccAddress := ⟨[4]⟩

/-- The ecosystem pool is the only account that decodes. -/
def env : DispensationEnv SuppliedBank.Accounts where
  toEnv := { SuppliedBank.env with
    accAddressFromBech32 := fun s => if s = ecoPool then some poolAddress else none
    addressString := fun _ => ecoPool
    decode_string := by
      intro s a decoded
      split at decoded
      · cases decoded
        rfl
      · cases decoded }
  address_plain := by
    intro s a decoded
    dsimp only at decoded
    split at decoded
    · rename_i spelled
      subst spelled
      decide
    · cases decoded

def start : Store SuppliedBank.Accounts where
  bank := ⟨fun _ _ => 0, fun _ => 0⟩
  height := 1
  blockTime := ⟨0, 0⟩
  records := .empty
  distributions := .empty
  claims := .empty
  mintController := some ⟨⟨nativeSymbol, 0⟩⟩
  payouts := []

end SuppliedDispensation

/-- Two blocks mint and count two amounts. -/
theorem two_blocks_counted :
    let events : List (MintEvent SuppliedBank.Accounts) :=
      [.beginBlock ⟨1, 0⟩, .elsewhere (fun s => { s with height := 9 }), .beginBlock ⟨2, 0⟩]
    let a := EventRuns.run (MintEvent.step SuppliedDispensation.env SuppliedBank.supplies) events
      ⟨SuppliedDispensation.start, 0⟩
    a.minted = 2 * mintAmountPerBlock ∧ (a.counter : ℤ) = a.minted :=
  ⟨by decide +kernel, (mint_cap SuppliedDispensation.env SuppliedBank.supplies
    SuppliedDispensation.poolAddress rfl SuppliedDispensation.start rfl _).1⟩

end FuryNode.Dispensation
