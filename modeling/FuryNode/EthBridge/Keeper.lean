import FuryNode.Oracle.Keeper

/-!
The claims of x/ethbridge: a validator reports a lock or a burn on Ethereum, the report
becomes a claim of the oracle, and the claim that decides a prophecy mints the coins. Hex
addresses are those of go-ethereum and the texts of claims are JSON; of both only the
documented behaviour is assumed.
-/
namespace FuryNode
open StatefulProgram StatefulProgram.Prog KeyedTable

structure EthereumAddress where
  bytes : List UInt8
  deriving DecidableEq, Repr

structure HexSpelling (text : String) (start digits : List Char) : Prop where
  start_mem : start ∈ [[], ['0', 'x'], ['0', 'X']]
  length : digits.length = 40
  hex : ∀ c ∈ digits, c ∈ "0123456789abcdefABCDEF".toList
  spelled : text.toList = start ++ digits

/-- What is used of go-ethereum: which texts are addresses, and that an address is its digits
    in either case. -/
structure Geth where
  isHexAddress : String → Bool
  hexToAddress : String → EthereumAddress
  isHexAddress_iff : ∀ text, isHexAddress text = true ↔ ∃ start digits, HexSpelling text start digits
  hexToAddress_eq : ∀ s t start digits start' digits', HexSpelling s start digits →
    HexSpelling t start' digits' →
    (hexToAddress s = hexToAddress t ↔ digits.map Char.toLower = digits'.map Char.toLower)

inductive ClaimType where
  | unspecified
  | burn
  | lock
  deriving DecidableEq, Repr

structure EthBridgeClaim where
  ethereumChainId : ℤ
  bridgeContractAddress : String
  nonce : ℤ
  symbol : String
  tokenContractAddress : String
  ethereumSender : String
  cosmosReceiver : String
  validatorAddress : String
  amount : ℤ
  claimType : ClaimType
  deriving DecidableEq, Repr

structure OracleClaimContent where
  cosmosReceiver : AccAddress
  amount : ℤ
  symbol : String
  tokenContractAddress : EthereumAddress
  claimType : ClaimType
  deriving DecidableEq, Repr

structure BridgeEnv (β : Type) where
  chain : Env β
  oracle : OracleKeeper
  geth : Geth
  marshalContent : OracleClaimContent → Option String
  unmarshalContent : String → Option OracleClaimContent

structure BridgeState (β : Type) where
  bank : β
  /-- The sequence of every account there is. -/
  accounts : AccAddress → Option ℕ
  peggyTokens : List String
  oracle : OracleState

abbrev BridgeAction (β α : Type) := Prog (BridgeState β) BridgeErr α

variable {β : Type}

/-- `CreateOracleClaimFromEthClaim`: the id has no separators. -/
def oracleID (c : EthBridgeClaim) : String :=
  toString c.ethereumChainId ++ toString c.nonce ++ c.ethereumSender

def createOracleClaimFromEthClaim (env : BridgeEnv β) (c : EthBridgeClaim) : Except BridgeErr Claim := do
  let cosmosReceiver ← (env.chain.accAddressFromBech32 c.cosmosReceiver).elim (.error .errBech32) .ok
  let content : OracleClaimContent := ⟨cosmosReceiver, c.amount, c.symbol,
    env.geth.hexToAddress c.tokenContractAddress, c.claimType⟩
  let claimString ← (env.marshalContent content).elim (.error .errJSON) .ok
  .ok ⟨oracleID c, c.validatorAddress, claimString⟩

def nullAddress : String := "0x0000000000000000000000000000000000000000"

/-- `MsgCreateEthBridgeClaim.ValidateBasic`. -/
def EthBridgeClaim.validateBasic (env : BridgeEnv β) (c : EthBridgeClaim) : Except BridgeErr Unit := do
  check (c.cosmosReceiver ≠ "") .errInvalidAddress
  check (c.validatorAddress ≠ "") .errInvalidAddress
  check (0 ≤ c.nonce) .errInvalidEthNonce
  check (env.geth.isHexAddress c.ethereumSender = true) .errInvalidEthAddress
  check (env.geth.isHexAddress c.bridgeContractAddress = true) .errInvalidEthAddress
  check (env.geth.isHexAddress c.tokenContractAddress = true) .errInvalidEthAddress
  check (c.symbol.toLower ≠ "eth" ∨
    env.geth.hexToAddress c.tokenContractAddress = env.geth.hexToAddress nullAddress) .errInvalidEthSymbol

namespace BridgeKeeper

def ethbridgeModuleName : String := "ethbridge"
def peggedCoinPrefix : String := "c"

def existsPeggyToken (s : BridgeState β) (token : String) : Bool := s.peggyTokens.any (fun t => t = token)

def addPeggyToken (token : String) : BridgeAction β Unit := do
  let s ← read
  when (existsPeggyToken s token = false)
    (modify (fun s => { s with peggyTokens := s.peggyTokens ++ [token] }))

/-- `sdk.NewCoins(sdk.NewCoin(symbol, amount))`, which panics on a negative amount. -/
def oneCoin (env : BridgeEnv β) (symbol : String) (amount : ℤ) : Except BridgeErr Coins :=
  if amount < 0 then .error .panic
  else match newCoin env.chain symbol amount.toNat >>= fun coin => newCoins [coin] with
    | .ok coins => .ok coins
    | .error _ => .error .panic

def mintCoins (env : BridgeEnv β) (coins : Coins) : BridgeAction β Unit := do
  let s ← read
  match env.chain.bank.mintCoins s.bank ethbridgeModuleName coins with
  | .ok bank => modify (fun s => { s with bank := bank })
  | .error .refused => fail .errBank
  | .error .panicked => fail .panic

def payReceiver (env : BridgeEnv β) (receiver : AccAddress) (coins : Coins) : BridgeAction β Unit := do
  let s ← read
  match env.chain.bank.sendCoinsFromModuleToAccount s.bank ethbridgeModuleName receiver coins with
  | .ok bank => modify (fun s => { s with bank := bank })
  | .error _ => fail .panic

/-- The switch over the claim type in `ProcessSuccessfulClaim`, with the coins it minted. -/
def mintClaimed (env : BridgeEnv β) (content : OracleClaimContent) : BridgeAction β Coins :=
  match content.claimType with
  | .lock => do
      let symbol := peggedCoinPrefix ++ content.symbol
      addPeggyToken symbol
      let coins ← ofExcept (oneCoin env symbol content.amount)
      mintCoins env coins
      pure coins
  | .burn => do
      let coins ← ofExcept (oneCoin env content.symbol content.amount)
      mintCoins env coins
      pure coins
  | .unspecified => fail .errInvalidClaimType

def processSuccessfulClaim (env : BridgeEnv β) (claim : String) : BridgeAction β Unit := do
  let content ← ofExcept ((env.unmarshalContent claim).elim (.error .errJSONMarshalling) .ok)
  let coins ← mintClaimed env content
  payReceiver env content.cosmosReceiver coins

def onOracle {α : Type} (p : OracleAction α) : BridgeAction β α :=
  zoom BridgeState.oracle (fun o s => { s with oracle := o }) p

def processClaim (env : BridgeEnv β) (order : MapOrder) (c : EthBridgeClaim) : BridgeAction β Status := do
  let oracleClaim ← ofExcept (createOracleClaimFromEthClaim env c)
  onOracle (env.oracle.processClaim order oracleClaim)

/-- `CreateEthBridgeClaim` with its stateless checks. The status is what the handler reports. -/
def createEthBridgeClaim (env : BridgeEnv β) (order : MapOrder) (c : EthBridgeClaim) :
    BridgeAction β Status := do
  ofExcept (c.validateBasic env)
  let status ← processClaim env order c
  when (status.text = .success) (processSuccessfulClaim env status.finalClaim)
  pure status

/-- `UpdateWhiteListValidator` with its stateless checks. -/
def updateWhiteListValidator (env : BridgeEnv β) (cosmosSender validator operationType : String) :
    BridgeAction β Unit := do
  require (cosmosSender ≠ "") .errInvalidAddress
  require (validator ≠ "") .errInvalidAddress
  let sender ← ofExcept ((env.chain.accAddressFromBech32 cosmosSender).elim (.error .errBech32) .ok)
  let s ← read
  require ((s.accounts sender).isSome = true) .errUnknownAddress
  let valAddr ← ofExcept ((env.oracle.valAddressFromBech32 validator).elim (.error .errInvalidAddress) .ok)
  onOracle (OracleKeeper.processUpdateWhiteListValidator sender valAddr operationType)

end BridgeKeeper

/-- A message of the bridge, or what other modules do between two messages: coins and accounts
    change, and the validator set does. -/
inductive BridgeEvent (β : Type) where
  | createEthBridgeClaim (order : MapOrder) (c : EthBridgeClaim)
  | updateWhiteListValidator (cosmosSender validator operationType : String)
  | elsewhere (bank : β) (accounts : AccAddress → Option ℕ) (staking : Staking)

namespace BridgeEvent

def step (env : BridgeEnv β) : BridgeEvent β → BridgeState β → BridgeState β
  | .createEthBridgeClaim order c => transact (BridgeKeeper.createEthBridgeClaim env order c)
  | .updateWhiteListValidator sender validator operationType =>
      transact (BridgeKeeper.updateWhiteListValidator env sender validator operationType)
  | .elsewhere bank accounts staking => fun s =>
      { s with bank := bank, accounts := accounts, oracle := { s.oracle with staking := staking } }

/-- The prophecy for which the event executes `ProcessSuccessfulClaim` to its end: the handler
    does so when it reports a success, and a handler that fails leaves nothing behind. -/
def completes (env : BridgeEnv β) : BridgeEvent β → BridgeState β → Option String
  | .createEthBridgeClaim order c, s =>
      match ((BridgeKeeper.createEthBridgeClaim env order c).run s).1 with
      | .ok status => if status.text = .success then some (oracleID c) else none
      | .error _ => none
  | _, _ => none

end BridgeEvent

def runBridge (env : BridgeEnv β) (events : List (BridgeEvent β)) (s : BridgeState β) : BridgeState β :=
  EventRuns.run (BridgeEvent.step env) events s

end FuryNode
