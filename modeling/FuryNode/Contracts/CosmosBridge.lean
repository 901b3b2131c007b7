import FuryNode.Contracts.Valset

/-!
The CosmosBridge contract with its Oracle part: validators sign a transfer by submitting its
parameters, the hash of the packed parameters names the prophecy, and the call with which the
signed power reaches the threshold pays out what that call was given. The bank contract is a
parameter here, so it may refuse any call.
-/
namespace FuryNode
open StatefulProgram StatefulProgram.Prog

abbrev Uint256 := Fin (2 ^ 256)

/-- `ClaimType` of the contracts. -/
inductive ProphecyType where
  | unsupported
  | burn
  | lock
  deriving DecidableEq, Repr

structure ProphecyArgs where
  claimType : ProphecyType
  cosmosSender : List UInt8
  cosmosSenderSequence : Uint256
  ethereumReceiver : Address
  symbol : List UInt8
  amount : Uint256
  deriving DecidableEq, Repr

/-- The last `n` bytes of a number, the most significant one first. -/
def bigEndian : ℕ → ℕ → List UInt8
  | 0, _ => []
  | n + 1, x => bigEndian n (x / 256) ++ [(x % 256).toUInt8]

def ProphecyType.toUint8 : ProphecyType → UInt8
  | .unsupported => 0
  | .burn => 1
  | .lock => 2

/-- `abi.encodePacked` of the six parameters. -/
def encodePacked (p : ProphecyArgs) : List UInt8 :=
  [p.claimType.toUint8] ++ p.cosmosSender ++ bigEndian 32 p.cosmosSenderSequence ++
    bigEndian 20 p.ethereumReceiver ++ p.symbol ++ bigEndian 32 p.amount

structure BankContract (β : Type) where
  safeLowerToUpperTokens : β → List UInt8 → List UInt8
  getLockedTokenAddress : β → List UInt8 → Address
  getBridgeToken : β → List UInt8 → Address
  createNewBridgeToken : β → List UInt8 → Except String β
  unlock : β → Address → List UInt8 → ℕ → Except String β
  mintBridgeTokens : β → Address → List UInt8 → ℕ → Except String β

structure ContractEnv (H β : Type) where
  keccak256 : List UInt8 → H
  bank : BankContract β

structure CosmosBridgeState (H β : Type) where
  valset : ValsetState
  consensusThreshold : ℕ
  oracleClaimValidators : H → ℕ
  hasMadeClaim : H → Address → Bool
  bank : β

variable {H β : Type} [DecidableEq H]

abbrev ContractAction (H β α : Type) := Prog (CosmosBridgeState H β) String α

namespace CosmosBridge

def getProphecyThreshold (s : CosmosBridgeState H β) (id : H) : Except String Bool := do
  let prophecyPowerThreshold ← SafeMath.mul s.valset.totalPower s.consensusThreshold
  let prophecyPowerCurrent ← SafeMath.mul (s.oracleClaimValidators id) 100
  .ok (decide (prophecyPowerThreshold ≤ prophecyPowerCurrent))

def callBank (call : β → Except String β) : ContractAction H β Unit := do
  let s ← read
  let bank ← ofExcept (call s.bank)
  modify (fun s => { s with bank := bank })

def ethSymbol : List UInt8 := [101, 116, 104]

def openProphecy (env : ContractEnv H β) (p : ProphecyArgs) : ContractAction H β Unit := do
  let s ← read
  let symbol := env.bank.safeLowerToUpperTokens s.bank p.symbol
  match p.claimType with
  | .burn =>
      require (¬(env.bank.getLockedTokenAddress s.bank symbol = 0 ∧
        env.keccak256 symbol ≠ env.keccak256 ethSymbol)) "Invalid token address"
  | .lock =>
      when (env.bank.getBridgeToken s.bank symbol = 0)
        (callBank (fun b => env.bank.createNewBridgeToken b symbol))
  | .unsupported => fail "Invalid claim type, only burn and lock are supported."

def newOracleClaim (id : H) (validator : Address) : ContractAction H β Bool := do
  let s ← read
  require (s.hasMadeClaim id validator = false)
    "Cannot make duplicate oracle claims from the same address."
  let signed ← ofExcept (SafeMath.add (s.oracleClaimValidators id) (Valset.getValidatorPower s.valset validator))
  modify (fun s => { s with
    hasMadeClaim := Function.update s.hasMadeClaim id (Function.update (s.hasMadeClaim id) validator true)
    oracleClaimValidators := Function.update s.oracleClaimValidators id signed })
  let s ← read
  ofExcept (getProphecyThreshold s id)

/-- `completeProphecyClaim`, with the parameters of the call that completes the prophecy. -/
def completeProphecyClaim (env : ContractEnv H β) (p : ProphecyArgs) : ContractAction H β Unit :=
  callBank (fun b => match p.claimType with
    | .burn => env.bank.unlock b p.ethereumReceiver p.symbol p.amount
    | _ => env.bank.mintBridgeTokens b p.ethereumReceiver p.symbol p.amount)

def prophecyID (env : ContractEnv H β) (p : ProphecyArgs) : H := env.keccak256 (encodePacked p)

/-- `newProphecyClaim`, with whether it completed the prophecy. -/
def newProphecyClaim (env : ContractEnv H β) (sender : Caller) (p : ProphecyArgs) :
    ContractAction H β Bool := do
  let s ← read
  require (Valset.isActiveValidator s.valset sender.address = true) "Must be an active validator"
  let id := prophecyID env p
  let prophecyCompleted ← ofExcept (getProphecyThreshold s id)
  require (prophecyCompleted = false) "prophecyCompleted"
  when (s.oracleClaimValidators id = 0) (openProphecy env p)
  let claimComplete ← newOracleClaim id sender.address
  when (claimComplete = true) (completeProphecyClaim env p)
  pure claimComplete

def onValset (call : ValsetCall) : ContractAction H β Unit :=
  zoom CosmosBridgeState.valset (fun v s => { s with valset := v }) call.action

end CosmosBridge

inductive BridgeCall where
  | newProphecyClaim (sender : Caller) (p : ProphecyArgs)
  | valset (call : ValsetCall)
  deriving DecidableEq, Repr

namespace BridgeCall

def step (env : ContractEnv H β) : BridgeCall → CosmosBridgeState H β → CosmosBridgeState H β
  | .newProphecyClaim sender p => transact (CosmosBridge.newProphecyClaim env sender p)
  | .valset call => transact (CosmosBridge.onValset call)

/-- The prophecy that the call completes, if it does and is not reverted. -/
def completes (env : ContractEnv H β) : BridgeCall → CosmosBridgeState H β → Option H
  | .newProphecyClaim sender p, s =>
      match ((CosmosBridge.newProphecyClaim env sender p).run s).1 with
      | .ok true => some (CosmosBridge.prophecyID env p)
      | _ => none
  | .valset _, _ => none

/-- The signature that the call adds, if it is not reverted. -/
def signs (env : ContractEnv H β) : BridgeCall → CosmosBridgeState H β → Option (Address × ProphecyArgs)
  | .newProphecyClaim sender p, s =>
      match ((CosmosBridge.newProphecyClaim env sender p).run s).1 with
      | .ok _ => some (sender.address, p)
      | .error _ => none
  | .valset _, _ => none

end BridgeCall

def runContracts (env : ContractEnv H β) (calls : List BridgeCall) (s : CosmosBridgeState H β) :
    CosmosBridgeState H β :=
  EventRuns.run (BridgeCall.step env) calls s

def CosmosBridgeState.unsigned (s : CosmosBridgeState H β) : CosmosBridgeState H β :=
  { s with oracleClaimValidators := fun _ => 0, hasMadeClaim := fun _ _ => false }

end FuryNode
