import FuryNode.EthBridge.Keeper

/-!
Transfers to Ethereum. A transaction carries any number of `MsgLock` and `MsgBurn`; the
sequence of each signer goes up once for the transaction, then the handlers run, all of them or
none. Each handler emits an event with the sequence it finds, and the relayer reads the
event's attributes back into a message for the contract.
-/
namespace FuryNode
open StatefulProgram StatefulProgram.Prog

/-- `sdk.Int`. -/
structure SdkInt where
  value : ℤ
  fits : value.natAbs < 2 ^ 256
  deriving DecidableEq, Repr

inductive TransferErr where
  | errInvalidEthereumChainID
  | errInvalidAddress
  | errInvalidEthAddress
  | errInvalidAmount
  | errCethAmount
  | errInvalidSymbol
  | errInvalidBurnSymbol
  | errUnknownAddress
  | errPaused
  | errPeggedLocked
  | errNativeBurned
  | errBech32
  | errBank
  | panic
  deriving DecidableEq, Repr

/-- The fields that `MsgLock` and `MsgBurn` share. -/
structure Transfer where
  ethereumChainId : ℤ
  cosmosSender : String
  ethereumReceiver : String
  amount : SdkInt
  symbol : String
  cethAmount : SdkInt
  deriving DecidableEq, Repr

inductive TransferKind where
  | burn
  | lock
  deriving DecidableEq, Repr

structure TransferMsg where
  kind : TransferKind
  transfer : Transfer
  deriving DecidableEq, Repr

structure TransferEnv (β : Type) extends BridgeEnv β where
  sendCoins : β → AccAddress → AccAddress → Coins → Except BankFailure β

structure TransferState (β : Type) extends BridgeState β where
  paused : Bool
  blacklist : List String
  cethReceiverAccount : Option AccAddress

abbrev TransferAction (β α : Type) := Prog (TransferState β) TransferErr α

variable {β : Type}

def lockGasCost : ℤ := 60000000000 * 393000
def burnGasCost : ℤ := 60000000000 * 393000

/-- `MsgLock.ValidateBasic`. A chain id is never formatted as the empty text. -/
def Transfer.validateLock (geth : Geth) (m : Transfer) : Except TransferErr Unit := do
  check (toString m.ethereumChainId ≠ "") .errInvalidEthereumChainID
  check (m.cosmosSender ≠ "") .errInvalidAddress
  check (m.ethereumReceiver ≠ "") .errInvalidEthAddress
  check (geth.isHexAddress m.ethereumReceiver = true) .errInvalidEthAddress
  check (0 < m.amount.value) .errInvalidAmount
  check (lockGasCost ≤ m.cethAmount.value) .errCethAmount
  check (m.symbol.utf8ByteSize ≠ 0) .errInvalidSymbol

/-- `MsgBurn.ValidateBasic`. -/
def Transfer.validateBurn (geth : Geth) (m : Transfer) : Except TransferErr Unit := do
  check (m.ethereumChainId ≠ 0) .errInvalidEthereumChainID
  check (m.cosmosSender ≠ "") .errInvalidAddress
  check (m.ethereumReceiver ≠ "") .errInvalidEthAddress
  check (geth.isHexAddress m.ethereumReceiver = true) .errInvalidEthAddress
  check (0 < m.amount.value) .errInvalidAmount
  check (2 < m.symbol.utf8ByteSize) .errInvalidBurnSymbol
  check (m.symbol.toList.take 1 = BridgeKeeper.peggedCoinPrefix.toList) .errInvalidBurnSymbol
  check (burnGasCost ≤ m.cethAmount.value) .errCethAmount
  check (m.symbol.toList.drop 1 ≠ []) .errInvalidBurnSymbol

def TransferMsg.validateBasic (geth : Geth) (m : TransferMsg) : Except TransferErr Unit :=
  match m.kind with
  | .lock => m.transfer.validateLock geth
  | .burn => m.transfer.validateBurn geth

structure TransferEvent where
  kind : TransferKind
  attributes : List (String × String)
  deriving DecidableEq, Repr

namespace TransferKeeper
open BridgeKeeper

def cethSymbol : String := "ceth"

/-- `sdk.NewCoin`, which panics on a negative amount and on an invalid denom. -/
def coinOf (env : TransferEnv β) (symbol : String) (amount : ℤ) : Except TransferErr Coin :=
  if amount < 0 then .error .panic
  else match newCoin env.chain symbol amount.toNat with
    | .ok coin => .ok coin
    | .error _ => .error .panic

def coinsOf (coins : List Coin) : Except TransferErr Coins :=
  match newCoins coins with
  | .ok coins => .ok coins
  | .error _ => .error .panic

/-- `Int.Add`, which panics on overflow. -/
def addInt (a b : SdkInt) : Except TransferErr ℤ :=
  if (a.value + b.value).natAbs < 2 ^ 256 then .ok (a.value + b.value) else .error .panic

def onBank (call : β → Except BankFailure β) : TransferAction β Unit := do
  let s ← read
  match call s.bank with
  | .ok bank => modify (fun s => { s with bank := bank })
  | .error .refused => fail .errBank
  | .error .panicked => fail .panic

/-- The gas that goes to the ceth receiver, if there is one, and the coins that go to the
    module. `ProcessLock` and `ProcessBurn` differ for ceth itself. -/
def payGas (env : TransferEnv β) (sender : AccAddress) (m : TransferMsg) : TransferAction β Coins := do
  let s ← read
  match s.cethReceiverAccount with
  | some receiver => do
      let gas ← ofExcept (coinOf env cethSymbol m.transfer.cethAmount.value)
      let coins ← ofExcept (coinsOf [gas])
      onBank (fun b => env.sendCoins b sender receiver coins)
      let coin ← ofExcept (coinOf env m.transfer.symbol m.transfer.amount.value)
      ofExcept (coinsOf [coin])
  | none =>
      if m.kind = .burn ∧ m.transfer.symbol = cethSymbol then do
        let total ← ofExcept (addInt m.transfer.cethAmount m.transfer.amount)
        let coin ← ofExcept (coinOf env cethSymbol total)
        ofExcept (coinsOf [coin])
      else do
        let coin ← ofExcept (coinOf env m.transfer.symbol m.transfer.amount.value)
        let gas ← ofExcept (coinOf env cethSymbol m.transfer.cethAmount.value)
        ofExcept (coinsOf [coin, gas])

/-- `ProcessLock` and `ProcessBurn`. -/
def process (env : TransferEnv β) (sender : AccAddress) (m : TransferMsg) : TransferAction β Unit := do
  let s ← read
  require (m.transfer.ethereumReceiver ∉ s.blacklist) .errInvalidEthAddress
  let coins ← payGas env sender m
  onBank (fun b => env.chain.bank.sendCoinsFromAccountToModule b sender ethbridgeModuleName coins)
  let coin ← ofExcept (coinOf env m.transfer.symbol m.transfer.amount.value)
  let burned ← ofExcept (coinsOf [coin])
  onBank (fun b => env.chain.bank.burnCoins b ethbridgeModuleName burned)

def eventOf (m : TransferMsg) (sequence : ℕ) : TransferEvent :=
  ⟨m.kind, [("ethereum_chain_id", toString m.transfer.ethereumChainId),
    ("cosmos_sender", m.transfer.cosmosSender),
    ("cosmos_sender_sequence", toString sequence),
    ("ethereum_receiver", m.transfer.ethereumReceiver),
    ("amount", toString m.transfer.amount.value),
    ("symbol", m.transfer.symbol),
    ("ceth_amount", toString m.transfer.cethAmount.value)]⟩

/-- `Lock` locks what is not pegged, `Burn` burns what is. -/
def checkPegged (s : TransferState β) (m : TransferMsg) : Except TransferErr Unit :=
  match m.kind with
  | .lock => check (existsPeggyToken s.toBridgeState m.transfer.symbol = false) .errPeggedLocked
  | .burn => check (existsPeggyToken s.toBridgeState m.transfer.symbol = true) .errNativeBurned

/-- `Lock` and `Burn`. -/
def handle (env : TransferEnv β) (m : TransferMsg) : TransferAction β TransferEvent := do
  let s ← read
  require (s.paused = false) .errPaused
  ofExcept (checkPegged s m)
  let sender ← ofExcept ((env.chain.accAddressFromBech32 m.transfer.cosmosSender).elim (.error .errBech32) .ok)
  let sequence ← ofExcept ((s.accounts sender).elim (.error .errInvalidAddress) .ok)
  process env sender m
  pure (eventOf m sequence)

def handleAll (env : TransferEnv β) (msgs : List TransferMsg) : TransferAction β (List TransferEvent) :=
  accumulate (fun events m => do
    let event ← handle env m
    pure (events ++ [event])) [] msgs

/-- `GetSigners`, which panics on a sender that is no address. -/
def getSigner (env : TransferEnv β) (m : TransferMsg) : Except TransferErr AccAddress :=
  (env.chain.accAddressFromBech32 m.transfer.cosmosSender).elim (.error .panic) .ok

def incrementSequence (signer : AccAddress) : TransferAction β Unit := do
  let s ← read
  let sequence ← ofExcept ((s.accounts signer).elim (.error .errUnknownAddress) .ok)
  modify (fun s => { s with accounts := Function.update s.accounts signer (some (sequence + 1)) })

/-- What comes before the handlers: the stateless checks, and the sequence of every signer goes
    up once. -/
def anteHandler (env : TransferEnv β) (msgs : List TransferMsg) : TransferAction β Unit := do
  ofExcept (msgs.forM (TransferMsg.validateBasic env.geth))
  let signers ← ofExcept (msgs.mapM (getSigner env))
  forEach incrementSequence signers.dedup

/-- The state after a transaction and the events it emits. A failure before the handlers leaves
    nothing, a failure of a handler leaves the sequences. -/
def deliverTx (env : TransferEnv β) (msgs : List TransferMsg) (s : TransferState β) :
    TransferState β × List TransferEvent :=
  match (anteHandler env msgs).run s with
  | (.error _, _) => (s, [])
  | (.ok _, t) =>
      match (handleAll env msgs).run t with
      | (.error _, _) => (t, [])
      | (.ok events, u) => (u, events)

end TransferKeeper

inductive OutgoingEvent (β : Type) where
  | deliverTx (msgs : List TransferMsg)
  | elsewhere (next : TransferState β)

/-- Accounts stay, and their sequences do not fall. -/
def laterSequence : Option ℕ → Option ℕ → Option ℕ
  | none, later => later
  | some now, none => some now
  | some now, some later => some (max now later)

namespace OutgoingEvent

def step (env : TransferEnv β) : OutgoingEvent β → TransferState β → TransferState β
  | .deliverTx msgs => fun s => (TransferKeeper.deliverTx env msgs s).1
  | .elsewhere next => fun s =>
      { next with accounts := fun a => laterSequence (s.accounts a) (next.accounts a) }

def emitted (env : TransferEnv β) : OutgoingEvent β → TransferState β → List TransferEvent
  | .deliverTx msgs => fun s => (TransferKeeper.deliverTx env msgs s).2
  | .elsewhere _ => fun _ => []

end OutgoingEvent

def emittedIn (env : TransferEnv β) : List (OutgoingEvent β) → TransferState β → List TransferEvent
  | [], _ => []
  | e :: rest, s => e.emitted env s ++ emittedIn env rest (e.step env s)

/-! The relayer. -/

/-- `CosmosMsg`; a text stands for its bytes, and pointers may be nil. -/
structure CosmosMsg where
  claimType : TransferKind
  cosmosSender : String
  cosmosSenderSequence : Option ℤ
  ethereumReceiver : EthereumAddress
  symbol : String
  amount : Option SdkInt
  deriving DecidableEq, Repr

/-- What the relayer is run with: its symbol table, and the parsers of `big.Int` and `sdk.Int`,
    which read back what the types print. -/
structure Relayer where
  geth : Geth
  symbolTable : String → Option String
  setString : String → Option ℤ
  newIntFromString : String → Option SdkInt
  setString_print : ∀ n : ℕ, setString (toString n) = some (n : ℤ)
  newInt_print : ∀ i : SdkInt, newIntFromString (toString i.value) = some i

inductive RelayErr where
  | invalidAccountSequence
  | invalidRecipientAddress
  | notPrefixed
  | invalidAmount
  | messageNotComplete
  deriving DecidableEq, Repr

namespace Relayer

def furynetToEthereum (relayer : Relayer) (denom : String) : String :=
  (relayer.symbolTable denom).getD denom

def defaultFurynetPrefix : Char := 'c'

/-- The pieces after the first one of `strings.SplitAfter`, joined. -/
def afterPrefix (symbol : String) : String :=
  String.ofList ((symbol.toList.dropWhile (· ≠ defaultFurynetPrefix)).drop 1)

structure Parsed where
  msg : CosmosMsg
  attributeNumber : ℕ
  deriving DecidableEq, Repr

def zeroAddress : EthereumAddress := ⟨List.replicate 20 0⟩

def blank (claimType : TransferKind) : Parsed := ⟨⟨claimType, "", none, zeroAddress, "", none⟩, 0⟩

def translate (relayer : Relayer) (claimType : TransferKind) (symbol : String) : Except RelayErr String :=
  match claimType with
  | .lock => .ok (relayer.furynetToEthereum symbol)
  | .burn => if defaultFurynetPrefix ∈ symbol.toList then .ok (afterPrefix symbol) else .error .notPrefixed

def readAttribute (relayer : Relayer) (p : Parsed) (entry : String × String) :
    Except RelayErr Parsed :=
  if entry.1 = "cosmos_sender" then
    .ok ⟨{ p.msg with cosmosSender := entry.2 }, p.attributeNumber + 1⟩
  else if entry.1 = "cosmos_sender_sequence" then
    match relayer.setString entry.2 with
    | none => .error .invalidAccountSequence
    | some n => .ok ⟨{ p.msg with cosmosSenderSequence := some n }, p.attributeNumber + 1⟩
  else if entry.1 = "ethereum_receiver" then
    if relayer.geth.isHexAddress entry.2 then
      .ok ⟨{ p.msg with ethereumReceiver := relayer.geth.hexToAddress entry.2 }, p.attributeNumber + 1⟩
    else .error .invalidRecipientAddress
  else if entry.1 = "symbol" then
    match relayer.translate p.msg.claimType entry.2 with
    | .error e => .error e
    | .ok symbol => .ok ⟨{ p.msg with symbol := symbol }, p.attributeNumber + 1⟩
  else if entry.1 = "amount" then
    match relayer.newIntFromString entry.2 with
    | none => .error .invalidAmount
    | some n => .ok ⟨{ p.msg with amount := some n }, p.attributeNumber + 1⟩
  else .ok p

def burnLockEventToCosmosMsg (relayer : Relayer) (event : TransferEvent) : Except RelayErr CosmosMsg := do
  let parsed ← event.attributes.foldlM relayer.readAttribute (blank event.kind)
  if parsed.attributeNumber < 5 then .error .messageNotComplete else .ok parsed.msg

/-- `MessageProcessed`: a claim is known by its sender and sequence alone. -/
def messageProcessed (message : CosmosMsg) (claims : List (String × ℤ)) : Bool :=
  claims.any (fun claim => message.cosmosSender = claim.1 && message.cosmosSenderSequence = some claim.2)

end Relayer
end FuryNode
