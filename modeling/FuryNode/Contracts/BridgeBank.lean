import FuryNode.Contracts.CosmosBridge

/-!
The Ethereum side of the BridgeBank contract: which tokens may be locked, and how a symbol finds
the token to release. Tokens are looked up by symbol, and a table brings lower-case symbols
back to the spelling of the token. The tokens themselves and their balances are outside.
-/
namespace FuryNode
open StatefulProgram StatefulProgram.Prog

abbrev Symbol := List UInt8

/-- The contracts that the bank calls. A token has a fixed symbol, and there is no contract at
    the zero address. -/
structure TokenWorld (H τ : Type) where
  keccak256 : List UInt8 → H
  symbol : Address → Option Symbol
  safeTransferFrom : τ → Address → Address → ℕ → Except String τ
  safeTransfer : τ → Address → Address → ℕ → Except String τ
  sendEther : τ → Address → ℕ → Except String τ
  symbol_zero : symbol 0 = none

structure BridgeBankState (τ : Type) where
  operator : Address
  cosmosBridge : Address
  ethereumTokenWhiteList : Address → Bool
  lockedTokenList : Symbol → Address
  lowerToUpperTokens : Symbol → Symbol
  lockBurnNonce : ℕ
  paused : Bool
  hasBlocklist : Bool
  isBlocklisted : Address → Bool
  world : τ

abbrev BankAction (τ α : Type) := Prog (BridgeBankState τ) String α

variable {H τ : Type} [DecidableEq H]

namespace BridgeBank

def efurySymbol : Symbol := [101, 102, 117, 114, 121]

/-- The tables after `initialize`. -/
def initializedTables (s : BridgeBankState τ) : BridgeBankState τ :=
  { s with
    ethereumTokenWhiteList := fun token => decide (token = 0)
    lockedTokenList := fun _ => 0
    lowerToUpperTokens := Function.update (Function.update (fun _ => []) efurySymbol efurySymbol)
      CosmosBridge.ethSymbol CosmosBridge.ethSymbol }

def lowerByte (b : UInt8) : UInt8 := if 65 ≤ b ∧ b ≤ 90 then b + 32 else b

def toLower (str : Symbol) : Symbol := str.map lowerByte

def safeLowerToUpperTokens (env : TokenWorld H τ) (s : BridgeBankState τ) (symbol : Symbol) : Symbol :=
  let retrievedSymbol := s.lowerToUpperTokens symbol
  if env.keccak256 retrievedSymbol = env.keccak256 [] then symbol else retrievedSymbol

def onlyOperator (sender : Caller) : BankAction τ Unit := do
  let s ← read
  require (sender.address = s.operator) "!operator"

def onlyCosmosBridge (sender : Caller) : BankAction τ Unit := do
  let s ← read
  require (sender.address = s.cosmosBridge) "!cosmosbridge"

def onlyNotBlocklisted (account : Address) : BankAction τ Unit := do
  let s ← read
  require (s.hasBlocklist = true → s.isBlocklisted account = false) "Address is blocklisted"

def whenNotPaused : BankAction τ Unit := do
  let s ← read
  require (s.paused = false) "Pausable: paused"

/-- `validFuryAddress`, with the three bytes of `verifyFuryPrefix`. -/
def validFuryAddress (furyAddress : List UInt8) : BankAction τ Unit := do
  require (furyAddress.length = 42) "Invalid len"
  require (furyAddress.take 3 = [0x73, 0x69, 0x66]) "Invalid fury address"

/-- `BridgeToken(_token).symbol()`, which reverts where there is no such contract. -/
def symbolOf (env : TokenWorld H τ) (token : Address) : BankAction τ Symbol :=
  ofExcept ((env.symbol token).elim (.error "no symbol") .ok)

def setTokenInEthWhiteList (token : Address) (inList : Bool) : BankAction τ Unit :=
  modify (fun s => { s with ethereumTokenWhiteList := Function.update s.ethereumTokenWhiteList token inList })

/-- `lowerToUpperTokens[toLower(symbol)] = symbol`. -/
def registerSymbol (symbol : Symbol) : BankAction τ Unit :=
  modify (fun s => { s with lowerToUpperTokens := Function.update s.lowerToUpperTokens (toLower symbol) symbol })

def updateEthWhiteList (env : TokenWorld H τ) (sender : Caller) (token : Address) (inList : Bool) :
    BankAction τ Unit := do
  onlyOperator sender
  let symbol ← symbolOf env token
  let s ← read
  if inList = true then require (s.lockedTokenList symbol = 0) "whitelisted"
  else require (s.lockedTokenList symbol ≠ 0) "!whitelisted"
  registerSymbol symbol
  setTokenInEthWhiteList token inList

/-- One round of `bulkWhitelistUpdateLimits`, without the check of the single update. -/
def whitelistToken (env : TokenWorld H τ) (token : Address) : BankAction τ Unit := do
  setTokenInEthWhiteList token true
  let symbol ← symbolOf env token
  registerSymbol symbol

def bulkWhitelistUpdateLimits (env : TokenWorld H τ) (sender : Caller) (tokens : List Address) :
    BankAction τ Unit := do
  onlyOperator sender
  forEach (whitelistToken env) tokens

def callOut (call : τ → Except String τ) : BankAction τ Unit := do
  let s ← read
  let world ← ofExcept (call s.world)
  modify (fun s => { s with world := world })

def lockFunds (token : Address) (symbol : Symbol) : BankAction τ Unit := do
  let s ← read
  let lockBurnNonce ← ofExcept (SafeMath.add s.lockBurnNonce 1)
  modify (fun s => { s with
    lockBurnNonce := lockBurnNonce
    lockedTokenList := Function.update s.lockedTokenList symbol token })

/-- What `lock` takes in, with the symbol under which it is locked. -/
def receiveFunds (env : TokenWorld H τ) (sender : Caller) (value : ℕ) (token : Address) (amount : ℕ) :
    BankAction τ Symbol :=
  if 0 < value then do
    require (token = 0) "!address(0)"
    require (value = amount) "incorrect eth amount"
    pure CosmosBridge.ethSymbol
  else do
    callOut (fun w => env.safeTransferFrom w token sender.address amount)
    symbolOf env token

/-- `lock`, with the symbol of the token. -/
def lock (env : TokenWorld H τ) (sender : Caller) (value : ℕ) (recipient : List UInt8) (token : Address)
    (amount : ℕ) : BankAction τ Symbol := do
  let s ← read
  require (s.ethereumTokenWhiteList token = true) "Only token in whitelist can be transferred to cosmos"
  validFuryAddress recipient
  onlyNotBlocklisted sender.address
  whenNotPaused
  let symbol ← receiveFunds env sender value token amount
  lockFunds token symbol
  pure symbol

/-- The token that `unlock` releases for a symbol. -/
def resolve (env : TokenWorld H τ) (s : BridgeBankState τ) (symbol : Symbol) : Address :=
  s.lockedTokenList (safeLowerToUpperTokens env s symbol)

def unlockFunds (env : TokenWorld H τ) (recipient token : Address) (amount : ℕ) : BankAction τ Unit :=
  if token = 0 then callOut (fun w => env.sendEther w recipient amount)
  else callOut (fun w => env.safeTransfer w token recipient amount)

def unlock (env : TokenWorld H τ) (sender : Caller) (recipient : Address) (symbol : Symbol) (amount : ℕ) :
    BankAction τ Unit := do
  onlyCosmosBridge sender
  whenNotPaused
  onlyNotBlocklisted recipient
  let s ← read
  unlockFunds env recipient (resolve env s symbol) amount

end BridgeBank

/-- A call of the bank, or a change of its settings and of the world around it. -/
inductive BankCall (τ : Type) where
  | updateEthWhiteList (sender : Caller) (token : Address) (inList : Bool)
  | bulkWhitelistUpdateLimits (sender : Caller) (tokens : List Address)
  | lock (sender : Caller) (value : ℕ) (recipient : List UInt8) (token : Address) (amount : ℕ)
  | unlock (sender : Caller) (recipient : Address) (symbol : Symbol) (amount : ℕ)
  | elsewhere (operator cosmosBridge : Address) (paused hasBlocklist : Bool) (isBlocklisted : Address → Bool)
      (world : τ)

namespace BankCall

def step (env : TokenWorld H τ) : BankCall τ → BridgeBankState τ → BridgeBankState τ
  | .updateEthWhiteList sender token inList => transact (BridgeBank.updateEthWhiteList env sender token inList)
  | .bulkWhitelistUpdateLimits sender tokens => transact (BridgeBank.bulkWhitelistUpdateLimits env sender tokens)
  | .lock sender value recipient token amount =>
      transact (BridgeBank.lock env sender value recipient token amount)
  | .unlock sender recipient symbol amount => transact (BridgeBank.unlock env sender recipient symbol amount)
  | .elsewhere operator cosmosBridge paused hasBlocklist isBlocklisted world => fun s =>
      { s with
        operator := operator, cosmosBridge := cosmosBridge, paused := paused
        hasBlocklist := hasBlocklist, isBlocklisted := isBlocklisted, world := world }

/-- The token that the call locks, with its symbol, if it is not reverted. -/
def locks (env : TokenWorld H τ) : BankCall τ → BridgeBankState τ → Option (Address × Symbol)
  | .lock sender value recipient token amount, s =>
      match ((BridgeBank.lock env sender value recipient token amount).run s).1 with
      | .ok symbol => some (token, symbol)
      | .error _ => none
  | _, _ => none

end BankCall

def runBank (env : TokenWorld H τ) (calls : List (BankCall τ)) (s : BridgeBankState τ) : BridgeBankState τ :=
  EventRuns.run (BankCall.step env) calls s

end FuryNode
