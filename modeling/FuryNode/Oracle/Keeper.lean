import FuryNode.Library.EventRuns
import FuryNode.Library.WeightedVotes
import FuryNode.Sdk.Chain

/-!
The keeper of x/oracle: validators on a list claim a content for a prophecy, and the
prophecy is decided once the claims for one content hold enough of the power of the list.
The validator set belongs to the staking module and may change between two claims in any
way. A Go map is a table whose rows are visited in the order a `MapOrder` gives.
-/
namespace FuryNode
open StatefulProgram StatefulProgram.Prog KeyedTable

/-- An operator address that has passed `VerifyAddressFormat`. -/
structure ValAddress where
  bytes : List UInt8
  sized : 0 < bytes.length ∧ bytes.length ≤ 255
  deriving DecidableEq, Repr

instance : StoreOrder ValAddress := ⟨fun a b => decide (a.bytes ≤ b.bytes)⟩

structure Validator where
  operator : ValAddress
  tokens : ℕ
  bonded : Bool
  deriving DecidableEq, Repr

/-- `sdk.DefaultPowerReduction` as the application sets it. -/
def powerReduction : ℕ := 10 ^ 18

/-- `GetConsensusPower`. The powers of a validator set add up far below 2^63, so the sums of
    the source are exact. -/
def Validator.getConsensusPower (v : Validator) : ℕ := if v.bonded then v.tokens / powerReduction else 0

abbrev Staking := Table Validator.operator

namespace Staking

def getValidator (s : Staking) (a : ValAddress) : Option Validator := s.get a

def getBondedValidatorsByPower (s : Staking) : List Validator :=
  (s.rows.filter (fun v => v.bonded)).insertionSort (fun a b => b.tokens ≤ a.tokens)

end Staking

structure Codec (α : Type) where
  marshal : α → Option String
  unmarshal : String → Option α
  lossless : ∀ a text, marshal a = some text → unmarshal text = some a

inductive StatusText where
  | unspecified
  | pending
  | success
  | failed
  deriving DecidableEq, Repr

structure Status where
  text : StatusText
  finalClaim : String
  deriving DecidableEq, Repr

/-- An entry of `ClaimValidators`: a content and those who claimed it. -/
structure ClaimEntry where
  content : String
  validators : List ValAddress
  deriving DecidableEq, Repr

/-- An entry of `ValidatorClaims`: a validator and the content it claimed. -/
structure VoteEntry where
  validator : String
  content : String
  deriving DecidableEq, Repr

abbrev ClaimValidators := Table ClaimEntry.content
abbrev ValidatorClaims := Table VoteEntry.validator

structure Prophecy where
  id : String
  status : Status
  claimValidators : ClaimValidators
  validatorClaims : ValidatorClaims

structure DBProphecy where
  id : String
  status : Status
  claimValidators : String
  validatorClaims : String
  deriving DecidableEq, Repr

structure Claim where
  id : String
  validatorAddress : String
  content : String
  deriving DecidableEq, Repr

inductive BridgeErr where
  | errValidatorNotInWhiteList
  | errBech32
  | errInvalidValidator
  | errInvalidIdentifier
  | errInvalidClaim
  | errProphecyFinalized
  | errDuplicateMessage
  | errJSON
  | errNotAdminAccount
  | errInvalidOperationType
  | errInvalidAddress
  | errUnknownAddress
  | errInvalidEthNonce
  | errInvalidEthAddress
  | errInvalidEthSymbol
  | errInvalidClaimType
  | errJSONMarshalling
  | errBank
  | panic
  deriving DecidableEq, Repr

/-- The oracle keeper with the encodings it uses. `NewKeeper` panics on a threshold outside
    its range. -/
structure OracleKeeper where
  consensusNeeded : ℚ
  positive : 0 < consensusNeeded
  atMostOne : consensusNeeded ≤ 1
  valAddressFromBech32 : String → Option ValAddress
  valAddressString : ValAddress → String
  claimValidatorsJSON : Codec ClaimValidators
  validatorClaimsJSON : Codec ValidatorClaims
  decode_string : ∀ a, valAddressFromBech32 (valAddressString a) = some a

structure OracleState where
  prophecies : Table DBProphecy.id
  whiteList : List ValAddress
  adminAccount : Option AccAddress
  staking : Staking

abbrev OracleAction (α : Type) := Prog OracleState BridgeErr α

/-- A quotient of two integers in `float64`. Finite quotients are taken exactly. -/
inductive FloatRatio where
  | nan
  | negInf
  | finite (q : ℚ)
  | posInf
  deriving DecidableEq, Repr

namespace FloatRatio

def div (a b : ℤ) : FloatRatio :=
  if b ≠ 0 then .finite (a / b) else if 0 < a then .posInf else if a < 0 then .negInf else .nan

/-- `r >= q`, which no comparison with a NaN is. -/
def ge : FloatRatio → ℚ → Bool
  | .nan, _ => false
  | .negInf, _ => false
  | .finite r, q => q ≤ r
  | .posInf, _ => true

/-- `r < q`. -/
def lt : FloatRatio → ℚ → Bool
  | .nan, _ => false
  | .negInf, _ => true
  | .finite r, q => r < q
  | .posInf, _ => false

end FloatRatio

namespace Prophecy

/-- `NewProphecy`. -/
def new (id : String) : Prophecy := ⟨id, ⟨.pending, ""⟩, .empty, .empty⟩

/-- `ClaimValidators[content]`. -/
def claimers (p : Prophecy) (content : String) : List ValAddress :=
  ((p.claimValidators.get content).map ClaimEntry.validators).getD []

/-- `ValidatorClaims[validator]`, the empty string for a missing key. -/
def claimOf (p : Prophecy) (validator : String) : String :=
  ((p.validatorClaims.get validator).map VoteEntry.content).getD ""

def addClaim (k : OracleKeeper) (p : Prophecy) (validator : ValAddress) (claim : String) : Prophecy :=
  { p with
    claimValidators := p.claimValidators.put ⟨claim, p.claimers claim ++ [validator]⟩
    validatorClaims := p.validatorClaims.put ⟨k.valAddressString validator, claim⟩ }

def serializeForDB (k : OracleKeeper) (p : Prophecy) : Except BridgeErr DBProphecy := do
  let claimValidators ← (k.claimValidatorsJSON.marshal p.claimValidators).elim (.error .errJSON) .ok
  let validatorClaims ← (k.validatorClaimsJSON.marshal p.validatorClaims).elim (.error .errJSON) .ok
  .ok ⟨p.id, p.status, claimValidators, validatorClaims⟩

end Prophecy

def DBProphecy.deserializeFromDB (k : OracleKeeper) (db : DBProphecy) : Option Prophecy := do
  let claimValidators ← k.claimValidatorsJSON.unmarshal db.claimValidators
  let validatorClaims ← k.validatorClaimsJSON.unmarshal db.validatorClaims
  some ⟨db.id, db.status, claimValidators, validatorClaims⟩

def inWhiteList (validator : Validator) (whiteList : List ValAddress) : Bool :=
  whiteList.any (fun a => validator.operator = a)

/-- What the loop of `FindHighestClaim` over the claims carries along. -/
structure ClaimTally where
  totalClaimsPower : ℤ
  highestClaimPower : ℤ
  highestClaim : String
  deriving DecidableEq, Repr

namespace Prophecy
variable (k : OracleKeeper)

def addListedPower (whiteList : List ValAddress) (total : ℤ) (v : Validator) : ℤ :=
  if inWhiteList v whiteList then total + v.getConsensusPower else total

def totalPower (validators : List Validator) (whiteList : List ValAddress) : ℤ :=
  validators.foldl (addListedPower whiteList) 0

def validatorsByAddress (validators : List Validator) : String → Option Validator :=
  validators.foldl (fun index v => Function.update index (k.valAddressString v.operator) (some v))
    (fun _ => none)

/-- A claimant that is not among the validators any more adds nothing. -/
def addPower (validators : List Validator) (power : ℤ) (a : ValAddress) : ℤ :=
  match validatorsByAddress k validators (k.valAddressString a) with
  | some v => power + v.getConsensusPower
  | none => power

def claimPower (validators : List Validator) (validatorAddrs : List ValAddress) : ℤ :=
  validatorAddrs.foldl (addPower k validators) 0

def tallyEntry (validators : List Validator) (t : ClaimTally) (entry : ClaimEntry) : ClaimTally :=
  let power := claimPower k validators entry.validators
  if t.highestClaimPower < power then ⟨t.totalClaimsPower + power, power, entry.content⟩
  else ⟨t.totalClaimsPower + power, t.highestClaimPower, t.highestClaim⟩

/-- `FindHighestClaim`, with the total power of the list as its second part. -/
def findHighestClaim (order : MapOrder) (p : Prophecy) (staking : Staking)
    (whiteList : List ValAddress) : ClaimTally × ℤ :=
  let validators := staking.getBondedValidatorsByPower
  ((order.arrange p.claimValidators.rows).foldl (tallyEntry k validators) ⟨0, -1, ""⟩,
    totalPower validators whiteList)

end Prophecy

namespace OracleKeeper
variable (k : OracleKeeper)

/-- `GetProphecy`, which takes a record that does not parse for a missing one. -/
def getProphecy (s : OracleState) (id : String) : Option Prophecy :=
  (s.prophecies.get id).bind (DBProphecy.deserializeFromDB k)

def setProphecy (p : Prophecy) : OracleAction Unit := do
  let db ← ofExcept (p.serializeForDB k)
  modify (fun s => { s with prophecies := s.prophecies.put db })

def checkActiveValidator (s : OracleState) (a : ValAddress) : Bool :=
  match s.staking.getValidator a with
  | some v => v.bonded
  | none => false

def processCompletion (order : MapOrder) (s : OracleState) (p : Prophecy) : Prophecy :=
  let (t, totalPower) := p.findHighestClaim k order s.staking s.whiteList
  let highestConsensusRatio := FloatRatio.div t.highestClaimPower totalPower
  let remainingPossibleClaimPower := totalPower - t.totalClaimsPower
  let highestPossibleClaimPower := t.highestClaimPower + remainingPossibleClaimPower
  let highestPossibleConsensusRatio := FloatRatio.div highestPossibleClaimPower totalPower
  if highestConsensusRatio.ge k.consensusNeeded then { p with status := ⟨.success, t.highestClaim⟩ }
  else if highestPossibleConsensusRatio.lt k.consensusNeeded then
    { p with status := ⟨.failed, p.status.finalClaim⟩ }
  else p

def processClaim (order : MapOrder) (claim : Claim) : OracleAction Status := do
  let s ← read
  require (s.whiteList.any (fun a => k.valAddressString a = claim.validatorAddress) = true)
    .errValidatorNotInWhiteList
  let valAddr ← ofExcept ((k.valAddressFromBech32 claim.validatorAddress).elim (.error .errBech32) .ok)
  require (checkActiveValidator s valAddr = true) .errInvalidValidator
  require (claim.id ≠ "") .errInvalidIdentifier
  require (claim.content ≠ "") .errInvalidClaim
  let prophecy := (getProphecy k s claim.id).getD (.new claim.id)
  require (prophecy.status.text = .pending) .errProphecyFinalized
  require (prophecy.claimOf claim.validatorAddress = "") .errDuplicateMessage
  let decided := processCompletion k order s (prophecy.addClaim k valAddr claim.content)
  setProphecy k decided
  pure decided.status

def isAdminAccount (s : OracleState) (a : AccAddress) : Bool :=
  match s.adminAccount with
  | some admin => admin = a
  | none => false

/-- `AddOracleWhiteList`, which does not look for the validator first. -/
def addOracleWhiteList (validator : ValAddress) : OracleAction Unit :=
  modify (fun s => { s with whiteList := s.whiteList ++ [validator] })

def removeOracleWhiteList (validator : ValAddress) : OracleAction Unit :=
  modify (fun s => { s with whiteList := s.whiteList.filter (fun a => validator ≠ a) })

def processUpdateWhiteListValidator (cosmosSender : AccAddress) (validator : ValAddress)
    (operationtype : String) : OracleAction Unit := do
  let s ← read
  require (isAdminAccount s cosmosSender = true) .errNotAdminAccount
  if operationtype = "add" then addOracleWhiteList validator
  else if operationtype = "remove" then removeOracleWhiteList validator
  else fail .errInvalidOperationType

end OracleKeeper

/-- A claim with the order in which the node that handles it visits maps, an update of the
    list, or a change of the validator set by the staking module. -/
inductive OracleEvent where
  | claim (order : MapOrder) (c : Claim)
  | updateWhiteList (sender : AccAddress) (validator : ValAddress) (operationtype : String)
  | restake (staking : Staking)

namespace OracleEvent

def step (k : OracleKeeper) : OracleEvent → OracleState → OracleState
  | .claim order c => transact (k.processClaim order c)
  | .updateWhiteList sender validator operationtype =>
      transact (OracleKeeper.processUpdateWhiteListValidator sender validator operationtype)
  | .restake staking => fun s => { s with staking := staking }

end OracleEvent

def runOracle (k : OracleKeeper) (events : List OracleEvent) (s : OracleState) : OracleState :=
  EventRuns.run (OracleEvent.step k) events s

end FuryNode
