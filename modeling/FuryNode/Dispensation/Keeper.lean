import FuryNode.Library.EventRuns
import FuryNode.Sdk.LedgerBank

/-!
x/dispensation. A distributor pays the outputs of a distribution into the module account and
names a runner; the runner pays them out record by record. Records lie in one store under
three leading bytes, one for each status, and their keys are texts joined by underscores.
-/
namespace FuryNode.Dispensation
open StatefulProgram StatefulProgram.Prog KeyedTable

inductive DistributionType where
  | unspecified
  | airdrop
  | validatorSubsidy
  | liquidityMining
  deriving DecidableEq, Repr

/-- The number `%d` prints. -/
def DistributionType.code : DistributionType → ℕ
  | .unspecified => 0
  | .airdrop => 1
  | .validatorSubsidy => 2
  | .liquidityMining => 3

/-- `IsValidDistributionType`. -/
def DistributionType.isValid : DistributionType → Bool
  | .airdrop | .liquidityMining | .validatorSubsidy => true
  | .unspecified => false

/-- `IsValidClaimType`, and `DoesTypeSupportClaim` of a record of the type. -/
def DistributionType.isValidClaimType : DistributionType → Bool
  | .liquidityMining | .validatorSubsidy => true
  | .airdrop | .unspecified => false

inductive DistributionStatus where
  | unspecified
  | pending
  | completed
  | failed
  deriving DecidableEq, Repr

structure DistributionRecord where
  distributionStatus : DistributionStatus
  distributionType : DistributionType
  distributionName : String
  recipientAddress : String
  coins : Coins
  distributionStartHeight : ℤ
  distributionCompletedHeight : ℤ
  authorizedRunner : String
  deriving DecidableEq, Repr

structure Distribution where
  distributionType : DistributionType
  distributionName : String
  runner : String
  deriving DecidableEq, Repr

structure Timestamp where
  seconds : ℤ
  nanos : ℕ
  deriving DecidableEq, Repr

structure UserClaim where
  userAddress : String
  userClaimType : DistributionType
  userClaimTime : Timestamp
  deriving DecidableEq, Repr

structure MintController where
  totalCounter : Coin
  deriving DecidableEq, Repr

structure RecordKey where
  leading : ℕ
  text : String
  deriving DecidableEq, Repr

def DistributionStatus.leading : DistributionStatus → ℕ
  | .pending => 0x00
  | .completed => 0x11
  | .failed => 0x12
  | .unspecified => 0x11

/-- `%s_%d_%s`, in the keys of records with the recipient last, in those of distributions
    with the runner. -/
def joined (name : String) (type : DistributionType) (address : String) : String :=
  name ++ "_" ++ toString type.code ++ "_" ++ address

def getDistributionRecordKey (status : DistributionStatus) (name recipient : String)
    (type : DistributionType) : RecordKey :=
  ⟨status.leading, joined name type recipient⟩

def getDistributionsKey (name : String) (type : DistributionType) (authorizedRunner : String) :
    String :=
  joined name type authorizedRunner

def getUserClaimKey (userAddress : String) (userClaimType : DistributionType) : String :=
  userAddress ++ "_" ++ toString userClaimType.code

instance : StoreOrder RecordKey :=
  ⟨fun a b => a.leading < b.leading || (a.leading = b.leading && decide (a.text ≤ b.text))⟩

def DistributionRecord.key (r : DistributionRecord) : RecordKey :=
  getDistributionRecordKey r.distributionStatus r.distributionName r.recipientAddress
    r.distributionType

def Distribution.key (d : Distribution) : String :=
  getDistributionsKey d.distributionName d.distributionType d.runner
def UserClaim.key (c : UserClaim) : String := getUserClaimKey c.userAddress c.userClaimType

/-- The bech32 of an account has no underscore: neither its human-readable part, which is
    fixed, nor the alphabet of its data part has one. -/
structure DispensationEnv (β : Type) extends Env β where
  address_plain : ∀ s a, accAddressFromBech32 s = some a → '_' ∉ s.toList

/-- A transfer out of the module account for a record, and the runner who asked for it. -/
structure Payout where
  record : DistributionRecord
  runner : String
  deriving DecidableEq, Repr

structure Store (β : Type) where
  bank : β
  height : ℤ
  blockTime : Timestamp
  records : Table DistributionRecord.key
  distributions : Table Distribution.key
  claims : Table UserClaim.key
  mintController : Option MintController
  /-- The transfers the bank has made for records, as its events list them. -/
  payouts : List Payout

abbrev DispensationAction (β α : Type) := Prog (Store β) Failure α

variable {β : Type}

def moduleName : String := "dispensation"
def maxMintAmount : ℕ := 350000000000000000000000000
def mintAmountPerBlock : ℕ := 225000000000000000000
def ecoPool : String := "fury1ct2s3t8u2kffjpaekhtngzv6yc4vm97xajqyl3"
def maxRecordsPerBlock : ℤ := 20

/-- A call of the bank whose error the caller handles; a panic passes through. -/
def tryBank (call : β → Except BankFailure β) : DispensationAction β Bool := do
  let s ← Prog.read
  match call s.bank with
  | .ok b => do
      modify (fun s => { s with bank := b })
      pure true
  | .error .refused => pure false
  | .error .panicked => fail (.panic .bankPanicked)

/-- `errors.Wrapf`. -/
def wrapped {α : Type} (outer : Err) (p : DispensationAction β α) : DispensationAction β α := do
  match ← attempt p with
  | .ok a => pure a
  | .error e => fail (wrap outer e)

def DistributionRecord.validate (env : DispensationEnv β) (r : DistributionRecord) : Bool :=
  decide (r.recipientAddress.utf8ByteSize ≠ 0) && Coins.isValid env.toEnv r.coins &&
    Coins.isAllPositive r.coins

def setDistributionRecord (env : DispensationEnv β) (r : DistributionRecord) :
    DispensationAction β Unit := do
  require (r.validate env = true) (.err .errInvalid)
  modify (fun s => { s with records := s.records.put r })

def deleteDistributionRecord (distributionName recipientAddress : String)
    (status : DistributionStatus) (type : DistributionType) : DispensationAction β Unit := do
  let key := getDistributionRecordKey status distributionName recipientAddress type
  let s ← Prog.read
  require ((s.records.get key).isSome = true) (.err .errInvalid)
  modify (fun s => { s with records := s.records.delete key })

def changeRecordStatus (env : DispensationEnv β) (dr : DistributionRecord) (height : ℤ)
    (newStatus : DistributionStatus) : DispensationAction β Unit := do
  wrapped .errDistribution (setDistributionRecord env
    { dr with distributionStatus := newStatus, distributionCompletedHeight := height })
  wrapped .errDistribution (deleteDistributionRecord dr.distributionName dr.recipientAddress
    dr.distributionStatus dr.distributionType)

def distributionRecords (s : Store β) (status : DistributionStatus) : List DistributionRecord :=
  s.records.rows.filter (fun r => r.key.leading = status.leading)

/-- A negative count is never reached and so is no limit. -/
def getLimitedRecordsForRunner (s : Store β) (distributionName authorizedRunner : String)
    (type : DistributionType) (status : DistributionStatus) (distributionCount : ℤ) :
    List DistributionRecord :=
  let matching := (distributionRecords s status).filter (fun r =>
    r.distributionName = distributionName ∧ r.distributionStatus = .pending ∧
      r.authorizedRunner = authorizedRunner ∧ r.distributionType = type)
  if distributionCount < 0 then matching else matching.take distributionCount.toNat

structure Output where
  address : String
  coins : Coins
  deriving DecidableEq, Repr

/-- `NewDistributionRecord` as `CreateDrops` calls it. -/
def newDistributionRecord (type : DistributionType) (name recipientAddress : String)
    (coins : Coins) (start : ℤ) (runner : String) : DistributionRecord where
  distributionStatus := .pending
  distributionType := type
  distributionName := name
  recipientAddress := recipientAddress
  coins := coins
  distributionStartHeight := start
  distributionCompletedHeight := -1
  authorizedRunner := runner

/-- A pending record under the same key is merged into the new one, which keeps its other
    fields. -/
def mergedRecord (records : Table DistributionRecord.key) (record : DistributionRecord) :
    Fallible DistributionRecord :=
  match records.get record.key with
  | some oldRecord => do
      let coins ← record.coins.addAll oldRecord.coins
      pure { record with coins := coins }
  | none => .ok record

/-- One round of `CreateDrops`. -/
def createDrop (env : DispensationEnv β) (name : String) (type : DistributionType)
    (authorizedRunner : String) (receiver : Output) : DispensationAction β Unit := do
  let s ← Prog.read
  let record := newDistributionRecord type name receiver.address receiver.coins s.height
    authorizedRunner
  let merged ← ofExcept (mergedRecord s.records record)
  wrapped .errFailedOutputs (setDistributionRecord env merged)

def createDrops (env : DispensationEnv β) (output : List Output) (name : String)
    (type : DistributionType) (authorizedRunner : String) : DispensationAction β Unit :=
  forEach (createDrop env name type authorizedRunner) output

def deleteClaim (recipient : String) (userClaimType : DistributionType) :
    DispensationAction β Unit :=
  modify (fun s => { s with claims := s.claims.delete (getUserClaimKey recipient userClaimType) })

/-- After the transfer for a record went through. The funds are taken back if the record
    cannot be marked. -/
def completeDrop (env : DispensationEnv β) (height : ℤ) (recipientAddress : AccAddress)
    (record : DistributionRecord) : DispensationAction β Unit := do
  match ← attempt (changeRecordStatus env record height .completed) with
  | .ok _ =>
      when (record.distributionType.isValidClaimType = true)
        (deleteClaim record.recipientAddress record.distributionType)
  | .error _ => do
      let returned ← tryBank (fun b =>
        env.bank.sendCoinsFromAccountToModule b recipientAddress moduleName record.coins)
      require (returned = true) (.panic .unableToSetDistributionRecord)

/-- One round of `DistributeDrops`. -/
def distributeDrop (env : DispensationEnv β) (height : ℤ) (authorizedRunner : String)
    (record : DistributionRecord) : DispensationAction β Unit :=
  match env.accAddressFromBech32 record.recipientAddress with
  | none => pure ()
  | some recipientAddress => do
      let sent ← tryBank (fun b =>
        env.bank.sendCoinsFromModuleToAccount b moduleName recipientAddress record.coins)
      if sent then do
        modify (fun s => { s with payouts := s.payouts ++ [⟨record, authorizedRunner⟩] })
        completeDrop env height recipientAddress record
      else
        match ← attempt (changeRecordStatus env record height .failed) with
        | .ok _ => pure ()
        | .error _ => fail (.panic .unableToSetDistributionRecord)

def distributeDrops (env : DispensationEnv β) (height : ℤ) (distributionName : String)
    (authorizedRunner : String) (type : DistributionType) (distributionCount : ℤ) :
    DispensationAction β Unit := do
  let s ← Prog.read
  forEach (distributeDrop env height authorizedRunner)
    (getLimitedRecordsForRunner s distributionName authorizedRunner type .pending
      distributionCount)

def accumulateDrops (env : DispensationEnv β) (addr : String) (amount : Coins) :
    DispensationAction β Unit := do
  let address ← ofExcept (decodeAddress env.toEnv addr)
  let sent ← tryBank (fun b => env.bank.sendCoinsFromAccountToModule b address moduleName amount)
  require (sent = true) (.err .errFailedInputs)

/-- `SetDistribution` refuses an empty name. -/
def verifyAndSetDistribution (distributionName : String) (type : DistributionType)
    (authorizedRunner : String) : DispensationAction β Unit := do
  let s ← Prog.read
  let key := getDistributionsKey distributionName type authorizedRunner
  require (s.distributions.get key = none) (.err .errDistribution)
  require (distributionName ≠ "") (.err .errDistribution)
  modify (fun s =>
    { s with distributions := s.distributions.put ⟨type, distributionName, authorizedRunner⟩ })

structure MsgCoin where
  denom : String
  amount : ℤ
  deriving DecidableEq, Repr

structure MsgOutput where
  address : String
  coins : List MsgCoin
  deriving DecidableEq, Repr

structure MsgCreateDistribution where
  distributor : String
  authorizedRunner : String
  distributionType : DistributionType
  output : List MsgOutput
  deriving DecidableEq, Repr

structure MsgRunDistribution where
  authorizedRunner : String
  distributionName : String
  distributionType : DistributionType
  distributionCount : ℤ
  deriving DecidableEq, Repr

structure MsgCreateUserClaim where
  userClaimAddress : String
  userClaimType : DistributionType
  deriving DecidableEq, Repr

/-- `Coins.Sort` in place, then `IsValid`: the handler sees the sorted coins. -/
def MsgOutput.validate (env : DispensationEnv β) (out : MsgOutput) : Fallible Output := do
  check ((env.accAddressFromBech32 out.address).isSome = true) (.err .errInvalid)
  check (∀ c ∈ out.coins, 0 < c.amount) (.err .errInvalid)
  let coins := (out.coins.map (fun c => (⟨c.denom, c.amount.toNat⟩ : Coin))).insertionSort
    (fun a b => a.denom ≤ b.denom)
  check (Coins.isValid env.toEnv coins = true) (.err .errInvalid)
  pure ⟨out.address, coins⟩

def MsgCreateDistribution.validateBasic (env : DispensationEnv β) (m : MsgCreateDistribution) :
    Fallible (List Output) := do
  check (m.distributionType.isValid = true) (.err .errInvalid)
  check (m.output ≠ []) (.err .errInvalid)
  check ((env.accAddressFromBech32 m.distributor).isSome = true) (.err .errInvalid)
  check ((env.accAddressFromBech32 m.authorizedRunner).isSome = true) (.err .errInvalid)
  m.output.mapM (MsgOutput.validate env)

def MsgRunDistribution.validateBasic (env : DispensationEnv β) (m : MsgRunDistribution) :
    Fallible Unit := do
  check (m.distributionType.isValid = true) (.err .errInvalid)
  check (m.distributionName ≠ "") (.err .errInvalid)
  check ((env.accAddressFromBech32 m.authorizedRunner).isSome = true) (.err .errInvalid)
  check (¬(m.distributionCount > maxRecordsPerBlock ∨ m.distributionCount ≤ 0)) (.err .errInvalid)

def MsgCreateUserClaim.validateBasic (env : DispensationEnv β) (m : MsgCreateUserClaim) :
    Fallible Unit := do
  check ((env.accAddressFromBech32 m.userClaimAddress).isSome = true) (.err .errInvalidAddress)
  check (m.userClaimType.isValidClaimType = true) (.err .errInvalid)

def totalOutput : List Output → Fallible Coins
  | [] => .error (.err .errNoOutputs)
  | first :: rest => rest.foldlM (fun total out => total.addAll out.coins) first.coins

/-- `%d_%s` of the height and the distributor. -/
def distributionName (height : ℤ) (distributor : String) : String :=
  toString height ++ "_" ++ distributor

def createDistribution (env : DispensationEnv β) (m : MsgCreateDistribution)
    (output : List Output) : DispensationAction β Unit := do
  let s ← Prog.read
  let name := distributionName s.height m.distributor
  verifyAndSetDistribution name m.distributionType m.authorizedRunner
  let total ← ofExcept (totalOutput output)
  accumulateDrops env m.distributor total
  createDrops env output name m.distributionType m.authorizedRunner

def runDistribution (env : DispensationEnv β) (m : MsgRunDistribution) :
    DispensationAction β Unit := do
  let s ← Prog.read
  distributeDrops env s.height m.distributionName m.authorizedRunner m.distributionType
    m.distributionCount

/-- `TimestampProto` takes the years 1 to 9999. -/
def timestampProto (t : Timestamp) : Fallible Timestamp :=
  if -62135596800 ≤ t.seconds ∧ t.seconds < 253402300800 then .ok t
  else .error (.err .errInvalidTimestamp)

def createUserClaim (claim : MsgCreateUserClaim) : DispensationAction β Unit := do
  let s ← Prog.read
  require (s.claims.get (getUserClaimKey claim.userClaimAddress claim.userClaimType) = none)
    (.err .errInvalid)
  let userClaimTime ← ofExcept (timestampProto s.blockTime)
  require (claim.userClaimAddress.utf8ByteSize ≠ 0) (.err .errInvalid)
  modify (fun s => { s with
    claims := s.claims.put ⟨claim.userClaimAddress, claim.userClaimType, userClaimTime⟩ })

def requireSignature (env : DispensationEnv β) (signer : String) : DispensationAction β Unit := do
  let address ← ofExcept (getSigner env.toEnv signer)
  require (env.canSign address = true) (.err .errUnauthorised)

def MsgCreateDistribution.run (env : DispensationEnv β) (m : MsgCreateDistribution) :
    DispensationAction β Unit := do
  let output ← ofExcept (m.validateBasic env)
  requireSignature env m.distributor
  createDistribution env m output

def MsgRunDistribution.run (env : DispensationEnv β) (m : MsgRunDistribution) :
    DispensationAction β Unit := do
  ofExcept (m.validateBasic env)
  requireSignature env m.authorizedRunner
  runDistribution env m

def MsgCreateUserClaim.run (env : DispensationEnv β) (m : MsgCreateUserClaim) :
    DispensationAction β Unit := do
  ofExcept (m.validateBasic env)
  requireSignature env m.userClaimAddress
  createUserClaim m

/-- `Coin.IsLT` panics on different denominations. -/
def tokensCanBeMinted (s : Store β) : Fallible Bool :=
  match s.mintController with
  | none => .ok false
  | some controller => do
      check (controller.totalCounter.denom = nativeSymbol) (.panic .coinDenomsDiffer)
      pure (decide (controller.totalCounter.amount < maxMintAmount))

def isLastBlock (s : Store β) : Bool :=
  match s.mintController with
  | none => false
  | some controller =>
      decide ((maxMintAmount : ℤ) - controller.totalCounter.amount ≤ mintAmountPerBlock)

/-- What a block mints; on the last block, which comes before the maximum is reached, what is
    left of it. -/
def mintAmount (s : Store β) : Option ℕ :=
  if isLastBlock s then
    s.mintController.map (fun controller => maxMintAmount - controller.totalCounter.amount)
  else some mintAmountPerBlock

/-- `Coin.Add`. -/
def addCoin (a b : Coin) : Fallible Coin := do
  check (a.denom = b.denom) (.panic .coinDenomsDiffer)
  let amount ← Uint.add a.amount b.amount
  pure ⟨a.denom, amount⟩

/-- A missing controller is only logged. -/
def addMintAmount (mintedCoin : Coin) : DispensationAction β Unit := do
  let s ← Prog.read
  match s.mintController with
  | none => pure ()
  | some controller => do
      let total ← ofExcept (addCoin controller.totalCounter mintedCoin)
      modify (fun s => { s with mintController := some ⟨total⟩ })

def mintTo (env : DispensationEnv β) (ecoPoolAddress : AccAddress) (mintCoins : Coins) :
    DispensationAction β Unit := do
  let minted ← tryBank (fun b => env.bank.mintCoins b moduleName mintCoins)
  when (minted = true) (do
    let _ ← tryBank (fun b =>
      env.bank.sendCoinsFromModuleToAccount b moduleName ecoPoolAddress mintCoins)
    let mintedCoin ← ofExcept (mintCoins.index 0)
    addMintAmount mintedCoin)

def beginBlocker (env : DispensationEnv β) : DispensationAction β Unit := do
  let s ← Prog.read
  let mintable ← ofExcept (tokensCanBeMinted s)
  when (mintable = true) (
    match mintAmount s with
    | none => pure ()
    | some amount => do
        let coin ← ofExcept (newCoin env.toEnv nativeSymbol amount)
        let mintCoins ← ofExcept (newCoins [coin])
        when (Coins.isValid env.toEnv mintCoins = true ∧ mintCoins.length = 1) (
          match env.accAddressFromBech32 ecoPool with
          | none => pure ()
          | some ecoPoolAddress => mintTo env ecoPoolAddress mintCoins))

def nextBlock (env : DispensationEnv β) (blockTime : Timestamp) : DispensationAction β Unit := do
  modify (fun s => { s with height := s.height + 1, blockTime := blockTime })
  beginBlocker env

inductive DispensationEvent where
  | beginBlock (blockTime : Timestamp)
  | createDistribution (m : MsgCreateDistribution)
  | runDistribution (m : MsgRunDistribution)
  | createUserClaim (m : MsgCreateUserClaim)
  deriving DecidableEq, Repr

def DispensationEvent.run (env : DispensationEnv β) : DispensationEvent → DispensationAction β Unit
  | .beginBlock blockTime => nextBlock env blockTime
  | .createDistribution m => m.run env
  | .runDistribution m => m.run env
  | .createUserClaim m => m.run env

/-- What a failed message wrote is discarded; a block whose begin panics is never reached. -/
def DispensationEvent.step (env : DispensationEnv β) (e : DispensationEvent) (s : Store β) :
    Store β :=
  transact (e.run env) s

/-! A chain at genesis on which the model runs. -/
namespace PlainDispensation

theorem decoded_plain (s : String) (a : AccAddress) (decoded : LedgerBank.decode s = some a) :
    '_' ∉ s.toList := by
  unfold LedgerBank.decode at decoded
  split at decoded
  · rename_i spelled
    rcases spelled with rfl | rfl <;> decide
  · split at decoded
    · rename_i bob
      subst bob
      decide
    · split at decoded
      · rename_i carol
        subst carol
        decide
      · cases decoded

def env : DispensationEnv LedgerBank.Balances where
  toEnv := LedgerBank.env
  address_plain := decoded_plain

def start : Store LedgerBank.Balances where
  bank := LedgerBank.genesis.bank
  height := 1
  blockTime := ⟨0, 0⟩
  records := .empty
  distributions := .empty
  claims := .empty
  mintController := some ⟨⟨nativeSymbol, 0⟩⟩
  payouts := []

end PlainDispensation

end FuryNode.Dispensation
