import FuryNode.Library.EventRuns
import FuryNode.Clp.MsgServer
import FuryNode.Margin.Keeper

/-!
The message server of x/margin: opening a position, and closing it by its owner or by an
administrator. A message that fails leaves no trace, and one that succeeds tells which
failures of an interest payment it dropped.
-/
namespace FuryNode
open StatefulProgram StatefulProgram.Prog KeyedTable ClpKeeper MarginKeeper
variable {β : Type}

structure MsgOpen where
  signer : String
  collateralAsset : String
  collateralAmount : ℕ
  borrowAsset : String
  position : Position
  leverage : Dec
  deriving DecidableEq, Repr

structure MsgClose where
  signer : String
  id : ℕ
  deriving DecidableEq, Repr

structure MsgForceClose where
  signer : String
  mtpAddress : String
  id : ℕ
  deriving DecidableEq, Repr

structure MsgAdminClose where
  signer : String
  mtpAddress : String
  id : ℕ
  takeMarginFund : Bool
  deriving DecidableEq, Repr

def MsgOpen.validateBasic (env : Env β) (m : MsgOpen) : Fallible Unit := do
  requireSigner m.signer
  requireAsset env m.collateralAsset
  requireAsset env m.borrowAsset
  check (m.collateralAmount ≠ 0) (.err .errInValidAmount)
  check (Dec.one.le m.leverage) (.err .errInValidAmount)
  check (m.position = .long ∨ m.position = .short) (.err .errInvalidPosition)

def MsgClose.validateBasic (m : MsgClose) : Fallible Unit := do
  requireSigner m.signer
  check (m.id ≠ 0) (.err .errMTPDoesNotExist)

def MsgForceClose.validateBasic (m : MsgForceClose) : Fallible Unit := do
  requireSigner m.signer
  requireSigner m.mtpAddress
  check (m.id ≠ 0) (.err .errMTPDoesNotExist)

def MsgAdminClose.validateBasic (m : MsgAdminClose) : Fallible Unit := requireSigner m.signer

namespace MarginMsgServer

/-- The pool of a pair of assets is named by one of them only. -/
def externalAssetOf (collateralAsset otherAsset : String) : String :=
  if collateralAsset = nativeSymbol then otherAsset else collateralAsset

def newMTP (m : MsgOpen) (leverage : Dec) : MTP where
  address := m.signer
  collateralAsset := m.collateralAsset
  custodyAsset := m.borrowAsset
  leverage := leverage
  position := m.position

/-- `OpenLong` once the amounts are known. -/
def takePosition (env : Env β) (m : MsgOpen) (eta : Dec) (custodyAmount : ℕ) : Step β Unit := do
  borrow env m.collateralAmount custodyAmount eta
  updatePoolHealth env
  takeInCustody env
  let f ← read
  let lr ← ofExcept (updateMTPHealth f.world f.mtp f.pool)
  require (f.world.margin.safetyFactor.lt lr) (.err .errMTPUnhealthy)

def openLong (env : Env β) (m : MsgOpen) : Action β (List Failure) := do
  let w ← read
  let leverage := m.leverage.min w.margin.leverageMax
  let eta ← ofExcept (leverage.sub Dec.one)
  require (w.margin.furyCollateralEnabled = true ∨ m.collateralAsset ≠ nativeSymbol)
    (.err .errFuryAsCollateralNotAllowed)
  let externalAsset := externalAssetOf m.collateralAsset m.borrowAsset
  let pool ← Action.wrapped .errPoolDoesNotExist (getPool externalAsset)
  require (isPoolEnabled w.margin externalAsset = true) (.err .errMTPDisabled)
  let leveragedAmountDec ← ofExcept ((Dec.ofInt m.collateralAmount).mul leverage)
  let leveragedAmount ← ofExcept (decToUint leveragedAmountDec)
  let collateral := sideOf m.collateralAsset
  require (leveragedAmount ≤ pool.amount collateral .balance) (.err .errBorrowTooHigh)
  ofExcept (checkMinLiabilities env w m.collateralAmount eta pool m.borrowAsset)
  let custodyAmount ← ofExcept (clpSwap w leveragedAmount m.borrowAsset pool)
  require (custodyAmount ≤ pool.amount collateral.other .balance) (.err .errCustodyTooHigh)
  let (_, f) ← enter (newMTP m leverage) pool (takePosition env m eta custodyAmount)
  pure f.dropped

def open' (env : Env β) (m : MsgOpen) : Action β (List Failure) := do
  let w ← read
  require (w.margin.whitelistingEnabled = false ∨ m.signer ∈ w.margin.whitelist) (.err .errUnauthorised)
  require (w.openMtpCount < w.margin.maxOpenPositions) (.err .errMaxOpenPositions)
  let externalAsset := externalAssetOf m.collateralAsset m.borrowAsset
  let pool ← Action.wrapped .errPoolDoesNotExist (getPool externalAsset)
  require (isPoolEnabled w.margin externalAsset = true ∧ externalAsset ∉ w.margin.closedPools)
    (.err .errMTPDisabled)
  require (w.margin.poolOpenThreshold.lt pool.health) (.err .errMTPDisabled)
  match m.position with
  | .long => openLong env m
  | _ => fail (.err .errInvalidPosition)

/-- `CloseLong` on the position and its pool. -/
def closeLong (env : Env β) : Step β ℕ := do
  chargeWithinEpoch env
  closePosition env false

/-- The position with this key is long; its pool is read and both go to `act`. -/
def withPosition (address : String) (id : ℕ) (act : Step β ℕ) : Action β (List Failure) := do
  let mtp ← getMTP address id
  match mtp.position with
  | .long => do
      let pool ← Action.wrapped .errPoolDoesNotExist
        (getPool (externalAssetOf mtp.collateralAsset mtp.custodyAsset))
      let (_, f) ← enter mtp pool act
      pure f.dropped
  | _ => fail (.err .errInvalidPosition)

def close (env : Env β) (m : MsgClose) : Action β (List Failure) :=
  withPosition m.signer m.id (closeLong env)

def requireAdmin (env : Env β) (signer : String) : Action β Unit := do
  let address ← ofExcept (decodeAddress env signer)
  let w ← read
  require (env.addressString address ∈ w.margin.admins) (.err .errPermissionDenied)

def forceClose (env : Env β) (m : MsgForceClose) : Action β (List Failure) := do
  requireAdmin env m.signer
  withPosition m.mtpAddress m.id (forceCloseLong env true false)

def adminClose (env : Env β) (m : MsgAdminClose) : Action β (List Failure) := do
  requireAdmin env m.signer
  withPosition m.mtpAddress m.id (forceCloseLong env true m.takeMarginFund)

end MarginMsgServer

inductive MarginMsg where
  | open' (m : MsgOpen)
  | close (m : MsgClose)
  | forceClose (m : MsgForceClose)
  | adminClose (m : MsgAdminClose)
  deriving DecidableEq, Repr

namespace MarginMsg

def signer : MarginMsg → String
  | .open' m => m.signer
  | .close m => m.signer
  | .forceClose m => m.signer
  | .adminClose m => m.signer

def validateBasic (env : Env β) : MarginMsg → Fallible Unit
  | .open' m => m.validateBasic env
  | .close m => m.validateBasic
  | .forceClose m => m.validateBasic
  | .adminClose m => m.validateBasic

def accept (env : Env β) (msg : MarginMsg) : Action β Unit :=
  runMsg env msg.signer (msg.validateBasic env) (pure ())

def handle (env : Env β) : MarginMsg → Action β (List Failure)
  | .open' m => MarginMsgServer.open' env m
  | .close m => MarginMsgServer.close env m
  | .forceClose m => MarginMsgServer.forceClose env m
  | .adminClose m => MarginMsgServer.adminClose env m

def action (env : Env β) (msg : MarginMsg) : Action β (List Failure) := do
  msg.accept env
  msg.handle env

end MarginMsg

/-- A message or the beginning of a block, in a block with its height and parameters. -/
inductive MarginEvent where
  | message (c : BlockContext) (msg : MarginMsg)
  | beginBlock (c : BlockContext)

namespace MarginEvent

def context : MarginEvent → BlockContext
  | .message c _ => c
  | .beginBlock c => c

def action (env : Env β) : MarginEvent → Action β (List Failure)
  | .message _ msg => msg.action env
  | .beginBlock _ => beginBlocker env

/-- What fails adds no state to a run: a message is discarded, a block is not committed. -/
def step (env : Env β) (e : MarginEvent) (w : World β) : World β :=
  transact (e.action env) (w.within e.context)

end MarginEvent

def runMargin (env : Env β) (events : List MarginEvent) (w : World β) : World β :=
  EventRuns.run (MarginEvent.step env) events w

end FuryNode
