import Mathlib.Algebra.Order.Ring.Nat
import FuryNode.Library.EventRuns
import FuryNode.Library.PointSums
import FuryNode.Library.StatefulProgram

/-!
The Valset contract: the validators of the current version with their powers, and the cached
total and count. A call that reverts is discarded; SafeMath reverts on overflow. No account has
the zero address, so nobody is the operator before the contract is initialized.
-/
namespace FuryNode
open StatefulProgram StatefulProgram.Prog

abbrev Address := Fin (2 ^ 160)

instance addresses : NeZero (2 ^ 160) := ⟨by decide⟩

structure Caller where
  address : Address
  nonzero : address ≠ 0
  deriving DecidableEq, Repr

theorem operator_nonzero : (7 : Address) ≠ 0 := by decide

namespace SafeMath

def add (a b : ℕ) : Except String ℕ :=
  if a + b < 2 ^ 256 then .ok (a + b) else .error "SafeMath: addition overflow"

def sub (a b : ℕ) : Except String ℕ :=
  if b ≤ a then .ok (a - b) else .error "SafeMath: subtraction overflow"

def mul (a b : ℕ) : Except String ℕ :=
  if a * b < 2 ^ 256 then .ok (a * b) else .error "SafeMath: multiplication overflow"

theorem add_succeeds (a b c : ℕ) : add a b = .ok c ↔ a + b < 2 ^ 256 ∧ c = a + b := by
  unfold add
  split <;> simp_all [eq_comm]

theorem sub_succeeds (a b c : ℕ) : sub a b = .ok c ↔ b ≤ a ∧ c = a - b := by
  unfold sub
  split <;> simp_all [eq_comm]

theorem mul_succeeds (a b c : ℕ) : mul a b = .ok c ↔ a * b < 2 ^ 256 ∧ c = a * b := by
  unfold mul
  split <;> simp_all [eq_comm]

end SafeMath

structure ValsetState where
  initialized : Bool
  operator : Address
  totalPower : ℕ
  currentValsetVersion : ℕ
  validatorCount : ℕ
  validators : Address → ℕ → Bool
  powers : Address → ℕ → ℕ

abbrev ValsetAction (α : Type) := Prog ValsetState String α

namespace Valset

def deployed : ValsetState := ⟨false, 0, 0, 0, 0, fun _ _ => false, fun _ _ => 0⟩

def setValidator (s : ValsetState) (a : Address) (active : Bool) (power : ℕ) : ValsetState :=
  { s with
    validators := Function.update s.validators a
      (Function.update (s.validators a) s.currentValsetVersion active)
    powers := Function.update s.powers a (Function.update (s.powers a) s.currentValsetVersion power) }

def isActiveValidator (s : ValsetState) (a : Address) : Bool := s.validators a s.currentValsetVersion
def getValidatorPower (s : ValsetState) (a : Address) : ℕ := s.powers a s.currentValsetVersion

def onlyOperator (sender : Caller) : ValsetAction Unit := do
  let s ← read
  require (sender.address = s.operator) "Must be the operator."

def addValidatorInternal (a : Address) (power : ℕ) : ValsetAction Unit := do
  let s ← read
  let validatorCount ← ofExcept (SafeMath.add s.validatorCount 1)
  let totalPower ← ofExcept (SafeMath.add s.totalPower power)
  modify (fun s => setValidator { s with validatorCount := validatorCount, totalPower := totalPower } a
    true power)

def resetValset : ValsetAction Unit := do
  let s ← read
  let version ← ofExcept (SafeMath.add s.currentValsetVersion 1)
  modify (fun s => { s with currentValsetVersion := version, validatorCount := 0, totalPower := 0 })

def addAll (validators : List (Address × ℕ)) : ValsetAction Unit :=
  forEach (fun v => addValidatorInternal v.1 v.2) validators

/-- `_initialize`. -/
def initializeValset (operator : Address) (initValidators : List Address) (initPowers : List ℕ) :
    ValsetAction Unit := do
  let s ← read
  require (s.initialized = false) "Initialized"
  modify (fun s => { s with operator := operator, currentValsetVersion := 0, initialized := true })
  require (initValidators.length = initPowers.length) "Every validator must have a corresponding power"
  resetValset
  addAll (initValidators.zip initPowers)

def addValidator (sender : Caller) (a : Address) (power : ℕ) : ValsetAction Unit := do
  onlyOperator sender
  addValidatorInternal a power

def updateValidatorPower (sender : Caller) (a : Address) (newPower : ℕ) : ValsetAction Unit := do
  onlyOperator sender
  let s ← read
  require (isActiveValidator s a = true) "Can only update the power of active valdiators"
  let reduced ← ofExcept (SafeMath.sub s.totalPower (getValidatorPower s a))
  let totalPower ← ofExcept (SafeMath.add reduced newPower)
  modify (fun s => { setValidator s a true newPower with totalPower := totalPower })

def removeValidator (sender : Caller) (a : Address) : ValsetAction Unit := do
  onlyOperator sender
  let s ← read
  require (isActiveValidator s a = true) "Can only remove active validators"
  let validatorCount ← ofExcept (SafeMath.sub s.validatorCount 1)
  let totalPower ← ofExcept (SafeMath.sub s.totalPower (getValidatorPower s a))
  modify (fun s => setValidator { s with validatorCount := validatorCount, totalPower := totalPower } a
    false 0)

def updateValset (sender : Caller) (validators : List Address) (powers : List ℕ) : ValsetAction Unit := do
  onlyOperator sender
  require (validators.length = powers.length) "Every validator must have a corresponding power"
  resetValset
  addAll (validators.zip powers)

/-- `recoverGas`: the version is checked, and the entries of the current version are deleted. -/
def recoverGas (sender : Caller) (version : ℕ) (a : Address) : ValsetAction Unit := do
  onlyOperator sender
  let s ← read
  require (version < s.currentValsetVersion) "Gas recovery only allowed for previous validator sets"
  modify (fun s => setValidator s a false 0)

end Valset

inductive ValsetCall where
  | initializeValset (operator : Address) (validators : List Address) (powers : List ℕ)
  | addValidator (sender : Caller) (a : Address) (power : ℕ)
  | updateValidatorPower (sender : Caller) (a : Address) (power : ℕ)
  | removeValidator (sender : Caller) (a : Address)
  | updateValset (sender : Caller) (validators : List Address) (powers : List ℕ)
  | recoverGas (sender : Caller) (version : ℕ) (a : Address)
  deriving DecidableEq, Repr

namespace ValsetCall

def action : ValsetCall → ValsetAction Unit
  | .initializeValset operator validators powers => Valset.initializeValset operator validators powers
  | .addValidator sender a power => Valset.addValidator sender a power
  | .updateValidatorPower sender a power => Valset.updateValidatorPower sender a power
  | .removeValidator sender a => Valset.removeValidator sender a
  | .updateValset sender validators powers => Valset.updateValset sender validators powers
  | .recoverGas sender version a => Valset.recoverGas sender version a

def step (call : ValsetCall) (s : ValsetState) : ValsetState := transact call.action s

end ValsetCall

def runValset (calls : List ValsetCall) (s : ValsetState) : ValsetState :=
  EventRuns.run ValsetCall.step calls s

end FuryNode
