import Mathlib.Algebra.Order.BigOperators.Group.List
import Mathlib.Tactic.Ring
import FuryNode.Sdk.Numbers

/-!
The decorator that keeps delegations away from validators with much voting power. It looks at
each message alone and at the state before the transaction, so what several messages bring to one
validator is never added up.
-/
namespace FuryNode
variable {val : Validator} {msgs : List DelegationMsg}

namespace VotingPower
open StatefulProgram
variable {V : Type}

structure Validator where
  tokens : ℕ
  bonded : Bool
  deriving DecidableEq, Repr

/-- The validators, and the balances of the two pools that hold the delegated tokens. -/
structure Staking (V : Type) where
  validators : V → Option Validator
  bondedPool : ℕ
  notBondedPool : ℕ

inductive DelegationMsg where
  | delegate (validatorAddress : String) (amount : ℕ)
  | beginRedelegate (validatorSrcAddress validatorDstAddress : String) (amount : ℕ)
  deriving DecidableEq, Repr

inductive Msg where
  | createValidator (commissionRate : Dec)
  | editValidator (commissionRate : Option Dec)
  | delegation (msg : DelegationMsg)
  | other
  deriving DecidableEq, Repr

inductive AnteErr where
  | commissionTooLow (rate : Dec)
  | votingPowerTooHigh (projectedVotingPower : Dec)
  | errInvalidAddress (bech32ValAddr : String)
  | errNoValidatorExists
  | failed (f : Failure)
  deriving DecidableEq, Repr

def minCommission : Dec := ⟨5 * 10 ^ 16⟩
def maxVotingPower : Dec := ⟨66 * 10 ^ 17⟩

section Decorator
variable (valAddress : String → Option V) (s : Staking V)

def getValidator (bech32ValAddr : String) : Except AnteErr Validator :=
  match valAddress bech32ValAddr with
  | none => .error (.errInvalidAddress bech32ValAddr)
  | some v =>
    match s.validators v with
    | none => .error .errNoValidatorExists
    | some val => .ok val

def getTotalDelegatedTokens : Fallible ℕ := Uint.add s.notBondedPool s.bondedPool

def votingPower (projectedValidatorTokens projectedTotalDelegatedTokens : Dec) : Fallible Dec := do
  (← projectedValidatorTokens.quo projectedTotalDelegatedTokens).mul (Dec.ofInt 100)

def calculateDelegateProjectedVotingPower (validator : Validator) (delegateAmount : Dec) :
    Fallible Dec := do
  let totalDelegatedTokens := Dec.ofInt (← getTotalDelegatedTokens s)
  let projectedTotalDelegatedTokens ← totalDelegatedTokens.add delegateAmount
  let projectedValidatorTokens ← (Dec.ofInt validator.tokens).add delegateAmount
  votingPower projectedValidatorTokens projectedTotalDelegatedTokens

def calculateRedelegateProjectedVotingPower (validator : Validator) (delegateAmount : Dec) :
    Fallible Dec := do
  let projectedTotalDelegatedTokens := Dec.ofInt (← getTotalDelegatedTokens s)
  let projectedValidatorTokens ← (Dec.ofInt validator.tokens).add delegateAmount
  votingPower projectedValidatorTokens projectedTotalDelegatedTokens

def requireBelowMax (projected : Fallible Dec) : Except AnteErr Unit :=
  match projected with
  | .error f => .error (.failed f)
  | .ok projectedVotingPower =>
    if maxVotingPower.le projectedVotingPower then .error (.votingPowerTooHigh projectedVotingPower)
    else .ok ()

def validateDelegation : DelegationMsg → Except AnteErr Unit
  | .delegate validatorAddress amount => do
    let val ← getValidator valAddress s validatorAddress
    requireBelowMax (calculateDelegateProjectedVotingPower s val (Dec.ofInt amount))
  | .beginRedelegate validatorSrcAddress validatorDstAddress amount => do
    let dstVal ← getValidator valAddress s validatorDstAddress
    let delegateAmount :=
      if validatorSrcAddress = validatorDstAddress then Dec.zero else Dec.ofInt amount
    requireBelowMax (calculateRedelegateProjectedVotingPower s dstVal delegateAmount)

def validateMsg : Msg → Except AnteErr Unit
  | .createValidator rate => if rate.lt minCommission then .error (.commissionTooLow rate) else .ok ()
  | .editValidator (some rate) =>
    if rate.lt minCommission then .error (.commissionTooLow rate) else .ok ()
  | .editValidator none => .ok ()
  | .delegation msg => validateDelegation valAddress s msg
  | .other => .ok ()

def anteHandle (msgs : List Msg) : Except AnteErr Unit := msgs.forM (validateMsg valAddress s)

end Decorator

/-! What the staking module does with the messages: each moves its amount of tokens. -/

namespace Staking

def tokensOf (s : Staking V) (v : V) : ℕ := ((s.validators v).map Validator.tokens).getD 0

def total (s : Staking V) : ℕ := s.bondedPool + s.notBondedPool

def setTokens [DecidableEq V] (s : Staking V) (v : V) (val : Validator) (tokens : ℕ) : Staking V :=
  { s with validators := Function.update s.validators v (some { val with tokens := tokens }) }

def deposit (s : Staking V) (bonded : Bool) (amount : ℕ) : Staking V :=
  if bonded then { s with bondedPool := s.bondedPool + amount }
  else { s with notBondedPool := s.notBondedPool + amount }

def withdraw (s : Staking V) (bonded : Bool) (amount : ℕ) : Option (Staking V) :=
  if bonded then
    if amount ≤ s.bondedPool then some { s with bondedPool := s.bondedPool - amount } else none
  else
    if amount ≤ s.notBondedPool then some { s with notBondedPool := s.notBondedPool - amount } else none

def transfer (s : Staking V) (source target : Bool) (amount : ℕ) : Option (Staking V) :=
  if source = target then some s else (s.withdraw source amount).map (·.deposit target amount)

end Staking

section Pools
variable {s s' : Staking V}

theorem deposit_effect (s : Staking V) (bonded : Bool) (amount : ℕ) :
    (s.deposit bonded amount).validators = s.validators ∧
      (s.deposit bonded amount).total = s.total + amount := by
  unfold Staking.deposit Staking.total
  cases bonded with
  | true => exact ⟨rfl, by simp only [if_true]; omega⟩
  | false => exact ⟨rfl, by simp only [Bool.false_eq_true, if_false]; omega⟩

theorem withdraw_effect {bonded : Bool} {amount : ℕ} (withdrawn : s.withdraw bonded amount = some s') :
    s'.validators = s.validators ∧ s'.total + amount = s.total := by
  unfold Staking.withdraw at withdrawn
  unfold Staking.total
  cases bonded with
  | true =>
    simp only [if_true, Option.ite_none_right_eq_some, Option.some.injEq] at withdrawn
    obtain ⟨enough, rfl⟩ := withdrawn
    exact ⟨rfl, by dsimp only; omega⟩
  | false =>
    simp only [Bool.false_eq_true, if_false, Option.ite_none_right_eq_some, Option.some.injEq] at withdrawn
    obtain ⟨enough, rfl⟩ := withdrawn
    exact ⟨rfl, by dsimp only; omega⟩

theorem transfer_effect {source target : Bool} {amount : ℕ}
    (moved : s.transfer source target amount = some s') :
    s'.validators = s.validators ∧ s'.total = s.total := by
  unfold Staking.transfer at moved
  split at moved
  · cases moved
    exact ⟨rfl, rfl⟩
  · obtain ⟨t, withdrawn, rfl⟩ := Option.map_eq_some_iff.mp moved
    have first := withdraw_effect withdrawn
    have second := deposit_effect t target amount
    exact ⟨second.1.trans first.1, by omega⟩

theorem tokensOf_found {v : V} (found : s.validators v = some val) : s.tokensOf v = val.tokens := by
  simp [Staking.tokensOf, found]

theorem tokensOf_congr {t : Staking V} (same : t.validators = s.validators) (v : V) :
    t.tokensOf v = s.tokensOf v := by
  simp [Staking.tokensOf, same]

end Pools

namespace DelegationMsg

def destination : DelegationMsg → String
  | .delegate validatorAddress _ => validatorAddress
  | .beginRedelegate _ validatorDstAddress _ => validatorDstAddress

def amount : DelegationMsg → ℕ
  | .delegate _ amount => amount
  | .beginRedelegate _ _ amount => amount

def added : DelegationMsg → ℕ
  | .delegate _ amount => amount
  | .beginRedelegate _ _ _ => 0

end DelegationMsg
open DelegationMsg

def NamesTwo : DelegationMsg → Prop
  | .delegate _ _ => True
  | .beginRedelegate source target _ => source ≠ target

section Acceptance
variable {valAddress : String → Option V} {s : Staking V}

theorem votingPower_below {validatorTokens total : ℕ} {power : Dec}
    (computed : votingPower (Dec.ofInt validatorTokens) (Dec.ofInt total) = .ok power)
    (below : ¬maxVotingPower.le power) : 1000 * validatorTokens < 66 * total := by
  obtain ⟨q, divided, multiplied⟩ := except_bind_succeeds.mp computed
  have positive : 0 < (Dec.ofInt total).raw := by
    rcases (Dec.ofInt_nonneg total).lt_or_eq with some | none
    · exact some
    · rw [Dec.quo, if_pos none.symm] at divided
      cases divided
  obtain ⟨_, _, near⟩ := Dec.quo_near (Dec.ofInt_nonneg validatorTokens) positive divided
  rw [Dec.mul, Dec.checked_succeeds] at multiplied
  obtain ⟨_, rfl⟩ := multiplied
  have whole : q.raw * (Dec.ofInt 100).raw = q.raw * 100 * Dec.precision := by
    simp only [Dec.ofInt]
    ring
  simp only [Dec.le, maxVotingPower, whole, Dec.chop_whole, not_le] at below
  simp only [Dec.ofInt, Dec.precision] at near positive
  push_cast at near positive
  -- the rounding moves a quotient by less than the step to the next decimal below the cap
  have step : q.raw + 1 ≤ 66 * 10 ^ 15 := by omega
  have scaled := mul_le_mul_of_nonneg_right step (Int.natCast_nonneg total)
  zify
  linarith

theorem requireBelowMax_succeeds {projected : Fallible Dec} (accepted : requireBelowMax projected = .ok ()) :
    ∃ power, projected = .ok power ∧ ¬maxVotingPower.le power := by
  unfold requireBelowMax at accepted
  cases projected with
  | error f => cases accepted
  | ok power =>
    dsimp only at accepted
    split at accepted
    · cases accepted
    · rename_i below
      exact ⟨power, rfl, below⟩

theorem ofInt_add {a b : ℕ} {d : Dec} (added : (Dec.ofInt a).add (Dec.ofInt b) = .ok d) :
    d = Dec.ofInt (a + b : ℕ) := by
  rw [Dec.add, Dec.checked_succeeds] at added
  obtain ⟨_, rfl⟩ := added
  simp only [Dec.ofInt, Nat.cast_add, add_mul]

theorem delegate_below {amount : ℕ}
    (accepted : requireBelowMax (calculateDelegateProjectedVotingPower s val (Dec.ofInt amount)) = .ok ()) :
    1000 * (val.tokens + amount) < 66 * (s.total + amount) := by
  obtain ⟨power, computed, below⟩ := requireBelowMax_succeeds accepted
  simp only [calculateDelegateProjectedVotingPower, getTotalDelegatedTokens, except_bind_succeeds,
    Uint.add_succeeds] at computed
  obtain ⟨_, ⟨_, rfl⟩, total, grown, tokens, raised, computed⟩ := computed
  rw [ofInt_add grown, ofInt_add raised] at computed
  have less := votingPower_below computed below
  unfold Staking.total
  omega

theorem redelegate_below {amount : ℕ}
    (accepted : requireBelowMax (calculateRedelegateProjectedVotingPower s val (Dec.ofInt amount)) = .ok ()) :
    1000 * (val.tokens + amount) < 66 * s.total := by
  obtain ⟨power, computed, below⟩ := requireBelowMax_succeeds accepted
  simp only [calculateRedelegateProjectedVotingPower, getTotalDelegatedTokens, except_bind_succeeds,
    Uint.add_succeeds] at computed
  obtain ⟨_, ⟨_, rfl⟩, tokens, raised, computed⟩ := computed
  rw [ofInt_add raised] at computed
  have less := votingPower_below computed below
  unfold Staking.total
  omega

theorem getValidator_succeeds {address : String} {v : V} (named : valAddress address = some v)
    (found : getValidator valAddress s address = .ok val) : s.tokensOf v = val.tokens := by
  simp only [getValidator, named] at found
  split at found
  · cases found
  · rename_i stored
    cases found
    exact tokensOf_found stored

theorem validateDelegation_below {m : DelegationMsg} {v : V} (two : NamesTwo m)
    (named : valAddress m.destination = some v) (accepted : validateDelegation valAddress s m = .ok ()) :
    1000 * (s.tokensOf v + m.amount) < 66 * (s.total + m.added) := by
  cases m with
  | delegate address amount =>
    obtain ⟨val, found, accepted⟩ := except_bind_succeeds.mp accepted
    rw [getValidator_succeeds named found]
    exact delegate_below accepted
  | beginRedelegate source target amount =>
    obtain ⟨val, found, accepted⟩ := except_bind_succeeds.mp accepted
    rw [getValidator_succeeds named found]
    rw [if_neg two] at accepted
    exact redelegate_below accepted

theorem anteHandle_each (accepted : anteHandle valAddress s (msgs.map .delegation) = .ok ()) :
    ∀ m ∈ msgs, validateDelegation valAddress s m = .ok () := by
  induction msgs with
  | nil => simp
  | cons m rest ih =>
    obtain ⟨_, first, others⟩ := except_bind_succeeds.mp accepted
    exact List.forall_mem_cons.mpr ⟨first, ih others⟩

end Acceptance

variable [DecidableEq V]

def execute (valAddress : String → Option V) (s : Staking V) : DelegationMsg → Option (Staking V)
  | .delegate validatorAddress amount => do
    let v ← valAddress validatorAddress
    let val ← s.validators v
    some ((s.setTokens v val (val.tokens + amount)).deposit val.bonded amount)
  | .beginRedelegate validatorSrcAddress validatorDstAddress amount => do
    let u ← valAddress validatorSrcAddress
    let v ← valAddress validatorDstAddress
    let srcVal ← s.validators u
    let dstVal ← s.validators v
    if u = v ∨ srcVal.tokens < amount then none
    else ((s.setTokens u srcVal (srcVal.tokens - amount)).setTokens v dstVal
      (dstVal.tokens + amount)).transfer srcVal.bonded dstVal.bonded amount

def receivedBy (valAddress : String → Option V) (v : V) (m : DelegationMsg) : ℕ :=
  if valAddress m.destination = some v then m.amount else 0

def sentBy (valAddress : String → Option V) (v : V) : DelegationMsg → ℕ
  | .delegate _ _ => 0
  | .beginRedelegate validatorSrcAddress _ amount =>
    if valAddress validatorSrcAddress = some v then amount else 0

def Receives (valAddress : String → Option V) (msgs : List DelegationMsg) (v : V) : Prop :=
  ∃ m ∈ msgs, valAddress m.destination = some v ∧ 0 < m.amount

def BelowCap (s : Staking V) (v : V) : Prop := 1000 * s.tokensOf v < 66 * s.total

/-- What the messages bring to a validator together, net of what they take from it, leaves it
    below the cap. -/
def TogetherBelow (valAddress : String → Option V) (s : Staking V) (msgs : List DelegationMsg)
    (v : V) : Prop :=
  1000 * (s.tokensOf v + (msgs.map (receivedBy valAddress v)).sum) <
    66 * (s.total + (msgs.map added).sum) + 1000 * (msgs.map (sentBy valAddress v)).sum

section Execution
variable {valAddress : String → Option V} {s s' : Staking V}

theorem tokensOf_setTokens (s : Staking V) (u v : V) (val : Validator) (tokens : ℕ) :
    (s.setTokens u val tokens).tokensOf v = if v = u then tokens else s.tokensOf v := by
  unfold Staking.setTokens Staking.tokensOf
  by_cases same : v = u
  · simp [same]
  · simp [same]

theorem execute_effect {m : DelegationMsg} (executed : execute valAddress s m = some s') :
    (∀ v, s'.tokensOf v + sentBy valAddress v m = s.tokensOf v + receivedBy valAddress v m) ∧
      s'.total = s.total + added m := by
  cases m with
  | delegate address amount =>
    simp only [execute, Option.bind_eq_bind, Option.bind_eq_some_iff, Option.some.injEq] at executed
    obtain ⟨u, named, val, found, rfl⟩ := executed
    have paid := deposit_effect (s.setTokens u val (val.tokens + amount)) val.bonded amount
    refine ⟨?_, paid.2⟩
    intro v
    rw [tokensOf_congr paid.1, tokensOf_setTokens]
    simp only [sentBy, receivedBy, destination, DelegationMsg.amount, named, Option.some.injEq]
    by_cases same : v = u
    · rw [if_pos same, if_pos same.symm, same, tokensOf_found found]
      omega
    · rw [if_neg same, if_neg (Ne.symm same)]
  | beginRedelegate source target amount =>
    simp only [execute, Option.bind_eq_bind, Option.bind_eq_some_iff, Option.ite_none_left_eq_some,
      not_or, not_lt] at executed
    obtain ⟨u, sender, w, receiver, srcVal, src, dstVal, dst, ⟨apart, enough⟩, moved⟩ := executed
    obtain ⟨same, totals⟩ := transfer_effect moved
    refine ⟨?_, totals⟩
    intro v
    rw [tokensOf_congr same, tokensOf_setTokens, tokensOf_setTokens]
    simp only [sentBy, receivedBy, destination, DelegationMsg.amount, sender, receiver, Option.some.injEq]
    have before := tokensOf_found src
    have after := tokensOf_found dst
    by_cases isTarget : v = w
    · have other : ¬u = v := fun equal => apart (equal.trans isTarget)
      rw [if_pos isTarget, if_neg other, if_pos isTarget.symm, isTarget]
      omega
    · rw [if_neg isTarget, if_neg (Ne.symm isTarget)]
      by_cases isSource : v = u
      · rw [if_pos isSource, if_pos isSource.symm, isSource]
        omega
      · rw [if_neg isSource, if_neg (Ne.symm isSource)]

theorem execute_namesTwo {m : DelegationMsg} (executed : execute valAddress s m = some s') : NamesTwo m := by
  cases m with
  | delegate => trivial
  | beginRedelegate source target amount =>
    intro same
    simp only [execute, Option.bind_eq_bind, Option.bind_eq_some_iff, Option.ite_none_left_eq_some,
      not_or, same] at executed
    obtain ⟨u, sender, w, receiver, _, _, _, _, ⟨apart, _⟩, _⟩ := executed
    exact apart (Option.some.inj (sender.symm.trans receiver))

theorem run_effect (executed : msgs.foldlM (execute valAddress) s = some s') :
    (∀ m ∈ msgs, NamesTwo m) ∧
    (∀ v, s'.tokensOf v + (msgs.map (sentBy valAddress v)).sum =
      s.tokensOf v + (msgs.map (receivedBy valAddress v)).sum) ∧
    s'.total = s.total + (msgs.map added).sum := by
  induction msgs generalizing s with
  | nil =>
    cases executed
    simp
  | cons m rest ih =>
    rw [List.foldlM_cons, Option.bind_eq_bind, Option.bind_eq_some_iff] at executed
    obtain ⟨t, first, others⟩ := executed
    obtain ⟨two, tokens, totals⟩ := ih others
    obtain ⟨moved, grown⟩ := execute_effect first
    simp only [List.map_cons, List.sum_cons, List.forall_mem_cons]
    refine ⟨⟨execute_namesTwo first, two⟩, ?_, by omega⟩
    intro v
    have now := tokens v
    have before := moved v
    omega

end Execution

def DistinctDestinations (valAddress : String → Option V) (msgs : List DelegationMsg) : Prop :=
  msgs.Pairwise fun m m' => valAddress m.destination ≠ valAddress m'.destination

section Transactions
variable {valAddress : String → Option V} {s s' : Staking V} {v : V} {m : DelegationMsg}

theorem receivedBy_none (msgs : List DelegationMsg)
    (elsewhere : ∀ m ∈ msgs, valAddress m.destination ≠ some v) :
    (msgs.map (receivedBy valAddress v)).sum = 0 := by
  apply List.sum_eq_zero
  intro n member
  obtain ⟨m, listed, rfl⟩ := List.mem_map.mp member
  exact if_neg (elsewhere m listed)

theorem receivedBy_once (distinct : DistinctDestinations valAddress msgs) (listed : m ∈ msgs)
    (named : valAddress m.destination = some v) :
    (msgs.map (receivedBy valAddress v)).sum = m.amount := by
  induction msgs with
  | nil => cases listed
  | cons first rest ih =>
    obtain ⟨apart, others⟩ := List.pairwise_cons.mp distinct
    rw [List.map_cons, List.sum_cons]
    rcases List.mem_cons.mp listed with rfl | later
    · rw [receivedBy_none rest (fun m' member same => apart m' member (named.trans same.symm)), receivedBy,
        if_pos named, Nat.add_zero]
    · have elsewhere : valAddress first.destination ≠ some v := fun same => apart m later (same.trans named.symm)
      rw [receivedBy, if_neg elsewhere, ih others later, Nat.zero_add]

theorem together_of_distinct (two : ∀ m ∈ msgs, NamesTwo m)
    (accepted : anteHandle valAddress s (msgs.map .delegation) = .ok ())
    (distinct : DistinctDestinations valAddress msgs) (receives : Receives valAddress msgs v) :
    TogetherBelow valAddress s msgs v := by
  obtain ⟨m, listed, named, _⟩ := receives
  have alone := validateDelegation_below (two m listed) named (anteHandle_each accepted m listed)
  have grows : added m ≤ (msgs.map added).sum := List.le_sum_of_mem (List.mem_map_of_mem listed)
  unfold TogetherBelow
  rw [receivedBy_once distinct listed named]
  omega

end Transactions

def twoValidators : Staking String where
  validators v := if v = "large" then some ⟨1000, true⟩ else if v = "small" then some ⟨0, true⟩ else none
  bondedPool := 1000
  notBondedPool := 0

def twice : List DelegationMsg := [.delegate "small" 60, .delegate "small" 60]

end VotingPower
end FuryNode
