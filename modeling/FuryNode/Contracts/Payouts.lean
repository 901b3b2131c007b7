import FuryNode.Contracts.CosmosBridge
import FuryNode.Contracts.ValsetTotals

/-!
When a prophecy is paid. Completion is not recorded: a call is refused while the signed power
reaches the threshold, and pays when it makes it reach the threshold. The signed power of a
prophecy only grows, so it is paid again only after the total power has grown past it; and it
is the power the signers had when they signed, not the one they have.
-/
namespace FuryNode
open StatefulProgram StatefulProgram.Prog PointSums Valset CosmosBridge

/-! A bank that accepts every call and counts the payments. -/
namespace PlainContracts

def bank : BankContract ℕ where
  safeLowerToUpperTokens _ symbol := symbol
  getLockedTokenAddress _ _ := 9
  getBridgeToken _ _ := 9
  createNewBridgeToken payments _ := .ok payments
  unlock payments _ _ _ := .ok (payments + 1)
  mintBridgeTokens payments _ _ _ := .ok (payments + 1)

structure Digest where
  bytes : List UInt8
  deriving DecidableEq

def env : ContractEnv Digest ℕ := ⟨Digest.mk, bank⟩
def start : CosmosBridgeState Digest ℕ := ⟨deployed, 70, fun _ => 0, fun _ _ => false, 0⟩
def transfer : ProphecyArgs := ⟨.lock, [1], 7, 17, [101], 50⟩

/-- One zero byte of the sequence goes to the sender and the symbol to the receiver. -/
def shifted : ProphecyArgs := ⟨.lock, [1, 0], 1792, 4453, [], 50⟩

def first : Caller := ⟨1, by decide⟩
def second : Caller := ⟨2, by decide⟩
def third : Caller := ⟨3, by decide⟩

def opening : List BridgeCall :=
  [.valset (.initializeValset 7 [1, 2, 3] [4, 4, 2]), .newProphecyClaim first transfer]

def signing : List BridgeCall := opening ++ [.newProphecyClaim second transfer]

end PlainContracts

variable {H β : Type} {env : ContractEnv H β}

/-- The part of the state that the bank contract has no say in. -/
def CosmosBridgeState.signatures (s : CosmosBridgeState H β) :
    ValsetState × ℕ × (H → ℕ) × (H → Address → Bool) :=
  (s.valset, s.consensusThreshold, s.oracleClaimValidators, s.hasMadeClaim)

theorem callBank_scope {call : β → Except String β} :
    Preserves CosmosBridgeState.signatures (callBank call : ContractAction H β Unit) :=
  preserves_read_then (fun _ => preserves_bind preserves_ofExcept
    (fun _ => preserves_modify (fun _ => rfl)))

theorem completeProphecyClaim_scope (p : ProphecyArgs) :
    Preserves CosmosBridgeState.signatures (completeProphecyClaim env p) := callBank_scope

def Reached (s : CosmosBridgeState H β) (id : H) : Prop :=
  s.valset.totalPower * s.consensusThreshold ≤ s.oracleClaimValidators id * 100

variable {s t : CosmosBridgeState H β} {id : H}

theorem getProphecyThreshold_reached {b : Bool} (computed : getProphecyThreshold s id = .ok b) :
    b = true ↔ Reached s id := by
  simp only [getProphecyThreshold, except_bind_succeeds, SafeMath.mul_succeeds, Except.ok.injEq] at computed
  obtain ⟨_, ⟨_, rfl⟩, _, ⟨_, rfl⟩, rfl⟩ := computed
  simp [Reached]

variable [DecidableEq H]

theorem openProphecy_scope (p : ProphecyArgs) :
    Preserves CosmosBridgeState.signatures (openProphecy env p) := by
  refine preserves_read_then (fun s => ?_)
  dsimp only
  split
  · exact preserves_require
  · exact preserves_when callBank_scope
  · exact preserves_fail

/-- A claim that was not reverted: who signed, and what that did to the signatures. -/
structure ClaimSigned (env : ContractEnv H β) (sender : Caller) (p : ProphecyArgs)
    (s : CosmosBridgeState H β) (complete : Bool) (t : CosmosBridgeState H β) : Prop where
  active : isActiveValidator s.valset sender.address = true
  fresh : s.hasMadeClaim (prophecyID env p) sender.address = false
  incomplete : ¬Reached s (prophecyID env p)
  complete_iff : complete = true ↔ Reached t (prophecyID env p)
  valset : t.valset = s.valset
  threshold : t.consensusThreshold = s.consensusThreshold
  power : t.oracleClaimValidators = Function.update s.oracleClaimValidators (prophecyID env p)
    (s.oracleClaimValidators (prophecyID env p) + getValidatorPower s.valset sender.address)
  made : t.hasMadeClaim = Function.update s.hasMadeClaim (prophecyID env p)
    (Function.update (s.hasMadeClaim (prophecyID env p)) sender.address true)

theorem newOracleClaim_signed {a : Address} {complete : Bool}
    (run : (newOracleClaim id a).run s = (.ok complete, t)) :
    s.hasMadeClaim id a = false ∧ getProphecyThreshold t id = .ok complete ∧
      t = { s with
        hasMadeClaim := Function.update s.hasMadeClaim id (Function.update (s.hasMadeClaim id) a true)
        oracleClaimValidators := Function.update s.oracleClaimValidators id
          (s.oracleClaimValidators id + getValidatorPower s.valset a) } := by
  simp only [newOracleClaim, read_then, require_then, ofExcept_then, modify_then, ofExcept_succeeds,
    SafeMath.add_succeeds] at run
  obtain ⟨fresh, _, ⟨_, rfl⟩, threshold, rfl⟩ := run
  exact ⟨fresh, threshold, rfl⟩

theorem newProphecyClaim_signed {sender : Caller} {p : ProphecyArgs} {complete : Bool}
    (run : (newProphecyClaim env sender p).run s = (.ok complete, t)) :
    ClaimSigned env sender p s complete t := by
  simp only [newProphecyClaim, read_then, require_then, ofExcept_then] at run
  obtain ⟨active, completed, before, pending, tail⟩ := run
  obtain ⟨_, r, opened, rest⟩ := bind_ok tail
  obtain ⟨decided, q, claimed, last⟩ := bind_ok rest
  obtain ⟨_, v, paid, final⟩ := bind_ok last
  obtain ⟨rfl, rfl⟩ := pure_succeeds.mp final
  have kept := preserves_when (c := s.oracleClaimValidators (prophecyID env p) = 0)
    (@openProphecy_scope H β env _ p) s
  rw [opened] at kept
  have unchanged := preserves_when (c := decided = true)
    (@completeProphecyClaim_scope H β env p) q
  rw [paid] at unchanged
  obtain ⟨fresh, threshold, rfl⟩ := newOracleClaim_signed claimed
  simp only [CosmosBridgeState.signatures, Prod.mk.injEq] at kept unchanged
  obtain ⟨keptValset, keptThreshold, keptPower, keptMade⟩ := kept
  obtain ⟨sameValset, sameThreshold, samePower, sameMade⟩ := unchanged
  have reached := getProphecyThreshold_reached threshold
  exact {
    active := active
    fresh := keptMade ▸ fresh
    incomplete := fun already =>
      absurd ((getProphecyThreshold_reached before).mpr already) (by simp [pending])
    complete_iff := by
      rw [reached]
      simp only [Reached, sameValset, sameThreshold, samePower]
    valset := sameValset.trans keptValset
    threshold := sameThreshold.trans keptThreshold
    power := by rw [samePower, keptPower, keptValset]
    made := by rw [sameMade, keptMade] }

omit [DecidableEq H] in
theorem onValset_succeeds {call : ValsetCall} {u : Unit} :
    (onValset call : ContractAction H β Unit).run s = (.ok u, t) ↔
      ∃ v, call.action.run s.valset = (.ok u, v) ∧ { s with valset := v } = t :=
  zoom_succeeds

def ValsetCall.totalAfter (s : ValsetState) : ValsetCall → ℕ
  | .initializeValset _ validators powers => ((validators.zip powers).map Prod.snd).sum
  | .addValidator _ _ power => s.totalPower + power
  | .updateValidatorPower _ a power => s.totalPower - getValidatorPower s a + power
  | .removeValidator _ a => s.totalPower - getValidatorPower s a
  | .updateValset _ validators powers => ((validators.zip powers).map Prod.snd).sum
  | .recoverGas _ _ _ => s.totalPower

theorem addAll_total (validators : List (Address × ℕ)) (s t : ValsetState) (u : Unit)
    (run : (addAll validators).run s = (.ok u, t)) :
    t.totalPower = s.totalPower + (validators.map Prod.snd).sum := by
  induction validators generalizing s with
  | nil =>
    obtain ⟨_, rfl⟩ := pure_succeeds.mp run
    rfl
  | cons v rest ih =>
    obtain ⟨_, r, first, later⟩ := bind_ok run
    obtain ⟨_, _, rfl⟩ := addValidatorInternal_succeeds.mp first
    rw [ih _ later, List.map_cons, List.sum_cons]
    show s.totalPower + v.2 + _ = _
    omega

theorem refill_total {validators : List (Address × ℕ)} {s t : ValsetState} {u : Unit}
    (run : (do resetValset; addAll validators : ValsetAction Unit).run s = (.ok u, t)) :
    t.totalPower = (validators.map Prod.snd).sum := by
  obtain ⟨_, r, reset, added⟩ := bind_ok run
  obtain ⟨_, rfl⟩ := resetValset_succeeds.mp reset
  rw [addAll_total validators _ t u added]
  exact Nat.zero_add _

theorem call_total {call : ValsetCall} {s t : ValsetState} {u : Unit}
    (run : call.action.run s = (.ok u, t)) : t.totalPower = call.totalAfter s := by
  have writes := call_writes run
  cases call with
  | initializeValset operator validators powers => exact refill_total writes.2.2
  | addValidator sender a power =>
    obtain ⟨_, rfl⟩ := writes
    rfl
  | updateValidatorPower sender a power =>
    obtain ⟨_, _, _, rfl⟩ := writes
    rfl
  | removeValidator sender a =>
    obtain ⟨_, _, _, _, rfl⟩ := writes
    rfl
  | updateValset sender validators powers => exact refill_total writes.2.2
  | recoverGas sender version a =>
    obtain ⟨_, _, rfl⟩ := writes
    rfl

def Completed (id : H) (s : CosmosBridgeState H β) : Prop :=
  0 < s.oracleClaimValidators id ∧ Reached s id

/-- A call of the operator does not raise the total power past a prophecy that has reached the
    threshold. -/
def BridgeCall.KeepsCompleted (s : CosmosBridgeState H β) : BridgeCall → Prop
  | .newProphecyClaim _ _ => True
  | .valset call => ∀ id, Completed id s →
      call.totalAfter s.valset * s.consensusThreshold ≤ s.oracleClaimValidators id * 100

theorem completes_signed {call : BridgeCall} (paid : call.completes env s = some id) :
    ∃ sender p, call = .newProphecyClaim sender p ∧ prophecyID env p = id ∧
      ClaimSigned env sender p s true (call.step env s) := by
  cases call with
  | valset call => cases paid
  | newProphecyClaim sender p =>
    simp only [BridgeCall.completes] at paid
    rcases run : (newProphecyClaim env sender p).run s with ⟨outcome, t⟩
    rw [run] at paid
    have stepped : BridgeCall.step env (.newProphecyClaim sender p) s = transact
        (newProphecyClaim env sender p) s := rfl
    cases outcome with
    | error e => cases paid
    | ok complete =>
      cases complete with
      | false => cases paid
      | true =>
        cases paid
        refine ⟨sender, p, rfl, rfl, ?_⟩
        rw [stepped, transact, run]
        exact newProphecyClaim_signed run

theorem completes_completed {call : BridgeCall} (paid : call.completes env s = some id) :
    ¬Completed id s ∧ Completed id (call.step env s) := by
  obtain ⟨sender, p, _, rfl, signed⟩ := completes_signed paid
  have reached := signed.complete_iff.mp rfl
  refine ⟨fun already => signed.incomplete already.2, ?_, reached⟩
  have before := signed.incomplete
  rw [Reached, signed.valset, signed.threshold] at reached
  unfold Reached at before
  omega

/-- A completed prophecy stays so: a further claim for it is refused, a claim for another one
    leaves it alone, and the operator keeps the total. -/
theorem completed_stays {call : BridgeCall} (id : H) (keeps : call.KeepsCompleted s)
    (completed : Completed id s) : Completed id (call.step env s) := by
  cases call with
  | newProphecyClaim sender p =>
    apply transact_preserves (Completed id) (newProphecyClaim env sender p) s _ completed
    intro complete t run
    have signed := newProphecyClaim_signed run
    have other : id ≠ prophecyID env p := fun same => signed.incomplete (same ▸ completed.2)
    have power : t.oracleClaimValidators id = s.oracleClaimValidators id := by
      rw [signed.power, Function.update_of_ne other]
    obtain ⟨some, reached⟩ := completed
    refine ⟨power ▸ some, ?_⟩
    rw [Reached, signed.valset, signed.threshold, power]
    exact reached
  | valset call =>
    apply transact_preserves (Completed id) (onValset call) s _ completed
    intro u t run
    obtain ⟨v, ran, rfl⟩ := onValset_succeeds.mp run
    refine ⟨completed.1, ?_⟩
    show v.totalPower * s.consensusThreshold ≤ s.oracleClaimValidators id * 100
    rw [call_total ran]
    exact keeps id completed

/-- **Paid once.** If no call of the operator raises the total power past a prophecy that has
    reached the threshold, no prophecy is completed twice. -/
theorem prophecies_pay_once {env : ContractEnv H β} {start : CosmosBridgeState H β}
    {calls : List BridgeCall}
    (keeps : EventRuns.Guarded (BridgeCall.step env) (fun s call => call.KeepsCompleted s) calls
      start.unsigned) {id : H} :
    (EventRuns.outputs (BridgeCall.step env) (BridgeCall.completes env) calls start.unsigned).count id ≤ 1 := by
  apply And.left
  apply EventRuns.outputs_once (BridgeCall.step env) (BridgeCall.completes env)
    (fun s call => call.KeepsCompleted s) id (Completed id)
  · intro s call _ paid
    exact completes_completed paid
  · intro s call met completed
    exact completed_stays id met completed
  · exact keeps

/-- The third validator leaves after the payment. -/
theorem prophecies_pay_once_removal :
    (runContracts PlainContracts.env (PlainContracts.signing ++ [.valset (.removeValidator owner 3),
      .newProphecyClaim PlainContracts.third PlainContracts.transfer]) PlainContracts.start.unsigned).bank = 1 ∧
    (EventRuns.outputs (BridgeCall.step PlainContracts.env) (BridgeCall.completes PlainContracts.env)
      (PlainContracts.signing ++ [.valset (.removeValidator owner 3),
        .newProphecyClaim PlainContracts.third PlainContracts.transfer])
      PlainContracts.start.unsigned).count ⟨encodePacked PlainContracts.transfer⟩ ≤ 1 := by
  refine ⟨by decide +kernel, prophecies_pay_once ?_⟩
  refine ⟨?_, trivial, trivial, ?_, trivial, trivial⟩
  · intro id completed
    exact absurd completed.1 (Nat.lt_irrefl 0)
  · -- the total falls
    intro id completed
    exact le_trans (Nat.mul_le_mul_right _ (Nat.sub_le _ _)) completed.2

/-- After the payment the operator adds a validator, the signed power is below the threshold
    again, and the third validator's claim pays a second time. -/
theorem prophecy_pays_twice :
    let calls := PlainContracts.signing ++ [.valset (.addValidator owner 4 2),
      .newProphecyClaim PlainContracts.third PlainContracts.transfer]
    (runContracts PlainContracts.env calls PlainContracts.start.unsigned).bank = 2 ∧
    (EventRuns.outputs (BridgeCall.step PlainContracts.env) (BridgeCall.completes PlainContracts.env)
      calls PlainContracts.start.unsigned).count ⟨encodePacked PlainContracts.transfer⟩ = 2 := by
  decide +kernel

end FuryNode
