import FuryNode.Contracts.Payouts
import Mathlib.Algebra.Order.BigOperators.Group.Finset

/-!
Whether the active signers of a completed prophecy reach the threshold with the powers they
have. The signed power of a prophecy is summed up as the claims come in, so it is that of its
active signers as long as the operator lowers no power that has been counted.
-/
namespace FuryNode
open StatefulProgram StatefulProgram.Prog PointSums Valset CosmosBridge
variable {H β : Type} {env : ContractEnv H β}

def signedPower (s : CosmosBridgeState H β) (id : H) (v : Address) : ℕ :=
  if s.hasMadeClaim id v = true ∧ isActiveValidator s.valset v = true then
    getValidatorPower s.valset v else 0

def Backed (s : CosmosBridgeState H β) (id : H) : Prop :=
  s.oracleClaimValidators id ≤ ∑ v, signedPower s id v

theorem signedPower_made (s : CosmosBridgeState H β) (id : H) (v : Address)
    (made : s.hasMadeClaim id v = true) : signedPower s id v = activePower s.valset v := by
  simp [signedPower, activePower, made]

theorem signedPower_not_made (s : CosmosBridgeState H β) (id : H) (v : Address)
    (notMade : s.hasMadeClaim id v = false) : signedPower s id v = 0 := by
  simp [signedPower, notMade]

/-- The power that a list gives to a validator, the last entry being the one that stays. -/
def listedPower (v : Address) : List (Address × ℕ) → ℕ → ℕ
  | [], now => now
  | w :: rest, now => listedPower v rest (if v = w.1 then w.2 else now)

theorem listedPower_mono {v : Address} {validators : List (Address × ℕ)} {m n : ℕ} (le : m ≤ n) :
    listedPower v validators m ≤ listedPower v validators n := by
  induction validators generalizing m n with
  | nil => exact le
  | cons w rest ih =>
    apply ih
    split
    · exact le_rfl
    · exact le

theorem addAll_power (v : Address) (validators : List (Address × ℕ)) (s t : ValsetState) (u : Unit)
    (run : (addAll validators).run s = (.ok u, t)) :
    activePower t v = listedPower v validators (activePower s v) := by
  induction validators generalizing s with
  | nil =>
    obtain ⟨_, rfl⟩ := pure_succeeds.mp run
    rfl
  | cons w rest ih =>
    obtain ⟨_, r, first, later⟩ := bind_ok run
    obtain ⟨_, _, rfl⟩ := addValidatorInternal_succeeds.mp first
    rw [ih _ later, activePower_set]
    rfl

theorem refill_power (v : Address) (validators : List (Address × ℕ)) (s t : ValsetState) (u : Unit)
    (run : (do resetValset; addAll validators : ValsetAction Unit).run s = (.ok u, t)) :
    listedPower v validators 0 ≤ activePower t v := by
  obtain ⟨_, r, _, added⟩ := bind_ok run
  rw [addAll_power v validators r t u added]
  exact listedPower_mono (Nat.zero_le _)

def ValsetCall.powerAfter (s : ValsetState) (v : Address) : ValsetCall → ℕ
  | .initializeValset _ validators powers => listedPower v (validators.zip powers) 0
  | .addValidator _ a power => if v = a then power else activePower s v
  | .updateValidatorPower _ a power => if v = a then power else activePower s v
  | .removeValidator _ a => if v = a then 0 else activePower s v
  | .updateValset _ validators powers => listedPower v (validators.zip powers) 0
  | .recoverGas _ _ a => if v = a then 0 else activePower s v

theorem call_power (v : Address) {call : ValsetCall} {s t : ValsetState} {u : Unit}
    (run : call.action.run s = (.ok u, t)) : call.powerAfter s v ≤ activePower t v := by
  have writes := call_writes run
  cases call with
  | initializeValset operator validators powers => exact refill_power v _ _ t u writes.2.2
  | addValidator sender a power =>
    obtain ⟨_, rfl⟩ := writes
    rw [activePower_set]
    exact le_rfl
  | updateValidatorPower sender a power =>
    obtain ⟨_, _, _, rfl⟩ := writes
    exact (activePower_set s a v true power).ge
  | removeValidator sender a =>
    obtain ⟨_, _, _, _, rfl⟩ := writes
    rw [activePower_set]
    exact le_rfl
  | updateValset sender validators powers => exact refill_power v _ s t u writes.2.2
  | recoverGas sender version a =>
    obtain ⟨_, _, rfl⟩ := writes
    rw [activePower_set]
    exact le_rfl

/-- A call of the operator lowers no power that a prophecy still short of the threshold counts. -/
def BridgeCall.KeepsSigners (s : CosmosBridgeState H β) : BridgeCall → Prop
  | .newProphecyClaim _ _ => True
  | .valset call => ∀ id, ¬Reached s id → ∀ v, s.hasMadeClaim id v = true →
      activePower s.valset v ≤ call.powerAfter s.valset v

variable {s t : CosmosBridgeState H β}

theorem onValset_backed {call : ValsetCall} {u : Unit} {id : H}
    (keeps : ∀ v, s.hasMadeClaim id v = true → activePower s.valset v ≤ call.powerAfter s.valset v)
    (backed : Backed s id) (run : (onValset call : ContractAction H β Unit).run s = (.ok u, t)) :
    Backed t id := by
  obtain ⟨w, ran, rfl⟩ := onValset_succeeds.mp run
  refine le_trans backed (Finset.sum_le_sum (fun v _ => ?_))
  cases made : s.hasMadeClaim id v with
  | false =>
    rw [signedPower_not_made s id v made]
    exact Nat.zero_le _
  | true =>
    rw [signedPower_made s id v made, signedPower_made { s with valset := w } id v made]
    exact le_trans (keeps v made) (call_power v ran)

variable [DecidableEq H]

theorem signed_backed {sender : Caller} {p : ProphecyArgs} {complete : Bool}
    (signed : ClaimSigned env sender p s complete t) (backed : Backed s (prophecyID env p)) :
    Backed t (prophecyID env p) := by
  have trade := sum_change (signedPower s (prophecyID env p)) (signedPower t (prophecyID env p))
    sender.address (fun v other => by
      simp only [signedPower, signed.valset, signed.made, Function.update_self,
        Function.update_of_ne other])
  have before := signedPower_not_made s _ _ signed.fresh
  have after : signedPower t (prophecyID env p) sender.address =
      getValidatorPower s.valset sender.address := by
    simp [signedPower, signed.valset, signed.made, signed.active]
  unfold Backed at backed ⊢
  rw [signed.power, Function.update_self]
  omega

theorem signed_backed_other {sender : Caller} {p : ProphecyArgs} {complete : Bool}
    (signed : ClaimSigned env sender p s complete t) (id : H) (other : id ≠ prophecyID env p)
    (backed : Backed s id) : Backed t id := by
  have same : signedPower t id = signedPower s id := by
    funext v
    simp only [signedPower, signed.valset, signed.made, Function.update_of_ne other]
  rw [Backed, same, signed.power, Function.update_of_ne other]
  exact backed

theorem step_backed {call : BridgeCall} {id : H} (completed : call.KeepsCompleted s)
    (signers : call.KeepsSigners s) (now : Completed id s ∨ Backed s id) :
    Completed id (call.step env s) ∨ Backed (call.step env s) id := by
  rcases now with done | backed
  · exact .inl (completed_stays id completed done)
  cases call with
  | newProphecyClaim sender p =>
    right
    apply transact_preserves (Backed · id) (newProphecyClaim env sender p) s _ backed
    intro complete t run
    have signed := newProphecyClaim_signed run
    by_cases same : id = prophecyID env p
    · subst same
      exact signed_backed signed backed
    · exact signed_backed_other signed id same backed
  | valset call =>
    by_cases reached : Reached s id
    · rcases Nat.eq_zero_or_pos (s.oracleClaimValidators id) with none | some
      · -- nothing is signed, so nothing has to be covered
        right
        apply transact_preserves (Backed · id) (onValset call) s _ backed
        intro u t run
        obtain ⟨w, _, rfl⟩ := onValset_succeeds.mp run
        exact none.le.trans (Nat.zero_le _)
      · exact .inl (completed_stays id completed ⟨some, reached⟩)
    · right
      apply transact_preserves (Backed · id) (onValset call) s _ backed
      exact fun u t run => onValset_backed (signers id reached) backed run

/-- **Active quorum.** If no call of the operator lowers a power that an open prophecy counts or
    raises the total past a prophecy that has reached the threshold, then whenever a call
    completes a prophecy, the validators that are active after it and signed it reach the
    threshold with the powers they have. -/
theorem active_signers_reach_threshold (env : ContractEnv H β) (start : CosmosBridgeState H β)
    (calls : List BridgeCall) (call : BridgeCall) (id : H)
    (keeps : EventRuns.Guarded (BridgeCall.step env)
      (fun s call => call.KeepsCompleted s ∧ call.KeepsSigners s) calls start.unsigned)
    (completes : call.completes env (runContracts env calls start.unsigned) = some id) :
    let s := runContracts env (calls ++ [call]) start.unsigned
    s.valset.totalPower * s.consensusThreshold ≤
      (∑ v : Address, if s.hasMadeClaim id v = true ∧ isActiveValidator s.valset v = true then
        getValidatorPower s.valset v else 0) * 100 := by
  intro s
  have before : Completed id (runContracts env calls start.unsigned) ∨
      Backed (runContracts env calls start.unsigned) id :=
    EventRuns.run_preserves (BridgeCall.step env)
      (fun s call => call.KeepsCompleted s ∧ call.KeepsSigners s)
      (fun s => Completed id s ∨ Backed s id)
      (fun s call met now => step_backed met.1 met.2 now) calls _ keeps
      (.inr (Nat.zero_le _))
  have last : s = call.step env (runContracts env calls start.unsigned) := EventRuns.run_snoc _ _ _ _
  obtain ⟨sender, p, _, rfl, signed⟩ := completes_signed completes
  have pending := (completes_completed completes).1
  have backed := signed_backed signed (before.resolve_left pending)
  have reached := signed.complete_iff.mp rfl
  rw [← last] at backed reached
  exact le_trans reached (Nat.mul_le_mul_right 100 backed)

/-- The power of the first signer is raised between the two claims. -/
theorem active_signers_reach_threshold_raise :
    let calls := PlainContracts.opening ++ [.valset (.updateValidatorPower owner 1 5)]
    let call := BridgeCall.newProphecyClaim PlainContracts.second PlainContracts.transfer
    let s := runContracts PlainContracts.env (calls ++ [call]) PlainContracts.start.unsigned
    s.valset.totalPower = 11 ∧ s.valset.totalPower * s.consensusThreshold ≤
      (∑ v : Address, if s.hasMadeClaim ⟨encodePacked PlainContracts.transfer⟩ v = true ∧
        isActiveValidator s.valset v = true then getValidatorPower s.valset v else 0) * 100 := by
  intro calls call s
  refine ⟨by decide +kernel, active_signers_reach_threshold PlainContracts.env PlainContracts.start
    calls call ⟨encodePacked PlainContracts.transfer⟩ ?_ (by decide +kernel)⟩
  refine ⟨⟨fun id completed => absurd completed.1 (Nat.lt_irrefl 0), fun id _ v made => nomatch made⟩,
    ⟨trivial, trivial⟩, ⟨fun id completed => ?_, fun id _ v _ => ?_⟩, trivial⟩
  · -- no prophecy has more than the four of the first signer
    have signed : Function.update (fun _ => 0) ⟨encodePacked PlainContracts.transfer⟩ 4 id ≤ 4 := by
      rw [Function.update_apply]
      split <;> decide
    have reached : 10 * 70 ≤
        Function.update (fun _ => 0) ⟨encodePacked PlainContracts.transfer⟩ 4 id * 100 := completed.2
    omega
  · by_cases same : v = 1
    · subst same
      decide +kernel
    · rw [ValsetCall.powerAfter, if_neg same]

/-- The first signer is removed before the second one signs: the power that it had still
    completes the prophecy. -/
theorem removed_signer_counts :
    let calls := PlainContracts.opening ++ [.valset (.removeValidator owner 1)]
    let call := BridgeCall.newProphecyClaim PlainContracts.second PlainContracts.transfer
    let s := runContracts PlainContracts.env (calls ++ [call]) PlainContracts.start.unsigned
    call.completes PlainContracts.env (runContracts PlainContracts.env calls PlainContracts.start.unsigned) =
      some ⟨encodePacked PlainContracts.transfer⟩ ∧
    s.valset.totalPower * s.consensusThreshold = 420 ∧
    (∑ v : Address, if s.hasMadeClaim ⟨encodePacked PlainContracts.transfer⟩ v = true ∧
      isActiveValidator s.valset v = true then getValidatorPower s.valset v else 0) * 100 = 400 := by
  intro calls call s
  refine ⟨by decide +kernel, by decide +kernel, ?_⟩
  have others : ∀ v, v ∉ [1, 2] → signedPower s ⟨encodePacked PlainContracts.transfer⟩ v = 0 := by
    intro v absent
    obtain ⟨first, second⟩ : v ≠ 1 ∧ v ≠ 2 := by simpa using absent
    apply signedPower_not_made
    have made : s.hasMadeClaim ⟨encodePacked PlainContracts.transfer⟩ =
        Function.update (Function.update (fun _ => false) 1 true) 2 true := rfl
    rw [made, Function.update_of_ne second, Function.update_of_ne first]
  have sum : ∑ v, signedPower s ⟨encodePacked PlainContracts.transfer⟩ v = 4 :=
    (sum_listed _ [1, 2] (by decide) others).trans (by decide +kernel)
  exact congrArg (· * 100) sum

end FuryNode
