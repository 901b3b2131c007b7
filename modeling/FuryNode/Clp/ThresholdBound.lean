import FuryNode.Clp.BeginBlock
import FuryNode.Clp.TradeScope
import FuryNode.Library.EventRuns

/-!
The threshold of liquidity protection against its maximum. Every writer but one keeps the
order of the two: an administrator may store any threshold, and the next block then
subtracts it from the maximum.
-/
namespace FuryNode
open StatefulProgram StatefulProgram.Prog KeyedTable ClpKeeper BeginBlock PolicyMsgServer
variable {β : Type}

def World.ThresholdBounded (w : World β) : Prop :=
  w.clp.liquidityProtectionIsActive = true →
    w.currentFuryLiquidityThreshold ≤ w.clp.maxFuryLiquidityThreshold

/-- An administrator stores a threshold above the maximum only while protection is off. -/
def KeepsBelowMaximum (env : PolicyEnv β) (s : PolicyState β) : PolicyEvent → Prop
  | .deliver (.modifyLiquidityProtectionRates m) =>
      s.Authorised env .clpdex m.signer → s.world.clp.liquidityProtectionIsActive = true →
        m.currentFuryLiquidityThreshold ≤ s.world.clp.maxFuryLiquidityThreshold
  | _ => True

theorem updatedThreshold_bounded {sellNative : Bool} {maximum current nativeValue updated : ℕ}
    (bounded : current ≤ maximum)
    (computed : updatedThreshold sellNative maximum current nativeValue = .ok updated) :
    updated ≤ maximum := by
  unfold updatedThreshold at computed
  cases sellNative with
  | true =>
    simp only [reduceIte] at computed
    split at computed
    · cases computed
    · obtain ⟨_, rfl⟩ := (Uint.sub_succeeds _ _ _).mp computed
      omega
  | false =>
    simp only [Bool.false_eq_true, reduceIte, except_bind_succeeds, Uint.sub_succeeds] at computed
    obtain ⟨room, ⟨_, rfl⟩, rest⟩ := computed
    split at rest
    · cases rest
      exact le_rfl
    · obtain ⟨_, rfl⟩ := (Uint.add_succeeds _ _ _).mp rest
      omega

theorem updatedThreshold_no_underflow (sellNative : Bool) (maximum current nativeValue : ℕ)
    (bounded : current ≤ maximum) :
    updatedThreshold sellNative maximum current nativeValue ≠ .error (.panic .underflow) := by
  unfold updatedThreshold
  cases sellNative with
  | true =>
    simp only [reduceIte]
    split
    · simp
    · rename_i enough
      simp [Uint.sub, Nat.not_lt.mp enough]
  | false =>
    have room : Uint.sub maximum current = .ok (maximum - current) :=
      (Uint.sub_succeeds _ _ _).mpr ⟨bounded, rfl⟩
    simp only [Bool.false_eq_true, reduceIte, room]
    intro failed
    change (if maximum - current < nativeValue then pure maximum else Uint.add current nativeValue) =
      Except.error (.panic .underflow) at failed
    unfold Uint.add at failed
    split_ifs at failed <;> cases failed

theorem replenished_bounded {maximum current epochLength updated : ℕ}
    (bounded : current ≤ maximum) (computed : replenished maximum current epochLength = .ok updated) :
    updated ≤ maximum := by
  simp only [replenished, except_bind_succeeds, Uint.quo_succeeds, Uint.sub_succeeds] at computed
  obtain ⟨amount, _, room, ⟨_, rfl⟩, rest⟩ := computed
  split at rest
  · cases rest
    exact le_rfl
  · obtain ⟨_, rfl⟩ := (Uint.add_succeeds _ _ _).mp rest
    omega

theorem bounded_blind : BlindToTrades (World.ThresholdBounded (β := β)) where
  bank _ _ := rfl
  pools _ _ := rfl
  positions _ _ _ _ := rfl
  shortfall _ _ := rfl
  providers _ _ := rfl
  requests _ _ := rfl
  queues _ _ := rfl

theorem mustUpdate_keeps_bounded (sellNative : Bool) (nativeAmount : ℕ) (nativePrice : Dec) :
    Maintains World.ThresholdBounded
      (mustUpdateLiquidityProtectionThreshold sellNative nativeAmount nativePrice : Action β Unit) := by
  refine maintains_of_meets fun w bounded => meets_read_then (meets_when ?_ fun _ => bounded)
  intro active
  refine meets_ofExcept_then ?_ fun _ _ => bounded
  intro nativeValue _
  refine meets_ofExcept_then ?_ fun _ _ => bounded
  intro updated computed
  exact meets_modify fun _ => updatedThreshold_bounded (bounded active) computed

theorem replenishThreshold_keeps_bounded :
    Maintains (fun s : PolicyState β => s.world.ThresholdBounded) replenishThreshold := by
  refine maintains_of_meets fun s bounded => meets_read_then (meets_when ?_ fun _ => bounded)
  intro active
  refine meets_ofExcept_then ?_ fun _ _ => bounded
  intro updated computed
  exact meets_modify fun _ => replenished_bounded (bounded active) computed

section Writers
variable (env : PolicyEnv β)

theorem nextBlock_keeps_bounded :
    Maintains (fun s : PolicyState β => s.world.ThresholdBounded) (nextBlock env) := by
  have pmtp : Preserves (fun s : PolicyState β => s.world.ThresholdBounded) (pmtpBlock env) := by
    refine preserves_bind (preserves_read_then fun _ => preserves_when ?_) fun _ =>
      preserves_bind (preserves_read_then fun _ => preserves_ite ?_ (preserves_pure _)) fun _ =>
      preserves_bind (preserves_read_then fun _ => preserves_when (preserves_modify fun _ => rfl))
        fun _ => preserves_bind (preserves_read_then fun _ =>
          preserves_when (preserves_modify fun _ => rfl)) fun _ => preserves_pure _
    · exact preserves_read_then fun _ => preserves_require_then fun _ =>
        preserves_ofExcept_then fun _ => preserves_modify fun _ => rfl
    · refine preserves_bind ?_ fun _ => preserves_bind (preserves_modify fun _ => rfl) fun _ =>
        preserves_pure _
      exact preserves_read_then fun _ => preserves_ofExcept_then fun _ =>
        preserves_ofExcept_then fun _ => preserves_ofExcept_then fun _ =>
        preserves_ofExcept_then fun _ => preserves_bind (preserves_modify fun _ => rfl) fun _ =>
        preserves_pure _
  exact maintains_then (preserves_modify fun _ => rfl) fun _ =>
    maintains_bind replenishThreshold_keeps_bounded fun _ => maintains_then pmtp fun _ =>
    maintains_of_preserves (policyRun_scope (fun _ _ => rfl) env _)

theorem pmtpMessages_scope {m : PolicyMsg}
    (pmtp : (∃ u, m = .updatePmtpParams u) ∨ ∃ u, m = .modifyPmtpRates u) :
    Preserves (fun s : PolicyState β => s.world.ThresholdBounded) (m.action env) := by
  obtain ⟨u, rfl⟩ | ⟨u, rfl⟩ := pmtp
  · exact preserves_ofExcept_then fun _ => preserves_bind (requireAdmin_scope env) fun _ =>
      preserves_read_then fun _ => preserves_require_then fun _ =>
      preserves_require_then fun _ => preserves_ofExcept_then fun _ =>
      preserves_modify fun _ => rfl
  · exact preserves_bind (requireAdmin_scope env) fun _ => preserves_read_then fun _ =>
      preserves_ite (preserves_when (preserves_modify fun _ => rfl))
        (preserves_ofExcept_then fun _ => preserves_ofExcept_then fun _ =>
          preserves_modify fun _ => rfl)

theorem updateLiquidityProtectionParams_keeps_bounded (m : MsgUpdateLiquidityProtectionParams) :
    Maintains (fun s : PolicyState β => s.world.ThresholdBounded)
      (updateLiquidityProtectionParams env m) :=
  maintains_then preserves_ofExcept fun _ =>
    maintains_then preserves_require fun _ =>
    maintains_then (requireAdmin_scope env) fun _ =>
    maintains_modify fun _ _ _ => le_rfl

theorem modifyLiquidityProtectionRates_succeeds {m : MsgModifyLiquidityProtectionRates}
    {s t : PolicyState β} {u : Unit} :
    (modifyLiquidityProtectionRates env m).run s = (.ok u, t) ↔
      s.Authorised env .clpdex m.signer ∧ t = s.setThreshold m.currentFuryLiquidityThreshold := by
  simp only [modifyLiquidityProtectionRates, bind_succeeds, requireAdmin_succeeds, modify_succeeds]
  constructor
  · rintro ⟨_, _, ⟨admin, rfl⟩, rfl⟩
    exact ⟨admin, rfl⟩
  · rintro ⟨admin, rfl⟩
    exact ⟨(), s, ⟨admin, rfl⟩, rfl⟩

theorem step_keeps_bounded (s : PolicyState β) (e : PolicyEvent)
    (admitted : KeepsBelowMaximum env s e) (bounded : s.world.ThresholdBounded) :
    (e.step env s).world.ThresholdBounded := by
  cases e with
  | beginBlock => exact maintains_transact (nextBlock_keeps_bounded env) bounded
  | deliver m =>
    cases m with
    | updatePmtpParams u =>
      exact maintains_transact (maintains_of_preserves (pmtpMessages_scope env (Or.inl ⟨u, rfl⟩))) bounded
    | modifyPmtpRates u =>
      exact maintains_transact (maintains_of_preserves (pmtpMessages_scope env (Or.inr ⟨u, rfl⟩))) bounded
    | updateLiquidityProtectionParams u =>
      exact maintains_transact (updateLiquidityProtectionParams_keeps_bounded env u) bounded
    | modifyLiquidityProtectionRates u =>
      refine transact_preserves (fun t => t.world.ThresholdBounded) _ s ?_ bounded
      intro _ t run
      obtain ⟨admin, rfl⟩ := (modifyLiquidityProtectionRates_succeeds env).mp run
      exact admitted admin
    | trade u =>
      have kept := clpMsg_keeps bounded_blind mustUpdate_keeps_bounded env.toEnv u
      exact maintains_transact (trade_keeps kept) bounded

theorem replenished_no_underflow (maximum current epochLength : ℕ) (bounded : current ≤ maximum) :
    replenished maximum current epochLength ≠ .error (.panic .underflow) := by
  unfold replenished Uint.quo
  split
  · simp [bind, Except.bind]
  · have room : Uint.sub maximum current = .ok (maximum - current) :=
      (Uint.sub_succeeds _ _ _).mpr ⟨bounded, rfl⟩
    simp only [room, bind, Except.bind, Uint.add]
    split_ifs <;> simp [pure, Except.pure]

/-- Along a run in which no administrator stores a threshold above an active maximum, the
    threshold stays below it, and neither the begin of a block nor a trade underflows. -/
theorem threshold_stays_bounded (events : List PolicyEvent) (s : PolicyState β)
    (bounded : s.world.ThresholdBounded)
    (guarded : EventRuns.Guarded (PolicyEvent.step env) (KeepsBelowMaximum env) events s) :
    let w := (EventRuns.run (PolicyEvent.step env) events s).world
    w.clp.liquidityProtectionIsActive = true →
      w.currentFuryLiquidityThreshold ≤ w.clp.maxFuryLiquidityThreshold ∧
      (∀ epochLength, replenished w.clp.maxFuryLiquidityThreshold w.currentFuryLiquidityThreshold
        epochLength ≠ .error (.panic .underflow)) ∧
      ∀ sellNative nativeValue, updatedThreshold sellNative w.clp.maxFuryLiquidityThreshold
        w.currentFuryLiquidityThreshold nativeValue ≠ .error (.panic .underflow) := by
  intro w active
  have below : w.ThresholdBounded := EventRuns.run_preserves (PolicyEvent.step env) (KeepsBelowMaximum env)
    (fun t => t.world.ThresholdBounded) (fun t e => step_keeps_bounded env t e) events s guarded bounded
  exact ⟨below active, fun epochLength => replenished_no_underflow _ _ epochLength (below active),
    fun sellNative nativeValue => updatedThreshold_no_underflow sellNative _ _ nativeValue (below active)⟩

end Writers

namespace PlainPolicy

def protectedAt1000 : PolicyEvent := .deliver (.updateLiquidityProtectionParams ⟨"carol", 1000, "fury", 10, true⟩)

def thresholdSetTo (threshold : ℕ) : PolicyEvent :=
  .deliver (.modifyLiquidityProtectionRates ⟨"carol", threshold⟩)

/-- A threshold set within the maximum is replenished by the next block. -/
theorem threshold_stays_bounded_replenished :
    (EventRuns.run (PolicyEvent.step env) [protectedAt1000, thresholdSetTo 400, .beginBlock]
      start).world.currentFuryLiquidityThreshold = 500 ∧
    (500 ≤ 1000 ∧
      (∀ epochLength, replenished 1000 500 epochLength ≠ .error (.panic .underflow)) ∧
      ∀ sellNative nativeValue,
        updatedThreshold sellNative 1000 500 nativeValue ≠ .error (.panic .underflow)) := by
  refine ⟨by decide +kernel, ?_⟩
  have conclusion := threshold_stays_bounded env [protectedAt1000, thresholdSetTo 400, .beginBlock] start
    (fun _ => le_rfl) ⟨trivial, fun _ _ => by decide +kernel, trivial, trivial⟩ (by decide +kernel)
  have state : (EventRuns.run (PolicyEvent.step env) [protectedAt1000, thresholdSetTo 400, .beginBlock]
      start).world.currentFuryLiquidityThreshold = 500 ∧
      (EventRuns.run (PolicyEvent.step env) [protectedAt1000, thresholdSetTo 400, .beginBlock]
        start).world.clp.maxFuryLiquidityThreshold = 1000 := by decide +kernel
  simpa only [state.1, state.2] using conclusion

/-- The administrator sets 1001 of 1000, and the chain halts at the next block. -/
theorem threshold_above_maximum_halts :
    let s := EventRuns.run (PolicyEvent.step env) [protectedAt1000, thresholdSetTo 1001] start
    s.world.clp.liquidityProtectionIsActive = true ∧
      s.world.clp.maxFuryLiquidityThreshold < s.world.currentFuryLiquidityThreshold ∧
      ((nextBlock env).run s).1 = .error (.panic .underflow) := by
  decide +kernel

end PlainPolicy
end FuryNode
