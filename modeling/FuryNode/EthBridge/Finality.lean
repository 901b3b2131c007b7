import FuryNode.EthBridge.Keeper
import FuryNode.Oracle.Votes

/-!
The bridge acts on the prophecies through the oracle only: an event of the bridge is an event
of the oracle or none. A decided prophecy therefore keeps its record, and the coins of a
prophecy are minted by the one claim that decided it.
-/
namespace FuryNode
open StatefulProgram StatefulProgram.Prog KeyedTable OracleKeeper BridgeKeeper
variable {β : Type} {env : BridgeEnv β}

theorem oracleClaim_id {c : EthBridgeClaim} {claim : Claim}
    (made : createOracleClaimFromEthClaim env c = .ok claim) : claim.id = oracleID c := by
  simp only [createOracleClaimFromEthClaim, except_bind_succeeds, Except.ok.injEq] at made
  obtain ⟨_, _, _, _, rfl⟩ := made
  rfl

theorem mintCoins_scope (coins : Coins) :
    Preserves BridgeState.oracle (mintCoins env coins) := by
  refine preserves_read_then (fun s => ?_)
  split
  · exact preserves_modify (fun _ => rfl)
  · exact preserves_fail
  · exact preserves_fail

theorem payReceiver_scope {receiver : AccAddress} {coins : Coins} :
    Preserves BridgeState.oracle (payReceiver env receiver coins) := by
  refine preserves_read_then (fun s => ?_)
  split
  · exact preserves_modify (fun _ => rfl)
  · exact preserves_fail

theorem addPeggyToken_scope (token : String) :
    Preserves BridgeState.oracle (addPeggyToken token : BridgeAction β Unit) :=
  preserves_read_then (fun _ => preserves_when (preserves_modify (fun _ => rfl)))

theorem mintClaimed_scope (content : OracleClaimContent) :
    Preserves BridgeState.oracle (mintClaimed env content) := by
  unfold mintClaimed
  split
  · exact preserves_bind (addPeggyToken_scope _) (fun _ => preserves_bind preserves_ofExcept
      (fun coins => preserves_bind (mintCoins_scope coins) (fun _ => preserves_pure coins)))
  · exact preserves_bind preserves_ofExcept
      (fun coins => preserves_bind (mintCoins_scope coins) (fun _ => preserves_pure coins))
  · exact preserves_fail

theorem processSuccessfulClaim_scope (claim : String) :
    Preserves BridgeState.oracle (processSuccessfulClaim env claim) :=
  preserves_ofExcept_then (fun content => preserves_bind (mintClaimed_scope content)
    (fun _ => payReceiver_scope))

theorem createEthBridgeClaim_delivered {order : MapOrder} {c : EthBridgeClaim} {s t : BridgeState β}
    {status : Status} (run : (createEthBridgeClaim env order c).run s = (.ok status, t)) :
    ∃ claim : Claim, claim.id = oracleID c ∧
      (env.oracle.processClaim order claim).run s.oracle = (.ok status, t.oracle) := by
  simp only [createEthBridgeClaim, BridgeKeeper.processClaim, ofExcept_then] at run
  obtain ⟨_, _, tail⟩ := run
  obtain ⟨decided, r, claimed, rest⟩ := bind_ok tail
  obtain ⟨claim, made, called⟩ := ofExcept_then.mp claimed
  obtain ⟨o, ran, rfl⟩ := zoom_succeeds.mp called
  obtain ⟨_, u, minted, last⟩ := bind_ok rest
  obtain ⟨rfl, rfl⟩ := pure_succeeds.mp last
  have kept := preserves_when (c := decided.text = .success)
    (@processSuccessfulClaim_scope β env decided.finalClaim) { s with oracle := o }
  rw [minted] at kept
  exact ⟨claim, oracleClaim_id made, kept ▸ ran⟩

theorem step_oracle (e : BridgeEvent β) (s : BridgeState β) :
    (e.step env s).oracle = s.oracle ∨
      ∃ o : OracleEvent, (e.step env s).oracle = o.step env.oracle s.oracle := by
  cases e with
  | createEthBridgeClaim order c =>
    rcases transact_cases (createEthBridgeClaim env order c) s with same | ⟨status, run⟩
    · exact Or.inl (congrArg BridgeState.oracle same)
    · obtain ⟨claim, _, ran⟩ := createEthBridgeClaim_delivered run
      refine Or.inr ⟨.claim order claim, ?_⟩
      simp only [OracleEvent.step, transact, ran]
      rfl
  | updateWhiteListValidator sender validator operationType =>
    rcases transact_cases (updateWhiteListValidator env sender validator operationType) s with
      same | ⟨u, run⟩
    · exact Or.inl (congrArg BridgeState.oracle same)
    · simp only [updateWhiteListValidator, require_then, ofExcept_then, read_then] at run
      obtain ⟨_, _, account, _, _, valAddr, _, called⟩ := run
      obtain ⟨o, ran, after⟩ := zoom_succeeds.mp called
      refine Or.inr ⟨.updateWhiteList account valAddr operationType, ?_⟩
      simp only [OracleEvent.step, transact, ran]
      exact (congrArg BridgeState.oracle after).symm
  | elsewhere bank accounts staking => exact Or.inr ⟨.restake staking, rfl⟩

theorem bridge_sound (events : List (BridgeEvent β)) (s : BridgeState β)
    (sound : Sound env.oracle s.oracle) : Sound env.oracle (runBridge env events s).oracle := by
  apply EventRuns.run_preserves (BridgeEvent.step env) (fun _ _ => True)
    (fun s => Sound env.oracle s.oracle)
  · intro s e _ now
    rcases @step_oracle β env e s with same | ⟨o, stepped⟩
    · rw [same]
      exact now
    · rw [stepped]
      exact step_sound o s.oracle now
  · exact EventRuns.guarded_all _ (fun _ => True) events s (fun _ _ => trivial)
  · exact sound

theorem bridge_final (e : BridgeEvent β) {s : BridgeState β} {id : String} {p : Prophecy}
    (found : env.oracle.getProphecy s.oracle id = some p) (final : p.status.text ≠ .pending) :
    env.oracle.getProphecy (e.step env s).oracle id = some p := by
  rcases @step_oracle β env e s with same | ⟨o, stepped⟩
  · rw [same]
    exact found
  · rw [getProphecy, stepped, step_final o found final]
    exact found

theorem bridge_run_final (later : List (BridgeEvent β)) {s : BridgeState β} {id : String}
    {p : Prophecy} (found : env.oracle.getProphecy s.oracle id = some p)
    (final : p.status.text ≠ .pending) :
    env.oracle.getProphecy (runBridge env later s).oracle id = some p :=
  EventRuns.run_preserves (BridgeEvent.step env) (fun _ _ => True)
    (fun s => env.oracle.getProphecy s.oracle id = some p)
    (fun _ e _ now => bridge_final e now final) later s
    (EventRuns.guarded_all _ (fun _ => True) later s (fun _ _ => trivial)) found

def Succeeded (env : BridgeEnv β) (id : String) (s : BridgeState β) : Prop :=
  ∃ p, env.oracle.getProphecy s.oracle id = some p ∧ p.status.text = .success

theorem completes_once {e : BridgeEvent β} {s : BridgeState β} {id : String}
    (minted : e.completes env s = some id) :
    ¬Succeeded env id s ∧ Succeeded env id (e.step env s) := by
  cases e with
  | updateWhiteListValidator sender validator operationType => cases minted
  | elsewhere bank accounts staking => cases minted
  | createEthBridgeClaim order c =>
    simp only [BridgeEvent.completes] at minted
    rcases run : (createEthBridgeClaim env order c).run s with ⟨outcome, t⟩
    rw [run] at minted
    cases outcome with
    | error e => cases minted
    | ok status =>
      dsimp only at minted
      split at minted
      · rename_i success
        cases minted
        obtain ⟨claim, own, ran⟩ := createEthBridgeClaim_delivered run
        obtain ⟨a, taken⟩ := processClaim_taken ran
        have stepped : BridgeEvent.step env (.createEthBridgeClaim order c) s = t := by
          simp only [BridgeEvent.step, transact, run]
        constructor
        · rintro ⟨p, found, already⟩
          have pending := taken.pending
          rw [own, current, found] at pending
          rw [Option.getD_some, already] at pending
          cases pending
        · refine ⟨decided env.oracle order claim s.oracle a, ?_, taken.status ▸ success⟩
          rw [stepped, ← own]
          exact taken_own taken
      · cases minted

/-- Every validator with a claim on record stands once in the list of the content it claimed
    and in no other list, and every validator in a list has that claim on record. -/
structure CountedOnce (k : OracleKeeper) (p : Prophecy) : Prop where
  votes : ∀ vote ∈ p.validatorClaims.rows, ∃ a, vote.validator = k.valAddressString a ∧
    ∀ content, (p.claimers content).count a = if content = vote.content then 1 else 0
  lists : ∀ entry ∈ p.claimValidators.rows, ∀ a ∈ entry.validators,
    p.validatorClaims.get (k.valAddressString a) = some ⟨k.valAddressString a, entry.content⟩

theorem recorded_countedOnce {k : OracleKeeper} {p : Prophecy} (recorded : p.Recorded k) :
    CountedOnce k p where
  votes := by
    intro vote member
    obtain ⟨_, a, own⟩ := recorded.named vote member
    refine ⟨a, own, ?_⟩
    intro content
    have found : p.validatorClaims.get (k.valAddressString a) = some vote :=
      (p.validatorClaims.get_some_iff _ vote).mpr ⟨member, own⟩
    split
    · rename_i same
      apply List.count_eq_one_of_mem (recorded.once content)
      rw [recorded.agrees, found, same, ← own]
    · rename_i other
      rw [List.count_eq_zero, recorded.agrees, found, ← own]
      intro same
      exact other (congrArg VoteEntry.content (Option.some.inj same)).symm
  lists := by
    intro entry member a inside
    have found := Table.get_row member
    rw [← recorded.agrees, Prophecy.claimers, found]
    exact inside

def BridgeState.withoutProphecies (s : BridgeState β) : BridgeState β :=
  { s with oracle := { s.oracle with prophecies := .empty } }

end FuryNode
