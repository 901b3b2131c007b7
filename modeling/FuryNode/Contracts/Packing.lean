import FuryNode.Contracts.Payouts

/-!
What a prophecy id says about the parameters that were signed. The packed encoding has two
fields of variable length, the sender and the symbol, without their lengths: bytes can move
from one to the other through the fields of fixed width between them. Among parameters whose
senders are equally long the encoding is faithful.
-/
namespace FuryNode
open StatefulProgram StatefulProgram.Prog Valset CosmosBridge

theorem bigEndian_length (n x : ℕ) : (bigEndian n x).length = n := by
  induction n generalizing x with
  | zero => rfl
  | succ n ih => rw [bigEndian, List.length_append, ih, List.length_singleton]

theorem byte_injective (x y : ℕ) (same : (x % 256).toUInt8 = (y % 256).toUInt8) : x % 256 = y % 256 := by
  have bytes := congrArg UInt8.toNat same
  simpa using bytes

/-- The bytes of numbers that fit are those of one number only. -/
theorem bigEndian_injective (n x y : ℕ) (hx : x < 256 ^ n) (hy : y < 256 ^ n)
    (same : bigEndian n x = bigEndian n y) : x = y := by
  induction n generalizing x y with
  | zero =>
    rw [Nat.pow_zero] at hx hy
    omega
  | succ n ih =>
    obtain ⟨high, low⟩ := List.append_inj' same rfl
    rw [Nat.pow_succ] at hx hy
    have quotients := ih (x / 256) (y / 256) (Nat.div_lt_of_lt_mul (by omega))
      (Nat.div_lt_of_lt_mul (by omega)) high
    have digits := byte_injective x y (List.singleton_inj.mp low)
    omega

theorem uint256_bytes {x y : Uint256} (same : bigEndian 32 x = bigEndian 32 y) : x = y :=
  Fin.ext (bigEndian_injective 32 x y x.isLt y.isLt same)

theorem address_bytes {a b : Address} (same : bigEndian 20 a = bigEndian 20 b) : a = b :=
  Fin.ext (bigEndian_injective 20 a b a.isLt b.isLt same)

theorem toUint8_injective {c d : ProphecyType} (same : c.toUint8 = d.toUint8) : c = d := by
  cases c <;> cases d <;> first | rfl | exact absurd same (by decide)

theorem encodePacked_faithful {p q : ProphecyArgs} (packed : encodePacked p = encodePacked q)
    (senders : p.cosmosSender.length = q.cosmosSender.length) : p = q := by
  unfold encodePacked at packed
  obtain ⟨beforeAmount, amount⟩ := List.append_inj' packed (by rw [bigEndian_length, bigEndian_length])
  obtain ⟨beforeSymbol, symbol⟩ := List.append_inj beforeAmount
    (by simp only [List.length_append, bigEndian_length, List.length_singleton, senders])
  obtain ⟨beforeReceiver, receiver⟩ := List.append_inj' beforeSymbol
    (by rw [bigEndian_length, bigEndian_length])
  obtain ⟨beforeSequence, sequence⟩ := List.append_inj' beforeReceiver
    (by rw [bigEndian_length, bigEndian_length])
  obtain ⟨claimType, sender⟩ := List.append_inj beforeSequence rfl
  cases p
  cases q
  simp only [ProphecyArgs.mk.injEq]
  exact ⟨toUint8_injective (List.singleton_inj.mp claimType), sender, uint256_bytes sequence,
    address_bytes receiver, symbol, uint256_bytes amount⟩

variable {H β : Type} [DecidableEq H] {env : ContractEnv H β}

theorem signs_signed {call : BridgeCall} {s : CosmosBridgeState H β} {v : Address} {p : ProphecyArgs} :
    call.signs env s = some (v, p) ↔ ∃ sender complete t, call = .newProphecyClaim sender p ∧
      sender.address = v ∧ (newProphecyClaim env sender p).run s = (.ok complete, t) := by
  cases call with
  | valset call => simp [BridgeCall.signs]
  | newProphecyClaim sender q =>
    rcases run : (newProphecyClaim env sender q).run s with ⟨outcome, t⟩
    cases outcome with
    | error e =>
      simp only [BridgeCall.signs, run]
      constructor
      · nofun
      · rintro ⟨_, complete, t', same, _, other⟩
        cases same
        rw [run] at other
        cases other
    | ok complete =>
      simp only [BridgeCall.signs, run, Option.some.injEq, Prod.mk.injEq]
      constructor
      · rintro ⟨rfl, rfl⟩
        exact ⟨sender, complete, t, rfl, rfl, run⟩
      · rintro ⟨_, _, _, same, rfl, _⟩
        cases same
        exact ⟨rfl, rfl⟩

def signaturesOf (env : ContractEnv H β) (calls : List BridgeCall) (s : CosmosBridgeState H β) :
    List (Address × ProphecyArgs) :=
  EventRuns.outputs (BridgeCall.step env) (BridgeCall.signs env) calls s

def Attributed (env : ContractEnv H β) (signatures : List (Address × ProphecyArgs))
    (s : CosmosBridgeState H β) : Prop :=
  ∀ id v, s.hasMadeClaim id v = true → ∃ p, (v, p) ∈ signatures ∧ prophecyID env p = id

theorem step_attributed (signatures : List (Address × ProphecyArgs)) (call : BridgeCall)
    (s : CosmosBridgeState H β) (attributed : Attributed env signatures s) :
    Attributed env (signatures ++ (call.signs env s).toList) (call.step env s) := by
  have earlier : Attributed env (signatures ++ (call.signs env s).toList) s := by
    intro id v made
    obtain ⟨p, member, named⟩ := attributed id v made
    exact ⟨p, by simp [member], named⟩
  cases call with
  | valset call =>
    apply transact_preserves (Attributed env _) (onValset call) s _ earlier
    intro u t run
    obtain ⟨w, _, rfl⟩ := onValset_succeeds.mp run
    exact earlier
  | newProphecyClaim sender p =>
    apply transact_preserves (Attributed env _) (newProphecyClaim env sender p) s _ earlier
    intro complete t run id v made
    have signed := newProphecyClaim_signed run
    have signs := signs_signed.mpr ⟨sender, complete, t, rfl, rfl, run⟩
    by_cases new : id = prophecyID env p ∧ v = sender.address
    · obtain ⟨rfl, rfl⟩ := new
      exact ⟨p, by simp [signs], rfl⟩
    · apply earlier id v
      rw [signed.made] at made
      by_cases same : id = prophecyID env p
      · subst same
        rw [Function.update_self, Function.update_of_ne (fun h => new ⟨rfl, h⟩)] at made
        exact made
      · rwa [Function.update_of_ne same] at made

theorem run_attributed (calls : List BridgeCall) (start : CosmosBridgeState H β) :
    Attributed env (signaturesOf env calls start.unsigned) (runContracts env calls start.unsigned) := by
  apply EventRuns.run_history (BridgeCall.step env) (fun _ _ => True) start.unsigned
    (fun past s => Attributed env (signaturesOf env past start.unsigned) s)
  · intro past call _ now
    rw [signaturesOf, EventRuns.outputs_snoc]
    exact step_attributed _ call _ now
  · exact EventRuns.guarded_all _ (fun _ => True) calls _ (fun _ _ => trivial)
  · nofun

theorem signatures_submitted {calls : List BridgeCall} {s : CosmosBridgeState H β} {v : Address}
    {p : ProphecyArgs} (member : (v, p) ∈ signaturesOf env calls s) :
    ∃ sender, .newProphecyClaim sender p ∈ calls := by
  obtain ⟨call, inside, t, signs⟩ := EventRuns.outputs_source _ _ calls s (v, p) member
  obtain ⟨sender, _, _, rfl, _, _⟩ := signs_signed.mp signs
  exact ⟨sender, inside⟩

theorem digest_collision_free : Function.Injective PlainContracts.env.keccak256 :=
  fun _ _ same => congrArg PlainContracts.Digest.bytes same

end FuryNode
