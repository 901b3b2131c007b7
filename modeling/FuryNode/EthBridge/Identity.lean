import FuryNode.EthBridge.Finality
import FuryNode.EthBridge.PlainBridge

/-!
When two claims about Ethereum meet in one prophecy. The id joins the decimal digits of chain
and nonce with the sender as the claimant spells it, so it names the spelling of the sender
and the joined digits: no more, where the digits split in two ways, and no less, where an
address is spelled in two ways.
-/
namespace FuryNode
open StatefulProgram
variable {β : Type} {env : BridgeEnv β}

theorem decimal_no_x {n : ℤ} {c : Char} (member : c ∈ (toString n).toList) : c ≠ 'x' ∧ c ≠ 'X' := by
  have digits : ∀ m : ℕ, ∀ d ∈ m.repr.toList, d ≠ 'x' ∧ d ≠ 'X' := by
    intro m d inside
    rw [Nat.repr_eq_ofList_toDigits, String.toList_ofList] at inside
    have digit := Nat.isDigit_of_mem_toDigits (by decide) (by decide) inside
    constructor
    · rintro rfl
      exact absurd digit (by decide)
    · rintro rfl
      exact absurd digit (by decide)
  cases n with
  | ofNat m => exact digits m c member
  | negSucc m =>
    rw [show toString (Int.negSucc m) = "-" ++ m.succ.repr from rfl, String.toList_append,
      List.mem_append] at member
    rcases member with sign | digit
    · have minus : c = '-' := by simpa using sign
      subst minus
      decide
    · exact digits m.succ c digit

def chainNonce (c : EthBridgeClaim) : String := toString c.ethereumChainId ++ toString c.nonce

theorem chainNonce_no_x (c : EthBridgeClaim) (x : Char) (member : x ∈ (chainNonce c).toList) :
    x ≠ 'x' ∧ x ≠ 'X' := by
  rw [chainNonce, String.toList_append, List.mem_append] at member
  rcases member with first | second
  · exact decimal_no_x first
  · exact decimal_no_x second

theorem spelling_lengths {u v : List Char} {s t : String} {start digits start' digits' : List Char}
    (first : HexSpelling s start digits) (second : HexSpelling t start' digits')
    (plain : ∀ x ∈ u, x ≠ 'x' ∧ x ≠ 'X') (same : u ++ s.toList = v ++ t.toList) :
    t.toList.length ≤ s.toList.length := by
  by_contra longer
  have firstLength := first.length
  have secondLength := second.length
  -- the longer text has a prefix, whose letter would stand among the digits before the other
  have bare : start = [] := by
    have choice := first.start_mem
    simp only [List.mem_cons, List.not_mem_nil, or_false] at choice
    rcases choice with none | lower | upper
    · exact none
    all_goals
      have other := second.start_mem
      simp only [first.spelled, second.spelled, List.length_append] at longer
      simp only [List.mem_cons, List.not_mem_nil, or_false] at other
      rcases other with rfl | rfl | rfl <;> simp_all
  have marked : ∃ x, start' = ['0', x] ∧ (x = 'x' ∨ x = 'X') := by
    have choice := second.start_mem
    simp only [List.mem_cons, List.not_mem_nil, or_false] at choice
    rcases choice with none | lower | upper
    · rw [first.spelled, second.spelled, bare, none] at longer
      simp_all
    · exact ⟨'x', lower, Or.inl rfl⟩
    · exact ⟨'X', upper, Or.inr rfl⟩
  obtain ⟨x, prefixed, letter⟩ := marked
  rw [first.spelled, second.spelled, bare, prefixed, List.nil_append, ← List.append_assoc] at same
  have split := List.append_inj_left' same (firstLength.trans secondLength.symm)
  have inside : x ∈ u := by
    rw [split]
    simp
  rcases letter with rfl | rfl
  · exact (plain _ inside).1 rfl
  · exact (plain _ inside).2 rfl

theorem oracleID_eq_iff {c d : EthBridgeClaim} (first : env.geth.isHexAddress c.ethereumSender = true)
    (second : env.geth.isHexAddress d.ethereumSender = true) :
    oracleID c = oracleID d ↔ chainNonce c = chainNonce d ∧ c.ethereumSender = d.ethereumSender := by
  obtain ⟨start, digits, spelled⟩ := (env.geth.isHexAddress_iff _).mp first
  obtain ⟨start', digits', spelled'⟩ := (env.geth.isHexAddress_iff _).mp second
  constructor
  · intro same
    have joined : (chainNonce c).toList ++ c.ethereumSender.toList =
        (chainNonce d).toList ++ d.ethereumSender.toList := by
      simpa [oracleID, chainNonce] using congrArg String.toList same
    have lengths := Nat.le_antisymm
      (spelling_lengths spelled' spelled (chainNonce_no_x d) joined.symm)
      (spelling_lengths spelled spelled' (chainNonce_no_x c) joined)
    obtain ⟨front, back⟩ := List.append_inj' joined lengths
    exact ⟨String.toList_inj.mp front, String.toList_inj.mp back⟩
  · rintro ⟨front, back⟩
    rw [show oracleID c = chainNonce c ++ c.ethereumSender from rfl, front, back]
    rfl

def SameEvent (geth : Geth) (c d : EthBridgeClaim) : Prop :=
  c.ethereumChainId = d.ethereumChainId ∧ c.nonce = d.nonce ∧
    geth.hexToAddress c.ethereumSender = geth.hexToAddress d.ethereumSender

/-- Claims with one spelling of the sender do not join the same digits in two ways, and claims
    about one event spell the sender in one way. -/
def Unambiguous (geth : Geth) (c d : EthBridgeClaim) : Prop :=
  (c.ethereumSender = d.ethereumSender → chainNonce c = chainNonce d →
    c.ethereumChainId = d.ethereumChainId ∧ c.nonce = d.nonce) ∧
  (SameEvent geth c d → c.ethereumSender = d.ethereumSender)

theorem validateBasic_sender {c : EthBridgeClaim} (accepted : c.validateBasic env = .ok ()) :
    env.geth.isHexAddress c.ethereumSender = true := by
  simp only [EthBridgeClaim.validateBasic, except_bind_succeeds, check_succeeds] at accepted
  obtain ⟨_, _, _, _, _, _, _, sender, _⟩ := accepted
  exact sender

/-- **Identity of prophecies.** Two accepted claims get one id exactly when they report one
    event, if and only if neither the digits nor the spelling of the sender is ambiguous. -/
theorem prophecy_identity (env : BridgeEnv β) (c d : EthBridgeClaim) (x y : Claim)
    (accepted : c.validateBasic env = .ok ()) (accepted' : d.validateBasic env = .ok ())
    (made : createOracleClaimFromEthClaim env c = .ok x)
    (made' : createOracleClaimFromEthClaim env d = .ok y) :
    (x.id = y.id ↔ SameEvent env.geth c d) ↔ Unambiguous env.geth c d := by
  rw [oracleClaim_id made, oracleClaim_id made',
    oracleID_eq_iff (validateBasic_sender accepted) (validateBasic_sender accepted')]
  constructor
  · intro identity
    constructor
    · intro spelled joined
      obtain ⟨chain, nonce, _⟩ := identity.mp ⟨joined, spelled⟩
      exact ⟨chain, nonce⟩
    · intro event
      exact (identity.mpr event).2
  · rintro ⟨split, spelling⟩
    constructor
    · rintro ⟨joined, spelled⟩
      obtain ⟨chain, nonce⟩ := split spelled joined
      exact ⟨chain, nonce, congrArg env.geth.hexToAddress spelled⟩
    · intro event
      refine ⟨?_, spelling event⟩
      rw [chainNonce, event.1, event.2.1]
      rfl

open PlainBridge in
/-- One chain, two nonces, one spelling of the sender. -/
theorem prophecy_identity_of_nonces :
    let c := report 1 5 "0x00000000000000000000000000000000000000aB"
    let d := report 1 6 "0x00000000000000000000000000000000000000aB"
    oracleID c = oracleID d ↔ SameEvent geth c d := by
  intro c d
  have apart : ¬(chainNonce c = chainNonce d) := by decide +kernel
  exact (prophecy_identity PlainBridge.env c d ⟨oracleID c, "a", "x"⟩ ⟨oracleID d, "a", "x"⟩
    (by decide +kernel) (by decide +kernel) (by decide +kernel) (by decide +kernel)).mpr
    ⟨fun _ joined => absurd joined apart, fun _ => rfl⟩

open PlainBridge in
/-- Chain 1 with nonce 11 and chain 11 with nonce 1 share a prophecy; one event reported with
    two spellings of the sender has two. -/
theorem ambiguous_identities :
    let sender := "0x00000000000000000000000000000000000000ab"
    let c := report 1 11 sender
    let d := report 11 1 sender
    let e := report 1 11 "0x00000000000000000000000000000000000000AB"
    c.validateBasic PlainBridge.env = .ok () ∧ d.validateBasic PlainBridge.env = .ok () ∧ e.validateBasic PlainBridge.env = .ok () ∧
      createOracleClaimFromEthClaim PlainBridge.env c = .ok ⟨oracleID c, "a", "x"⟩ ∧
      createOracleClaimFromEthClaim PlainBridge.env d = .ok ⟨oracleID d, "a", "x"⟩ ∧
      createOracleClaimFromEthClaim PlainBridge.env e = .ok ⟨oracleID e, "a", "x"⟩ ∧
      oracleID c = oracleID d ∧ c.ethereumChainId ≠ d.ethereumChainId ∧
      oracleID c ≠ oracleID e ∧ c.ethereumChainId = e.ethereumChainId ∧ c.nonce = e.nonce ∧
      geth.hexToAddress c.ethereumSender = geth.hexToAddress e.ethereumSender := by
  decide +kernel

end FuryNode
