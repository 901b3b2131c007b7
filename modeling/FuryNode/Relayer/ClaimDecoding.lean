import FuryNode.Contracts.Packing
import FuryNode.Contracts.FuryAddresses

/-!
How a replay recognises the claims that the relayer has already sent: it reads sender and sequence
out of the call data of `newProphecyClaim` at fixed places.
-/
namespace FuryNode.ClaimDecoding
open FuryNode.CosmosBridge

/-! The call data, as the standard encoding of the arguments lays it out. -/

def word (x : ℕ) : List UInt8 := bigEndian 32 x

def padded (bytes : List UInt8) : List UInt8 := bytes ++ List.replicate ((32 - bytes.length % 32) % 32) 0

def dynamic (bytes : List UInt8) : List UInt8 := word bytes.length ++ padded bytes

/-- The arguments of `newProphecyClaim`: six words, with the places of the two fields of any
    length in their stead, and these fields after them. -/
def encodeArguments (p : ProphecyArgs) : List UInt8 :=
  word p.claimType.toUint8.toNat ++ word 192 ++ word p.cosmosSenderSequence ++ word p.ethereumReceiver ++
    word (192 + (dynamic p.cosmosSender).length) ++ word p.amount ++
    dynamic p.cosmosSender ++ dynamic p.symbol

/-! The decoder. -/

/-- `hextable`: `0123456789abcdef`. -/
def hexDigit (n : ℕ) : UInt8 := (if n < 10 then 48 + n else 87 + n).toUInt8

/-- `hex.Encode`. -/
def hexEncode (src : List UInt8) : List UInt8 :=
  src.flatMap (fun byte => [hexDigit (byte.toNat / 16), hexDigit (byte.toNat % 16)])

inductive DecodeErr where
  | dataLengthNotEnough
  | invalidSyntax
  | outOfRange
  deriving DecidableEq, Repr

/-- The value of a digit or letter in `strconv.ParseUint`. -/
def digitValue (c : UInt8) : Option ℕ :=
  if 48 ≤ c.toNat ∧ c.toNat ≤ 57 then some (c.toNat - 48)
  else if 97 ≤ c.toNat ∧ c.toNat ≤ 122 then some (c.toNat - 87)
  else if 65 ≤ c.toNat ∧ c.toNat ≤ 90 then some (c.toNat - 55)
  else none

def readDigit (base bitSize n : ℕ) (c : UInt8) : Except DecodeErr ℕ :=
  match digitValue c with
  | none => .error .invalidSyntax
  | some d =>
      if base ≤ d then .error .invalidSyntax
      else if 2 ^ bitSize ≤ n * base + d then .error .outOfRange
      else .ok (n * base + d)

/-- `strconv.ParseUint`. -/
def parseUint (s : List UInt8) (base bitSize : ℕ) : Except DecodeErr ℕ :=
  if s = [] then .error .invalidSyntax else s.foldlM (readDigit base bitSize) 0

structure ProphecyClaimUnique where
  cosmosSenderSequence : ℤ
  cosmosSender : List UInt8
  deriving DecidableEq, Repr

def myDecode (data : List UInt8) : Except DecodeErr ProphecyClaimUnique :=
  if data.length < 32 * 7 + 42 then .error .dataLengthNotEnough
  else do
    let sequence ← parseUint (hexEncode ((data.drop 64).take 32)) 16 32
    pure ⟨sequence, (data.drop (32 * 7)).take 42⟩

/-- `MessageProcessed`, with the two fields of the message that it reads. -/
def messageProcessed (cosmosSender : List UInt8) (cosmosSenderSequence : ℤ) (prophecyClaims : List ProphecyClaimUnique) :
    Bool :=
  prophecyClaims.any (fun claim =>
    cosmosSender = claim.cosmosSender && cosmosSenderSequence = claim.cosmosSenderSequence)

/-! Reading back a number. -/

theorem hexDigit_value (n : ℕ) (digit : n < 16) : digitValue (hexDigit n) = some n := by
  decide +revert

def horner (base n : ℕ) (digits : List ℕ) : ℕ := digits.foldl (fun n d => n * base + d) n

theorem horner_le (base n : ℕ) (digits : List ℕ) (positive : 0 < base) : n ≤ horner base n digits := by
  induction digits generalizing n with
  | nil => exact Nat.le_refl n
  | cons d rest ih =>
    have grows : n ≤ n * base := Nat.le_mul_of_pos_right n positive
    have later := ih (n * base + d)
    change n ≤ horner base (n * base + d) rest
    omega

theorem readDigits_value (digits : List ℕ) (small : ∀ d ∈ digits, d < 16) (bitSize n : ℕ)
    (fits : n < 2 ^ bitSize) :
    (digits.map hexDigit).foldlM (readDigit 16 bitSize) n =
      if horner 16 n digits < 2 ^ bitSize then .ok (horner 16 n digits) else .error .outOfRange := by
  induction digits generalizing n with
  | nil =>
    change Except.ok n = if n < 2 ^ bitSize then Except.ok n else _
    rw [if_pos fits]
  | cons d rest ih =>
    have digit : d < 16 := small d (by simp)
    have value := hexDigit_value d digit
    have next : readDigit 16 bitSize n (hexDigit d) =
        if 2 ^ bitSize ≤ n * 16 + d then .error .outOfRange else .ok (n * 16 + d) := by
      rw [readDigit, value]
      dsimp only
      rw [if_neg (by omega)]
    rw [List.map_cons, List.foldlM_cons, next]
    change _ = if horner 16 (n * 16 + d) rest < 2 ^ bitSize then Except.ok (horner 16 (n * 16 + d) rest) else _
    by_cases large : 2 ^ bitSize ≤ n * 16 + d
    · have beyond := horner_le 16 (n * 16 + d) rest (by omega)
      rw [if_pos large, if_neg (by omega)]
      rfl
    · rw [if_neg large]
      exact ih (fun e member => small e (by simp [member])) (n * 16 + d) (by omega)

def nibbles (src : List UInt8) : List ℕ := src.flatMap (fun byte => [byte.toNat / 16, byte.toNat % 16])

theorem hexEncode_nibbles (src : List UInt8) : hexEncode src = (nibbles src).map hexDigit := by
  simp [hexEncode, nibbles, List.map_flatMap]

theorem nibbles_small (src : List UInt8) : ∀ d ∈ nibbles src, d < 16 := by
  intro d member
  obtain ⟨byte, _, one⟩ := List.mem_flatMap.mp member
  have bound := byte.toNat_lt
  simp only [List.mem_cons, List.not_mem_nil, or_false] at one
  omega

theorem horner_nibbles (src : List UInt8) (n : ℕ) :
    horner 16 n (nibbles src) = horner 256 n (src.map UInt8.toNat) := by
  induction src generalizing n with
  | nil => rfl
  | cons byte rest ih =>
    have joined : (n * 16 + byte.toNat / 16) * 16 + byte.toNat % 16 = n * 256 + byte.toNat := by omega
    change horner 16 ((n * 16 + byte.toNat / 16) * 16 + byte.toNat % 16) (nibbles rest) =
      horner 256 (n * 256 + byte.toNat) (rest.map UInt8.toNat)
    rw [joined, ih]

theorem horner_bigEndian (n x : ℕ) : horner 256 0 ((bigEndian n x).map UInt8.toNat) = x % 256 ^ n := by
  induction n generalizing x with
  | zero => simp [bigEndian, horner, Nat.mod_one]
  | succ n ih =>
    have high := ih (x / 256)
    have low : ((x % 256).toUInt8).toNat = x % 256 := by simp
    unfold horner at high ⊢
    rw [bigEndian, List.map_append, List.foldl_append, high, List.map_singleton, low, Nat.pow_succ',
      Nat.mod_mul]
    change x / 256 % 256 ^ n * 256 + x % 256 = _
    omega

theorem parseUint_word (x : Uint256) :
    parseUint (hexEncode (word x)) 16 32 = if x.val < 2 ^ 32 then .ok x.val else .error .outOfRange := by
  have value : horner 16 0 (nibbles (word x)) = x.val := by
    rw [horner_nibbles, word, horner_bigEndian]
    exact Nat.mod_eq_of_lt x.isLt
  have nonempty : hexEncode (word x) ≠ [] := by
    intro empty
    have len := congrArg List.length empty
    simp [hexEncode, word, bigEndian_length] at len
  rw [parseUint, if_neg nonempty, hexEncode_nibbles,
    readDigits_value _ (nibbles_small _) 32 0 (by decide), value]

/-! Where the fields stand. -/

theorem word_length (x : ℕ) : (word x).length = 32 := bigEndian_length 32 x

theorem sequence_place (p : ProphecyArgs) :
    ((encodeArguments p).drop 64).take 32 = word p.cosmosSenderSequence := by
  have split : encodeArguments p = (word p.claimType.toUint8.toNat ++ word 192) ++
      (word p.cosmosSenderSequence ++ (word p.ethereumReceiver ++
        word (192 + (dynamic p.cosmosSender).length) ++ word p.amount ++ dynamic p.cosmosSender ++
        dynamic p.symbol)) := by
    simp only [encodeArguments, List.append_assoc]
  rw [split, List.drop_left' (by simp only [List.length_append, word_length]),
    List.take_left' (word_length _)]

theorem sender_place (p : ProphecyArgs) : ∃ rest,
    (encodeArguments p).drop (32 * 7) = p.cosmosSender ++ rest := by
  refine ⟨List.replicate ((32 - p.cosmosSender.length % 32) % 32) 0 ++ dynamic p.symbol, ?_⟩
  have split : encodeArguments p = (word p.claimType.toUint8.toNat ++ word 192 ++
      word p.cosmosSenderSequence ++ word p.ethereumReceiver ++
      word (192 + (dynamic p.cosmosSender).length) ++ word p.amount ++ word p.cosmosSender.length) ++
        (p.cosmosSender ++ (List.replicate ((32 - p.cosmosSender.length % 32) % 32) 0 ++ dynamic p.symbol)) := by
    simp only [encodeArguments, dynamic, padded, List.append_assoc]
  rw [split, List.drop_left' (by simp only [List.length_append, word_length])]

theorem myDecode_arguments {p : ProphecyArgs} {claim : ProphecyClaimUnique}
    (decoded : myDecode (encodeArguments p) = .ok claim) :
    claim.cosmosSender.length = 42 ∧ p.cosmosSenderSequence.val < 2 ^ 32 := by
  unfold myDecode at decoded
  split at decoded
  · cases decoded
  · rename_i long
    rw [sequence_place, parseUint_word] at decoded
    by_cases small : p.cosmosSenderSequence.val < 2 ^ 32
    · rw [if_pos small] at decoded
      cases decoded
      refine ⟨?_, small⟩
      rw [List.length_take, List.length_drop]
      omega
    · rw [if_neg small] at decoded
      cases decoded

/-- The claim decodes to its own sender and sequence, and so its message is known as processed. -/
def Recognised (p : ProphecyArgs) : Prop :=
  ∃ claim, myDecode (encodeArguments p) = .ok claim ∧
    claim = ⟨p.cosmosSenderSequence.val, p.cosmosSender⟩ ∧
    ∀ prophecyClaims, claim ∈ prophecyClaims →
      messageProcessed p.cosmosSender p.cosmosSenderSequence.val prophecyClaims = true

theorem recognised_iff (p : ProphecyArgs) :
    Recognised p ↔ p.cosmosSender.length = 42 ∧ p.cosmosSenderSequence.val < 2 ^ 32 := by
  constructor
  · intro recognised
    obtain ⟨claim, decoded, own, _⟩ := recognised
    have read := myDecode_arguments decoded
    rw [own] at read
    exact read
  · intro fits
    obtain ⟨rest, place⟩ := sender_place p
    have long : ¬(encodeArguments p).length < 32 * 7 + 42 := by
      have len := congrArg List.length place
      rw [List.length_drop, List.length_append] at len
      omega
    have decoded : myDecode (encodeArguments p) = .ok ⟨p.cosmosSenderSequence.val, p.cosmosSender⟩ := by
      rw [myDecode, if_neg long, sequence_place, parseUint_word, if_pos fits.2, place, List.take_left' fits.1]
      rfl
    refine ⟨_, decoded, rfl, ?_⟩
    intro prophecyClaims member
    apply List.any_eq_true.mpr
    exact ⟨_, member, by simp⟩

theorem address_length (checksum : Bech32.Checksum) (account : List UInt8) :
    (Bech32.encode checksum accountAddressPrefix account).length = 42 ↔ account.length = 19 := by
  rw [Bech32.encode_length, accountAddressPrefix]
  simp only [List.length_cons, List.length_nil]
  omega

theorem own_claim_recognised_iff (p : ProphecyArgs) (checksum : Bech32.Checksum) (account : List UInt8)
    (spelled : BridgeBank.toLower p.cosmosSender = Bech32.encode checksum accountAddressPrefix account) :
    Recognised p ↔ account.length = 19 ∧ p.cosmosSenderSequence.val < 2 ^ 32 := by
  have len : p.cosmosSender.length = (Bech32.encode checksum accountAddressPrefix account).length := by
    rw [← spelled, BridgeBank.toLower, List.length_map]
  rw [recognised_iff, len, address_length]

/-- A transfer of `eth` sent from the given address. -/
def ethClaim (cosmosSender : List UInt8) (cosmosSenderSequence amount : Uint256) : ProphecyArgs :=
  ⟨.burn, cosmosSender, cosmosSenderSequence, 1, CosmosBridge.ethSymbol, amount⟩

def shortAddress : List UInt8 := Bech32.encode sixLetters accountAddressPrefix (List.replicate 19 0)

theorem short_claim_recognised : Recognised (ethClaim shortAddress 5 1) :=
  (own_claim_recognised_iff (ethClaim shortAddress 5 1) sixLetters (List.replicate 19 0) (by decide +kernel)).mpr
    ⟨by decide, by decide⟩

/-- The sender of a claim of a 20-byte account loses its last character, and a sequence of 2^32 is
    not read at all. -/
theorem own_claim_missed :
    let sender := Bech32.encode sixLetters accountAddressPrefix zeroAccount.toList
    myDecode (encodeArguments (ethClaim sender 5 1)) = .ok ⟨5, sender.take 42⟩ ∧
      messageProcessed sender 5 [⟨5, sender.take 42⟩] = false ∧
      ¬Recognised (ethClaim sender 5 1) ∧
      myDecode (encodeArguments (ethClaim shortAddress 4294967296 1)) = .error .outOfRange ∧
      ¬Recognised (ethClaim shortAddress 4294967296 1) := by
  refine ⟨by decide +kernel, by decide +kernel, ?_, by decide +kernel, ?_⟩
  · rw [recognised_iff]
    decide +kernel
  · rw [recognised_iff]
    decide +kernel

end FuryNode.ClaimDecoding
