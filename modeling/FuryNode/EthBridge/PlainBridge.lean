import FuryNode.EthBridge.Keeper
import FuryNode.Oracle.PlainKeeper
import FuryNode.Sdk.LedgerBank

/-!
Hex addresses read digit by digit, and an environment of the bridge around them. It shows that
what is assumed of go-ethereum can be met, and it runs the bridge on fixed states.
-/
namespace FuryNode.PlainBridge

def hexDigits : List Char := "0123456789abcdefABCDEF".toList

def hexValue (c : Char) : ℕ := if c.isDigit then c.toNat - 48 else c.toLower.toNat - 87

def hexBytes : List Char → List UInt8
  | a :: b :: rest => (16 * hexValue a + hexValue b).toUInt8 :: hexBytes rest
  | _ => []

def withoutPrefix : List Char → List Char
  | '0' :: 'x' :: rest => rest
  | '0' :: 'X' :: rest => rest
  | digits => digits

theorem hexValue_small : ∀ a ∈ hexDigits, hexValue a < 16 := by
  have all : hexDigits.all (fun a => decide (hexValue a < 16)) = true := by decide +kernel
  simpa only [List.all_eq_true, decide_eq_true_eq] using all

theorem hexValue_iff : ∀ a ∈ hexDigits, ∀ b ∈ hexDigits,
    (hexValue a = hexValue b ↔ a.toLower = b.toLower) := by
  have all : hexDigits.all (fun a => hexDigits.all (fun b =>
      decide (hexValue a = hexValue b ↔ a.toLower = b.toLower))) = true := by decide +kernel
  simpa only [List.all_eq_true, decide_eq_true_eq] using all

theorem byte_iff (a b c d : Char) (ha : a ∈ hexDigits) (hb : b ∈ hexDigits) (hc : c ∈ hexDigits)
    (hd : d ∈ hexDigits) :
    (16 * hexValue a + hexValue b).toUInt8 = (16 * hexValue c + hexValue d).toUInt8 ↔
      a.toLower = c.toLower ∧ b.toLower = d.toLower := by
  have boundA := hexValue_small a ha
  have boundB := hexValue_small b hb
  have boundC := hexValue_small c hc
  have boundD := hexValue_small d hd
  rw [← hexValue_iff a ha c hc, ← hexValue_iff b hb d hd, ← UInt8.toNat_inj]
  simp only [Nat.toUInt8, UInt8.toNat_ofNat']
  omega

theorem hexBytes_iff (digits digits' : List Char) (n : ℕ) (length : digits.length = 2 * n)
    (length' : digits'.length = 2 * n) (hex : ∀ c ∈ digits, c ∈ hexDigits)
    (hex' : ∀ c ∈ digits', c ∈ hexDigits) :
    hexBytes digits = hexBytes digits' ↔ digits.map Char.toLower = digits'.map Char.toLower := by
  induction n generalizing digits digits' with
  | zero =>
    have none : digits = [] := List.eq_nil_of_length_eq_zero length
    have none' : digits' = [] := List.eq_nil_of_length_eq_zero length'
    simp [none, none']
  | succ n ih =>
    match digits, digits', length, length' with
    | a :: b :: rest, c :: d :: rest', length, length' =>
      simp only [List.length_cons] at length length'
      have tail := ih rest rest' (by omega) (by omega) (fun x member => hex x (by simp [member]))
        (fun x member => hex' x (by simp [member]))
      have head := byte_iff a b c d (hex a (by simp)) (hex b (by simp)) (hex' c (by simp))
        (hex' d (by simp))
      simp only [hexBytes, List.map_cons, List.cons.injEq, tail, head, and_assoc]

theorem withoutPrefix_spelled {text : String} {start digits : List Char}
    (spelled : HexSpelling text start digits) : withoutPrefix text.toList = digits := by
  have choice := spelled.start_mem
  rw [spelled.spelled]
  simp only [List.mem_cons, List.not_mem_nil, or_false] at choice
  rcases choice with rfl | rfl | rfl
  · rw [List.nil_append]
    unfold withoutPrefix
    split
    · have letter := spelled.hex 'x' (by simp)
      exact absurd letter (by decide)
    · have letter := spelled.hex 'X' (by simp)
      exact absurd letter (by decide)
    · rfl
  · rfl
  · rfl

def isHexAddress (text : String) : Bool :=
  decide ((withoutPrefix text.toList).length = 40) &&
    (withoutPrefix text.toList).all (fun c => decide (c ∈ hexDigits))

theorem isHexAddress_succeeds {text : String} :
    isHexAddress text = true ↔ (withoutPrefix text.toList).length = 40 ∧
      ∀ c ∈ withoutPrefix text.toList, c ∈ hexDigits := by
  simp only [isHexAddress, Bool.and_eq_true, decide_eq_true_eq, List.all_eq_true]

theorem prefix_split (cs : List Char) :
    ∃ start ∈ [[], ['0', 'x'], ['0', 'X']], cs = start ++ withoutPrefix cs := by
  unfold withoutPrefix
  split
  · exact ⟨['0', 'x'], by simp, rfl⟩
  · exact ⟨['0', 'X'], by simp, rfl⟩
  · exact ⟨[], by simp, rfl⟩

def geth : Geth where
  isHexAddress := isHexAddress
  hexToAddress text := ⟨hexBytes (withoutPrefix text.toList)⟩
  isHexAddress_iff := by
    intro text
    constructor
    · intro accepted
      obtain ⟨length, hex⟩ := isHexAddress_succeeds.mp accepted
      obtain ⟨start, member, split⟩ := prefix_split text.toList
      exact ⟨start, _, member, length, hex, split⟩
    · rintro ⟨start, digits, spelled⟩
      have bare := withoutPrefix_spelled spelled
      exact isHexAddress_succeeds.mpr (by rw [bare]; exact ⟨spelled.length, spelled.hex⟩)
  hexToAddress_eq := by
    intro s t start digits start' digits' first second
    rw [withoutPrefix_spelled first, withoutPrefix_spelled second, EthereumAddress.mk.injEq]
    exact hexBytes_iff digits digits' 20 first.length second.length first.hex second.hex

/-- Contents are known by their symbols, and every claim is about one coin for alice. -/
def env : BridgeEnv LedgerBank.Balances where
  chain := LedgerBank.env
  oracle := PlainOracle.keeper
  geth := geth
  marshalContent content := some content.symbol
  unmarshalContent text := some ⟨⟨[1]⟩, 1, text, ⟨[]⟩, .lock⟩

/-- A claim of the first validator about a lock of `x`. -/
def report (ethereumChainId nonce : ℤ) (ethereumSender : String) : EthBridgeClaim where
  ethereumChainId := ethereumChainId
  bridgeContractAddress := nullAddress
  nonce := nonce
  symbol := "x"
  tokenContractAddress := nullAddress
  ethereumSender := ethereumSender
  cosmosReceiver := "alice"
  validatorAddress := "a"
  amount := 1
  claimType := .lock

end FuryNode.PlainBridge
