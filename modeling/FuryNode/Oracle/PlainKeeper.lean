import FuryNode.Oracle.Votes

/-!
A keeper that writes an address letter by letter and a document as its place in a list, with
four validators of equal power. It shows that what is assumed of the encodings can be met,
and it runs the oracle on fixed states.
-/
namespace FuryNode.PlainOracle
open KeyedTable

instance {κ ν : Type} {key : ν → κ} [DecidableEq ν] : DecidableEq (Table key) := fun t u =>
  decidable_of_iff (t.rows = u.rows) ⟨fun same => by cases t; cases u; congr, fun same => same ▸ rfl⟩

def strokes {α : Type} [DecidableEq α] (documents : List α) : Codec α where
  marshal a := if a ∈ documents then some (String.ofList (List.replicate (documents.idxOf a) '|'))
    else none
  unmarshal text := documents[text.length]?
  lossless := by
    intro a text written
    split at written
    · rename_i member
      cases written
      simpa using List.getElem?_idxOf member
    · cases written

def letters (a : ValAddress) : String := String.ofList (a.bytes.map (fun b => Char.ofNat b.toNat))

def fromLetters (text : String) : Option ValAddress :=
  let bytes := text.toList.map (fun c => c.toNat.toUInt8)
  if sized : 0 < bytes.length ∧ bytes.length ≤ 255 then some ⟨bytes, sized⟩ else none

theorem letter_byte (b : UInt8) : (Char.ofNat b.toNat).toNat.toUInt8 = b := by
  have small : b.toNat < 256 := b.toNat_lt
  have valid : b.toNat.isValidChar := Or.inl (by omega)
  rw [Char.ofNat, dif_pos valid]
  exact UInt8.ofNat_toNat

theorem fromLetters_letters (a : ValAddress) : fromLetters (letters a) = some a := by
  have bytes : (letters a).toList.map (fun c => c.toNat.toUInt8) = a.bytes := by
    rw [letters, String.toList_ofList, List.map_map]
    conv => rhs; rw [← List.map_id a.bytes]
    exact List.map_congr_left (fun b _ => letter_byte b)
  unfold fromLetters
  simp only [bytes]
  rw [dif_pos a.sized]

def ann : ValAddress := ⟨[97], by decide⟩
def ben : ValAddress := ⟨[98], by decide⟩
def cid : ValAddress := ⟨[99], by decide⟩
def dan : ValAddress := ⟨[100], by decide⟩

def claims (entries : List (String × List ValAddress)) (distinct : (entries.map Prod.fst).Nodup) :
    ClaimValidators :=
  ⟨entries.map (fun e => ⟨e.1, e.2⟩), by simpa [Function.comp_def] using distinct⟩

def votes (entries : List (String × String)) (distinct : (entries.map Prod.fst).Nodup) :
    ValidatorClaims :=
  ⟨entries.map (fun e => ⟨e.1, e.2⟩), by simpa [Function.comp_def] using distinct⟩

def keeper : OracleKeeper where
  consensusNeeded := 7 / 10
  positive := by norm_num
  atMostOne := by norm_num
  valAddressFromBech32 := fromLetters
  valAddressString := letters
  claimValidatorsJSON := strokes [
    claims [("x", [ann])] (by decide),
    claims [("x", [ann, ben])] (by decide),
    claims [("x", [ann, ben, cid])] (by decide),
    claims [("x", [ann, ben]), ("y", [cid])] (by decide),
    claims [("x", [ann]), ("y", [ben])] (by decide),
    claims [("x", [ann]), ("y", [ben]), ("z", [cid])] (by decide)]
  validatorClaimsJSON := strokes [
    votes [("a", "x")] (by decide),
    votes [("a", "x"), ("b", "x")] (by decide),
    votes [("a", "x"), ("b", "x"), ("c", "x")] (by decide),
    votes [("a", "x"), ("b", "x"), ("c", "y")] (by decide),
    votes [("a", "x"), ("b", "y")] (by decide),
    votes [("a", "x"), ("b", "y"), ("c", "z")] (by decide)]
  decode_string := fromLetters_letters

def admin : AccAddress := ⟨[1]⟩

/-- Four bonded validators with ten units of power each, all of them on the list. -/
def genesis : OracleState where
  prophecies := .empty
  whiteList := [ann, ben, cid, dan]
  adminAccount := some admin
  staking := ⟨[ann, ben, cid, dan].map (fun a => ⟨a, 10 * powerReduction, true⟩), by decide⟩

def claiming (validatorAddress content : String) : OracleEvent :=
  .claim .asWritten ⟨"1", validatorAddress, content⟩

def removes (validator : ValAddress) : OracleEvent := .updateWhiteList admin validator "remove"

end FuryNode.PlainOracle
