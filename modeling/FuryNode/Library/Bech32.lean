import Mathlib.Data.List.Basic
import Mathlib.Data.Vector.Basic

/-!
Bech32 as a layout of bytes: a human-readable part, the separator, one character for every five
bits of the data, and a checksum of six characters. The checksum is a parameter.
-/
namespace Bech32

/-- `qpzry9x8gf2tvdw0s3jn54khce6mua7l`, the character of each group of five bits. -/
def charset : List UInt8 :=
  [113, 112, 122, 114, 121, 57, 120, 56, 103, 102, 50, 116, 118, 100, 119, 48,
    115, 51, 106, 110, 53, 52, 107, 104, 99, 101, 54, 109, 117, 97, 55, 108]

def separator : UInt8 := 49

def bits (byte : UInt8) : List Bool := (List.range 8).map (fun i => byte.toNat.testBit (7 - i))

def character (group : List Bool) : UInt8 :=
  charset.getD ((group ++ List.replicate (5 - group.length) false).foldl (fun n bit => 2 * n + bit.toNat) 0) 0

def groups : List Bool → List (List Bool)
  | a :: b :: c :: d :: e :: rest => [a, b, c, d, e] :: groups rest
  | [] => []
  | short => [short]

def dataCharacters (bytes : List UInt8) : List UInt8 := (groups (bytes.flatMap bits)).map character

abbrev Checksum := List UInt8 → List UInt8 → Vector UInt8 6

def encode (checksum : Checksum) (hrp bytes : List UInt8) : List UInt8 :=
  hrp ++ separator :: (dataCharacters bytes ++ (checksum hrp bytes).toList)

theorem groups_length (bs : List Bool) : (groups bs).length = (bs.length + 4) / 5 := by
  induction bs using groups.induct with
  | case1 a b c d e rest ih =>
    simp only [groups, List.length_cons, ih]
    omega
  | case2 => rfl
  | case3 short long nonempty =>
    -- a list of one to four bits
    match short, nonempty with
    | [_], _ => simp [groups]
    | [_, _], _ => simp [groups]
    | [_, _, _], _ => simp [groups]
    | [_, _, _, _], _ => simp [groups]
    | a :: b :: c :: d :: e :: rest, _ => exact absurd rfl (long a b c d e rest)

theorem bits_length (bytes : List UInt8) : (bytes.flatMap bits).length = 8 * bytes.length := by
  induction bytes with
  | nil => rfl
  | cons byte rest ih =>
    have eight : (bits byte).length = 8 := by simp [bits]
    rw [List.flatMap_cons, List.length_append, ih, eight, List.length_cons]
    omega

theorem encode_length (checksum : Checksum) (hrp bytes : List UInt8) :
    (encode checksum hrp bytes).length = hrp.length + (8 * bytes.length + 4) / 5 + 7 := by
  have data : (dataCharacters bytes).length = (8 * bytes.length + 4) / 5 := by
    rw [dataCharacters, List.length_map, groups_length, bits_length]
  have check : (checksum hrp bytes).toList.length = 6 := Vector.length_toList
  simp only [encode, List.length_append, List.length_cons, data, check]
  omega

theorem encode_hrp (checksum : Checksum) (hrp bytes : List UInt8) :
    (encode checksum hrp bytes).take hrp.length = hrp := by
  rw [encode, List.take_left]

end Bech32
