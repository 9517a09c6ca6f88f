import Ipvshttpd.CLib.CString

/-!
# Internet addresses

The texts that stand for internet addresses: dotted quads, and the presentation forms of IPv6
addresses that `inet_pton(AF_INET6)` accepts. An IPv4 address is the word that has its bytes in
network order on a little-endian machine.
-/

namespace CLib

/-! ## IPv4 -/

/-- A number up to 255 in decimal, without leading zeros. -/
def octet (s : Str) : Option Nat :=
  if s.all isdigit = true ∧ s = decimalNat (digitsVal s) ∧ digitsVal s ≤ 255 then some (digitsVal s)
  else none

/-- The four bytes of a dotted quad. -/
def quadBytes (s : Str) : Option (List Nat) :=
  match (s.splitOn 46).mapM octet with
  | some bytes => if bytes.length = 4 then some bytes else none
  | none => none

/-- The word with the given bytes in memory. -/
def leWord (bytes : List Nat) : BitVec 32 :=
  BitVec.ofNat 32 (bytes.foldr (fun byte n => byte + 256 * n) 0)

/-- The address that a dotted quad stands for. -/
def quadAddress (s : Str) : Option (BitVec 32) := (quadBytes s).map leWord

/-- The address in decimal, byte by byte. -/
def dottedQuad (ip : BitVec 32) : Str :=
  decimalNat (ip.toNat % 256) ++ 46 :: (decimalNat (ip.toNat / 256 % 256) ++
    46 :: (decimalNat (ip.toNat / 65536 % 256) ++ 46 :: decimalNat (ip.toNat / 16777216)))

/-! ## IPv6 -/

/-- The value of a hexadecimal digit. -/
def hexVal (c : UInt8) : Option Nat :=
  if isdigit c then some (c.toNat - 48)
  else if 97 ≤ c && c ≤ 102 then some (c.toNat - 87)
  else if 65 ≤ c && c ≤ 70 then some (c.toNat - 55)
  else none

/-- One to four hexadecimal digits. -/
def hexGroup (s : Str) : Option Nat :=
  if s ≠ [] ∧ s.length ≤ 4 then s.foldlM (fun n c => (hexVal c).map (n * 16 + ·)) 0 else none

/-- A dotted quad as two groups. -/
def quadGroups (s : Str) : Option (List Nat) :=
  (quadBytes s).map fun bytes =>
    [bytes.getD 0 0 * 256 + bytes.getD 1 0, bytes.getD 2 0 * 256 + bytes.getD 3 0]

/-- The groups in a list of pieces, the last of which may be a dotted quad. -/
def groups : List Str → Option (List Nat)
  | [] => some []
  | [last] =>
    match hexGroup last with
    | some g => some [g]
    | none => quadGroups last
  | piece :: pieces => (hexGroup piece).bind fun g => (groups pieces).map (g :: ·)

/-- The pieces between colons; an empty text has none. -/
def pieces (s : Str) : List Str := if s = [] then [] else s.splitOn 58

/-- The eight groups of an IPv6 address. A double colon stands for one or more groups of zeros. -/
def inet6Groups (s : Str) : Option (List Nat) :=
  match find [58, 58] s with
  | none => (groups (pieces s)).bind fun gs => if gs.length = 8 then some gs else none
  | some i =>
    ((pieces (s.take i)).mapM hexGroup).bind fun left =>
      (groups (pieces (s.drop (i + 2)))).bind fun right =>
        if left.length + right.length ≤ 7 then
          some (left ++ (List.replicate (8 - left.length - right.length) 0 ++ right))
        else none

/-- The bytes of the groups, in network order. -/
def groupBytes (gs : List Nat) : List Nat := gs.flatMap fun g => [g / 256, g % 256]

/-- A hexadecimal digit in lower case. -/
def hexDigit (d : Nat) : UInt8 := if d < 10 then UInt8.ofNat (48 + d) else UInt8.ofNat (87 + d)

/-- A group in full. -/
def hexText (g : Nat) : Str :=
  [hexDigit (g / 4096), hexDigit (g / 256 % 16), hexDigit (g / 16 % 16), hexDigit (g % 16)]

/-- The presentation form that leaves nothing out. -/
def groupsText (gs : List Nat) : Str := [58].intercalate (gs.map hexText)

end CLib
