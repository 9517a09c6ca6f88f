import Mathlib.Data.Nat.Digits.Defs

/-!
# Strings of the C and C++ libraries

A `std::string` is the list of its bytes; it may contain NUL bytes. The functions of the C library
see the text up to the first NUL of a buffer only. Character classes and case are those of the "C"
locale, where bytes from 128 on belong to no class and have no case.
-/

namespace CLib

/-- A C++ string. -/
abbrev Str := List UInt8

/-- The bytes of a string literal. -/
def lit (s : String) : Str := s.toUTF8.data.toList

/-- The text that a C function sees at the start of a buffer. -/
def cStr (s : Str) : Str := s.takeWhile (· ≠ 0)

/-- `isspace` -/
def isspace (c : UInt8) : Bool := c = 32 || (9 ≤ c && c ≤ 13)

/-- `isdigit` -/
def isdigit (c : UInt8) : Bool := 48 ≤ c && c ≤ 57

/-- `tolower` -/
def tolower (c : UInt8) : UInt8 := if 65 ≤ c && c ≤ 90 then c + 32 else c

/-- `strncmp(a, b, n) == 0`: the end of a list reads as the terminating NUL. -/
def strncmpEq (a b : Str) : Nat → Bool
  | 0 => true
  | n + 1 => a.headD 0 = b.headD 0 && (a.headD 0 = 0 || strncmpEq a.tail b.tail n)

/-- `strchr`: the position of the first `c` in the text of a buffer. -/
def strchr (s : Str) (c : UInt8) : Option Nat := (cStr s).findIdx? (· = c)

/-- The position of the last `c` in a list of bytes. -/
def lastIdx? (c : UInt8) : Str → Option Nat
  | [] => none
  | x :: xs =>
    match lastIdx? c xs with
    | some i => some (i + 1)
    | none => if x = c then some 0 else none

/-- `strrchr`: the position of the last `c` in the text of a buffer. -/
def strrchr (s : Str) (c : UInt8) : Option Nat := lastIdx? c (cStr s)

/-- `std::string::find`: the position of the first occurrence of `needle`. -/
def find (needle : Str) : Str → Option Nat
  | [] => if needle = [] then some 0 else none
  | c :: cs => if needle.isPrefixOf (c :: cs) then some 0 else (find needle cs).map (· + 1)

/-! ## Numbers -/

/-- `LONG_MAX` -/
def longMax : Int := 2 ^ 63 - 1

/-- `LONG_MIN` -/
def longMin : Int := -2 ^ 63

/-- What `strtol` returns and leaves. -/
structure StrtolResult where
  /-- The number read, saturated to the range of `long`. -/
  value : Int
  /-- The text at `*endptr`. -/
  rest : Str
  /-- `errno == ERANGE` -/
  erange : Bool
  deriving DecidableEq

/-- The number that a sequence of digits stands for. -/
def digitsVal (ds : Str) : Nat := ds.foldl (fun n c => n * 10 + (c.toNat - 48)) 0

/-- Takes a sign off; `true` is a minus sign. -/
def splitSign : Str → Bool × Str
  | 45 :: cs => (true, cs)
  | 43 :: cs => (false, cs)
  | cs => (false, cs)

/-- `strtol(s, &end, 10)`: leading white space, an optional sign and a non-empty sequence of digits.
    Without digits the result is 0 and `end` is `s`. -/
def strtol (s : Str) : StrtolResult :=
  let signed := splitSign (s.dropWhile isspace)
  let ds := signed.2.takeWhile isdigit
  if ds = [] then ⟨0, s, false⟩
  else
    let v : Int := if signed.1 then -(digitsVal ds : Int) else digitsVal ds
    let rest := signed.2.dropWhile isdigit
    if longMax < v then ⟨longMax, rest, true⟩
    else if v < longMin then ⟨longMin, rest, true⟩
    else ⟨v, rest, false⟩

/-- The value of an integer converted to a 32-bit `int`. -/
def toInt32 (n : Int) : Int := (BitVec.ofInt 32 n).toInt

/-- `atoi(s)`, which is `(int) strtol(s, NULL, 10)`. -/
def atoi (s : Str) : Int := toInt32 (strtol s).value

/-- A number in decimal digits. -/
def decimalNat (n : Nat) : Str :=
  if n = 0 then [48] else (Nat.digits 10 n).reverse.map fun d => UInt8.ofNat (48 + d)

/-- A decimal numeral of `n`, leading zeros allowed. -/
def IsNumeral (s : Str) (n : Nat) : Prop := s ≠ [] ∧ s.all isdigit = true ∧ digitsVal s = n

instance (s : Str) (n : Nat) : Decidable (IsNumeral s n) :=
  inferInstanceAs (Decidable (_ ∧ _ ∧ _))

/-- An integer as a stream prints it. -/
def decimal (n : Int) : Str :=
  if n < 0 then 45 :: decimalNat n.natAbs else decimalNat n.natAbs

/-! ## Formats -/

/-- The output of `printf` for a format without further arguments: `%%` stands for `%`, and no other
    conversion has a defined output. -/
def printf : Str → Option Str
  | [] => some []
  | 37 :: 37 :: cs => (printf cs).map (37 :: ·)
  | 37 :: _ => none
  | c :: cs => (printf cs).map (c :: ·)

/-! ## Lines -/

/-- `std::getline` until it fails, with the bytes `cur` of the current line already read. A line ends
    at a newline or at the end of the file, where it counts only if a byte of it was read. -/
def getLinesFrom (cur : Str) : Str → List Str
  | [] => if cur = [] then [] else [cur]
  | c :: cs => if c = 10 then cur :: getLinesFrom [] cs else getLinesFrom (cur ++ [c]) cs

/-- The lines that successive calls of `std::getline` read from a file. -/
def getLines (contents : Str) : List Str := getLinesFrom [] contents

/-- The texts between the newlines of a file; the last one is what follows the last newline. -/
def rawLines (contents : Str) : List Str := contents.splitOn 10

/-- The file with these texts between its newlines. -/
def joinLines (lines : List Str) : Str := [10].intercalate lines

end CLib
