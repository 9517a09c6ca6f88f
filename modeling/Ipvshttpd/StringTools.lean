import Mathlib.Data.List.DropRight
import Ipvshttpd.CLib.CString

/-!
# String tools

The functions of `string_tools.cpp`.
-/

namespace Ipvshttpd

open CLib

/-- Converts a number to a string. -/
def strFromNumber (num : Int) : Str := decimal num

/-- Trims white space from the left. -/
def strLtrim (str : Str) : Str := str.dropWhile isspace

/-- Trims white space from the right. -/
def strRtrim (str : Str) : Str := str.rdropWhile isspace

/-- Trims white space from both sides. -/
def strTrim (str : Str) : Str := strLtrim (strRtrim str)

/-- The loop of `strSplit`: the elements from the rest `s` on, when the loop ends within `fuel`
    tests of its condition. An empty delimiter is found at position 0 and removes nothing. -/
def strSplitLoop (delim : Str) (maxElem : Int) : Nat → Str → Int → Option (List Str)
  | 0, _, _ => none
  | fuel + 1, s, tokens =>
    match find delim s with
    | some pos =>
      if maxElem < 0 ∨ tokens ≠ maxElem then
        (strSplitLoop delim maxElem fuel (s.drop (pos + delim.length)) (tokens + 1)).map
          (s.take pos :: ·)
      else some (if maxElem ≠ 0 then [s] else [])
    | none => some (if maxElem ≠ 0 then [s] else [])

/-- Splits a string using another string as delimiter; `none` if the loop never ends. A non-empty
    delimiter makes every pass but the last one shorten the rest, an empty one is found once for
    each of the `maxElem` elements, so that the fuel suffices whenever the loop ends at all. -/
def strSplit (str delim : Str) (maxElem : Int) : Option (List Str) :=
  strSplitLoop delim maxElem (str.length + maxElem.toNat + 1) str 1

/-- The loop of `strSplit` ends, in however many passes, and a limit that is not negative holds. -/
def EndsWithinLimit (str delim : Str) (maxElem : Int) : Prop :=
  ∃ fuel xs, strSplitLoop delim maxElem fuel str 1 = some xs ∧
    (0 ≤ maxElem → (xs.length : Int) ≤ maxElem)

/-- Converts a string to lower case. -/
def strToLower (str : Str) : Str := str.map tolower

/-- Checks if `haystack` starts with `needle`. -/
def strStartsWith (needle haystack : Str) : Bool := strncmpEq haystack needle needle.length

end Ipvshttpd
