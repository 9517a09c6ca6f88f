import Ipvshttpd.CLib.CString

/-!
# Splitting at a delimiter

What it means that a list of pieces is the leftmost split of a text: its delimiters are found from
left to right, each one in what the ones before it leave.
-/

namespace CLib

/-- The pieces `xs` are the leftmost split of `str` at `delim`, cut off when there are `limit` of
    them. A limit that is not positive is none. -/
structure IsSplit (delim str : Str) (limit : Int) (xs : List Str) : Prop where
  /-- The pieces and the delimiters between them are the text. -/
  join : delim.intercalate xs = str
  /-- The delimiter after a piece does not occur before the end of that piece. -/
  leftmost : ∀ x ∈ xs.dropLast, find delim (x ++ delim) = some x.length
  /-- The last piece has no delimiter in it, or it comes at the limit. -/
  last : ∃ x, xs.getLast? = some x ∧
    (find delim x = none ∨ (0 < limit ∧ (xs.length : Int) = limit))
  /-- There are at most `limit` pieces. -/
  bounded : 0 < limit → (xs.length : Int) ≤ limit

end CLib
