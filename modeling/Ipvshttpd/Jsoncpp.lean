import Mathlib.Data.Rat.Defs
import Ipvshttpd.CLib.CString

/-!
# The part of jsoncpp that the request handler uses

jsoncpp is not part of the repository. What it parses and how it prints a double are parameters
(`Jsoncpp`); its accessors behave as documented: they convert where a conversion is defined and raise
`Json::LogicError` elsewhere.
-/

namespace Ipvshttpd

open CLib

/-- The exceptions that can leave a request handler. -/
inductive Exn where
  /-- `Json::LogicError` -/
  | logicError
  /-- The connection to the client is broken. -/
  | connectionError
  deriving DecidableEq

/-- `Json::Value`. Integers are 64 bits wide; a double is the rational number it stands for. -/
inductive Value where
  /-- `null` -/
  | null
  /-- A number with a sign. -/
  | int (n : Int)
  /-- A number without a sign. -/
  | uint (n : Nat)
  /-- A double. -/
  | real (q : ℚ)
  /-- A string. -/
  | string (s : Str)
  /-- `true` or `false` -/
  | boolean (b : Bool)
  /-- An array. -/
  | array (vs : List Value)
  /-- An object, with its members. -/
  | object (ms : List (Str × Value))

/-- The functions of jsoncpp that the model leaves open. -/
structure Jsoncpp where
  /-- `Reader::parse`: the root of the document, if the text is a JSON document. -/
  parse : Str → Option Value
  /-- The text of a double. -/
  realToString : ℚ → Str

namespace Value

/-- `Value::minInt` -/
def minInt : Int := -2 ^ 31

/-- `Value::maxInt` -/
def maxInt : Int := 2 ^ 31 - 1

/-- `operator!` -/
def isNull : Value → Bool
  | .null => true
  | _ => false

/-- `operator[]` with a string key: a missing member is null. -/
def member (key : Str) : Value → Except Exn Value
  | .null => .ok .null
  | .object ms => .ok ((ms.lookup key).getD .null)
  | _ => .error .logicError

/-- `operator==` with a `std::string` -/
def eqString (v : Value) (s : Str) : Bool :=
  match v with
  | .string t => t = s
  | _ => false

/-- `isInt`: an integral number in the range of `int`. -/
def isInt : Value → Bool
  | .int n => minInt ≤ n ∧ n ≤ maxInt
  | .uint n => (n : Int) ≤ maxInt
  | .real q => (minInt : ℚ) ≤ q ∧ q ≤ (maxInt : ℚ) ∧ q.den = 1
  | _ => false

/-- `asInt`: a value without a number in the range of `int` raises an exception. -/
def asInt : Value → Except Exn Int
  | .null => .ok 0
  | .int n => if minInt ≤ n ∧ n ≤ maxInt then .ok n else .error .logicError
  | .uint n => if (n : Int) ≤ maxInt then .ok n else .error .logicError
  | .real q =>
    if (minInt : ℚ) ≤ q ∧ q ≤ (maxInt : ℚ) then .ok (q.num.tdiv q.den) else .error .logicError
  | .boolean b => .ok (if b then 1 else 0)
  | _ => .error .logicError

/-- `asString`: arrays and objects raise an exception. -/
def asString (jc : Jsoncpp) : Value → Except Exn Str
  | .null => .ok []
  | .int n => .ok (decimal n)
  | .uint n => .ok (decimalNat n)
  | .real q => .ok (jc.realToString q)
  | .string s => .ok s
  | .boolean b => .ok (if b then lit "true" else lit "false")
  | .array _ => .error .logicError
  | .object _ => .error .logicError

end Value

end Ipvshttpd
