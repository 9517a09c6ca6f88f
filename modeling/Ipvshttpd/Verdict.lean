import Ipvshttpd.RequestHandler

/-!
# What a request asks for

The abstract view of a request: what the checks of the handler decide about a body, as a function of
the body and the configuration, and the conditions on bodies that the specifications speak about.
-/

namespace Ipvshttpd

open CLib

/-- A member of an object; a missing member is null. -/
def field (ms : List (Str × Value)) (key : String) : Value := (ms.lookup (lit key)).getD .null

/-- The value converts to a string. -/
def Value.hasString : Value → Bool
  | .array _ | .object _ => false
  | _ => true

/-- The decision about a request: an error reply, an accessor of jsoncpp that raises, or a call of
    `set_weight` for a host and a number of kernels. -/
inductive Verdict where
  /-- An error reply. -/
  | reject (message : Str) (status : Status)
  /-- An accessor raises an exception. -/
  | abort (x : Exn)
  /-- A call of `set_weight`. -/
  | grant (hostname kernels : Value)

/-- The checks of the members of an object, in their order. -/
def verdictObject (config : ConfigurationManager) (ms : List (Str × Value)) : Verdict :=
  if (field ms "api_key").isNull then .reject (lit "Missing API key.") .unauthorized
  else if (field ms "api_key").eqString config.getApiKey = false then
    .reject (lit "Invalid API key.") .unauthorized
  else if (field ms "host").isNull then .reject (lit "No host specified.") .badRequest
  else if (field ms "available_kernels").isNull then
    .reject (lit "No available_kernels specified.") .badRequest
  else if (field ms "available_kernels").isInt ≠ true then
    .reject (lit "available_kernels needs to be an integer value.") .badRequest
  else .grant (field ms "host") (field ms "available_kernels")

/-- The decision about a body. A null root reads as an object without members. -/
def verdict (jc : Jsoncpp) (config : ConfigurationManager) (body : Str) : Verdict :=
  match jc.parse body with
  | none => .reject (lit "Could not parse JSON.") .badRequest
  | some .null => .reject (lit "Missing API key.") .unauthorized
  | some (.object ms) => verdictObject config ms
  | some _ => .abort .logicError

/-- The members of an object ask for an update with the key `key`: the api key is the string `key`,
    the host is not null and the number of kernels is an `int`. -/
def Admits (key : Str) (ms : List (Str × Value)) : Prop :=
  (field ms "api_key").eqString key = true ∧ (field ms "host").isNull = false ∧
    (field ms "available_kernels").isInt = true

instance (key : Str) (ms : List (Str × Value)) : Decidable (Admits key ms) :=
  inferInstanceAs (Decidable (_ ∧ _ ∧ _))

/-- The body is answered: its root is null or an object, and if it asks for an update with the
    configured key, its host converts to a string. -/
def Answerable (jc : Jsoncpp) (config : ConfigurationManager) (body : Str) : Prop :=
  ∀ root, jc.parse body = some root → root = .null ∨ ∃ ms, root = .object ms ∧
    (Admits config.mApiKey ms → (field ms "host").hasString = true)

/-- Two objects are turned away for the same reason: both have no api key, or both have one that is
    not the string `key`. -/
def SameRefusal (key : Str) (ms ms' : List (Str × Value)) : Prop :=
  ((field ms "api_key").isNull = true ∧ (field ms' "api_key").isNull = true) ∨
    ((field ms "api_key").isNull = false ∧ (field ms "api_key").eqString key = false ∧
      (field ms' "api_key").isNull = false ∧ (field ms' "api_key").eqString key = false)

/-- The api key of a body is not the string `key`; this includes bodies without an api key. -/
def LacksKey (jc : Jsoncpp) (key : Str) (body : Str) : Prop :=
  ∀ ms, jc.parse body = some (.object ms) → (field ms "api_key").eqString key = false

/-- The number of kernels that an admitted body gives. -/
def requestedWeight (jc : Jsoncpp) (config : ConfigurationManager) (body : Str) : Option Int :=
  match verdict jc config body with
  | .grant _ kernels => kernels.asInt.toOption
  | _ => none

end Ipvshttpd
