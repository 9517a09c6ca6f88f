import Mathlib.Algebra.Ring.Nat
import Mathlib.Data.List.Basic

/-!
# Netlink attributes

A netlink message carries a sequence of attributes, each of which has a type and a payload; the
payload of a nested attribute is such a sequence again. A reader looks an attribute up by its type,
after a policy for each type has been checked.

How a library lays the attributes out in a message is not fixed here: `Libnl` is what a library
promises about it. `Netlink.Tlv` is a layout that keeps the promises.
-/

namespace Netlink

/-- A sequence of bytes. -/
abbrev Bytes := List UInt8

/-- An attribute. -/
structure Attr where
  /-- Its type. -/
  type : Nat
  /-- Its payload. -/
  payload : Bytes
  deriving DecidableEq

/-! ## Numbers in payloads -/

/-- The lowest `n` bytes of a number in the order of a little-endian machine. -/
def leBytes : Nat → Nat → Bytes
  | 0, _ => []
  | n + 1, x => UInt8.ofNat x :: leBytes n (x / 256)

/-- The number that the bytes stand for. -/
def ofLeBytes : Bytes → Nat
  | [] => 0
  | b :: bs => b.toNat + 256 * ofLeBytes bs

/-- An attribute with a number of 16 bits. -/
def Attr.ofU16 (type : Nat) (x : BitVec 16) : Attr := ⟨type, leBytes 2 x.toNat⟩

/-- An attribute with a number of 32 bits. -/
def Attr.ofU32 (type : Nat) (x : BitVec 32) : Attr := ⟨type, leBytes 4 x.toNat⟩

/-- An attribute with a number of 64 bits. -/
def Attr.ofU64 (type : Nat) (x : BitVec 64) : Attr := ⟨type, leBytes 8 x.toNat⟩

/-- A string travels with its terminating NUL. -/
def Attr.ofString (type : Nat) (s : Bytes) : Attr := ⟨type, s ++ [0]⟩

/-! ## Policies -/

/-- The types of payloads that a policy can ask for. -/
inductive NlaType where
  /-- `NLA_UNSPEC` -/
  | unspec
  /-- `NLA_U8` -/
  | u8
  /-- `NLA_U16` -/
  | u16
  /-- `NLA_U32` -/
  | u32
  /-- `NLA_U64` -/
  | u64
  /-- `NLA_STRING` -/
  | string
  /-- `NLA_NESTED` -/
  | nested
  deriving DecidableEq

/-- The shortest payload of a type, if a policy does not give another one. -/
def NlaType.minlen : NlaType → Nat
  | .u8 => 1
  | .u16 => 2
  | .u32 => 4
  | .u64 => 8
  | .string => 1
  | .unspec | .nested => 0

/-- `struct nla_policy`; a bound that is 0 is not set. -/
structure NlaPolicy where
  /-- The type of the payload. -/
  type : NlaType
  /-- The least length. -/
  minlen : Nat
  /-- The greatest length. -/
  maxlen : Nat

/-- An attribute without an entry in a policy. -/
def NlaPolicy.unset : NlaPolicy := ⟨.unspec, 0, 0⟩

/-- A policy that only gives the type. -/
def NlaPolicy.ofType (type : NlaType) : NlaPolicy := ⟨type, 0, 0⟩

/-- A policy that is given for some of the types. -/
def policyOf : List (Nat × NlaPolicy) → Nat → NlaPolicy
  | [], _ => .unset
  | (type, p) :: rest, type' => if type = type' then p else policyOf rest type'

/-- The least length that is accepted. -/
def NlaPolicy.shortest (p : NlaPolicy) : Nat := if p.minlen = 0 then p.type.minlen else p.minlen

/-- The policy accepts a payload. -/
def NlaPolicy.Accepts (p : NlaPolicy) (payload : Bytes) : Prop :=
  p.shortest ≤ payload.length ∧ (p.maxlen ≠ 0 → payload.length ≤ p.maxlen) ∧
    (p.type = .string → payload.getLast? = some 0)

instance (p : NlaPolicy) (payload : Bytes) : Decidable (p.Accepts payload) :=
  inferInstanceAs (Decidable (_ ∧ _ ∧ _))

/-! ## Sequences of attributes -/

/-- The payload of the last attribute with a given type. -/
def lastOf (type : Nat) : List Attr → Option Bytes
  | [] => none
  | a :: attrs => (lastOf type attrs).or (if a.type = type then some a.payload else none)

/-- The attributes that a parse finds, by their types. -/
abbrev Attrs := Nat → Option Bytes

/-- The attributes up to `maxtype`; the last one of a type counts. -/
def attrTable (maxtype : Nat) (attrs : List Attr) : Attrs := fun type =>
  if type ≤ maxtype then lastOf type attrs else none

/-- The policy lets an attribute through. Types above `maxtype` are not checked. -/
def Passes (maxtype : Nat) (policy : Nat → NlaPolicy) (a : Attr) : Prop :=
  a.type ≤ maxtype → (policy a.type).Accepts a.payload

instance (maxtype : Nat) (policy : Nat → NlaPolicy) (a : Attr) :
    Decidable (Passes maxtype policy a) :=
  inferInstanceAs (Decidable (_ → _))

/-- The type and the length of the attribute fit the fields of its header. -/
def Attr.Fits (a : Attr) : Prop := a.type < 2 ^ 14 ∧ a.payload.length + 4 < 2 ^ 16

instance (a : Attr) : Decidable a.Fits := inferInstanceAs (Decidable (_ ∧ _))

/-- The size of an attribute with its header and its padding. -/
def nlaTotalSize (payload : Nat) : Nat := (payload + 4 + 3) / 4 * 4

/-- A library for netlink messages, as far as its users rely on it. -/
structure Libnl where
  /-- The bytes of attributes that are put into a message one after the other. -/
  stream : List Attr → Bytes
  /-- `nla_parse`, with the greatest type that is looked for and the policy for each type -/
  nlaParse : Nat → (Nat → NlaPolicy) → Bytes → Option Attrs
  /-- `nla_get_u8` and its kin, and `nla_memcpy` to a number: the number of the given size, in bytes,
      that a payload begins with -/
  nlaGet : Nat → Bytes → Nat
  /-- Every attribute has a header and is padded. -/
  stream_length : ∀ attrs,
    (stream attrs).length = (attrs.map fun a => nlaTotalSize a.payload.length).sum
  /-- A parse finds what was put. -/
  parse_stream : ∀ maxtype policy attrs, (∀ a ∈ attrs, a.Fits) →
    (∀ a ∈ attrs, Passes maxtype policy a) →
    nlaParse maxtype policy (stream attrs) = some (attrTable maxtype attrs)
  /-- Whatever the bytes are, a parse finds only attributes that pass the policy. -/
  parse_accepts : ∀ maxtype policy bytes attrs type payload,
    nlaParse maxtype policy bytes = some attrs → attrs type = some payload →
    type ≤ maxtype ∧ (policy type).Accepts payload
  /-- A number is read if the payload is long enough. Of shorter payloads nothing is promised. -/
  nlaGet_eq : ∀ n payload, n ≤ payload.length → nlaGet n payload = ofLeBytes (payload.take n)

end Netlink
