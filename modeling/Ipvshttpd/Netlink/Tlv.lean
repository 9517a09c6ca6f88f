import Ipvshttpd.Netlink.Attribute

/-!
# Attributes as tagged byte sequences

The layout of attributes in the messages of Linux: a header with the length of header and payload and
with the type, each in two bytes, then the payload, padded to a multiple of four bytes.
-/

namespace Netlink.Tlv

/-- An attribute with its header and its padding. -/
def encodeAttr (a : Attr) : Bytes :=
  leBytes 2 (a.payload.length + 4) ++ leBytes 2 a.type ++ a.payload ++
    List.replicate (nlaTotalSize a.payload.length - (a.payload.length + 4)) 0

/-- Attributes one after the other. -/
def encode (attrs : List Attr) : Bytes := attrs.flatMap encodeAttr

/-- Reads attributes as long as there is a header whose length fits what is left. The two highest
    bits of a type are flags. -/
def decode : Nat → Bytes → List Attr
  | 0, _ => []
  | fuel + 1, bytes =>
    let len := ofLeBytes (bytes.take 2)
    if 4 ≤ len ∧ len ≤ bytes.length then
      ⟨ofLeBytes ((bytes.drop 2).take 2) % 2 ^ 14, (bytes.drop 4).take (len - 4)⟩ ::
        decode fuel (bytes.drop (nlaTotalSize (len - 4)))
    else []

/-- Reads the attributes and checks them. -/
def parse (maxtype : Nat) (policy : Nat → NlaPolicy) (bytes : Bytes) : Option Attrs :=
  let attrs := decode bytes.length bytes
  if ∀ a ∈ attrs, Passes maxtype policy a then some (attrTable maxtype attrs) else none

/-- The number that a payload begins with; a payload that is too short gives 0. -/
def get (n : Nat) (payload : Bytes) : Nat :=
  if n ≤ payload.length then ofLeBytes (payload.take n) else 0

end Netlink.Tlv
