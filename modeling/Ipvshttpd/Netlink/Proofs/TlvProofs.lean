import Ipvshttpd.Netlink.Tlv
import Ipvshttpd.Netlink.Proofs.AttributeProofs

/-!
# Proofs: attributes as tagged byte sequences
-/

namespace Netlink.Tlv

theorem le_nlaTotalSize (n : Nat) : n + 4 ≤ nlaTotalSize n := by
  unfold nlaTotalSize
  omega

theorem length_encodeAttr (a : Attr) :
    (encodeAttr a).length = nlaTotalSize a.payload.length := by
  have hle := le_nlaTotalSize a.payload.length
  simp only [encodeAttr, List.length_append, length_leBytes, List.length_replicate]
  omega

theorem length_encode (attrs : List Attr) :
    (encode attrs).length = (attrs.map fun a => nlaTotalSize a.payload.length).sum := by
  simp only [encode, List.length_flatMap, length_encodeAttr]

/-- The first attribute of a sequence is read back, and after it the rest is read. -/
theorem decode_encodeAttr (fuel : Nat) {a : Attr} (ha : a.Fits) (rest : Bytes) :
    decode (fuel + 1) (encodeAttr a ++ rest) = a :: decode fuel rest := by
  obtain ⟨htype, hlen⟩ := ha
  have hsize := le_nlaTotalSize a.payload.length
  have hlength := length_encodeAttr a
  have htake : (encodeAttr a ++ rest).take 2 = leBytes 2 (a.payload.length + 4) := by
    simp [encodeAttr, List.append_assoc]
  have htake' : ((encodeAttr a ++ rest).drop 2).take 2 = leBytes 2 a.type := by
    simp [encodeAttr, List.append_assoc]
  have hpayload : ((encodeAttr a ++ rest).drop 4).take a.payload.length = a.payload := by
    simp [encodeAttr, List.take_append, List.drop_append, List.append_assoc]
  have hrest : (encodeAttr a ++ rest).drop (nlaTotalSize a.payload.length) = rest := by
    rw [← hlength, List.drop_left]
  have hn : ofLeBytes (leBytes 2 (a.payload.length + 4)) = a.payload.length + 4 := by
    rw [ofLeBytes_leBytes]
    exact Nat.mod_eq_of_lt hlen
  have ht : ofLeBytes (leBytes 2 a.type) % 2 ^ 14 = a.type := by
    rw [ofLeBytes_leBytes]
    omega
  have hfit : 4 ≤ a.payload.length + 4 ∧ a.payload.length + 4 ≤ (encodeAttr a ++ rest).length := by
    rw [List.length_append, hlength]
    omega
  simp only [decode, htake, hn, if_pos hfit, htake', ht, Nat.add_sub_cancel, hpayload, hrest]

theorem decode_encode {attrs : List Attr} (hfit : ∀ a ∈ attrs, a.Fits) {fuel : Nat}
    (hfuel : attrs.length ≤ fuel) : decode fuel (encode attrs) = attrs := by
  induction attrs generalizing fuel with
  | nil => cases fuel <;> simp [decode, encode, ofLeBytes]
  | cons a attrs ih =>
    cases fuel with
    | zero => simp at hfuel
    | succ fuel =>
      have hstep := decode_encodeAttr fuel (hfit a List.mem_cons_self) (encode attrs)
      have hrest := @ih (fun b hb => hfit b (List.mem_cons_of_mem _ hb)) fuel
        (by simpa using hfuel)
      rw [hrest] at hstep
      exact hstep

theorem length_le_encode (attrs : List Attr) : attrs.length ≤ (encode attrs).length := by
  induction attrs with
  | nil => exact Nat.le_refl _
  | cons a attrs ih =>
    have hsize := le_nlaTotalSize a.payload.length
    have hcons : (encode (a :: attrs)).length = (encodeAttr a).length + (encode attrs).length := by
      simp [encode]
    rw [hcons, length_encodeAttr, List.length_cons]
    omega

theorem parse_encode (maxtype : Nat) (policy : Nat → NlaPolicy) {attrs : List Attr}
    (hfit : ∀ a ∈ attrs, a.Fits) (hpass : ∀ a ∈ attrs, Passes maxtype policy a) :
    parse maxtype policy (encode attrs) = some (attrTable maxtype attrs) := by
  simp only [parse, decode_encode hfit (length_le_encode attrs), if_pos hpass]

theorem parse_accepts {maxtype : Nat} {policy : Nat → NlaPolicy} {bytes : Bytes} {attrs : Attrs}
    {type : Nat} {payload : Bytes} (h : parse maxtype policy bytes = some attrs)
    (hget : attrs type = some payload) : type ≤ maxtype ∧ (policy type).Accepts payload := by
  simp only [parse] at h
  split at h
  case isTrue hpass =>
    cases h
    simp only [attrTable] at hget
    split at hget
    case isTrue htype => exact ⟨htype, hpass _ (mem_of_lastOf hget) htype⟩
    case isFalse => cases hget
  case isFalse => cases h

/-- The layout of Linux keeps the promises. -/
def libnl : Libnl where
  stream := encode
  nlaParse := parse
  nlaGet := get
  stream_length := length_encode
  parse_stream maxtype policy _ hfit hpass := parse_encode maxtype policy hfit hpass
  parse_accepts _ _ _ _ _ _ h hget := parse_accepts h hget
  nlaGet_eq _ _ h := if_pos h

end Netlink.Tlv
