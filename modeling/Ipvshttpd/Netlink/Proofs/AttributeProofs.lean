import Ipvshttpd.Netlink.Attribute

/-!
# Proofs: netlink attributes
-/

namespace Netlink

/-! ## Numbers in payloads -/

@[simp] theorem length_leBytes (n x : Nat) : (leBytes n x).length = n := by
  induction n generalizing x with
  | zero => rfl
  | succ n ih => simp [leBytes, ih]

theorem ofLeBytes_leBytes (n x : Nat) : ofLeBytes (leBytes n x) = x % 256 ^ n := by
  induction n generalizing x with
  | zero => simp [leBytes, ofLeBytes, Nat.mod_one]
  | succ n ih =>
    have hbyte : (UInt8.ofNat x).toNat = x % 256 := UInt8.toNat_ofNat'
    rw [leBytes, ofLeBytes, ih, hbyte, Nat.pow_succ, Nat.mul_comm (256 ^ n) 256, Nat.mod_mul]

theorem ofLeBytes_append (bytes bytes' : Bytes) :
    ofLeBytes (bytes ++ bytes') = ofLeBytes bytes + 256 ^ bytes.length * ofLeBytes bytes' := by
  induction bytes with
  | nil => simp [ofLeBytes]
  | cons b bs ih =>
    simp only [List.cons_append, ofLeBytes, ih, List.length_cons, Nat.pow_succ, Nat.mul_add]
    rw [Nat.mul_comm (256 ^ bs.length) 256, Nat.mul_assoc]
    omega

/-! ## Lookup -/

@[simp] theorem lastOf_nil (type : Nat) : lastOf type [] = none := rfl

@[simp] theorem lastOf_cons (type : Nat) (a : Attr) (attrs : List Attr) :
    lastOf type (a :: attrs) =
      (lastOf type attrs).or (if a.type = type then some a.payload else none) := rfl

@[simp] theorem lastOf_append (type : Nat) (attrs attrs' : List Attr) :
    lastOf type (attrs ++ attrs') = (lastOf type attrs').or (lastOf type attrs) := by
  induction attrs with
  | nil => simp
  | cons a attrs ih => simp [ih, Option.or_assoc]

@[simp] theorem lastOf_ite (type : Nat) {c : Prop} [Decidable c] (attrs attrs' : List Attr) :
    lastOf type (if c then attrs else attrs') =
      if c then lastOf type attrs else lastOf type attrs' := apply_ite ..

theorem mem_of_lastOf {type : Nat} {attrs : List Attr} {payload : Bytes}
    (h : lastOf type attrs = some payload) : ⟨type, payload⟩ ∈ attrs := by
  induction attrs with
  | nil => cases h
  | cons a attrs ih =>
    rw [lastOf_cons, Option.or_eq_some_iff] at h
    rcases h with h | ⟨-, h⟩
    · exact List.mem_cons_of_mem _ (ih h)
    · by_cases ha : a.type = type
      · rw [if_pos ha] at h
        cases h
        subst ha
        exact List.mem_cons_self
      · rw [if_neg ha] at h
        cases h

/-! ## Attributes that may be left out -/

theorem forall_mem_ite {P : Attr → Prop} {c : Prop} [Decidable c] {attrs attrs' : List Attr}
    (h : ∀ a ∈ attrs, P a) (h' : ∀ a ∈ attrs', P a) : ∀ a ∈ (if c then attrs else attrs'), P a := by
  split_ifs
  · exact h
  · exact h'

theorem length_ite_le {c : Prop} [Decidable c] {attrs attrs' : List Attr} {n : Nat}
    (h : attrs.length ≤ n) (h' : attrs'.length ≤ n) :
    (if c then attrs else attrs').length ≤ n := by
  split_ifs
  · exact h
  · exact h'

/-- A stream of `n` attributes, none of which is longer than `m`. -/
theorem stream_length_le (nl : Libnl) {attrs : List Attr} {n m : Nat} (hlen : attrs.length ≤ n)
    (hshort : ∀ a ∈ attrs, a.payload.length ≤ m) : (nl.stream attrs).length ≤ n * (m + 7) := by
  have hsum : (attrs.map fun a => nlaTotalSize a.payload.length).sum ≤
      attrs.length * (m + 7) := by
    clear hlen
    induction attrs with
    | nil => simp
    | cons a attrs ih =>
      have ha := hshort a List.mem_cons_self
      have hsize : nlaTotalSize a.payload.length ≤ m + 7 := by
        simp only [nlaTotalSize]
        omega
      have hrest := ih fun b hb => hshort b (List.mem_cons_of_mem _ hb)
      rw [List.map_cons, List.sum_cons, List.length_cons, Nat.succ_mul]
      omega
  rw [nl.stream_length]
  exact Nat.le_trans hsum (Nat.mul_le_mul_right _ hlen)

end Netlink
