import Ipvshttpd.CLib.Proofs.InetProofs
import Ipvshttpd.Proofs.ServiceTextProofs
import Ipvshttpd.Rendering

/-!
# Proofs: addresses as texts

The parser gives back what a text renders. The delimiters do not meet: a dotted quad has no colon, an
IPv6 address has no bracket, and no text with fewer than two colons is one.
-/

namespace Ipvshttpd

open CLib Resumption

variable {libc : Libc} {rs : Resolver} {svc : Service} {proto : BitVec 16} {s p : Str} {addr : Addr}
variable {port : Option Nat} {in6 : NfInetAddr} {n : Nat} {c : UInt8}

/-! ## IPv6 addresses -/

theorem ofGroups_groups (in6 : NfInetAddr) : NfInetAddr.ofGroups in6.groups = in6 := by
  have hdiv : ∀ a b : Nat, b < 256 → (a * 256 + b) / 256 = a := by
    intro a b hb
    omega
  have hmod : ∀ a b : Nat, b < 256 → (a * 256 + b) % 256 = b := by
    intro a b hb
    omega
  have hword : ∀ w : BitVec 32, groupBytes (wordGroups w) =
      [w.toNat % 256, w.toNat / 256 % 256, w.toNat / 65536 % 256, w.toNat / 16777216] := by
    intro w
    have hw := w.isLt
    unfold groupBytes wordGroups
    simp only [List.flatMap_cons, List.flatMap_nil]
    rw [hdiv _ _ (by omega), hmod _ _ (by omega), hdiv _ _ (by omega), hmod _ _ (by omega)]
    rfl
  have hbytes : groupBytes in6.groups = groupBytes (wordGroups in6.w0) ++
      groupBytes (wordGroups in6.w1) ++ groupBytes (wordGroups in6.w2) ++
      groupBytes (wordGroups in6.w3) := by
    unfold groupBytes NfInetAddr.groups
    simp only [List.flatMap_append]
  unfold NfInetAddr.ofGroups
  simp only [hbytes, hword]
  simp [leWord_bytes]

theorem groups_lt (in6 : NfInetAddr) : ∀ g ∈ in6.groups, g < 65536 := by
  have hword : ∀ w : BitVec 32, ∀ g ∈ wordGroups w, g < 65536 := by
    intro w g hg
    have hw := w.isLt
    unfold wordGroups at hg
    rw [List.mem_cons, List.mem_singleton] at hg
    omega
  intro g hg
  unfold NfInetAddr.groups at hg
  simp only [List.mem_append] at hg
  rcases hg with ((hg | hg) | hg) | hg
  all_goals exact hword _ g hg

/-- Every IPv6 address has a presentation form. -/
theorem inet6Address_groupsText (in6 : NfInetAddr) :
    inet6Address (groupsText in6.groups) = some in6 := by
  unfold inet6Address
  rw [inet6Groups_groupsText (groups_lt in6) rfl, Option.map_some, ofGroups_groups]

theorem not_mem_of_inet6Address (h : inet6Address s = some in6) (hhex : hexVal c = none) (hdot : c ≠ 46)
    (hcolon : c ≠ 58) : c ∉ s := by
  obtain ⟨gs, hgs, -⟩ := Option.map_eq_some_iff.1 h
  exact not_mem_of_inet6Groups hgs hhex hdot hcolon

/-- The delimiters of the parser are in no address. -/
theorem inet6Address_delimiters (h : inet6Address s = some in6) : 0 ∉ s ∧ 91 ∉ s ∧ 93 ∉ s :=
  ⟨not_mem_of_inet6Address h rfl (by decide) (by decide),
    not_mem_of_inet6Address h rfl (by decide) (by decide),
    not_mem_of_inet6Address h rfl (by decide) (by decide)⟩

theorem dottedQuad_delimiters (ip : BitVec 32) :
    0 ∉ dottedQuad ip ∧ 58 ∉ dottedQuad ip ∧ 91 ∉ dottedQuad ip :=
  ⟨not_mem_dottedQuad rfl (by decide) ip, not_mem_dottedQuad rfl (by decide) ip,
    not_mem_dottedQuad rfl (by decide) ip⟩

theorem inet6Address_not_digits (h : inet6Address s = some in6) : s.all isdigit = false := by
  obtain ⟨gs, hgs, -⟩ := Option.map_eq_some_iff.1 h
  have hcolon : 58 ∈ s := List.count_pos_iff.1 (by have := (inet6Groups_some hgs).2; omega)
  rw [List.all_eq_false]
  exact ⟨58, hcolon, Bool.false_ne_true⟩

theorem headD_ne_bracket (h : 91 ∉ s) : s.headD 0 ≠ 91 := by
  cases s with
  | nil => exact fun hc => absurd hc (by decide)
  | cons d s =>
    rw [List.mem_cons, not_or] at h
    exact Ne.symm h.1

theorem inet6Address_eq_none (h : s.count 58 < 2) : inet6Address s = none := by
  unfold inet6Address
  rw [inet6Groups_eq_none h, Option.map_none]

/-! ## Ports -/

theorem mStringToNumber_numeral (h : IsNumeral p n) (hmax : n ≤ 65535) :
    mStringToNumber p 0 65535 = n := by
  have hvalue : strtol p = ⟨n, [], false⟩ := by
    rw [strtol_numeral h, if_neg]
    unfold longMax
    omega
  unfold mStringToNumber
  rw [hvalue]
  dsimp only
  rw [if_pos ⟨rfl, Ne.symm h.1⟩, if_pos ⟨rfl, by omega, by omega⟩]

theorem portOf_numeral (rs : Resolver) (proto : BitVec 16) (h : IsNumeral p n) (hmax : n ≤ 65535) :
    portOf rs proto p = some (htons (BitVec.ofNat 16 n)) := by
  unfold portOf
  rw [mStringToNumber_numeral h hmax, if_pos (by omega), BitVec.ofInt_natCast]

theorem htons_injective {q q' : BitVec 16} (h : htons q = htons q') : q = q' := by
  rw [← htons_ntohs q, ← htons_ntohs q']
  exact congrArg htons h

theorem colon_not_mem_numeral (h : IsNumeral p n) : 58 ∉ p := by
  intro hcolon
  have hdigit := h.isdigit hcolon
  cases hdigit

/-! ## The round trip -/

theorem hostIp_dottedQuad (hlibc : libc.Standard) (rs : Resolver) (ip : BitVec 32) :
    hostIp libc rs (dottedQuad ip) = some ip := by
  unfold hostIp
  rw [hlibc.inetAton, Option.some_or]

theorem inetPton6_eq_none (hlibc : libc.Standard) (h : s.count 58 < 2) : libc.inetPton6 s = none := by
  rw [hlibc.inetPton6, inet6Address_eq_none h]

/-- The parser gives back what a text renders. -/
theorem parse_renders (hlibc : libc.Standard) (h : Renders s addr port) (rs : Resolver)
    (svc : Service) : ∃ r, rs.parse libc s svc = some r ∧ r.GivesBack svc addr port := by
  have hend : ([] : Str).headD 0 = 0 := rfl
  rw [← List.append_nil s]
  cases h with
  | v4 ip =>
    obtain ⟨hzero, hcolon, hbracket⟩ := dottedQuad_delimiters ip
    have hhead := headD_ne_bracket hbracket
    have hcount : (dottedQuad ip).count 58 = 0 := List.count_eq_zero.2 hcolon
    have hv6 : libc.inetPton6 (dottedQuad ip) = none := inetPton6_eq_none hlibc (by omega)
    refine ⟨_, parse_host hend hzero (dottedQuad_not_digits ip) hhead hv6 hcolon, ?_⟩
    rw [hostIp_dottedQuad hlibc]
    exact ⟨rfl, rfl, rfl, rfl⟩
  | v4Port ip hport hmax =>
    rename_i p n
    obtain ⟨hzero, hquad, hbracket⟩ := dottedQuad_delimiters ip
    have hcolon : 58 ∉ p := colon_not_mem_numeral hport
    have hhead : (dottedQuad ip ++ 58 :: p).headD 0 ≠ 91 := by
      refine headD_ne_bracket ?_
      rw [List.mem_append, List.mem_cons]
      rintro (hmem | hmem | hmem)
      · exact hbracket hmem
      · cases hmem
      · cases hport.isdigit hmem
    have hcount : (dottedQuad ip ++ 58 :: p).count 58 = 1 := by
      rw [List.count_append, List.count_cons_self, List.count_eq_zero.2 hcolon,
        List.count_eq_zero.2 hquad]
    have hv6 : libc.inetPton6 (dottedQuad ip ++ 58 :: p) = none :=
      inetPton6_eq_none hlibc (by omega)
    refine ⟨_, parse_hostPort hend hzero hport.zero_not_mem hhead hv6 hcolon, ?_⟩
    rw [hostIp_dottedQuad hlibc, Option.elim_some, portOf_numeral rs svc.protocol hport hmax]
    exact ⟨rfl, rfl, rfl, rfl⟩
  | v6 haddr =>
    obtain ⟨hzero, hbracket, -⟩ := inet6Address_delimiters haddr
    have hhead := headD_ne_bracket hbracket
    have hv6 := (hlibc.inetPton6 s).trans haddr
    refine ⟨_, parse_v6 hend hzero (inet6Address_not_digits haddr) hhead hv6, ?_⟩
    exact ⟨rfl, rfl, rfl, rfl⟩
  | v6Port haddr hport hmax =>
    rename_i b p in6 n
    obtain ⟨hzero, -, hclosed⟩ := inet6Address_delimiters haddr
    have hv6 := (hlibc.inetPton6 b).trans haddr
    refine ⟨_, parse_bracket_v6 hend hzero hport.zero_not_mem hclosed hv6, ?_⟩
    rw [portOf_numeral rs svc.protocol hport hmax]
    exact ⟨rfl, rfl, rfl, rfl⟩

theorem Renders.port_le (h : Renders s addr (some n)) : n ≤ 65535 := by
  cases h with
  | v4Port ip hport hmax => exact hmax
  | v6Port haddr hport hmax => exact hmax

/-- A parse determines the address and the port that it gives back. -/
theorem Parsed.GivesBack.injective {r r' : Parsed} {svc' : Service} {addr' : Addr} {port' : Option Nat}
    (h : r.GivesBack svc addr port) (h' : r'.GivesBack svc' addr' port') (hsame : r.SameFindings r')
    (hport : ∀ n ∈ port, n ≤ 65535) (hport' : ∀ n ∈ port', n ≤ 65535) :
    addr = addr' ∧ port = port' := by
  have hresult := hsame.result
  have hports := hsame.port
  rw [h.result, h'.result] at hresult
  rw [h.port, h'.port] at hports
  constructor
  · rw [← h.addr, ← h'.addr]
    exact hsame.addr
  · cases port with
    | none =>
      cases port' with
      | none => rfl
      | some n' => cases hresult
    | some n =>
      cases port' with
      | none => cases hresult
      | some n' =>
        have hn := hport n rfl
        have hn' := hport' n' rfl
        have hnumbers := congrArg BitVec.toNat (htons_injective hports)
        rw [BitVec.toNat_ofNat, BitVec.toNat_ofNat] at hnumbers
        rw [Option.some.injEq]
        omega

/-- Every address has a rendering, with and without a port. -/
theorem exists_renders (addr : Addr) (port : Option Nat) (hmax : ∀ n ∈ port, n ≤ 65535) :
    ∃ s, Renders s addr port := by
  cases addr with
  | v4 ip =>
    cases port with
    | none => exact ⟨_, .v4 ip⟩
    | some n => exact ⟨_, .v4Port ip (isNumeral_decimalNat n) (hmax n rfl)⟩
  | v6 in6 =>
    have haddr := inet6Address_groupsText in6
    cases port with
    | none => exact ⟨_, .v6 haddr⟩
    | some n => exact ⟨_, .v6Port haddr (isNumeral_decimalNat n) (hmax n rfl)⟩

/-- Whatever was in the service, the parser gives back the address and the port that a text renders,
    so it tells any two of them apart; and every address and port has a rendering. -/
theorem rendering_roundTrip (libc : Libc) (hlibc : libc.Standard) :
    (∀ addr port, (∀ n ∈ port, n ≤ 65535) → ∃ s, Renders s addr port) ∧
    (∀ s addr port, Renders s addr port → ∀ (rs : Resolver) (svc : Service),
      ∃ r, rs.parse libc s svc = some r ∧ r.GivesBack svc addr port) ∧
    ∀ s s' addr addr' port port', Renders s addr port → Renders s' addr' port' →
      (addr, port) ≠ (addr', port') → ∀ (rs rs' : Resolver) (svc svc' : Service) (r r' : Parsed),
        rs.parse libc s svc = some r → rs'.parse libc s' svc' = some r' → ¬ r.SameFindings r' := by
  refine ⟨exists_renders, fun s addr port h rs svc => parse_renders hlibc h rs svc, ?_⟩
  intro s s' addr addr' port port' h h' hne rs rs' svc svc' r r' hr hr' hsame
  obtain ⟨r₁, hr₁, hback⟩ := parse_renders hlibc h rs svc
  obtain ⟨r₂, hr₂, hback'⟩ := parse_renders hlibc h' rs' svc'
  rw [hr, Option.some.injEq] at hr₁
  rw [hr', Option.some.injEq] at hr₂
  subst hr₁
  subst hr₂
  have hport : ∀ n ∈ port, n ≤ 65535 := by
    intro n hn
    rw [Option.mem_def] at hn
    rw [hn] at h
    exact h.port_le
  have hport' : ∀ n ∈ port', n ≤ 65535 := by
    intro n hn
    rw [Option.mem_def] at hn
    rw [hn] at h'
    exact h'.port_le
  obtain ⟨rfl, rfl⟩ := hback.injective hback' hsame hport hport'
  exact hne rfl

theorem rendering_roundTrip_sample :
    ∃ r, Resolver.empty.parse ⟨inet6Address, quadAddress⟩ (lit "[2001:db8::1]:8080") blankService =
      some r ∧ r.GivesBack blankService (.v6 ⟨0xb80d0120, 0, 0, 0x01000000⟩) (some 8080) := by
  have hlibc : Libc.Standard ⟨inet6Address, quadAddress⟩ :=
    ⟨fun _ => rfl, quadAddress_dottedQuad⟩
  have haddr : inet6Address (lit "2001:db8::1") = some ⟨0xb80d0120, 0, 0, 0x01000000⟩ := by decide
  have hport : IsNumeral (lit "8080") 8080 := by decide
  exact (rendering_roundTrip _ hlibc).2.1 _ _ _ (.v6Port haddr hport (by decide)) _ _

end Ipvshttpd
