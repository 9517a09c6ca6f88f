import Ipvshttpd.CLib.Proofs.CStringProofs
import Ipvshttpd.Proofs.IpvsInterfaceProofs
import Ipvshttpd.ServiceText

/-!
# Proofs: service texts

What `m_parse_service` makes of a text of every shape, in its result, its service and its buffer. A
buffer is a text `s` and what follows it, `suf`, which begins with a NUL unless it is empty.
-/

namespace Ipvshttpd

open CLib Resumption Prog

variable {libc : Libc} {rs : Resolver} {svc : Service} {buf s suf pre a h p t : Str}

/-! ## Hosts and ports -/

theorem hostToAddr_eval (rs : Resolver) (name : Str) :
    (hostToAddr name).eval rs.answer = .ok (rs.hostToAddr name) := by
  have hask : (Act.gethostbyname name).eval rs.answer = .ok (rs.gethostbyname name) := rfl
  unfold hostToAddr Resolver.hostToAddr
  rw [bind_eq, eval_bind_ok hask]
  cases rs.gethostbyname name with
  | none => rfl
  | some host =>
    dsimp only
    split
    · rfl
    · rfl

theorem mServiceToPort_eval (rs : Resolver) (name : Str) (proto : BitVec 16) :
    (mServiceToPort name proto).eval rs.answer =
      .ok ((rs.servicePort proto name).elim (-1) fun port => ((ntohs port).toNat : Int)) := by
  have hask : ∀ protoName, (Act.getservbyname name protoName).eval rs.answer =
      .ok (rs.getservbyname name protoName) := fun _ => rfl
  unfold mServiceToPort Resolver.servicePort
  dsimp only
  split
  · rw [bind_eq, eval_bind_ok (hask _)]
    cases rs.getservbyname name (lit "tcp") <;> rfl
  · split
    · rw [bind_eq, eval_bind_ok (hask _)]
      cases rs.getservbyname name (lit "udp") <;> rfl
    · split
      · rw [bind_eq, eval_bind_ok (hask _)]
        cases rs.getservbyname name (lit "sctp") <;> rfl
      · rfl

theorem htons_ntohs (port : BitVec 16) : htons (ntohs port) = port := by
  unfold htons ntohs
  refine BitVec.eq_of_getLsbD_eq fun i hi => ?_
  have hout : port.getLsbD (8 + (8 + i)) = false := BitVec.getLsbD_of_ge _ _ (by omega)
  by_cases hlow : i < 8
  · have hhigh : 8 + i < 16 := by omega
    simp [hlow, hhigh, hi, hout]
  · have hback : 8 + (i - 8) = i := by omega
    have hbyte : i - 8 < 8 := by omega
    have hhigh : ¬ 8 + i < 16 := by omega
    simp [hlow, hi, hback, hbyte, hhigh, hout]

theorem htons_ofInt_ntohs (port : BitVec 16) :
    htons (BitVec.ofInt 16 ((ntohs port).toNat : Int)) = port := by
  rw [BitVec.ofInt_natCast, BitVec.ofNat_toNat, BitVec.setWidth_eq, htons_ntohs]

/-- The last part of the parser: the text after the position of the port is a port, or the result is
    that nothing was found. -/
theorem mParsePort_eval {i : Nat} (htext : cStr (buf.drop (i + 1)) = t) :
    (mParsePort buf (some i) svc).eval rs.answer =
      .ok ((portOf rs svc.protocol t).elim ⟨serviceNone, svc, buf⟩ fun port =>
        ⟨serviceNone ||| serviceAddr ||| servicePort, svc.withPort port, buf⟩) := by
  unfold mParsePort portOf
  simp only [htext]
  by_cases hnumber : mStringToNumber t 0 65535 ≠ -1
  · rw [if_pos hnumber, if_pos hnumber]
    rfl
  · rw [if_neg hnumber, if_neg hnumber, bind_eq, eval_bind_ok (mServiceToPort_eval rs t svc.protocol)]
    cases rs.servicePort svc.protocol t with
    | none => rfl
    | some port =>
      have hfound : ((ntohs port).toNat : Int) ≠ -1 := by omega
      rw [Option.elim_some, if_pos hfound, htons_ofInt_ntohs]
      rfl

/-! ## The address -/

theorem mParseAddr_v6 {start : Nat} {portp : Option Nat} {in6 : NfInetAddr}
    (h : libc.inetPton6 (cStr (buf.drop start)) = some in6) :
    mParseAddr libc buf start portp svc = mParsePort buf portp (svc.withAddr (.v6 in6)) := by
  unfold mParseAddr
  rw [h]
  rfl

/-- An address that is no IPv6 address is that of a host; what comes after it has been cut off. -/
theorem mParseAddr_name {start : Nat} {portp portp' : Option Nat} {buf' : Str}
    (hv6 : libc.inetPton6 (cStr (buf.drop start)) = none)
    (hcolon : (strrchr (buf.drop start) 58).map (· + start) = portp')
    (hbuf : (portp'.elim buf fun i => buf.set i 0) = buf') (hname : cStr (buf'.drop start) = h) :
    (mParseAddr libc buf start portp svc).eval rs.answer =
      (hostIp libc rs h).elim (.ok ⟨serviceNone, svc, buf'⟩) fun ip =>
        (mParsePort buf' portp' (svc.withAddr (.v4 ip))).eval rs.answer := by
  unfold mParseAddr hostIp
  rw [hv6]
  simp only [hcolon]
  -- the two ways to cut the buffer go on alike
  rcases portp' with _ | i
  all_goals
    obtain rfl := hbuf
    simp only [Option.elim_none, Option.elim_some] at hname ⊢
    simp only [hname]
    cases libc.inetAton h with
    | some ip => rfl
    | none =>
      dsimp only
      rw [bind_eq, eval_bind_ok (hostToAddr_eval rs h)]
      cases rs.hostToAddr h with
      | none => rfl
      | some ip => rfl

theorem all_isdigit_bracket (t : Str) : (91 :: t).all isdigit = false := rfl

theorem all_isdigit_colon (h p : Str) : (h ++ 58 :: p).all isdigit = false := by
  rw [List.all_append, List.all_cons, Bool.and_eq_false_iff]
  exact Or.inr rfl

/-! ## The shapes of a text -/

theorem eq_cons_of_headD {c : UInt8} (hc : c ≠ 0) (h : t.headD 0 = c) : ∃ p, t = c :: p := by
  cases t with
  | nil => exact absurd h.symm hc
  | cons d p =>
    rw [List.headD_cons] at h
    exact ⟨p, by rw [h]⟩

/-- Every text has one of the shapes. -/
theorem shape (libc : Libc) (s : Str) : Shape libc s := by
  by_cases hdigits : s.all isdigit = true
  · exact .digits hdigits
  rw [Bool.not_eq_true] at hdigits
  by_cases hhead : s.headD 0 = 91
  · obtain ⟨t, rfl⟩ := eq_cons_of_headD (by decide) hhead
    by_cases hclose : 93 ∈ t
    · obtain ⟨a, t, rfl, hclosed⟩ := List.eq_append_cons_of_mem hclose
      by_cases hnext : t.headD 0 = 58
      · obtain ⟨p, rfl⟩ := eq_cons_of_headD (by decide) hnext
        cases hv6 : libc.inetPton6 a with
        | some in6 => exact .bracketV6 hclosed hv6
        | none =>
          by_cases hcolon : 58 ∈ a
          · obtain ⟨h, q, rfl, hlast⟩ := exists_last hcolon
            exact .bracketHostPort hclosed hv6 hlast
          · exact .bracketHost hclosed hv6 hcolon
      · exact .bracketOpen hclosed hnext
    · exact .unclosed hclose
  · cases hv6 : libc.inetPton6 s with
    | some in6 => exact .v6 hdigits hhead hv6
    | none =>
      by_cases hcolon : 58 ∈ s
      · obtain ⟨h, p, rfl, hlast⟩ := exists_last hcolon
        exact .hostPort hhead hv6 hlast
      · exact .host hdigits hhead hv6 hcolon

/-! ## Parsing the address -/

variable (hsuf : suf.headD 0 = 0)
include hsuf

theorem cStr_drop (hs : 0 ∉ s) : cStr ((pre ++ (s ++ suf)).drop pre.length) = s := by
  rw [List.drop_left]
  exact cStr_append hs hsuf

/-- A text without a colon that is no IPv6 address is a host. -/
theorem mParseAddr_host (pre : Str) (portp : Option Nat) (hs : 0 ∉ s) (hcolon : 58 ∉ s)
    (hv6 : libc.inetPton6 s = none) :
    (mParseAddr libc (pre ++ (s ++ suf)) pre.length portp svc).eval rs.answer =
      .ok ((hostIp libc rs s).elim ⟨serviceNone, svc, pre ++ (s ++ suf)⟩ fun ip =>
        ⟨serviceNone ||| serviceAddr, svc.withAddr (.v4 ip), pre ++ (s ++ suf)⟩) := by
  have hname : cStr ((pre ++ (s ++ suf)).drop pre.length) = s := cStr_drop hsuf hs
  have hlast : strrchr ((pre ++ (s ++ suf)).drop pre.length) 58 = none := by
    unfold strrchr
    rw [hname]
    exact lastIdx?_eq_none hcolon
  have hposition : (strrchr ((pre ++ (s ++ suf)).drop pre.length) 58).map (· + pre.length) = none := by
    rw [hlast, Option.map_none]
  rw [mParseAddr_name (by rw [hname]; exact hv6) hposition rfl hname]
  cases hostIp libc rs s with
  | none => rfl
  | some ip => rfl

/-- Of a text with a colon that is no IPv6 address, the last colon separates a host and a port. -/
theorem mParseAddr_hostPort (pre : Str) (portp : Option Nat) (hh : 0 ∉ h) (hp : 0 ∉ p) (hcolon : 58 ∉ p)
    (hv6 : libc.inetPton6 (h ++ 58 :: p) = none) :
    (mParseAddr libc (pre ++ ((h ++ 58 :: p) ++ suf)) pre.length portp svc).eval rs.answer =
      .ok ((hostIp libc rs h).elim ⟨serviceNone, svc, pre ++ (h ++ 0 :: (p ++ suf))⟩ fun ip =>
        (portOf rs svc.protocol p).elim
          ⟨serviceNone, svc.withAddr (.v4 ip), pre ++ (h ++ 0 :: (p ++ suf))⟩ fun port =>
        ⟨serviceNone ||| serviceAddr ||| servicePort, (svc.withAddr (.v4 ip)).withPort port,
          pre ++ (h ++ 0 :: (p ++ suf))⟩) := by
  have hs : 0 ∉ h ++ 58 :: p := by simp [hh, hp]
  have htext : cStr ((pre ++ ((h ++ 58 :: p) ++ suf)).drop pre.length) = h ++ 58 :: p :=
    cStr_drop hsuf hs
  have hlast : strrchr ((pre ++ ((h ++ 58 :: p) ++ suf)).drop pre.length) 58 = some h.length := by
    unfold strrchr
    rw [htext]
    exact lastIdx?_append h hcolon
  have hposition : (strrchr ((pre ++ ((h ++ 58 :: p) ++ suf)).drop pre.length) 58).map
      (· + pre.length) = some (h.length + pre.length) := by
    rw [hlast, Option.map_some]
  have hcut : ((some (h.length + pre.length)).elim (pre ++ ((h ++ 58 :: p) ++ suf)) fun i =>
      (pre ++ ((h ++ 58 :: p) ++ suf)).set i 0) = pre ++ (h ++ 0 :: (p ++ suf)) := by
    have hassoc : ∀ c : UInt8, pre ++ (h ++ c :: (p ++ suf)) = (pre ++ h) ++ c :: (p ++ suf) := by
      intro c
      rw [List.append_assoc]
    have hlen : h.length + pre.length = (pre ++ h).length := by
      rw [List.length_append]
      omega
    rw [Option.elim_some, List.append_assoc, List.cons_append, hassoc, hassoc, hlen, set_length]
  have hname : cStr ((pre ++ (h ++ 0 :: (p ++ suf))).drop pre.length) = h := by
    rw [List.drop_left]
    exact cStr_append hh rfl
  have hport : cStr ((pre ++ (h ++ 0 :: (p ++ suf))).drop (h.length + pre.length + 1)) = p := by
    have hlen : h.length + pre.length + 1 = (pre ++ h).length + 1 := by
      rw [List.length_append]
      omega
    rw [← List.append_assoc, hlen, drop_length_succ]
    exact cStr_append hp hsuf
  rw [mParseAddr_name (by rw [htext]; exact hv6) hposition hcut hname]
  cases hostIp libc rs h with
  | none => rfl
  | some ip =>
    rw [Option.elim_some, Option.elim_some, mParsePort_eval hport]
    rfl

/-! ## Parsing a text -/

theorem mStrIsDigit_append (hs : 0 ∉ s) : mStrIsDigit (s ++ suf) = s.all isdigit := by
  unfold mStrIsDigit
  rw [cStr_append hs hsuf]

theorem parse_digits (hs : 0 ∉ s) (hdigits : s.all isdigit = true) :
    rs.parse libc (s ++ suf) svc = some ⟨serviceNone, svc, s ++ suf⟩ := by
  unfold Resolver.parse mParseService
  rw [if_pos (by rw [mStrIsDigit_append hsuf hs]; exact hdigits)]
  rfl

/-- A text that does not begin with a bracket. -/
theorem mParseService_plain (hs : 0 ∉ s) (hdigits : s.all isdigit = false) (hhead : s.headD 0 ≠ 91) :
    mParseService libc (s ++ suf) svc = mParseAddr libc (s ++ suf) 0 none svc := by
  unfold mParseService
  rw [if_neg (by rw [mStrIsDigit_append hsuf hs, hdigits]; exact Bool.false_ne_true),
    if_neg (by rw [headD_append hsuf]; exact hhead)]

theorem parse_unclosed (ht : 0 ∉ t) (hclosed : 93 ∉ t) :
    rs.parse libc ((91 :: t) ++ suf) svc = some ⟨serviceNone, svc, (91 :: t) ++ suf⟩ := by
  have hs : 0 ∉ 91 :: t := by simpa using ht
  have hfind : strchr (((91 :: t) ++ suf).drop 1) 93 = none := by
    have hdrop : ((91 :: t) ++ suf).drop 1 = t ++ suf := rfl
    unfold strchr
    rw [hdrop, cStr_append ht hsuf, List.findIdx?_eq_none_iff]
    intro c hc
    simpa using fun heq : c = 93 => hclosed (heq ▸ hc)
  have hhead : ((91 :: t) ++ suf).headD 0 = 91 := rfl
  unfold Resolver.parse mParseService
  rw [if_neg (by rw [mStrIsDigit_append hsuf hs, all_isdigit_bracket]; exact Bool.false_ne_true),
    if_pos hhead, hfind]
  rfl

/-- Of a text in brackets the address is parsed if a colon comes next. -/
theorem mParseService_bracket (ha : 0 ∉ a) (ht : 0 ∉ t) (hclosed : 93 ∉ a) :
    mParseService libc ((91 :: (a ++ 93 :: t)) ++ suf) svc =
      if t.headD 0 = 58 then
        mParseAddr libc (91 :: (a ++ 0 :: 0 :: (t.tail ++ suf))) 1 (some (a.length + 2)) svc
      else pure ⟨serviceNone, svc, 91 :: (a ++ 0 :: (t ++ suf))⟩ := by
  have hs : 0 ∉ 91 :: (a ++ 93 :: t) := by simp [ha, ht]
  have hfind : strchr (((91 :: (a ++ 93 :: t)) ++ suf).drop 1) 93 = some a.length := by
    have hdrop : ((91 :: (a ++ 93 :: t)) ++ suf).drop 1 = (a ++ 93 :: t) ++ suf := rfl
    have hnul : 0 ∉ a ++ 93 :: t := by simp [ha, ht]
    unfold strchr
    rw [hdrop, cStr_append hnul hsuf, findIdx?_append hclosed]
  have hset : ((91 :: (a ++ 93 :: t)) ++ suf).set (a.length + 1) 0 = 91 :: (a ++ 0 :: (t ++ suf)) := by
    have hsplit : (91 :: (a ++ 93 :: t)) ++ suf = (91 :: a) ++ 93 :: (t ++ suf) := by simp
    have hlen : a.length + 1 = (91 :: a).length := rfl
    rw [hsplit, hlen, set_length]
    rfl
  have hget : (91 :: (a ++ 0 :: (t ++ suf))).getD (a.length + 2) 0 = t.headD 0 := by
    have hdrop : ((91 :: a) ++ 0 :: (t ++ suf)).drop ((91 :: a).length + 1) = t ++ suf :=
      drop_length_succ _ _ _
    have hhead : ∀ (l : Str) (n : Nat), l.getD n 0 = (l.drop n).headD 0 := by
      intro l n
      rw [List.headD_eq_head?_getD, List.head?_drop, List.getD_eq_getElem?_getD]
    have hnext : (t ++ suf).headD 0 = t.headD 0 := headD_append hsuf
    rw [hhead, ← hnext]
    exact congrArg (·.headD 0) hdrop
  have hhead : ((91 :: (a ++ 93 :: t)) ++ suf).headD 0 = 91 := rfl
  unfold mParseService
  rw [if_neg (by rw [mStrIsDigit_append hsuf hs, all_isdigit_bracket]; exact Bool.false_ne_true),
    if_pos hhead, hfind]
  simp only [hset, hget]
  by_cases hcolon : t.headD 0 = 58
  · rw [if_pos hcolon, if_pos hcolon]
    obtain ⟨p, rfl⟩ : ∃ p, t = 58 :: p := by
      cases t with
      | nil => cases hcolon
      | cons c p => exact ⟨p, by rw [List.headD_cons] at hcolon; rw [hcolon]⟩
    have hsplit : 91 :: (a ++ 0 :: ((58 :: p) ++ suf)) = (91 :: (a ++ [0])) ++ 58 :: (p ++ suf) := by
      simp
    have hlen : a.length + 2 = (91 :: (a ++ [0])).length := by simp
    have hset' : (91 :: (a ++ 0 :: ((58 :: p) ++ suf))).set (a.length + 2) 0 =
        91 :: (a ++ 0 :: 0 :: (p ++ suf)) := by
      rw [hsplit, hlen, set_length]
      simp
    rw [hset']
    rfl
  · rw [if_neg hcolon, if_neg hcolon]

theorem mParseService_bracketPort (ha : 0 ∉ a) (hp : 0 ∉ p) (hclosed : 93 ∉ a) :
    mParseService libc ((91 :: (a ++ 93 :: 58 :: p)) ++ suf) svc =
      mParseAddr libc (91 :: (a ++ 0 :: 0 :: (p ++ suf))) 1 (some (a.length + 2)) svc := by
  have ht : 0 ∉ 58 :: p := by simpa using hp
  exact (mParseService_bracket hsuf ha ht hclosed).trans (if_pos rfl)

theorem parse_bracket_open (ha : 0 ∉ a) (ht : 0 ∉ t) (hclosed : 93 ∉ a) (hcolon : t.headD 0 ≠ 58) :
    rs.parse libc ((91 :: (a ++ 93 :: t)) ++ suf) svc =
      some ⟨serviceNone, svc, 91 :: (a ++ 0 :: (t ++ suf))⟩ := by
  unfold Resolver.parse
  rw [mParseService_bracket hsuf ha ht hclosed, if_neg hcolon]
  rfl

theorem parse_bracket_v6 {in6 : NfInetAddr} (ha : 0 ∉ a) (hp : 0 ∉ p) (hclosed : 93 ∉ a)
    (hv6 : libc.inetPton6 a = some in6) :
    rs.parse libc ((91 :: (a ++ 93 :: 58 :: p)) ++ suf) svc =
      some ((portOf rs svc.protocol p).elim
        ⟨serviceNone, svc.withAddr (.v6 in6), 91 :: (a ++ 0 :: 0 :: (p ++ suf))⟩ fun port =>
        ⟨serviceNone ||| serviceAddr ||| servicePort, (svc.withAddr (.v6 in6)).withPort port,
          91 :: (a ++ 0 :: 0 :: (p ++ suf))⟩) := by
  have haddr : cStr ((91 :: (a ++ 0 :: 0 :: (p ++ suf))).drop 1) = a := cStr_append ha rfl
  have htext : cStr ((91 :: (a ++ 0 :: 0 :: (p ++ suf))).drop (a.length + 2 + 1)) = p := by
    have hsplit : 91 :: (a ++ 0 :: 0 :: (p ++ suf)) = (91 :: (a ++ [0])) ++ 0 :: (p ++ suf) := by
      simp
    have hlen : a.length + 2 = (91 :: (a ++ [0])).length := by simp
    rw [hsplit, hlen, drop_length_succ]
    exact cStr_append hp hsuf
  unfold Resolver.parse
  rw [mParseService_bracketPort hsuf ha hp hclosed, mParseAddr_v6 (by rw [haddr]; exact hv6),
    mParsePort_eval htext]
  rfl

theorem parse_bracket_host (ha : 0 ∉ a) (hp : 0 ∉ p) (hclosed : 93 ∉ a)
    (hv6 : libc.inetPton6 a = none) (hcolon : 58 ∉ a) :
    rs.parse libc ((91 :: (a ++ 93 :: 58 :: p)) ++ suf) svc =
      some ((hostIp libc rs a).elim ⟨serviceNone, svc, 91 :: (a ++ 0 :: 0 :: (p ++ suf))⟩ fun ip =>
        ⟨serviceNone ||| serviceAddr, svc.withAddr (.v4 ip), 91 :: (a ++ 0 :: 0 :: (p ++ suf))⟩) := by
  have hrest : (0 :: 0 :: (p ++ suf) : Str).headD 0 = 0 := rfl
  unfold Resolver.parse
  rw [mParseService_bracketPort hsuf ha hp hclosed]
  exact congrArg Except.toOption
    (mParseAddr_host hrest [91] (some (a.length + 2)) ha hcolon hv6)

theorem parse_bracket_hostPort {q : Str} (hh : 0 ∉ h) (hq : 0 ∉ q) (hp : 0 ∉ p)
    (hclosed : 93 ∉ h ++ 58 :: q) (hv6 : libc.inetPton6 (h ++ 58 :: q) = none) (hcolon : 58 ∉ q) :
    rs.parse libc ((91 :: ((h ++ 58 :: q) ++ 93 :: 58 :: p)) ++ suf) svc =
      some ((hostIp libc rs h).elim
        ⟨serviceNone, svc, 91 :: (h ++ 0 :: (q ++ 0 :: 0 :: (p ++ suf)))⟩ fun ip =>
        (portOf rs svc.protocol q).elim
          ⟨serviceNone, svc.withAddr (.v4 ip), 91 :: (h ++ 0 :: (q ++ 0 :: 0 :: (p ++ suf)))⟩
          fun port =>
        ⟨serviceNone ||| serviceAddr ||| servicePort, (svc.withAddr (.v4 ip)).withPort port,
          91 :: (h ++ 0 :: (q ++ 0 :: 0 :: (p ++ suf)))⟩) := by
  have ha : 0 ∉ h ++ 58 :: q := by simp [hh, hq]
  have hrest : (0 :: 0 :: (p ++ suf) : Str).headD 0 = 0 := rfl
  unfold Resolver.parse
  rw [mParseService_bracketPort hsuf ha hp hclosed]
  exact congrArg Except.toOption
    (mParseAddr_hostPort hrest [91] (some ((h ++ 58 :: q).length + 2)) hh hq hcolon hv6)

theorem parse_v6 {in6 : NfInetAddr} (hs : 0 ∉ s) (hdigits : s.all isdigit = false)
    (hhead : s.headD 0 ≠ 91) (hv6 : libc.inetPton6 s = some in6) :
    rs.parse libc (s ++ suf) svc =
      some ⟨serviceNone ||| serviceAddr, svc.withAddr (.v6 in6), s ++ suf⟩ := by
  have haddr : cStr ((s ++ suf).drop 0) = s := cStr_append hs hsuf
  unfold Resolver.parse
  rw [mParseService_plain hsuf hs hdigits hhead, mParseAddr_v6 (by rw [haddr]; exact hv6)]
  rfl

theorem parse_host (hs : 0 ∉ s) (hdigits : s.all isdigit = false) (hhead : s.headD 0 ≠ 91)
    (hv6 : libc.inetPton6 s = none) (hcolon : 58 ∉ s) :
    rs.parse libc (s ++ suf) svc =
      some ((hostIp libc rs s).elim ⟨serviceNone, svc, s ++ suf⟩ fun ip =>
        ⟨serviceNone ||| serviceAddr, svc.withAddr (.v4 ip), s ++ suf⟩) := by
  unfold Resolver.parse
  rw [mParseService_plain hsuf hs hdigits hhead]
  exact congrArg Except.toOption (mParseAddr_host hsuf [] none hs hcolon hv6)

theorem parse_hostPort (hh : 0 ∉ h) (hp : 0 ∉ p) (hhead : (h ++ 58 :: p).headD 0 ≠ 91)
    (hv6 : libc.inetPton6 (h ++ 58 :: p) = none) (hcolon : 58 ∉ p) :
    rs.parse libc ((h ++ 58 :: p) ++ suf) svc =
      some ((hostIp libc rs h).elim ⟨serviceNone, svc, h ++ 0 :: (p ++ suf)⟩ fun ip =>
        (portOf rs svc.protocol p).elim ⟨serviceNone, svc.withAddr (.v4 ip), h ++ 0 :: (p ++ suf)⟩
          fun port =>
        ⟨serviceNone ||| serviceAddr ||| servicePort, (svc.withAddr (.v4 ip)).withPort port,
          h ++ 0 :: (p ++ suf)⟩) := by
  have hs : 0 ∉ h ++ 58 :: p := by simp [hh, hp]
  unfold Resolver.parse
  rw [mParseService_plain hsuf hs (all_isdigit_colon h p) hhead]
  exact congrArg Except.toOption (mParseAddr_hostPort hsuf [] none hh hp hcolon hv6)

end Ipvshttpd
