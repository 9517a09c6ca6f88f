import Ipvshttpd.Proofs.ServiceTextProofs

/-!
# Proofs: the grammar of service texts

The grammar leaves at most one reading of a text, found from its first byte, its first closing
bracket and its last colon. The parser finds that reading, and it finds one more: it takes the text
in brackets for a host if it is no IPv6 address, and forgets the port that stands after them.
-/

namespace Ipvshttpd

open CLib Resumption

variable {libc : Libc} {rs : Resolver} {svc : Service} {proto : BitVec 16} {buf s suf h p q t : Str}
variable {addr a : Addr} {port : Option (BitVec 16)} {in6 : NfInetAddr} {r : Parsed}
variable {found : Option (Addr × Option (BitVec 16))}

/-! ## Readings of a text -/

theorem serviceText_v6 (hhead : s.headD 0 ≠ 91) (hv6 : libc.inetPton6 s = some in6) :
    ServiceText libc rs proto s addr port ↔ some (Addr.v6 in6, none) = some (addr, port) := by
  constructor
  · intro htext
    cases htext with
    | v6 haddr =>
      rw [hv6, Option.some.injEq] at haddr
      rw [haddr]
    | v6Port haddr hport => exact absurd rfl hhead
    | host hhost hcolon hbracket hnone =>
      rw [hv6] at hnone
      cases hnone
    | hostPort hhost hbracket hcolon hport hnone =>
      rw [hv6] at hnone
      cases hnone
  · intro heq
    obtain ⟨rfl, rfl⟩ := Prod.mk.inj (Option.some.inj heq)
    exact .v6 hv6

theorem serviceText_host (hhead : s.headD 0 ≠ 91) (hv6 : libc.inetPton6 s = none) (hcolon : 58 ∉ s) :
    ServiceText libc rs proto s addr port ↔
      ((hostIp libc rs s).map fun ip => (Addr.v4 ip, none)) = some (addr, port) := by
  rw [Option.map_eq_some_iff]
  constructor
  · intro htext
    cases htext with
    | v6 haddr =>
      rw [hv6] at haddr
      cases haddr
    | v6Port haddr hport => exact absurd rfl hhead
    | host hhost _ _ _ => exact ⟨_, hhost, rfl⟩
    | hostPort hhost hbracket _ hport _ => exact absurd (by simp) hcolon
  · rintro ⟨ip, hip, heq⟩
    obtain ⟨rfl, rfl⟩ := Prod.mk.inj heq
    exact .host hip hcolon hhead hv6

theorem serviceText_hostPort (hs : s = h ++ 58 :: p) (hhead : s.headD 0 ≠ 91)
    (hv6 : libc.inetPton6 s = none) (hcolon : 58 ∉ p) :
    ServiceText libc rs proto s addr port ↔
      ((hostIp libc rs h).bind fun ip => (portOf rs proto p).map fun port => (Addr.v4 ip, some port)) =
        some (addr, port) := by
  simp only [Option.bind_eq_some_iff, Option.map_eq_some_iff]
  constructor
  · intro htext
    cases htext with
    | v6 haddr =>
      rw [hv6] at haddr
      cases haddr
    | v6Port haddr hport => exact absurd rfl hhead
    | host hhost hnone _ _ =>
      rw [hs] at hnone
      exact absurd (by simp) hnone
    | hostPort hhost hbracket hcolon' hport _ =>
      obtain ⟨rfl, rfl⟩ := last_unique hcolon' hcolon hs
      exact ⟨_, hhost, _, hport, rfl⟩
  · rintro ⟨ip, hip, port', hport, heq⟩
    obtain ⟨rfl, rfl⟩ := Prod.mk.inj heq
    have hbracket : h.headD 0 ≠ 91 := by
      rw [hs] at hhead
      cases h with
      | nil => decide
      | cons c h => exact hhead
    rw [hs] at hv6 ⊢
    exact .hostPort hip hbracket hcolon hport hv6

/-- A text that begins with a bracket is an IPv6 address in brackets with a port. -/
theorem serviceText_bracket (hbrackets : ∀ t in6, libc.inetPton6 t = some in6 → 91 ∉ t ∧ 93 ∉ t) :
    ServiceText libc rs proto (91 :: t) addr port ↔
      ∃ a p in6 port', t = a ++ 93 :: 58 :: p ∧ libc.inetPton6 a = some in6 ∧
        portOf rs proto p = some port' ∧ addr = .v6 in6 ∧ port = some port' := by
  constructor
  · intro htext
    generalize hs : 91 :: t = s at htext
    cases htext with
    | v6 haddr =>
      refine absurd ?_ (hbrackets _ _ haddr).1
      rw [← hs]
      exact List.mem_cons_self ..
    | @v6Port a p in6 port' haddr hport =>
      exact ⟨a, p, in6, port', (List.cons.inj hs).2, haddr, hport, rfl, rfl⟩
    | host hhost hcolon hbracket hv6 =>
      rw [← hs] at hbracket
      exact absurd rfl hbracket
    | @hostPort h p ip port' hhost hbracket hcolon hport hv6 =>
      cases h with
      | nil =>
        have hne : (91 : UInt8) ≠ 58 := by decide
        exact absurd (List.cons.inj hs).1 hne
      | cons c h =>
        rw [← (List.cons.inj hs).1] at hbracket
        exact absurd rfl hbracket
  · rintro ⟨a, p, in6, port', rfl, haddr, hport, rfl, rfl⟩
    exact .v6Port haddr hport

theorem not_serviceText_unclosed
    (hbrackets : ∀ t in6, libc.inetPton6 t = some in6 → 91 ∉ t ∧ 93 ∉ t) (hclosed : 93 ∉ t) :
    ¬ ServiceText libc rs proto (91 :: t) addr port := by
  rw [serviceText_bracket hbrackets]
  rintro ⟨a, p, in6, port', rfl, -⟩
  exact hclosed (by simp)

/-- A text in brackets is read up to its first closing bracket. -/
theorem serviceText_closed {b : Str}
    (hbrackets : ∀ t in6, libc.inetPton6 t = some in6 → 91 ∉ t ∧ 93 ∉ t) (hclosed : 93 ∉ b) :
    ServiceText libc rs proto (91 :: (b ++ 93 :: t)) addr port ↔
      ∃ p in6 port', t = 58 :: p ∧ libc.inetPton6 b = some in6 ∧
        portOf rs proto p = some port' ∧ addr = .v6 in6 ∧ port = some port' := by
  rw [serviceText_bracket hbrackets]
  constructor
  · rintro ⟨a, p, in6, port', hsplit, haddr, hrest⟩
    obtain ⟨rfl, rfl⟩ := first_unique hclosed (hbrackets a in6 haddr).2 hsplit
    exact ⟨p, in6, port', rfl, haddr, hrest⟩
  · rintro ⟨p, in6, port', rfl, haddr, hrest⟩
    exact ⟨b, p, in6, port', rfl, haddr, hrest⟩

/-- A text in brackets that is no IPv6 address has no reading. -/
theorem not_serviceText_host {b : Str}
    (hbrackets : ∀ t in6, libc.inetPton6 t = some in6 → 91 ∉ t ∧ 93 ∉ t) (hclosed : 93 ∉ b)
    (hv6 : libc.inetPton6 b = none) (addr : Addr) (port : Option (BitVec 16)) :
    ¬ ServiceText libc rs proto (91 :: (b ++ 93 :: 58 :: p)) addr port := by
  rw [serviceText_closed hbrackets hclosed]
  rintro ⟨p', in6, port', -, haddr, -⟩
  rw [hv6] at haddr
  cases haddr

/-! ## Hosts -/

theorem hostText_host (hcolon : 58 ∉ s) : HostText libc rs proto s ↔ hostIp libc rs s ≠ none := by
  have hsplit : ¬ ∃ h p, s = h ++ 58 :: p ∧ 58 ∉ p ∧ hostIp libc rs h ≠ none ∧
      portOf rs proto p ≠ none := by
    rintro ⟨h, p, rfl, -⟩
    exact hcolon (by simp)
  unfold HostText
  rw [or_iff_left hsplit, and_iff_right hcolon]

theorem hostText_hostPort (hcolon : 58 ∉ p) : HostText libc rs proto (h ++ 58 :: p) ↔
    hostIp libc rs h ≠ none ∧ portOf rs proto p ≠ none := by
  have hhost : ¬ (58 ∉ h ++ 58 :: p ∧ hostIp libc rs (h ++ 58 :: p) ≠ none) := by simp
  unfold HostText
  rw [or_iff_right hhost]
  constructor
  · rintro ⟨h', p', heq, hcolon', hrest⟩
    obtain ⟨rfl, rfl⟩ := last_unique hcolon hcolon' heq
    exact hrest
  · intro hrest
    exact ⟨h, p, rfl, hcolon, hrest⟩

/-! ## What the parser finds -/

theorem finds_port (svc : Service) (a : Addr) (buf : Str) (port : Option (BitVec 16)) :
    Parsed.Finds svc (port.elim ⟨serviceNone, svc.withAddr a, buf⟩ fun port =>
      ⟨serviceNone ||| serviceAddr ||| servicePort, (svc.withAddr a).withPort port, buf⟩)
      (port.map fun port => (a, some port)) := by
  cases port with
  | none => rfl
  | some port => exact ⟨rfl, rfl⟩

theorem finds_host (svc : Service) (buf : Str) (ip : Option (BitVec 32)) :
    Parsed.Finds svc (ip.elim ⟨serviceNone, svc, buf⟩ fun ip =>
      ⟨serviceNone ||| serviceAddr, svc.withAddr (.v4 ip), buf⟩)
      (ip.map fun ip => (Addr.v4 ip, none)) := by
  cases ip with
  | none => rfl
  | some ip => exact ⟨rfl, rfl⟩

theorem finds_hostPort (svc : Service) (buf : Str) (ip : Option (BitVec 32))
    (port : Option (BitVec 16)) :
    Parsed.Finds svc (ip.elim ⟨serviceNone, svc, buf⟩ fun ip =>
      port.elim ⟨serviceNone, svc.withAddr (.v4 ip), buf⟩ fun port =>
        ⟨serviceNone ||| serviceAddr ||| servicePort, (svc.withAddr (.v4 ip)).withPort port, buf⟩)
      (ip.bind fun ip => port.map fun port => (Addr.v4 ip, some port)) := by
  cases ip with
  | none => rfl
  | some ip => exact finds_port svc (.v4 ip) buf port

theorem found_hostPort (ip : Option (BitVec 32)) (port : Option (BitVec 16)) :
    (ip.bind fun ip => port.map fun port => (Addr.v4 ip, some port)) ≠ none ↔
      ip ≠ none ∧ port ≠ none := by
  cases ip with
  | none => simp
  | some ip => simp

theorem withAddr_found (svc : Service) (a : Addr) :
    (svc.withAddr a).af = a.family ∧ sigAddr (svc.withAddr a).af (svc.withAddr a).addr = a := by
  cases a with
  | v4 ip => exact ⟨rfl, rfl⟩
  | v6 in6 => exact ⟨rfl, rfl⟩

theorem Parsed.Finds.hasAddr_iff (h : r.Finds svc found) : r.HasAddr ↔ found ≠ none := by
  unfold Parsed.HasAddr
  rcases found with _ | ⟨a, _ | port⟩
  · have hresult : r.result = serviceNone := h
    rw [hresult]
    simp [serviceNone]
  · rw [h.1]
    simp [serviceAddr]
  · rw [h.1]
    simp [serviceAddr, servicePort]

theorem Parsed.Finds.hasPort_iff (h : r.Finds svc found) :
    r.HasPort ↔ ∃ a port, found = some (a, some port) := by
  unfold Parsed.HasPort
  rcases found with _ | ⟨a, _ | port⟩
  · have hresult : r.result = serviceNone := h
    rw [hresult]
    simp [serviceNone]
  · rw [h.1]
    simp [serviceAddr, servicePort]
  · rw [h.1]
    simp [serviceAddr, servicePort]

/-! ## The grammar and the parser -/

/-- The parser finds what the grammar reads. -/
theorem parsesExactly_of_reads (hdigits : s.all isdigit = false) (hfinds : r.Finds svc found)
    (hreads : ∀ a p, ServiceText libc rs svc.protocol s a p ↔ found = some (a, p)) :
    ParsesExactly libc rs svc s r where
  addr := by
    rw [hfinds.hasAddr_iff]
    constructor
    · intro hne
      obtain ⟨⟨a, p⟩, hfound⟩ := Option.ne_none_iff_exists'.1 hne
      exact ⟨hdigits, a, p, (hreads a p).2 hfound⟩
    · rintro ⟨-, a, p, htext⟩
      rw [(hreads a p).1 htext]
      exact Option.some_ne_none _
  port := by
    rw [hfinds.hasPort_iff]
    simp only [hreads, hdigits, true_and]
  found := by
    intro _ a p htext
    have hfound := (hreads a p).1 htext
    subst hfound
    cases p with
    | none =>
      obtain ⟨-, hsvc⟩ := hfinds
      rw [hsvc]
      exact ⟨(withAddr_found svc a).1, (withAddr_found svc a).2, by simp⟩
    | some port =>
      obtain ⟨-, hsvc⟩ := hfinds
      rw [hsvc]
      refine ⟨(withAddr_found svc a).1, (withAddr_found svc a).2, ?_⟩
      intro port' hport'
      exact Option.mem_some.1 hport'

/-- For a text in brackets that is no IPv6 address, the grammar has no reading: the parser is right
    if it finds nothing. -/
theorem parsesExactly_iff_none (hfinds : r.Finds svc found)
    (hreads : ∀ a p, ¬ ServiceText libc rs svc.protocol s a p) :
    ParsesExactly libc rs svc s r ↔ found = none := by
  constructor
  · intro hexact
    by_contra hne
    obtain ⟨-, a, p, htext⟩ := hexact.addr.1 (hfinds.hasAddr_iff.2 hne)
    exact hreads a p htext
  · intro hnone
    have hno : ¬ ∃ a port, found = some (a, some port) := by
      rw [hnone]
      rintro ⟨a, port, hsome⟩
      cases hsome
    refine ⟨?_, ?_, fun _ a p htext => absurd htext (hreads a p)⟩
    · rw [hfinds.hasAddr_iff]
      constructor
      · intro hne
        exact absurd hnone hne
      · rintro ⟨-, a, p, htext⟩
        exact absurd htext (hreads a p)
    · rw [hfinds.hasPort_iff]
      constructor
      · intro hport
        exact absurd hport hno
      · rintro ⟨-, a, p, htext⟩
        exact absurd htext (hreads a _)

/-- A number is rejected, the empty text included. -/
theorem parsesExactly_digits (hdigits : s.all isdigit = true) :
    ParsesExactly libc rs svc s ⟨serviceNone, svc, buf⟩ := by
  have hfinds : Parsed.Finds svc ⟨serviceNone, svc, buf⟩ none := rfl
  refine ⟨?_, ?_, ?_⟩
  · rw [hfinds.hasAddr_iff, hdigits]
    simp
  · rw [hfinds.hasPort_iff, hdigits]
    simp
  · intro hno
    rw [hdigits] at hno
    cases hno

theorem not_bracketedHost (hhead : s.headD 0 ≠ 91) : ¬ BracketedHost libc rs proto s := by
  rintro ⟨a, p, rfl, -⟩
  exact hhead rfl

theorem bracketedHost_iff {b : Str} (hclosed : 93 ∉ b) (hv6 : libc.inetPton6 b = none) :
    BracketedHost libc rs proto (91 :: (b ++ 93 :: 58 :: p)) ↔ HostText libc rs proto b := by
  constructor
  · rintro ⟨a, p', heq, hclosed', -, hhost⟩
    obtain ⟨rfl, -⟩ := first_unique hclosed hclosed' (List.cons.inj heq).2
    exact hhost
  · intro hhost
    exact ⟨b, p, rfl, hclosed, hv6, hhost⟩

/-- What the parser makes of a text is what the grammar says, but for hosts in brackets. -/
theorem parse_exact (rs : Resolver) (svc : Service)
    (hbrackets : ∀ t in6, libc.inetPton6 t = some in6 → 91 ∉ t ∧ 93 ∉ t) (hnul : 0 ∉ s) :
    ∃ r, rs.parse libc s svc = some r ∧
      (ParsesExactly libc rs svc s r ↔ ¬ BracketedHost libc rs svc.protocol s) := by
  have hend : ([] : Str).headD 0 = 0 := rfl
  have hnone : ∀ buf, Parsed.Finds svc ⟨serviceNone, svc, buf⟩ none := fun _ => rfl
  have hbuf : rs.parse libc s svc = rs.parse libc (s ++ []) svc := by rw [List.append_nil]
  rw [hbuf]
  cases shape libc s with
  | digits hdigits =>
    refine ⟨_, parse_digits hend hnul hdigits, iff_of_true (parsesExactly_digits hdigits) ?_⟩
    rintro ⟨a, p, rfl, -⟩
    cases hdigits
  | unclosed hclosed =>
    rw [List.mem_cons, not_or] at hnul
    refine ⟨_, parse_unclosed hend hnul.2 hclosed, iff_of_true ?_ ?_⟩
    · exact (parsesExactly_iff_none (hnone _) fun a p =>
        not_serviceText_unclosed hbrackets hclosed).2 rfl
    · rintro ⟨a, p, heq, -⟩
      rw [(List.cons.inj heq).2] at hclosed
      exact hclosed (by simp)
  | bracketOpen hclosed hcolon =>
    simp only [List.mem_cons, List.mem_append, not_or] at hnul
    refine ⟨_, parse_bracket_open hend hnul.2.1 hnul.2.2.2 hclosed hcolon, iff_of_true ?_ ?_⟩
    · refine (parsesExactly_iff_none (hnone _) fun a p => ?_).2 rfl
      rw [serviceText_closed hbrackets hclosed]
      rintro ⟨p, in6, port', rfl, -⟩
      exact hcolon rfl
    · rintro ⟨a, p, heq, hclosed', -⟩
      obtain ⟨-, rfl⟩ := first_unique hclosed hclosed' (List.cons.inj heq).2
      exact hcolon rfl
  | @bracketV6 b p in6 hclosed hv6 =>
    simp only [List.mem_cons, List.mem_append, not_or] at hnul
    refine ⟨_, parse_bracket_v6 hend hnul.2.1 hnul.2.2.2.2 hclosed hv6, iff_of_true ?_ ?_⟩
    · refine parsesExactly_of_reads rfl (finds_port _ _ _ _) fun a port => ?_
      rw [serviceText_closed hbrackets hclosed, Option.map_eq_some_iff]
      constructor
      · rintro ⟨p', in6', port', heq, haddr, hport, rfl, rfl⟩
        rw [hv6, Option.some.injEq] at haddr
        rw [← (List.cons.inj heq).2] at hport
        exact ⟨port', hport, by rw [haddr]⟩
      · rintro ⟨port', hport, heq⟩
        obtain ⟨rfl, rfl⟩ := Prod.mk.inj heq
        exact ⟨p, in6, port', rfl, hv6, hport, rfl, rfl⟩
    · rintro ⟨a, p', heq, hclosed', hno, -⟩
      obtain ⟨rfl, -⟩ := first_unique hclosed hclosed' (List.cons.inj heq).2
      rw [hv6] at hno
      cases hno
  | @bracketHost b p hclosed hv6 hcolon =>
    simp only [List.mem_cons, List.mem_append, not_or] at hnul
    refine ⟨_, parse_bracket_host hend hnul.2.1 hnul.2.2.2.2 hclosed hv6 hcolon, ?_⟩
    rw [parsesExactly_iff_none (finds_host _ _ _) (not_serviceText_host hbrackets hclosed hv6),
      bracketedHost_iff hclosed hv6, hostText_host hcolon, not_not, Option.map_eq_none_iff]
  | @bracketHostPort h q p hclosed hv6 hcolon =>
    simp only [List.mem_cons, List.mem_append, not_or] at hnul
    refine ⟨_, parse_bracket_hostPort hend hnul.2.1.1 hnul.2.1.2.2 hnul.2.2.2.2 hclosed hv6 hcolon,
      ?_⟩
    rw [parsesExactly_iff_none (finds_hostPort _ _ _ _) (not_serviceText_host hbrackets hclosed hv6),
      bracketedHost_iff hclosed hv6, hostText_hostPort hcolon, ← found_hostPort, not_not]
  | @v6 s in6 hdigits hhead hv6 =>
    have hfinds : Parsed.Finds svc ⟨serviceNone ||| serviceAddr, svc.withAddr (.v6 in6), s ++ []⟩
        (some (Addr.v6 in6, none)) := ⟨rfl, rfl⟩
    refine ⟨_, parse_v6 hend hnul hdigits hhead hv6, iff_of_true ?_ (not_bracketedHost hhead)⟩
    exact parsesExactly_of_reads hdigits hfinds fun a p => serviceText_v6 hhead hv6
  | host hdigits hhead hv6 hcolon =>
    refine ⟨_, parse_host hend hnul hdigits hhead hv6 hcolon,
      iff_of_true ?_ (not_bracketedHost hhead)⟩
    exact parsesExactly_of_reads hdigits (finds_host _ _ _) fun a p =>
      serviceText_host hhead hv6 hcolon
  | hostPort hhead hv6 hcolon =>
    simp only [List.mem_cons, List.mem_append, not_or] at hnul
    refine ⟨_, parse_hostPort hend hnul.1 hnul.2.2 hhead hv6 hcolon,
      iff_of_true ?_ (not_bracketedHost hhead)⟩
    exact parsesExactly_of_reads (all_isdigit_colon _ _) (finds_hostPort _ _ _ _) fun a p =>
      serviceText_hostPort rfl hhead hv6 hcolon

/-- The parser accepts its grammar and nothing else, but for hosts in brackets. -/
theorem parsesExactly_iff (libc : Libc) (rs : Resolver) (svc : Service) (s : Str) (hnul : 0 ∉ s)
    (hbrackets : ∀ t in6, libc.inetPton6 t = some in6 → 91 ∉ t ∧ 93 ∉ t) :
    (∃ r, rs.parse libc s svc = some r ∧ ParsesExactly libc rs svc s r) ↔
      ¬ BracketedHost libc rs svc.protocol s := by
  obtain ⟨r, hr, hiff⟩ := parse_exact rs svc hbrackets hnul
  rw [← hiff]
  constructor
  · rintro ⟨r', hr', hexact⟩
    rw [hr, Option.some.injEq] at hr'
    rw [hr']
    exact hexact
  · intro hexact
    exact ⟨r, hr, hexact⟩

/-- The loopback address in brackets, with a port. -/
theorem parsesExactly_iff_sample :
    let libc : Libc := ⟨fun t => if t = lit "::1" then some ⟨0, 0, 0, 0x01000000⟩ else none, fun _ => none⟩
    (∃ r, Resolver.empty.parse libc (lit "[::1]:80") blankService = some r ∧
        ParsesExactly libc .empty blankService (lit "[::1]:80") r) ↔
      ¬ BracketedHost libc .empty ipprotoTcp (lit "[::1]:80") := by
  intro libc
  refine parsesExactly_iff libc .empty blankService (lit "[::1]:80") (by decide) ?_
  intro t in6 hv6
  have ht : t = lit "::1" := by
    by_contra hne
    have hnone : libc.inetPton6 t = none := if_neg hne
    rw [hnone] at hv6
    cases hv6
  rw [ht]
  decide

/-- An IPv4 address in brackets is accepted, and the port after it is ignored. -/
theorem bracketed_port_is_ignored :
    let libc : Libc := ⟨fun _ => none, fun t => if t = lit "1.2.3.4" then some 0x04030201 else none⟩
    (Resolver.empty.parse libc (lit "[1.2.3.4]:80") blankService).map Parsed.result = some serviceAddr ∧
      ¬ ∃ r, Resolver.empty.parse libc (lit "[1.2.3.4]:80") blankService = some r ∧
        ParsesExactly libc .empty blankService (lit "[1.2.3.4]:80") r := by
  intro libc
  have hresult : (Resolver.empty.parse libc (lit "[1.2.3.4]:80") blankService).map Parsed.result =
      some serviceAddr := by decide
  refine ⟨hresult, ?_⟩
  rintro ⟨r, hr, hexact⟩
  rw [hr, Option.map_some, Option.some.injEq] at hresult
  have haddr : r.HasAddr := by
    unfold Parsed.HasAddr
    rw [hresult]
    decide
  obtain ⟨-, a, p, htext⟩ := hexact.addr.1 haddr
  have hsplit : ServiceText libc .empty blankService.protocol
      (91 :: (lit "1.2.3.4" ++ 93 :: (58 :: lit "80"))) a p := htext
  rw [serviceText_closed (fun _ _ h => by cases h) (by decide)] at hsplit
  obtain ⟨_, _, _, -, hv6, -⟩ := hsplit
  cases hv6

end Ipvshttpd
