import Ipvshttpd.Destination

/-!
# Service texts

The texts that stand for an address with an optional port, as a grammar over what the C library and
the name service take for addresses, hosts and ports.
-/

namespace Ipvshttpd

open CLib Resumption

/-! ## Addresses and ports -/

/-- What `host_to_addr` finds for a name. -/
def Resolver.hostToAddr (rs : Resolver) (name : Str) : Option (BitVec 32) :=
  match rs.gethostbyname name with
  | some host => if host.addrtype ≠ afInet ∨ host.length ≠ 4 then none else some host.addr
  | none => none

/-- The IPv4 address of a host, written as an address or as a name. -/
def hostIp (libc : Libc) (rs : Resolver) (name : Str) : Option (BitVec 32) :=
  (libc.inetAton name).or (rs.hostToAddr name)

/-- The port of a service of the protocol, in network order. -/
def Resolver.servicePort (rs : Resolver) (proto : BitVec 16) (name : Str) : Option (BitVec 16) :=
  if proto = ipprotoTcp then rs.getservbyname name (lit "tcp")
  else if proto = ipprotoUdp then rs.getservbyname name (lit "udp")
  else if proto = ipprotoSctp then rs.getservbyname name (lit "sctp")
  else none

/-- The port that a text stands for, in network order: a number, or the name of a service. -/
def portOf (rs : Resolver) (proto : BitVec 16) (text : Str) : Option (BitVec 16) :=
  if mStringToNumber text 0 65535 ≠ -1 then
    some (htons (BitVec.ofInt 16 (mStringToNumber text 0 65535)))
  else rs.servicePort proto text

/-- The family of an address. -/
def Addr.family : Addr → BitVec 16
  | .v4 _ => afInet
  | .v6 _ => afInet6

/-- A service after the parser has found the address. -/
def Service.withAddr (svc : Service) : Addr → Service
  | .v4 ip => { svc with addr := { svc.addr with w0 := ip }, af := afInet }
  | .v6 in6 => { svc with addr := in6, af := afInet6, netmask := 128 }

/-- A service after the parser has found the port. -/
def Service.withPort (svc : Service) (port : BitVec 16) : Service := { svc with port := port }

/-- The parse `r` into the service `svc` has found an address, an address and a port, or nothing. -/
def Parsed.Finds (svc : Service) (r : Parsed) : Option (Addr × Option (BitVec 16)) → Prop
  | none => r.result = serviceNone
  | some (a, none) => r.result = serviceAddr ∧ r.svc = svc.withAddr a
  | some (a, some port) =>
    r.result = serviceAddr ||| servicePort ∧ r.svc = (svc.withAddr a).withPort port

/-! ## Shapes -/

/-- The shapes of a text that the parser tells apart: a number, a text that begins with a bracket,
    and any other text. Brackets are closed or not, and a colon follows them or not; the text in them,
    or the whole text, is an IPv6 address or a host, which ends at the last colon. -/
inductive Shape (libc : Libc) : Str → Prop where
  /-- A number. -/
  | digits {s : Str} (hdigits : s.all isdigit = true) : Shape libc s
  /-- A bracket that is not closed. -/
  | unclosed {t : Str} (hclosed : 93 ∉ t) : Shape libc (91 :: t)
  /-- Brackets without a colon after them. -/
  | bracketOpen {a t : Str} (hclosed : 93 ∉ a) (hcolon : t.headD 0 ≠ 58) :
      Shape libc (91 :: (a ++ 93 :: t))
  /-- An IPv6 address in brackets. -/
  | bracketV6 {a p : Str} {in6 : NfInetAddr} (hclosed : 93 ∉ a) (hv6 : libc.inetPton6 a = some in6) :
      Shape libc (91 :: (a ++ 93 :: 58 :: p))
  /-- A host in brackets. -/
  | bracketHost {a p : Str} (hclosed : 93 ∉ a) (hv6 : libc.inetPton6 a = none) (hcolon : 58 ∉ a) :
      Shape libc (91 :: (a ++ 93 :: 58 :: p))
  /-- A host with a port in brackets. -/
  | bracketHostPort {h q p : Str} (hclosed : 93 ∉ h ++ 58 :: q)
      (hv6 : libc.inetPton6 (h ++ 58 :: q) = none) (hcolon : 58 ∉ q) :
      Shape libc (91 :: ((h ++ 58 :: q) ++ 93 :: 58 :: p))
  /-- An IPv6 address. -/
  | v6 {s : Str} {in6 : NfInetAddr} (hdigits : s.all isdigit = false) (hhead : s.headD 0 ≠ 91)
      (hv6 : libc.inetPton6 s = some in6) : Shape libc s
  /-- A host. -/
  | host {s : Str} (hdigits : s.all isdigit = false) (hhead : s.headD 0 ≠ 91)
      (hv6 : libc.inetPton6 s = none) (hcolon : 58 ∉ s) : Shape libc s
  /-- A host with a port. -/
  | hostPort {h p : Str} (hhead : (h ++ 58 :: p).headD 0 ≠ 91)
      (hv6 : libc.inetPton6 (h ++ 58 :: p) = none) (hcolon : 58 ∉ p) : Shape libc (h ++ 58 :: p)

/-! ## The grammar -/

/-- `ServiceText libc rs proto s addr port`: the text `s` stands for the address `addr` and, if it
    has one, the port `port` of the protocol. An IPv6 address with a port stands in brackets. -/
inductive ServiceText (libc : Libc) (rs : Resolver) (proto : BitVec 16) :
    Str → Addr → Option (BitVec 16) → Prop where
  /-- An IPv6 address. -/
  | v6 {s : Str} {in6 : NfInetAddr} (haddr : libc.inetPton6 s = some in6) :
      ServiceText libc rs proto s (.v6 in6) none
  /-- An IPv6 address in brackets, with a port. -/
  | v6Port {a p : Str} {in6 : NfInetAddr} {port : BitVec 16} (haddr : libc.inetPton6 a = some in6)
      (hport : portOf rs proto p = some port) :
      ServiceText libc rs proto (91 :: (a ++ 93 :: 58 :: p)) (.v6 in6) (some port)
  /-- A host. -/
  | host {h : Str} {ip : BitVec 32} (hhost : hostIp libc rs h = some ip) (hcolon : 58 ∉ h)
      (hbracket : h.headD 0 ≠ 91) (hv6 : libc.inetPton6 h = none) :
      ServiceText libc rs proto h (.v4 ip) none
  /-- A host with a port. -/
  | hostPort {h p : Str} {ip : BitVec 32} {port : BitVec 16} (hhost : hostIp libc rs h = some ip)
      (hbracket : h.headD 0 ≠ 91) (hcolon : 58 ∉ p) (hport : portOf rs proto p = some port)
      (hv6 : libc.inetPton6 (h ++ 58 :: p) = none) :
      ServiceText libc rs proto (h ++ 58 :: p) (.v4 ip) (some port)

/-- The parser accepts the text exactly if it is in the grammar and no number, it finds a port
    exactly if the text has one, and it finds what the text stands for. -/
structure ParsesExactly (libc : Libc) (rs : Resolver) (svc : Service) (s : Str) (r : Parsed) : Prop where
  /-- The text is accepted exactly if it is in the grammar. -/
  addr : r.HasAddr ↔ s.all isdigit = false ∧ ∃ a p, ServiceText libc rs svc.protocol s a p
  /-- A port is found exactly if the text has one. -/
  port : r.HasPort ↔ s.all isdigit = false ∧ ∃ a p, ServiceText libc rs svc.protocol s a (some p)
  /-- What is found is what the text stands for. -/
  found : s.all isdigit = false → ∀ a p, ServiceText libc rs svc.protocol s a p →
    r.svc.af = a.family ∧ sigAddr r.svc.af r.svc.addr = a ∧ ∀ port ∈ p, r.svc.port = port

/-- A host, with or without a port. -/
def HostText (libc : Libc) (rs : Resolver) (proto : BitVec 16) (s : Str) : Prop :=
  (58 ∉ s ∧ hostIp libc rs s ≠ none) ∨
    ∃ h p, s = h ++ 58 :: p ∧ 58 ∉ p ∧ hostIp libc rs h ≠ none ∧ portOf rs proto p ≠ none

/-- A text in brackets that is no IPv6 address but a host, perhaps with a port of its own, and after
    it a colon and what should be the port. -/
def BracketedHost (libc : Libc) (rs : Resolver) (proto : BitVec 16) (s : Str) : Prop :=
  ∃ a p, s = 91 :: (a ++ 93 :: 58 :: p) ∧ 93 ∉ a ∧ libc.inetPton6 a = none ∧
    ((58 ∉ a ∧ hostIp libc rs a ≠ none) ∨
      ∃ h q, a = h ++ 58 :: q ∧ 58 ∉ q ∧ hostIp libc rs h ≠ none ∧ portOf rs proto q ≠ none)

end Ipvshttpd
