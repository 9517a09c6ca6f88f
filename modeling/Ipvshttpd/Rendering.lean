import Ipvshttpd.CLib.Inet
import Ipvshttpd.ServiceText

/-!
# Addresses as texts

How an address and a port are written down, and what a parse of the text must give back.
-/

namespace Ipvshttpd

open CLib Resumption

/-! ## IPv6 addresses -/

/-- The address with the given groups: its bytes are those of the groups, in network order. -/
def NfInetAddr.ofGroups (gs : List Nat) : NfInetAddr :=
  let bytes := groupBytes gs
  ⟨leWord (bytes.take 4), leWord ((bytes.drop 4).take 4), leWord ((bytes.drop 8).take 4),
    leWord ((bytes.drop 12).take 4)⟩

/-- The two groups of a word. -/
def wordGroups (w : BitVec 32) : List Nat :=
  [w.toNat % 256 * 256 + w.toNat / 256 % 256,
    w.toNat / 65536 % 256 * 256 + w.toNat / 16777216]

/-- The eight groups of an address. -/
def NfInetAddr.groups (in6 : NfInetAddr) : List Nat :=
  wordGroups in6.w0 ++ wordGroups in6.w1 ++ wordGroups in6.w2 ++ wordGroups in6.w3

/-- The address that a presentation form stands for. -/
def inet6Address (s : Str) : Option NfInetAddr := (inet6Groups s).map NfInetAddr.ofGroups

/-- The C library takes exactly the presentation forms for IPv6 addresses, and it knows every dotted
    quad. -/
structure Libc.Standard (libc : Libc) : Prop where
  /-- `inet_pton` takes the presentation forms. -/
  inetPton6 : ∀ s, libc.inetPton6 s = inet6Address s
  /-- `inet_aton` takes the dotted quads. -/
  inetAton : ∀ ip, libc.inetAton (dottedQuad ip) = some ip

/-! ## Renderings -/

/-- `Renders s addr port`: the text `s` is the address `addr` in numbers, followed by the number
    `port` if there is one. An IPv6 address with a port stands in brackets. -/
inductive Renders : Str → Addr → Option Nat → Prop where
  /-- A dotted quad. -/
  | v4 (ip : BitVec 32) : Renders (dottedQuad ip) (.v4 ip) none
  /-- A dotted quad with a port. -/
  | v4Port (ip : BitVec 32) {p : Str} {port : Nat} (hport : IsNumeral p port) (hmax : port ≤ 65535) :
      Renders (dottedQuad ip ++ 58 :: p) (.v4 ip) (some port)
  /-- A presentation form. -/
  | v6 {b : Str} {in6 : NfInetAddr} (haddr : inet6Address b = some in6) : Renders b (.v6 in6) none
  /-- A presentation form in brackets, with a port. -/
  | v6Port {b p : Str} {in6 : NfInetAddr} {port : Nat} (haddr : inet6Address b = some in6)
      (hport : IsNumeral p port) (hmax : port ≤ 65535) :
      Renders (91 :: (b ++ 93 :: 58 :: p)) (.v6 in6) (some port)

/-- The parse `r` into the service `svc` gives back the address and the port; without a port that of
    the service stays. -/
structure Parsed.GivesBack (r : Parsed) (svc : Service) (addr : Addr) (port : Option Nat) : Prop where
  /-- The flags say what was found. -/
  result : r.result = if port = none then serviceAddr else serviceAddr ||| servicePort
  /-- The family is that of the address. -/
  family : r.svc.af = addr.family
  /-- The address is found. -/
  addr : sigAddr r.svc.af r.svc.addr = addr
  /-- The port is found, if there is one. -/
  port : r.svc.port = port.elim svc.port fun n => htons (BitVec.ofNat 16 n)

/-- Two parses with the same flags, family, address and port. -/
structure Parsed.SameFindings (r r' : Parsed) : Prop where
  /-- The flags are the same. -/
  result : r.result = r'.result
  /-- The families are the same. -/
  family : r.svc.af = r'.svc.af
  /-- The addresses are the same. -/
  addr : sigAddr r.svc.af r.svc.addr = sigAddr r'.svc.af r'.svc.addr
  /-- The ports are the same. -/
  port : r.svc.port = r'.svc.port

end Ipvshttpd
