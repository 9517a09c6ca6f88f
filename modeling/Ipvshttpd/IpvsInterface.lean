import Ipvshttpd.Calls

/-!
# The IPVS interface

`ipvs_interface::set_weight` and the parser of `host:port` texts, after `ipvs_interface.cpp`. The
parser works in place: it cuts its buffer into C strings by writing NUL bytes, so its model returns
the buffer. Positions are offsets from the start of the buffer, and reading at its end gives the
terminating NUL.
-/

namespace Ipvshttpd

open CLib Resumption

/-- The conversions of addresses by the C library; the network order of the bytes is kept. -/
structure Libc where
  /-- `inet_pton(AF_INET6, _, _)` -/
  inetPton6 : Str → Option NfInetAddr
  /-- `inet_aton` -/
  inetAton : Str → Option (BitVec 32)

/-- `SERVICE_NONE`: nothing has been parsed. -/
def serviceNone : Nat := 0x0000

/-- `SERVICE_ADDR`: the text has given an address. -/
def serviceAddr : Nat := 0x0001

/-- `SERVICE_PORT`: the text has given a port. -/
def servicePort : Nat := 0x0002

/-- Swaps the bytes of a port number. -/
def htons (p : BitVec 16) : BitVec 16 := p <<< 8 ||| p >>> 8

/-- Swaps the bytes back. -/
def ntohs (p : BitVec 16) : BitVec 16 := p <<< 8 ||| p >>> 8

/-- `host_to_addr`: the address that the name service has for a name, if it is an IPv4 address. -/
def hostToAddr (name : Str) : Act (Option (BitVec 32)) := do
  match ← Act.gethostbyname name with
  | some host =>
    if host.addrtype ≠ afInet ∨ host.length ≠ 4 then pure none else pure (some host.addr)
  | none => pure none

/-- Populates proto from name. -/
def mServiceToPort (name : Str) (proto : BitVec 16) : Act Int :=
  let ask (protoName : Str) : Act Int := do
    match ← Act.getservbyname name protoName with
    | some sPort => pure (ntohs sPort).toNat
    | none => pure (-1)
  if proto = ipprotoTcp then ask (lit "tcp")
  else if proto = ipprotoUdp then ask (lit "udp")
  else if proto = ipprotoSctp then ask (lit "sctp")
  else pure (-1)

/-- strtol() with min/max. -/
def mStringToNumber (s : Str) (min max : Int) : Int :=
  let number := strtol s
  if number.rest = [] ∧ number.rest ≠ s then
    if number.erange = false ∧ min ≤ number.value ∧ number.value ≤ max then number.value else -1
  else -1

/-- Check if string is digit. -/
def mStrIsDigit (str : Str) : Bool := (cStr str).all isdigit

/-- The flags that `m_parse_service` returns, the service after it and the buffer after it. -/
structure Parsed where
  /-- The flags that say what the text has given. -/
  result : Nat
  /-- The service with the address and the port that were found. -/
  svc : Service
  /-- The buffer with the NUL bytes that the parser has written. -/
  buf : Str

/-- The last part of `m_parse_service`: the port, if there is one at `portp`. -/
def mParsePort (buf : Str) (portp : Option Nat) (svc : Service) : Act Parsed :=
  let result := serviceNone ||| serviceAddr
  match portp with
  | none => pure ⟨result, svc, buf⟩
  | some i => do
    let text := cStr (buf.drop (i + 1))
    let result := result ||| servicePort
    let portn := mStringToNumber text 0 65535
    if portn ≠ -1 then
      pure ⟨result, { svc with port := htons (BitVec.ofInt 16 portn) }, buf⟩
    else
      let portn ← mServiceToPort text svc.protocol
      if portn ≠ -1 then
        pure ⟨result, { svc with port := htons (BitVec.ofInt 16 portn) }, buf⟩
      else
        pure ⟨serviceNone, svc, buf⟩

/-- The middle part of `m_parse_service`: the address at the offset `start`. If it is no IPv6 address,
    the last colon ends it, whatever `portp` was. -/
def mParseAddr (libc : Libc) (buf : Str) (start : Nat) (portp : Option Nat) (svc : Service) :
    Act Parsed :=
  match libc.inetPton6 (cStr (buf.drop start)) with
  | some inaddr6 =>
    mParsePort buf portp { svc with addr := inaddr6, af := afInet6, netmask := 128 }
  | none => do
    let portp := (strrchr (buf.drop start) 58).map (· + start)
    let buf := match portp with
      | some i => buf.set i 0
      | none => buf
    let name := cStr (buf.drop start)
    match libc.inetAton name with
    | some inaddr =>
      mParsePort buf portp { svc with addr := { svc.addr with w0 := inaddr }, af := afInet }
    | none =>
      match ← hostToAddr name with
      | some inaddr =>
        mParsePort buf portp { svc with addr := { svc.addr with w0 := inaddr }, af := afInet }
      | none => pure ⟨serviceNone, svc, buf⟩

/-- Get IP address and port from argument. -/
def mParseService (libc : Libc) (buf : Str) (svc : Service) : Act Parsed :=
  if mStrIsDigit buf then pure ⟨serviceNone, svc, buf⟩
  else if buf.headD 0 = 91 then
    match strchr (buf.drop 1) 93 with
    | none => pure ⟨serviceNone, svc, buf⟩
    | some i =>
      -- `*portp = '\0'` cuts the address off before the test for the colon
      let buf := buf.set (i + 1) 0
      if buf.getD (i + 2) 0 = 58 then mParseAddr libc (buf.set (i + 2) 0) 1 (some (i + 2)) svc
      else pure ⟨serviceNone, svc, buf⟩
  else mParseAddr libc buf 0 none svc

/-- The result of `set_weight` and the contents of its argument `server` after it. -/
structure SetWeightResult where
  /-- The command was carried out. -/
  success : Bool
  /-- What is left of the text of the server. -/
  server : Str

/-- Sets weight for an IPVS service. `vip` is parsed in a copy, `server` in place. -/
def setWeight (libc : Libc) (vip server : Str) (weight : Int) : Act SetWeightResult := do
  let dest := { Dest.zero with weight := weight, connFlags := ipVsConnFDroute }
  let svc := { Service.zero with netmask := 0xffffffff, protocol := ipprotoTcp }
  let parsedVip ← mParseService libc vip svc
  let svc := parsedVip.svc
  if parsedVip.result &&& serviceAddr = 0 then
    Act.logError (lit "Illegal VIP address[:port] specified.")
    pure ⟨false, server⟩
  else
    -- the server is parsed into a copy of the service, whose address and port are its defaults
    let parsed ← mParseService libc server svc
    let dest := { dest with af := parsed.svc.af, addr := parsed.svc.addr, port := parsed.svc.port }
    let server := parsed.buf
    let dest := if parsed.result = 1 then { dest with port := svc.port } else dest
    if parsed.result &&& serviceAddr = 0 then
      Act.logError (lit "Illegal server address[:port] specified.")
      pure ⟨false, server⟩
    else if svc.fwmark = 0 ∧ svc.port = 0 ∧ svc.flags &&& ipVsSvcFPersistent = 0 then
      Act.logError (lit "Zero port specified for non-persistent service")
      pure ⟨false, server⟩
    else if svc.flags &&& ipVsSvcFOnepacket ≠ 0 ∧ svc.fwmark = 0 ∧ svc.protocol ≠ ipprotoUdp then
      Act.logError (lit "One-Packet Scheduling is only for UDP virtual services")
      pure ⟨false, server⟩
    else
      let svc := if svc.schedName = [] then { svc with schedName := lit "wlc" } else svc
      let result ← Act.updateDest svc dest
      pure ⟨decide (result = 0), server⟩

end Ipvshttpd
