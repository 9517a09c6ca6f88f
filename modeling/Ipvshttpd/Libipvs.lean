import Ipvshttpd.CLib.CString

/-!
# libipvs and the IPVS table of the kernel

The records of `ip_vs.h` that `set_weight` fills in, the part of `libipvs.c` that carries them to the
kernel, and the table of virtual services and destinations that the kernel keeps.

libipvs talks to the kernel over netlink, if it is built with `LIBIPVS_USE_NL` and the kernel answers
there, and with `setsockopt` otherwise.
-/

namespace Ipvshttpd

open CLib

/-- `AF_INET` -/
def afInet : BitVec 16 := 2

/-- `AF_INET6` -/
def afInet6 : BitVec 16 := 10

/-- `IPPROTO_TCP` -/
def ipprotoTcp : BitVec 16 := 6

/-- `IPPROTO_UDP` -/
def ipprotoUdp : BitVec 16 := 17

/-- `IPPROTO_SCTP` -/
def ipprotoSctp : BitVec 16 := 132

/-- `IP_VS_CONN_F_FWD_MASK` -/
def ipVsConnFFwdMask : BitVec 32 := 0x0007

/-- `IP_VS_CONN_F_DROUTE` -/
def ipVsConnFDroute : BitVec 32 := 0x0003

/-- `IP_VS_SVC_F_PERSISTENT` -/
def ipVsSvcFPersistent : BitVec 32 := 0x0001

/-- `IP_VS_SVC_F_ONEPACKET` -/
def ipVsSvcFOnepacket : BitVec 32 := 0x0004

/-- `union nf_inet_addr`: four words in network order, the first of which is also the IPv4 address. -/
structure NfInetAddr where
  /-- The first word, the IPv4 address. -/
  w0 : BitVec 32
  /-- The second word. -/
  w1 : BitVec 32
  /-- The third word. -/
  w2 : BitVec 32
  /-- The fourth word. -/
  w3 : BitVec 32
  deriving DecidableEq

/-- The address after `memset`. -/
def NfInetAddr.zero : NfInetAddr := ⟨0, 0, 0, 0⟩

/-- `ipvs_service_t`; ports are in network order. -/
structure Service where
  /-- The IP protocol. -/
  protocol : BitVec 16
  /-- The port, 0 for any. -/
  port : BitVec 16
  /-- The firewall mark, 0 for none. -/
  fwmark : BitVec 32
  /-- The scheduler. -/
  schedName : Str
  /-- The flags of the service. -/
  flags : BitVec 32
  /-- The netmask for persistent clients. -/
  netmask : BitVec 32
  /-- The family of the address. -/
  af : BitVec 16
  /-- The virtual address. -/
  addr : NfInetAddr
  /-- The persistence engine. -/
  peName : Str
  deriving DecidableEq

/-- A service after `memset(&svc, 0, sizeof(svc))`. -/
def Service.zero : Service := ⟨0, 0, 0, [], 0, 0, 0, .zero, []⟩

/-- `ipvs_dest_t` -/
structure Dest where
  /-- The port of the server. -/
  port : BitVec 16
  /-- The flags, with the forwarding method. -/
  connFlags : BitVec 32
  /-- The weight. -/
  weight : Int
  /-- The upper threshold of connections. -/
  uThreshold : BitVec 32
  /-- The lower threshold of connections. -/
  lThreshold : BitVec 32
  /-- The family of the address. -/
  af : BitVec 16
  /-- The address of the server. -/
  addr : NfInetAddr
  deriving DecidableEq

/-- A destination after `memset`. -/
def Dest.zero : Dest := ⟨0, 0, 0, 0, 0, 0, .zero⟩

/-! ## The table -/

/-- The significant bytes of an address. -/
inductive Addr where
  /-- An IPv4 address. -/
  | v4 (ip : BitVec 32)
  /-- An IPv6 address. -/
  | v6 (in6 : NfInetAddr)
  deriving DecidableEq

/-- The address that a family and a union denote. -/
def sigAddr (af : BitVec 16) (addr : NfInetAddr) : Addr :=
  if af = afInet6 then .v6 addr else .v4 addr.w0

/-- What identifies a virtual service. -/
inductive ServiceKey where
  /-- All packets with a mark. -/
  | fwmark (af : BitVec 16) (mark : BitVec 32)
  /-- A protocol, an address and a port. -/
  | address (protocol : BitVec 16) (addr : Addr) (port : BitVec 16)
  deriving DecidableEq

/-- What identifies a destination of a service. -/
structure DestKey where
  /-- The address of the server. -/
  addr : Addr
  /-- The port of the server. -/
  port : BitVec 16
  deriving DecidableEq

/-- What the kernel keeps for a destination. -/
structure Record where
  /-- How packets are forwarded. -/
  fwdMethod : BitVec 32
  /-- The weight. -/
  weight : Int
  /-- The upper threshold of connections. -/
  uThreshold : BitVec 32
  /-- The lower threshold of connections. -/
  lThreshold : BitVec 32
  deriving DecidableEq

/-- The services, each with its destinations. -/
abbrev Table := ServiceKey → Option (DestKey → Option Record)

namespace Table

/-- The record of a destination of a service. -/
def lookup (t : Table) (sk : ServiceKey) (dk : DestKey) : Option Record := (t sk).bind (· dk)

/-- Replaces the record of a destination, if there is one. -/
def set (t : Table) (sk : ServiceKey) (dk : DestKey) (rec : Record) : Table := fun sk' =>
  if sk' = sk then
    (t sk').map fun dests dk' => if dk' = dk then (dests dk').map fun _ => rec else dests dk'
  else t sk'

end Table

/-! ## The way to the kernel -/

/-- A command to edit a destination, as the kernel receives it. -/
structure SetDest where
  /-- The service. -/
  service : ServiceKey
  /-- The destination to edit. -/
  dest : DestKey
  /-- What the destination becomes. -/
  record : Record
  deriving DecidableEq

/-- The attributes that tell the kernel which service is meant. -/
def ipvsNlFillServiceAttr (svc : Service) : ServiceKey :=
  if svc.fwmark ≠ 0 then .fwmark svc.af svc.fwmark
  else .address svc.protocol (sigAddr svc.af svc.addr) svc.port

/-- The attributes of a destination. The weight travels as an unsigned 32-bit number, of which the
    kernel makes an `int` again. -/
def ipvsNlFillDestAttr (dst : Dest) : DestKey × Record :=
  (⟨sigAddr dst.af dst.addr, dst.port⟩,
    ⟨dst.connFlags &&& ipVsConnFFwdMask, (BitVec.ofInt 32 dst.weight).toInt, dst.uThreshold,
      dst.lThreshold⟩)

/-- `CHECK_IPV4`: the family is unset or IPv4. -/
def checkIpv4 (af : BitVec 16) : Bool := af = 0 || af = afInet

/-- The command that `ipvs_update_dest` sends to the kernel. Without netlink only IPv4 addresses and
    no persistence engines can be expressed, and the forwarding method is the low bits of the
    connection flags. -/
def ipvsUpdateDest (useNl : Bool) (svc : Service) (dest : Dest) : Option SetDest :=
  if useNl then
    some ⟨ipvsNlFillServiceAttr svc, (ipvsNlFillDestAttr dest).1, (ipvsNlFillDestAttr dest).2⟩
  else if checkIpv4 svc.af ∧ svc.peName = [] ∧ checkIpv4 dest.af then
    some ⟨if svc.fwmark ≠ 0 then .fwmark afInet svc.fwmark
        else .address svc.protocol (.v4 svc.addr.w0) svc.port,
      ⟨.v4 dest.addr.w0, dest.port⟩,
      ⟨dest.connFlags &&& ipVsConnFFwdMask, dest.weight, dest.uThreshold, dest.lThreshold⟩⟩
  else none

/-- The table after a command that the kernel has carried out. -/
def SetDest.apply (cmd : SetDest) (t : Table) : Table := t.set cmd.service cmd.dest cmd.record

/-- The kernel can carry out a command if the destination exists. -/
def SetDest.Applicable (cmd : SetDest) (t : Table) : Prop :=
  (t.lookup cmd.service cmd.dest).isSome

instance (cmd : SetDest) (t : Table) : Decidable (cmd.Applicable t) :=
  inferInstanceAs (Decidable ((t.lookup cmd.service cmd.dest).isSome = true))

/-- `ipvs_update_dest` on a table: it returns 0 and replaces the record of an existing destination,
    or it returns -1 and changes nothing. -/
def kernelUpdateDest (useNl : Bool) (t : Table) (svc : Service) (dest : Dest) : Int × Table :=
  match ipvsUpdateDest useNl svc dest with
  | none => (-1, t)
  | some cmd => if cmd.Applicable t then (0, cmd.apply t) else (-1, t)

end Ipvshttpd
