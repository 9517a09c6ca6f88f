import Ipvshttpd.LibipvsTables

/-!
# What the kernel says about its tables

The messages with which the kernel answers a request for its tables, as far as libipvs reads them,
and the attributes that make libipvs read past the end of a payload.
-/

namespace Ipvshttpd.Libipvs

open CLib Netlink

/-! ## Messages of the kernel -/

/-- The counters as attributes, those that do not count bytes with `n` bytes each. -/
def counterAttrs (n : Nat) (s : Stats64) : List Attr :=
  [⟨ipvsStatsAttrConns, leBytes n s.conns.toNat⟩, ⟨ipvsStatsAttrInpkts, leBytes n s.inpkts.toNat⟩,
    ⟨ipvsStatsAttrOutpkts, leBytes n s.outpkts.toNat⟩, .ofU64 ipvsStatsAttrInbytes s.inbytes,
    .ofU64 ipvsStatsAttrOutbytes s.outbytes, ⟨ipvsStatsAttrCps, leBytes n s.cps.toNat⟩,
    ⟨ipvsStatsAttrInpps, leBytes n s.inpps.toNat⟩, ⟨ipvsStatsAttrOutpps, leBytes n s.outpps.toNat⟩,
    ⟨ipvsStatsAttrInbps, leBytes n s.inbps.toNat⟩, ⟨ipvsStatsAttrOutbps, leBytes n s.outbps.toNat⟩]

/-- The counters, those that do not count bytes reduced to 32 bits. -/
def Stats64.low (s : Stats64) : Stats64 :=
  ⟨(s.conns.setWidth 32).setWidth 64, (s.inpkts.setWidth 32).setWidth 64,
    (s.outpkts.setWidth 32).setWidth 64, s.inbytes, s.outbytes, (s.cps.setWidth 32).setWidth 64,
    (s.inpps.setWidth 32).setWidth 64, (s.outpps.setWidth 32).setWidth 64,
    (s.inbps.setWidth 32).setWidth 64, (s.outbps.setWidth 32).setWidth 64⟩

/-- A service with its counters, in 32 bits and in 64 bits. -/
def serviceInfo (nl : Libnl) (svc : ServiceUser) (s : Stats64) : List Attr :=
  serviceAttrs svc ++ [⟨ipvsSvcAttrStats, nl.stream (counterAttrs 4 s)⟩,
    ⟨ipvsSvcAttrStats64, nl.stream (counterAttrs 8 s)⟩]

/-- The message about a service. -/
def serviceMessage (nl : Libnl) (svc : ServiceUser) (s : Stats64) : Bytes :=
  nl.stream [⟨ipvsCmdAttrService, nl.stream (serviceInfo nl svc s)⟩]

/-- What a service looks like in a table. A service with a mark has neither protocol, address nor
    port there. -/
def ServiceUser.entry (svc : ServiceUser) (s : Stats64) : ServiceEntry :=
  { ServiceEntry.zero with
    af := svc.af
    fwmark := svc.fwmark
    protocol := if svc.fwmark ≠ 0 then 0 else svc.protocol
    addr := if svc.fwmark ≠ 0 then .zero else svc.addr
    port := if svc.fwmark ≠ 0 then 0 else svc.port
    schedName := svc.schedName
    peName := svc.peName
    netmask := svc.netmask
    timeout := svc.timeout
    flags := svc.flags
    stats64 := s }

/-- The numbers of connections of a destination. -/
structure Connections where
  /-- Those that are active. -/
  active : BitVec 32
  /-- Those that are inactive. -/
  inactive : BitVec 32
  /-- Those that persist. -/
  persistent : BitVec 32

/-- A destination with its connections and its counters. -/
def destInfo (nl : Libnl) (dest : Dest) (conns : Connections) (s : Stats64) : List Attr :=
  destAttrs dest ++
    [.ofU32 ipvsDestAttrActiveConns conns.active, .ofU32 ipvsDestAttrInactConns conns.inactive,
      .ofU32 ipvsDestAttrPersistConns conns.persistent,
      ⟨ipvsDestAttrStats, nl.stream (counterAttrs 4 s)⟩,
      ⟨ipvsDestAttrStats64, nl.stream (counterAttrs 8 s)⟩]

/-- The message about a destination. -/
def destMessage (nl : Libnl) (dest : Dest) (conns : Connections) (s : Stats64) : Bytes :=
  nl.stream [⟨ipvsCmdAttrDest, nl.stream (destInfo nl dest conns s)⟩]

/-- What a destination looks like in a table. -/
def destEntryOf (dest : Dest) (conns : Connections) (s : Stats64) : DestEntry :=
  ⟨dest.port, dest.connFlags &&& ipVsConnFFwdMask, BitVec.ofInt 32 dest.weight, dest.uThreshold,
    dest.lThreshold, conns.active, conns.inactive, conns.persistent, dest.af, dest.addr, s⟩

/-- The message about the timeouts. -/
def timeoutMessage (nl : Libnl) (timeouts : Timeouts) : Bytes := nl.stream (timeoutAttrs timeouts)

/-- The message about a daemon. -/
def daemonMessage (nl : Libnl) (dm : DaemonArg) : Bytes :=
  nl.stream [⟨ipvsCmdAttrDaemon, nl.stream (daemonAttrs dm.toDaemonUser)⟩]

/-- A daemon as it comes back: its numbers are reduced to the sizes of their attributes, and a group
    that is neither IPv4 nor IPv6 is lost. -/
def DaemonArg.back (dm : DaemonArg) : DaemonUser where
  state := dm.state
  mcastIfn := dm.mcastIfn
  syncid := dm.syncid
  syncMaxlen := (dm.syncMaxlen.setWidth 16).setWidth 32
  mcastPort := dm.mcastPort
  mcastTtl := (dm.mcastTtl.setWidth 8).setWidth 16
  mcastAf := if dm.mcastAf = afInet6 ∨ dm.mcastAf = afInet then dm.mcastAf else 0
  mcastGroup :=
    if dm.mcastAf = afInet6 then dm.mcastGroup
    else if dm.mcastAf = afInet then { NfInetAddr.zero with w0 := dm.mcastGroup.w0 }
    else .zero

/-! ## Payloads that are too short -/

/-- The attribute is there, and shorter than `n` bytes. -/
def ShorterThan (n : Nat) (a : Option Bytes) : Prop := ∃ payload ∈ a, payload.length < n

/-- The attribute is there, and neither has a NUL nor fills the array for a name. -/
def Unterminated (a : Option Bytes) : Prop :=
  ∃ payload ∈ a, 0 ∉ payload ∧ payload.length < nameMaxlen

/-- The attributes of a service make libipvs read past a payload: it copies sixteen bytes of an address,
    and a name as far as it goes. -/
def ServiceOverread (attrs : Attrs) : Prop :=
  HasServiceAttrs attrs ∧
    ((attrs ipvsSvcAttrFwmark = none ∧ ShorterThan 16 (attrs ipvsSvcAttrAddr)) ∨
      Unterminated (attrs ipvsSvcAttrPeName))

/-- The attributes of a destination make libipvs read past a payload. -/
def DestOverread (attrs : Attrs) : Prop :=
  HasDestAttrs attrs ∧ ShorterThan 16 (attrs ipvsDestAttrAddr)

/-- The attributes of a daemon make libipvs read past a payload. -/
def DaemonOverread (attrs : Attrs) : Prop :=
  HasDaemonAttrs attrs ∧ attrs ipvsDaemonAttrMcastGroup = none ∧
    ShorterThan 16 (attrs ipvsDaemonAttrMcastGroup6)

/-- The attributes nested in the attribute `type` of a message. -/
def entryAttrs (nl : Libnl) (type maxtype : Nat) (policy : Nat → NlaPolicy) (msg : Bytes) :
    Option Attrs := do
  let attrs ← nl.nlaParse ipvsCmdAttrMax ipvsCmdPolicy msg
  nl.nlaParse maxtype policy (← attrs type)

/-- The message makes one of the callbacks read what is not there. -/
def FaultyMessage (nl : Libnl) (msg : Bytes) : ReadFault → Prop
  | .readPastPayload =>
    (∃ attrs ∈ entryAttrs nl ipvsCmdAttrService ipvsSvcAttrMax ipvsServicePolicy msg,
      ServiceOverread attrs) ∨
    (∃ attrs ∈ entryAttrs nl ipvsCmdAttrDest ipvsDestAttrMax ipvsDestPolicy msg,
      DestOverread attrs) ∨
    (∃ attrs ∈ entryAttrs nl ipvsCmdAttrDaemon ipvsDaemonAttrMax ipvsDaemonPolicy msg,
      DaemonOverread attrs)
  | .missingAttribute =>
    ∃ attrs ∈ nl.nlaParse ipvsCmdAttrMax ipvsCmdPolicy msg, attrs ipvsCmdAttrDaemon = none

/-- A NULL pointer is followed only after a reallocation has failed, what is not there is only read
    if a message of the kernel makes it so, and a block is overrun only if the kernel has answered
    with more entries than there was room for, or `overrun` holds. -/
def tableFault (nl : Libnl) (overrun : Prop) (q : NlHeap) : Fault → Prop
  | .nullPointer => q.orphans ≠ []
  | .writePastBlock => overrun ∨ q.overfull = true
  | .read fault => ∃ msg ∈ q.received, FaultyMessage nl msg fault

end Ipvshttpd.Libipvs
