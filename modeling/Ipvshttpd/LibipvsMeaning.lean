import Ipvshttpd.LibipvsCommands

/-!
# What the commands of libipvs mean

The commands of libipvs as requests to the kernel: which service, which destination and which
settings they name. `Sent.meaning` reads a request off what has been sent, whether it is a netlink
message or the argument of a `setsockopt`; `Command.meaning` says what the caller has asked for.
-/

namespace Ipvshttpd.Libipvs

open CLib Netlink Resumption

/-- The options of a service. -/
structure Settings where
  /-- The scheduler. -/
  schedName : Str
  /-- The persistence engine. -/
  peName : Str
  /-- The flags. -/
  flags : BitVec 32
  /-- How long clients persist. -/
  timeout : BitVec 32
  /-- The netmask for persistent clients. -/
  netmask : BitVec 32
  deriving DecidableEq

/-- A synchronization daemon. What is not given is 0 or `none`. -/
structure DaemonSpec where
  /-- Master or backup. -/
  state : BitVec 32
  /-- The interface for multicast. -/
  mcastIfn : Str
  /-- The id of the synchronization. -/
  syncid : BitVec 32
  /-- The greatest length of a message. -/
  syncMaxlen : BitVec 16
  /-- The port for multicast. -/
  mcastPort : BitVec 16
  /-- The time to live of a message. -/
  mcastTtl : BitVec 8
  /-- The group for multicast. -/
  group : Option Addr
  deriving DecidableEq

/-- What a request asks the kernel to do. -/
inductive Request where
  /-- All services go. -/
  | flush
  /-- A service comes. -/
  | newService (key : ServiceKey) (settings : Settings)
  /-- The options of a service change. -/
  | setService (key : ServiceKey) (settings : Settings)
  /-- A service goes. -/
  | delService (key : ServiceKey)
  /-- The counters of a service, or all counters, become zero. -/
  | zero (key : Option ServiceKey)
  /-- A destination comes. -/
  | newDest (dest : SetDest)
  /-- A destination changes. -/
  | setDest (dest : SetDest)
  /-- A destination goes. -/
  | delDest (service : ServiceKey) (dest : DestKey)
  /-- The timeouts change. -/
  | setTimeout (timeouts : Timeouts)
  /-- A daemon starts. -/
  | newDaemon (dm : DaemonSpec)
  /-- A daemon stops. -/
  | delDaemon (state : BitVec 32)

/-! ## Reading a request -/

/-- A number of 8 bits, if the attribute is there. -/
def readU8 (a : Option Bytes) : Option (BitVec 8) :=
  a.map fun p => BitVec.ofNat 8 (ofLeBytes (p.take 1))

/-- A number of 16 bits, if the attribute is there. -/
def readU16 (a : Option Bytes) : Option (BitVec 16) :=
  a.map fun p => BitVec.ofNat 16 (ofLeBytes (p.take 2))

/-- A number of 32 bits, if the attribute is there. -/
def readU32 (a : Option Bytes) : Option (BitVec 32) :=
  a.map fun p => BitVec.ofNat 32 (ofLeBytes (p.take 4))

/-- The word `i` of a payload. -/
def wordAt (p : Bytes) (i : Nat) : BitVec 32 := BitVec.ofNat 32 (ofLeBytes ((p.drop (4 * i)).take 4))

/-- An address, if the attribute is there. -/
def readAddr (a : Option Bytes) : Option NfInetAddr :=
  a.map fun p => ⟨wordAt p 0, wordAt p 1, wordAt p 2, wordAt p 3⟩

/-- The service that the attributes name. -/
def readServiceKey (attrs : Attrs) : Option ServiceKey := do
  let af ← readU16 (attrs ipvsSvcAttrAf)
  match readU32 (attrs ipvsSvcAttrFwmark) with
  | some mark => some (.fwmark af mark)
  | none => do
    let protocol ← readU16 (attrs ipvsSvcAttrProtocol)
    let addr ← readAddr (attrs ipvsSvcAttrAddr)
    let port ← readU16 (attrs ipvsSvcAttrPort)
    some (.address protocol (sigAddr af addr) port)

/-- The options of a service that the attributes give. -/
def readSettings (attrs : Attrs) : Option Settings := do
  let schedName ← attrs ipvsSvcAttrSchedName
  let flags ← attrs ipvsSvcAttrFlags
  let timeout ← readU32 (attrs ipvsSvcAttrTimeout)
  let netmask ← readU32 (attrs ipvsSvcAttrNetmask)
  some ⟨cStr schedName, cStr ((attrs ipvsSvcAttrPeName).getD []), wordAt flags 0 &&& wordAt flags 1,
    timeout, netmask⟩

/-- The destination that the attributes name. -/
def readDestKey (attrs : Attrs) : Option DestKey := do
  let af ← readU16 (attrs ipvsDestAttrAddrFamily)
  let addr ← readAddr (attrs ipvsDestAttrAddr)
  let port ← readU16 (attrs ipvsDestAttrPort)
  some ⟨sigAddr af addr, port⟩

/-- What the attributes make of a destination. -/
def readRecord (attrs : Attrs) : Option Record := do
  let fwdMethod ← readU32 (attrs ipvsDestAttrFwdMethod)
  let weight ← readU32 (attrs ipvsDestAttrWeight)
  let uThreshold ← readU32 (attrs ipvsDestAttrUThresh)
  let lThreshold ← readU32 (attrs ipvsDestAttrLThresh)
  some ⟨fwdMethod, weight.toInt, uThreshold, lThreshold⟩

/-- The group of a daemon: an IPv4 address, or else an IPv6 address. -/
def readGroup (attrs : Attrs) : Option Addr :=
  ((readU32 (attrs ipvsDaemonAttrMcastGroup)).map .v4).or
    ((readAddr (attrs ipvsDaemonAttrMcastGroup6)).map .v6)

/-- The daemon that the attributes describe. -/
def readDaemon (attrs : Attrs) : Option DaemonSpec := do
  let state ← readU32 (attrs ipvsDaemonAttrState)
  let mcastIfn ← attrs ipvsDaemonAttrMcastIfn
  let syncid ← readU32 (attrs ipvsDaemonAttrSyncId)
  some ⟨state, cStr mcastIfn, syncid, (readU16 (attrs ipvsDaemonAttrSyncMaxlen)).getD 0,
    (readU16 (attrs ipvsDaemonAttrMcastPort)).getD 0, (readU8 (attrs ipvsDaemonAttrMcastTtl)).getD 0,
    readGroup attrs⟩

/-- The attributes nested in an attribute. -/
def nested (nl : Libnl) (maxtype : Nat) (policy : Nat → NlaPolicy) (a : Option Bytes) :
    Option Attrs :=
  a.bind (nl.nlaParse maxtype policy)

/-- The service, the destination and its record in a message. -/
def readSetDest (nl : Libnl) (attrs : Attrs) : Option SetDest := do
  let svc ← nested nl ipvsSvcAttrMax ipvsServicePolicy (attrs ipvsCmdAttrService)
  let dest ← nested nl ipvsDestAttrMax ipvsDestPolicy (attrs ipvsCmdAttrDest)
  some ⟨← readServiceKey svc, ← readDestKey dest, ← readRecord dest⟩

/-- The request that the attributes of a netlink message make with a command. -/
def readRequest (nl : Libnl) (cmd : Nat) (attrs : Attrs) : Option Request :=
  let svc := nested nl ipvsSvcAttrMax ipvsServicePolicy (attrs ipvsCmdAttrService)
  let dm := nested nl ipvsDaemonAttrMax ipvsDaemonPolicy (attrs ipvsCmdAttrDaemon)
  if cmd = ipvsCmdFlush then some .flush
  else if cmd = ipvsCmdNewService then do
    some (.newService (← readServiceKey (← svc)) (← readSettings (← svc)))
  else if cmd = ipvsCmdSetService then do
    some (.setService (← readServiceKey (← svc)) (← readSettings (← svc)))
  else if cmd = ipvsCmdDelService then do some (.delService (← readServiceKey (← svc)))
  else if cmd = ipvsCmdZero then
    if (attrs ipvsCmdAttrService).isSome then do some (.zero (some (← readServiceKey (← svc))))
    else some (.zero none)
  else if cmd = ipvsCmdNewDest then (readSetDest nl attrs).map .newDest
  else if cmd = ipvsCmdSetDest then (readSetDest nl attrs).map .setDest
  else if cmd = ipvsCmdDelDest then
    (readSetDest nl attrs).map fun dest => .delDest dest.service dest.dest
  else if cmd = ipvsCmdSetTimeout then do
    some (.setTimeout ⟨← readU32 (attrs ipvsCmdAttrTimeoutTcp),
      ← readU32 (attrs ipvsCmdAttrTimeoutTcpFin), ← readU32 (attrs ipvsCmdAttrTimeoutUdp)⟩)
  else if cmd = ipvsCmdNewDaemon then do some (.newDaemon (← readDaemon (← dm)))
  else if cmd = ipvsCmdDelDaemon then do
    some (.delDaemon (← readU32 ((← dm) ipvsDaemonAttrState)))
  else none

/-- The service that the argument of a `setsockopt` names. -/
def ServiceKern.key (svc : ServiceKern) : ServiceKey :=
  if svc.fwmark ≠ 0 then .fwmark afInet svc.fwmark
  else .address svc.protocol (.v4 svc.addr) svc.port

/-- The options in the argument; there is no place for a persistence engine. -/
def ServiceKern.settings (svc : ServiceKern) : Settings :=
  ⟨svc.schedName, [], svc.flags, svc.timeout, svc.netmask⟩

/-- The service, the destination and its record in the argument of a `setsockopt`. -/
def setDestKern (svc : ServiceKern) (dest : DestKern) : SetDest :=
  ⟨svc.key, ⟨.v4 dest.addr, dest.port⟩,
    ⟨dest.connFlags &&& ipVsConnFFwdMask, dest.weight, dest.uThreshold, dest.lThreshold⟩⟩

/-- The request that a `setsockopt` makes. A service without mark, address and port is none. -/
def SetOpt.request : SetOpt → Option Request
  | .flush => some .flush
  | .add svc => some (.newService svc.key svc.settings)
  | .edit svc => some (.setService svc.key svc.settings)
  | .del svc => some (.delService svc.key)
  | .zero svc =>
    some (.zero (if svc.fwmark = 0 ∧ svc.addr = 0 ∧ svc.port = 0 then none else some svc.key))
  | .addDest svc dest => some (.newDest (setDestKern svc dest))
  | .editDest svc dest => some (.setDest (setDestKern svc dest))
  | .delDest svc dest => some (.delDest svc.key (setDestKern svc dest).dest)
  | .timeout timeouts => some (.setTimeout timeouts)
  | .startDaemon dm => some (.newDaemon ⟨dm.state, dm.mcastIfn, dm.syncid, 0, 0, 0, none⟩)
  | .stopDaemon dm => some (.delDaemon dm.state)

/-- The request that has been sent, as the attributes of the message tell it. -/
def Sent.request (nl : Libnl) : Sent → Option Request
  | .netlink m =>
    (nl.nlaParse ipvsCmdAttrMax ipvsCmdPolicy (nl.stream m.attrs)).bind (readRequest nl m.cmd)
  | .sockopt opt => opt.request

/-- The requests that have been sent. What only asks for tables is none. -/
def NlHeap.requests (nl : Libnl) (q : NlHeap) : List Request := q.sent.filterMap (Sent.request nl)

/-- The requests that the kernel has answered, and whether it has confirmed them. -/
def NlHeap.handled (nl : Libnl) (q : NlHeap) : List (Request × Bool) :=
  q.answered.filterMap fun a => (a.1.request nl).map (·, a.2)

/-- The requests that the kernel has confirmed. -/
def NlHeap.carriedOut (nl : Libnl) (q : NlHeap) : List Request :=
  (q.handled nl).filterMap fun h => if h.2 then some h.1 else none

/-- The requests that have been sent, and those that the kernel has confirmed. -/
def NlHeap.told (nl : Libnl) (q : NlHeap) : List Request × List Request :=
  (q.requests nl, q.carriedOut nl)

/-! ## The commands -/

/-- The commands that change the tables of the kernel. -/
inductive Command where
  /-- `ipvs_flush` -/
  | flush
  /-- `ipvs_add_service` -/
  | addService (svc : ServiceUser)
  /-- `ipvs_update_service` -/
  | updateService (svc : ServiceUser)
  /-- `ipvs_del_service` -/
  | delService (svc : ServiceUser)
  /-- `ipvs_zero_service` -/
  | zeroService (svc : ServiceUser)
  /-- `ipvs_add_dest` -/
  | addDest (svc : ServiceUser) (dest : Dest)
  /-- `ipvs_update_dest` -/
  | updateDest (svc : ServiceUser) (dest : Dest)
  /-- `ipvs_del_dest` -/
  | delDest (svc : ServiceUser) (dest : Dest)
  /-- `ipvs_set_timeout` -/
  | setTimeout (timeouts : Timeouts)
  /-- `ipvs_start_daemon` -/
  | startDaemon (dm : DaemonArg)
  /-- `ipvs_stop_daemon` -/
  | stopDaemon (dm : DaemonArg)

namespace Command

/-- The function of libipvs that carries a command out. -/
def prog : Command → Lib Int
  | flush => ipvsFlush
  | addService svc => ipvsAddService svc
  | updateService svc => ipvsUpdateService svc
  | delService svc => ipvsDelService svc
  | zeroService svc => ipvsZeroService svc
  | addDest svc dest => ipvsAddDest svc dest
  | updateDest svc dest => Libipvs.ipvsUpdateDest svc dest
  | delDest svc dest => ipvsDelDest svc dest
  | setTimeout timeouts => ipvsSetTimeout timeouts
  | startDaemon dm => ipvsStartDaemon dm.toDaemonUser
  | stopDaemon dm => ipvsStopDaemon dm.toDaemonUser

/-- The service that is meant, over netlink or by `setsockopt`, which knows IPv4 only. -/
def serviceKey (useNl : Bool) (svc : ServiceUser) : ServiceKey :=
  Ipvshttpd.ipvsNlFillServiceAttr
    (if useNl then svc.toService else { svc.toService with af := afInet })

/-- The options that are meant. -/
def settings (svc : ServiceUser) : Settings :=
  ⟨svc.schedName, svc.peName, svc.flags, svc.timeout, svc.netmask⟩

/-- The daemon that is meant. `setsockopt` has no place for anything but the first three members. -/
def daemonSpec (useNl : Bool) (dm : DaemonArg) : DaemonSpec :=
  if useNl then
    ⟨dm.state, dm.mcastIfn, dm.syncid, dm.syncMaxlen.setWidth 16, dm.mcastPort,
      dm.mcastTtl.setWidth 8,
      if dm.mcastAf = afInet6 then some (.v6 dm.mcastGroup)
      else if dm.mcastAf = afInet then some (.v4 dm.mcastGroup.w0)
      else none⟩
  else ⟨dm.state, dm.mcastIfn, dm.syncid, 0, 0, 0, none⟩

/-- What the caller asks for; `none` if `setsockopt` cannot express it. -/
def meaning (useNl : Bool) : Command → Option Request
  | flush => some .flush
  | addService svc =>
    if useNl ∨ checkCompatSvc svc then some (.newService (serviceKey useNl svc) (settings svc))
    else none
  | updateService svc =>
    if useNl ∨ checkCompatSvc svc then some (.setService (serviceKey useNl svc) (settings svc))
    else none
  | delService svc =>
    if useNl ∨ checkCompatSvc svc then some (.delService (serviceKey useNl svc)) else none
  | zeroService svc =>
    if useNl then
      some (.zero (if svc.IsGiven then some (serviceKey useNl svc) else none))
    else if checkCompatSvc svc then
      some (.zero (if svc.fwmark = 0 ∧ svc.addr.w0 = 0 ∧ svc.port = 0 then none
        else some (serviceKey useNl svc)))
    else none
  | addDest svc dest => (Ipvshttpd.ipvsUpdateDest useNl svc.toService dest).map .newDest
  | updateDest svc dest => (Ipvshttpd.ipvsUpdateDest useNl svc.toService dest).map .setDest
  | delDest svc dest =>
    (Ipvshttpd.ipvsUpdateDest useNl svc.toService dest).map fun d => .delDest d.service d.dest
  | setTimeout timeouts => some (.setTimeout timeouts)
  | startDaemon dm => some (.newDaemon (daemonSpec useNl dm))
  | stopDaemon dm => some (.delDaemon dm.state)

/-! ## What is sent -/

/-- The command number and the attributes of the netlink message. -/
def message (nl : Libnl) : Command → Nat × List Attr
  | flush => (ipvsCmdFlush, [])
  | addService svc => (ipvsCmdNewService, [service svc])
  | updateService svc => (ipvsCmdSetService, [service svc])
  | delService svc => (ipvsCmdDelService, [service svc])
  | zeroService svc => (ipvsCmdZero, if svc.IsGiven then [service svc] else [])
  | addDest svc dst => (ipvsCmdNewDest, [service svc, dest dst])
  | updateDest svc dst => (ipvsCmdSetDest, [service svc, dest dst])
  | delDest svc dst => (ipvsCmdDelDest, [service svc, dest dst])
  | setTimeout timeouts => (ipvsCmdSetTimeout, timeoutAttrs timeouts)
  | startDaemon dm => (ipvsCmdNewDaemon, [daemon (daemonAttrs dm.toDaemonUser)])
  | stopDaemon dm => (ipvsCmdDelDaemon, [daemon (daemonKeyAttrs dm.toDaemonUser)])
where
  service (svc : ServiceUser) : Attr := ⟨ipvsCmdAttrService, nl.stream (serviceAttrs svc)⟩
  dest (dst : Dest) : Attr := ⟨ipvsCmdAttrDest, nl.stream (destAttrs dst)⟩
  daemon (attrs : List Attr) : Attr := ⟨ipvsCmdAttrDaemon, nl.stream attrs⟩

/-- The argument of `setsockopt`, if the command can be expressed as one. -/
def sockopt : Command → Option SetOpt
  | flush => some .flush
  | addService svc => if checkCompatSvc svc then some (.add svc.kern) else none
  | updateService svc => if checkCompatSvc svc then some (.edit svc.kern) else none
  | delService svc => if checkCompatSvc svc then some (.del svc.kern) else none
  | zeroService svc => if checkCompatSvc svc then some (.zero svc.kern) else none
  | addDest svc dest =>
    if checkCompatBoth svc dest then some (.addDest svc.kern (destKern dest)) else none
  | updateDest svc dest =>
    if checkCompatBoth svc dest then some (.editDest svc.kern (destKern dest)) else none
  | delDest svc dest =>
    if checkCompatBoth svc dest then some (.delDest svc.kern (destKern dest)) else none
  | setTimeout timeouts => some (.timeout timeouts)
  | startDaemon dm => some (.startDaemon ⟨dm.state, cStr dm.mcastIfn, dm.syncid⟩)
  | stopDaemon dm => some (.stopDaemon ⟨dm.state, [], 0⟩)

/-- What a command sends, if nothing fails. -/
def sent (nl : Libnl) (v : Statics) (c : Command) : List Sent :=
  if v.tryNl then [.netlink ⟨v.family, 0, (c.message nl).1, (c.message nl).2, none⟩]
  else (c.sockopt.map Sent.sockopt).toList

end Command

end Ipvshttpd.Libipvs
