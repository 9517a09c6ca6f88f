import Ipvshttpd.NlCalls

/-!
# The commands of libipvs

`libipvs.c` built with `LIBIPVS_USE_NL`, but for the functions that fetch tables: how a message is
sent, how the transport is chosen, and the commands that change the tables of the kernel. A command
goes out as a netlink message if the family has answered the probe of `ipvs_init`, and by
`setsockopt` otherwise.
-/

namespace Ipvshttpd.Libipvs

open CLib Netlink Resumption Lib

/-- `EINVAL` -/
def einval : Int := 22

/-- `EAFNOSUPPORT` -/
def eafnosupport : Int := 97

/-! ## Messages -/

/-- A message with the header of a request to the family, without attributes. -/
def ipvsNlMessage (cmd flags : Nat) : Lib (Option Nat) := do
  match ← nlmsgAlloc with
  | none => pure none
  | some msg => do
    genlmsgPut msg (← get).family flags cmd
    pure (some msg)

/-- A callback gets a message and the object of its caller, and returns a code and that object. -/
abbrev Callback (σ : Type) := Bytes → σ → Lib (Int × σ)

/-- The callback of a request whose answer carries no data. -/
def ipvsNlNoopCb : Callback Unit := fun _ arg => pure (0, arg)

/-- The messages go to the callback one after the other, until it returns an error. -/
def recvmsgs {σ : Type} (func : Callback σ) : List Bytes → Int → σ → Lib (Int × σ)
  | [], code, arg => pure (code, arg)
  | m :: ms, code, arg => do
    let r ← func m arg
    if r.1 < 0 then pure r else recvmsgs func ms code r.2

/-- The end of `ipvs_nl_send_message` at the label `fail_genl`. -/
def failGenl {σ : Type} (sock : Nat) (msg : Option Nat) (err : Int) (arg : σ) : Lib (Int × σ) := do
  nlSocketFree sock
  nlmsgFree msg
  setErrno err
  pure (-1, arg)

/-- Sends a message over a socket of its own and hands the answers to `func`. Without a message,
only the family is resolved. -/
def ipvsNlSendMessage {σ : Type} (msg : Option Nat) (func : Callback σ) (arg : σ) :
    Lib (Int × σ) := do
  match ← nlSocketAlloc with
  | none => do
    nlmsgFree msg
    pure (-1, arg)
  | some sock => do
    let connected ← genlConnect sock
    if connected < 0 then failGenl sock msg einval arg
    else do
      let family ← genlCtrlResolve sock
      modify fun v => { v with family := family }
      if family < 0 then failGenl sock msg einval arg
      else
        match msg with
        -- To test connections and set the family
        | none => do
          nlSocketFree sock
          pure (0, arg)
        | some m => do
          let modified ← nlSocketModifyCb sock
          if modified ≠ 0 then failGenl sock msg einval arg
          else do
            let sent ← nlSendAutoComplete sock m
            if sent < 0 then failGenl sock msg einval arg
            else do
              let received ← nlRecvmsgsDefault sock
              let r ← recvmsgs func received.1 received.2 arg
              if 0 < -r.1 then failGenl sock msg (-r.1) r.2
              else do
                nlmsgFree msg
                nlSocketFree sock
                pure (0, r.2)

/-- A request over netlink. `fill` puts the attributes into the message; if it fails, the message is
    released. -/
def nlRequest {σ : Type} (cmd flags : Nat) (fill : Nat → Lib Int) (func : Callback σ) (arg : σ) :
    Lib (Int × σ) := do
  match ← ipvsNlMessage cmd flags with
  | none => pure (-1, arg)
  | some msg => do
    let filled ← fill msg
    if filled ≠ 0 then do
      nlmsgFree (some msg)
      pure (-1, arg)
    else ipvsNlSendMessage (some msg) func arg

/-- A request without attributes. -/
def noFill (_ : Nat) : Lib Int := pure 0

/-- `NLA_PUT` and its kin, one after the other until one fails. -/
def nlaPuts (msg : Nat) : List Attr → Lib Int
  | [] => pure 0
  | a :: attrs => do
    match ← nlaPut msg a with
    | none => pure (-1)
    | some _ => nlaPuts msg attrs

/-- A nested attribute with the given attributes in it. -/
def nlaNest (msg type : Nat) (attrs : List Attr) : Lib Int := do
  match ← nlaNestStart msg type with
  | none => pure (-1)
  | some _ => do
    let filled ← nlaPuts msg attrs
    if filled ≠ 0 then pure (-1)
    else do
      nlaNestEnd msg
      pure 0

/-! ## Attributes -/

/-- The sixteen bytes of an address. -/
def addrBytes (addr : NfInetAddr) : Bytes :=
  leBytes 4 addr.w0.toNat ++ leBytes 4 addr.w1.toNat ++ leBytes 4 addr.w2.toNat ++
    leBytes 4 addr.w3.toNat

/-- The attributes that say which service is meant. -/
def serviceKeyAttrs (fwmark : BitVec 32) (af protocol : BitVec 16) (addr : NfInetAddr)
    (port : BitVec 16) : List Attr :=
  .ofU16 ipvsSvcAttrAf af ::
    if fwmark ≠ 0 then [.ofU32 ipvsSvcAttrFwmark fwmark]
    else [.ofU16 ipvsSvcAttrProtocol protocol, ⟨ipvsSvcAttrAddr, addrBytes addr⟩,
      .ofU16 ipvsSvcAttrPort port]

/-- `struct ip_vs_flags` -/
def flagsBytes (flags mask : BitVec 32) : Bytes := leBytes 4 flags.toNat ++ leBytes 4 mask.toNat

/-- The mask says that all flags are meant. -/
def flagsMask : BitVec 32 := BitVec.allOnes 32

/-- The attributes of a service that is added or changed, in the order in which they are put. -/
def serviceAttrs (svc : ServiceUser) : List Attr :=
  serviceKeyAttrs svc.fwmark svc.af svc.protocol svc.addr svc.port ++
    [.ofString ipvsSvcAttrSchedName svc.schedName] ++
    (if svc.peName ≠ [] then [.ofString ipvsSvcAttrPeName svc.peName] else []) ++
    [⟨ipvsSvcAttrFlags, flagsBytes svc.flags flagsMask⟩,
      .ofU32 ipvsSvcAttrTimeout svc.timeout, .ofU32 ipvsSvcAttrNetmask svc.netmask]

/-- Puts a service into a message. -/
def ipvsNlFillServiceAttr (msg : Nat) (svc : ServiceUser) : Lib Int :=
  nlaNest msg ipvsCmdAttrService (serviceAttrs svc)

/-- The attributes of a destination, in the order in which they are put. -/
def destAttrs (dst : Dest) : List Attr :=
  [.ofU16 ipvsDestAttrAddrFamily dst.af, ⟨ipvsDestAttrAddr, addrBytes dst.addr⟩,
    .ofU16 ipvsDestAttrPort dst.port,
    .ofU32 ipvsDestAttrFwdMethod (dst.connFlags &&& ipVsConnFFwdMask),
    .ofU32 ipvsDestAttrWeight (BitVec.ofInt 32 dst.weight),
    .ofU32 ipvsDestAttrUThresh dst.uThreshold, .ofU32 ipvsDestAttrLThresh dst.lThreshold]

/-- Puts a destination into a message. -/
def ipvsNlFillDestAttr (msg : Nat) (dst : Dest) : Lib Int :=
  nlaNest msg ipvsCmdAttrDest (destAttrs dst)

/-! ## Values in attributes -/

/-- A number of `n` bytes in an attribute. -/
def nlaGet (nl : Libnl) (n : Nat) : Option Bytes → Read Nat
  | none => .error .missingAttribute
  | some payload => .ok (nl.nlaGet n payload)

/-- `nla_get_u32` -/
def nlaGetU32 (nl : Libnl) (a : Option Bytes) : Read (BitVec 32) :=
  (nlaGet nl 4 a).map (BitVec.ofNat 32)

/-! ## The transport -/

/-- The callback of `ipvs_getinfo`: keeps the version and the size of the connection table. -/
def ipvsGetinfoParseCb (nl : Libnl) : Callback Unit := fun msg arg =>
  match nl.nlaParse ipvsInfoAttrMax ipvsInfoPolicy msg with
  | none => pure (-1, arg)
  | some attrs =>
    if (attrs ipvsInfoAttrVersion).isSome ∧ (attrs ipvsInfoAttrConnTabSize).isSome then do
      let version ← ofRead (nlaGetU32 nl (attrs ipvsInfoAttrVersion))
      let size ← ofRead (nlaGetU32 nl (attrs ipvsInfoAttrConnTabSize))
      modify fun v => { v with
        ipvsInfo := { v.ipvsInfo with version := version, size := size } }
      pure (0, arg)
    else pure (-1, arg)

/-- `getsockopt` for the variable `ipvs_info`. -/
def getsockoptInfo : Lib Int := do
  match ← getsockopt (← get).sockfd .info with
  | none => pure (-1)
  | some info => do
    modify fun v => { v with ipvsInfo := info }
    pure 0

/-- Get ipvs info separately. -/
def ipvsGetinfo (nl : Libnl) : Lib Int := do
  if (← get).tryNl then do
    let r ← nlRequest ipvsCmdGetInfo 0 noFill (ipvsGetinfoParseCb nl) ()
    pure r.1
  else do
    setFunc .getinfo
    getsockoptInfo

/-- Get the version number. -/
def ipvsVersion : Lib (BitVec 32) := do pure (← get).ipvsInfo.version

/-- Init socket and get ipvs info. The netlink family is probed first; the raw socket is opened only
if the probe fails. -/
def ipvsInit (nl : Libnl) : Lib Int := do
  setFunc .init
  modify fun v => { v with tryNl := true }
  let probe ← ipvsNlSendMessage none ipvsNlNoopCb ()
  if probe.1 = 0 then ipvsGetinfo nl
  else do
    modify fun v => { v with tryNl := false }
    let fd ← Lib.socket
    modify fun v => { v with sockfd := fd }
    match fd with
    | none => pure (-1)
    | some _ => getsockoptInfo

/-- Close the socket. -/
def ipvsClose : Lib Unit := do
  if (← get).tryNl then pure ()
  else Lib.close (← get).sockfd

/-! ## Services and destinations -/

/-- A command that is sent as a netlink message or handed to `setsockopt`. `compat` are the
    conditions of `CHECK_COMPAT_SVC` and `CHECK_COMPAT_DEST`. -/
def command (func : IpvsFunc) (cmd : Nat) (fill : Nat → Lib Int) (compat : Bool) (opt : SetOpt) :
    Lib Int := do
  setFunc func
  if (← get).tryNl then do
    let r ← nlRequest cmd 0 fill ipvsNlNoopCb ()
    pure r.1
  else if compat then setsockopt (← get).sockfd opt
  else do
    setErrno eafnosupport
    pure (-1)

/-- The service as `setsockopt` takes it, with the IPv4 address copied to the place for it. -/
def ServiceUser.kern (svc : ServiceUser) : ServiceKern :=
  ⟨svc.protocol, svc.addr.w0, svc.port, svc.fwmark, svc.schedName, svc.flags, svc.timeout,
    svc.netmask⟩

/-- The destination as `setsockopt` takes it, with the IPv4 address only. -/
def destKern (dest : Dest) : DestKern :=
  ⟨dest.addr.w0, dest.port, dest.connFlags, dest.weight, dest.uThreshold, dest.lThreshold⟩

/-- `CHECK_COMPAT_SVC` -/
def checkCompatSvc (svc : ServiceUser) : Bool := checkIpv4 svc.af && svc.peName = []

/-- Flush all the rules. -/
def ipvsFlush : Lib Int := do
  if (← get).tryNl then do
    let r ← nlRequest ipvsCmdFlush 0 noFill ipvsNlNoopCb ()
    pure (if r.1 = 0 then 0 else -1)
  else setsockopt (← get).sockfd .flush

/-- Add a virtual service. -/
def ipvsAddService (svc : ServiceUser) : Lib Int :=
  command .addService ipvsCmdNewService (ipvsNlFillServiceAttr · svc) (checkCompatSvc svc)
    (.add svc.kern)

/-- Update a virtual service with new options. -/
def ipvsUpdateService (svc : ServiceUser) : Lib Int :=
  command .updateService ipvsCmdSetService (ipvsNlFillServiceAttr · svc) (checkCompatSvc svc)
    (.edit svc.kern)

/-- Delete a virtual service. -/
def ipvsDelService (svc : ServiceUser) : Lib Int :=
  command .delService ipvsCmdDelService (ipvsNlFillServiceAttr · svc) (checkCompatSvc svc)
    (.del svc.kern)

/-- The service is given to `ipvs_zero_service`; without one, the counters of all are meant. -/
def ServiceUser.IsGiven (svc : ServiceUser) : Prop :=
  svc.fwmark ≠ 0 ∨ svc.addr ≠ .zero ∨ svc.port ≠ 0

instance (svc : ServiceUser) : Decidable svc.IsGiven := inferInstanceAs (Decidable (_ ∨ _))

/-- Zero the counters of a service or all. -/
def ipvsZeroService (svc : ServiceUser) : Lib Int :=
  command .zeroService ipvsCmdZero
    (fun msg => if svc.IsGiven then ipvsNlFillServiceAttr msg svc else pure 0)
    (checkCompatSvc svc) (.zero svc.kern)

/-- The attributes of a service and of one of its destinations. -/
def fillDest (svc : ServiceUser) (dest : Dest) (msg : Nat) : Lib Int := do
  let filled ← ipvsNlFillServiceAttr msg svc
  if filled ≠ 0 then pure (-1) else ipvsNlFillDestAttr msg dest

/-- `CHECK_COMPAT_SVC` and then `CHECK_COMPAT_DEST` -/
def checkCompatBoth (svc : ServiceUser) (dest : Dest) : Bool :=
  checkCompatSvc svc && checkIpv4 dest.af

/-- Add a destination server into a service. -/
def ipvsAddDest (svc : ServiceUser) (dest : Dest) : Lib Int :=
  command .addDest ipvsCmdNewDest (fillDest svc dest) (checkCompatBoth svc dest)
    (.addDest svc.kern (destKern dest))

/-- Update a destination server with new options. -/
def ipvsUpdateDest (svc : ServiceUser) (dest : Dest) : Lib Int :=
  command .updateDest ipvsCmdSetDest (fillDest svc dest) (checkCompatBoth svc dest)
    (.editDest svc.kern (destKern dest))

/-- Remove a destination server from a service. -/
def ipvsDelDest (svc : ServiceUser) (dest : Dest) : Lib Int :=
  command .delDest ipvsCmdDelDest (fillDest svc dest) (checkCompatBoth svc dest)
    (.delDest svc.kern (destKern dest))

/-! ## Timeouts and daemons -/

/-- The attributes of the three timeouts. -/
def timeoutAttrs (timeouts : Timeouts) : List Attr :=
  [.ofU32 ipvsCmdAttrTimeoutTcp timeouts.tcpTimeout,
    .ofU32 ipvsCmdAttrTimeoutTcpFin timeouts.tcpFinTimeout,
    .ofU32 ipvsCmdAttrTimeoutUdp timeouts.udpTimeout]

/-- Set timeout. -/
def ipvsSetTimeout (timeouts : Timeouts) : Lib Int :=
  command .setTimeout ipvsCmdSetTimeout (nlaPuts · (timeoutAttrs timeouts)) true
    (.timeout timeouts)

/-- The attributes that starting and stopping a daemon have in common. -/
def daemonKeyAttrs (dm : DaemonUser) : List Attr :=
  [.ofU32 ipvsDaemonAttrState dm.state, .ofString ipvsDaemonAttrMcastIfn (cStr dm.mcastIfn),
    .ofU32 ipvsDaemonAttrSyncId dm.syncid]

/-- The attributes of a daemon that is started; options that are zero are left out. -/
def daemonAttrs (dm : DaemonUser) : List Attr :=
  daemonKeyAttrs dm ++
    (if dm.syncMaxlen ≠ 0 then [.ofU16 ipvsDaemonAttrSyncMaxlen (dm.syncMaxlen.setWidth 16)]
      else []) ++
    (if dm.mcastPort ≠ 0 then [.ofU16 ipvsDaemonAttrMcastPort dm.mcastPort] else []) ++
    (if dm.mcastTtl ≠ 0 then [⟨ipvsDaemonAttrMcastTtl, leBytes 1 dm.mcastTtl.toNat⟩] else []) ++
    (if dm.mcastAf = afInet6 then [⟨ipvsDaemonAttrMcastGroup6, addrBytes dm.mcastGroup⟩]
      else if dm.mcastAf = afInet then [.ofU32 ipvsDaemonAttrMcastGroup dm.mcastGroup.w0]
      else [])

/-- Start a connection synchronization daemon (master/backup). -/
def ipvsStartDaemon (dm : DaemonUser) : Lib Int :=
  command .startDaemon ipvsCmdNewDaemon (nlaNest · ipvsCmdAttrDaemon (daemonAttrs dm)) true
    (.startDaemon ⟨dm.state, cStr dm.mcastIfn, dm.syncid⟩)

/-- Stop a connection synchronization daemon (master/backup). -/
def ipvsStopDaemon (dm : DaemonUser) : Lib Int :=
  command .stopDaemon ipvsCmdDelDaemon (nlaNest · ipvsCmdAttrDaemon (daemonKeyAttrs dm)) true
    (.stopDaemon ⟨dm.state, [], 0⟩)

end Ipvshttpd.Libipvs
