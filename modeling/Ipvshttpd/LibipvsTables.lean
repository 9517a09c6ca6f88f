import Ipvshttpd.LibipvsCommands

/-!
# The tables that libipvs fetches

The functions of `libipvs.c` that fetch services, destinations, timeouts and daemons, with the
callbacks that parse the messages of the kernel. A table grows by `realloc` with every entry, so that
there is always room for one more.
-/

namespace Ipvshttpd.Libipvs

open CLib Netlink Resumption Lib

/-- `NLM_F_DUMP` -/
def nlmFDump : Nat := 0x300

/-! ## Values in attributes -/

/-- `nla_get_u16` -/
def nlaGetU16 (nl : Libnl) (a : Option Bytes) : Read (BitVec 16) :=
  (nlaGet nl 2 a).map (BitVec.ofNat 16)

/-- `memcpy` of an address from a payload. -/
def nlaGetAddr : Option Bytes → Read NfInetAddr
  | none => .error .missingAttribute
  | some payload =>
    let word (i : Nat) : BitVec 32 := BitVec.ofNat 32 (ofLeBytes ((payload.drop (4 * i)).take 4))
    if 16 ≤ payload.length then .ok ⟨word 0, word 1, word 2, word 3⟩
    else .error .readPastPayload

/-- `strncpy` of a string to an array for a name: it reads up to the first NUL, or as much as the
    array holds. -/
def nlaGetName : Option Bytes → Read Str
  | none => .error .missingAttribute
  | some payload =>
    if 0 ∈ payload ∨ nameMaxlen ≤ payload.length then .ok ((cStr payload).take nameMaxlen)
    else .error .readPastPayload

/-- A member that an attribute replaces if it is there. -/
def update {α : Type} (a : Option Bytes) (old : α) (read : Option Bytes → Read α) : Read α :=
  if a.isSome then read a else pure old

/-! ## Tables -/

/-- The callbacks for tables: an entry is read off the nested attribute `type` and written behind the
    last one, and the table grows. They begin with the number of entries in the block. -/
def tableParseCb {τ ε : Type} (nl : Libnl) (type maxtype : Nat) (policy : Nat → NlaPolicy)
    (blockOf : τ → Nat) (full : τ → Bool) (read : τ → Attrs → Read (Option ε))
    (grow : τ → ε → Nat → τ) : Callback (Option τ) := fun msg tablep =>
  match tablep with
  | none => Stateful.throw .nullPointer
  | some table => do
    access (blockOf table)
    match nl.nlaParse ipvsCmdAttrMax ipvsCmdPolicy msg with
    | none => pure (-1, tablep)
    | some attrs =>
      match attrs type with
      | none => pure (-1, tablep)
      | some nla =>
        match nl.nlaParse maxtype policy nla with
        | none => pure (-1, tablep)
        | some attrs =>
          -- `memset` of the entry behind the last one
          if full table then Stateful.throw .writePastBlock
          else do
            match ← ofRead (read table attrs) with
            | none => pure (-1, tablep)
            | some entry => do
              match ← realloc (blockOf table) with
              | none => pure (0, none)
              | some block => pure (0, some (grow table entry block))

/-- The entry in a message of the kernel, if the message is accepted. -/
def entryOf {ε : Type} (nl : Libnl) (type maxtype : Nat) (policy : Nat → NlaPolicy)
    (read : Attrs → Read (Option ε)) (msg : Bytes) : Option ε := do
  let attrs ← nl.nlaParse ipvsCmdAttrMax ipvsCmdPolicy msg
  let nla ← attrs type
  match read (← nl.nlaParse maxtype policy nla) with
  | .ok entry => entry
  | .error _ => none

/-! ## Statistics -/

/-- The attributes of the counters, all of which have to be there. -/
def statsAttrs : List Nat :=
  [ipvsStatsAttrConns, ipvsStatsAttrInpkts, ipvsStatsAttrOutpkts, ipvsStatsAttrInbytes,
    ipvsStatsAttrOutbytes, ipvsStatsAttrCps, ipvsStatsAttrInpps, ipvsStatsAttrOutpps,
    ipvsStatsAttrInbps, ipvsStatsAttrOutbps]

/-- Reads the counters, those that do not count bytes as numbers of `n` bytes. -/
def parseStats (n : Nat) (nl : Libnl) (nla : Bytes) : Read (Option Stats64) :=
  match nl.nlaParse ipvsStatsAttrMax ipvsStatsPolicy nla with
  | none => pure none
  | some attrs =>
    if ∀ type ∈ statsAttrs, (attrs type).isSome then do
      let conns ← nlaGet nl n (attrs ipvsStatsAttrConns)
      let inpkts ← nlaGet nl n (attrs ipvsStatsAttrInpkts)
      let outpkts ← nlaGet nl n (attrs ipvsStatsAttrOutpkts)
      let inbytes ← nlaGet nl 8 (attrs ipvsStatsAttrInbytes)
      let outbytes ← nlaGet nl 8 (attrs ipvsStatsAttrOutbytes)
      let cps ← nlaGet nl n (attrs ipvsStatsAttrCps)
      let inpps ← nlaGet nl n (attrs ipvsStatsAttrInpps)
      let outpps ← nlaGet nl n (attrs ipvsStatsAttrOutpps)
      let inbps ← nlaGet nl n (attrs ipvsStatsAttrInbps)
      let outbps ← nlaGet nl n (attrs ipvsStatsAttrOutbps)
      pure (some ⟨conns, inpkts, outpkts, inbytes, outbytes, cps, inpps, outpps, inbps, outbps⟩)
    else pure none

/-- `ipvs_parse_stats`, for counters of 32 bits. -/
def ipvsParseStats : Libnl → Bytes → Read (Option Stats64) := parseStats 4

/-- `ipvs_parse_stats64`, for counters of 64 bits. -/
def ipvsParseStats64 : Libnl → Bytes → Read (Option Stats64) := parseStats 8

/-- The statistics of an entry, from the attribute with 64-bit counters by `parse64` if it is there,
    and otherwise from the one with 32-bit counters. -/
def entryStats (nl : Libnl) (parse64 : Libnl → Bytes → Read (Option Stats64))
    (stats64 stats : Option Bytes) : Read (Option Stats64) :=
  match stats64 with
  | some nla => parse64 nl nla
  | none =>
    match stats with
    | some nla => ipvsParseStats nl nla
    | none => pure (some .zero)

/-- Copies counters of 32 bits. -/
def copyStatsFromKern (s : StatsUser) : Stats64 :=
  ⟨s.conns.setWidth 64, s.inpkts.setWidth 64, s.outpkts.setWidth 64, s.inbytes, s.outbytes,
    s.cps.setWidth 64, s.inpps.setWidth 64, s.outpps.setWidth 64, s.inbps.setWidth 64,
    s.outbps.setWidth 64⟩

/-! ## Services -/

/-- The attributes that an entry needs. -/
def HasServiceAttrs (attrs : Attrs) : Prop :=
  (attrs ipvsSvcAttrAf).isSome ∧
  ((attrs ipvsSvcAttrFwmark).isSome ∨
    ((attrs ipvsSvcAttrProtocol).isSome ∧ (attrs ipvsSvcAttrAddr).isSome ∧
      (attrs ipvsSvcAttrPort).isSome)) ∧
  (attrs ipvsSvcAttrSchedName).isSome ∧ (attrs ipvsSvcAttrNetmask).isSome ∧
  (attrs ipvsSvcAttrTimeout).isSome ∧ (attrs ipvsSvcAttrFlags).isSome

instance (attrs : Attrs) : Decidable (HasServiceAttrs attrs) :=
  inferInstanceAs (Decidable (_ ∧ _))

/-- What identifies the service of an entry: its mark, or its protocol, address and port. -/
def serviceEntryKey (nl : Libnl) (attrs : Attrs) (entry : ServiceEntry) : Read ServiceEntry :=
  if (attrs ipvsSvcAttrFwmark).isSome then do
    pure { entry with fwmark := ← nlaGetU32 nl (attrs ipvsSvcAttrFwmark) }
  else do
    let protocol ← nlaGetU16 nl (attrs ipvsSvcAttrProtocol)
    let addr ← nlaGetAddr (attrs ipvsSvcAttrAddr)
    let port ← nlaGetU16 nl (attrs ipvsSvcAttrPort)
    pure { entry with protocol := protocol, addr := addr, port := port }

/-- The persistence engine of an entry, if it has one. -/
def serviceEntryPe (attrs : Attrs) (entry : ServiceEntry) : Read ServiceEntry :=
  if (attrs ipvsSvcAttrPeName).isSome then do
    pure { entry with peName := ← nlaGetName (attrs ipvsSvcAttrPeName) }
  else pure entry

/-- The entry that the attributes of a service give; `none` is the result -1. -/
def serviceEntry (nl : Libnl) (attrs : Attrs) : Read (Option ServiceEntry) :=
  if HasServiceAttrs attrs then do
    let entry ← serviceEntryKey nl attrs
      { ServiceEntry.zero with af := ← nlaGetU16 nl (attrs ipvsSvcAttrAf) }
    let schedName ← nlaGetName (attrs ipvsSvcAttrSchedName)
    let entry ← serviceEntryPe attrs { entry with schedName := schedName }
    let netmask ← nlaGetU32 nl (attrs ipvsSvcAttrNetmask)
    let timeout ← nlaGetU32 nl (attrs ipvsSvcAttrTimeout)
    let flags ← nlaGet nl 8 (attrs ipvsSvcAttrFlags)
    let stats ← entryStats nl ipvsParseStats64 (attrs ipvsSvcAttrStats64) (attrs ipvsSvcAttrStats)
    pure (stats.map fun stats64 =>
      { entry with
        netmask := netmask
        timeout := timeout
        flags := BitVec.ofNat 32 flags &&& BitVec.ofNat 32 (flags / 2 ^ 32)
        stats64 := stats64 })
  else pure none

/-- The callback for services. -/
def ipvsServicesParseCb (nl : Libnl) : Callback (Option GetServices) :=
  tableParseCb nl ipvsCmdAttrService ipvsSvcAttrMax ipvsServicePolicy GetServices.block
    GetServices.full (fun _ => serviceEntry nl) GetServices.grow

/-- The service that a message describes. -/
def serviceOf (nl : Libnl) : Bytes → Option ServiceEntry :=
  entryOf nl ipvsCmdAttrService ipvsSvcAttrMax ipvsServicePolicy (serviceEntry nl)

/-- An entry of `getsockopt` written over the entry `old`. -/
def ServiceEntryKern.over (e : ServiceEntryKern) (old : ServiceEntry) : ServiceEntry :=
  { old with
    protocol := e.protocol
    port := e.port
    fwmark := e.fwmark
    schedName := e.schedName
    flags := e.flags
    timeout := e.timeout
    netmask := e.netmask
    numDests := e.numDests
    af := afInet
    addr := { old.addr with w0 := e.addr }
    stats64 := copyStatsFromKern e.stats }

/-- `fresh` is what the entries contain before they are written, when `malloc` returns them. -/
def ipvsGetServices (nl : Libnl) (fresh : Nat → ServiceEntry) : Lib (Option GetServices) := do
  match ← malloc with
  | none => pure none
  | some block => do
    if (← get).tryNl then do
      access block
      let r ← nlRequest ipvsCmdGetService nlmFDump noFill (ipvsServicesParseCb nl)
        (some ⟨block, 1, []⟩)
      if r.1 = 0 then pure r.2
      else do
        free (r.2.map GetServices.block)
        pure none
    else do
      let room := (← get).ipvsInfo.numServices.toNat
      match ← malloc with
      | none => do
        free (some block)
        pure none
      | some getk => do
        setFunc .getServices
        access getk
        match ← getsockopt (← get).sockfd (.services room) with
        | none => do
          free (some block)
          free (some getk)
          pure none
        | some entries => do
          access getk
          access block
          -- the loop goes up to the number of entries that the kernel has given
          if room < entries.length then Stateful.throw .writePastBlock
          else do
            free (some getk)
            pure (some ⟨block, room, entries.mapIdx fun i e => e.over (fresh i)⟩)

/-! ## Destinations -/

/-- The attributes without which a destination is not accepted. -/
def HasDestAttrs (attrs : Attrs) : Prop :=
  ∀ type ∈ [ipvsDestAttrAddr, ipvsDestAttrPort, ipvsDestAttrFwdMethod, ipvsDestAttrWeight,
    ipvsDestAttrUThresh, ipvsDestAttrLThresh, ipvsDestAttrActiveConns, ipvsDestAttrInactConns,
    ipvsDestAttrPersistConns], (attrs type).isSome

instance (attrs : Attrs) : Decidable (HasDestAttrs attrs) :=
  inferInstanceAs (Decidable (∀ type ∈ _, _))

/-- The entry that the attributes of a destination give; `af` is the family of its service. -/
def destEntry (nl : Libnl) (af : BitVec 16) (attrs : Attrs) : Read (Option DestEntry) :=
  if HasDestAttrs attrs then do
    let addr ← nlaGetAddr (attrs ipvsDestAttrAddr)
    let port ← nlaGetU16 nl (attrs ipvsDestAttrPort)
    let connFlags ← nlaGetU32 nl (attrs ipvsDestAttrFwdMethod)
    let weight ← nlaGetU32 nl (attrs ipvsDestAttrWeight)
    let uThreshold ← nlaGetU32 nl (attrs ipvsDestAttrUThresh)
    let lThreshold ← nlaGetU32 nl (attrs ipvsDestAttrLThresh)
    let activeconns ← nlaGetU32 nl (attrs ipvsDestAttrActiveConns)
    let inactconns ← nlaGetU32 nl (attrs ipvsDestAttrInactConns)
    let persistconns ← nlaGetU32 nl (attrs ipvsDestAttrPersistConns)
    let af ← update (attrs ipvsDestAttrAddrFamily) af (nlaGetU16 nl)
    -- both attributes for statistics go to the parser for 32-bit counters
    let stats ← entryStats nl ipvsParseStats (attrs ipvsDestAttrStats64) (attrs ipvsDestAttrStats)
    pure (stats.map fun stats64 =>
      ⟨port, connFlags, weight, uThreshold, lThreshold, activeconns, inactconns, persistconns, af,
        addr, stats64⟩)
  else pure none

/-- The callback for destinations. -/
def ipvsDestsParseCb (nl : Libnl) : Callback (Option GetDests) :=
  tableParseCb nl ipvsCmdAttrDest ipvsDestAttrMax ipvsDestPolicy GetDests.block GetDests.full
    (fun d => destEntry nl d.af) GetDests.grow

/-- The destination that a message describes, of a service with the family `af`. -/
def destOf (nl : Libnl) (af : BitVec 16) : Bytes → Option DestEntry :=
  entryOf nl ipvsCmdAttrDest ipvsDestAttrMax ipvsDestPolicy (destEntry nl af)

/-- An entry of `getsockopt` written over the entry `old`. -/
def DestEntryKern.over (e : DestEntryKern) (old : DestEntry) : DestEntry :=
  ⟨e.port, e.connFlags, e.weight, e.uThreshold, e.lThreshold, e.activeconns, e.inactconns,
    e.persistconns, afInet, { old.addr with w0 := e.addr }, copyStatsFromKern e.stats⟩

/-- The request for the destinations of a service over netlink. The table begins with the number of
    entries that the service is said to have, none of which has been written. -/
def getDestsNl (nl : Libnl) (svc : ServiceEntry) (block : Nat) : Lib (Option GetDests) := do
  let n := svc.numDests.toNat
  access block
  let r ← nlRequest ipvsCmdGetDest nlmFDump
    (nlaNest · ipvsCmdAttrService
      (serviceKeyAttrs svc.fwmark svc.af svc.protocol svc.addr svc.port))
    (ipvsDestsParseCb nl) (some ⟨block, max n 1, svc.af, List.replicate n none⟩)
  if r.1 = 0 then pure r.2
  else do
    free (r.2.map GetDests.block)
    pure none

/-- Get the destination array of the specified service. -/
def ipvsGetDests (nl : Libnl) (fresh : Nat → DestEntry) (svc : ServiceEntry) :
    Lib (Option GetDests) := do
  let n := svc.numDests.toNat
  match ← malloc with
  | none => pure none
  | some block => do
    setFunc .getDests
    if (← get).tryNl then
      if n = 0 then do
        match ← realloc block with
        | none => Stateful.throw .nullPointer
        | some block => getDestsNl nl svc block
      else getDestsNl nl svc block
    else if svc.af ≠ afInet then do
      setErrno eafnosupport
      free (some block)
      pure none
    else do
      match ← malloc with
      | none => do
        free (some block)
        pure none
      | some dk => do
        access dk
        match ← getsockopt (← get).sockfd
            (.dests ⟨svc.fwmark, svc.protocol, svc.addr.w0, svc.port⟩ n) with
        | none => do
          free (some block)
          free (some dk)
          pure none
        | some entries => do
          access dk
          access block
          if n < entries.length then Stateful.throw .writePastBlock
          else do
            free (some dk)
            pure (some ⟨block, n, afInet, entries.mapIdx fun i e => some (e.over (fresh i))⟩)

/-! ## A single service -/

/-- The service that a request for one service carries. -/
def serviceQuery (fwmark : BitVec 32) (af protocol : BitVec 16) (addr : NfInetAddr)
    (port : BitVec 16) : ServiceUser where
  toService := { Service.zero with
    fwmark := fwmark, af := af, protocol := protocol, addr := addr, port := port }
  timeout := 0
  schedFits := fitsName_nil
  peFits := fitsName_nil

/-- A block with an entry; the entry is `none` if the kernel has sent none. -/
structure OneService where
  /-- The block that is returned. -/
  block : Nat
  /-- What the block contains. -/
  entry : Option ServiceEntry

/-- Get an ipvs service entry. -/
def ipvsGetService (nl : Libnl) (fwmark : BitVec 32) (af protocol : BitVec 16) (addr : NfInetAddr)
    (port : BitVec 16) : Lib (Option OneService) := do
  let tsvc := serviceQuery fwmark af protocol addr port
  setFunc .getService
  if (← get).tryNl then do
    match ← malloc with
    | none => pure none
    | some svc => do
      match ← malloc with
      | none => do
        free (some svc)
        pure none
      | some block => do
        access block
        let r ← nlRequest ipvsCmdGetService 0 (ipvsNlFillServiceAttr · tsvc)
          (ipvsServicesParseCb nl) (some ⟨block, 1, []⟩)
        if r.1 ≠ 0 then do
          free (r.2.map GetServices.block)
          free (some svc)
          pure none
        else
          match r.2 with
          | none => Stateful.throw .nullPointer
          | some table => do
            access table.block
            access svc
            free (some table.block)
            pure (some ⟨svc, table.entrytable.head?⟩)
  else do
    match ← malloc with
    | none => pure none
    | some svc => do
      access svc
      if checkCompatSvc tsvc then do
        match ← getsockopt (← get).sockfd (.service tsvc.kern) with
        | none => do
          free (some svc)
          pure none
        | some e => do
          access svc
          pure (some ⟨svc, some (e.over { ServiceEntry.zero with addr := addr })⟩)
      else do
        setErrno eafnosupport
        free (some svc)
        pure none

/-! ## Timeouts and daemons -/

/-- The timeouts `u` after the attributes have been read. -/
def timeoutEntry (nl : Libnl) (attrs : Attrs) (u : Timeouts) : Read Timeouts := do
  let tcp ← update (attrs ipvsCmdAttrTimeoutTcp) u.tcpTimeout (nlaGetU32 nl)
  let tcpFin ← update (attrs ipvsCmdAttrTimeoutTcpFin) u.tcpFinTimeout (nlaGetU32 nl)
  let udp ← update (attrs ipvsCmdAttrTimeoutUdp) u.udpTimeout (nlaGetU32 nl)
  pure ⟨tcp, tcpFin, udp⟩

/-- The callback for the timeouts `u` in a block. -/
def ipvsTimeoutParseCb (nl : Libnl) (block : Nat) : Callback Timeouts := fun msg u =>
  match nl.nlaParse ipvsCmdAttrMax ipvsCmdPolicy msg with
  | none => pure (-1, u)
  | some attrs => do
    access block
    let u ← ofRead (timeoutEntry nl attrs u)
    pure (0, u)

/-- The timeouts after a message of the kernel, if the message is accepted. -/
def timeoutsAfter (nl : Libnl) (u : Timeouts) (msg : Bytes) : Option Timeouts := do
  (timeoutEntry nl (← nl.nlaParse ipvsCmdAttrMax ipvsCmdPolicy msg) u).toOption

/-- The common shape of the functions that return a block with a record: the record that a netlink
    request leaves, or the one that `getsockopt` gives. The callback gets the block. -/
def fetch {σ : Type} (func : IpvsFunc) (cmd flags : Nat) (callback : Nat → Callback σ) (init : σ)
    (opt : GetOpt) (convert : opt.Data → σ) : Lib (Option (Nat × σ)) := do
  match ← malloc with
  | none => pure none
  | some block => do
    setFunc func
    if (← get).tryNl then do
      access block
      let r ← nlRequest cmd flags noFill (callback block) init
      if r.1 = 0 then pure (some (block, r.2))
      else do
        free (some block)
        pure none
    else do
      match ← getsockopt (← get).sockfd opt with
      | none => do
        free (some block)
        pure none
      | some data => do
        access block
        pure (some (block, convert data))

/-- Get ipvs timeout. -/
def ipvsGetTimeout (nl : Libnl) : Lib (Option (Nat × Timeouts)) :=
  fetch .getTimeout ipvsCmdGetTimeout 0 (ipvsTimeoutParseCb nl) ⟨0, 0, 0⟩ .timeout id

/-- The group of a daemon: an IPv4 address, an IPv6 address or none. -/
def daemonGroup (nl : Libnl) (attrs : Attrs) (dm : DaemonUser) : Read DaemonUser :=
  if (attrs ipvsDaemonAttrMcastGroup).isSome then do
    let ip ← nlaGetU32 nl (attrs ipvsDaemonAttrMcastGroup)
    pure { dm with mcastAf := afInet, mcastGroup := { dm.mcastGroup with w0 := ip } }
  else if (attrs ipvsDaemonAttrMcastGroup6).isSome then do
    let in6 ← nlaGetAddr (attrs ipvsDaemonAttrMcastGroup6)
    pure { dm with mcastAf := afInet6, mcastGroup := in6 }
  else pure dm

/-- The attributes without which a daemon is not accepted. -/
def HasDaemonAttrs (attrs : Attrs) : Prop :=
  (attrs ipvsDaemonAttrState).isSome ∧ (attrs ipvsDaemonAttrMcastIfn).isSome ∧
    (attrs ipvsDaemonAttrSyncId).isSome

instance (attrs : Attrs) : Decidable (HasDaemonAttrs attrs) :=
  inferInstanceAs (Decidable (_ ∧ _ ∧ _))

/-- The daemon `dm` after the attributes have been read; `none` is the result -1. -/
def daemonEntry (nl : Libnl) (attrs : Attrs) (dm : DaemonUser) : Read (Option DaemonUser) :=
  if HasDaemonAttrs attrs then do
    let state ← nlaGetU32 nl (attrs ipvsDaemonAttrState)
    let mcastIfn ← nlaGetName (attrs ipvsDaemonAttrMcastIfn)
    let syncid ← nlaGetU32 nl (attrs ipvsDaemonAttrSyncId)
    let syncMaxlen ← update (attrs ipvsDaemonAttrSyncMaxlen) dm.syncMaxlen fun a => do
      pure ((← nlaGetU16 nl a).setWidth 32)
    let mcastPort ← update (attrs ipvsDaemonAttrMcastPort) dm.mcastPort (nlaGetU16 nl)
    let mcastTtl ← update (attrs ipvsDaemonAttrMcastTtl) dm.mcastTtl fun a => do
      pure (BitVec.ofNat 16 (← nlaGet nl 1 a))
    let dm ← daemonGroup nl attrs { dm with
      state := state, mcastIfn := mcastIfn, syncid := syncid, syncMaxlen := syncMaxlen,
      mcastPort := mcastPort, mcastTtl := mcastTtl }
    pure (some dm)
  else pure none

/-- There may be two daemons. If the first one has a state, the message is about the second one. -/
def ipvsDaemonParseCb (nl : Libnl) (block : Nat) : Callback (DaemonUser × DaemonUser) :=
  fun msg u => do
    access block
    match nl.nlaParse ipvsCmdAttrMax ipvsCmdPolicy msg with
    | none => pure (-1, u)
    | some attrs =>
      match attrs ipvsCmdAttrDaemon with
      | none => Stateful.throw (.read .missingAttribute)
      | some nla =>
        match nl.nlaParse ipvsDaemonAttrMax ipvsDaemonPolicy nla with
        | none => pure (-1, u)
        | some daemonAttrs => do
          let second := decide (u.1.state ≠ 0)
          match ← ofRead (daemonEntry nl daemonAttrs (if second then u.2 else u.1)) with
          | none => pure (-1, u)
          | some dm => pure (0, if second then (u.1, dm) else (dm, u.2))

/-- The daemons after a message of the kernel, if the message is accepted. -/
def daemonsAfter (nl : Libnl) (u : DaemonUser × DaemonUser) (msg : Bytes) :
    Option (DaemonUser × DaemonUser) := do
  let attrs ← nl.nlaParse ipvsCmdAttrMax ipvsCmdPolicy msg
  let daemonAttrs ← nl.nlaParse ipvsDaemonAttrMax ipvsDaemonPolicy (← attrs ipvsCmdAttrDaemon)
  let dm ← (daemonEntry nl daemonAttrs (if u.1.state ≠ 0 then u.2 else u.1)).toOption.join
  some (if u.1.state ≠ 0 then (u.1, dm) else (dm, u.2))

/-- An entry of `getsockopt` as a daemon. -/
def DaemonKern.toUser (dm : DaemonKern) : DaemonUser :=
  { DaemonUser.zero with state := dm.state, mcastIfn := dm.mcastIfn, syncid := dm.syncid }

/-- Get ipvs daemon information. -/
def ipvsGetDaemon (nl : Libnl) : Lib (Option (Nat × DaemonUser × DaemonUser)) :=
  fetch .getDaemon ipvsCmdGetDaemon nlmFDump (ipvsDaemonParseCb nl) (.zero, .zero) .daemon
    fun dmk => (dmk.1.toUser, dmk.2.toUser)

end Ipvshttpd.Libipvs
