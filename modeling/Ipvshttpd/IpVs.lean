import Ipvshttpd.Libipvs
import Ipvshttpd.Netlink.Attribute

/-!
# The records of `ip_vs.h`

What libipvs and the kernel exchange: the commands and attributes of the netlink family, the policies
of `ip_vs_nl_policy.c`, the records that a caller fills in, those that `setsockopt` and `getsockopt`
take, and the tables that libipvs returns.
-/

namespace Ipvshttpd.Libipvs

open CLib Netlink

def nameMaxlen : Nat := 16

/-- A name that fits its array with the terminating NUL. -/
def FitsName (s : Str) : Prop := s.length < nameMaxlen ∧ 0 ∉ s

instance (s : Str) : Decidable (FitsName s) := inferInstanceAs (Decidable (_ ∧ _))

theorem fitsName_nil : FitsName [] := by decide

/-! ## Commands and attributes -/

def ipvsCmdNewService : Nat := 1
def ipvsCmdSetService : Nat := 2
def ipvsCmdDelService : Nat := 3
def ipvsCmdGetService : Nat := 4
def ipvsCmdNewDest : Nat := 5
def ipvsCmdSetDest : Nat := 6
def ipvsCmdDelDest : Nat := 7
def ipvsCmdGetDest : Nat := 8
def ipvsCmdNewDaemon : Nat := 9
def ipvsCmdDelDaemon : Nat := 10
def ipvsCmdGetDaemon : Nat := 11
def ipvsCmdSetTimeout : Nat := 12
def ipvsCmdGetTimeout : Nat := 13
def ipvsCmdGetInfo : Nat := 15
def ipvsCmdZero : Nat := 16
def ipvsCmdFlush : Nat := 17

@[simp] def ipvsCmdAttrService : Nat := 1
@[simp] def ipvsCmdAttrDest : Nat := 2
@[simp] def ipvsCmdAttrDaemon : Nat := 3
@[simp] def ipvsCmdAttrTimeoutTcp : Nat := 4
@[simp] def ipvsCmdAttrTimeoutTcpFin : Nat := 5
@[simp] def ipvsCmdAttrTimeoutUdp : Nat := 6
@[simp] def ipvsCmdAttrMax : Nat := 6

@[simp] def ipvsSvcAttrAf : Nat := 1
@[simp] def ipvsSvcAttrProtocol : Nat := 2
@[simp] def ipvsSvcAttrAddr : Nat := 3
@[simp] def ipvsSvcAttrPort : Nat := 4
@[simp] def ipvsSvcAttrFwmark : Nat := 5
@[simp] def ipvsSvcAttrSchedName : Nat := 6
@[simp] def ipvsSvcAttrFlags : Nat := 7
@[simp] def ipvsSvcAttrTimeout : Nat := 8
@[simp] def ipvsSvcAttrNetmask : Nat := 9
@[simp] def ipvsSvcAttrStats : Nat := 10
@[simp] def ipvsSvcAttrPeName : Nat := 11
@[simp] def ipvsSvcAttrStats64 : Nat := 12
@[simp] def ipvsSvcAttrMax : Nat := 12

@[simp] def ipvsDestAttrAddr : Nat := 1
@[simp] def ipvsDestAttrPort : Nat := 2
@[simp] def ipvsDestAttrFwdMethod : Nat := 3
@[simp] def ipvsDestAttrWeight : Nat := 4
@[simp] def ipvsDestAttrUThresh : Nat := 5
@[simp] def ipvsDestAttrLThresh : Nat := 6
@[simp] def ipvsDestAttrActiveConns : Nat := 7
@[simp] def ipvsDestAttrInactConns : Nat := 8
@[simp] def ipvsDestAttrPersistConns : Nat := 9
@[simp] def ipvsDestAttrStats : Nat := 10
@[simp] def ipvsDestAttrAddrFamily : Nat := 11
@[simp] def ipvsDestAttrStats64 : Nat := 12
@[simp] def ipvsDestAttrMax : Nat := 12

@[simp] def ipvsDaemonAttrState : Nat := 1
@[simp] def ipvsDaemonAttrMcastIfn : Nat := 2
@[simp] def ipvsDaemonAttrSyncId : Nat := 3
@[simp] def ipvsDaemonAttrSyncMaxlen : Nat := 4
@[simp] def ipvsDaemonAttrMcastGroup : Nat := 5
@[simp] def ipvsDaemonAttrMcastGroup6 : Nat := 6
@[simp] def ipvsDaemonAttrMcastPort : Nat := 7
@[simp] def ipvsDaemonAttrMcastTtl : Nat := 8
@[simp] def ipvsDaemonAttrMax : Nat := 8

@[simp] def ipvsStatsAttrConns : Nat := 1
@[simp] def ipvsStatsAttrInpkts : Nat := 2
@[simp] def ipvsStatsAttrOutpkts : Nat := 3
@[simp] def ipvsStatsAttrInbytes : Nat := 4
@[simp] def ipvsStatsAttrOutbytes : Nat := 5
@[simp] def ipvsStatsAttrCps : Nat := 6
@[simp] def ipvsStatsAttrInpps : Nat := 7
@[simp] def ipvsStatsAttrOutpps : Nat := 8
@[simp] def ipvsStatsAttrInbps : Nat := 9
@[simp] def ipvsStatsAttrOutbps : Nat := 10
@[simp] def ipvsStatsAttrMax : Nat := 10

@[simp] def ipvsInfoAttrVersion : Nat := 1
@[simp] def ipvsInfoAttrConnTabSize : Nat := 2
@[simp] def ipvsInfoAttrMax : Nat := 2

/-! ## Policies -/

def ipvsCmdPolicy : Nat → NlaPolicy := policyOf
  [(ipvsCmdAttrService, .ofType .nested), (ipvsCmdAttrDest, .ofType .nested),
    (ipvsCmdAttrDaemon, .ofType .nested), (ipvsCmdAttrTimeoutTcp, .ofType .u32),
    (ipvsCmdAttrTimeoutTcpFin, .ofType .u32), (ipvsCmdAttrTimeoutUdp, .ofType .u32)]

def ipvsServicePolicy : Nat → NlaPolicy := policyOf
  [(ipvsSvcAttrAf, .ofType .u16), (ipvsSvcAttrProtocol, .ofType .u16),
    (ipvsSvcAttrAddr, ⟨.unspec, 0, 16⟩), (ipvsSvcAttrPort, .ofType .u16),
    (ipvsSvcAttrFwmark, .ofType .u32), (ipvsSvcAttrSchedName, ⟨.string, 0, nameMaxlen⟩),
    (ipvsSvcAttrFlags, ⟨.unspec, 8, 8⟩), (ipvsSvcAttrTimeout, .ofType .u32),
    (ipvsSvcAttrNetmask, .ofType .u32), (ipvsSvcAttrStats, .ofType .nested)]

def ipvsDestPolicy : Nat → NlaPolicy := policyOf
  [(ipvsDestAttrAddr, ⟨.unspec, 0, 16⟩), (ipvsDestAttrPort, .ofType .u16),
    (ipvsDestAttrFwdMethod, .ofType .u32), (ipvsDestAttrWeight, .ofType .u32),
    (ipvsDestAttrUThresh, .ofType .u32), (ipvsDestAttrLThresh, .ofType .u32),
    (ipvsDestAttrActiveConns, .ofType .u32), (ipvsDestAttrInactConns, .ofType .u32),
    (ipvsDestAttrPersistConns, .ofType .u32), (ipvsDestAttrStats, .ofType .nested)]

def ipvsStatsPolicy : Nat → NlaPolicy := policyOf
  [(ipvsStatsAttrConns, .ofType .u32), (ipvsStatsAttrInpkts, .ofType .u32),
    (ipvsStatsAttrOutpkts, .ofType .u32), (ipvsStatsAttrInbytes, .ofType .u64),
    (ipvsStatsAttrOutbytes, .ofType .u64), (ipvsStatsAttrCps, .ofType .u32),
    (ipvsStatsAttrInpps, .ofType .u32), (ipvsStatsAttrOutpps, .ofType .u32),
    (ipvsStatsAttrInbps, .ofType .u32), (ipvsStatsAttrOutbps, .ofType .u32)]

def ipvsInfoPolicy : Nat → NlaPolicy := policyOf
  [(ipvsInfoAttrVersion, .ofType .u32), (ipvsInfoAttrConnTabSize, .ofType .u32)]

def ipvsDaemonPolicy : Nat → NlaPolicy := policyOf
  [(ipvsDaemonAttrState, .ofType .u32), (ipvsDaemonAttrMcastIfn, ⟨.string, 0, nameMaxlen⟩),
    (ipvsDaemonAttrSyncId, .ofType .u32), (ipvsDaemonAttrSyncMaxlen, .ofType .u16),
    (ipvsDaemonAttrMcastGroup, .ofType .u32), (ipvsDaemonAttrMcastGroup6, ⟨.unspec, 0, 16⟩),
    (ipvsDaemonAttrMcastPort, .ofType .u16), (ipvsDaemonAttrMcastTtl, .ofType .u8)]

/-! ## What callers fill in -/

/-- `ipvs_service_t` with the timeout of persistent connections, and with names that fit. -/
structure ServiceUser extends Service where
  timeout : BitVec 32
  schedFits : FitsName schedName
  peFits : FitsName peName

structure Timeouts where
  tcpTimeout : BitVec 32
  tcpFinTimeout : BitVec 32
  udpTimeout : BitVec 32
  deriving DecidableEq

structure DaemonUser where
  state : BitVec 32
  mcastIfn : Str
  syncid : BitVec 32
  syncMaxlen : BitVec 32
  mcastPort : BitVec 16
  mcastTtl : BitVec 16
  mcastAf : BitVec 16
  mcastGroup : NfInetAddr
  deriving DecidableEq

def DaemonUser.zero : DaemonUser := ⟨0, [], 0, 0, 0, 0, 0, .zero⟩

/-- A daemon to be started or stopped: the name of its interface fits. -/
structure DaemonArg extends DaemonUser where
  ifnFits : FitsName mcastIfn

/-! ## What `setsockopt` and `getsockopt` take -/

/-- `struct ip_vs_service_kern`, the first members of `ipvs_service_t` -/
structure ServiceKern where
  protocol : BitVec 16
  addr : BitVec 32
  port : BitVec 16
  fwmark : BitVec 32
  schedName : Str
  flags : BitVec 32
  timeout : BitVec 32
  netmask : BitVec 32
  deriving DecidableEq

/-- `struct ip_vs_dest_kern`, the first members of `ipvs_dest_t` -/
structure DestKern where
  addr : BitVec 32
  port : BitVec 16
  connFlags : BitVec 32
  weight : Int
  uThreshold : BitVec 32
  lThreshold : BitVec 32
  deriving DecidableEq

structure DaemonKern where
  state : BitVec 32
  mcastIfn : Str
  syncid : BitVec 32
  deriving DecidableEq

structure GetInfo where
  version : BitVec 32
  size : BitVec 32
  numServices : BitVec 32
  deriving DecidableEq

/-- The counters of `struct ip_vs_stats_user`, eight of which have 32 bits. -/
structure StatsUser where
  conns : BitVec 32
  inpkts : BitVec 32
  outpkts : BitVec 32
  inbytes : BitVec 64
  outbytes : BitVec 64
  cps : BitVec 32
  inpps : BitVec 32
  outpps : BitVec 32
  inbps : BitVec 32
  outbps : BitVec 32
  deriving DecidableEq

structure ServiceEntryKern where
  protocol : BitVec 16
  addr : BitVec 32
  port : BitVec 16
  fwmark : BitVec 32
  schedName : Str
  flags : BitVec 32
  timeout : BitVec 32
  netmask : BitVec 32
  numDests : BitVec 32
  stats : StatsUser
  deriving DecidableEq

structure DestEntryKern where
  addr : BitVec 32
  port : BitVec 16
  connFlags : BitVec 32
  weight : BitVec 32
  uThreshold : BitVec 32
  lThreshold : BitVec 32
  activeconns : BitVec 32
  inactconns : BitVec 32
  persistconns : BitVec 32
  stats : StatsUser
  deriving DecidableEq

/-! ## What libipvs returns -/

structure Stats64 where
  conns : BitVec 64
  inpkts : BitVec 64
  outpkts : BitVec 64
  inbytes : BitVec 64
  outbytes : BitVec 64
  cps : BitVec 64
  inpps : BitVec 64
  outpps : BitVec 64
  inbps : BitVec 64
  outbps : BitVec 64
  deriving DecidableEq

def Stats64.zero : Stats64 := ⟨0, 0, 0, 0, 0, 0, 0, 0, 0, 0⟩

/-- `ipvs_service_entry_t`. A name that takes up its whole array has no terminating NUL. -/
structure ServiceEntry where
  protocol : BitVec 16
  port : BitVec 16
  fwmark : BitVec 32
  schedName : Str
  flags : BitVec 32
  timeout : BitVec 32
  netmask : BitVec 32
  numDests : BitVec 32
  af : BitVec 16
  addr : NfInetAddr
  peName : Str
  stats64 : Stats64
  deriving DecidableEq

def ServiceEntry.zero : ServiceEntry := ⟨0, 0, 0, [], 0, 0, 0, 0, 0, .zero, [], .zero⟩

structure DestEntry where
  port : BitVec 16
  connFlags : BitVec 32
  weight : BitVec 32
  uThreshold : BitVec 32
  lThreshold : BitVec 32
  activeconns : BitVec 32
  inactconns : BitVec 32
  persistconns : BitVec 32
  af : BitVec 16
  addr : NfInetAddr
  stats64 : Stats64
  deriving DecidableEq

def DestEntry.zero : DestEntry := ⟨0, 0, 0, 0, 0, 0, 0, 0, 0, .zero, .zero⟩

/-- `struct ip_vs_get_services` with room for `capacity` entries in the block `block` of the heap;
    the entries are those below `num_services`. -/
structure GetServices where
  block : Nat
  capacity : Nat
  entrytable : List ServiceEntry

/-- There is no room for an entry behind the last one. -/
def GetServices.full (get : GetServices) : Bool := get.capacity ≤ get.entrytable.length

/-- The table with one more entry, in a block with room for another one. -/
def GetServices.grow (get : GetServices) (entry : ServiceEntry) (block : Nat) : GetServices :=
  ⟨block, get.entrytable.length + 2, get.entrytable ++ [entry]⟩

/-- `struct ip_vs_get_dests`. An entry that has not been written yet is `none`. -/
structure GetDests where
  block : Nat
  capacity : Nat
  af : BitVec 16
  entrytable : List (Option DestEntry)

def GetDests.full (d : GetDests) : Bool := d.capacity ≤ d.entrytable.length

def GetDests.grow (d : GetDests) (entry : DestEntry) (block : Nat) : GetDests :=
  ⟨block, d.entrytable.length + 2, d.af, d.entrytable ++ [some entry]⟩

end Ipvshttpd.Libipvs
