import Ipvshttpd.IpVs
import Ipvshttpd.Resumption.Stateful

/-!
# The calls of libipvs

What `libipvs.c` asks of libnl, of the heap and of the kernel, and the variables of the file. A
function of libipvs is a program over these calls. Messages, sockets of libnl and blocks of the heap
are numbered; descriptors are those of `socket`.
-/

namespace Ipvshttpd.Libipvs

open CLib Netlink Resumption

/-! ## Variables -/

/-- The functions that `ipvs_func` may point to, each under its own name. -/
inductive IpvsFunc where
  /-- `ipvs_init` -/
  | init
  /-- `ipvs_getinfo`, without netlink -/
  | getinfo
  /-- `ipvs_add_service` -/
  | addService
  /-- `ipvs_update_service` -/
  | updateService
  /-- `ipvs_del_service` -/
  | delService
  /-- `ipvs_zero_service` -/
  | zeroService
  /-- `ipvs_add_dest` -/
  | addDest
  /-- `ipvs_update_dest` -/
  | updateDest
  /-- `ipvs_del_dest` -/
  | delDest
  /-- `ipvs_set_timeout` -/
  | setTimeout
  /-- `ipvs_start_daemon` -/
  | startDaemon
  /-- `ipvs_stop_daemon` -/
  | stopDaemon
  /-- `ipvs_get_services`, without netlink -/
  | getServices
  /-- `ipvs_get_dests` -/
  | getDests
  /-- `ipvs_get_service` -/
  | getService
  /-- `ipvs_get_timeout` -/
  | getTimeout
  /-- `ipvs_get_daemon` -/
  | getDaemon
  deriving DecidableEq

/-- The variables of `libipvs.c`, and `errno`. -/
structure Statics where
  /-- The raw socket; -1 is `none`. -/
  sockfd : Option Nat
  /-- The function that the next error is put down to. -/
  ipvsFunc : Option IpvsFunc
  /-- What the kernel has said about itself. -/
  ipvsInfo : GetInfo
  /-- The number of the netlink family, as it was resolved last. -/
  family : Int
  /-- Requests go over netlink. -/
  tryNl : Bool
  /-- The error of the last call that has failed. -/
  errno : Int

/-- The variables when the program starts. -/
def Statics.init : Statics := ⟨none, none, ⟨0, 0, 0⟩, 0, true, 0⟩

/-- What the code must not do with an attribute. -/
inductive ReadFault where
  /-- It reads an attribute that is not there. -/
  | missingAttribute
  /-- It reads past the end of a payload. -/
  | readPastPayload
  deriving DecidableEq

/-- What a C program must not do. -/
inductive Fault where
  /-- It follows a NULL pointer. -/
  | nullPointer
  /-- It writes past the end of a block. -/
  | writePastBlock
  /-- It reads what an attribute does not have. -/
  | read (fault : ReadFault)
  deriving DecidableEq

/-- A computation with the attributes of a message. -/
abbrev Read := Except ReadFault

/-! ## Calls -/

/-- The commands of `setsockopt`. -/
inductive SetOpt where
  /-- `IP_VS_SO_SET_FLUSH` -/
  | flush
  /-- `IP_VS_SO_SET_ADD` -/
  | add (svc : ServiceKern)
  /-- `IP_VS_SO_SET_EDIT` -/
  | edit (svc : ServiceKern)
  /-- `IP_VS_SO_SET_DEL` -/
  | del (svc : ServiceKern)
  /-- `IP_VS_SO_SET_ZERO` -/
  | zero (svc : ServiceKern)
  /-- `IP_VS_SO_SET_ADDDEST` -/
  | addDest (svc : ServiceKern) (dest : DestKern)
  /-- `IP_VS_SO_SET_EDITDEST` -/
  | editDest (svc : ServiceKern) (dest : DestKern)
  /-- `IP_VS_SO_SET_DELDEST` -/
  | delDest (svc : ServiceKern) (dest : DestKern)
  /-- `IP_VS_SO_SET_TIMEOUT` -/
  | timeout (timeouts : Timeouts)
  /-- `IP_VS_SO_SET_STARTDAEMON` -/
  | startDaemon (dm : DaemonKern)
  /-- `IP_VS_SO_SET_STOPDAEMON` -/
  | stopDaemon (dm : DaemonKern)
  deriving DecidableEq

/-- What a `getsockopt` for the destinations of a service says about the service. -/
structure DestsOf where
  /-- The firewall mark, or 0. -/
  fwmark : BitVec 32
  /-- The protocol, if there is no mark. -/
  protocol : BitVec 16
  /-- The IPv4 address, in network order. -/
  addr : BitVec 32
  /-- The port, in network order. -/
  port : BitVec 16

/-- The requests of `getsockopt`. -/
inductive GetOpt where
  /-- `IP_VS_SO_GET_INFO` -/
  | info
  /-- `IP_VS_SO_GET_SERVICES`, with the number of entries there is room for. -/
  | services (room : Nat)
  /-- `IP_VS_SO_GET_DESTS`, with the number of entries there is room for. -/
  | dests (svc : DestsOf) (room : Nat)
  /-- `IP_VS_SO_GET_SERVICE` -/
  | service (svc : ServiceKern)
  /-- `IP_VS_SO_GET_TIMEOUT` -/
  | timeout
  /-- `IP_VS_SO_GET_DAEMON` -/
  | daemon

/-- What `getsockopt` gives. A table has as many entries as the kernel says, whether there is room for
    them or not. -/
abbrev GetOpt.Data : GetOpt → Type
  | .info => GetInfo
  | .services _ => List ServiceEntryKern
  | .dests _ _ => List DestEntryKern
  | .service _ => ServiceEntryKern
  | .timeout => Timeouts
  | .daemon => DaemonKern × DaemonKern

/-- The kernel says that there are more entries than there was room for. -/
def GetOpt.overfull : (opt : GetOpt) → opt.Data → Bool
  | .services room, entries => room < entries.length
  | .dests _ room, entries => room < entries.length
  | .info, _ | .service _, _ | .timeout, _ | .daemon, _ => false

/-- The calls. An `access` is no call in the source: it stands for all that the code reads and writes
    of a block of the heap until the next call. -/
inductive NlCall where
  /-- `nlmsg_alloc` -/
  | nlmsgAlloc
  /-- `genlmsg_put` -/
  | genlmsgPut (msg : Nat) (family : Int) (flags cmd : Nat)
  /-- `nla_put` and its kin -/
  | nlaPut (msg : Nat) (a : Attr)
  /-- `nla_nest_start` -/
  | nlaNestStart (msg type : Nat)
  /-- `nla_nest_end` -/
  | nlaNestEnd (msg : Nat)
  /-- `nlmsg_free` -/
  | nlmsgFree (msg : Option Nat)
  /-- `nl_socket_alloc` -/
  | nlSocketAlloc
  /-- `genl_connect` -/
  | genlConnect (sock : Nat)
  /-- `genl_ctrl_resolve` for the family of IPVS -/
  | genlCtrlResolve (sock : Nat)
  /-- `nl_socket_modify_cb` for valid messages -/
  | nlSocketModifyCb (sock : Nat)
  /-- `nl_send_auto_complete` -/
  | nlSendAutoComplete (sock msg : Nat)
  /-- `nl_recvmsgs_default` -/
  | nlRecvmsgsDefault (sock : Nat)
  /-- `nl_socket_free` -/
  | nlSocketFree (sock : Nat)
  /-- `malloc` or `calloc` -/
  | malloc
  /-- `realloc` -/
  | realloc (block : Nat)
  /-- The block is read or written. -/
  | access (block : Nat)
  /-- `free`; NULL is `none`. -/
  | free (block : Option Nat)
  /-- `socket` -/
  | socket
  /-- `getsockopt` -/
  | getsockopt (fd : Option Nat) (opt : GetOpt)
  /-- `setsockopt` -/
  | setsockopt (fd : Option Nat) (opt : SetOpt)
  /-- `close` -/
  | close (fd : Option Nat)

/-- The answers: a call that fails leaves an `errno`. `nl_recvmsgs_default` delivers messages to the
    callback and returns a code if the callback accepts all of them. -/
abbrev NlCall.Answer : NlCall → Type
  | .nlmsgAlloc | .nlSocketAlloc | .malloc | .realloc _ | .socket => Except Int Nat
  | .nlaPut _ _ | .nlaNestStart _ _ | .setsockopt _ _ => Except Int Unit
  | .genlConnect _ | .genlCtrlResolve _ | .nlSocketModifyCb _ | .nlSendAutoComplete _ _ => Int
  | .nlRecvmsgsDefault _ => List Bytes × Int
  | .getsockopt _ opt => Except Int opt.Data
  | .genlmsgPut _ _ _ _ | .nlaNestEnd _ | .nlmsgFree _ | .nlSocketFree _ | .access _ | .free _
  | .close _ => Unit

/-- A function of libipvs. -/
abbrev Lib := Stateful Statics NlCall NlCall.Answer Fault

namespace Lib

/-- `errno = err` -/
def setErrno (err : Int) : Lib PUnit := modify fun v => { v with errno := err }

/-- `ipvs_func = func` -/
def setFunc (func : IpvsFunc) : Lib PUnit := modify fun v => { v with ipvsFunc := some func }

/-- A pointer or another result; NULL or a failure is `none`. -/
def ofAnswer {α : Type} : Except Int α → Lib (Option α)
  | .ok a => pure (some a)
  | .error err => do
    setErrno err
    pure none

/-- What has been read, or the fault that reading it is. -/
def ofRead {α : Type} : Read α → Lib α
  | .ok a => pure a
  | .error fault => Stateful.throw (.read fault)

/-- `nlmsg_alloc` -/
def nlmsgAlloc : Lib (Option Nat) := do ofAnswer (← Stateful.call NlCall.nlmsgAlloc)

/-- `genlmsg_put`, with the automatic port and sequence numbers. -/
def genlmsgPut (msg : Nat) (family : Int) (flags cmd : Nat) : Lib Unit :=
  Stateful.call (NlCall.genlmsgPut msg family flags cmd)

/-- `nla_put` -/
def nlaPut (msg : Nat) (a : Attr) : Lib (Option Unit) := do
  ofAnswer (← Stateful.call (NlCall.nlaPut msg a))

/-- `nla_nest_start` -/
def nlaNestStart (msg type : Nat) : Lib (Option Unit) := do
  ofAnswer (← Stateful.call (NlCall.nlaNestStart msg type))

/-- `nla_nest_end` -/
def nlaNestEnd (msg : Nat) : Lib Unit := Stateful.call (NlCall.nlaNestEnd msg)

/-- `nlmsg_free` -/
def nlmsgFree (msg : Option Nat) : Lib Unit := Stateful.call (NlCall.nlmsgFree msg)

/-- `nl_socket_alloc` -/
def nlSocketAlloc : Lib (Option Nat) := do ofAnswer (← Stateful.call NlCall.nlSocketAlloc)

/-- `genl_connect` -/
def genlConnect (sock : Nat) : Lib Int := Stateful.call (NlCall.genlConnect sock)

/-- `genl_ctrl_resolve` for the family of IPVS. -/
def genlCtrlResolve (sock : Nat) : Lib Int := Stateful.call (NlCall.genlCtrlResolve sock)

/-- `nl_socket_modify_cb` for the callback of valid messages. -/
def nlSocketModifyCb (sock : Nat) : Lib Int := Stateful.call (NlCall.nlSocketModifyCb sock)

/-- `nl_send_auto_complete` -/
def nlSendAutoComplete (sock msg : Nat) : Lib Int :=
  Stateful.call (NlCall.nlSendAutoComplete sock msg)

/-- `nl_recvmsgs_default`: the messages that come, and the code if the callback accepts them. -/
def nlRecvmsgsDefault (sock : Nat) : Lib (List Bytes × Int) :=
  Stateful.call (NlCall.nlRecvmsgsDefault sock)

/-- `nl_socket_free` -/
def nlSocketFree (sock : Nat) : Lib Unit := Stateful.call (NlCall.nlSocketFree sock)

/-- `malloc`, or `calloc`. -/
def malloc : Lib (Option Nat) := do ofAnswer (← Stateful.call NlCall.malloc)

/-- `realloc` -/
def realloc (block : Nat) : Lib (Option Nat) := do
  ofAnswer (← Stateful.call (NlCall.realloc block))

/-- The code reads or writes the block. -/
def access (block : Nat) : Lib Unit := Stateful.call (NlCall.access block)

/-- `free` -/
def free (block : Option Nat) : Lib Unit := Stateful.call (NlCall.free block)

/-- `socket(AF_INET, SOCK_RAW, IPPROTO_RAW)` -/
def socket : Lib (Option Nat) := do ofAnswer (← Stateful.call NlCall.socket)

/-- `getsockopt`; `none` is a failure. -/
def getsockopt (fd : Option Nat) (opt : GetOpt) : Lib (Option opt.Data) := do
  ofAnswer (← Stateful.call (NlCall.getsockopt fd opt))

/-- `setsockopt`; the result is 0 or -1. -/
def setsockopt (fd : Option Nat) (opt : SetOpt) : Lib Int := do
  match ← ofAnswer (← Stateful.call (NlCall.setsockopt fd opt)) with
  | some _ => pure 0
  | none => pure (-1)

/-- `close` -/
def close (fd : Option Nat) : Lib Unit := Stateful.call (NlCall.close fd)

end Lib

/-! ## What the calls do -/

/-- A message under construction. -/
structure NlMsg where
  /-- The family that the message is for. -/
  family : Int
  /-- The flags of its header. -/
  flags : Nat
  /-- Its command. -/
  cmd : Nat
  /-- The attributes that are complete. -/
  attrs : List Attr
  /-- The nested attribute that has not been ended, with the attributes in it. -/
  nest : Option (Nat × List Attr)

/-- A message when it has been allocated. -/
def NlMsg.blank : NlMsg := ⟨0, 0, 0, [], none⟩

/-- The message with one more attribute, inside the nested one that has not been ended. -/
def NlMsg.put (m : NlMsg) (a : Attr) : NlMsg :=
  match m.nest with
  | none => { m with attrs := m.attrs ++ [a] }
  | some (type, inner) => { m with nest := some (type, inner ++ [a]) }

/-- The message in a new nested attribute. -/
def NlMsg.nestStart (m : NlMsg) (type : Nat) : NlMsg := { m with nest := some (type, []) }

/-- The message behind the nested attribute. -/
def NlMsg.nestEnd (nl : Libnl) (m : NlMsg) : NlMsg :=
  match m.nest with
  | none => m
  | some (type, inner) =>
    { m with attrs := m.attrs ++ [⟨type, nl.stream inner⟩], nest := none }

/-- A command on its way to the kernel. -/
inductive Sent where
  /-- A netlink message. -/
  | netlink (m : NlMsg)
  /-- The argument of a `setsockopt`. -/
  | sockopt (opt : SetOpt)

/-- What is allocated, which descriptors are open, what the messages contain, and what has been sent
    and received. An allocation may answer with any number, also with one that is in use; where the
    numbers are fresh, as those of a real heap are, `blocks` are the blocks that may be used. -/
structure NlHeap where
  /-- The messages that have not been released. -/
  msgs : List Nat
  /-- The sockets of libnl that have not been released. -/
  socks : List Nat
  /-- The blocks that have not been released, but for the orphans. -/
  blocks : List Nat
  /-- The blocks whose reallocation has failed: they are still allocated, but the code has overwritten
      its pointer to them with NULL. -/
  orphans : List Nat
  /-- The descriptors that are open. -/
  fds : List Nat
  /-- What the messages contain. -/
  content : Nat → NlMsg
  /-- What has been sent. -/
  sent : List Sent
  /-- What the kernel has answered, and whether the answer was free of errors. -/
  answered : List (Sent × Bool)
  /-- The messages of the kernel. -/
  received : List Bytes
  /-- The messages of the kernel that end in no error, with the command that they answer. -/
  heard : List (Option Sent × List Bytes)
  /-- A `getsockopt` has answered with more entries than there was room for. -/
  overfull : Bool

namespace NlHeap

/-- Nothing is allocated, and nothing has been sent. -/
def empty : NlHeap := ⟨[], [], [], [], [], fun _ => .blank, [], [], [], [], false⟩

/-- After `nlmsg_alloc`. -/
def allocMsg (q : NlHeap) (msg : Nat) : NlHeap :=
  { q with msgs := msg :: q.msgs, content := Function.update q.content msg .blank }

/-- Changes the contents of a message. -/
def edit (q : NlHeap) (msg : Nat) (f : NlMsg → NlMsg) : NlHeap :=
  { q with content := Function.update q.content msg (f (q.content msg)) }

/-- After `nlmsg_free`, which does nothing with NULL. -/
def freeMsg (q : NlHeap) : Option Nat → NlHeap
  | some msg => { q with msgs := q.msgs.erase msg }
  | none => q

/-- After `nl_socket_alloc`. -/
def allocSock (q : NlHeap) (sock : Nat) : NlHeap := { q with socks := sock :: q.socks }

/-- After `nl_socket_free`. -/
def freeSock (q : NlHeap) (sock : Nat) : NlHeap := { q with socks := q.socks.erase sock }

/-- After `malloc`. -/
def allocBlock (q : NlHeap) (block : Nat) : NlHeap := { q with blocks := block :: q.blocks }

/-- After `free`, which does nothing with NULL. -/
def freeBlock (q : NlHeap) : Option Nat → NlHeap
  | some block => { q with blocks := q.blocks.erase block }
  | none => q

/-- After a `realloc` that has failed. -/
def orphan (q : NlHeap) (block : Nat) : NlHeap :=
  { q with blocks := q.blocks.erase block, orphans := block :: q.orphans }

/-- After `socket`. -/
def openFd (q : NlHeap) (fd : Nat) : NlHeap := { q with fds := fd :: q.fds }

/-- After `close`; -1 is not closed. -/
def closeFd (q : NlHeap) : Option Nat → NlHeap
  | some fd => { q with fds := q.fds.erase fd }
  | none => q

/-- After a message has been sent. -/
def send (q : NlHeap) (s : Sent) : NlHeap := { q with sent := q.sent ++ [s] }

/-- The messages of the kernel, and what it says about the message that was sent last. -/
def receive (q : NlHeap) (answer : List Bytes × Int) : NlHeap :=
  { q with
    received := q.received ++ answer.1
    heard := if answer.2 < 0 then q.heard else q.heard ++ [(q.sent.getLast?, answer.1)]
    answered := q.answered ++ q.sent.getLast?.toList.map fun s => (s, decide (0 ≤ answer.2)) }

/-- After a command that the kernel has carried out at once. -/
def carryOut (q : NlHeap) (s : Sent) : NlHeap :=
  { q with sent := q.sent ++ [s], answered := q.answered ++ [(s, true)] }

/-- After a `getsockopt` that has succeeded. -/
def gets (q : NlHeap) (opt : GetOpt) (data : opt.Data) : NlHeap :=
  { q with overfull := q.overfull || opt.overfull data }

end NlHeap

/-- The rules of libnl and of the heap: only what is allocated is used and released, and a block neither
    read nor written after it has been released; only open descriptors are closed, and a message is
    sent when all of its nested attributes have been ended. -/
def nlRules (nl : Libnl) : Monitor NlCall NlCall.Answer NlHeap where
  allows q
    | .genlmsgPut msg _ _ _ | .nlaPut msg _ => msg ∈ q.msgs
    | .nlaNestStart msg _ => msg ∈ q.msgs ∧ (q.content msg).nest = none
    | .nlaNestEnd msg => msg ∈ q.msgs ∧ (q.content msg).nest ≠ none
    | .nlmsgFree msg => ∀ i ∈ msg, i ∈ q.msgs
    | .genlConnect sock | .genlCtrlResolve sock | .nlSocketModifyCb sock
    | .nlRecvmsgsDefault sock | .nlSocketFree sock => sock ∈ q.socks
    | .nlSendAutoComplete sock msg =>
      sock ∈ q.socks ∧ msg ∈ q.msgs ∧ (q.content msg).nest = none
    | .realloc block | .access block => block ∈ q.blocks
    | .free block => ∀ i ∈ block, i ∈ q.blocks
    | .close fd => ∀ i ∈ fd, i ∈ q.fds
    | .nlmsgAlloc | .nlSocketAlloc | .malloc | .socket | .getsockopt _ _ | .setsockopt _ _ => True
  next q e r :=
    match e, r with
    | .nlmsgAlloc, .ok msg => q.allocMsg msg
    | .genlmsgPut msg family flags cmd, _ =>
      q.edit msg fun m => { m with family := family, flags := flags, cmd := cmd }
    | .nlaPut msg a, .ok _ => q.edit msg (·.put a)
    | .nlaNestStart msg type, .ok _ => q.edit msg (·.nestStart type)
    | .nlaNestEnd msg, _ => q.edit msg (·.nestEnd nl)
    | .nlmsgFree msg, _ => q.freeMsg msg
    | .nlSocketAlloc, .ok sock => q.allocSock sock
    | .nlSocketFree sock, _ => q.freeSock sock
    | .nlSendAutoComplete _ msg, (r : Int) =>
      if r < 0 then q else q.send (.netlink (q.content msg))
    | .nlRecvmsgsDefault _, (r : List Bytes × Int) => q.receive r
    | .malloc, .ok block => q.allocBlock block
    | .realloc block, .ok block' => (q.freeBlock (some block)).allocBlock block'
    | .realloc block, .error _ => q.orphan block
    | .free block, _ => q.freeBlock block
    | .socket, .ok fd => q.openFd fd
    | .close fd, _ => q.closeFd fd
    | .getsockopt _ opt, .ok data => q.gets opt data
    | .setsockopt _ opt, .ok _ => q.carryOut (.sockopt opt)
    | _, _ => q

end Ipvshttpd.Libipvs
