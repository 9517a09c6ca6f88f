import Ipvshttpd.LibipvsMeaning
import Ipvshttpd.LibipvsRecords
import Ipvshttpd.Resumption.Handler

/-!
# Clients of libipvs

What a program may call between `ipvs_init` and `ipvs_close`, and the rules that it keeps. A client
is a program over these calls, so that each of them may depend on the results of those before it.
-/

namespace Ipvshttpd.Libipvs

open CLib Netlink Resumption Lib

/-- The functions of libipvs, and what a client does with the blocks that they return. -/
inductive Api where
  /-- `ipvs_getinfo` -/
  | getinfo
  /-- `ipvs_version` -/
  | version
  /-- A function that changes the tables of the kernel. -/
  | command (c : Command)
  /-- `ipvs_get_services` -/
  | getServices
  /-- `ipvs_get_dests` -/
  | getDests (svc : ServiceEntry)
  /-- `ipvs_get_service` -/
  | getService (fwmark : BitVec 32) (af protocol : BitVec 16) (addr : NfInetAddr) (port : BitVec 16)
  /-- `ipvs_get_timeout` -/
  | getTimeout
  /-- `ipvs_get_daemon` -/
  | getDaemon
  /-- The client reads or writes a block. -/
  | access (block : Nat)
  /-- `free` -/
  | free (block : Nat)

/-- What the functions return; NULL is `none`. -/
abbrev Api.Answer : Api → Type
  | .getinfo | .command _ => Int
  | .version => BitVec 32
  | .getServices => Option GetServices
  | .getDests _ => Option GetDests
  | .getService _ _ _ _ _ => Option OneService
  | .getTimeout => Option (Nat × Timeouts)
  | .getDaemon => Option (Nat × DaemonUser × DaemonUser)
  | .access _ | .free _ => Unit

/-- What the entries of a table contain before they are written. -/
structure Fresh where
  /-- The entries for services. -/
  service : Nat → ServiceEntry
  /-- The entries for destinations. -/
  dest : Nat → DestEntry

/-- Every call of a client as a function of libipvs. -/
def Api.prog (nl : Libnl) (fresh : Fresh) : (a : Api) → Lib a.Answer
  | .getinfo => ipvsGetinfo nl
  | .version => ipvsVersion
  | .command c => c.prog
  | .getServices => ipvsGetServices nl fresh.service
  | .getDests svc => ipvsGetDests nl fresh.dest svc
  | .getService fwmark af protocol addr port => ipvsGetService nl fwmark af protocol addr port
  | .getTimeout => ipvsGetTimeout nl
  | .getDaemon => ipvsGetDaemon nl
  | .access block => Lib.access block
  | .free block => Lib.free (some block)

/-! ## The rules of a client -/

/-- What a client knows. -/
structure Ledger where
  /-- The blocks that it has been given and has not freed. -/
  owned : List Nat
  /-- How many of its calls have returned NULL instead of a block. -/
  nulls : Nat
  /-- The services that it has been told of. -/
  known : List ServiceEntry
  /-- Its commands with their results. -/
  log : List (Command × Int)

/-- What a client knows when it begins. -/
def Ledger.empty : Ledger := ⟨[], 0, [], []⟩

/-- After a function has returned a block, or NULL. -/
def Ledger.own (p : Ledger) : Option Nat → Ledger
  | some block => { p with owned := block :: p.owned }
  | none => { p with nulls := p.nulls + 1 }

/-- After a client has been told of services. -/
def Ledger.learn (p : Ledger) (entries : List ServiceEntry) : Ledger :=
  { p with known := p.known ++ entries }

/-- A client asks for the destinations of services that it has been told of, and uses and frees what
    it owns. -/
def apiRules : Monitor Api Api.Answer Ledger where
  allows p
    | .getDests svc => svc ∈ p.known
    | .access block | .free block => block ∈ p.owned
    | .getinfo | .version | .command _ | .getServices | .getService _ _ _ _ _ | .getTimeout
    | .getDaemon => True
  next p a r :=
    match a, r with
    | .command c, r => { p with log := p.log ++ [(c, r)] }
    | .getServices, r =>
      (p.own (r.map GetServices.block)).learn ((r.map GetServices.entrytable).getD [])
    | .getDests _, r => p.own (r.map GetDests.block)
    | .getService _ _ _ _ _, r =>
      (p.own (r.map OneService.block)).learn (r.bind OneService.entry).toList
    | .getTimeout, r => p.own (r.map Prod.fst)
    | .getDaemon, r => p.own (r.map Prod.fst)
    | .free block, _ => { p with owned := p.owned.erase block }
    | .getinfo, _ => p
    | .version, _ => p
    | .access _, _ => p

/-- The client between `ipvs_init` and `ipvs_close`. If `ipvs_init` fails, it does not begin. -/
def session {α : Type} (nl : Libnl) (fresh : Fresh) (client : Prog Api Api.Answer Fault α) :
    Lib (Option α) := do
  let r ← ipvsInit nl
  if r = 0 then do
    let a ← client.handle id (Api.prog nl fresh)
    ipvsClose
    pure (some a)
  else pure none

/-! ## What is delivered -/

/-- The requests of the commands that have returned 0. -/
def succeeded (useNl : Bool) (log : List (Command × Int)) : List Request :=
  log.filterMap fun e => if e.2 = 0 then e.1.meaning useNl else none

/-- The requests that the kernel gets from commands with the given results: a command that has
    returned 0 makes its request once, any other one makes it at most once. -/
inductive Delivered (useNl : Bool) : List (Command × Int) → List Request → Prop where
  /-- Nothing has been asked for. -/
  | nil : Delivered useNl [] []
  /-- A command has returned 0. -/
  | done {log : List (Command × Int)} {requests : List Request} (c : Command) (r : Request)
      (h : Delivered useNl log requests) (hmeaning : c.meaning useNl = some r) :
      Delivered useNl (log ++ [(c, 0)]) (requests ++ [r])
  /-- A command has failed, and its request has not come to the kernel. -/
  | lost {log : List (Command × Int)} {requests : List Request} (c : Command) {code : Int}
      (h : Delivered useNl log requests) (hcode : code ≠ 0) :
      Delivered useNl (log ++ [(c, code)]) requests
  /-- A command has failed, though the kernel has got its request. -/
  | unanswered {log : List (Command × Int)} {requests : List Request} (c : Command) (r : Request)
      {code : Int} (h : Delivered useNl log requests) (hcode : code ≠ 0)
      (hmeaning : c.meaning useNl = some r) :
      Delivered useNl (log ++ [(c, code)]) (requests ++ [r])

/-! ## Sessions -/

/-- A client that sets the timeouts and looks at them. -/
def tuneTimeouts (timeouts : Timeouts) : Prog Api Api.Answer Fault (Option Timeouts) :=
  .call (.command (.setTimeout timeouts)) fun _ => .call .getTimeout fun r =>
    match r with
    | none => .ret none
    | some t => .call (.access t.1) fun _ => .call (.free t.1) fun _ => .ret (some t.2)

/-- An environment without failures; its state is the number of the next object. -/
def calm : Env NlCall NlCall.Answer Nat := fun e n =>
  match e with
  | .nlmsgAlloc | .nlSocketAlloc | .malloc | .realloc _ | .socket => (.ok n, n + 1)
  | .nlaPut _ _ | .nlaNestStart _ _ | .setsockopt _ _ => (.ok (), n)
  | .genlConnect _ | .genlCtrlResolve _ | .nlSocketModifyCb _ | .nlSendAutoComplete _ _ =>
    ((0 : Int), n)
  | .nlRecvmsgsDefault _ => (([], 0), n)
  | .getsockopt _ _ => (.error einval, n)
  | .genlmsgPut _ _ _ _ | .nlaNestEnd _ | .nlmsgFree _ | .nlSocketFree _ | .access _ | .free _
  | .close _ => ((), n)

end Ipvshttpd.Libipvs
