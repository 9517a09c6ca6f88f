import Ipvshttpd.LibipvsClient
import Ipvshttpd.Threads

/-!
# A kernel under libipvs

A kernel carries out the requests that are sent to it, or refuses them, and says which; and it
describes its tables to those who ask over netlink. Everything else that libipvs asks of its
environment, from allocating a message to resolving the family, may fail at any time, and so may
receiving the answer: a request whose answer is an error has been refused, or has been carried out
without libipvs being told.
-/

namespace Ipvshttpd.Libipvs

open CLib Netlink Resumption

/-- What the kernel makes of its tables when it gets a request; `none` if it refuses the request. -/
abbrev Kernel (K : Type) := Request → K → Option K

/-- What has been allocated and sent, the tables of the kernel, and the state of everything else. -/
structure Machine (K S : Type) where
  /-- What has been allocated and sent. -/
  heap : NlHeap
  /-- The tables of the kernel. -/
  tables : K
  /-- The state of everything else. -/
  rest : S

variable {K S : Type}

/-- The code of a refusal: the one that the environment gives, if it is one. -/
def refusal (code : Int) : Int := if code < 0 then code else -1

/-- The `errno` after a refusal: the one that the environment gives, or EINVAL. -/
def refusalErrno : Except Int Unit → Int
  | .ok _ => einval
  | .error err => err

/-! ## Queries -/

/-- What a message asks the kernel to describe. -/
inductive Query where
  /-- All services. -/
  | services
  /-- One service. -/
  | service (key : ServiceKey)
  /-- The destinations of a service. -/
  | dests (key : ServiceKey)
  /-- The timeouts. -/
  | timeouts
  /-- The daemons that run. -/
  | daemons

/-- The service that a message names. -/
def NlMsg.serviceKey (nl : Libnl) (m : NlMsg) : Option ServiceKey := do
  let attrs ← nl.nlaParse ipvsCmdAttrMax ipvsCmdPolicy (nl.stream m.attrs)
  readServiceKey (← nested nl ipvsSvcAttrMax ipvsServicePolicy (attrs ipvsCmdAttrService))

/-- The query that has been sent; a `getsockopt` is not sent as a message. -/
def Sent.query (nl : Libnl) : Sent → Option Query
  | .netlink m =>
    if m.cmd = ipvsCmdGetService then
      if m.flags = nlmFDump then some .services else (m.serviceKey nl).map .service
    else if m.cmd = ipvsCmdGetDest then (m.serviceKey nl).map .dests
    else if m.cmd = ipvsCmdGetTimeout then some .timeouts
    else if m.cmd = ipvsCmdGetDaemon then some .daemons
    else none
  | .sockopt _ => none

/-- What a kernel tells about its tables. At most two daemons run. -/
structure View (K : Type) where
  /-- The services with their counters. -/
  services : K → List (ServiceUser × Stats64)
  /-- The service that a key names, if there is one. -/
  service : K → ServiceKey → Option (ServiceUser × Stats64)
  /-- The destinations of a service, with their connections and counters. -/
  dests : K → ServiceKey → List (Dest × Connections × Stats64)
  /-- The timeouts. -/
  timeouts : K → Timeouts
  /-- The daemons that run: the master and the backup. -/
  daemons : K → List DaemonArg
  /-- There is one of each kind at most. -/
  few : ∀ k, (daemons k).length ≤ 2
  /-- A daemon that runs has a state. -/
  running : ∀ k, ∀ dm ∈ daemons k, dm.state ≠ 0

namespace View

variable (nl : Libnl) (view : View K)

/-- The messages that describe what is asked for. -/
def messages (k : K) : Query → List Bytes
  | .services => (view.services k).map fun s => serviceMessage nl s.1 s.2
  | .service key => (view.service k key).toList.map fun s => serviceMessage nl s.1 s.2
  | .dests key => (view.dests k key).map fun d => destMessage nl d.1 d.2.1 d.2.2
  | .timeouts => [timeoutMessage nl (view.timeouts k)]
  | .daemons => (view.daemons k).map (daemonMessage nl)

/-- The answer to what has been sent last, if it is a query; the environment may make it an error. -/
def answer (k : K) (asked : Option Sent) (base : List Bytes × Int) : List Bytes × Int :=
  match asked.bind (Sent.query nl) with
  | some query => if base.2 < 0 then base else (view.messages nl k query, base.2)
  | none => base

/-- The messages describe what has been asked for. -/
def Tells (k : K) (heard : Option Sent × List Bytes) : Prop :=
  ∀ query ∈ heard.1.bind (Sent.query nl), heard.2 = view.messages nl k query

end View

/-! ## The machine -/

/-- The environment `base` with a kernel in it. A message that makes a request has been dealt with
    when the answer is read, and so has one that makes a query. If the kernel has refused a request the
    answer is an error; if it has carried the request out the answer is that of the environment, which
    may be an error too. A `setsockopt` that fails in the environment does not reach the kernel. -/
def machine (nl : Libnl) (kernel : Kernel K) (view : View K) (base : Env NlCall NlCall.Answer S) :
    Env NlCall NlCall.Answer (Machine K S) := fun e m =>
  match e with
  | .nlRecvmsgsDefault sock =>
    let answer := base (.nlRecvmsgsDefault sock) m.rest
    match m.heap.sent.getLast?.bind (Sent.request nl) with
    | none =>
      let told := view.answer nl m.tables m.heap.sent.getLast? answer.1
      (told, ⟨m.heap.receive told, m.tables, answer.2⟩)
    | some request =>
      match kernel request m.tables with
      | some tables => (answer.1, ⟨m.heap.receive answer.1, tables, answer.2⟩)
      | none =>
        let refused := (answer.1.1, refusal answer.1.2)
        (refused, ⟨m.heap.receive refused, m.tables, answer.2⟩)
  | .setsockopt fd opt =>
    let answer := base (.setsockopt fd opt) m.rest
    match answer.1, opt.request.bind (kernel · m.tables) with
    | .ok _, some tables => (.ok (), ⟨m.heap.carryOut (.sockopt opt), tables, answer.2⟩)
    | result, _ => (.error (refusalErrno result), ⟨m.heap, m.tables, answer.2⟩)
  | e =>
    let answer := base e m.rest
    (answer.1, ⟨(nlRules nl).next m.heap e answer.1, m.tables, answer.2⟩)

/-- Receiving an answer may fail in the environment. -/
def Loses (base : Env NlCall NlCall.Answer S) : Prop :=
  ∃ sock s, (base (.nlRecvmsgsDefault sock) s).1.2 < 0

/-- The tables `k` become `k'` when the kernel gets the requests one after the other, each with what it
    has answered; `loses` if an answer may get lost. -/
inductive Kernel.Handles (kernel : Kernel K) (loses : Prop) : List (Request × Bool) → K → K → Prop where
  /-- There is nothing to be done. -/
  | nil (k : K) : Handles kernel loses [] k k
  /-- A request is carried out. It is confirmed, unless the answer is lost. -/
  | carried {k k' k'' : K} {request : Request} {confirmed : Bool}
      {handled : List (Request × Bool)} (hkernel : kernel request k = some k')
      (hlost : confirmed = false → loses) (h : Handles kernel loses handled k' k'') :
      Handles kernel loses ((request, confirmed) :: handled) k k''
  /-- A request is refused, and the tables stay as they are. -/
  | refused {k k' : K} {request : Request} {handled : List (Request × Bool)}
      (hkernel : kernel request k = none) (h : Handles kernel loses handled k k') :
      Handles kernel loses ((request, false) :: handled) k k'

/-- The kernel of the IPVS table, which edits a destination that exists; `other` are the requests that
    do not edit destinations. -/
def tableKernel (other : Kernel Table) : Kernel Table
  | .setDest cmd, t => if cmd.Applicable t then some (cmd.apply t) else none
  | request, t => other request t

/-! ## The functions of libipvs as operations on the tables -/

/-- The records of a pair of daemons; the second one is empty if there is only one. -/
def daemonPair : List DaemonArg → DaemonUser × DaemonUser
  | [] => (.zero, .zero)
  | [dm] => (dm.back, .zero)
  | dm :: dm' :: _ => (dm.back, dm'.back)

/-- What a client is shown of the tables if a function that returns a block has succeeded. -/
def Api.Shows (view : View K) (k : K) : (a : Api) → a.Answer → Prop
  | .getServices, r =>
    ∀ get ∈ r, get.entrytable = (view.services k).map fun s => s.1.entry s.2
  | .getDests svc, r =>
    let key := Command.serviceKey true
      (serviceQuery svc.fwmark svc.af svc.protocol svc.addr svc.port)
    ∀ d ∈ r, d.entrytable = (view.dests k key).map fun d => some (destEntryOf d.1 d.2.1 d.2.2.low)
  | .getService fwmark af protocol addr port, r =>
    let key := Command.serviceKey true (serviceQuery fwmark af protocol addr port)
    ∀ one ∈ r, one.entry = (view.service k key).map fun s => s.1.entry s.2
  | .getTimeout, r => ∀ t ∈ r, t.2 = view.timeouts k
  | .getDaemon, r => ∀ u ∈ r, u.2 = daemonPair (view.daemons k)
  | .getinfo, _ | .version, _ | .command _, _ | .access _, _ | .free _, _ => True

/-- A command as one step of the tables. If it returns 0 it has been carried out. If it returns -1 it
    has changed nothing, or over netlink it has been carried out and the answer has got lost. -/
def Command.sem (kernel : Kernel K) (loses : Prop) (useNl : Bool) (c : Command) (k : K) (r : Int)
    (k' : K) : Prop :=
  (r = 0 ∧ ∃ request, c.meaning useNl = some request ∧ kernel request k = some k') ∨
    (r = -1 ∧ (k' = k ∨ (useNl = true ∧ loses ∧
      ∃ request, c.meaning useNl = some request ∧ kernel request k = some k')))

/-- A function of libipvs as one step of the tables. The functions that are no commands change nothing,
    and over netlink they show the tables as they are. -/
def Api.sem (kernel : Kernel K) (view : View K) (loses : Prop) (useNl : Bool) (a : Api) (k : K)
    (r : a.Answer) (k' : K) : Prop :=
  match a, r with
  | .command c, r => c.sem kernel loses useNl k r k'
  | a, r => k' = k ∧ (useNl = true → a.Shows view k r)

/-! ## A kernel that knows timeouts only -/

/-- It sets the timeouts, and refuses everything else. -/
def timeoutKernel : Kernel Timeouts
  | .setTimeout timeouts, _ => some timeouts
  | _, _ => none

/-- It describes the timeouts; there is nothing else. -/
def timeoutView : View Timeouts where
  services _ := []
  service _ _ := none
  dests _ _ := []
  timeouts := id
  daemons _ := []
  few _ := Nat.zero_le _
  running _ _ h := by cases h

end Ipvshttpd.Libipvs
