import Ipvshttpd.Destination
import Ipvshttpd.Threads
import Ipvshttpd.Verdict

/-!
# What concurrent requests are meant to do

Properties of a server in the middle of a schedule, in terms of what every handler has done so far
(`localTrace`).
-/

namespace Ipvshttpd

open CLib Resumption

variable {ι : Type} [DecidableEq ι]

/-- The request handlers of a server, and what they share. -/
abbrev Server (ι : Type) := Config ι Call Call.Answer Exn Unit (Shared ι)

/-- The server `c` is reached from one that has begun none of the requests `req`, by some schedule. -/
def Server.Reached (useNl : Bool) (jc : Jsoncpp) (libc : Libc) (config : ConfigurationManager)
    (t : Table) (req : ι → Request) (c : Server ι) : Prop :=
  Reach (callSem useNl) (serverInit jc libc config t req) c

/-! ## Locks -/

/-- A mutex is held only by a handler that still executes between its own `lock` and `unlock`, so a
    handler that has ended holds none. -/
structure LockDiscipline (c : Server ι) : Prop where
  /-- The owner of a mutex has not ended and has taken it itself. -/
  inSection : ∀ m i, c.shared.owner m = some i →
    ¬ (c.progs i).Ended ∧ mutexOps.held (localTrace i c.hist) m = true
  /-- A handler that has ended holds no mutex. -/
  ended : ∀ m i, (c.progs i).Ended → c.shared.owner m ≠ some i
  /-- When all handlers have ended, all mutexes are free. -/
  allEnded : (∀ i, (c.progs i).Ended) → ∀ m, c.shared.owner m = none

/-- The request makes its handler leave the critical section by an exception: it is admitted, and its
    host does not convert to a string or the connection breaks while the reply is written. -/
def Request.Leaks (jc : Jsoncpp) (config : ConfigurationManager) (r : Request) : Prop :=
  ∃ ms, jc.parse r.body = some (.object ms) ∧ Admits config.mApiKey ms ∧
    ((field ms "host").hasString = false ∨ ∃ op, r.conn.raises op = true)

/-! ## Replies -/

/-- The handler is inside `set_weight`: it has entered it and not left it since. -/
def insideSetWeight (tr : List CallEvent) : Bool :=
  tr.foldl (fun inside ev =>
    match ev.1 with
    | .enterSetWeight _ _ _ => true
    | .leaveSetWeight _ => false
    | _ => inside) false

/-- The calls of functions that are not reentrant: the resolver and libipvs. -/
def Call.IsNonReentrant : Call → Prop
  | .gethostbyname _ | .getservbyname _ _ | .updateDest _ _ => True
  | _ => False

/-- The reply to a request that has been carried out. -/
def okReply : Reply := ⟨some .ok, responseHeaders, okText⟩

/-- The handler has replied ok. -/
def RepliedOk (tr : List CallEvent) : Prop := okReply ∈ (summarize tr).replies

instance (tr : List CallEvent) : Decidable (RepliedOk tr) :=
  inferInstanceAs (Decidable (okReply ∈ (summarize tr).replies))

/-- The handler has replied with an error. -/
def RepliedError (tr : List CallEvent) : Prop :=
  ∃ message status, status ≠ .ok ∧
    ⟨some status, responseHeaders, errorText message⟩ ∈ (summarize tr).replies

/-- A call of `ipvs_update_dest` by the handler has returned 0. -/
def UpdateSucceeded (tr : List CallEvent) : Prop :=
  ∃ svc dest, ⟨.updateDest svc dest, (0 : Int)⟩ ∈ tr

/-- The destination that the handler has tried to update. -/
def addressed (useNl : Bool) (tr : List CallEvent) : Option (ServiceKey × DestKey) :=
  tr.findSome? fun ev =>
    match ev.1 with
    | .updateDest svc dest =>
      (ipvsUpdateDest useNl svc dest).map fun cmd => (cmd.service, cmd.dest)
    | _ => none

/-- The host and the weight with which the handler of a request calls `set_weight`. -/
def requestedUpdate (jc : Jsoncpp) (config : ConfigurationManager) (body : Str) :
    Option (Str × Int) :=
  match verdict jc config body with
  | .grant hostname kernels =>
    match hostname.asString jc, kernels.asInt with
    | .ok host, .ok weight => some (host, weight)
    | _, _ => none
  | _ => none

/-- After the calls `before` of the handler, an update of `dest` in `svc` is the one that its request
    asks for: all that the handler has done since it has entered `set_weight` is to parse the virtual
    address of the configuration and the host of the request, and these give the service and the
    destination. -/
def UpdateNamed (jc : Jsoncpp) (libc : Libc) (config : ConfigurationManager) (body : Str)
    (before : List CallEvent) (svc : Service) (dest : Dest) : Prop :=
  ∃ host weight start vipCalls hostCalls v d,
    requestedUpdate jc config body = some (host, weight) ∧
    before = start ++ ⟨.enterSetWeight (cStr config.getVip) host weight, ()⟩ ::
      (vipCalls ++ hostCalls) ∧
    (mParseService libc (cStr config.getVip) blankService).Steps vipCalls (.ret v) ∧
    (mParseService libc host blankService).Steps hostCalls (.ret d) ∧
    v.HasAddr ∧ d.HasAddr ∧ v.svc.port ≠ 0 ∧ Targets v d weight svc dest

/-- The handler that was the last one in lock order to reply ok to a request for a destination. -/
def lastOk (useNl : Bool) (c : Server ι) (sk : ServiceKey) (dk : DestKey) : Option ι :=
  ((mutexOps.order .ipvs c.hist).filter fun i =>
    decide (RepliedOk (localTrace i c.hist)) &&
      decide (addressed useNl (localTrace i c.hist) = some (sk, dk))).getLast?

/-- The replies agree with the kernel, whose table was `t` at first. -/
structure RepliesAgree (useNl : Bool) (jc : Jsoncpp) (libc : Libc) (config : ConfigurationManager)
    (t : Table) (req : ι → Request) (c : Server ι) : Prop where
  /-- At most one handler at a time is inside `set_weight`. -/
  exclusive : ∀ i j, insideSetWeight (localTrace i c.hist) = true →
    insideSetWeight (localTrace j c.hist) = true → i = j
  /-- A function that is not reentrant is only called inside `set_weight`. -/
  inside : ∀ i e k, c.progs i = .call e k → e.IsNonReentrant →
    insideSetWeight (localTrace i c.hist) = true
  /-- The destination of an update is the one that the request of the handler names, and its weight
      the one that the request asks for. -/
  named : ∀ i before svc dest r after,
    localTrace i c.hist = before ++ ⟨.updateDest svc dest, r⟩ :: after →
      UpdateNamed jc libc config (req i).body before svc dest
  /-- A handler that has returned has replied once. -/
  once : ∀ i, c.progs i = .ret () → (summarize (localTrace i c.hist)).replies.length = 1
  /-- A handler that has replied has replied ok if and only if its own update has returned 0. -/
  okIff : ∀ i, (summarize (localTrace i c.hist)).replies ≠ [] →
    (RepliedOk (localTrace i c.hist) ↔ UpdateSucceeded (localTrace i c.hist))
  /-- A handler that has replied has replied with an error if it has not replied ok. -/
  okOrError : ∀ i, (summarize (localTrace i c.hist)).replies ≠ [] →
    (RepliedError (localTrace i c.hist) ↔ ¬ RepliedOk (localTrace i c.hist))
  /-- No step of a handler that replies with an error has changed the table. -/
  errorKeeps : ∀ i, RepliedError (localTrace i c.hist) →
    ∀ en ∈ c.hist, en.tid = i → en.post.table = en.pre.table
  /-- When all handlers have returned, the mutex is free. -/
  free : (∀ i, c.progs i = .ret ()) → c.shared.owner .ipvs = none
  /-- Whenever the mutex is free, the weight of a destination is the number of kernels in the last
  request for it that was replied ok. -/
  final : c.shared.owner .ipvs = none → ∀ sk dk,
    (c.shared.table.lookup sk dk).map Record.weight =
      match lastOk useNl c sk dk with
      | some i => requestedWeight jc config (req i).body
      | none => (t.lookup sk dk).map Record.weight

end Ipvshttpd
