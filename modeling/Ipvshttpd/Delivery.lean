import Ipvshttpd.LibipvsMeaning
import Ipvshttpd.Protocol
import Ipvshttpd.Resumption.Handler

/-!
# A request handler with libipvs under it

The request handler and `set_weight` call `ipvs_update_dest`; here this call is carried out by the
function of `libipvs.c`, down to the messages of netlink. What remains of the handler's calls and the
calls of libipvs are watched side by side.
-/

namespace Ipvshttpd

open CLib Resumption

/-- The service as it is handed to libipvs; the timeout is 0 after `memset`. Names that do not fit
    their arrays cannot be handed over. -/
def Service.toUser (svc : Service) : Option Libipvs.ServiceUser :=
  if h : Libipvs.FitsName svc.schedName ∧ Libipvs.FitsName svc.peName then
    some ⟨svc, 0, h.1, h.2⟩
  else none

/-- An exception of the handler, or a fault of libipvs. -/
abbrev Failure := Exn ⊕ Libipvs.Fault

/-- Code that makes calls of the handler and of libnl and has the variables of libipvs. -/
abbrev Full := Stateful Libipvs.Statics (Call ⊕ Libipvs.NlCall)
  (SumAnswer Call.Answer Libipvs.NlCall.Answer) Failure

/-- Carries a call of the handler out: that of `ipvs_update_dest` by libipvs. -/
def carryOut : (e : Call) → Full e.Answer
  | .updateDest svc dest =>
    match svc.toUser with
    | some user => (Libipvs.ipvsUpdateDest user dest).inr Sum.inr
    | none => Stateful.throw (Sum.inr .writePastBlock)
  | e => Stateful.call (Sum.inl e)

/-- `handle_post_request` with libipvs under it. -/
def fullPostRequest (jc : Jsoncpp) (libc : Libc) (config : ConfigurationManager)
    (conn : Connection) (requestBody : Str) : Full Unit :=
  (handlePostRequest jc libc config conn requestBody).handle Sum.inl carryOut

/-- The calls of the handler are recorded, and those of libipvs follow their rules. -/
def fullRules (nl : Netlink.Libnl) :
    Monitor (Call ⊕ Libipvs.NlCall) (SumAnswer Call.Answer Libipvs.NlCall.Answer)
      (List CallEvent × Libipvs.NlHeap) :=
  Monitor.history.sum (Libipvs.nlRules nl)

/-- What a handler with the requested weight `weight` leaves. Nothing that libipvs has allocated
    remains. If the client has been told that all went well, the kernel has got one request with that
    weight and has confirmed it; if the client has been told of an error, the kernel has confirmed
    nothing; and in no case has it got more than one request. -/
structure HandlerEnd (nl : Netlink.Libnl) (useNl : Bool) (weight : Option Int) (q₀ : Libipvs.NlHeap)
    (tr : List CallEvent) (q : Libipvs.NlHeap) : Prop where
  /-- No message is left. -/
  msgs : q.msgs = q₀.msgs
  /-- No socket of libnl is left. -/
  socks : q.socks = q₀.socks
  /-- No descriptor is left. -/
  fds : q.fds = q₀.fds
  /-- No block is left. -/
  blocks : q.blocks = q₀.blocks
  /-- A client that has been told ok: the kernel has got the request and has confirmed it. -/
  ok : RepliedOk tr → ∃ cmd : SetDest, some cmd.record.weight = weight ∧
    q.told nl = (q₀.requests nl ++ [.setDest cmd], q₀.carriedOut nl ++ [.setDest cmd])
  /-- A client that has been told of an error: the kernel has confirmed nothing. -/
  error : RepliedError tr → q.carriedOut nl = q₀.carriedOut nl
  /-- The kernel has got at most one request. -/
  once : q.requests nl = q₀.requests nl ∨ ∃ cmd : SetDest, some cmd.record.weight = weight ∧
    q.requests nl = q₀.requests nl ++ [.setDest cmd]

end Ipvshttpd
