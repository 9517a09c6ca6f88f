import Ipvshttpd.RequestHandler

/-!
# What a request does

The observations of a run of a request handler that its specification speaks about: the replies it
writes, its calls of `set_weight`, and everything that is visible from outside of the process.
-/

namespace Ipvshttpd

open CLib Resumption

/-- A reply: the status and the headers in force when the text was written. -/
structure Reply where
  /-- The status, if one has been set. -/
  status : Option Status
  /-- The headers. -/
  headers : List (Str × Str)
  /-- The text. -/
  text : Str
  deriving DecidableEq

/-- The arguments of a call of `set_weight`. -/
structure SetWeightArgs where
  /-- Virtual IP host and port. -/
  vip : Str
  /-- Server host and port. -/
  server : Str
  /-- Weight to set for server. -/
  weight : Int
  deriving DecidableEq

/-- The replies and the calls of `set_weight` of a run. -/
structure Summary where
  /-- The status that is in force. -/
  status : Option Status
  /-- The headers that are in force. -/
  headers : List (Str × Str)
  /-- The replies written so far. -/
  replies : List Reply
  /-- The calls of `set_weight` made so far. -/
  setWeightCalls : List SetWeightArgs
  deriving DecidableEq

/-- Before a handler has done anything. -/
def Summary.init : Summary := ⟨none, [], [], []⟩

/-- What a call adds to a summary. -/
def Summary.next (q : Summary) : Call → Summary
  | .setStatus status => { q with status := some status }
  | .setHeaders headers => { q with headers := headers }
  | .write text => { q with replies := q.replies ++ [⟨q.status, q.headers, text⟩] }
  | .enterSetWeight vip server weight =>
    { q with setWeightCalls := q.setWeightCalls ++ [⟨vip, server, weight⟩] }
  | _ => q

/-- The monitor that makes the summary of a run. -/
def summary : Monitor Call Call.Answer Summary where
  allows _ _ := True
  next q e _ := q.next e

/-- The summary of a run. -/
def summarize (tr : List CallEvent) : Summary := summary.after .init tr

/-- What can be seen of a process from outside. -/
inductive Observable where
  /-- A status is set. -/
  | status (status : Status)
  /-- Headers are set. -/
  | headers (headers : List (Str × Str))
  /-- A text is written to the client. -/
  | body (text : Str)
  /-- A message appears on a sink. -/
  | output (out : LogOutput)
  /-- The kernel is asked to update a destination. -/
  | kernel (svc : Service) (dest : Dest)
  deriving DecidableEq

/-- What can be seen of a call. -/
def Call.observe (g : LogSettings) : Call → List Observable
  | .log c => (c.output g).map .output
  | .setStatus status => [.status status]
  | .setHeaders headers => [.headers headers]
  | .write text => [.body text]
  | .updateDest svc dest => [.kernel svc dest]
  | _ => []

/-- What can be seen of a run. -/
def observe (g : LogSettings) (tr : List CallEvent) : List Observable :=
  tr.flatMap fun ev => ev.1.observe g

/-! ## Environments -/

/-- A name service. -/
structure Resolver where
  /-- The addresses of the hosts. -/
  gethostbyname : Str → Option Hostent
  /-- The ports of the services. -/
  getservbyname : Str → Str → Option (BitVec 16)

/-- The answers if the kernel refuses all commands. -/
def Resolver.answer (rs : Resolver) : (e : Call) → Call.Answer e
  | .gethostbyname name => rs.gethostbyname name
  | .getservbyname name proto => rs.getservbyname name proto
  | .updateDest _ _ => (-1 : Int)
  | .lock _ | .unlock _ | .log _ | .setStatus _ | .setHeaders _ | .write _
  | .enterSetWeight _ _ _ | .leaveSetWeight _ => ()

/-- The environment of a handler that runs alone: a name service and the table of the kernel. -/
def kernelEnv (useNl : Bool) (rs : Resolver) : Env Call Call.Answer Table := fun e t =>
  match e with
  | .updateDest svc dest => kernelUpdateDest useNl t svc dest
  | e => (rs.answer e, t)

/-- A name service that knows no names. -/
def Resolver.empty : Resolver := ⟨fun _ => none, fun _ _ => none⟩

/-- A library that takes no text for an address. -/
def Libc.empty : Libc := ⟨fun _ => none, fun _ => none⟩

/-- A parser that accepts a single document. -/
def Jsoncpp.single (text : Str) (root : Value) : Jsoncpp :=
  ⟨fun s => if s = text then some root else none, fun _ => []⟩

theorem single_parse (text : Str) (root : Value) :
    (Jsoncpp.single text root).parse text = some root := if_pos rfl

/-- The request `{"api_key": "secret", "host": "kvm1", "available_kernels": 4}` -/
def sampleBody : Str :=
  lit "\x7b\"api_key\": \"secret\", \"host\": \"kvm1\", \"available_kernels\": 4\x7d"

/-- The members of the object in that request. -/
def sampleMembers : List (Str × Value) :=
  [(lit "api_key", .string (lit "secret")), (lit "host", .string (lit "kvm1")),
    (lit "available_kernels", .int 4)]

/-- The request is answered: whatever the environment does, no exception escapes and one reply is
    written. -/
def Answered (jc : Jsoncpp) (libc : Libc) (config : ConfigurationManager) (conn : Connection)
    (body : Str) : Prop :=
  ∀ {S : Type} (env : Env Call Call.Answer S) (s : S),
    ((handlePostRequest jc libc config conn body).run env s).outcome = .ok () ∧
      (summarize ((handlePostRequest jc libc config conn body).run env s).trace).replies.length = 1

end Ipvshttpd
