import Ipvshttpd.Observation
import Ipvshttpd.Resumption.Interleave

/-!
# Concurrent request handlers

The threads of the server execute request handlers that share two mutexes and the IPVS table of the
kernel.
-/

namespace Ipvshttpd

open CLib Resumption

variable {ι : Type}

/-- What the handlers share. -/
structure Shared (ι : Type) where
  /-- Who has locked a mutex. -/
  owner : Mutex → Option ι
  /-- The IPVS table of the kernel. -/
  table : Table

/-- A request as a handler gets it. -/
structure Request where
  /-- The connection that takes the reply. -/
  conn : Connection
  /-- The text of the request. -/
  body : Str

/-- The meaning of the calls of handler `i`. `ipvs_update_dest` either carries a command out and
    returns 0, or changes nothing and returns a non-zero code; the name service may answer anything
    at any time. -/
def callSem [DecidableEq ι] (useNl : Bool) : Sem ι Call Call.Answer (Shared ι) := fun i e s r s' =>
  match e, r with
  | .lock m, _ => s.owner m = none ∧ s' = { s with owner := Function.update s.owner m (some i) }
  | .unlock m, _ => s' = { s with owner := Function.update s.owner m none }
  | .updateDest svc dest, r =>
    (r = (0 : Int) ∧ ∃ cmd, ipvsUpdateDest useNl svc dest = some cmd ∧ cmd.Applicable s.table ∧
      s' = { s with table := cmd.apply s.table }) ∨
    (r ≠ (0 : Int) ∧ s' = s)
  | _, _ => s' = s

/-- The answers of free mutexes, a name service and the kernel; a mutex that has an owner gives none. -/
def callAnswer [DecidableEq ι] (useNl : Bool) (rs : Resolver) (i : ι) (e : Call) (s : Shared ι) :
    Option (Call.Answer e × Shared ι) :=
  match e with
  | .lock m =>
    if s.owner m = none then some ((), { s with owner := Function.update s.owner m (some i) })
    else none
  | .unlock m => some ((), { s with owner := Function.update s.owner m none })
  | .updateDest svc dest =>
    let (r, table) := kernelUpdateDest useNl s.table svc dest
    some (r, { s with table := table })
  | e => some (rs.answer e, s)

/-- The calls that take and release the mutexes. -/
def mutexOps : LockOps Call Mutex where
  acquires
    | .lock m => some m
    | _ => none
  releases
    | .unlock m => some m
    | _ => none

/-- The server with one handler for each request of the family `req`, none of which has begun. -/
def serverInit (jc : Jsoncpp) (libc : Libc) (config : ConfigurationManager) (t : Table)
    (req : ι → Request) : Config ι Call Call.Answer Exn Unit (Shared ι) :=
  Config.init ⟨fun _ => none, t⟩
    fun i => handlePostRequest jc libc config (req i).conn (req i).body

end Ipvshttpd
