import Ipvshttpd.Jsoncpp
import Ipvshttpd.Libipvs
import Ipvshttpd.Logging
import Ipvshttpd.Resumption.Program

/-!
# The calls of a request handler

Everything that the handling of a request does to the world outside of its own variables: it takes
and releases the two mutexes, logs, replies on its connection, asks the resolver and hands commands
to libipvs. The handler is a program over these calls.
-/

namespace Ipvshttpd

open CLib Resumption

/-- The mutexes of the server. -/
inductive Mutex where
  /-- `configuration_mutex`, which guards the configuration. -/
  | configuration
  /-- `ipvs_mutex`, which guards the object `ipvs`. -/
  | ipvs
  deriving DecidableEq

/-- The HTTP statuses of the replies. -/
inductive Status where
  /-- 200 OK -/
  | ok
  /-- 400 Bad Request -/
  | badRequest
  /-- 401 Unauthorized -/
  | unauthorized
  /-- 500 Internal Server Error -/
  | internalServerError
  deriving DecidableEq

/-- `struct hostent`, with the first of its addresses. -/
structure Hostent where
  /-- `h_addrtype` -/
  addrtype : BitVec 16
  /-- `h_length` -/
  length : Nat
  /-- The first four bytes of the address, in network order. -/
  addr : BitVec 32

/-- A call of a request handler. `enterSetWeight` and `leaveSetWeight` are the call of
    `ipvs_interface::set_weight` and its return. -/
inductive Call where
  /-- Locks a mutex, which may block. -/
  | lock (m : Mutex)
  /-- Unlocks a mutex. -/
  | unlock (m : Mutex)
  /-- Calls one of the functions for logging. -/
  | log (c : LogCall)
  /-- Sets the status of the reply. -/
  | setStatus (status : Status)
  /-- Sets the headers of the reply. -/
  | setHeaders (headers : List (Str × Str))
  /-- Writes the text of the reply. -/
  | write (text : Str)
  /-- `set_weight` is called. -/
  | enterSetWeight (vip server : Str) (weight : Int)
  /-- `set_weight` returns. -/
  | leaveSetWeight (success : Bool)
  /-- Asks for the address of a host. -/
  | gethostbyname (name : Str)
  /-- Asks for the port of a service. -/
  | getservbyname (name proto : Str)
  /-- Calls `ipvs_update_dest`. -/
  | updateDest (svc : Service) (dest : Dest)

/-- The answers of the calls: `gethostbyname` and `getservbyname` may find nothing, the port of a
    service is in network order, and `ipvs_update_dest` returns an error code. -/
abbrev Call.Answer : Call → Type
  | .gethostbyname _ => Option Hostent
  | .getservbyname _ _ => Option (BitVec 16)
  | .updateDest _ _ => Int
  | _ => Unit

/-- Code that makes calls and may raise an exception. -/
abbrev Act := Prog Call Call.Answer Exn

/-- A call with its answer. -/
abbrev CallEvent := Event Call Call.Answer

namespace Act

/-- `std::mutex::lock` -/
def lock (m : Mutex) : Act Unit := .perform (Call.lock m)

/-- `std::mutex::unlock` -/
def unlock (m : Mutex) : Act Unit := .perform (Call.unlock m)

/-- `log_error` -/
def logError (message : Str) : Act Unit := .perform (Call.log (.error message))

/-- `log_message` -/
def logMessage (message : Str) : Act Unit := .perform (Call.log (.message message))

/-- `set_status` of a connection. -/
def setStatus (status : Status) : Act Unit := .perform (Call.setStatus status)

/-- `set_headers` of a connection. -/
def setHeaders (headers : List (Str × Str)) : Act Unit := .perform (Call.setHeaders headers)

/-- `write` of a connection. -/
def write (text : Str) : Act Unit := .perform (Call.write text)

/-- The call of `set_weight`. -/
def enterSetWeight (vip server : Str) (weight : Int) : Act Unit :=
  .perform (Call.enterSetWeight vip server weight)

/-- The return of `set_weight`. -/
def leaveSetWeight (success : Bool) : Act Unit := .perform (Call.leaveSetWeight success)

/-- `gethostbyname` -/
def gethostbyname (name : Str) : Act (Option Hostent) := .perform (Call.gethostbyname name)

/-- `getservbyname` -/
def getservbyname (name proto : Str) : Act (Option (BitVec 16)) :=
  .perform (Call.getservbyname name proto)

/-- `ipvs_update_dest` -/
def updateDest (svc : Service) (dest : Dest) : Act Int := .perform (Call.updateDest svc dest)

end Act

end Ipvshttpd
