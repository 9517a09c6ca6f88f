import Ipvshttpd.Configuration
import Ipvshttpd.IpvsInterface

/-!
# The request handler

`connection_handler::handle_post_request` and `report_error` of `http_server.cpp`.
-/

namespace Ipvshttpd

open CLib Resumption

/-- The operations of a connection. -/
inductive ConnectionOp where
  /-- `set_status` -/
  | setStatus
  /-- `set_headers` -/
  | setHeaders
  /-- `write` -/
  | write
  deriving DecidableEq

/-- A connection to a client: its operations raise an exception once it is broken. -/
structure Connection where
  /-- The operations that raise an exception. -/
  raises : ConnectionOp → Bool

/-- A connection that is not broken. -/
def Connection.sound : Connection := ⟨fun _ => false⟩

namespace Connection

/-- Does `a`, which is the operation `op` on the connection. -/
def guard (conn : Connection) (op : ConnectionOp) (a : Act Unit) : Act Unit :=
  if conn.raises op then .raise .connectionError else a

/-- Sets the status of the reply. -/
def setStatus (conn : Connection) (status : Status) : Act Unit :=
  conn.guard .setStatus (Act.setStatus status)

/-- Sets the headers of the reply. -/
def setHeaders (conn : Connection) (headers : List (Str × Str)) : Act Unit :=
  conn.guard .setHeaders (Act.setHeaders headers)

/-- Writes the text of the reply. -/
def write (conn : Connection) (text : Str) : Act Unit := conn.guard .write (Act.write text)

end Connection

/-- The headers of every reply. -/
def responseHeaders : List (Str × Str) :=
  [(lit "Connection", lit "close"), (lit "Content-Type", lit "application/json")]

/-- The text of a reply that reports an error. -/
def errorText (message : Str) : Str :=
  lit "\r\x7b\n\t\"error\": true,\n\t\"error_reason\": \"" ++ message ++ lit "\"\n\x7d\n"

/-- The text of a reply that reports success. -/
def okText : Str := lit "\r\x7b\n\t\"error\": false\n\x7d\n"

/-- Logs an error and reports it back to the client. -/
def reportError (conn : Connection) (message : Str) (status : Status) : Act Unit := do
  conn.setStatus status
  conn.setHeaders responseHeaders
  conn.write (errorText message)
  Act.logError message

/-- The call `ipvs.set_weight(vip, server, weight)`. -/
def callSetWeight (libc : Libc) (vip server : Str) (weight : Int) : Act Bool := do
  Act.enterSetWeight vip server weight
  let result ← setWeight libc vip server weight
  Act.leaveSetWeight result.success
  pure result.success

/-- The part of `handle_post_request` that holds `ipvs_mutex`. The vip is passed as a C string, and
    the arguments are evaluated with the mutex held. -/
def updateWeight (jc : Jsoncpp) (libc : Libc) (conn : Connection) (cVip : Str)
    (hostname kernels : Value) : Act Unit := do
  Act.lock .ipvs
  let server ← Prog.ofExcept (hostname.asString jc)
  let weight ← Prog.ofExcept kernels.asInt
  let success ← callSetWeight libc (cStr cVip) server weight
  if success ≠ true then
    reportError conn (lit "Could not set weight.") .internalServerError
  else
    conn.setStatus .ok
    conn.setHeaders responseHeaders
    conn.write okText
  Act.unlock .ipvs

/-- This is where a POST request is handled after all POST data has been read into the buffer. -/
def handlePostRequest (jc : Jsoncpp) (libc : Libc) (config : ConfigurationManager)
    (conn : Connection) (requestBody : Str) : Act Unit := do
  Act.lock .configuration
  let cApiKey := config.getApiKey
  let cVip := config.getVip
  Act.logMessage (lit "api key : " ++ cApiKey)
  Act.logMessage (lit "vip : " ++ cVip)
  Act.unlock .configuration
  match jc.parse requestBody with
  | none => reportError conn (lit "Could not parse JSON.") .badRequest
  | some root =>
    let apiKey ← Prog.ofExcept (root.member (lit "api_key"))
    if apiKey.isNull then
      reportError conn (lit "Missing API key.") .unauthorized
    else if apiKey.eqString cApiKey = false then
      reportError conn (lit "Invalid API key.") .unauthorized
    else
      let hostname ← Prog.ofExcept (root.member (lit "host"))
      if hostname.isNull then
        reportError conn (lit "No host specified.") .badRequest
      else
        let kernels ← Prog.ofExcept (root.member (lit "available_kernels"))
        if kernels.isNull then
          reportError conn (lit "No available_kernels specified.") .badRequest
        else if kernels.isInt ≠ true then
          reportError conn (lit "available_kernels needs to be an integer value.") .badRequest
        else
          updateWeight jc libc conn cVip hostname kernels

end Ipvshttpd
