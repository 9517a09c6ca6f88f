import Ipvshttpd.Destination
import Ipvshttpd.ServiceText

/-!
# The same call again

Two calls of `set_weight` with one string object for the server. The parser works in the buffer of
that object, so the second call sees what the first one has left there.
-/

namespace Ipvshttpd

open CLib Resumption

/-- What a run of `set_weight` comes to: the address and the port of a destination that it hands to
    `ipvs_update_dest`, or an error. -/
inductive Attempt where
  /-- An update of a destination. -/
  | update (addr : Addr) (port : BitVec 16)
  /-- An error. -/
  | failure (message : Str)
  deriving DecidableEq

/-- What a call attempts. -/
def Call.attempt : Call → Option Attempt
  | .updateDest _ dest => some (.update (sigAddr dest.af dest.addr) dest.port)
  | .log (.error message) => some (.failure message)
  | _ => none

/-- What a run attempts. -/
def attempts (tr : List CallEvent) : List Attempt := tr.filterMap fun ev => ev.1.attempt

/-- What `set_weight` attempts after the parses `v` of the virtual address and `d` of the server. -/
def attemptsOf (v d : Parsed) : List Attempt :=
  if ¬ v.HasAddr then [.failure (lit "Illegal VIP address[:port] specified.")]
  else if ¬ d.HasAddr then [.failure (lit "Illegal server address[:port] specified.")]
  else if v.svc.port = 0 then [.failure (lit "Zero port specified for non-persistent service")]
  else [.update (sigAddr d.svc.af d.svc.addr) (if d.result = 1 then v.svc.port else d.svc.port)]

/-- The call with the weight `weight` leaves the server as it was, and the call with the weight
    `weight'` after it attempts the same. -/
def Repeats (useNl : Bool) (libc : Libc) (rs : Resolver) (t : Table) (vip server : Str)
    (weight weight' : Int) : Prop :=
  let first := (setWeight libc vip server weight).run (kernelEnv useNl rs) t
  ∃ res, first.outcome = .ok res ∧ res.server = server ∧
    attempts ((setWeight libc vip res.server weight').run (kernelEnv useNl rs) first.state).trace =
      attempts first.trace

/-! ## When the buffer is cut -/

/-- An IPv6 address in brackets with a port, or a host in brackets, perhaps with a port in them. -/
def BracketText (libc : Libc) (rs : Resolver) (proto : BitVec 16) (s : Str) : Prop :=
  ∃ a p, s = 91 :: (a ++ 93 :: 58 :: p) ∧ 93 ∉ a ∧
    ((libc.inetPton6 a ≠ none ∧ portOf rs proto p ≠ none) ∨
      (libc.inetPton6 a = none ∧ HostText libc rs proto a))

/-- A text that the parser takes for an address. -/
def Designates (libc : Libc) (rs : Resolver) (proto : BitVec 16) (s : Str) : Prop :=
  s.all isdigit = false ∧
    ((s.headD 0 = 91 ∧ BracketText libc rs proto s) ∨
      (s.headD 0 ≠ 91 ∧ (libc.inetPton6 s ≠ none ∨ HostText libc rs proto s)))

/-- A text into which the parser writes: it has brackets, or a colon and is no IPv6 address. -/
def Cut (libc : Libc) (s : Str) : Prop :=
  (s.headD 0 = 91 ∧ 93 ∈ s) ∨ (s.headD 0 ≠ 91 ∧ 58 ∈ s ∧ libc.inetPton6 s = none)

end Ipvshttpd
