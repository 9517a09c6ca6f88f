import Ipvshttpd.Observation

/-!
# What `set_weight` is about

The destination that a virtual service and a server name, and the changes of the IPVS table that
`set_weight` is meant to make: the weight of that destination and nothing else.
-/

namespace Ipvshttpd

open CLib Resumption

/-- What the parser makes of a text if the name service answers as `rs`. -/
def Resolver.parse (rs : Resolver) (libc : Libc) (buf : Str) (svc : Service) : Option Parsed :=
  ((mParseService libc buf svc).eval rs.answer).toOption

/-- The service and the destination that two texts name. Both need an address and the service needs
    a port, which is also the port of the destination if that has none of its own. -/
def named (libc : Libc) (rs : Resolver) (vip server : Str) : Option (Service × Dest) :=
  match rs.parse libc vip { Service.zero with netmask := 0xffffffff, protocol := ipprotoTcp } with
  | none => none
  | some parsedVip =>
    match rs.parse libc server parsedVip.svc with
    | none => none
    | some parsed =>
      if parsedVip.result &&& serviceAddr = 0 ∨ parsed.result &&& serviceAddr = 0 ∨
          parsedVip.svc.port = 0 then none
      else
        let port := if parsed.result = 1 then parsedVip.svc.port else parsed.svc.port
        some (parsedVip.svc,
          { Dest.zero with af := parsed.svc.af, addr := parsed.svc.addr, port := port })

/-- What identifies the named service and destination in the table. -/
def namedKeys (useNl : Bool) (libc : Libc) (rs : Resolver) (vip server : Str) :
    Option (ServiceKey × DestKey) :=
  (named libc rs vip server).bind fun (svc, dest) =>
    (ipvsUpdateDest useNl svc dest).map fun cmd => (cmd.service, cmd.dest)

/-- The record without its weight. -/
def Record.exceptWeight (rec : Record) : BitVec 32 × BitVec 32 × BitVec 32 :=
  (rec.fwdMethod, rec.uThreshold, rec.lThreshold)

/-- Two tables differ at most in the weight of the destination `target`. -/
structure Table.SameButWeight (target : Option (ServiceKey × DestKey)) (t t' : Table) : Prop where
  /-- The services are the same. -/
  services : ∀ sk, (t' sk).isSome = (t sk).isSome
  /-- The other destinations are the same. -/
  others : ∀ sk dk, target ≠ some (sk, dk) → t'.lookup sk dk = t.lookup sk dk
  /-- The destination is the same but for its weight. -/
  rest : ∀ sk dk, target = some (sk, dk) →
    (t'.lookup sk dk).map Record.exceptWeight = (t.lookup sk dk).map Record.exceptWeight

/-- The record is one that an update leaves alone but for the weight: direct routing and no
    thresholds. -/
def Record.Plain (rec : Record) : Prop :=
  rec.fwdMethod = ipVsConnFDroute ∧ rec.uThreshold = 0 ∧ rec.lThreshold = 0

end Ipvshttpd
