import Ipvshttpd.Target

/-!
# The destination of an update

What `set_weight` hands to `ipvs_update_dest`, compared with the parses of its two arguments, each
into a service of its own.
-/

namespace Ipvshttpd

open CLib Resumption

/-- The service that `set_weight` begins with. -/
def blankService : Service := { Service.zero with netmask := 0xffffffff, protocol := ipprotoTcp }

/-- The text has given an address. -/
def Parsed.HasAddr (p : Parsed) : Prop := p.result &&& serviceAddr ≠ 0

/-- The text has given a port. -/
def Parsed.HasPort (p : Parsed) : Prop := p.result &&& servicePort ≠ 0

instance (p : Parsed) : Decidable p.HasAddr := inferInstanceAs (Decidable (_ ≠ _))

instance (p : Parsed) : Decidable p.HasPort := inferInstanceAs (Decidable (_ ≠ _))

/-- The calls of `ipvs_update_dest` in a run, with their results. -/
def updates (tr : List CallEvent) : List (Service × Dest × Int) :=
  tr.filterMap fun ev =>
    match ev with
    | ⟨.updateDest svc dest, r⟩ => some (svc, dest, r)
    | _ => none

/-- The end of `set_weight` with an error. -/
def failWith (message server : Str) : Act SetWeightResult := do
  Act.logError message
  pure ⟨false, server⟩

/-- What is left of `set_weight` after the parses `v` and `d`, for a service with neither a firewall
    mark nor flags nor a scheduler. -/
def finishSetWeight (v d : Parsed) (weight : Int) : Act SetWeightResult :=
  if ¬ d.HasAddr then failWith (lit "Illegal server address[:port] specified.") d.buf
  else if v.svc.port = 0 then failWith (lit "Zero port specified for non-persistent service") d.buf
  else do
    let result ← Act.updateDest { v.svc with schedName := lit "wlc" }
      { Dest.zero with
        weight := weight
        connFlags := ipVsConnFDroute
        af := d.svc.af
        addr := d.svc.addr
        port := if d.result = 1 then v.svc.port else d.svc.port }
    pure ⟨decide (result = 0), d.buf⟩

/-- Two parses of one text into different services: they have the same flags and agree on what they
    have found. -/
structure Parsed.Agrees (p p' : Parsed) : Prop where
  /-- The flags are the same. -/
  result : p.result = p'.result
  /-- The buffers are the same. -/
  buf : p.buf = p'.buf
  /-- The flags are those of nothing, of an address, or of an address and a port. -/
  flags : p.result = serviceNone ∨ p.result = serviceAddr ∨ p.result = serviceAddr ||| servicePort
  /-- The addresses are the same. -/
  addr : p.HasAddr →
    p.svc.af = p'.svc.af ∧ sigAddr p.svc.af p.svc.addr = sigAddr p'.svc.af p'.svc.addr
  /-- The ports are the same. -/
  port : p.HasPort → p.svc.port = p'.svc.port

/-- An update of the destination that the parse `d` of the server gives, in the service that the
    parse `v` of the virtual address gives. -/
structure Targets (v d : Parsed) (weight : Int) (svc : Service) (dest : Dest) : Prop where
  /-- The service is one of TCP. -/
  protocol : svc.protocol = ipprotoTcp
  /-- The service has no firewall mark. -/
  fwmark : svc.fwmark = 0
  /-- The family of the virtual address. -/
  svcAf : svc.af = v.svc.af
  /-- The virtual address. -/
  svcAddr : svc.addr = v.svc.addr
  /-- The virtual port. -/
  svcPort : svc.port = v.svc.port
  /-- The family of the address of the server. -/
  destAf : dest.af = d.svc.af
  /-- The address of the server. -/
  destAddr : sigAddr dest.af dest.addr = sigAddr d.svc.af d.svc.addr
  /-- The port of the server; without one, the virtual port. -/
  destPort : dest.port = if d.HasPort then d.svc.port else v.svc.port
  /-- The weight. -/
  weight : dest.weight = weight

end Ipvshttpd
