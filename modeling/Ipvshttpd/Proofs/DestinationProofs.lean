import Ipvshttpd.Destination
import Ipvshttpd.Proofs.IpvsInterfaceProofs

/-!
# Proofs: the destination of an update

The parser makes the same calls and finds the same address and port whatever service it fills in
(`mParseService_related`), so the service of the virtual address, into which the server is parsed,
gives nothing to the destination but the port that the server does not have.
-/

namespace Ipvshttpd

open CLib Resumption Prog

variable {S : Type} {svc svc' : Service} {libc : Libc} {buf : Str}

/-! ## Parsing into different services -/

theorem agrees_none (buf : Str) : Parsed.Agrees ⟨serviceNone, svc, buf⟩ ⟨serviceNone, svc', buf⟩ where
  result := rfl
  buf := rfl
  flags := Or.inl rfl
  addr h := absurd (rfl : serviceNone &&& serviceAddr = 0) h
  port h := absurd (rfl : serviceNone &&& servicePort = 0) h

theorem mParsePort_related (buf : Str) (portp : Option Nat) (hproto : svc.protocol = svc'.protocol)
    (haf : svc.af = svc'.af) (haddr : sigAddr svc.af svc.addr = sigAddr svc'.af svc'.addr) :
    Related Parsed.Agrees (mParsePort buf portp svc) (mParsePort buf portp svc') := by
  have hfound : ∀ port : BitVec 16, Parsed.Agrees
      ⟨serviceNone ||| serviceAddr ||| servicePort, { svc with port := port }, buf⟩
      ⟨serviceNone ||| serviceAddr ||| servicePort, { svc' with port := port }, buf⟩ := by
    intro port
    exact ⟨rfl, rfl, Or.inr (Or.inr rfl), fun _ => ⟨haf, haddr⟩, fun _ => rfl⟩
  unfold mParsePort
  cases portp with
  | none =>
    refine .ret ⟨rfl, rfl, Or.inr (Or.inl rfl), fun _ => ⟨haf, haddr⟩, fun hport => ?_⟩
    exact absurd (rfl : (serviceNone ||| serviceAddr) &&& servicePort = 0) hport
  | some i =>
    have hask : ∀ text, mServiceToPort text svc'.protocol = mServiceToPort text svc.protocol := by
      intro text
      rw [hproto]
    dsimp only
    split
    · exact .ret (hfound _)
    · rw [bind_eq, bind_eq, hask]
      refine Related.bind (Related.refl _) ?_
      rintro portn _ rfl
      split
      · exact .ret (hfound _)
      · exact .ret (agrees_none buf)

theorem mParseAddr_related (libc : Libc) (buf : Str) (start : Nat) (portp : Option Nat)
    (hproto : svc.protocol = svc'.protocol) :
    Related Parsed.Agrees (mParseAddr libc buf start portp svc)
      (mParseAddr libc buf start portp svc') := by
  have hv4 : ∀ (buf : Str) (portp : Option Nat) (ip : BitVec 32), Related Parsed.Agrees
      (mParsePort buf portp { svc with addr := { svc.addr with w0 := ip }, af := afInet })
      (mParsePort buf portp { svc' with addr := { svc'.addr with w0 := ip }, af := afInet }) :=
    fun buf portp ip => mParsePort_related buf portp hproto rfl rfl
  unfold mParseAddr
  split
  · exact mParsePort_related buf portp hproto rfl rfl
  · dsimp only
    split
    · exact hv4 _ _ _
    · rw [bind_eq, bind_eq]
      refine Related.bind (Related.refl _) ?_
      rintro inaddr _ rfl
      cases inaddr with
      | some ip => exact hv4 _ _ ip
      | none => exact .ret (agrees_none _)

/-- The parser does the same whatever is in the service, but for the protocol. -/
theorem mParseService_related (libc : Libc) (buf : Str) (hproto : svc.protocol = svc'.protocol) :
    Related Parsed.Agrees (mParseService libc buf svc) (mParseService libc buf svc') := by
  unfold mParseService
  split
  · exact .ret (agrees_none buf)
  · split
    · split
      · exact .ret (agrees_none buf)
      · dsimp only
        split
        · exact mParseAddr_related libc _ _ _ hproto
        · exact .ret (agrees_none _)
    · exact mParseAddr_related libc _ _ _ hproto

/-! ## The calls of the parser -/

theorem onlyResolver_keeps :
    Keeps (Monitor.only Call.IsResolver) Call.IsResolver fun _ => True :=
  fun _ _ _ he => ⟨he, fun _ => trivial⟩

/-- The parser asks the name service only, raises nothing and keeps what it does not parse. -/
theorem mParseService_only (libc : Libc) (buf : Str) (svc : Service) :
    (mParseService libc buf svc).wp (Monitor.only Call.IsResolver)
      (fun _ parsed => True ∧ svc.KeptBy parsed.svc) (fun _ _ => False) () :=
  mParseService_wp onlyResolver_keeps libc buf svc trivial

theorem mParseService_returns (libc : Libc) (buf : Str) (svc : Service)
    (env : Env Call Call.Answer S) (s : S) :
    ∃ parsed, ((mParseService libc buf svc).run env s).outcome = .ok parsed ∧
      svc.KeptBy parsed.svc ∧
      ∀ ev ∈ ((mParseService libc buf svc).run env s).trace, ev.1.IsResolver := by
  have hwp := mParseService_only libc buf svc
  rcases wp_run hwp env s with ⟨parsed, hout, -, hkept⟩ | ⟨x, -, hfalse⟩
  · exact ⟨parsed, hout, hkept, run_trace_only hwp env s⟩
  · exact hfalse.elim

theorem updates_append (tr tr' : List CallEvent) : updates (tr ++ tr') = updates tr ++ updates tr' :=
  List.filterMap_append

/-- An observation that does not see the questions to the name service sees nothing of them. -/
theorem filterMap_of_resolver {β : Type} {f : CallEvent → Option β} {tr : List CallEvent}
    (hf : ∀ e r, Call.IsResolver e → f ⟨e, r⟩ = none) (h : ∀ ev ∈ tr, ev.1.IsResolver) :
    tr.filterMap f = [] := by
  rw [List.filterMap_eq_nil_iff]
  intro ev hev
  exact hf ev.1 ev.2 (h ev hev)

theorem updates_of_resolver {tr : List CallEvent} (h : ∀ ev ∈ tr, ev.1.IsResolver) :
    updates tr = [] := by
  refine filterMap_of_resolver ?_ h
  intro e r he
  cases e <;> first | rfl | exact he.elim

/-! ## `set_weight` -/

/-- The port of the destination: the flags of a parse are 1 exactly if it has found an address and no
    port. -/
theorem destPort_eq {d d' : Parsed} (h : d'.Agrees d) (haddr : d.HasAddr) (port : BitVec 16) :
    (if d'.result = 1 then port else d'.svc.port) = if d.HasPort then d.svc.port else port := by
  have hresult := h.result
  rcases h.flags with hnone | hone | hboth
  · unfold Parsed.HasAddr at haddr
    rw [← hresult, hnone] at haddr
    exact absurd rfl haddr
  · have hport : ¬ d.HasPort := by
      unfold Parsed.HasPort
      rw [← hresult, hone]
      decide
    have hflags : d'.result = 1 := hone
    rw [if_pos hflags, if_neg hport]
  · have hport : d.HasPort := by
      unfold Parsed.HasPort
      rw [← hresult, hboth]
      decide
    have hport' : d'.HasPort := by
      unfold Parsed.HasPort
      rw [hboth]
      decide
    rw [if_neg (by rw [hboth]; decide), if_pos hport, h.port hport']

/-- The update at the end of `set_weight`, where the server is parsed into the service of the virtual
    address, is one of the destination that the two texts give on their own. -/
theorem targets_of_parses {v d d' : Parsed} (hkept : blankService.KeptBy v.svc) (h : d'.Agrees d)
    (haddr : d.HasAddr) (weight : Int) :
    Targets v d weight { v.svc with schedName := lit "wlc" }
      { Dest.zero with
        weight := weight
        connFlags := ipVsConnFDroute
        af := d'.svc.af
        addr := d'.svc.addr
        port := if d'.result = 1 then v.svc.port else d'.svc.port } where
  protocol := hkept.protocol
  fwmark := hkept.fwmark
  svcAf := rfl
  svcAddr := rfl
  svcPort := rfl
  destAf := by
    refine (h.addr ?_).1
    unfold Parsed.HasAddr
    rwa [h.result]
  destAddr := by
    refine (h.addr ?_).2
    unfold Parsed.HasAddr
    rwa [h.result]
  destPort := destPort_eq h haddr _
  weight := rfl

/-- A run of `set_weight` is the run of the first parse, that of the second one if the first has found
    an address, and that of the rest. -/
theorem setWeight_run {vip server : Str} {env : Env Call Call.Answer S} {s : S} {v d : Parsed}
    (hv : ((mParseService libc vip blankService).run env s).outcome = .ok v)
    (hkept : blankService.KeptBy v.svc)
    (hd : ((mParseService libc server v.svc).run env
      ((mParseService libc vip blankService).run env s).state).outcome = .ok d) (weight : Int) :
    let first := (mParseService libc vip blankService).run env s
    let second := (mParseService libc server v.svc).run env first.state
    (¬ v.HasAddr → let rest :=
        (failWith (lit "Illegal VIP address[:port] specified.") server).run env first.state
      (setWeight libc vip server weight).run env s =
        ⟨first.trace ++ rest.trace, rest.state, rest.outcome⟩) ∧
    (v.HasAddr → let rest := (finishSetWeight v d weight).run env second.state
      (setWeight libc vip server weight).run env s =
        ⟨first.trace ++ (second.trace ++ rest.trace), rest.state, rest.outcome⟩) := by
  intro first second
  have hfwmark : v.svc.fwmark = 0 := hkept.fwmark
  have hflags : v.svc.flags = 0 := hkept.flags
  have hsched : v.svc.schedName = [] := hkept.schedName
  have hv' : ((mParseService libc vip
      { Service.zero with netmask := 0xffffffff, protocol := ipprotoTcp }).run env s).outcome =
        .ok v := hv
  constructor
  · intro h1 rest
    have h1' : v.result &&& serviceAddr = 0 := not_not.1 h1
    unfold setWeight
    rw [bind_eq, run_bind_ok hv']
    simp only [if_pos h1']
    rfl
  · intro h1 rest
    have h1' : ¬ v.result &&& serviceAddr = 0 := h1
    have hd' : ((mParseService libc server v.svc).run env ((mParseService libc vip
        { Service.zero with netmask := 0xffffffff, protocol := ipprotoTcp }).run env s).state).outcome =
          .ok d := hd
    have hrest : rest = (finishSetWeight v d weight).run env second.state := rfl
    unfold setWeight
    rw [bind_eq, run_bind_ok hv']
    simp only [if_neg h1']
    rw [bind_eq, run_bind_ok hd', hrest]
    unfold finishSetWeight
    by_cases h2 : d.result &&& serviceAddr = 0
    · have h2' : ¬ d.HasAddr := not_not.2 h2
      rw [if_pos h2, if_pos h2']
      rfl
    · have h2' : ¬ ¬ d.HasAddr := not_not.2 h2
      rw [if_neg h2, if_neg h2']
      by_cases h3 : v.svc.port = 0
      · rw [if_pos ⟨hfwmark, h3, by rw [hflags]; rfl⟩, if_pos h3]
        rfl
      · rw [if_neg fun h => h3 h.2.1, if_neg fun h => h.1 (by rw [hflags]; rfl), if_neg h3,
          if_pos hsched]
        by_cases h4 : d.result = 1
        · rw [if_pos h4, if_pos h4]
          rfl
        · rw [if_neg h4, if_neg h4]
          rfl

/-- With `v` the parse of the virtual address and `d` that of the server, each into a service of its
    own: if both have an address and `v` has a port other than 0, `set_weight` makes one update, of
    the destination that `d` gives in the service that `v` gives, and returns its success. Else it
    makes no update and returns false. -/
theorem setWeight_targets (libc : Libc) (env : Env Call Call.Answer S) (s : S) (vip server : Str)
    (weight : Int) :
    ∃ v d res,
      ((mParseService libc vip blankService).run env s).outcome = .ok v ∧
      ((mParseService libc server blankService).run env
        ((mParseService libc vip blankService).run env s).state).outcome = .ok d ∧
      ((setWeight libc vip server weight).run env s).outcome = .ok res ∧
      (v.HasAddr ∧ d.HasAddr ∧ v.svc.port ≠ 0 → ∃ svc dest r,
        updates ((setWeight libc vip server weight).run env s).trace = [(svc, dest, r)] ∧
          Targets v d weight svc dest ∧ (res.success = true ↔ r = 0)) ∧
      (¬ (v.HasAddr ∧ d.HasAddr ∧ v.svc.port ≠ 0) →
        updates ((setWeight libc vip server weight).run env s).trace = [] ∧ res.success = false) := by
  obtain ⟨v, hv, hkept, hcalls⟩ := mParseService_returns libc vip blankService env s
  obtain ⟨d, hd, -, -⟩ := mParseService_returns libc server blankService env
    ((mParseService libc vip blankService).run env s).state
  obtain ⟨d', hd', -, hcalls'⟩ := mParseService_returns libc server v.svc env
    ((mParseService libc vip blankService).run env s).state
  have hagrees : d'.Agrees d := by
    have hrelated : Related Parsed.Agrees (mParseService libc server v.svc)
        (mParseService libc server blankService) := mParseService_related libc server hkept.protocol
    obtain ⟨-, -, ⟨a, b, ha, hb, hab⟩ | ⟨x, hx, -⟩⟩ := hrelated.run env
      ((mParseService libc vip blankService).run env s).state
    · rw [hd', Except.ok.injEq] at ha
      rw [hd, Except.ok.injEq] at hb
      rw [ha, hb]
      exact hab
    · rw [hd'] at hx
      cases hx
  have hhas : d'.HasAddr ↔ d.HasAddr := by
    unfold Parsed.HasAddr
    rw [hagrees.result]
  obtain ⟨hfail, hrest⟩ := setWeight_run hv hkept hd' weight
  by_cases h1 : v.HasAddr
  · have hrun := hrest h1
    have hupdates : updates ((setWeight libc vip server weight).run env s).trace =
        updates ((finishSetWeight v d' weight).run env ((mParseService libc server v.svc).run env
          ((mParseService libc vip blankService).run env s).state).state).trace := by
      rw [hrun, updates_append, updates_append, updates_of_resolver hcalls,
        updates_of_resolver hcalls', List.nil_append, List.nil_append]
    have houtcome := congrArg Result.outcome hrun
    rw [hupdates]
    unfold finishSetWeight at houtcome ⊢
    by_cases h2 : d'.HasAddr
    · rw [if_neg (not_not.2 h2)] at houtcome ⊢
      by_cases h3 : v.svc.port = 0
      · rw [if_pos h3] at houtcome ⊢
        exact ⟨v, d, _, hv, hd, houtcome, fun h => absurd h3 h.2.2, fun _ => ⟨rfl, rfl⟩⟩
      · rw [if_neg h3] at houtcome ⊢
        exact ⟨v, d, _, hv, hd, houtcome, fun h => ⟨_, _, _, rfl,
          targets_of_parses hkept hagrees h.2.1 weight, decide_eq_true_iff⟩,
          fun h => absurd ⟨h1, hhas.1 h2, h3⟩ h⟩
    · rw [if_pos h2] at houtcome ⊢
      exact ⟨v, d, _, hv, hd, houtcome, fun h => absurd (hhas.2 h.2.1) h2, fun _ => ⟨rfl, rfl⟩⟩
  · have hrun := hfail h1
    have hupdates : updates ((setWeight libc vip server weight).run env s).trace = [] := by
      rw [hrun, updates_append, updates_of_resolver hcalls]
      rfl
    refine ⟨v, d, ⟨false, server⟩, hv, hd, ?_, fun h => absurd h.1 h1, fun _ => ⟨hupdates, rfl⟩⟩
    rw [hrun]
    rfl

end Ipvshttpd
