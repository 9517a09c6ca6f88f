import Ipvshttpd.Delivery
import Ipvshttpd.Proofs.ConcurrencyProofs
import Ipvshttpd.Proofs.LibipvsClientProofs

/-!
# Proofs: a request handler with libipvs under it

The services that a handler hands to libipvs have names that fit. With this and the protocol of the
handler, a simulation relates what the handler has been told to what libipvs has sent.
-/

namespace Ipvshttpd

open CLib Resumption Prog

variable {jc : Jsoncpp} {libc : Libc} {config : ConfigurationManager} {conn : Connection} {body : Str}

/-! ## Names that fit -/

/-- The service of an update is the one that `set_weight` makes: it has the default scheduler and no
    persistence engine. -/
def Call.NamesFit : Call → Prop
  | .updateDest svc _ => svc.schedName = lit "wlc" ∧ svc.peName = []
  | _ => True

/-- The monitor that allows only such updates. -/
abbrev namesFit : Monitor Call Call.Answer Unit := .only Call.NamesFit

/-- Two services with the same scheduler and the same persistence engine. -/
def Service.SameNames (svc svc' : Service) : Prop :=
  svc'.schedName = svc.schedName ∧ svc'.peName = svc.peName

section Parse

variable {exn : Unit → Exn → Prop} {svc₀ : Service}

theorem hostToAddr_names (name : Str) :
    (hostToAddr name).wp namesFit (fun _ _ => True) exn () := by
  unfold hostToAddr
  rw [bind_eq, wp_bind]
  refine ⟨trivial, fun r => ?_⟩
  cases r with
  | none => trivial
  | some host => exact wp_ite _ _ _ _ (fun _ => trivial) fun _ => trivial

theorem mServiceToPort_names (name : Str) (proto : BitVec 16) :
    (mServiceToPort name proto).wp namesFit (fun _ _ => True) exn () := by
  have hask : ∀ (protoName : Str) (k : Option (BitVec 16) → Act Int),
      (∀ r, (k r).wp namesFit (fun _ _ => True) exn ()) →
      (Act.getservbyname name protoName >>= k).wp namesFit (fun _ _ => True) exn () := by
    intro protoName k hk
    rw [bind_eq, wp_bind]
    exact ⟨trivial, fun r => hk r⟩
  unfold mServiceToPort
  refine wp_ite _ _ _ _ (fun _ => hask _ _ fun r => ?_) fun _ => ?_
  · cases r <;> trivial
  refine wp_ite _ _ _ _ (fun _ => hask _ _ fun r => ?_) fun _ => ?_
  · cases r <;> trivial
  refine wp_ite _ _ _ _ (fun _ => hask _ _ fun r => ?_) fun _ => trivial
  cases r <;> trivial

theorem mParsePort_names (buf : Str) (portp : Option Nat) {svc : Service}
    (hsvc : svc₀.SameNames svc) :
    (mParsePort buf portp svc).wp namesFit (fun _ parsed => svc₀.SameNames parsed.svc) exn () := by
  unfold mParsePort
  cases portp with
  | none => exact hsvc
  | some i =>
    refine wp_ite _ _ _ _ (fun _ => hsvc) fun _ => ?_
    rw [bind_eq, wp_bind]
    refine wp_mono (fun _ _ _ => ?_) (fun _ _ h => h) (mServiceToPort_names _ _)
    exact wp_ite _ _ _ _ (fun _ => hsvc) fun _ => hsvc

theorem mParseAddr_names (libc : Libc) (buf : Str) (start : Nat) (portp : Option Nat)
    (svc : Service) : (mParseAddr libc buf start portp svc).wp namesFit
      (fun _ parsed => svc.SameNames parsed.svc) exn () := by
  have haddr : ∀ addr af netmask,
      svc.SameNames { svc with addr := addr, af := af, netmask := netmask } :=
    fun _ _ _ => ⟨rfl, rfl⟩
  unfold mParseAddr
  split
  · exact mParsePort_names _ _ (haddr _ _ _)
  · dsimp only
    split
    · exact mParsePort_names _ _ (haddr _ _ _)
    · rw [bind_eq, wp_bind]
      refine wp_mono (fun _ r _ => ?_) (fun _ _ h => h) (hostToAddr_names _)
      cases r with
      | none => exact ⟨rfl, rfl⟩
      | some inaddr => exact mParsePort_names _ _ (haddr _ _ _)

theorem mParseService_names (libc : Libc) (buf : Str) (svc : Service) :
    (mParseService libc buf svc).wp namesFit (fun _ parsed => svc.SameNames parsed.svc) exn () := by
  unfold mParseService
  refine wp_ite _ _ _ _ (fun _ => ⟨rfl, rfl⟩) fun _ => wp_ite _ _ _ _ (fun _ => ?_) fun _ => ?_
  · split
    · exact ⟨rfl, rfl⟩
    · exact wp_ite _ _ _ _ (fun _ => mParseAddr_names _ _ _ _ _) fun _ => ⟨rfl, rfl⟩
  · exact mParseAddr_names _ _ _ _ _

theorem setWeight_names (libc : Libc) (vip server : Str) (weight : Int) :
    (setWeight libc vip server weight).wp namesFit (fun _ _ => True) exn () := by
  have hfail : ∀ (message server : Str),
      (Act.logError message >>= fun _ => pure ⟨false, server⟩ : Act SetWeightResult).wp namesFit
        (fun _ _ => True) exn () := fun _ _ => ⟨trivial, fun _ => trivial⟩
  unfold setWeight
  dsimp only
  rw [bind_eq, wp_bind]
  refine wp_mono (fun _ parsedVip hnames => ?_) (fun _ _ h => h) (mParseService_names _ _ _)
  refine wp_ite _ _ _ _ (fun _ => hfail _ _) fun _ => ?_
  rw [bind_eq, wp_bind]
  refine wp_mono (fun _ parsed _ => ?_) (fun _ _ h => h) (mParseService_names _ _ _)
  refine wp_ite _ _ _ _ (fun _ => hfail _ _) fun _ => ?_
  refine wp_ite _ _ _ _ (fun _ => hfail _ _) fun _ => ?_
  refine wp_ite _ _ _ _ (fun _ => hfail _ _) fun _ => ?_
  rw [bind_eq, wp_bind]
  have hsched : parsedVip.svc.schedName = [] := hnames.1
  have hpe : parsedVip.svc.peName = [] := hnames.2
  rw [if_pos hsched]
  exact ⟨⟨rfl, hpe⟩, fun _ => trivial⟩

end Parse

theorem replyTrace_names (status : Status) (text : Str) :
    namesFit.Permits () (replyTrace conn status text) := by
  unfold replyTrace
  split_ifs <;> simp [Monitor.Permits, Monitor.only, Call.NamesFit]

theorem reportTrace_names (message : Str) (status : Status) :
    namesFit.Permits () (reportTrace conn message status) := by
  unfold reportTrace replyTrace
  split_ifs <;> simp [Monitor.Permits, Monitor.only, Call.NamesFit]

theorem updateWeight_names (vip : Str) (hostname kernels : Value) :
    (updateWeight jc libc conn vip hostname kernels).wp namesFit (fun _ _ => True)
      (fun _ _ => True) () := by
  refine ⟨trivial, fun _ => ?_⟩
  show ((Prog.ofExcept (hostname.asString jc)).bind _).wp _ _ _ _
  cases hostname.asString jc with
  | error x => trivial
  | ok server =>
    show ((Prog.ofExcept kernels.asInt).bind _).wp _ _ _ _
    cases kernels.asInt with
    | error x => trivial
    | ok weight =>
      show ((callSetWeight libc (cStr vip) server weight).bind _).wp _ _ _ _
      rw [wp_bind]
      refine ⟨trivial, fun _ => ?_⟩
      show ((setWeight libc (cStr vip) server weight).bind _).wp _ _ _ _
      rw [wp_bind]
      refine wp_mono (fun _ res _ => ⟨trivial, fun _ => ?_⟩) (fun _ _ h => h)
        (setWeight_names _ _ _ _)
      show Prog.wp _ _ _ _ _
      cases res.success with
      | false =>
        show ((reportError conn _ _).bind _).wp _ _ _ _
        rw [wp_bind]
        exact wp_mono (fun _ _ _ => ⟨trivial, fun _ => trivial⟩) (fun _ _ _ => trivial)
          (reportError_wp (reportTrace_names _ _))
      | true =>
        exact reply_wp (replyTrace_names _ _) (fun _ => ⟨trivial, fun _ => trivial⟩)
          fun _ => trivial

theorem handlePostRequest_names :
    (handlePostRequest jc libc config conn body).wp namesFit (fun _ _ => True) (fun _ _ => True)
      () := by
  rw [handlePostRequest_eq, wp_bind]
  refine wp_mono ?_ (fun _ _ h => h)
    (readConfiguration_wp ⟨trivial, trivial, trivial, trivial, trivial⟩)
  intro _ _ _
  cases verdict jc config body with
  | reject message status =>
    exact wp_mono (fun _ _ _ => trivial) (fun _ _ _ => trivial)
      (reportError_wp (reportTrace_names _ _))
  | abort x => trivial
  | grant hostname kernels => exact updateWeight_names _ _ _

/-! ## The simulation -/

variable {nl : Netlink.Libnl} {useNl : Bool} {w : Option Int} {q₀ q : Libipvs.NlHeap}
variable {v : Libipvs.Statics} {p : Progress} {tr : List CallEvent}

/-- A request for the weight `w`. -/
def Asks (useNl : Bool) (w : Option Int) (svc : Service) (dest : Dest) (cmd : SetDest) : Prop :=
  ipvsUpdateDest useNl svc dest = some cmd ∧ some cmd.record.weight = w

/-- What the handler knows (`p`), its calls so far (`tr`), and what libipvs has allocated and sent. -/
structure HandlerSim (nl : Netlink.Libnl) (useNl : Bool) (w : Option Int) (q₀ : Libipvs.NlHeap)
    (p : Progress) (tr : List CallEvent) (q : Libipvs.NlHeap) (v : Libipvs.Statics) : Prop where
  coherent : p.Coherent
  summary : p.summary = summarize tr
  tryNl : v.tryNl = useNl
  msgs : q.msgs = q₀.msgs
  socks : q.socks = q₀.socks
  fds : q.fds = q₀.fds
  blocks : q.blocks = q₀.blocks
  untried : p.update = none → q.told nl = q₀.told nl
  done : ∀ svc dest, p.update = some (svc, dest, 0) → ∃ cmd, Asks useNl w svc dest cmd ∧
    q.told nl = (q₀.requests nl ++ [.setDest cmd], q₀.carriedOut nl ++ [.setDest cmd])
  failed : ∀ svc dest r, p.update = some (svc, dest, r) → r ≠ 0 →
    q.carriedOut nl = q₀.carriedOut nl ∧ (q.requests nl = q₀.requests nl ∨
      ∃ cmd, Asks useNl w svc dest cmd ∧ q.requests nl = q₀.requests nl ++ [.setDest cmd])

/-- A call that libipvs does not see. -/
theorem HandlerSim.other (h : HandlerSim nl useNl w q₀ p tr q v) {e : Call}
    (he : ∀ svc dest, e ≠ .updateDest svc dest) (hallow : (protocol w).allows p e)
    (r : Call.Answer e) :
    HandlerSim nl useNl w q₀ ((protocol w).next p e r) (tr ++ [⟨e, r⟩]) q v := by
  have hsummary : ((protocol w).next p e r).summary = p.summary.next e := by
    cases e <;> rfl
  have hupdate : ((protocol w).next p e r).update = p.update := by
    cases e with
    | updateDest svc dest => exact absurd rfl (he svc dest)
    | _ => rfl
  refine ⟨h.coherent.next hallow r, ?_, h.tryNl, h.msgs, h.socks, h.fds, h.blocks, ?_, ?_, ?_⟩
  · rw [hsummary, summarize_snoc, h.summary]
  · rw [hupdate]; exact h.untried
  · rw [hupdate]; exact h.done
  · rw [hupdate]; exact h.failed

theorem asks_weight {svc : Service} {dest : Dest} {cmd : SetDest}
    (hrange : ∀ n, w = some n → Value.minInt ≤ n ∧ n ≤ Value.maxInt)
    (hweight : some dest.weight = w) (hcmd : ipvsUpdateDest useNl svc dest = some cmd) :
    Asks useNl w svc dest cmd := by
  refine ⟨hcmd, ?_⟩
  rw [ipvsUpdateDest_recordWeight hcmd, transmittedWeight_int useNl (hrange _ hweight.symm)]
  exact hweight

/-- The call that libipvs carries out. -/
theorem HandlerSim.update (h : HandlerSim nl useNl w q₀ p tr q v) {svc : Service} {dest : Dest}
    (hrange : ∀ n, w = some n → Value.minInt ≤ n ∧ n ≤ Value.maxInt)
    (hallow : (protocol w).allows p (.updateDest svc dest)) {user : Libipvs.ServiceUser}
    (huser : user.toService = svc) {q' : Libipvs.NlHeap} {v' : Libipvs.Statics} {r : Int}
    (hpost : Libipvs.CommandPost q v ((Libipvs.Command.updateDest user dest).sent nl v) q' v' r) :
    HandlerSim nl useNl w q₀ ((protocol w).next p (.updateDest svc dest) r) tr q' v' := by
  obtain ⟨-, hnone, hweight⟩ := id hallow
  have htold := hpost.told
  have hmeaning : ∀ request, (Libipvs.Command.updateDest user dest).meaning v.tryNl = some request →
      ∃ cmd, Asks useNl w svc dest cmd ∧ request = .setDest cmd := by
    intro request hrequest
    rw [h.tryNl] at hrequest
    obtain ⟨cmd, hcmd, rfl⟩ := Option.map_eq_some_iff.1 hrequest
    rw [huser] at hcmd
    exact ⟨cmd, asks_weight hrange hweight hcmd, rfl⟩
  have hbefore := h.untried hnone
  have hreqs : q.requests nl = q₀.requests nl := congrArg Prod.fst hbefore
  have hcarried : q.carriedOut nl = q₀.carriedOut nl := congrArg Prod.snd hbefore
  rw [hreqs, hcarried] at htold
  refine ⟨h.coherent.next hallow r, h.summary, hpost.tryNl.trans h.tryNl,
    hpost.done.msgs.trans h.msgs, hpost.done.socks.trans h.socks, hpost.done.fds.trans h.fds,
    hpost.blocks.blocks.trans h.blocks, fun hupdate => (by cases hupdate), ?_, ?_⟩
  · intro svc' dest' hupdate
    cases hupdate
    rcases htold with ⟨-, request, hrequest, htold⟩ | ⟨hr, -⟩
    · obtain ⟨cmd, hasks, rfl⟩ := hmeaning request hrequest
      exact ⟨cmd, hasks, htold⟩
    · exact absurd rfl hr
  · intro svc' dest' r' hupdate hr
    cases hupdate
    rcases htold with ⟨hzero, -⟩ | ⟨-, hsame, hsent⟩
    · exact absurd hzero hr
    · refine ⟨hsame, hsent.imp_right ?_⟩
      rintro ⟨request, hrequest, hreqs'⟩
      obtain ⟨cmd, hasks, rfl⟩ := hmeaning request hrequest
      exact ⟨cmd, hasks, hreqs'⟩

/-- Every call of a handler keeps the simulation. -/
theorem carryOut_wp {exn : List CallEvent × Libipvs.NlHeap → Failure → Prop}
    (hrange : ∀ n, w = some n → Value.minInt ≤ n ∧ n ≤ Value.maxInt) (e : Call)
    (h : HandlerSim nl useNl w q₀ p tr q v) (hallow : (protocol w).allows p e)
    (hnames : e.NamesFit) :
    Stateful.wp (fullRules nl) (carryOut e)
      (fun s v' r => HandlerSim nl useNl w q₀ ((protocol w).next p e r) s.1 s.2 v')
      exn (tr, q) v := by
  cases e with
  | updateDest svc dest =>
    obtain ⟨hsched, hpe⟩ : svc.schedName = lit "wlc" ∧ svc.peName = [] := hnames
    have hfits : Libipvs.FitsName svc.schedName ∧ Libipvs.FitsName svc.peName := by
      rw [hsched, hpe]
      decide
    have huser : svc.toUser = some ⟨svc, 0, hfits.1, hfits.2⟩ := dif_pos hfits
    simp only [carryOut, huser]
    have hprog := @Libipvs.Command.prog_wp nl (fun _ _ => False) q v
      (.updateDest ⟨svc, 0, hfits.1, hfits.2⟩ dest)
    refine Stateful.inr_wp (Stateful.wp_mono ?_ (fun _ _ hfault => hfault.elim) hprog)
    intro q' v' r hpost
    exact h.update hrange hallow rfl hpost
  | lock _ | unlock _ | log _ | setStatus _ | setHeaders _ | write _ | enterSetWeight _ _ _
  | leaveSetWeight _ | gethostbyname _ | getservbyname _ _ =>
    exact ⟨trivial, fun r => h.other (by simp) hallow r⟩

/-- The simulation says at its end what a handler leaves. -/
theorem HandlerSim.end (h : HandlerSim nl useNl w q₀ p tr q v) :
    HandlerEnd nl useNl w q₀ tr q := by
  have hstatus : ∀ status text, ⟨some status, responseHeaders, text⟩ ∈ (summarize tr).replies →
      (status = .ok ↔ p.Succeeded) := by
    intro status text hmem
    rw [← h.summary] at hmem
    obtain ⟨status', text', heq, -, hiff⟩ := h.coherent.replies _ hmem
    cases heq
    exact hiff
  refine ⟨h.msgs, h.socks, h.fds, h.blocks, fun hok => ?_, ?_, ?_⟩
  · obtain ⟨svc, dest, hupdate⟩ := (hstatus .ok okText hok).1 rfl
    obtain ⟨cmd, hasks, htold⟩ := h.done svc dest hupdate
    exact ⟨cmd, hasks.2, htold⟩
  · rintro ⟨message, status, hne, hmem⟩
    have hfailed : ¬ p.Succeeded := fun hsucc => hne ((hstatus status _ hmem).2 hsucc)
    cases hupdate : p.update with
    | none => exact congrArg Prod.snd (h.untried hupdate)
    | some u =>
      obtain ⟨svc, dest, r⟩ := u
      have hr : r ≠ 0 := by
        rintro rfl
        exact hfailed ⟨svc, dest, hupdate⟩
      exact (h.failed svc dest r hupdate hr).1
  · cases hupdate : p.update with
    | none => exact Or.inl (congrArg Prod.fst (h.untried hupdate))
    | some u =>
      obtain ⟨svc, dest, r⟩ := u
      by_cases hr : r = 0
      · subst hr
        obtain ⟨cmd, hasks, htold⟩ := h.done svc dest hupdate
        exact Or.inr ⟨cmd, hasks.2, congrArg Prod.fst htold⟩
      · refine (h.failed svc dest r hupdate hr).2.imp_right ?_
        rintro ⟨cmd, hasks, hreqs⟩
        exact ⟨cmd, hasks.2, hreqs⟩

/-- What a handler leaves, whether it returns or raises. -/
def handlerExn (nl : Netlink.Libnl) (useNl : Bool) (w : Option Int) (q₀ : Libipvs.NlHeap)
    (s : List CallEvent × Libipvs.NlHeap) (x : Failure) : Prop :=
  (∃ exn, x = Sum.inl exn) ∧ HandlerEnd nl useNl w q₀ s.1 s.2

theorem fullPostRequest_wp (nl : Netlink.Libnl) :
    Stateful.wp (fullRules nl) (fullPostRequest jc libc config conn body)
      (fun s _ _ => HandlerEnd nl v.tryNl (requestedWeight jc config body) q₀ s.1 s.2)
      (handlerExn nl v.tryNl (requestedWeight jc config body) q₀) ([], q₀) v := by
  have hrange := fun n => @requestedWeight_range jc config body n
  generalize hw : requestedWeight jc config body = w at hrange
  have hprotocol := handlePostRequest_protocol jc libc config conn body
  rw [hw] at hprotocol
  have hcall : ∀ (p : Progress × Unit) (s : List CallEvent × Libipvs.NlHeap) (v' : Libipvs.Statics)
      (e : Call), HandlerSim nl v.tryNl w q₀ p.1 s.1 s.2 v' →
      ((protocol w).both namesFit).allows p e →
      Stateful.wp (fullRules nl) (carryOut e) (fun s v' r =>
        HandlerSim nl v.tryNl w q₀ (((protocol w).both namesFit).next p e r).1 s.1 s.2 v')
        (handlerExn nl v.tryNl w q₀) s v' :=
    fun p s v' e hsim hallow => carryOut_wp hrange e hsim hallow.1 hallow.2
  have hinit : HandlerSim nl v.tryNl w q₀ .init [] q₀ v :=
    ⟨coherent_init, rfl, rfl, rfl, rfl, rfl, rfl, fun _ => rfl, fun _ _ h => (by cases h),
      fun _ _ _ h => by cases h⟩
  refine Stateful.wp_mono ?_ (fun _ _ h => h) (Prog.handle_wp hcall
    (fun _ _ _ x hsim _ => ⟨⟨x, rfl⟩, hsim.end⟩)
    (wp_both hprotocol (@handlePostRequest_names jc libc config conn body)) hinit)
  rintro s v' a ⟨p, hsim, -⟩
  exact hsim.end

/-- Whatever the environment does, a handler with libipvs under it keeps the rules of libnl and of the
    heap, ends as it should, and no fault of libipvs escapes from it. -/
theorem fullPostRequest_delivers {S : Type} (nl : Netlink.Libnl) (jc : Jsoncpp) (libc : Libc)
    (config : ConfigurationManager) (conn : Connection) (body : Str) (q₀ : Libipvs.NlHeap)
    (v : Libipvs.Statics)
    (env : Env (Call ⊕ Libipvs.NlCall) (SumAnswer Call.Answer Libipvs.NlCall.Answer) S) (s : S) :
    let run := (fullPostRequest jc libc config conn body v).run env s
    let final := (fullRules nl).after ([], q₀) run.trace
    (fullRules nl).Permits ([], q₀) run.trace ∧
      HandlerEnd nl v.tryNl (requestedWeight jc config body) q₀ final.1 final.2 ∧
      ∀ x, run.outcome = .error x → ∃ exn, x = Sum.inl exn := by
  intro run final
  obtain ⟨hpermits, hend⟩ := Stateful.wp_run
    (@fullPostRequest_wp jc libc config conn body q₀ v nl) env s
  refine ⟨hpermits, ?_, ?_⟩
  · rcases hend with ⟨a, v', -, hpost⟩ | ⟨x, -, -, hpost⟩
    · exact hpost
    · exact hpost
  · intro x hx
    rcases hend with ⟨a, v', hout, -⟩ | ⟨x', hout, hexn, -⟩
    · rw [hx] at hout
      cases hout
    · rw [hx] at hout
      cases hout
      exact hexn

end Ipvshttpd
