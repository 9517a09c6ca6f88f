import Ipvshttpd.Proofs.LibipvsCommandsProofs
import Ipvshttpd.Proofs.LibipvsMeaningProofs

/-!
# Proofs: runs of libipvs

What a command of libipvs leaves, and which request has then been sent and confirmed.
-/

namespace Ipvshttpd.Libipvs

open CLib Netlink Resumption Lib

variable {nl : Libnl} {exn : NlHeap → Fault → Prop} {q : NlHeap} {v : Statics}

/-! ## Commands -/

/-- The object of a command without an answer: nothing, and the heap as it was. -/
def untouched (q : NlHeap) : ObjectInv Unit := fun _ blocks orphans _ =>
  blocks = q.blocks ∧ orphans = q.orphans

theorem noop_keeps (q₀ : NlHeap) : ipvsNlNoopCb.Keeps nl exn (untouched q₀) :=
  fun _ _ _ q v _ hI => ⟨.refl q, .refl v, hI⟩

theorem untouched_weak (q : NlHeap) (ms : List Bytes) (b o : List Nat) (arg : Unit)
    (h : untouched q (some ms) b o arg) : untouched q none b o arg := h

/-- What a command leaves: what it has sent, in case of success, and the transport as it was. -/
structure CommandPost (q : NlHeap) (v : Statics) (sent : List Sent) (q' : NlHeap) (v' : Statics)
    (r : Int) : Prop where
  done : q.Done sent False r q'
  blocks : q.SameBlocks q'
  tryNl : v'.tryNl = v.tryNl
  sockfd : v'.sockfd = v.sockfd
  inexpressible : sent = [] → r = -1
  refused : v.tryNl = false → r ≠ 0 → q'.answered = q.answered

theorem noop_accepts : ipvsNlNoopCb.Accepts := fun _ arg => ⟨arg, rfl⟩

theorem request_command {q' : NlHeap} {v' : Statics} {m : NlMsg} {r : Int × Unit}
    (h : RequestPost q v [.netlink m] (¬ ipvsNlNoopCb.Accepts) (untouched q) q' v' r)
    (hnl : v.tryNl = true) :
    CommandPost q v [.netlink m] q' v' r.1 :=
  ⟨h.done.mono fun h => h noop_accepts, ⟨h.object.1, h.object.2⟩, h.way.tryNl, h.way.sockfd,
    fun h => (by cases h), fun h => (by rw [hnl] at h; cases h)⟩

theorem sockopt_command (opt : SetOpt) {v₀ : Statics} (htry : v.tryNl = v₀.tryNl)
    (hfd : v.sockfd = v₀.sockfd) :
    Stateful.wp (nlRules nl) (setsockopt v.sockfd opt) (CommandPost q v₀ [.sockopt opt]) exn q v := by
  rw [wp_setsockopt]
  refine ⟨⟨.of_success rfl rfl rfl rfl rfl, ⟨rfl, rfl⟩, htry, hfd, fun h => (by cases h),
    fun _ h => absurd rfl h⟩, fun err => ?_⟩
  exact ⟨.of_failure rfl rfl rfl (Or.inl rfl) (Or.inl rfl), ⟨rfl, rfl⟩, htry, hfd,
    fun h => (by cases h), fun _ _ => rfl⟩

/-- What the function `command` sends. -/
def commandSent (v : Statics) (cmd : Nat) (attrs : List Attr) (compat : Bool) (opt : SetOpt) :
    List Sent :=
  if v.tryNl then [.netlink (requestMsg v cmd 0 attrs)] else if compat then [.sockopt opt] else []

theorem command_wp {fill : Nat → Lib Int} {attrs : List Attr} (hfill : Fills nl exn fill attrs)
    (func : IpvsFunc) (cmd : Nat) (compat : Bool) (opt : SetOpt) :
    Stateful.wp (nlRules nl) (command func cmd fill compat opt)
      (CommandPost q v (commandSent v cmd attrs compat opt)) exn q v := by
  simp only [command, commandSent, Stateful.wp_bind, wp_setFunc, Stateful.wp_get]
  by_cases hnl : v.tryNl = true
  · rw [if_pos hnl, if_pos hnl]
    rw [Stateful.wp_bind]
    refine Stateful.wp_mono ?_ (fun _ _ h => h)
      (nlRequest_wp (noop_keeps q) (untouched_weak q) hfill cmd 0 () ⟨rfl, rfl⟩)
    intro q' v' r h
    obtain ⟨hdone, hblocks, htry, hfd, hnone, hrefused⟩ := request_command h hnl
    exact ⟨hdone, hblocks, htry, hfd, hnone, hrefused⟩
  · rw [if_neg hnl, if_neg hnl]
    cases compat with
    | true => exact sockopt_command opt rfl rfl
    | false =>
      exact ⟨.of_failure rfl rfl rfl (Or.inl rfl) (Or.inl rfl), ⟨rfl, rfl⟩, rfl, rfl, fun _ => rfl,
        fun _ _ => rfl⟩

/-- Every command keeps the rules and sends what it should. -/
theorem Command.prog_wp (c : Command) :
    Stateful.wp (nlRules nl) c.prog (CommandPost q v (c.sent nl v)) exn q v := by
  have hsvc : ∀ svc, Fills nl exn (ipvsNlFillServiceAttr · svc)
      [⟨ipvsCmdAttrService, nl.stream (serviceAttrs svc)⟩] := fun svc =>
    nlaNest_fills ipvsCmdAttrService (serviceAttrs svc)
  have hsent : ∀ (cmd : Nat) (attrs : List Attr) (compat : Bool) (opt : SetOpt),
      c.message nl = (cmd, attrs) → c.sockopt = (if compat then some opt else none) →
      c.sent nl v = commandSent v cmd attrs compat opt := by
    intro cmd attrs compat opt hmessage hopt
    simp only [Command.sent, commandSent, hmessage, hopt, requestMsg]
    cases compat <;> rfl
  cases c with
  | flush =>
    simp only [Command.prog, ipvsFlush, Stateful.wp_bind, Stateful.wp_get]
    by_cases hnl : v.tryNl = true
    · have hflush : Command.flush.sent nl v = [.netlink (requestMsg v ipvsCmdFlush 0 [])] := by
        simp only [Command.sent, hnl]
        rfl
      rw [if_pos hnl, hflush, Stateful.wp_bind]
      refine Stateful.wp_mono ?_ (fun _ _ h => h) (nlRequest_wp (noop_keeps q)
        (untouched_weak q) noFill_fills ipvsCmdFlush 0 () ⟨rfl, rfl⟩)
      intro q' v' r h
      have hcommand := request_command h hnl
      have hr : (if r.1 = 0 then (0 : Int) else -1) = r.1 := by
        rcases h.done.result with h0 | h1
        · rw [h0]; rfl
        · rw [h1]; rfl
      rw [Stateful.wp_pure, hr]
      exact hcommand
    · have hflush : Command.flush.sent nl v = [.sockopt .flush] := by
        simp only [Command.sent, hnl]
        rfl
      rw [if_neg hnl, hflush]
      exact sockopt_command .flush rfl rfl
  | addService svc =>
    rw [hsent _ _ (checkCompatSvc svc) (.add svc.kern) rfl rfl]
    exact command_wp (hsvc svc) _ _ _ _
  | updateService svc =>
    rw [hsent _ _ (checkCompatSvc svc) (.edit svc.kern) rfl rfl]
    exact command_wp (hsvc svc) _ _ _ _
  | delService svc =>
    rw [hsent _ _ (checkCompatSvc svc) (.del svc.kern) rfl rfl]
    exact command_wp (hsvc svc) _ _ _ _
  | zeroService svc =>
    have hfill : Fills nl exn
        (fun msg => if svc.IsGiven then ipvsNlFillServiceAttr msg svc else pure 0)
        (if svc.IsGiven then [⟨ipvsCmdAttrService, nl.stream (serviceAttrs svc)⟩] else []) := by
      by_cases hgiven : svc.IsGiven
      · simp only [if_pos hgiven]
        exact hsvc svc
      · simp only [if_neg hgiven]
        exact noFill_fills
    rw [hsent _ _ (checkCompatSvc svc) (.zero svc.kern) rfl rfl]
    exact command_wp hfill _ _ _ _
  | addDest svc dest =>
    rw [hsent _ _ (checkCompatBoth svc dest) (.addDest svc.kern (destKern dest)) rfl rfl]
    exact command_wp (fillDest_fills svc dest) _ _ _ _
  | updateDest svc dest =>
    rw [hsent _ _ (checkCompatBoth svc dest) (.editDest svc.kern (destKern dest)) rfl rfl]
    exact command_wp (fillDest_fills svc dest) _ _ _ _
  | delDest svc dest =>
    rw [hsent _ _ (checkCompatBoth svc dest) (.delDest svc.kern (destKern dest)) rfl rfl]
    exact command_wp (fillDest_fills svc dest) _ _ _ _
  | setTimeout timeouts =>
    rw [hsent _ _ true (.timeout timeouts) rfl rfl]
    exact command_wp (nlaPuts_fills (timeoutAttrs timeouts)) _ _ _ _
  | startDaemon dm =>
    rw [hsent _ _ true (.startDaemon ⟨dm.state, cStr dm.mcastIfn, dm.syncid⟩) rfl rfl]
    exact command_wp (nlaNest_fills _ _) _ _ _ _
  | stopDaemon dm =>
    rw [hsent _ _ true (.stopDaemon ⟨dm.state, [], 0⟩) rfl rfl]
    exact command_wp (nlaNest_fills _ _) _ _ _ _

/-! ## What the kernel is told -/

/-- What has been sent by a command is the request that it means. -/
theorem sent_requests (c : Command) :
    (c.sent nl v).filterMap (Sent.request nl) = (c.meaning v.tryNl).toList := by
  have h := congrArg (List.filterMap id) (@sent_request nl v c)
  simpa [List.filterMap_map, Function.comp_def] using h

/-- What has been answered as requests. -/
theorem handled_append {q' : NlHeap} {sent : List Sent} {confirmed : Bool}
    (h : q'.answered = q.answered ++ sent.map (·, confirmed)) :
    q'.handled nl = q.handled nl ++ (sent.filterMap (Sent.request nl)).map (·, confirmed) := by
  have hmap : ∀ s : List Sent, (s.map (·, confirmed)).filterMap
      (fun a : Sent × Bool => (a.1.request nl).map (·, a.2)) =
        (s.filterMap (Sent.request nl)).map (·, confirmed) := by
    intro s
    rw [List.filterMap_map, List.map_filterMap]
    rfl
  simp only [NlHeap.handled, h, List.filterMap_append, hmap]

theorem carriedOut_append {q' : NlHeap} {request : Request} {confirmed : Bool}
    (h : q'.handled nl = q.handled nl ++ [(request, confirmed)]) :
    q'.carriedOut nl = q.carriedOut nl ++ (if confirmed then [request] else []) := by
  simp only [NlHeap.carriedOut, h, List.filterMap_append]
  cases confirmed <;> rfl

/-- A command that returns 0 has been confirmed. Over netlink the kernel may have answered any other one
    with an error; by `setsockopt` it has not. -/
theorem CommandPost.handled {c : Command} {q' : NlHeap} {v' : Statics} {r : Int}
    (h : CommandPost q v (c.sent nl v) q' v' r) :
    (r = 0 ∧ ∃ request, c.meaning v.tryNl = some request ∧
      q'.requests nl = q.requests nl ++ [request] ∧
      q'.handled nl = q.handled nl ++ [(request, true)]) ∨
    (r = -1 ∧ (q'.handled nl = q.handled nl ∨ (v.tryNl = true ∧ ∃ request,
      c.meaning v.tryNl = some request ∧ q'.handled nl = q.handled nl ++ [(request, false)]))) := by
  have hsent := @sent_requests nl v c
  by_cases hr : r = 0
  · obtain ⟨hq', hanswered⟩ := h.done.success hr
    have hhandled := @handled_append nl _ _ _ _ hanswered
    have hrequests : q'.requests nl = q.requests nl ++ (c.meaning v.tryNl).toList := by
      rw [← hsent]
      simp only [NlHeap.requests, hq', List.filterMap_append]
    rw [hsent] at hhandled
    cases hmeaning : c.meaning v.tryNl with
    | none =>
      have hnone : c.sent nl v = [] := by
        have hmap := @sent_request nl v c
        rw [hmeaning] at hmap
        exact List.map_eq_nil_iff.1 hmap
      have hneg := h.inexpressible hnone
      rw [hneg] at hr
      exact absurd hr (by decide)
    | some request =>
      rw [hmeaning] at hhandled hrequests
      exact Or.inl ⟨hr, request, rfl, hrequests, hhandled⟩
  · refine Or.inr ⟨h.done.result.resolve_left hr, ?_⟩
    have hsame : q'.answered = q.answered → q'.handled nl = q.handled nl := fun heq => by
      simp only [NlHeap.handled, heq]
    by_cases hnl : v.tryNl = true
    · rcases (h.done.failure hr).2 with hanswered | ⟨confirmed, hconfirmed, hanswered⟩
      · exact Or.inl (hsame hanswered)
      · have hfalse : confirmed = false := Bool.eq_false_iff.2 hconfirmed
        have hhandled := @handled_append nl _ _ _ _ hanswered
        rw [hsent, hfalse] at hhandled
        cases hmeaning : c.meaning v.tryNl with
        | none =>
          rw [hmeaning] at hhandled
          exact Or.inl (by rw [hhandled]; exact List.append_nil _)
        | some request =>
          rw [hmeaning] at hhandled
          exact Or.inr ⟨hnl, request, rfl, hhandled⟩
    · exact Or.inl (hsame (h.refused (Bool.eq_false_iff.2 hnl) hr))

/-- A command that returns 0 has sent its request once, and the kernel has confirmed it. Any other one
    has sent it at most once, and nothing has been confirmed. -/
theorem CommandPost.told {c : Command} {q' : NlHeap} {v' : Statics} {r : Int}
    (h : CommandPost q v (c.sent nl v) q' v' r) :
    (r = 0 ∧ ∃ request, c.meaning v.tryNl = some request ∧
      q'.told nl = (q.requests nl ++ [request], q.carriedOut nl ++ [request])) ∨
    (r ≠ 0 ∧ q'.carriedOut nl = q.carriedOut nl ∧
      (q'.requests nl = q.requests nl ∨ ∃ request, c.meaning v.tryNl = some request ∧
        q'.requests nl = q.requests nl ++ [request])) := by
  rcases h.handled with ⟨hr, request, hmeaning, hrequests, hhandled⟩ | ⟨hr, hhandled⟩
  · exact Or.inl ⟨hr, request, hmeaning, Prod.ext hrequests (carriedOut_append hhandled)⟩
  · have hne : r ≠ 0 := by rw [hr]; decide
    have hcarried : q'.carriedOut nl = q.carriedOut nl := by
      rcases hhandled with hsame | ⟨-, request, -, hnew⟩
      · simp only [NlHeap.carriedOut, hsame]
      · rw [carriedOut_append hnew]
        exact List.append_nil _
    refine Or.inr ⟨hne, hcarried, ?_⟩
    rcases (h.done.failure hne).1 with hq' | hq'
    · exact Or.inl (by simp only [NlHeap.requests, hq'])
    · have hnew : q'.requests nl = q.requests nl ++ (c.meaning v.tryNl).toList := by
        rw [← @sent_requests nl v c]
        simp only [NlHeap.requests, hq', List.filterMap_append]
      cases hmeaning : c.meaning v.tryNl with
      | none =>
        rw [hmeaning] at hnew
        exact Or.inl (by rw [hnew]; exact List.append_nil _)
      | some request =>
        rw [hmeaning] at hnew
        exact Or.inr ⟨request, rfl, hnew⟩

end Ipvshttpd.Libipvs
