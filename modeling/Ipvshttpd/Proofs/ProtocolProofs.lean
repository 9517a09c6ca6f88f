import Ipvshttpd.Protocol
import Ipvshttpd.Resumption.Proofs.InterleaveProofs
import Ipvshttpd.Proofs.VerdictProofs

/-!
# Proofs: the protocol of a request handler

Every handler follows the protocol (`handlePostRequest_protocol`), and the protocol keeps an invariant
that ties the ghost state to itself (`Coherent`) and to the calls made so far (`Tracks`).
-/

namespace Ipvshttpd

open CLib Resumption Prog

variable {jc : Jsoncpp} {libc : Libc} {config : ConfigurationManager} {conn : Connection} {body : Str}
variable {w : Option Int} {q : Progress}

/-! ## Replies -/

theorem protocol_reply (w : Option Int) (conn : Connection) (q : Progress) (status : Status)
    (text : Str) (hinside : q.inside = false)
    (hreplies : q.summary.replies = []) (hstatus : status = .ok ↔ q.Succeeded)
    (htext : status.Fits text) :
    (protocol w).Permits q (replyTrace conn status text) ∧
      (protocol w).after q (replyTrace conn status text) =
        { q with summary := summary.after q.summary (replyTrace conn status text) } := by
  unfold replyTrace
  by_cases h1 : conn.raises .setStatus = true
  · simp [h1]
  by_cases h2 : conn.raises .setHeaders = true
  · simp only [h1, h2, if_true, Bool.false_eq_true, if_false]
    exact ⟨⟨⟨hinside, hreplies, hstatus⟩, trivial⟩, rfl⟩
  by_cases h3 : conn.raises .write = true
  · simp only [h1, h2, h3, if_true, Bool.false_eq_true, if_false]
    exact ⟨⟨⟨hinside, hreplies, hstatus⟩, rfl, trivial⟩, rfl⟩
  · simp only [h1, h2, h3, Bool.false_eq_true, if_false]
    exact ⟨⟨⟨hinside, hreplies, hstatus⟩, rfl, ⟨hreplies, rfl, status, rfl, htext⟩, trivial⟩, rfl⟩

theorem protocol_report (w : Option Int) (conn : Connection) (q : Progress) (message : Str)
    (status : Status) (hinside : q.inside = false) (hreplies : q.summary.replies = [])
    (hok : status ≠ .ok) (hfailed : ¬ q.Succeeded) :
    (protocol w).Permits q (reportTrace conn message status) ∧
      (protocol w).after q (reportTrace conn message status) =
        { q with summary := summary.after q.summary (replyTrace conn status (errorText message)) } := by
  obtain ⟨hpermits, hafter⟩ := protocol_reply w conn q status (errorText message) hinside hreplies
    ⟨fun h => absurd h hok, fun h => absurd h hfailed⟩ (Or.inr ⟨hok, message, rfl⟩)
  rcases conn.sound_or_raises with hs | hr
  · rw [reportTrace_sound hs]
    refine ⟨(Monitor.permits_append _ _ _ _).2 ⟨hpermits, trivial, trivial⟩, ?_⟩
    rw [Monitor.after_append, hafter]
    rfl
  · rw [reportTrace_raises hr]
    exact ⟨hpermits, hafter⟩

/-! ## The critical section -/

/-- `set_weight` follows the protocol, and reports success if the update has returned 0. -/
theorem setWeight_protocol {exn : Progress → Exn → Prop} (libc : Libc) (vip server : Str)
    (weight : Int)
    (hinside : q.inside = true) (hupdate : q.update = none) :
    (setWeight libc vip server weight).wp (protocol (some weight))
      (fun q' res => (res.success = true ↔ q'.Succeeded) ∧ ∃ u, q' = { q with update := u }) exn q := by
  have hlookup : Keeps (protocol (some weight)) Call.IsLookup (· = q) := by
    rintro q' e rfl he
    cases e <;> first | exact he.elim | exact ⟨hinside, fun _ => rfl⟩ | exact ⟨trivial, fun _ => rfl⟩
  refine wp_mono ?_ (fun _ _ h => h) (setWeight_wp libc vip server weight hlookup ?_ rfl)
  · rintro q' res (⟨hsuccess, hq⟩ | ⟨q₀, svc, dest, r, hq₀, -, rfl, hsuccess⟩)
    · refine ⟨⟨fun h => ?_, ?_⟩, q.update, hq⟩
      · rw [hsuccess] at h
        exact absurd h Bool.false_ne_true
      · rintro ⟨svc, dest, hsome⟩
        rw [hq, hupdate] at hsome
        cases hsome
    · refine ⟨?_, some (svc, dest, r), ?_⟩
      · rw [hsuccess, decide_eq_true_iff]
        constructor
        · rintro rfl
          exact ⟨svc, dest, rfl⟩
        · rintro ⟨svc', dest', hsome⟩
          have hr : (svc, dest, r) = (svc', dest', (0 : Int)) := Option.some.inj hsome
          simp only [Prod.mk.injEq] at hr
          exact hr.2.2
      · rw [hq₀]
        rfl
  · intro q' svc dest hq hdest
    rw [hq]
    exact ⟨hinside, hupdate, by rw [hdest]⟩

theorem callSetWeight_protocol {exn : Progress → Exn → Prop} (libc : Libc) (vip server : Str)
    (weight : Int) (hholding : q.holding = some .ipvs) (hupdate : q.update = none)
    (hstatus : q.summary.status = none) (hreplies : q.summary.replies = []) :
    (callSetWeight libc vip server weight).wp (protocol (some weight))
      (fun q' success => (success = true ↔ q'.Succeeded) ∧ q'.inside = false ∧
        q'.holding = some .ipvs ∧ q'.summary.replies = []) exn q := by
  refine ⟨⟨hholding, hupdate, hstatus, hreplies⟩, fun _ => ?_⟩
  show ((setWeight libc vip server weight).bind _).wp _ _ exn _
  rw [wp_bind]
  refine wp_mono ?_ (fun _ _ h => h) (setWeight_protocol libc vip server weight rfl hupdate)
  rintro _ res ⟨hsuccess, u, rfl⟩
  exact ⟨trivial, fun _ => ⟨hsuccess, rfl, hholding, hreplies⟩⟩

theorem unlock_protocol {status : Status} {text : Str} (hs : conn.Sound) (hinside : q.inside = false)
    (hholding : q.holding = some .ipvs) (hreplies : q.summary.replies = []) :
    (Act.unlock .ipvs).wp (protocol w)
      (fun q' _ => q'.holding = none ∧ q'.summary.replies.length = 1) (fun _ _ => False)
      { q with summary := summary.after q.summary (replyTrace conn status text) } := by
  have hone : (summary.after q.summary (replyTrace conn status text)).replies =
      [⟨some status, responseHeaders, text⟩] := by
    rw [summary_after_reply hs, hreplies]
    rfl
  refine ⟨⟨hholding, hinside, fun _ => by rw [hone]; simp⟩, fun _ => ⟨rfl, ?_⟩⟩
  show (summary.after q.summary (replyTrace conn status text)).replies.length = 1
  rw [hone]
  rfl

/-- A handler ends with the mutex released and one reply, or by an exception with the mutex held. -/
theorem updateWeight_protocol (vip : Str) {hostname kernels : Value} {weight : Int}
    (hk : kernels.asInt = .ok weight) :
    (updateWeight jc libc conn vip hostname kernels).wp (protocol (some weight))
      (fun q' _ => (q'.holding = none ∧ q'.summary.replies.length = 1) ∧ hostname.hasString = true ∧
        conn.Sound)
      (fun q' _ => q'.holding = some .ipvs ∧
        (hostname.hasString = false ∨ ∃ op, conn.raises op = true)) .init := by
  refine ⟨⟨rfl, fun _ => rfl⟩, fun _ => ?_⟩
  show ((Prog.ofExcept (hostname.asString jc)).bind _).wp _ _ _ _
  cases hs : hostname.asString jc with
  | error x =>
    refine ⟨rfl, Or.inl ?_⟩
    by_contra hstring
    obtain ⟨s, hs'⟩ := Value.asString_hasString jc (by simpa using hstring)
    rw [hs] at hs'
    cases hs'
  | ok server =>
    have hstring : hostname.hasString = true := Value.asString_ok_iff.1 ⟨server, hs⟩
    show ((Prog.ofExcept kernels.asInt).bind _).wp _ _ _ _
    rw [hk]
    show ((callSetWeight libc (cStr vip) server weight).bind _).wp _ _ _ _
    rw [wp_bind]
    refine wp_mono ?_ (fun _ _ h => h)
      (callSetWeight_protocol libc (cStr vip) server weight rfl rfl rfl rfl)
    rintro q' success ⟨hsuccess, hinside, hholding, hreplies⟩
    cases success with
    | false =>
      have hfailed : ¬ q'.Succeeded := fun h => absurd (hsuccess.2 h) Bool.false_ne_true
      obtain ⟨hpermits, hafter⟩ := protocol_report (some weight) conn q'
        (lit "Could not set weight.") .internalServerError hinside hreplies (by simp) hfailed
      show ((reportError conn (lit "Could not set weight.") .internalServerError).bind _).wp _ _ _ _
      rw [wp_bind]
      refine wp_mono ?_ ?_ (reportError_wp hpermits)
      · rintro _ _ ⟨hsound, rfl⟩
        rw [hafter]
        refine wp_mono (fun _ _ h => ⟨h, hstring, hsound⟩) (fun _ _ h => h.elim)
          (unlock_protocol hsound hinside hholding hreplies)
      · rintro _ _ ⟨hraises, rfl⟩
        rw [hafter]
        exact ⟨hholding, Or.inr hraises⟩
    | true =>
      obtain ⟨hpermits, hafter⟩ := protocol_reply (some weight) conn q' .ok okText hinside hreplies
        ⟨fun _ => hsuccess.1 rfl, fun _ => rfl⟩ (Or.inl ⟨rfl, rfl⟩)
      refine reply_wp hpermits (fun hsound => ?_) fun hraises => ?_
      · rw [hafter]
        refine wp_mono (fun _ _ h => ⟨h, hstring, hsound⟩) (fun _ _ h => h.elim)
          (unlock_protocol hsound hinside hholding hreplies)
      · rw [hafter]
        exact ⟨hholding, Or.inr hraises⟩

/-! ## The handler -/

/-- A request leaks exactly if its handler is granted an update that it cannot finish. -/
theorem leaks_iff (jc : Jsoncpp) (config : ConfigurationManager) (conn : Connection) (body : Str) :
    Request.Leaks jc config ⟨conn, body⟩ ↔
      ∃ hostname kernels, verdict jc config body = .grant hostname kernels ∧
        (hostname.hasString = false ∨ ∃ op, conn.raises op = true) := by
  constructor
  · rintro ⟨ms, hp, hadmits, hor⟩
    exact ⟨_, _, by rw [verdict_object config hp, verdictObject_of_admits hadmits], hor⟩
  · rintro ⟨hostname, kernels, hv, hor⟩
    obtain ⟨ms, hp, hadmits, rfl, rfl⟩ := verdict_grant hv
    exact ⟨ms, hp, hadmits, hor⟩

/-- Every handler follows the protocol. It returns with no mutex held and one reply, or an exception
    escapes from it, with `ipvs_mutex` held exactly if the request leaks. -/
theorem handlePostRequest_protocol (jc : Jsoncpp) (libc : Libc) (config : ConfigurationManager)
    (conn : Connection) (body : Str) :
    (handlePostRequest jc libc config conn body).wp (protocol (requestedWeight jc config body))
      (fun q _ => (q.holding = none ∧ q.summary.replies.length = 1) ∧
        ¬ Request.Leaks jc config ⟨conn, body⟩)
      (fun q _ => (q.holding = some .ipvs ∧ Request.Leaks jc config ⟨conn, body⟩) ∨
        (q.holding = none ∧ ¬ Request.Leaks jc config ⟨conn, body⟩)) .init := by
  rw [handlePostRequest_eq, wp_bind]
  have hread : (protocol (requestedWeight jc config body)).Permits .init (readTrace config) :=
    ⟨⟨rfl, fun h => by cases h⟩, trivial, trivial, ⟨rfl, rfl, fun h => by cases h⟩, trivial⟩
  refine wp_mono ?_ (fun _ _ h => h) (readConfiguration_wp hread)
  intro q _ hq
  have hinit : q = .init := hq
  rw [hinit]
  cases hv : verdict jc config body with
  | reject message status =>
    have hno : ¬ Request.Leaks jc config ⟨conn, body⟩ := by
      rw [leaks_iff]
      rintro ⟨_, _, hgrant, -⟩
      rw [hv] at hgrant
      cases hgrant
    obtain ⟨hpermits, hafter⟩ := protocol_report (requestedWeight jc config body) conn .init
      message status rfl rfl (verdict_reject hv) (by rintro ⟨_, _, h⟩; cases h)
    refine wp_mono ?_ ?_ (reportError_wp hpermits)
    · rintro _ _ ⟨hsound, rfl⟩
      rw [hafter]
      refine ⟨⟨rfl, ?_⟩, hno⟩
      show (summary.after Summary.init (replyTrace conn status (errorText message))).replies.length = 1
      rw [summary_after_reply hsound]
      rfl
    · rintro _ _ ⟨-, rfl⟩
      rw [hafter]
      exact Or.inr ⟨rfl, hno⟩
  | abort x =>
    refine Or.inr ⟨rfl, ?_⟩
    rw [leaks_iff]
    rintro ⟨_, _, hgrant, -⟩
    rw [hv] at hgrant
    cases hgrant
  | grant hostname kernels =>
    obtain ⟨ms, hp, hadmits, rfl, rfl⟩ := verdict_grant hv
    obtain ⟨weight, hk, -⟩ := Value.asInt_of_isInt hadmits.2.2
    have hweight : requestedWeight jc config body = some weight := by
      simp [requestedWeight, hv, hk, Except.toOption]
    rw [hweight]
    refine wp_mono ?_ ?_ (updateWeight_protocol config.getVip hk)
    · rintro q' _ ⟨hdone, hstring, hsound⟩
      refine ⟨hdone, ?_⟩
      rw [leaks_iff]
      rintro ⟨_, _, hgrant, hor⟩
      rw [hv, Verdict.grant.injEq] at hgrant
      obtain ⟨rfl, rfl⟩ := hgrant
      rcases hor with hfalse | hraises
      · rw [hstring] at hfalse
        cases hfalse
      · exact hsound.not_raises hraises
    · rintro q' _ ⟨hholding, hor⟩
      exact Or.inl ⟨hholding, (leaks_iff ..).2 ⟨_, _, hv, hor⟩⟩

/-! ## The invariant of the protocol -/

/-- What the ghost state of a handler that follows the protocol says about itself. -/
structure Progress.Coherent (q : Progress) : Prop where
  inside : q.inside = true →
    q.holding = some .ipvs ∧ q.summary.status = none ∧ q.summary.replies = []
  holding : q.holding = some .ipvs → q.taken = true
  update : q.update ≠ none → q.taken = true
  released : q.taken = true → q.holding = some .ipvs ∨ q.summary.replies ≠ []
  status : ∀ status, q.summary.status = some status → (status = .ok ↔ q.Succeeded)
  replies : ∀ reply ∈ q.summary.replies, ∃ status text,
    reply = ⟨some status, responseHeaders, text⟩ ∧ status.Fits text ∧ (status = .ok ↔ q.Succeeded)

theorem coherent_init : Progress.init.Coherent where
  inside h := by cases h
  holding h := by cases h
  update h := absurd rfl h
  released h := by cases h
  status _ h := by cases h
  replies _ h := by cases h

/-- A call that only concerns the summary, and there neither the status nor the replies. -/
theorem Progress.Coherent.of_summary {s : Summary} (h : q.Coherent)
    (hstatus : s.status = q.summary.status) (hreplies : s.replies = q.summary.replies) :
    ({ q with summary := s } : Progress).Coherent where
  inside hin := by
    obtain ⟨h1, h2, h3⟩ := h.inside hin
    exact ⟨h1, hstatus.trans h2, hreplies.trans h3⟩
  holding := h.holding
  update := h.update
  released htaken := by
    rcases h.released htaken with hheld | hne
    · exact Or.inl hheld
    · exact Or.inr (by rwa [hreplies])
  status st hst := h.status st (hstatus ▸ hst)
  replies reply hmem := h.replies reply (hreplies ▸ hmem)

/-- Every allowed call keeps the invariant. -/
theorem Progress.Coherent.next (h : q.Coherent) {e : Call} (hallow : (protocol w).allows q e)
    (r : Call.Answer e) : ((protocol w).next q e r).Coherent := by
  cases e with
  | lock m =>
    obtain ⟨hnone, hfresh⟩ := hallow
    have hout : q.inside ≠ true := fun hin => by
      have hheld := (h.inside hin).1
      rw [hnone] at hheld
      cases hheld
    refine ⟨fun hin => absurd hin hout, fun hheld => ?_, fun hu => ?_, fun htaken => ?_, h.status,
      h.replies⟩
    · have hm : m = .ipvs := Option.some.inj hheld
      simp [protocol, hm]
    · have htaken : q.taken = true := h.update hu
      simp [protocol, htaken]
    · cases m with
      | ipvs => exact Or.inl rfl
      | configuration =>
        have htaken' : q.taken = true := by simpa [protocol] using htaken
        rcases h.released htaken' with hheld | hne
        · rw [hnone] at hheld
          cases hheld
        · exact Or.inr hne
  | unlock m =>
    obtain ⟨hheld, hout, hreplied⟩ := hallow
    refine ⟨fun hin => ?_, fun hh => (by cases hh), h.update, fun htaken => Or.inr ?_, h.status,
      h.replies⟩
    · have hin' : q.inside = true := hin
      rw [hout] at hin'
      cases hin'
    · rcases h.released htaken with hh | hne
      · rw [hheld] at hh
        exact hreplied (Option.some.inj hh)
      · exact hne
  | setStatus status =>
    obtain ⟨hout, hreplies, hstatus⟩ := hallow
    refine ⟨fun hin => ?_, h.holding, h.update, h.released, ?_, h.replies⟩
    · have hin' : q.inside = true := hin
      rw [hout] at hin'
      cases hin'
    · intro status' hs
      rw [← Option.some.inj hs]
      exact hstatus
  | write text =>
    obtain ⟨hreplies, hheaders, status, hstatus, hfits⟩ := hallow
    have hok := h.status status hstatus
    refine ⟨fun hin => ?_, h.holding, h.update, fun _ => Or.inr (by simp [protocol, Summary.next]),
      h.status, ?_⟩
    · have hnone := (h.inside hin).2.1
      rw [hstatus] at hnone
      cases hnone
    · intro reply hmem
      have hreply : reply = ⟨q.summary.status, q.summary.headers, text⟩ := by
        simpa [protocol, Summary.next, hreplies] using hmem
      exact ⟨status, text, by rw [hreply, hstatus, hheaders], hfits, hok⟩
  | enterSetWeight vip server weight =>
    obtain ⟨hheld, -, hstatus, hreplies⟩ := hallow
    exact ⟨fun _ => ⟨hheld, hstatus, hreplies⟩, h.holding, h.update, h.released, h.status, h.replies⟩
  | leaveSetWeight success =>
    exact ⟨fun hin => (by cases hin), h.holding, h.update, h.released, h.status, h.replies⟩
  | updateDest svc dest =>
    obtain ⟨hin, -, -⟩ := hallow
    obtain ⟨hheld, hstatus, hreplies⟩ := h.inside hin
    refine ⟨h.inside, h.holding, fun _ => h.holding hheld, h.released, fun status hs => ?_,
      fun reply hmem => ?_⟩
    · rw [show ((protocol w).next q (.updateDest svc dest) r).summary.status = q.summary.status
        from rfl, hstatus] at hs
      cases hs
    · rw [show ((protocol w).next q (.updateDest svc dest) r).summary.replies = q.summary.replies
        from rfl, hreplies] at hmem
      cases hmem
  | log c => exact h.of_summary rfl rfl
  | setHeaders headers => exact h.of_summary rfl rfl
  | gethostbyname name => exact h.of_summary rfl rfl
  | getservbyname name proto => exact h.of_summary rfl rfl

/-! ## The ghost state and the calls -/

/-- The mutexes that a handler holds, read off its own calls. -/
theorem protocol_held {e : Call} (hallow : (protocol w).allows q e) (r : Call.Answer e) :
    (fun m => decide (((protocol w).next q e r).holding = some m)) =
      mutexOps.monitor.next (fun m => decide (q.holding = some m)) e r := by
  cases e with
  | lock m =>
    have hholding : q.holding = none := hallow.1
    funext l
    by_cases hl : l = m
    · subst hl
      simp [protocol, LockOps.monitor, mutexOps]
    · simp [protocol, LockOps.monitor, mutexOps, hl, Ne.symm hl, hholding]
  | unlock m =>
    have hholding : q.holding = some m := hallow.1
    funext l
    by_cases hl : l = m
    · subst hl
      simp [protocol, LockOps.monitor, mutexOps]
    · simp [protocol, LockOps.monitor, mutexOps, hl, Ne.symm hl, hholding]
  | _ => rfl

/-- The table after an update with the result `r`. -/
def updatedTable (useNl : Bool) (svc : Service) (dest : Dest) (r : Int) (t : Table) : Table :=
  if r = 0 then
    match ipvsUpdateDest useNl svc dest with
    | some cmd => cmd.apply t
    | none => t
  else t

/-- What a call makes of the table. -/
def tableDelta (useNl : Bool) (e : Call) (r : Call.Answer e) (t : Table) : Table :=
  match e, r with
  | .updateDest svc dest, r => updatedTable useNl svc dest r t
  | _, _ => t

/-- The ghost state agrees with the calls made so far. -/
structure Tracks (useNl : Bool) (weight : Option Int) (tr : List CallEvent) (q : Progress) : Prop where
  summary : q.summary = summarize tr
  inside : q.inside = insideSetWeight tr
  held : mutexOps.held tr = fun m => decide (q.holding = some m)
  weight : ∀ svc dest r, q.update = some (svc, dest, r) → some dest.weight = weight
  update_iff : ∀ svc dest (r : Int), (⟨.updateDest svc dest, r⟩ : CallEvent) ∈ tr ↔
    q.update = some (svc, dest, r)
  target : addressed useNl tr = q.update.bind fun (svc, dest, _) =>
    (ipvsUpdateDest useNl svc dest).map fun cmd => (cmd.service, cmd.dest)
  table : ∀ t, effect (tableDelta useNl) tr t = match q.update with
    | some (svc, dest, r) => updatedTable useNl svc dest r t
    | none => t

theorem tracks_init (useNl : Bool) (weight : Option Int) : Tracks useNl weight [] .init where
  summary := rfl
  inside := rfl
  held := rfl
  weight _ _ _ h := by cases h
  update_iff _ _ _ := ⟨fun h => (by cases h), fun h => (by cases h)⟩
  target := rfl
  table _ := rfl

theorem summarize_snoc (tr : List CallEvent) (e : Call) (r : Call.Answer e) :
    summarize (tr ++ [⟨e, r⟩]) = (summarize tr).next e := by
  unfold summarize
  rw [Monitor.after_append]
  rfl

theorem insideSetWeight_snoc (tr : List CallEvent) (e : Call) (r : Call.Answer e) :
    insideSetWeight (tr ++ [⟨e, r⟩]) =
      match e with
      | .enterSetWeight _ _ _ => true
      | .leaveSetWeight _ => false
      | _ => insideSetWeight tr := by
  unfold insideSetWeight
  rw [List.foldl_append]
  cases e <;> rfl

/-- A call that is no update keeps what the ghost state says about updates. -/
theorem Tracks.next_other {useNl : Bool} {tr : List CallEvent} (h : Tracks useNl w tr q) {e : Call}
    (he : ∀ svc dest, e ≠ .updateDest svc dest) (hallow : (protocol w).allows q e)
    (r : Call.Answer e)
    (hinside : ((protocol w).next q e r).inside = insideSetWeight (tr ++ [⟨e, r⟩]))
    (hsummary : ((protocol w).next q e r).summary = q.summary.next e)
    (hupdate : ((protocol w).next q e r).update = q.update) :
    Tracks useNl w (tr ++ [⟨e, r⟩]) ((protocol w).next q e r) where
  summary := by rw [hsummary, h.summary, summarize_snoc]
  inside := hinside
  held := by rw [held_snoc, h.held, protocol_held hallow]
  weight := by
    rw [hupdate]
    exact h.weight
  update_iff svc dest r' := by
    rw [hupdate, ← h.update_iff, List.mem_append, List.mem_singleton]
    constructor
    · rintro (hmem | heq)
      · exact hmem
      · exact absurd (congrArg Sigma.fst heq).symm (he svc dest)
    · exact Or.inl
  target := by
    have hnone : addressed useNl [(⟨e, r⟩ : CallEvent)] = none := by
      cases e with
      | updateDest svc dest => exact absurd rfl (he svc dest)
      | _ => rfl
    unfold addressed at hnone ⊢
    rw [List.findSome?_append, hnone, Option.or_none, hupdate]
    exact h.target
  table t := by
    have hid : ∀ t, tableDelta useNl e r t = t := by
      intro t
      cases e with
      | updateDest svc dest => exact absurd rfl (he svc dest)
      | _ => rfl
    rw [effect_snoc, hid, hupdate]
    exact h.table t

theorem Tracks.next_update {useNl : Bool} {tr : List CallEvent} (h : Tracks useNl w tr q)
    {svc : Service} {dest : Dest} (hallow : (protocol w).allows q (.updateDest svc dest)) (r : Int) :
    Tracks useNl w (tr ++ [⟨.updateDest svc dest, r⟩])
      ((protocol w).next q (.updateDest svc dest) r) := by
  obtain ⟨hin, hnone, hweight⟩ := id hallow
  have hupdate : ((protocol w).next q (.updateDest svc dest) r).update = some (svc, dest, r) := rfl
  have hbefore : addressed useNl tr = none := by rw [h.target, hnone]; rfl
  refine ⟨?_, ?_, ?_, ?_, ?_, ?_, ?_⟩
  · rw [summarize_snoc, ← h.summary]
    rfl
  · rw [insideSetWeight_snoc, ← h.inside]
    rfl
  · rw [held_snoc, h.held, protocol_held hallow]
  · intro svc' dest' r' hsome
    rw [hupdate, Option.some.injEq, Prod.mk.injEq, Prod.mk.injEq] at hsome
    rw [← hsome.2.1]
    exact hweight
  · intro svc' dest' r'
    rw [hupdate, List.mem_append, List.mem_singleton, h.update_iff, hnone]
    constructor
    · rintro (hsome | heq)
      · cases hsome
      · cases heq
        rfl
    · intro hsome
      rw [Option.some.injEq, Prod.mk.injEq, Prod.mk.injEq] at hsome
      obtain ⟨rfl, rfl, rfl⟩ := hsome
      exact Or.inr rfl
  · unfold addressed at hbefore ⊢
    rw [List.findSome?_append, hbefore, Option.none_or, hupdate]
    simp
  · intro t
    rw [effect_snoc, h.table, hnone, hupdate]
    rfl

/-- Every allowed call keeps the agreement. -/
theorem Tracks.next {useNl : Bool} {tr : List CallEvent} (h : Tracks useNl w tr q) {e : Call}
    (hallow : (protocol w).allows q e) (r : Call.Answer e) :
    Tracks useNl w (tr ++ [⟨e, r⟩]) ((protocol w).next q e r) := by
  cases e with
  | updateDest svc dest => exact h.next_update hallow r
  | enterSetWeight vip server weight =>
    exact h.next_other (by simp) hallow r (by rw [insideSetWeight_snoc]; rfl) rfl rfl
  | leaveSetWeight success =>
    exact h.next_other (by simp) hallow r (by rw [insideSetWeight_snoc]; rfl) rfl rfl
  | _ => exact h.next_other (by simp) hallow r (by rw [insideSetWeight_snoc]; exact h.inside) rfl rfl

end Ipvshttpd
