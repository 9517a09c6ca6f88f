import Mathlib.Algebra.Order.Ring.Rat
import Ipvshttpd.Observation
import Ipvshttpd.Verdict
import Ipvshttpd.Proofs.IpvsInterfaceProofs

/-!
# Proofs: the request handler

The handler reads the configuration, decides, and carries its decision out
(`handlePostRequest_eq`). Reading the configuration and replying are fixed sequences of calls, so
their weakest preconditions are given by a trace. An admitted request ends in one call of
`set_weight` and one reply, or in an exception (`updateWeight_summary`).
-/

namespace Ipvshttpd

open CLib Resumption Prog

variable {jc : Jsoncpp} {libc : Libc} {config : ConfigurationManager} {conn : Connection} {body : Str}

/-! ## Accessors -/

theorem member_object (ms : List (Str × Value)) (key : String) :
    (Value.object ms).member (lit key) = .ok (field ms key) := rfl

/-- The comparison with a string is by type and content. -/
theorem Value.eqString_iff {v : Value} {s : Str} : v.eqString s = true ↔ v = .string s := by
  cases v <;> simp [Value.eqString]

theorem Value.asString_hasString (jc : Jsoncpp) {v : Value} (h : v.hasString = true) :
    ∃ s, v.asString jc = .ok s := by
  cases v <;> simp_all [Value.asString, Value.hasString]

theorem Value.asString_error {v : Value} (jc : Jsoncpp) (h : v.hasString = false) :
    v.asString jc = .error .logicError := by
  cases v <;> simp_all [Value.asString, Value.hasString]

theorem Value.asString_ok_iff {v : Value} {jc : Jsoncpp} :
    (∃ s, v.asString jc = .ok s) ↔ v.hasString = true := by
  constructor
  · rintro ⟨s, hs⟩
    by_contra hv
    rw [Value.asString_error jc (by simpa using hv)] at hs
    cases hs
  · exact Value.asString_hasString jc

/-- `asInt` does not raise on what `isInt` accepts, and gives a number in the range of `int`. -/
theorem Value.asInt_of_isInt {v : Value} (h : v.isInt = true) :
    ∃ n, v.asInt = .ok n ∧ Value.minInt ≤ n ∧ n ≤ Value.maxInt := by
  cases v with
  | int n =>
    have hn : Value.minInt ≤ n ∧ n ≤ Value.maxInt := by simpa [Value.isInt] using h
    exact ⟨n, by simp [Value.asInt, hn], hn⟩
  | uint n =>
    have hn : (n : Int) ≤ Value.maxInt := by simpa [Value.isInt] using h
    exact ⟨n, by simp [Value.asInt, hn], by unfold Value.minInt; omega, hn⟩
  | real q =>
    obtain ⟨h1, h2, h3⟩ : (Value.minInt : ℚ) ≤ q ∧ q ≤ (Value.maxInt : ℚ) ∧ q.den = 1 := by
      simpa [Value.isInt] using h
    have hq : ((q.num : Int) : ℚ) = q := Rat.coe_int_num_of_den_eq_one h3
    refine ⟨q.num, by simp [Value.asInt, h1, h2, h3], ?_, ?_⟩
    · rw [← hq] at h1; exact_mod_cast h1
    · rw [← hq] at h2; exact_mod_cast h2
  | null | string s | boolean b | array vs | object ms => simp [Value.isInt] at h

theorem Value.isNull_of_isInt {v : Value} (h : v.isInt = true) : v.isNull = false := by
  cases v <;> simp_all [Value.isInt, Value.isNull]

/-! ## The shape of the handler -/

/-- The part of the handler that reads the configuration. -/
def readConfiguration (config : ConfigurationManager) : Act Unit := do
  Act.lock .configuration
  Act.logMessage (lit "api key : " ++ config.getApiKey)
  Act.logMessage (lit "vip : " ++ config.getVip)
  Act.unlock .configuration

/-- What the handler does with the decision about a body. -/
def conclude (jc : Jsoncpp) (libc : Libc) (config : ConfigurationManager) (conn : Connection) :
    Verdict → Act Unit
  | .reject message status => reportError conn message status
  | .abort x => .raise x
  | .grant hostname kernels => updateWeight jc libc conn config.getVip hostname kernels

/-- The handler reads the configuration and carries the decision about the body out. -/
theorem handlePostRequest_eq (jc : Jsoncpp) (libc : Libc) (config : ConfigurationManager)
    (conn : Connection) (body : Str) :
    handlePostRequest jc libc config conn body =
      (readConfiguration config).bind fun _ =>
        conclude jc libc config conn (verdict jc config body) := by
  simp only [handlePostRequest, readConfiguration, bind_eq, verdict]
  cases jc.parse body with
  | none => rfl
  | some root =>
    cases root with
    | object ms =>
      refine congrArg (Prog.call _) (funext fun _ => congrArg (Prog.call _) (funext fun _ =>
        congrArg (Prog.call _) (funext fun _ => congrArg (Prog.call _) (funext fun _ => ?_))))
      simp only [member_object, Prog.ofExcept, verdictObject, ret_bind,
        apply_ite (conclude jc libc config conn)]
      rfl
    | null | int n | uint n | real q | string s | boolean b | array vs => rfl

/-! ## Fixed sequences of calls -/

/-- The calls that read the configuration. -/
def readTrace (config : ConfigurationManager) : List CallEvent :=
  [⟨.lock .configuration, ()⟩, ⟨.log (.message (lit "api key : " ++ config.getApiKey)), ()⟩,
    ⟨.log (.message (lit "vip : " ++ config.getVip)), ()⟩, ⟨.unlock .configuration, ()⟩]

/-- The calls that write a reply, up to the first one that raises. -/
def replyTrace (conn : Connection) (status : Status) (text : Str) : List CallEvent :=
  if conn.raises .setStatus then []
  else ⟨.setStatus status, ()⟩ ::
    if conn.raises .setHeaders then []
    else ⟨.setHeaders responseHeaders, ()⟩ ::
      if conn.raises .write then [] else [⟨.write text, ()⟩]

/-- No operation on the connection raises an exception. -/
def Connection.Sound (conn : Connection) : Prop := ∀ op, conn.raises op = false

theorem Connection.sound_or_raises (conn : Connection) :
    conn.Sound ∨ ∃ op, conn.raises op = true := by
  by_cases h : ∃ op, conn.raises op = true
  · exact Or.inr h
  · exact Or.inl fun op => by
      cases hop : conn.raises op with
      | false => rfl
      | true => exact absurd ⟨op, hop⟩ h

theorem Connection.Sound.not_raises (h : conn.Sound) : ¬ ∃ op, conn.raises op = true := by
  rintro ⟨op, hop⟩
  rw [h op] at hop
  exact Bool.false_ne_true hop

theorem replyTrace_sound (h : conn.Sound) (status : Status) (text : Str) :
    replyTrace conn status text = [⟨.setStatus status, ()⟩, ⟨.setHeaders responseHeaders, ()⟩,
      ⟨.write text, ()⟩] := by
  simp [replyTrace, h .setStatus, h .setHeaders, h .write]

section Traces

variable {Q : Type} {M : Monitor Call Call.Answer Q} {q : Q}

theorem readConfiguration_wp {exn : Q → Exn → Prop} (h : M.Permits q (readTrace config)) :
    (readConfiguration config).wp M (fun q' _ => q' = M.after q (readTrace config)) exn q := by
  obtain ⟨h1, h2, h3, h4, -⟩ := h
  exact ⟨h1, fun _ => ⟨h2, fun _ => ⟨h3, fun _ => ⟨h4, fun _ => rfl⟩⟩⟩⟩

/-- A reply and what follows it: on a connection that does not break all of it is written, else an
    exception escapes in the middle. -/
theorem reply_wp {status : Status} {text : Str} {k : Act Unit} {post : Q → Unit → Prop}
    {exn : Q → Exn → Prop} (h : M.Permits q (replyTrace conn status text))
    (hk : conn.Sound → k.wp M post exn (M.after q (replyTrace conn status text)))
    (hexn : (∃ op, conn.raises op = true) →
      exn (M.after q (replyTrace conn status text)) .connectionError) :
    ((conn.setStatus status).bind fun _ => (conn.setHeaders responseHeaders).bind fun _ =>
      (conn.write text).bind fun _ => k).wp M post exn q := by
  unfold Connection.setStatus Connection.setHeaders Connection.write Connection.guard
  unfold replyTrace at h hk hexn
  by_cases h1 : conn.raises .setStatus = true
  · simpa [h1] using hexn ⟨_, h1⟩
  by_cases h2 : conn.raises .setHeaders = true
  · simp only [h1, h2, if_true, Bool.false_eq_true, if_false] at h hexn ⊢
    exact ⟨h.1, fun _ => hexn ⟨_, h2⟩⟩
  by_cases h3 : conn.raises .write = true
  · simp only [h1, h2, h3, if_true, Bool.false_eq_true, if_false] at h hexn ⊢
    exact ⟨h.1, fun _ => ⟨h.2.1, fun _ => hexn ⟨_, h3⟩⟩⟩
  simp only [h1, h2, h3, Bool.false_eq_true, if_false] at h hk ⊢
  have hsound : conn.Sound := by
    intro op
    cases op with
    | setStatus => simpa using h1
    | setHeaders => simpa using h2
    | write => simpa using h3
  exact ⟨h.1, fun _ => ⟨h.2.1, fun _ => ⟨h.2.2.1, fun _ => hk hsound⟩⟩⟩

/-- The calls that report an error, up to the first one that raises. -/
def reportTrace (conn : Connection) (message : Str) (status : Status) : List CallEvent :=
  replyTrace conn status (errorText message) ++
    if conn.raises .setStatus || conn.raises .setHeaders || conn.raises .write then []
    else [⟨.log (.error message), ()⟩]

theorem reportTrace_sound (h : conn.Sound) (message : Str) (status : Status) :
    reportTrace conn message status =
      replyTrace conn status (errorText message) ++ [⟨.log (.error message), ()⟩] := by
  simp [reportTrace, h .setStatus, h .setHeaders, h .write]

theorem reportTrace_raises (h : ∃ op, conn.raises op = true) (message : Str) (status : Status) :
    reportTrace conn message status = replyTrace conn status (errorText message) := by
  obtain ⟨op, hop⟩ := h
  cases op <;> simp [reportTrace, hop]

/-- A connection that breaks only cuts an error report short. -/
theorem reportTrace_subset (message : Str) (status : Status) :
    reportTrace conn message status ⊆ [⟨.setStatus status, ()⟩, ⟨.setHeaders responseHeaders, ()⟩,
      ⟨.write (errorText message), ()⟩, ⟨.log (.error message), ()⟩] := by
  unfold reportTrace replyTrace
  cases conn.raises .setStatus <;> cases conn.raises .setHeaders <;> cases conn.raises .write <;>
    simp

theorem reportError_wp {message : Str} {status : Status}
    (h : M.Permits q (reportTrace conn message status)) :
    (reportError conn message status).wp M
      (fun q' _ => conn.Sound ∧ q' = M.after q (reportTrace conn message status))
      (fun q' _ => (∃ op, conn.raises op = true) ∧
        q' = M.after q (reportTrace conn message status)) q := by
  rcases conn.sound_or_raises with hconn | hconn
  · rw [reportTrace_sound hconn] at h ⊢
    obtain ⟨h1, h2⟩ := (Monitor.permits_append _ _ _ _).1 h
    refine reply_wp h1 (fun _ => ⟨h2.1, fun _ => ⟨hconn, ?_⟩⟩) fun hr => absurd hr hconn.not_raises
    rw [Monitor.after_append]
    rfl
  · rw [reportTrace_raises hconn] at h ⊢
    exact reply_wp h (fun hs => absurd hconn hs.not_raises) fun _ => ⟨hconn, rfl⟩

end Traces

/-! ## Summaries -/

section Summaries

variable {q : Summary}

@[simp] theorem summary_after_read (q : Summary) : summary.after q (readTrace config) = q := rfl

theorem summary_after_reply (h : conn.Sound) (q : Summary) (status : Status) (text : Str) :
    summary.after q (replyTrace conn status text) =
      { q with status := some status, headers := responseHeaders,
               replies := q.replies ++ [⟨some status, responseHeaders, text⟩] } := by
  rw [replyTrace_sound h]
  rfl

@[simp] theorem summary_after_reply_calls (q : Summary) (status : Status) (text : Str) :
    (summary.after q (replyTrace conn status text)).setWeightCalls = q.setWeightCalls := by
  unfold replyTrace
  split
  · rfl
  · split
    · rfl
    · split <;> rfl

/-- The log call at the end of an error report is no part of a summary. -/
@[simp] theorem summary_after_report (q : Summary) (message : Str) (status : Status) :
    summary.after q (reportTrace conn message status) =
      summary.after q (replyTrace conn status (errorText message)) := by
  unfold reportTrace
  split
  · rw [List.append_nil]
  · rw [Monitor.after_append]
    rfl

theorem summary_permits (q : Summary) (tr : List CallEvent) : summary.Permits q tr :=
  Monitor.permits_of_allows (fun _ _ => trivial) q tr

/-- `set_weight` itself neither replies nor calls itself again. -/
theorem setWeight_summary {exn : Summary → Exn → Prop} (libc : Libc) (vip server : Str)
    (weight : Int) (q : Summary) :
    (setWeight libc vip server weight).wp summary (fun q' _ => q' = q) exn q := by
  have hlookup : Keeps summary Call.IsLookup (· = q) := by
    rintro q' e rfl he
    refine ⟨trivial, fun r => ?_⟩
    cases e <;> first | rfl | exact he.elim
  refine wp_mono ?_ (fun _ _ h => h)
    (setWeight_wp libc vip server weight hlookup (fun _ _ _ _ _ => trivial) rfl)
  rintro q' res (⟨-, h⟩ | ⟨q₀, svc, dest, r, h, -, rfl, -⟩)
  · exact h
  · exact h

/-- The call of `set_weight` adds itself to the summary. -/
theorem callSetWeight_summary {exn : Summary → Exn → Prop} (libc : Libc) (vip server : Str)
    (weight : Int) (q : Summary) :
    (callSetWeight libc vip server weight).wp summary
      (fun q' _ => q' = q.next (.enterSetWeight vip server weight)) exn q := by
  refine ⟨trivial, fun _ => ?_⟩
  show ((setWeight libc vip server weight).bind _).wp summary _ exn _
  rw [wp_bind]
  refine wp_mono ?_ (fun _ _ h => h) (setWeight_summary libc vip server weight _)
  rintro q' res rfl
  exact ⟨trivial, fun _ => rfl⟩

/-- The calls of `set_weight` that a decision leads to. -/
def Verdict.setWeightCalls (jc : Jsoncpp) (vip : Str) : Verdict → List SetWeightArgs
  | .grant hostname kernels =>
    match hostname.asString jc, kernels.asInt with
    | .ok server, .ok weight => [⟨cStr vip, server, weight⟩]
    | _, _ => []
  | _ => []

/-- A decision that ends in a reply rather than in an exception of jsoncpp. -/
def Verdict.Answers (jc : Jsoncpp) : Verdict → Prop
  | .reject _ _ => True
  | .abort _ => False
  | .grant hostname kernels => (∃ s, hostname.asString jc = .ok s) ∧ ∃ n, kernels.asInt = .ok n

/-- What carrying a decision out adds to a summary: the calls of `set_weight` in any case, and on a
    connection that does not break one reply exactly if the decision ends in one. -/
structure Carried (jc : Jsoncpp) (conn : Connection) (vip : Str) (v : Verdict) (q q' : Summary)
    (done : Bool) : Prop where
  calls : q'.setWeightCalls = q.setWeightCalls ++ v.setWeightCalls jc vip
  returned : conn.Sound → (done = true ↔ v.Answers jc)
  replies : conn.Sound → done = true → q'.replies.length = q.replies.length + 1

/-- A reply and what follows it, for a decision that ends in a reply. -/
theorem Carried.of_reply {vip : Str} {v : Verdict} {q₀ : Summary} (hv : v.Answers jc)
    (hcalls : q.setWeightCalls = q₀.setWeightCalls ++ v.setWeightCalls jc vip)
    (hreplies : q.replies = q₀.replies) {done : Bool} (hret : conn.Sound → done = true)
    (status : Status) (text : Str) :
    Carried jc conn vip v q₀ (summary.after q (replyTrace conn status text)) done where
  calls := by rw [summary_after_reply_calls, hcalls]
  returned hs := ⟨fun _ => hv, fun _ => hret hs⟩
  replies hs _ := by rw [summary_after_reply hs, hreplies]; simp

theorem updateWeight_summary (vip : Str) (hostname kernels : Value) (q : Summary) :
    (updateWeight jc libc conn vip hostname kernels).wp summary
      (fun q' _ => Carried jc conn vip (.grant hostname kernels) q q' true)
      (fun q' _ => Carried jc conn vip (.grant hostname kernels) q q' false) q := by
  refine ⟨trivial, fun _ => ?_⟩
  show ((Prog.ofExcept (hostname.asString jc)).bind _).wp summary _ _ q
  cases hs : hostname.asString jc with
  | error x =>
    exact ⟨by simp [Verdict.setWeightCalls, hs], fun _ => by simp [Verdict.Answers, hs],
      fun _ h => absurd h Bool.false_ne_true⟩
  | ok server =>
    show ((Prog.ofExcept kernels.asInt).bind _).wp summary _ _ q
    cases hk : kernels.asInt with
    | error x =>
      exact ⟨by simp [Verdict.setWeightCalls, hs, hk], fun _ => by simp [Verdict.Answers, hk],
        fun _ h => absurd h Bool.false_ne_true⟩
    | ok weight =>
      have hv : (Verdict.grant hostname kernels).Answers jc := ⟨⟨server, hs⟩, ⟨weight, hk⟩⟩
      have hcalls : (q.next (.enterSetWeight (cStr vip) server weight)).setWeightCalls =
          q.setWeightCalls ++ (Verdict.grant hostname kernels).setWeightCalls jc vip := by
        simp [Summary.next, Verdict.setWeightCalls, hs, hk]
      -- a reply ends in the outcome that the connection decides
      have hsound : conn.Sound → true = true := fun _ => rfl
      have hbroken : (∃ op, conn.raises op = true) → conn.Sound → false = true :=
        fun h hs => absurd h hs.not_raises
      show ((callSetWeight libc (cStr vip) server weight).bind _).wp summary _ _ q
      rw [wp_bind]
      refine wp_mono ?_ (fun _ _ h => h) (callSetWeight_summary libc (cStr vip) server weight q)
      rintro _ success rfl
      cases success with
      | false =>
        show ((reportError conn (lit "Could not set weight.") .internalServerError).bind _).wp
          summary _ _ _
        rw [wp_bind]
        refine wp_mono ?_ ?_ (reportError_wp (summary_permits _ _))
        · rintro _ _ ⟨-, rfl⟩
          refine ⟨trivial, fun _ => ?_⟩
          rw [summary_after_report]
          exact .of_reply hv hcalls rfl hsound _ _
        · rintro _ _ ⟨hr, rfl⟩
          rw [summary_after_report]
          exact .of_reply hv hcalls rfl (hbroken hr) _ _
      | true =>
        refine reply_wp (summary_permits _ _) (fun hs => ⟨trivial, fun _ => ?_⟩) fun hr => ?_
        · exact .of_reply hv hcalls rfl hsound _ _
        · exact .of_reply hv hcalls rfl (hbroken hr) _ _

theorem conclude_summary (v : Verdict) (q : Summary) :
    (conclude jc libc config conn v).wp summary
      (fun q' _ => Carried jc conn config.getVip v q q' true)
      (fun q' _ => Carried jc conn config.getVip v q q' false) q := by
  cases v with
  | reject message status =>
    have hv : (Verdict.reject message status).Answers jc := trivial
    refine wp_mono ?_ ?_ (reportError_wp (summary_permits _ _))
    · rintro _ _ ⟨-, rfl⟩
      rw [summary_after_report]
      exact .of_reply hv (List.append_nil _).symm rfl (fun _ => rfl) _ _
    · rintro _ _ ⟨hr, rfl⟩
      rw [summary_after_report]
      exact .of_reply hv (List.append_nil _).symm rfl (fun hs => absurd hr hs.not_raises) _ _
  | abort x =>
    exact ⟨(List.append_nil _).symm, fun _ => by simp [Verdict.Answers],
      fun _ h => absurd h Bool.false_ne_true⟩
  | grant hostname kernels => exact updateWeight_summary config.getVip hostname kernels q

/-- What a request adds to a summary. -/
theorem handlePostRequest_summary (q : Summary) :
    (handlePostRequest jc libc config conn body).wp summary
      (fun q' _ => Carried jc conn config.getVip (verdict jc config body) q q' true)
      (fun q' _ => Carried jc conn config.getVip (verdict jc config body) q q' false) q := by
  rw [handlePostRequest_eq, wp_bind]
  refine wp_mono ?_ (fun _ _ h => h) (readConfiguration_wp (summary_permits _ _))
  intro q' _ hq'
  rw [hq', summary_after_read]
  exact conclude_summary _ q

end Summaries

end Ipvshttpd
