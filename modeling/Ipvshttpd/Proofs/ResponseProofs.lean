import Ipvshttpd.Proofs.VerdictProofs

/-!
# Proofs: responses

What a request handler that runs alone does: when it answers at all, when it calls `set_weight`, and
how much of the configured key can be seen from outside.
-/

namespace Ipvshttpd

open CLib Resumption Prog

variable {jc : Jsoncpp} {libc : Libc} {config : ConfigurationManager} {conn : Connection} {body : Str}
variable {ms : List (Str × Value)} {S : Type}

/-! ## Answers -/

theorem handlePostRequest_run (jc : Jsoncpp) (libc : Libc) (config : ConfigurationManager)
    (conn : Connection) (body : Str) (env : Env Call Call.Answer S) (s : S) :
    ∃ done, (done = true ↔
        ((handlePostRequest jc libc config conn body).run env s).outcome = .ok ()) ∧
      Carried jc conn config.getVip (verdict jc config body) .init
        (summarize ((handlePostRequest jc libc config conn body).run env s).trace) done := by
  rcases wp_run (handlePostRequest_summary .init) env s with ⟨_, hout, h⟩ | ⟨x, hout, h⟩
  · exact ⟨true, by simp [hout], h⟩
  · exact ⟨false, by simp [hout], h⟩

/-- A request is answered exactly if its body is answerable: an array, a string, a number or a
    boolean at the root kills the handler before the api key is looked at, an array or an object as
    the host of an admitted request does so in the critical section. -/
theorem answered_iff_answerable (jc : Jsoncpp) (libc : Libc) (config : ConfigurationManager)
    (body : Str) : Answered jc libc config .sound body ↔ Answerable jc config body := by
  have hsound : Connection.sound.Sound := fun _ => rfl
  rw [← verdict_answers_iff]
  constructor
  · intro h
    obtain ⟨done, hdone, hc⟩ := handlePostRequest_run jc libc config .sound body
      (kernelEnv false .empty) fun _ => none
    exact (hc.returned hsound).1 (hdone.2 (h _ _).1)
  · intro h S env s
    obtain ⟨done, hdone, hc⟩ := handlePostRequest_run jc libc config .sound body env s
    have htrue := (hc.returned hsound).2 h
    exact ⟨hdone.1 htrue, hc.replies hsound htrue⟩

/-- A root that is no object: the handler dies without a reply, before any check of the key. -/
theorem array_root_not_answered :
    ¬ Answered (.single (lit "[]") (.array [])) .empty
      { ConfigurationManager.new with mApiKey := lit "secret" } .sound (lit "[]") := by
  intro h
  obtain ⟨hout, -⟩ := h (kernelEnv false .empty) fun _ => none
  cases hout

/-! ## Requests that are turned away -/

/-- What is left of a run that turns a request away: nothing after the configuration has been read,
    or an error report. -/
def Verdict.refusalTrace (conn : Connection) : Verdict → List CallEvent
  | .reject message status => reportTrace conn message status
  | _ => []

/-- A handler that does not call `set_weight` makes the same calls in every environment. -/
theorem handlePostRequest_refused
    (h : ∀ hostname kernels, verdict jc config body ≠ .grant hostname kernels)
    (env : Env Call Call.Answer S) (s : S) :
    ((handlePostRequest jc libc config conn body).run env s).trace =
      readTrace config ++ (verdict jc config body).refusalTrace conn := by
  have hwp : (handlePostRequest jc libc config conn body).wp Monitor.history
      (fun tr _ => tr = readTrace config ++ (verdict jc config body).refusalTrace conn)
      (fun tr _ => tr = readTrace config ++ (verdict jc config body).refusalTrace conn) [] := by
    have hpermits : ∀ q tr : List CallEvent, Monitor.history.Permits q tr :=
      Monitor.permits_of_allows fun _ _ => trivial
    rw [handlePostRequest_eq, wp_bind]
    refine wp_mono ?_ (fun _ _ h => h) (readConfiguration_wp (hpermits _ _))
    intro tr _ htr
    rw [Monitor.after_history, List.nil_append] at htr
    cases hv : verdict jc config body with
    | reject message status =>
      refine wp_mono ?_ ?_ (reportError_wp (hpermits tr _))
      · rintro _ _ ⟨-, rfl⟩
        rw [Monitor.after_history, htr, Verdict.refusalTrace]
      · rintro _ _ ⟨-, rfl⟩
        rw [Monitor.after_history, htr, Verdict.refusalTrace]
    | abort x => simpa [conclude, Verdict.refusalTrace] using htr
    | grant hostname kernels => exact absurd hv (h hostname kernels)
  rcases wp_run hwp env s with ⟨_, -, htr⟩ | ⟨x, -, htr⟩
  · simpa using htr
  · simpa using htr

/-- A request that is turned away does not reach the kernel. -/
theorem refused_state
    (h : ∀ hostname kernels, verdict jc config body ≠ .grant hostname kernels) (useNl : Bool)
    (rs : Resolver) (t : Table) :
    ((handlePostRequest jc libc config conn body).run (kernelEnv useNl rs) t).state = t := by
  refine run_state_of_forall (K := fun e => ∀ svc dest, e ≠ .updateDest svc dest) ?_ ?_
  · intro e t he
    cases e with
    | updateDest svc dest => exact absurd rfl (he svc dest)
    | _ => rfl
  · rw [handlePostRequest_refused h]
    intro ev hev svc dest
    rcases List.mem_append.1 hev with hev | hev
    · simp only [readTrace, List.mem_cons, List.not_mem_nil, or_false] at hev
      rcases hev with rfl | rfl | rfl | rfl <;> simp
    · cases hv : verdict jc config body with
      | reject message status =>
        rw [hv] at hev
        have hmem := reportTrace_subset message status hev
        simp only [List.mem_cons, List.not_mem_nil, or_false] at hmem
        rcases hmem with rfl | rfl | rfl | rfl <;> simp
      | abort x => rw [hv] at hev; cases hev
      | grant hostname kernels => exact absurd hv (h hostname kernels)

/-- The reply to a request that is turned away depends on the decision about it only. -/
theorem refused_replies {config' : ConfigurationManager} {body' : Str} {S' : Type}
    (h : ∀ hostname kernels, verdict jc config body ≠ .grant hostname kernels)
    (hv : verdict jc config' body' = verdict jc config body) (env : Env Call Call.Answer S) (s : S)
    (env' : Env Call Call.Answer S') (s' : S') :
    (summarize ((handlePostRequest jc libc config conn body).run env s).trace).replies =
      (summarize ((handlePostRequest jc libc config' conn body').run env' s').trace).replies := by
  have h' : ∀ hostname kernels, verdict jc config' body' ≠ .grant hostname kernels := by
    rw [hv]
    exact h
  rw [handlePostRequest_refused h, handlePostRequest_refused h', hv]
  unfold summarize
  rw [Monitor.after_append, Monitor.after_append, summary_after_read, summary_after_read]

/-! ## The authentication gate -/

/-- Two objects that are turned away for the same reason lead to the same decision. -/
theorem sameRefusal_verdict {config' : ConfigurationManager} {ms' : List (Str × Value)}
    (hkey : config'.mApiKey = config.mApiKey) (h : SameRefusal config.mApiKey ms ms') :
    (∃ message status, verdictObject config ms = .reject message status) ∧
      verdictObject config' ms' = verdictObject config ms := by
  have hget : config'.getApiKey = config.getApiKey := hkey
  rcases h with ⟨h1, h2⟩ | ⟨h1, h2, h3, h4⟩
  · unfold verdictObject
    rw [if_pos h1, if_pos h2]
    exact ⟨⟨_, _, rfl⟩, rfl⟩
  · unfold verdictObject
    rw [hget]
    have hkey1 : (field ms "api_key").eqString config.getApiKey = false := h2
    have hkey2 : (field ms' "api_key").eqString config.getApiKey = false := h4
    rw [if_neg (by rw [h1]; exact Bool.false_ne_true), if_pos hkey1,
      if_neg (by rw [h3]; exact Bool.false_ne_true), if_pos hkey2]
    exact ⟨⟨_, _, rfl⟩, rfl⟩

/-- The authentication gate. A request with an object as body reaches `set_weight` exactly if it is
    admitted, once, with the text of the configured vip; and all requests that are turned away for
    lack of an api key, or for a wrong one, get the same reply and do not touch the kernel. -/
theorem handlePostRequest_gate (jc : Jsoncpp) (libc : Libc) (config : ConfigurationManager)
    (conn : Connection) :
    (∀ body ms, jc.parse body = some (.object ms) → (field ms "host").hasString = true →
      ∀ {S : Type} (env : Env Call Call.Answer S) (s : S),
      let calls :=
        (summarize ((handlePostRequest jc libc config conn body).run env s).trace).setWeightCalls
      (Admits config.mApiKey ms → ∃ server weight, (field ms "host").asString jc = .ok server ∧
        (field ms "available_kernels").asInt = .ok weight ∧
        calls = [⟨cStr config.mVip, server, weight⟩]) ∧
      (¬ Admits config.mApiKey ms → calls = [])) ∧
    (∀ config' body body' ms ms', config'.mApiKey = config.mApiKey →
      jc.parse body = some (.object ms) → jc.parse body' = some (.object ms') →
      SameRefusal config.mApiKey ms ms' → ∀ useNl rs rs' t t',
      let r := (handlePostRequest jc libc config conn body).run (kernelEnv useNl rs) t
      let r' := (handlePostRequest jc libc config' conn body').run (kernelEnv useNl rs') t'
      (summarize r.trace).replies = (summarize r'.trace).replies ∧ r.state = t ∧ r'.state = t') := by
  constructor
  · intro body ms hp hhost S env s
    obtain ⟨done, -, hc⟩ := handlePostRequest_run jc libc config conn body env s
    have hcalls := hc.calls
    rw [verdict_object config hp] at hcalls
    constructor
    · intro hadmits
      obtain ⟨server, hserver⟩ := Value.asString_hasString jc hhost
      obtain ⟨weight, hweight, -⟩ := Value.asInt_of_isInt hadmits.2.2
      refine ⟨server, weight, hserver, hweight, ?_⟩
      rw [hcalls, verdictObject_of_admits hadmits]
      simp [Verdict.setWeightCalls, hserver, hweight, Summary.init, ConfigurationManager.getVip]
    · intro hadmits
      obtain ⟨message, status, hv⟩ := verdictObject_of_not_admits hadmits
      rw [hcalls, hv]
      rfl
  · intro config' body body' ms ms' hkey hp hp' hsame useNl rs rs' t t'
    obtain ⟨⟨message, status, hv⟩, hv'⟩ := sameRefusal_verdict hkey hsame
    rw [← verdict_object config hp] at hv hv'
    rw [← verdict_object config' hp'] at hv'
    have hno : ∀ hostname kernels, verdict jc config body ≠ .grant hostname kernels := by simp [hv]
    have hno' : ∀ hostname kernels, verdict jc config' body' ≠ .grant hostname kernels := by
      rw [hv']
      exact hno
    exact ⟨refused_replies hno hv' _ _ _ _, refused_state hno _ _ _, refused_state hno' _ _ _⟩

theorem handlePostRequest_gate_sample :
    let jc := Jsoncpp.single sampleBody (.object sampleMembers)
    let run := fun config => (handlePostRequest jc .empty config .sound sampleBody).run
      (kernelEnv false .empty) fun _ => none
    let config := { ConfigurationManager.new with mApiKey := lit "secret", mVip := lit "lb:80" }
    let config' := { ConfigurationManager.new with mApiKey := lit "other" }
    (∃ server weight, (field sampleMembers "host").asString jc = .ok server ∧
      (field sampleMembers "available_kernels").asInt = .ok weight ∧
      (summarize (run config).trace).setWeightCalls = [⟨cStr config.mVip, server, weight⟩]) ∧
    (run config').state = fun _ => none := by
  intro jc run config config'
  have hp : jc.parse sampleBody = some (.object sampleMembers) := single_parse _ _
  constructor
  · have h := (handlePostRequest_gate jc .empty config .sound).1 sampleBody sampleMembers hp rfl
      (kernelEnv false .empty) fun _ => none
    exact h.1 (by decide)
  · have h := (handlePostRequest_gate jc .empty config' .sound).2 config' sampleBody sampleBody
      sampleMembers sampleMembers rfl hp hp (Or.inr (by decide)) false .empty .empty
      (fun _ => none) fun _ => none
    exact h.2.1

/-- A vip with a NUL in it, as a configuration file may set it, reaches `set_weight` cut short. -/
theorem vip_with_nul_is_cut :
    let config := (ConfigurationManager.new.openFile (lit "ipvshttpd.conf")
      (some (lit "api_key: secret\nvip: lb:80\x00x\n"))).manager
    let run := (handlePostRequest (.single sampleBody (.object sampleMembers)) .empty config .sound
      sampleBody).run (kernelEnv false .empty) fun _ => none
    Admits config.mApiKey sampleMembers ∧
      (summarize run.trace).setWeightCalls ≠ [⟨config.mVip, lit "kvm1", 4⟩] := by
  decide

/-! ## The secrecy of the key -/

theorem observe_readTrace (g : LogSettings) (config : ConfigurationManager) :
    observe g (readTrace config) =
      (logMessage g (lit "api key : " ++ config.mApiKey)).map .output ++
        (logMessage g (lit "vip : " ++ config.mVip)).map .output := by
  simp [observe, readTrace, Call.observe, LogCall.output, ConfigurationManager.getApiKey,
    ConfigurationManager.getVip]

theorem observe_append (g : LogSettings) (tr tr' : List CallEvent) :
    observe g (tr ++ tr') = observe g tr ++ observe g tr' := List.flatMap_append

/-- `log_message` writes nothing below the level INFO and without a sink. -/
theorem logMessage_eq_nil {g : LogSettings} (h : g.loggingLevel < logLevelInfo ∨
    (g.activeLogSinks &&& logSinkStd ≠ logSinkStd ∧
      g.activeLogSinks &&& logSinkSyslog ≠ logSinkSyslog)) (message : Str) :
    logMessage g message = [] := by
  unfold logMessage
  rcases h with h | ⟨hstd, hsyslog⟩
  · rw [if_pos h]
  · rw [if_neg hstd, if_neg hsyslog, List.append_nil, ite_self, ite_self]

/-- What can be seen of a request that does not carry the key is the same for every key, but for the
    first log call, which prints it. -/
theorem observe_lacksKey (jc : Jsoncpp) (libc : Libc) (config : ConfigurationManager)
    (conn : Connection) (g : LogSettings) (key key' : Str) (body : Str) (h : LacksKey jc key body)
    (h' : LacksKey jc key' body) (env : Env Call Call.Answer S) (s : S) :
    let seen := fun k => observe g ((handlePostRequest jc libc { config with mApiKey := k } conn
      body).run env s).trace
    (∃ rest, seen key = (logMessage g (lit "api key : " ++ key)).map .output ++ rest ∧
      seen key' = (logMessage g (lit "api key : " ++ key')).map .output ++ rest) ∧
    (g.loggingLevel < logLevelInfo ∨ (g.activeLogSinks &&& logSinkStd ≠ logSinkStd ∧
      g.activeLogSinks &&& logSinkSyslog ≠ logSinkSyslog) → seen key = seen key') := by
  intro seen
  have hv := verdict_eq_of_lacksKey { config with mApiKey := key } { config with mApiKey := key' } h h'
  have hsplit : ∃ rest, seen key = (logMessage g (lit "api key : " ++ key)).map .output ++ rest ∧
      seen key' = (logMessage g (lit "api key : " ++ key')).map .output ++ rest := by
    refine ⟨(logMessage g (lit "vip : " ++ config.mVip)).map .output ++ observe g
      ((verdict jc { config with mApiKey := key } body).refusalTrace conn), ?_, ?_⟩
    · show observe g _ = _
      rw [handlePostRequest_refused (verdict_not_grant_of_lacksKey h), observe_append,
        observe_readTrace, List.append_assoc]
    · show observe g _ = _
      rw [handlePostRequest_refused (verdict_not_grant_of_lacksKey h'), observe_append,
        observe_readTrace, List.append_assoc, hv]
  refine ⟨hsplit, fun hquiet => ?_⟩
  obtain ⟨rest, h1, h2⟩ := hsplit
  rw [h1, h2, logMessage_eq_nil hquiet, logMessage_eq_nil hquiet]

theorem observe_lacksKey_sample :
    let jc := Jsoncpp.single sampleBody (.object sampleMembers)
    let seen := fun key => observe ⟨logLevelError, logSinkStd⟩ ((handlePostRequest jc .empty
      { ConfigurationManager.new with mApiKey := key } .sound sampleBody).run
      (kernelEnv false .empty) fun _ => none).trace
    seen (lit "key1") = seen (lit "key2") := by
  intro jc seen
  have hlacks : ∀ key, Value.eqString (.string (lit "secret")) key = false →
      LacksKey jc key sampleBody := by
    intro key hkey ms hms
    rw [single_parse] at hms
    cases hms
    exact hkey
  exact (observe_lacksKey jc .empty .new .sound ⟨logLevelError, logSinkStd⟩ (lit "key1")
    (lit "key2") sampleBody (hlacks _ (by decide)) (hlacks _ (by decide)) (kernelEnv false .empty)
    fun _ => none).2 (Or.inl (by decide))

/-- A request with neither of two keys makes them visible at the level INFO. -/
theorem api_key_is_logged :
    let jc := Jsoncpp.single sampleBody (.object sampleMembers)
    let seen := fun key => observe ⟨logLevelInfo, logSinkStd⟩ ((handlePostRequest jc .empty
      { ConfigurationManager.new with mApiKey := key } .sound sampleBody).run
      (kernelEnv false .empty) fun _ => none).trace
    (field sampleMembers "api_key").eqString (lit "key1") = false ∧
      (field sampleMembers "api_key").eqString (lit "key2") = false ∧
      seen (lit "key1") ≠ seen (lit "key2") := by
  decide

end Ipvshttpd
