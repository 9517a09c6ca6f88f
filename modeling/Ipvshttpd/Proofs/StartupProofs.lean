import Ipvshttpd.Startup
import Ipvshttpd.Proofs.CommandLineProofs
import Ipvshttpd.Proofs.ConfigTextProofs
import Ipvshttpd.Proofs.ResponseProofs

/-!
# Proofs: the api key from the file to the request

The line loop of `open` leaves the value of the last line for the api key in `m_api_key`, and its
default, the empty string, if there is none. The request handler compares with whatever is there.
-/

namespace Ipvshttpd

open CLib Resumption

variable {config : ConfigurationManager} {files : Files} {argv : List Str} {started : Started}
variable {jc : Jsoncpp} {body : Str}

/-! ## The file -/

theorem openLoop_mApiKey (filename : Str) (lines : List Str) (lineNr : Int)
    (m : ConfigurationManager) (h : (openLoop filename lines lineNr m).valid = true) :
    (openLoop filename lines lineNr m).manager.mApiKey =
      ((lines.filterMap apiKeyLine).getLast?).getD m.mApiKey := by
  have hsettings : apiKeyLine = settingOf .apiKey := rfl
  have hssl : Key.apiKey ≠ .useSsl := by decide
  have hget := openLoop_get filename lines lineNr m .apiKey
  rw [linesRead_of_valid h, afterLines, foldl_update_last hssl] at hget
  rw [hsettings]
  cases hlast : (lines.filterMap (settingOf .apiKey)).getLast? with
  | none =>
    rw [hlast] at hget
    exact Setting.text.inj hget
  | some key =>
    rw [hlast] at hget
    exact Setting.text.inj hget

/-- The api key is empty unless a configuration file sets one. -/
theorem mApiKey_ne_nil_iff (h : startUp files argv = .ok started) :
    started.config.mApiKey ≠ [] ↔ ConfiguresKey files argv := by
  obtain ⟨o, ho, hruns, -⟩ := startUp_ok h
  have hoptions : ConfiguresKey files argv ↔
      (o.configSet = true ∨ files.fileExists o.configFile = true) ∧ ∃ contents key,
        files.read o.configFile = some contents ∧ lastApiKey contents = some key ∧ key ≠ [] := by
    constructor
    · rintro ⟨o', ho', hrest⟩
      rw [ho, Except.ok.injEq] at ho'
      rw [ho']
      exact hrest
    · exact fun hrest => ⟨o, ho, hrest⟩
  rw [hoptions]
  by_cases hload : o.configSet = true ∨ files.fileExists o.configFile = true
  · obtain ⟨hvalid, hconfig⟩ := hruns.loaded hload
    cases hread : files.read o.configFile with
    | none =>
      rw [hread] at hvalid
      cases hvalid
    | some contents =>
      rw [hread] at hvalid hconfig
      have hkey := openLoop_mApiKey o.configFile (getLines contents) 0 .new hvalid
      have hkey' : started.config.mApiKey = (lastApiKey contents).getD [] := by
        rw [← hconfig]
        exact hkey
      rw [hkey']
      cases hlast : lastApiKey contents with
      | none => simp [hlast]
      | some key => simp [hlast, hload]
  · rw [hruns.unloaded hload]
    simp [hload, ConfigurationManager.new]

/-! ## The request -/

/-- `set_weight` is called for an admitted request with a host that converts to a string only. -/
theorem admits_of_setWeightCalls {libc : Libc} {conn : Connection} {S : Type}
    {env : Env Call Call.Answer S} {s : S}
    (h : (summarize ((handlePostRequest jc libc config conn body).run env s).trace).setWeightCalls ≠ []) :
    ∃ ms, jc.parse body = some (.object ms) ∧ Admits config.mApiKey ms ∧
      (field ms "host").hasString = true := by
  obtain ⟨done, -, hc⟩ := handlePostRequest_run jc libc config conn body env s
  rw [hc.calls] at h
  cases hv : verdict jc config body with
  | grant hostname kernels =>
    obtain ⟨ms, hp, hadmits, rfl, rfl⟩ := verdict_grant hv
    refine ⟨ms, hp, hadmits, ?_⟩
    by_contra hhost
    rw [hv] at h
    refine h ?_
    simp [Verdict.setWeightCalls, Value.asString_error jc (by simpa using hhost), Summary.init]
  | reject message status =>
    rw [hv] at h
    exact absurd rfl h
  | abort x =>
    rw [hv] at h
    exact absurd rfl h

/-- After a start-up that goes through, a request reaches `set_weight` only with a configured, non-empty
    key that it carries, exactly if the configuration file sets such a key or the request is not one
    with an empty key: without a configured key the empty string is accepted as one. -/
theorem no_fail_open_iff (files : Files) (argv : List Str) (started : Started)
    (h : startUp files argv = .ok started) (jc : Jsoncpp) (libc : Libc) (conn : Connection)
    (body : Str) :
    (∀ {S : Type} (env : Env Call Call.Answer S) (s : S),
      (summarize ((handlePostRequest jc libc started.config conn body).run env
        s).trace).setWeightCalls ≠ [] →
      started.config.mApiKey ≠ [] ∧ ∃ ms, jc.parse body = some (.object ms) ∧
        field ms "api_key" = .string started.config.mApiKey) ↔
    ConfiguresKey files argv ∨ ¬ EmptyKeyRequest jc body := by
  rw [← mApiKey_ne_nil_iff h]
  constructor
  · intro hall
    by_cases hkey : started.config.mApiKey = []
    · refine Or.inr ?_
      rintro ⟨ms, hp, hadmits, hhost⟩
      rw [← hkey] at hadmits
      obtain ⟨done, -, hc⟩ := handlePostRequest_run jc libc started.config conn body
        (kernelEnv false .empty) fun _ => none
      obtain ⟨server, hserver⟩ := Value.asString_hasString jc hhost
      obtain ⟨weight, hweight, -⟩ := Value.asInt_of_isInt hadmits.2.2
      refine (hall (kernelEnv false .empty) (fun _ => none) ?_).1 hkey
      rw [hc.calls, verdict_object started.config hp, verdictObject_of_admits hadmits]
      simp [Verdict.setWeightCalls, hserver, hweight]
    · exact Or.inl hkey
  · intro hor S env s hcalls
    obtain ⟨ms, hp, hadmits, hhost⟩ := admits_of_setWeightCalls hcalls
    refine ⟨?_, ms, hp, Value.eqString_iff.1 hadmits.1⟩
    rcases hor with hkey | hno
    · exact hkey
    · intro hkey
      rw [hkey] at hadmits
      exact hno ⟨ms, hp, hadmits, hhost⟩

theorem no_fail_open_iff_sample :
    let files : Files := ⟨fun _ => true,
      fun _ => some (lit "vip: lb:80\napi_key: secret\nlog_verbosity: debug\n")⟩
    let argv := [lit "ipvshttpd", lit "-f"]
    let jc := Jsoncpp.single sampleBody (.object sampleMembers)
    ∃ started, startUp files argv = .ok started ∧
      ((∀ {S : Type} (env : Env Call Call.Answer S) (s : S),
        (summarize ((handlePostRequest jc .empty started.config .sound sampleBody).run env
          s).trace).setWeightCalls ≠ [] →
        started.config.mApiKey ≠ [] ∧ ∃ ms, jc.parse sampleBody = some (.object ms) ∧
          field ms "api_key" = .string started.config.mApiKey) ↔
      ConfiguresKey files argv ∨ ¬ EmptyKeyRequest jc sampleBody) := by
  intro files argv jc
  exact ⟨_, rfl, no_fail_open_iff files argv _ rfl jc .empty .sound sampleBody⟩

/-- Without a configuration file a request with an empty key reaches `set_weight`. -/
theorem empty_key_is_accepted :
    let files : Files := ⟨fun _ => false, fun _ => none⟩
    let body := lit "\x7b\"api_key\": \"\", \"host\": \"kvm1\", \"available_kernels\": 4\x7d"
    let jc := Jsoncpp.single body (.object [(lit "api_key", .string []),
      (lit "host", .string (lit "kvm1")), (lit "available_kernels", .int 4)])
    ∃ started, startUp files [lit "ipvshttpd"] = .ok started ∧ started.config.mApiKey = [] ∧
      (summarize ((handlePostRequest jc .empty started.config .sound body).run
        (kernelEnv false .empty) fun _ => none).trace).setWeightCalls ≠ [] :=
  ⟨_, rfl, by decide, by decide⟩

end Ipvshttpd
