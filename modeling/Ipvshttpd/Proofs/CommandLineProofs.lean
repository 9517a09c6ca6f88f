import Ipvshttpd.Proofs.ArgumentsProofs

/-!
# Proofs: the command line

What the options and the configuration do to the mask of log sinks is to add those that are named: the
standard sink, which is active at the start, is never taken out.
-/

namespace Ipvshttpd

open CLib

variable {g g' : LogSettings} {s list : Str} {argv : List Str} {argn argn' : Nat} {o o' : Options}
variable {files : Files} {started : Started}

/-! ## Masks -/

/-- The bit of the standard sink is in the mask exactly if its name is in the list. -/
theorem unionMask_std (names : List Str) :
    (unionMask names).getLsbD 0 = decide (lit "stdout" ∈ names) := by
  induction names with
  | nil => rfl
  | cons name names ih =>
    rw [unionMask_cons, BitVec.getLsbD_or, ih]
    by_cases hname : name = lit "stdout"
    · have hmask : (sinkMask name).getLsbD 0 = true := by
        unfold sinkMask
        rw [if_pos hname]
        rfl
      rw [hmask, hname]
      simp
    · have hmask : (sinkMask name).getLsbD 0 = false := by
        unfold sinkMask
        rw [if_neg hname]
        split
        · rfl
        · rfl
      have hmem : lit "stdout" ∈ name :: names ↔ lit "stdout" ∈ names := by
        rw [List.mem_cons, or_iff_right (Ne.symm hname)]
      rw [hmask, Bool.false_or, decide_eq_decide]
      exact hmem.symm

theorem std_or_eq_iff (x : BitVec 32) : logSinkStd ||| x = x ↔ x.getLsbD 0 = true := by
  have hbit : ∀ i, logSinkStd.getLsbD i = decide (i = 0) := by
    intro i
    show (1#32).getLsbD i = decide (i = 0)
    simp [BitVec.getLsbD_one]
  constructor
  · intro h
    rw [← h, BitVec.getLsbD_or, hbit]
    rfl
  · intro h
    refine BitVec.eq_of_getLsbD_eq fun i hi => ?_
    rw [BitVec.getLsbD_or, hbit]
    by_cases hzero : i = 0
    · rw [hzero, h]
      rfl
    · simp [hzero]

/-! ## Lists of sinks -/

theorem parseLogSinks_ok (h : parseLogSinks g list = .ok g') :
    g' = { g with activeLogSinks := g.activeLogSinks ||| unionMask (sinkNames list) } := by
  rcases parseLogSinks_spec g list with ⟨-, hsinks⟩ | ⟨-, output, hsinks⟩
  · rw [hsinks] at h
    exact (Except.ok.inj h).symm
  · rw [hsinks] at h
    cases h

theorem parseLogLevel_ok (h : parseLogLevel g s = .ok g') :
    g'.activeLogSinks = g.activeLogSinks := by
  rw [parseLogLevel_eq] at h
  cases hlevel : levelOf s with
  | none =>
    rw [hlevel] at h
    cases h
  | some level =>
    rw [hlevel] at h
    rw [← Except.ok.inj h]

/-- The lists of a sequence of groups. -/
theorem sinkLists_args (groups : List OptionGroup) :
    sinkLists (groups.flatMap OptionGroup.args) = groups.filterMap OptionGroup.sinks? := by
  induction groups with
  | nil => rfl
  | cons group groups ih =>
    rw [List.flatMap_cons]
    cases group with
    | foreground =>
      show sinkLists (lit "-f" :: groups.flatMap OptionGroup.args) = _
      cases hargs : groups.flatMap OptionGroup.args with
      | nil =>
        rw [hargs] at ih
        exact ih
      | cons arg args =>
        rw [hargs] at ih
        rw [sinkLists, if_pos rfl]
        exact ih
    | sinks arg => exact congrArg (arg :: ·) ih
    | _ => exact ih

theorem parseOptions_sinks (h : parseOptions argv = .ok o) :
    o.log.activeLogSinks = logSinkStd ||| unionMask ((sinkLists argv.tail).flatMap sinkNames) ∧
      (o.logSinksSet = true ↔ sinkLists argv.tail ≠ []) := by
  have hargv : argv ≠ [] := by
    rintro rfl
    cases h
  rcases parseOptions_spec hargv with ⟨groups, hspells, hgroups⟩ | ⟨output, hexit⟩
  · rw [hgroups, Except.ok.injEq] at h
    rw [hspells.concat, sinkLists_args, ← h]
    refine ⟨foldl_apply_sinks groups _, (foldl_apply_logSinksSet groups _).trans (or_iff_right ?_)⟩
    exact Bool.false_ne_true
  · rw [hexit] at h
    cases h

/-! ## The start -/

/-- The configuration that a start-up with the options `o` runs with: that of an accepted file if there
    is one to load, and the empty one otherwise. -/
structure RunsWith (files : Files) (o : Options) (config : ConfigurationManager) : Prop where
  loaded : o.configSet = true ∨ files.fileExists o.configFile = true →
    (ConfigurationManager.new.openFile o.configFile (files.read o.configFile)).valid = true ∧
      (ConfigurationManager.new.openFile o.configFile (files.read o.configFile)).manager = config
  unloaded : ¬ (o.configSet = true ∨ files.fileExists o.configFile = true) → config = .new

/-- A start-up that goes through has parsed its options, runs with the configuration that they choose,
    and keeps them but for the log settings that the configuration makes. The empty one makes none. -/
theorem startUp_ok (h : startUp files argv = .ok started) :
    ∃ o, parseOptions argv = .ok o ∧ RunsWith files o started.config ∧
      configureLog o started.config = .ok started.options.log := by
  unfold startUp at h
  rw [bind_eq_ok] at h
  obtain ⟨o, ho, h⟩ := h
  refine ⟨o, ho, ?_⟩
  dsimp only at h
  split at h
  · rename_i hload
    split at h
    · rename_i hvalid
      split at h
      · rename_i log hlog
        rw [pure_eq_ok] at h
        rw [← h]
        exact ⟨⟨fun _ => ⟨hvalid, rfl⟩, fun hno => absurd hload hno⟩, hlog⟩
      · cases h
    · cases h
  · rename_i hload
    rw [pure_eq_ok] at h
    rw [← h]
    refine ⟨⟨fun hyes => absurd hyes hload, fun _ => rfl⟩, ?_⟩
    simp [configureLog, configureLevel, configureSinks, bind_eq_ok, ConfigurationManager.new,
      ConfigurationManager.getLogVerbosity, ConfigurationManager.getLogSinks]

theorem configureLog_sinks {config : ConfigurationManager} (h : configureLog o config = .ok g) :
    g.activeLogSinks =
      if o.logSinksSet = false ∧ config.getLogSinks ≠ [] then
        o.log.activeLogSinks ||| unionMask (sinkNames config.getLogSinks)
      else o.log.activeLogSinks := by
  unfold configureLog at h
  rw [bind_eq_ok] at h
  obtain ⟨g₁, hlevel, hsinks⟩ := h
  have hlevel' : g₁.activeLogSinks = o.log.activeLogSinks := by
    unfold configureLevel at hlevel
    split at hlevel
    · exact parseLogLevel_ok hlevel
    · rw [← Except.ok.inj hlevel]
  unfold configureSinks at hsinks
  split at hsinks
  · rename_i hconfigured
    rw [if_pos hconfigured, parseLogSinks_ok hsinks, hlevel']
  · rename_i hkept
    rw [if_neg hkept, ← Except.ok.inj hsinks, hlevel']

/-- After start-up the standard sink is active in addition to those that are asked for. -/
theorem startUp_sinks (h : startUp files argv = .ok started) :
    started.options.log.activeLogSinks = logSinkStd |||
      unionMask (requestedSinks (sinkLists argv.tail) started.config.getLogSinks) := by
  obtain ⟨o, ho, -, hlog⟩ := startUp_ok h
  obtain ⟨hmask, hset⟩ := parseOptions_sinks ho
  rw [configureLog_sinks hlog, hmask]
  unfold requestedSinks
  by_cases hlists : sinkLists argv.tail = []
  · have hunset : o.logSinksSet = false := by
      rw [← Bool.not_eq_true, hset]
      exact not_not.2 hlists
    have hempty : unionMask ((sinkLists argv.tail).flatMap sinkNames) = 0 := by
      rw [hlists]
      rfl
    rw [if_neg (not_not.2 hlists), hempty]
    by_cases hconfigured : started.config.getLogSinks = []
    · rw [if_neg fun hand => hand.2 hconfigured, if_neg (not_not.2 hconfigured)]
      decide
    · rw [if_pos ⟨hunset, hconfigured⟩, if_pos hconfigured]
      simp
  · have hset' : o.logSinksSet = true := hset.2 hlists
    rw [if_pos hlists, if_neg fun hand => absurd hset' (by simp [hand.1])]

/-- The active sinks are exactly those that are asked for if the standard sink is one of them. -/
theorem activeLogSinks_iff (files : Files) (argv : List Str) (started : Started)
    (h : startUp files argv = .ok started) :
    started.options.log.activeLogSinks =
        unionMask (requestedSinks (sinkLists argv.tail) started.config.getLogSinks) ↔
      lit "stdout" ∈ requestedSinks (sinkLists argv.tail) started.config.getLogSinks := by
  rw [startUp_sinks h, std_or_eq_iff, unionMask_std, decide_eq_true_eq]

/-- With a list of sinks on the command line and another one in the configuration. -/
theorem activeLogSinks_iff_sample :
    let files : Files := ⟨fun _ => true, fun _ => some (lit "log_sinks: none\nlog_verbosity: info\n")⟩
    let argv := [lit "ipvshttpd", lit "-L", lit "syslog,STDOUT", lit "-f"]
    ∃ started, startUp files argv = .ok started ∧
      requestedSinks (sinkLists argv.tail) started.config.getLogSinks =
        [lit "syslog", lit "stdout"] ∧
      started.config.getLogSinks = lit "none" ∧
      (started.options.log.activeLogSinks = unionMask [lit "syslog", lit "stdout"] ↔
        lit "stdout" ∈ [lit "syslog", lit "stdout"]) := by
  refine ⟨_, rfl, by decide, by decide, ?_⟩
  exact activeLogSinks_iff
    ⟨fun _ => true, fun _ => some (lit "log_sinks: none\nlog_verbosity: info\n")⟩
    [lit "ipvshttpd", lit "-L", lit "syslog,STDOUT", lit "-f"] _ rfl

/-- With syslog as the only sink in the list, the standard sink is active as well. -/
theorem standard_sink_stays_active :
    let files : Files := ⟨fun _ => false, fun _ => none⟩
    let argv := [lit "ipvshttpd", lit "-L", lit "syslog"]
    ∃ started, startUp files argv = .ok started ∧
      requestedSinks (sinkLists argv.tail) started.config.getLogSinks = [lit "syslog"] ∧
      started.options.log.activeLogSinks ≠ unionMask [lit "syslog"] :=
  ⟨_, rfl, by decide, by decide⟩

end Ipvshttpd
