import Ipvshttpd.LogLevels
import Ipvshttpd.Proofs.CommandLineProofs
import Ipvshttpd.Proofs.ConfigTextProofs

/-!
# Proofs: the two ways to set the log level

How a start ends is determined by the options, the lines and the level that is chosen
(`startUp_spec`). The two ways choose the same level unless a name that is not in lower case is taken
as it is.
-/

namespace Ipvshttpd

open CLib

variable {files files' : Files} {argv args lines lines' rest : List Str} {o : Options} {s : Str}
variable {groups before : List OptionGroup} {r r' : Except Stop Started} {a b : Option Int}

/-! ## Outcomes -/

theorem EndsWith.unique (ha : EndsWith r a) (hb : EndsWith r b) : a = b := by
  cases a with
  | none =>
    obtain ⟨output, rfl⟩ := ha
    cases b with
    | none => rfl
    | some level =>
      obtain ⟨_, h, -⟩ := hb
      cases h
  | some level =>
    obtain ⟨started, rfl, rfl⟩ := ha
    cases b with
    | none =>
      obtain ⟨_, h⟩ := hb
      cases h
    | some level' =>
      obtain ⟨started', h, rfl⟩ := hb
      rw [Except.ok.inj h]

theorem sameOutcome_iff (ha : EndsWith r a) (hb : EndsWith r' b) : SameOutcome r r' ↔ a = b := by
  constructor
  · rintro ⟨outcome, hr, hr'⟩
    rw [ha.unique hr, hb.unique hr']
  · rintro rfl
    exact ⟨a, ha, hb⟩

/-! ## Configurations -/

/-- The setting of a key that keeps its text is the last value for it. -/
theorem afterLines_text {key : Key} (hkey : ∀ old value, key.update old value = .text value)
    (hssl : key ≠ .useSsl) (lines : List Str) :
    afterLines key (.text []) lines = .text (lastSetting key lines) := by
  unfold afterLines lastSetting
  rw [foldl_update_last hssl]
  cases (lines.filterMap (settingOf key)).getLast? with
  | none => rfl
  | some value => exact hkey _ value

/-- What a start makes of the configuration that it loads. -/
theorem openFile_lines {contents : Str} (filename : Str) (hlines : getLines contents = lines) :
    ((ConfigurationManager.new.openFile filename (some contents)).valid = true ↔
        ∀ line ∈ lines, Accepted line) ∧
      ((∀ line ∈ lines, Accepted line) →
        (ConfigurationManager.new.openFile filename (some contents)).manager.getLogVerbosity =
            lastSetting .logVerbosity lines ∧
          (ConfigurationManager.new.openFile filename (some contents)).manager.getLogSinks =
            lastSetting .logSinks lines) := by
  subst hlines
  have hvalid := openLoop_valid filename (getLines contents) 0 .new
  refine ⟨hvalid, fun hall => ?_⟩
  have hread := linesRead_of_valid (hvalid.2 hall)
  have hget := openLoop_get filename (getLines contents) 0 .new
  rw [hread] at hget
  have hverbosity := (hget .logVerbosity).trans (afterLines_text (fun _ _ => rfl) (by decide) _)
  have hsinks := (hget .logSinks).trans (afterLines_text (fun _ _ => rfl) (by decide) _)
  exact ⟨Setting.text.inj hverbosity, Setting.text.inj hsinks⟩

theorem accepted_of_verbosity {line value : Str} (h : settingOf .logVerbosity line = some value) :
    Accepted line :=
  Or.inr ⟨.logVerbosity, value, settingOf_eq_some.1 h⟩

theorem accepted_otherLines (lines : List Str) :
    (∀ line ∈ otherLines lines, Accepted line) ↔ ∀ line ∈ lines, Accepted line := by
  constructor
  · intro h line hline
    cases hset : settingOf .logVerbosity line with
    | none => exact h line (List.mem_filter.2 ⟨hline, by rw [hset]; rfl⟩)
    | some value => exact accepted_of_verbosity hset
  · intro h line hline
    exact h line (List.mem_filter.1 hline).1

theorem lastSetting_otherLines (lines : List Str) :
    lastSetting .logSinks (otherLines lines) = lastSetting .logSinks lines := by
  have hsame : (otherLines lines).filterMap (settingOf .logSinks) =
      lines.filterMap (settingOf .logSinks) := by
    unfold otherLines
    induction lines with
    | nil => rfl
    | cons line lines ih =>
      cases hset : settingOf .logVerbosity line with
      | none =>
        rw [List.filter_cons_of_pos (by rw [hset]; rfl), List.filterMap_cons, List.filterMap_cons, ih]
      | some value =>
        have hnone : settingOf .logSinks line = none := settingOf_eq_none hset (by decide)
        rw [List.filter_cons_of_neg (by rw [hset]; exact Bool.false_ne_true), ih,
          List.filterMap_cons_none hnone]
  unfold lastSetting
  rw [hsame]

/-! ## The start -/

/-- The level that the options and the configured value choose, if it is known. -/
def chosenLevel (o : Options) (configured : Str) : Option Int :=
  if o.logLevelSet = false ∧ configured ≠ [] then levelOf configured else some o.log.loggingLevel

/-- The configured sinks are known or not looked at. -/
def SinksKnown (o : Options) (configured : Str) : Prop :=
  o.logSinksSet = true ∨ configured = [] ∨ ∀ name ∈ sinkNames configured, IsSinkName name

theorem configureLevel_eq (o : Options) (config : ConfigurationManager) :
    (∃ output, chosenLevel o config.getLogVerbosity = none ∧
      configureLevel o config o.log = .error (.exit output)) ∨
    ∃ level, chosenLevel o config.getLogVerbosity = some level ∧
      configureLevel o config o.log = .ok { o.log with loggingLevel := level } := by
  unfold chosenLevel configureLevel
  by_cases hconfigured : o.logLevelSet = false ∧ config.getLogVerbosity ≠ []
  · rw [if_pos hconfigured, if_pos hconfigured, parseLogLevel_eq]
    cases levelOf config.getLogVerbosity with
    | none => exact Or.inl ⟨_, rfl, rfl⟩
    | some level => exact Or.inr ⟨level, rfl, rfl⟩
  · rw [if_neg hconfigured, if_neg hconfigured]
    exact Or.inr ⟨_, rfl, rfl⟩

theorem configureSinks_spec (o : Options) (config : ConfigurationManager) (g : LogSettings) :
    (SinksKnown o config.getLogSinks ∧
      ∃ mask, configureSinks o config g = .ok { g with activeLogSinks := mask }) ∨
    (¬ SinksKnown o config.getLogSinks ∧
      ∃ output, configureSinks o config g = .error (.exit output)) := by
  unfold SinksKnown configureSinks
  by_cases hconfigured : o.logSinksSet = false ∧ config.getLogSinks ≠ []
  · rw [if_pos hconfigured, hconfigured.1, or_iff_right Bool.false_ne_true,
      or_iff_right hconfigured.2]
    rcases parseLogSinks_spec g config.getLogSinks with ⟨hknown, hok⟩ | ⟨hunknown, output, hexit⟩
    · exact Or.inl ⟨hknown, _, hok⟩
    · exact Or.inr ⟨hunknown, output, hexit⟩
  · left
    rw [if_neg hconfigured]
    refine ⟨?_, g.activeLogSinks, rfl⟩
    rw [not_and_or, not_not, Bool.not_eq_false] at hconfigured
    rcases hconfigured with hset | hempty
    · exact Or.inl hset
    · exact Or.inr (Or.inl hempty)

/-- Options that are accepted start the program if every line of the configuration is accepted and the
    sinks and the level are known. -/
theorem startUp_spec (ho : parseOptions argv = .ok o) (hload : Loads files argv lines) :
    ((∀ line ∈ lines, Accepted line) ∧ SinksKnown o (lastSetting .logSinks lines) →
      EndsWith (startUp files argv) (chosenLevel o (lastSetting .logVerbosity lines))) ∧
    (¬ ((∀ line ∈ lines, Accepted line) ∧ SinksKnown o (lastSetting .logSinks lines)) →
      EndsWith (startUp files argv) none) := by
  obtain ⟨hexists, contents, hread, hlines⟩ := hload o ho
  obtain ⟨hvalid, hconfig⟩ := openFile_lines o.configFile hlines
  unfold startUp
  rw [ho, ok_bind, hread]
  dsimp only
  rw [if_pos hexists]
  by_cases hall : ∀ line ∈ lines, Accepted line
  · obtain ⟨hverbosity, hsinks⟩ := hconfig hall
    rw [if_pos (hvalid.2 hall), and_iff_right hall, ← hverbosity, ← hsinks]
    generalize (ConfigurationManager.new.openFile o.configFile (some contents)).manager = config
    unfold configureLog
    rcases configureLevel_eq o config with ⟨output, hlevel, hexit⟩ | ⟨level, hlevel, hok⟩
    · rw [hexit, hlevel]
      exact ⟨fun _ => ⟨_, rfl⟩, fun _ => ⟨_, rfl⟩⟩
    · rw [hok, hlevel, ok_bind]
      rcases configureSinks_spec o config { o.log with loggingLevel := level } with
        ⟨hknown, mask, hmask⟩ | ⟨hunknown, output, hexit⟩
      · rw [hmask]
        exact ⟨fun _ => ⟨_, rfl, rfl⟩, fun h => absurd hknown h⟩
      · rw [hexit]
        exact ⟨fun h => absurd h hunknown, fun _ => ⟨_, rfl⟩⟩
  · rw [if_neg fun h => hall (hvalid.1 h)]
    exact ⟨fun h => absurd h.1 hall, fun _ => ⟨_, rfl⟩⟩

theorem startUp_rejected {output : List StartOutput} (h : parseOptions argv = .error (.exit output)) :
    EndsWith (startUp files argv) none := by
  unfold startUp
  rw [h]
  exact ⟨output, rfl⟩

theorem loads_configured {contents : Str} (argv : List Str) (h : getLines contents = lines) :
    Loads (.configured contents) argv lines := by
  intro o _
  exact ⟨Or.inr rfl, contents, rfl, h⟩

/-! ## Groups -/

/-- The last argument of a group does not look like an option. -/
theorem mem_args {opt : Str} {group : OptionGroup} (hvalid : group.Valid) (hdash : opt.head? = some 45)
    (h : opt ∈ group.args) : group.args.head? = some opt := by
  have harg : ∀ {first arg : Str}, IsArgument arg → opt ∈ [first, arg] → some first = some opt := by
    intro first arg harg hmem
    rw [List.mem_pair] at hmem
    rcases hmem with rfl | rfl
    · rfl
    · exact absurd hdash harg.no_dash
  cases group with
  | foreground =>
    rw [List.mem_singleton.1 h]
    rfl
  | level arg => exact harg hvalid.1 h
  | sinks arg => exact harg hvalid.1 h
  | config arg => exact harg hvalid h
  | pid arg => exact harg hvalid h

/-- The option for the level is among the arguments exactly if one of the groups is a level. -/
theorem mem_levels (h : Spells groups args) : lit "-l" ∈ args ↔ ∃ arg, .level arg ∈ groups := by
  rw [h.concat, List.mem_flatMap]
  constructor
  · rintro ⟨group, hmem, hopt⟩
    have hhead := mem_args (h.valid group hmem) rfl hopt
    cases group with
    | level arg => exact ⟨arg, hmem⟩
    | _ => exact absurd (Option.some.inj hhead) (by decide)
  · rintro ⟨arg, hmem⟩
    exact ⟨.level arg, hmem, List.mem_cons_self ..⟩

/-- Where a level is among other groups makes no difference. -/
theorem foldl_apply_level (hother : ∀ arg, .level arg ∉ groups) (o : Options) (s : Str) :
    groups.foldl OptionGroup.apply ((OptionGroup.level s).apply o) =
      (OptionGroup.level s).apply (groups.foldl OptionGroup.apply o) := by
  induction groups generalizing o with
  | nil => rfl
  | cons group groups ih =>
    have hrest : ∀ arg, .level arg ∉ groups := fun arg h => hother arg (List.mem_cons_of_mem _ h)
    rw [List.foldl_cons, List.foldl_cons, ← ih hrest]
    cases group with
    | level arg => exact absurd (List.mem_cons_self ..) (hother arg)
    | _ => rfl

/-- The sinks that are asked for are known if those of the configuration are or are not looked at. -/
theorem requestedSinks_known (h : Spells groups args) (configured : Str) :
    (∀ name ∈ requestedSinks (sinkLists args) configured, IsSinkName name) ↔
      SinksKnown (groups.foldl OptionGroup.apply .defaults) configured := by
  have hset := foldl_apply_logSinksSet groups .defaults
  rw [← sinkLists_args, ← h.concat, or_iff_right (show ¬ Options.defaults.logSinksSet = true by decide)]
    at hset
  unfold SinksKnown requestedSinks
  rw [hset]
  by_cases hlists : sinkLists args = []
  · rw [if_neg (not_not.2 hlists), or_iff_right (not_not.2 hlists)]
    by_cases hempty : configured = []
    · rw [if_neg (not_not.2 hempty)]
      refine iff_of_true (fun name hname => ?_) (Or.inl hempty)
      rw [List.mem_singleton.1 hname]
      exact Or.inr (Or.inr rfl)
    · rw [if_pos hempty, or_iff_right hempty]
  · rw [if_pos hlists]
    refine iff_of_true (fun name hname => ?_) (Or.inl hlists)
    rw [h.concat, sinkLists_args, List.mem_flatMap] at hname
    obtain ⟨list, hlist, hname⟩ := hname
    obtain ⟨group, hgroup, hsinks⟩ := List.mem_filterMap.1 hlist
    have hvalid := h.valid group hgroup
    cases group with
    | sinks arg =>
      cases hsinks
      exact hvalid.2 name hname
    | _ => cases hsinks

theorem startable_iff (h : Spells groups args) (lines : List Str) : Startable args lines ↔
    (∀ line ∈ lines, Accepted line) ∧
      SinksKnown (groups.foldl OptionGroup.apply .defaults) (lastSetting .logSinks lines) := by
  rw [← requestedSinks_known h]
  exact ⟨fun hstart => ⟨hstart.accepted, hstart.sinks⟩, fun hready => ⟨⟨groups, h⟩, hready.1, hready.2⟩⟩

/-! ## The option overrules the configuration -/

theorem verbosityIgnored : VerbosityIgnored := by
  intro files files' argv lines lines' hoption hothers hload hload'
  have hargv : argv ≠ [] := by
    rintro rfl
    cases hoption
  rcases parseOptions_spec hargv with ⟨groups, hspells, ho⟩ | ⟨output, hexit⟩
  · have hset : (groups.foldl OptionGroup.apply .defaults).logLevelSet = true := by
      rw [foldl_apply_logLevelSet]
      exact Or.inr ((mem_levels hspells).1 hoption)
    have hchosen : ∀ configured, chosenLevel (groups.foldl OptionGroup.apply .defaults) configured =
        some (groups.foldl OptionGroup.apply .defaults).log.loggingLevel := by
      intro configured
      exact if_neg fun h => absurd hset (by rw [h.1]; exact Bool.false_ne_true)
    obtain ⟨hready, hrejected⟩ := startUp_spec ho hload
    obtain ⟨hready', hrejected'⟩ := startUp_spec ho hload'
    rw [← accepted_otherLines, ← lastSetting_otherLines, hchosen] at hready hready'
    rw [← accepted_otherLines, ← lastSetting_otherLines] at hrejected hrejected'
    rw [← hothers] at hready' hrejected'
    by_cases hstart : (∀ line ∈ otherLines lines, Accepted line) ∧
        SinksKnown (groups.foldl OptionGroup.apply .defaults)
          (lastSetting .logSinks (otherLines lines))
    · exact ⟨_, hready hstart, hready' hstart⟩
    · exact ⟨_, hrejected hstart, hrejected' hstart⟩
  · exact ⟨none, startUp_rejected hexit, startUp_rejected hexit⟩

/-! ## The two ways -/

theorem trimmed_of_all (h : s.all (fun d => !isspace d) = true) : Trimmed s := by
  have hbyte : ∀ d ∈ s, isspace d = false := by
    intro d hd
    have hd' := List.all_eq_true.1 h d hd
    simpa using hd'
  exact ⟨fun d hd => hbyte d (List.mem_of_head? hd), fun d hd => hbyte d (List.mem_of_getLast? hd)⟩

/-- A level is known in lower case only. -/
theorem strToLower_of_level (h : levelOf s ≠ none) : strToLower s = s := by
  have hname : s = lit "none" ∨ s = lit "error" ∨ s = lit "info" ∨ s = lit "debug" := by
    by_contra hnone
    rw [not_or, not_or, not_or] at hnone
    refine h ?_
    unfold levelOf
    rw [if_neg hnone.1, if_neg hnone.2.1, if_neg hnone.2.2.1, if_neg hnone.2.2.2]
  rcases hname with rfl | rfl | rfl | rfl
  · rfl
  · rfl
  · rfl
  · rfl

namespace LevelChoice

variable (c : LevelChoice)

theorem otherLines_lines : otherLines c.lines = c.lines := by
  refine List.filter_eq_self.2 fun line hline => ?_
  rw [c.noLine line hline]
  rfl

theorem settingOf_line :
    settingOf .logVerbosity (lit "log_verbosity: " ++ c.level) = some c.level := by
  have hspace : Blank [32] := by
    intro d hd
    rw [List.mem_singleton.1 hd]
    rfl
  have hempty : Blank [] := fun d hd => absurd hd List.not_mem_nil
  have htrim : strTrim (32 :: c.level) = c.level := by
    have hpadded := strTrim_padded hspace hempty c.trimmed
    rw [List.append_nil] at hpadded
    exact hpadded
  have hparse := parseLine_colon (show 58 ∉ lit "log_verbosity" by decide) (32 :: c.level)
  rw [htrim] at hparse
  exact settingOf_eq_some.2 hparse

theorem otherLines_linesWith : otherLines c.linesWith = c.lines := by
  have hskip : ¬ (settingOf .logVerbosity (lit "log_verbosity: " ++ c.level)).isNone = true := by
    rw [c.settingOf_line]
    exact Bool.false_ne_true
  unfold otherLines linesWith
  rw [List.filter_append, List.filter_cons, if_neg hskip, ← List.filter_append]
  exact c.otherLines_lines

theorem lastSetting_linesWith : lastSetting .logVerbosity c.linesWith = c.level := by
  have hpre : c.pre.filterMap (settingOf .logVerbosity) = [] :=
    List.filterMap_eq_nil_iff.2 fun line hline => c.noLine line (List.mem_append_left _ hline)
  have hpost : c.post.filterMap (settingOf .logVerbosity) = [] :=
    List.filterMap_eq_nil_iff.2 fun line hline => c.noLine line (List.mem_append_right _ hline)
  unfold lastSetting linesWith
  rw [List.filterMap_append, List.filterMap_cons_some c.settingOf_line, hpre, hpost]
  rfl

theorem not_mem_groups (h : Spells groups c.args) (arg : Str) : .level arg ∉ groups :=
  fun hmem => c.noOption ((mem_levels h).2 ⟨arg, hmem⟩)

/-- The arguments with the option are spelled as those without it, with the level in its place. -/
theorem spells_argvWith : Spells groups c.argvWith.tail ↔
    ∃ after, groups = c.before ++ .level c.level :: after ∧ levelOf (strToLower c.level) ≠ none ∧
      Spells (c.before ++ after) c.args := by
  have hlevel : ∀ {groups'}, Spells groups' (lit "-l" :: c.level :: c.after) ↔
      ∃ after, groups' = [.level c.level] ++ after ∧
        (∀ group ∈ [OptionGroup.level c.level], group.Valid) ∧ Spells after c.after := by
    have hargs : [OptionGroup.level c.level].flatMap OptionGroup.args ++ c.after =
        lit "-l" :: c.level :: c.after := rfl
    intro groups'
    rw [← hargs]
    exact spells_append
  constructor
  · intro h
    obtain ⟨groups', rfl, hbefore, hspells⟩ := spells_append.1 h
    obtain ⟨after, rfl, hvalid, hafter⟩ := hlevel.1 hspells
    refine ⟨after, rfl, (List.forall_mem_singleton.1 hvalid).2, ?_⟩
    exact spells_append.2 ⟨after, rfl, hbefore, hafter⟩
  · rintro ⟨after, rfl, hknown, hspells⟩
    obtain ⟨after', hsame, hbefore, hafter⟩ := spells_append.1 hspells
    rw [List.append_cancel_left hsame] at *
    refine spells_append.2 ⟨_, rfl, hbefore, hlevel.2 ⟨after', rfl, ?_, hafter⟩⟩
    exact List.forall_mem_singleton.2 ⟨c.argument, hknown⟩

theorem endsWith_option (hload : Loads files c.argvWith c.lines) :
    (Startable c.args c.lines → EndsWith (startUp files c.argvWith) (levelOf (strToLower c.level))) ∧
    (¬ Startable c.args c.lines → EndsWith (startUp files c.argvWith) none) := by
  have hne : c.argvWith ≠ [] := List.cons_ne_nil _ _
  rcases parseOptions_spec hne with ⟨groups, hspells, ho⟩ | ⟨output, hexit⟩
  · obtain ⟨after, rfl, hknown, hothers⟩ := c.spells_argvWith.1 hspells
    have hnone : ∀ arg, .level arg ∉ after :=
      fun arg h => c.not_mem_groups hothers arg (List.mem_append_right _ h)
    rw [List.foldl_append, List.foldl_cons, foldl_apply_level hnone, ← List.foldl_append] at ho
    have hchosen : ∀ o configured, chosenLevel ((OptionGroup.level c.level).apply o) configured =
        levelOf (strToLower c.level) := by
      intro o configured
      obtain ⟨level, hlevel⟩ := Option.ne_none_iff_exists'.1 hknown
      have hset : ((OptionGroup.level c.level).apply o).logLevelSet = true := rfl
      unfold chosenLevel
      rw [hset, if_neg (by simp)]
      unfold OptionGroup.apply
      simp [hlevel]
    obtain ⟨hready, hrejected⟩ := startUp_spec ho hload
    rw [hchosen] at hready
    rw [startable_iff hothers]
    exact ⟨hready, hrejected⟩
  · refine ⟨?_, fun _ => startUp_rejected hexit⟩
    rintro ⟨⟨groups, hspells⟩, -, -⟩
    have hunknown : levelOf (strToLower c.level) = none := by
      by_contra hknown
      obtain ⟨after, rfl, -, -⟩ := spells_append.1 hspells
      have hwith := c.spells_argvWith.2 ⟨after, rfl, hknown, hspells⟩
      rw [parseOptions_valid hne hwith] at hexit
      cases hexit
    rw [hunknown]
    exact startUp_rejected hexit

theorem endsWith_line (hload : Loads files c.argvWithout c.linesWith) :
    (Startable c.args c.lines → EndsWith (startUp files c.argvWithout) (levelOf c.level)) ∧
    (¬ Startable c.args c.lines → EndsWith (startUp files c.argvWithout) none) := by
  have hne : c.argvWithout ≠ [] := List.cons_ne_nil _ _
  rcases parseOptions_spec hne with ⟨groups, hspells, ho⟩ | ⟨output, hexit⟩
  · have hargs : Spells groups c.args := hspells
    have hunset : (groups.foldl OptionGroup.apply .defaults).logLevelSet = false := by
      rw [← Bool.not_eq_true, foldl_apply_logLevelSet, not_or]
      refine ⟨by decide, ?_⟩
      rintro ⟨arg, hmem⟩
      exact c.not_mem_groups hargs arg hmem
    have hchosen : chosenLevel (groups.foldl OptionGroup.apply .defaults) c.level =
        levelOf c.level := if_pos ⟨hunset, c.argument.ne_nil⟩
    obtain ⟨hready, hrejected⟩ := startUp_spec ho hload
    rw [c.lastSetting_linesWith, hchosen] at hready
    rw [← accepted_otherLines, ← lastSetting_otherLines, c.otherLines_linesWith] at hready hrejected
    rw [startable_iff hargs]
    exact ⟨hready, hrejected⟩
  · refine ⟨?_, fun _ => startUp_rejected hexit⟩
    rintro ⟨⟨groups, hspells⟩, -, -⟩
    rw [parseOptions_valid hne hspells] at hexit
    cases hexit

/-- The two ways of setting the level agree unless a start that nothing else stands in the way of is
    given a name in letters that are not all small. -/
theorem agree_iff (c : LevelChoice) (files files' : Files) (hoption : Loads files c.argvWith c.lines)
    (hline : Loads files' c.argvWithout c.linesWith) :
    (SameOutcome (startUp files c.argvWith) (startUp files' c.argvWithout) ∧ VerbosityIgnored) ↔
      levelOf (strToLower c.level) = none ∨ levelOf c.level ≠ none ∨ ¬ Startable c.args c.lines := by
  rw [and_iff_left verbosityIgnored]
  obtain ⟨hstart, hrejected⟩ := c.endsWith_option hoption
  obtain ⟨hstart', hrejected'⟩ := c.endsWith_line hline
  by_cases hstartable : Startable c.args c.lines
  · rw [sameOutcome_iff (hstart hstartable) (hstart' hstartable), or_iff_left (not_not.2 hstartable)]
    constructor
    · intro hsame
      by_cases hlower : levelOf (strToLower c.level) = none
      · exact Or.inl hlower
      · rw [hsame] at hlower
        exact Or.inr hlower
    · rintro (hlower | hlevel)
      · by_contra hdiffer
        have hlevel : levelOf c.level ≠ none := fun hnone => hdiffer (hlower.trans hnone.symm)
        rw [strToLower_of_level hlevel] at hlower
        exact hlevel hlower
      · rw [strToLower_of_level hlevel]
  · rw [sameOutcome_iff (hrejected hstartable) (hrejected' hstartable)]
    exact iff_of_true rfl (Or.inr (Or.inr hstartable))

/-- A level in small letters. -/
theorem agree_iff_sample :
    let c := alone (lit "debug") ⟨by decide, by decide⟩ (trimmed_of_all rfl)
    (SameOutcome (startUp (.configured []) c.argvWith)
        (startUp (.configured (lit "log_verbosity: debug")) c.argvWithout) ∧ VerbosityIgnored) ↔
      levelOf (strToLower c.level) = none ∨ levelOf c.level ≠ none ∨ ¬ Startable c.args c.lines :=
  agree_iff (alone (lit "debug") ⟨by decide, by decide⟩ (trimmed_of_all rfl)) _ _
    (loads_configured _ rfl) (loads_configured _ rfl)

/-- The level in capital letters is accepted as an argument and rejected in the configuration. -/
theorem capital_letters_are_rejected :
    let c := alone (lit "DEBUG") ⟨by decide, by decide⟩ (trimmed_of_all rfl)
    let r := startUp (.configured []) c.argvWith
    let r' := startUp (.configured (lit "log_verbosity: DEBUG")) c.argvWithout
    Loads (.configured []) c.argvWith c.lines ∧
      Loads (.configured (lit "log_verbosity: DEBUG")) c.argvWithout c.linesWith ∧
      EndsWith r (some logLevelDebug) ∧ EndsWith r' none ∧ ¬ SameOutcome r r' := by
  intro c r r'
  have hoption : EndsWith r (some logLevelDebug) := ⟨_, rfl, rfl⟩
  have hline : EndsWith r' none := ⟨_, rfl⟩
  refine ⟨loads_configured _ rfl, loads_configured _ rfl, hoption, hline, ?_⟩
  rw [sameOutcome_iff hoption hline]
  decide

end LevelChoice

end Ipvshttpd
