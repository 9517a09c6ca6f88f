import Ipvshttpd.Arguments
import Ipvshttpd.Proofs.StringToolsProofs

/-!
# Proofs: the grammar of the arguments

A pass of the option loop takes a valid group from the arguments or ends the program with a message
(`optionStep_spec`). By induction the loop goes through valid groups to the end of the arguments or
ends the program (`optionLoop_spec`).
-/

namespace Ipvshttpd

open CLib

variable {g g' : LogSettings} {s list arg : Str} {argv : List Str} {argn argn' fuel : Nat}
variable {o o' : Options} {group : OptionGroup} {groups before : List OptionGroup} {rest : List Str}

theorem bind_eq_ok {α β ε : Type} {x : Except ε α} {f : α → Except ε β} {b : β} :
    (x >>= f) = .ok b ↔ ∃ a, x = .ok a ∧ f a = .ok b := by
  cases x with
  | ok a => simp [bind, Except.bind]
  | error e => simp [bind, Except.bind]

theorem pure_eq_ok {α ε : Type} {a b : α} : (pure a : Except ε α) = .ok b ↔ a = b := by
  simp [pure, Except.pure]

/-! ## Log levels and log sinks -/

theorem parseLogLevel_eq (g : LogSettings) (s : Str) : parseLogLevel g s =
    (levelOf s).elim (.error (.exit (errorOutput g (lit "Unknown log level: " ++ s))))
      fun level => .ok { g with loggingLevel := level } := by
  unfold parseLogLevel levelOf
  split
  · rfl
  · split
    · rfl
    · split
      · rfl
      · split
        · rfl
        · rfl

theorem parseLogSink_known (h : IsSinkName s) (g : LogSettings) :
    parseLogSink g s = .ok { g with activeLogSinks := g.activeLogSinks ||| sinkMask s } := by
  rcases h with rfl | rfl | rfl
  · rfl
  · rfl
  · rfl

theorem parseLogSink_unknown (h : ¬ IsSinkName s) (g : LogSettings) :
    parseLogSink g s = .error (.exit (errorOutput g (lit "Invalid log sink: " ++ s))) := by
  unfold IsSinkName at h
  rw [not_or, not_or] at h
  exact if_pos h

theorem unionMask_cons (name : Str) (names : List Str) :
    unionMask (name :: names) = sinkMask name ||| unionMask names := rfl

theorem unionMask_append (names names' : List Str) :
    unionMask (names ++ names') = unionMask names ||| unionMask names' := by
  induction names with
  | nil => simp [unionMask]
  | cons name names ih =>
    rw [List.cons_append, unionMask_cons, unionMask_cons, ih, BitVec.or_assoc]

/-- The loop over the elements of a list adds their sinks if it knows them all, and ends the program
    at the first that it does not. -/
theorem parseLogSinks_spec (g : LogSettings) (list : Str) :
    ((∀ name ∈ sinkNames list, IsSinkName name) ∧ parseLogSinks g list =
        .ok { g with activeLogSinks := g.activeLogSinks ||| unionMask (sinkNames list) }) ∨
      (¬ (∀ name ∈ sinkNames list, IsSinkName name) ∧
        ∃ output, parseLogSinks g list = .error (.exit output)) := by
  have hloop : ∀ (elements : List Str) (g : LogSettings),
      ((∀ name ∈ elements.map strToLower, IsSinkName name) ∧
        elements.foldlM (fun g it => parseLogSink g (strToLower it)) g = .ok { g with
          activeLogSinks := g.activeLogSinks ||| unionMask (elements.map strToLower) }) ∨
      (¬ (∀ name ∈ elements.map strToLower, IsSinkName name) ∧ ∃ output,
        elements.foldlM (fun g it => parseLogSink g (strToLower it)) g = .error (.exit output)) := by
    intro elements
    induction elements with
    | nil =>
      intro g
      left
      refine ⟨fun name h => absurd h List.not_mem_nil, ?_⟩
      show Except.ok g = _
      simp [unionMask]
    | cons it elements ih =>
      intro g
      rw [List.foldlM_cons, List.map_cons, List.forall_mem_cons, unionMask_cons, ← BitVec.or_assoc]
      by_cases hit : IsSinkName (strToLower it)
      · rw [parseLogSink_known hit, and_iff_right hit]
        exact ih { g with activeLogSinks := g.activeLogSinks ||| sinkMask (strToLower it) }
      · rw [parseLogSink_unknown hit]
        exact Or.inr ⟨fun h => hit h.1, _, rfl⟩
  have hsplit : strSplit list (lit ",") (-1) = some (list.splitOn 44) := strSplit_byte list 44
  unfold parseLogSinks
  rw [hsplit]
  exact hloop _ g

/-! ## Reading arguments -/

theorem readArg_ok {i : Nat} {arg : Str} : readArg argv i = .ok arg ↔ argv[i]? = some arg := by
  unfold readArg
  cases argv[i]? with
  | none => simp
  | some a => simp

theorem peekArg_eq (argv : List Str) (i : Nat) : peekArg argv i = .ok (argv[i]?.getD []) := by
  unfold peekArg readArg
  by_cases hi : i < argv.length
  · rw [if_pos hi, List.getElem?_eq_getElem hi]
    rfl
  · rw [if_neg hi, List.getElem?_eq_none (Nat.not_lt.1 hi)]
    rfl

theorem usageError_eq {α : Type} {name : Str} (h : argv[0]? = some name) (g : LogSettings)
    (message : Str) : (usageError argv g message : Except Stop α) =
      .error (.exit (errorOutput g message ++ [.usage name])) := by
  unfold usageError
  rw [readArg_ok.2 h]
  rfl

/-- What the option loop takes for a missing argument is what can not be one. -/
theorem isArgument_iff (arg : Str) :
    IsArgument arg ↔ ¬ (arg = [] ∨ strStartsWith (lit "-") arg = true) := by
  have hdash : strStartsWith (lit "-") arg = true ↔ arg.head? = some 45 := by
    cases arg with
    | nil => exact iff_of_false (by decide) (by simp)
    | cons c arg =>
      have hlit : lit "-" = [45] := rfl
      rw [hlit]
      simp [strStartsWith, strncmpEq]
  rw [not_or, hdash]
  exact ⟨fun h => ⟨h.ne_nil, h.no_dash⟩, fun h => ⟨h.1, h.2⟩⟩

/-! ## The grammar -/

theorem OptionGroup.args_pos (group : OptionGroup) : 0 < group.args.length := by
  cases group <;> exact Nat.succ_pos _

theorem args_cancel {group group' : OptionGroup} {x y : List Str}
    (h : group.args ++ x = group'.args ++ y) : group = group' ∧ x = y := by
  have hsame : ∀ {opt arg arg' : Str}, [opt, arg] ++ x = [opt, arg'] ++ y → arg = arg' ∧ x = y := by
    intro opt arg arg' hargs
    exact List.cons.inj (List.cons.inj hargs).2
  cases group <;> cases group' <;> first
    | exact absurd (List.cons.inj h).1 (by decide)
    | exact ⟨rfl, (List.cons.inj h).2⟩
    | exact (hsame h).imp_left (congrArg _)

/-- Arguments that begin with groups are spelled by these and further ones only. -/
theorem spells_append : Spells groups (before.flatMap OptionGroup.args ++ rest) ↔
    ∃ after, groups = before ++ after ∧ (∀ group ∈ before, group.Valid) ∧ Spells after rest := by
  induction before generalizing groups with
  | nil => simp
  | cons group before ih =>
    rw [List.flatMap_cons, List.append_assoc]
    constructor
    · rintro ⟨hargs, hvalid⟩
      cases groups with
      | nil =>
        have hpos := group.args_pos
        rw [List.flatMap_nil, List.append_eq_nil_iff] at hargs
        rw [hargs.1] at hpos
        cases hpos
      | cons group' groups =>
        rw [List.flatMap_cons] at hargs
        obtain ⟨rfl, hrest⟩ := args_cancel hargs
        rw [List.forall_mem_cons] at hvalid
        obtain ⟨after, rfl, hbefore, hspells⟩ := ih.1 ⟨hrest, hvalid.2⟩
        exact ⟨after, rfl, List.forall_mem_cons.2 ⟨hvalid.1, hbefore⟩, hspells⟩
    · rintro ⟨after, rfl, hbefore, hspells⟩
      rw [List.forall_mem_cons] at hbefore
      have hrest : Spells (before ++ after) (before.flatMap OptionGroup.args ++ rest) :=
        ih.2 ⟨after, rfl, hbefore.2, hspells⟩
      refine ⟨?_, ?_⟩
      · rw [List.cons_append, List.flatMap_cons, hrest.concat]
      · rw [List.cons_append, List.forall_mem_cons]
        exact ⟨hbefore.1, hrest.valid⟩

/-! ## One pass -/

theorem ok_bind {α β ε : Type} (a : α) (f : α → Except ε β) : ((.ok a : Except ε α) >>= f) = f a := rfl

theorem OptionGroup.Valid.complete (h : group.Valid) : group.Complete := by
  cases group with
  | foreground => exact h
  | level arg => exact h.1
  | sinks arg => exact h.1
  | config arg => exact h
  | pid arg => exact h

theorem getElem?_of_drop {l : List Str} (h : argv.drop argn = l) (i : Nat) :
    argv[argn + i]? = l[i]? := by
  rw [← h, List.getElem?_drop]

theorem drop_eq_cons (h : argv[argn]? = some s) : argv.drop argn = s :: argv.drop (argn + 1) := by
  obtain ⟨hin, rfl⟩ := List.getElem?_eq_some_iff.1 h
  exact List.drop_eq_getElem_cons hin

/-- A pass that reads an option with its argument. -/
theorem optionStep_argument (o : Options) {opt : Str} (harg : IsArgument arg)
    (hargs : argv.drop argn = opt :: arg :: rest) (hf : opt ≠ lit "-f") :
    optionStep argv argn o =
      if opt = lit "-l" then parseLogLevel o.log (strToLower arg) >>= fun log =>
        .ok (argn + 1, { o with log := log, logLevelSet := true })
      else if opt = lit "-L" then parseLogSinks o.log arg >>= fun log =>
        .ok (argn + 1, { o with log := log, logSinksSet := true })
      else if opt = lit "-c" then .ok (argn + 1, { o with configFile := arg, configSet := true })
      else if opt = lit "-p" then .ok (argn + 1, { o with pidFile := arg })
      else usageError argv o.log (lit "Unknown option: " ++ opt) := by
  have hopt : argv[argn]? = some opt := getElem?_of_drop hargs 0
  have hnext : argv[argn + 1]? = some arg := getElem?_of_drop hargs 1
  have hgiven := (isArgument_iff arg).1 harg
  unfold optionStep
  rw [readArg_ok.2 hopt, peekArg_eq, readArg_ok.2 hnext, hnext, ok_bind, ok_bind, if_neg hf]
  simp only [Option.getD_some, if_neg hgiven, ok_bind]
  rfl

/-- A pass takes the next group if it is valid, and ends the program if not. -/
theorem optionStep_group (o : Options) (hcomplete : group.Complete)
    (hargs : argv.drop argn = group.args ++ rest) :
    (group.Valid ∧ optionStep argv argn o = .ok (argn + group.args.length - 1, group.apply o)) ∨
      (¬ group.Valid ∧ ∃ output, optionStep argv argn o = .error (.exit output)) := by
  cases group with
  | foreground =>
    have hopt : argv[argn]? = some (lit "-f") := getElem?_of_drop hargs 0
    left
    refine ⟨trivial, ?_⟩
    unfold optionStep
    rw [readArg_ok.2 hopt, peekArg_eq]
    rfl
  | level arg =>
    rw [optionStep_argument o hcomplete hargs (by decide), if_pos rfl, parseLogLevel_eq]
    cases hlevel : levelOf (strToLower arg) with
    | none => exact Or.inr ⟨fun h => h.2 hlevel, _, rfl⟩
    | some level =>
      left
      have happly : (OptionGroup.level arg).apply o =
          { o with log := { o.log with loggingLevel := level }, logLevelSet := true } := by
        unfold OptionGroup.apply
        simp [hlevel]
      rw [happly]
      exact ⟨⟨hcomplete, by simp [hlevel]⟩, rfl⟩
  | sinks arg =>
    rw [optionStep_argument o hcomplete hargs (by decide), if_neg (by decide), if_pos rfl]
    rcases parseLogSinks_spec o.log arg with ⟨hknown, hsinks⟩ | ⟨hunknown, output, hsinks⟩
    · rw [hsinks]
      exact Or.inl ⟨⟨hcomplete, hknown⟩, rfl⟩
    · rw [hsinks]
      exact Or.inr ⟨fun h => hunknown h.2, output, rfl⟩
  | config arg =>
    rw [optionStep_argument o hcomplete hargs (by decide), if_neg (by decide), if_neg (by decide),
      if_pos rfl]
    exact Or.inl ⟨hcomplete, rfl⟩
  | pid arg =>
    rw [optionStep_argument o hcomplete hargs (by decide), if_neg (by decide), if_neg (by decide),
      if_neg (by decide), if_pos rfl]
    exact Or.inl ⟨hcomplete, rfl⟩

/-- Where no group begins, the program ends with a message on its use. -/
theorem optionStep_other (o : Options) {name : Str} (hname : argv[0]? = some name)
    (hin : argn < argv.length)
    (hother : ∀ (group : OptionGroup) rest, group.Complete → argv.drop argn ≠ group.args ++ rest) :
    ∃ output, optionStep argv argn o = .error (.exit output) := by
  have hopt : argv[argn]? = some argv[argn] := List.getElem?_eq_getElem hin
  have hdrop := drop_eq_cons hopt
  generalize argv[argn] = opt at hopt hdrop
  have hf : opt ≠ lit "-f" := by
    rintro rfl
    exact hother .foreground _ trivial hdrop
  by_cases harg : IsArgument (argv[argn + 1]?.getD [])
  · cases hnext : argv[argn + 1]? with
    | none =>
      rw [hnext] at harg
      exact absurd rfl harg.ne_nil
    | some arg =>
      rw [hnext, Option.getD_some] at harg
      rw [drop_eq_cons hnext] at hdrop
      have hl : opt ≠ lit "-l" := by
        rintro rfl
        exact hother (.level arg) _ harg hdrop
      have hL : opt ≠ lit "-L" := by
        rintro rfl
        exact hother (.sinks arg) _ harg hdrop
      have hc : opt ≠ lit "-c" := by
        rintro rfl
        exact hother (.config arg) _ harg hdrop
      have hp : opt ≠ lit "-p" := by
        rintro rfl
        exact hother (.pid arg) _ harg hdrop
      rw [optionStep_argument o harg hdrop hf, if_neg hl, if_neg hL, if_neg hc, if_neg hp,
        usageError_eq hname]
      exact ⟨_, rfl⟩
  · rw [isArgument_iff, not_not] at harg
    unfold optionStep
    rw [readArg_ok.2 hopt, peekArg_eq, ok_bind, ok_bind, if_neg hf]
    simp only [if_pos harg, usageError_eq hname]
    split
    · exact ⟨_, rfl⟩
    · split
      · exact ⟨_, rfl⟩
      · split
        · exact ⟨_, rfl⟩
        · split
          · exact ⟨_, rfl⟩
          · exact ⟨_, rfl⟩

/-- A pass within the arguments takes a valid group or ends the program. -/
theorem optionStep_spec (o : Options) {name : Str} (hname : argv[0]? = some name)
    (hin : argn < argv.length) :
    (∃ (group : OptionGroup) (rest : List Str), group.Valid ∧ argv.drop argn = group.args ++ rest ∧
        optionStep argv argn o = .ok (argn + group.args.length - 1, group.apply o)) ∨
      ∃ output, optionStep argv argn o = .error (.exit output) := by
  by_cases hgroup : ∃ (group : OptionGroup) (rest : List Str),
      group.Complete ∧ argv.drop argn = group.args ++ rest
  · obtain ⟨group, rest, hcomplete, hargs⟩ := hgroup
    rcases optionStep_group o hcomplete hargs with ⟨hvalid, hstep⟩ | ⟨-, hstep⟩
    · exact Or.inl ⟨group, rest, hvalid, hargs, hstep⟩
    · exact Or.inr hstep
  · right
    refine optionStep_other o hname hin fun group rest hcomplete hargs => ?_
    exact hgroup ⟨group, rest, hcomplete, hargs⟩

/-! ## The option loop -/

/-- The index behind a group. -/
theorem drop_after {l : List Str} (h : argv.drop argn = l ++ rest) (hne : 0 < l.length) :
    argn + l.length ≤ argv.length ∧ argv.drop (argn + l.length) = rest := by
  have hlen := congrArg List.length h
  rw [List.length_drop, List.length_append] at hlen
  refine ⟨by omega, ?_⟩
  rw [← List.drop_drop, h, List.drop_left]

theorem optionLoop_pass {k : Nat} (hpos : 0 < k) (hin : argn + k ≤ argv.length)
    (hstep : optionStep argv argn o = .ok (argn + k - 1, o')) :
    optionLoop argv (fuel + 1) argn o = optionLoop argv fuel (argn + k) o' := by
  have hnext : argn + k - 1 + 1 = argn + k := by omega
  rw [optionLoop, if_pos (by omega), hstep, ok_bind]
  dsimp only
  rw [hnext]

/-- The loop takes valid groups one after the other. -/
theorem optionLoop_valid (hvalid : ∀ group ∈ groups, group.Valid) (hin : argn ≤ argv.length)
    (hargs : argv.drop argn = groups.flatMap OptionGroup.args) (hfuel : argv.length - argn < fuel) :
    optionLoop argv fuel argn o = .ok (groups.foldl OptionGroup.apply o) := by
  induction groups generalizing fuel argn o with
  | nil =>
    cases fuel with
    | zero => omega
    | succ fuel =>
      have hend : argv.length ≤ argn := List.drop_eq_nil_iff.1 hargs
      rw [optionLoop, if_neg (by omega)]
      rfl
  | cons group groups ih =>
    cases fuel with
    | zero => omega
    | succ fuel =>
      rw [List.flatMap_cons] at hargs
      rw [List.forall_mem_cons] at hvalid
      have hpos := group.args_pos
      obtain ⟨hin', hrest⟩ := drop_after hargs hpos
      rcases optionStep_group o hvalid.1.complete hargs with ⟨-, hstep⟩ | ⟨hinvalid, -⟩
      · rw [optionLoop_pass hpos hin' hstep, ih hvalid.2 hin' hrest (by omega)]
        rfl
      · exact absurd hvalid.1 hinvalid

/-- The loop goes through valid groups to the end of the arguments, or ends the program. -/
theorem optionLoop_spec {name : Str} (hname : argv[0]? = some name) (hin : argn ≤ argv.length)
    (hfuel : argv.length - argn < fuel) (o : Options) :
    (∃ groups, Spells groups (argv.drop argn) ∧
        optionLoop argv fuel argn o = .ok (groups.foldl OptionGroup.apply o)) ∨
      ∃ output, optionLoop argv fuel argn o = .error (.exit output) := by
  induction fuel generalizing argn o with
  | zero => omega
  | succ fuel ih =>
    by_cases hend : argn = argv.length
    · left
      rw [optionLoop, if_neg (not_not.2 hend), hend, List.drop_length]
      exact ⟨[], ⟨rfl, fun group h => absurd h List.not_mem_nil⟩, rfl⟩
    · have hlt : argn < argv.length := by omega
      rcases optionStep_spec o hname hlt with ⟨group, rest, hvalid, hargs, hstep⟩ | ⟨output, hstep⟩
      · have hpos := group.args_pos
        obtain ⟨hin', hrest⟩ := drop_after hargs hpos
        rw [optionLoop_pass hpos hin' hstep]
        rcases ih hin' (by omega) (group.apply o) with ⟨groups, hspells, hloop⟩ | hexit
        · left
          refine ⟨group :: groups, ⟨?_, ?_⟩, hloop⟩
          · rw [List.flatMap_cons, hargs, ← hspells.concat, hrest]
          · rw [List.forall_mem_cons]
            exact ⟨hvalid, hspells.valid⟩
        · exact Or.inr hexit
      · right
        rw [optionLoop, if_pos hend, hstep]
        exact ⟨output, rfl⟩

theorem parseOptions_valid (h : argv ≠ []) (hspells : Spells groups argv.tail) :
    parseOptions argv = .ok (groups.foldl OptionGroup.apply .defaults) := by
  have hpos := List.length_pos_iff.2 h
  refine optionLoop_valid hspells.valid hpos ?_ (by omega)
  rw [List.drop_one]
  exact hspells.concat

theorem parseOptions_spec (h : argv ≠ []) :
    (∃ groups, Spells groups argv.tail ∧
        parseOptions argv = .ok (groups.foldl OptionGroup.apply .defaults)) ∨
      ∃ output, parseOptions argv = .error (.exit output) := by
  have hpos := List.length_pos_iff.2 h
  have hloop := optionLoop_spec (List.getElem?_eq_getElem hpos) hpos
    (show argv.length - 1 < argv.length + 1 by omega) .defaults
  rw [List.drop_one] at hloop
  exact hloop

/-! ## The variables after the loop -/

/-- A variable that a group sets or leaves as it is has the value of the last group that sets it. -/
theorem foldl_apply_last {α : Type} (var : Options → α) {value : OptionGroup → Option α}
    (hset : ∀ o group, var (OptionGroup.apply o group) = (value group).getD (var o))
    (groups : List OptionGroup) (o : Options) :
    var (groups.foldl OptionGroup.apply o) = (groups.filterMap value).getLast?.getD (var o) := by
  induction groups using List.reverseRecOn with
  | nil => rfl
  | append_singleton groups group ih =>
    rw [List.foldl_append, List.foldl_cons, List.foldl_nil, hset, ih, List.filterMap_append]
    cases hvalue : value group with
    | none => simp [hvalue]
    | some a => simp [hvalue]

/-- A flag that a kind of groups sets is set if there is one of that kind. -/
theorem foldl_apply_flag (flag : Options → Prop) {Sets : OptionGroup → Prop}
    (hset : ∀ o group, flag (OptionGroup.apply o group) ↔ flag o ∨ Sets group)
    (groups : List OptionGroup) (o : Options) :
    flag (groups.foldl OptionGroup.apply o) ↔ flag o ∨ ∃ group ∈ groups, Sets group := by
  induction groups generalizing o with
  | nil => simp
  | cons group groups ih => rw [List.foldl_cons, ih, hset, or_assoc, List.exists_mem_cons_iff]

theorem foldl_apply_daemonize (groups : List OptionGroup) (o : Options) :
    (groups.foldl OptionGroup.apply o).daemonize = false ↔
      o.daemonize = false ∨ .foreground ∈ groups := by
  have hset : ∀ o group, (OptionGroup.apply o group).daemonize = false ↔
      o.daemonize = false ∨ group = .foreground := by
    intro o group
    cases group <;> simp [OptionGroup.apply]
  rw [foldl_apply_flag (fun o => o.daemonize = false) hset]
  simp

theorem foldl_apply_logLevelSet (groups : List OptionGroup) (o : Options) :
    (groups.foldl OptionGroup.apply o).logLevelSet = true ↔
      o.logLevelSet = true ∨ ∃ arg, .level arg ∈ groups := by
  have hset : ∀ o group, (OptionGroup.apply o group).logLevelSet = true ↔
      o.logLevelSet = true ∨ ∃ arg, group = .level arg := by
    intro o group
    cases group <;> simp [OptionGroup.apply]
  rw [foldl_apply_flag (fun o => o.logLevelSet = true) hset]
  refine or_congr Iff.rfl ⟨?_, ?_⟩
  · rintro ⟨group, hmem, arg, rfl⟩
    exact ⟨arg, hmem⟩
  · rintro ⟨arg, hmem⟩
    exact ⟨_, hmem, arg, rfl⟩

theorem foldl_apply_logSinksSet (groups : List OptionGroup) (o : Options) :
    (groups.foldl OptionGroup.apply o).logSinksSet = true ↔
      o.logSinksSet = true ∨ groups.filterMap OptionGroup.sinks? ≠ [] := by
  have hset : ∀ o group, (OptionGroup.apply o group).logSinksSet = true ↔
      o.logSinksSet = true ∨ group.sinks? ≠ none := by
    intro o group
    cases group <;> simp [OptionGroup.apply, OptionGroup.sinks?]
  rw [foldl_apply_flag (fun o => o.logSinksSet = true) hset, ne_eq, List.filterMap_eq_nil_iff]
  push Not
  rfl

/-- The sinks of all lists are added. -/
theorem foldl_apply_sinks (groups : List OptionGroup) (o : Options) :
    (groups.foldl OptionGroup.apply o).log.activeLogSinks = o.log.activeLogSinks |||
      unionMask ((groups.filterMap OptionGroup.sinks?).flatMap sinkNames) := by
  induction groups generalizing o with
  | nil => simp [unionMask]
  | cons group groups ih =>
    rw [List.foldl_cons, ih]
    cases group with
    | sinks arg =>
      have hcons : (OptionGroup.sinks arg :: groups).filterMap OptionGroup.sinks? =
          arg :: groups.filterMap OptionGroup.sinks? := rfl
      rw [hcons, List.flatMap_cons, unionMask_append, ← BitVec.or_assoc]
      rfl
    | _ => rfl

theorem reflects_foldl (groups : List OptionGroup) :
    (groups.foldl OptionGroup.apply .defaults).Reflects groups where
  daemonize := by
    rw [foldl_apply_daemonize]
    exact or_iff_right (by decide)
  configFile := by
    refine foldl_apply_last Options.configFile (fun o group => ?_) groups _
    cases group <;> rfl
  pidFile := by
    refine foldl_apply_last Options.pidFile (fun o group => ?_) groups _
    cases group <;> rfl
  loggingLevel := by
    refine foldl_apply_last (fun o => o.log.loggingLevel) (fun o group => ?_) groups _
    cases group <;> rfl

/-- The option loop ends within the arguments, accepts exactly the concatenations of valid groups,
    and leaves the variables as they say. -/
theorem parseOptions_grammar (argv : List Str) (h : argv ≠ []) :
    (parseOptions argv ≠ .error .hang ∧ parseOptions argv ≠ .error .outOfBounds) ∧
    ((∃ o, parseOptions argv = .ok o) ↔ ∃ groups, Spells groups argv.tail) ∧
    ∀ o groups, parseOptions argv = .ok o → Spells groups argv.tail → o.Reflects groups := by
  refine ⟨?_, ⟨?_, ?_⟩, ?_⟩
  · rcases parseOptions_spec h with ⟨groups, -, hok⟩ | ⟨output, hexit⟩
    · rw [hok]
      simp
    · rw [hexit]
      simp
  · rintro ⟨o, ho⟩
    rcases parseOptions_spec h with ⟨groups, hspells, -⟩ | ⟨output, hexit⟩
    · exact ⟨groups, hspells⟩
    · rw [hexit] at ho
      cases ho
  · rintro ⟨groups, hspells⟩
    exact ⟨_, parseOptions_valid h hspells⟩
  · intro o groups ho hspells
    rw [parseOptions_valid h hspells, Except.ok.injEq] at ho
    rw [← ho]
    exact reflects_foldl groups

/-- Of three groups, the last level is in force. -/
theorem parseOptions_grammar_sample :
    let argv := [lit "ipvshttpd", lit "-l", lit "DEBUG", lit "-c", lit "lb.conf", lit "-l", lit "error"]
    let groups : List OptionGroup :=
      [.level (lit "DEBUG"), .config (lit "lb.conf"), .level (lit "error")]
    Spells groups argv.tail ∧
      (parseOptions argv ≠ .error .hang ∧ parseOptions argv ≠ .error .outOfBounds) ∧
      ∃ o, parseOptions argv = .ok o ∧ o.Reflects groups ∧ o.configFile = lit "lb.conf" ∧
        o.log.loggingLevel = logLevelError := by
  intro argv groups
  have hspells : Spells groups argv.tail := by
    refine ⟨rfl, ?_⟩
    simp only [groups, List.forall_mem_cons, List.not_mem_nil, false_implies, implies_true, and_true]
    exact ⟨⟨⟨by decide, by decide⟩, by decide⟩, ⟨by decide, by decide⟩,
      ⟨⟨by decide, by decide⟩, by decide⟩⟩
  obtain ⟨hends, haccepts, hreflects⟩ := parseOptions_grammar argv (by decide)
  obtain ⟨o, ho⟩ := haccepts.2 ⟨groups, hspells⟩
  have hgroups := hreflects o groups ho hspells
  exact ⟨hspells, hends, o, ho, hgroups, hgroups.configFile, hgroups.loggingLevel⟩

end Ipvshttpd
