import Ipvshttpd.Arguments
import Ipvshttpd.ConfigText

/-!
# The two ways to set the log level

A level that is chosen with the option `-l` or with the key `log_verbosity`, and how the start ends in
both cases.
-/

namespace Ipvshttpd

open CLib

/-- The start is rejected, or it goes through and the log level is then the given one. -/
def EndsWith (r : Except Stop Started) : Option Int → Prop
  | none => ∃ output, r = .error (.exit output)
  | some level => ∃ started, r = .ok started ∧ started.options.log.loggingLevel = level

/-- Both starts are rejected, or both go through and end with the same log level. -/
def SameOutcome (r r' : Except Stop Started) : Prop :=
  ∃ outcome, EndsWith r outcome ∧ EndsWith r' outcome

/-- The files of a system where the configuration has these contents, wherever it is. -/
def Files.configured (contents : Str) : Files := ⟨fun _ => true, fun _ => some contents⟩

/-- Started with these arguments, the program loads a configuration with these lines. -/
def Loads (files : Files) (argv lines : List Str) : Prop :=
  ∀ o, parseOptions argv = .ok o →
    (o.configSet = true ∨ files.fileExists o.configFile = true) ∧
      ∃ contents, files.read o.configFile = some contents ∧ getLines contents = lines

/-- The value that is left of those that the lines give for a key. -/
def lastSetting (key : Key) (lines : List Str) : Str :=
  (lines.filterMap (settingOf key)).getLast?.getD []

/-- The lines that do not assign to `log_verbosity`. -/
def otherLines (lines : List Str) : List Str :=
  lines.filter fun line => (settingOf .logVerbosity line).isNone

/-- With these arguments and this configuration, nothing but the log level can be wrong. -/
structure Startable (args lines : List Str) : Prop where
  /-- The arguments are valid. -/
  options : ∃ groups, Spells groups args
  /-- The lines are accepted. -/
  accepted : ∀ line ∈ lines, Accepted line
  /-- The sinks that are asked for exist. -/
  sinks : ∀ name ∈ requestedSinks (sinkLists args) (lastSetting .logSinks lines), IsSinkName name

/-- If the option `-l` is among the arguments, the lines for `log_verbosity` have no influence. -/
def VerbosityIgnored : Prop :=
  ∀ (files files' : Files) (argv lines lines' : List Str), lit "-l" ∈ argv.tail →
    otherLines lines = otherLines lines' → Loads files argv lines → Loads files' argv lines' →
      SameOutcome (startUp files argv) (startUp files' argv)

/-- A log level, and the arguments and lines around the place where it is set. -/
structure LevelChoice where
  /-- The name of the program. -/
  program : Str
  /-- The options before the place. -/
  before : List OptionGroup
  /-- The arguments after it. -/
  after : List Str
  /-- The lines before the place. -/
  pre : List Str
  /-- The lines after it. -/
  post : List Str
  /-- The text of the level. -/
  level : Str
  /-- It can be the argument of an option. -/
  argument : IsArgument level
  /-- It can be the value of a line. -/
  trimmed : Trimmed level
  /-- No other argument is `-l`. -/
  noOption : lit "-l" ∉ before.flatMap OptionGroup.args ++ after
  /-- No other line sets the level. -/
  noLine : ∀ line ∈ pre ++ post, settingOf .logVerbosity line = none

namespace LevelChoice

/-- The level alone, with no other arguments and lines. -/
def alone (level : Str) (argument : IsArgument level) (trimmed : Trimmed level) : LevelChoice where
  program := lit "ipvshttpd"
  before := []
  after := []
  pre := []
  post := []
  level := level
  argument := argument
  trimmed := trimmed
  noOption := List.not_mem_nil
  noLine := fun _ h => absurd h List.not_mem_nil

/-- The arguments without the option. -/
def args (c : LevelChoice) : List Str := c.before.flatMap OptionGroup.args ++ c.after

/-- The lines without the one for the level. -/
def lines (c : LevelChoice) : List Str := c.pre ++ c.post

/-- `argv` without the option. -/
def argvWithout (c : LevelChoice) : List Str := c.program :: c.args

/-- The arguments with the option for the level. -/
def argvWith (c : LevelChoice) : List Str :=
  c.program :: (c.before.flatMap OptionGroup.args ++ lit "-l" :: c.level :: c.after)

/-- The lines with the one for the level. -/
def linesWith (c : LevelChoice) : List Str := c.pre ++ (lit "log_verbosity: " ++ c.level) :: c.post

end LevelChoice

end Ipvshttpd
