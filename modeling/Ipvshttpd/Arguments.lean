import Ipvshttpd.CommandLine

/-!
# The grammar of the arguments

The arguments of the program as a sequence of options, each with the argument it takes, and what such
a sequence makes of the variables of `main`.
-/

namespace Ipvshttpd

open CLib

/-- The level that a name stands for. -/
def levelOf (name : Str) : Option Int :=
  if name = lit "none" then some logLevelNone
  else if name = lit "error" then some logLevelError
  else if name = lit "info" then some logLevelInfo
  else if name = lit "debug" then some logLevelDebug
  else none

/-- The names of the sinks. -/
def IsSinkName (name : Str) : Prop :=
  name = lit "none" ∨ name = lit "syslog" ∨ name = lit "stdout"

instance (name : Str) : Decidable (IsSinkName name) := inferInstanceAs (Decidable (_ ∨ _))

/-- A text that can be the argument of an option. -/
structure IsArgument (arg : Str) : Prop where
  /-- It is not empty. -/
  ne_nil : arg ≠ []
  /-- It does not begin with a dash. -/
  no_dash : arg.head? ≠ some 45

/-- An option of the command line, with its argument if it has one. -/
inductive OptionGroup where
  /-- `-f` -/
  | foreground
  /-- `-l` -/
  | level (arg : Str)
  /-- `-L` -/
  | sinks (arg : Str)
  /-- `-c` -/
  | config (arg : Str)
  /-- `-p` -/
  | pid (arg : Str)
  deriving DecidableEq

namespace OptionGroup

/-- The arguments of a group. -/
def args : OptionGroup → List Str
  | foreground => [lit "-f"]
  | level arg => [lit "-l", arg]
  | sinks arg => [lit "-L", arg]
  | config arg => [lit "-c", arg]
  | pid arg => [lit "-p", arg]

/-- An option that takes an argument has one. -/
def Complete : OptionGroup → Prop
  | foreground => True
  | level arg => IsArgument arg
  | sinks arg => IsArgument arg
  | config arg => IsArgument arg
  | pid arg => IsArgument arg

/-- Levels and sinks are named in any letter case. -/
def Valid : OptionGroup → Prop
  | foreground => True
  | level arg => IsArgument arg ∧ levelOf (strToLower arg) ≠ none
  | sinks arg => IsArgument arg ∧ ∀ name ∈ sinkNames arg, IsSinkName name
  | config arg => IsArgument arg
  | pid arg => IsArgument arg

/-! ## The values of a group -/

/-- The level that a group sets. -/
def level? : OptionGroup → Option Int
  | level arg => levelOf (strToLower arg)
  | _ => none

/-- The list of sinks that a group gives. -/
def sinks? : OptionGroup → Option Str
  | sinks arg => some arg
  | _ => none

/-- The configuration file that a group names. -/
def config? : OptionGroup → Option Str
  | config arg => some arg
  | _ => none

/-- The pid file that a group names. -/
def pid? : OptionGroup → Option Str
  | pid arg => some arg
  | _ => none

/-- The variables after a valid group. -/
def apply (o : Options) : OptionGroup → Options
  | foreground => { o with daemonize := false }
  | level arg =>
    { o with
      log := { o.log with loggingLevel := (levelOf (strToLower arg)).getD o.log.loggingLevel }
      logLevelSet := true }
  | sinks arg =>
    { o with
      log := { o.log with activeLogSinks := o.log.activeLogSinks ||| unionMask (sinkNames arg) }
      logSinksSet := true }
  | config arg => { o with configFile := arg, configSet := true }
  | pid arg => { o with pidFile := arg }

end OptionGroup

/-- The arguments are the concatenation of valid groups. -/
structure Spells (groups : List OptionGroup) (args : List Str) : Prop where
  /-- The arguments are those of the groups. -/
  concat : args = groups.flatMap OptionGroup.args
  /-- The groups are valid. -/
  valid : ∀ group ∈ groups, group.Valid

/-- The options are those of the last group of each kind, or the defaults. -/
structure Options.Reflects (o : Options) (groups : List OptionGroup) : Prop where
  /-- The program stays in the foreground if one of the groups is `-f`. -/
  daemonize : o.daemonize = false ↔ .foreground ∈ groups
  /-- The last configuration file counts. -/
  configFile : o.configFile =
    (groups.filterMap OptionGroup.config?).getLast?.getD Options.defaults.configFile
  /-- The last pid file counts. -/
  pidFile : o.pidFile = (groups.filterMap OptionGroup.pid?).getLast?.getD Options.defaults.pidFile
  /-- The last level counts. -/
  loggingLevel : o.log.loggingLevel =
    (groups.filterMap OptionGroup.level?).getLast?.getD Options.defaults.log.loggingLevel

end Ipvshttpd
