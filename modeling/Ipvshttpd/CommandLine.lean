import Ipvshttpd.Configuration

/-!
# The command line

The option loop of `main` in `ipvshttpd.cpp` and the start-up up to the log message that the program
is starting. The loop runs over the indices of `argv`; reading at an index that is not below `argc`
stops the model with `outOfBounds`.
-/

namespace Ipvshttpd

open CLib

/-- What the program sees of the file system. -/
structure Files where
  /-- The file exists. -/
  fileExists : Str → Bool
  /-- The contents of a file that can be opened. -/
  read : Str → Option Str

/-- What the program shows before it serves requests. -/
inductive StartOutput where
  /-- A log message. -/
  | log (output : LogOutput)
  /-- How the program is used. -/
  | usage (programName : Str)
  deriving DecidableEq

/-- How a start-up ends early: `main` returns 1 after its output, or goes wrong. -/
inductive Stop where
  /-- The program ends with the status 1. -/
  | exit (output : List StartOutput)
  /-- An argument is read that is not there. -/
  | outOfBounds
  /-- The program does not end. -/
  | hang
  deriving DecidableEq

/-- The variables of `main` that the options set, and the log settings. -/
structure Options where
  /-- Where the configuration is read from, `-c`. -/
  configFile : Str
  /-- Where the process id is written to, `-p`. -/
  pidFile : Str
  /-- The log settings, `-l` and `-L`. -/
  log : LogSettings
  /-- The option `-c` has been given. -/
  configSet : Bool
  /-- The option `-l` has been given. -/
  logLevelSet : Bool
  /-- The option `-L` has been given. -/
  logSinksSet : Bool
  /-- The option `-f` has not been given. -/
  daemonize : Bool
  deriving DecidableEq

/-- The variables before the options are parsed. -/
def Options.defaults : Options where
  configFile := lit "/etc/sysconfig/ipvshttpd.conf"
  pidFile := []
  log := ⟨logLevelError, logSinkStd⟩
  configSet := false
  logLevelSet := false
  logSinksSet := false
  daemonize := true

/-- Logs an error before the program ends. -/
def errorOutput (g : LogSettings) (message : Str) : List StartOutput :=
  (logError g message).map .log

/-! ## Log levels and log sinks -/

/-- Parses configured log sinks. -/
def parseLogSink (g : LogSettings) (selectedLogSink : Str) : Except Stop LogSettings :=
  if selectedLogSink ≠ lit "none" ∧ selectedLogSink ≠ lit "syslog" ∧ selectedLogSink ≠ lit "stdout" then
    .error (.exit (errorOutput g (lit "Invalid log sink: " ++ selectedLogSink)))
  else
    let g := if selectedLogSink = lit "none" then
      { g with activeLogSinks := g.activeLogSinks ||| logSinkNone } else g
    let g := if selectedLogSink = lit "stdout" then
      { g with activeLogSinks := g.activeLogSinks ||| logSinkStd } else g
    let g := if selectedLogSink = lit "syslog" then
      { g with activeLogSinks := g.activeLogSinks ||| logSinkSyslog } else g
    .ok g

/-- The loop over the elements of a list of sinks, on the command line as in the configuration. -/
def parseLogSinks (g : LogSettings) (list : Str) : Except Stop LogSettings :=
  match strSplit list (lit ",") (-1) with
  | some selected => selected.foldlM (fun g it => parseLogSink g (strToLower it)) g
  | none => .error .hang

/-- Parses configured log level. -/
def parseLogLevel (g : LogSettings) (logLevelChoice : Str) : Except Stop LogSettings :=
  if logLevelChoice = lit "none" then .ok { g with loggingLevel := logLevelNone }
  else if logLevelChoice = lit "error" then .ok { g with loggingLevel := logLevelError }
  else if logLevelChoice = lit "info" then .ok { g with loggingLevel := logLevelInfo }
  else if logLevelChoice = lit "debug" then .ok { g with loggingLevel := logLevelDebug }
  else .error (.exit (errorOutput g (lit "Unknown log level: " ++ logLevelChoice)))

/-! ## Options -/

/-- Reads `argv` at an index. -/
def readArg (argv : List Str) (i : Nat) : Except Stop Str :=
  match argv[i]? with
  | some arg => .ok arg
  | none => .error .outOfBounds

/-- The next argument, the empty string at the end. -/
def peekArg (argv : List Str) (i : Nat) : Except Stop Str :=
  if i < argv.length then readArg argv i else .ok []

/-- An error in the options: the message, and how the program is used. -/
def usageError {α : Type} (argv : List Str) (g : LogSettings) (message : Str) : Except Stop α := do
  let programName ← readArg argv 0
  .error (.exit (errorOutput g message ++ [.usage programName]))

/-- One pass of the option loop: `argn` and the variables at the end of its body. -/
def optionStep (argv : List Str) (argn : Nat) (o : Options) : Except Stop (Nat × Options) := do
  let currOpt ← readArg argv argn
  let nextOpt ← peekArg argv (argn + 1)
  let missing := nextOpt = [] ∨ strStartsWith (lit "-") nextOpt
  if currOpt = lit "-f" then pure (argn, { o with daemonize := false })
  else if currOpt = lit "-l" then
    if missing then usageError argv o.log (lit "Missing argument to -l option.")
    else
      let log ← parseLogLevel o.log (strToLower nextOpt)
      pure (argn + 1, { o with log := log, logLevelSet := true })
  else if currOpt = lit "-L" then
    if missing then usageError argv o.log (lit "Missing argument(s) to -L option.")
    else
      let log ← parseLogSinks o.log nextOpt
      pure (argn + 1, { o with log := log, logSinksSet := true })
  else if currOpt = lit "-c" then
    if missing then usageError argv o.log (lit "Missing argument to -c option.")
    else
      let configFile ← readArg argv (argn + 1)
      pure (argn + 1, { o with configFile := configFile, configSet := true })
  else if currOpt = lit "-p" then
    if missing then usageError argv o.log (lit "Missing argument to -p option.")
    else
      let pidFile ← readArg argv (argn + 1)
      pure (argn + 1, { o with pidFile := pidFile })
  else usageError argv o.log (lit "Unknown option: " ++ currOpt)

/-- The option loop from the index `argn` on, if it ends within `fuel` tests of its condition. -/
def optionLoop (argv : List Str) : Nat → Nat → Options → Except Stop Options
  | 0, _, _ => .error .hang
  | fuel + 1, argn, o =>
    if argn ≠ argv.length then do
      let (argn, o) ← optionStep argv argn o
      optionLoop argv fuel (argn + 1) o
    else .ok o

/-- The arguments are parsed from the index 1 on, and every pass takes at least one of them. -/
def parseOptions (argv : List Str) : Except Stop Options :=
  optionLoop argv (argv.length + 1) 1 .defaults

/-! ## The start -/

/-- The program at the call of `log_start`, and what it has shown up to there. -/
structure Started where
  /-- The options, with the log settings of the configuration. -/
  options : Options
  /-- The configuration. -/
  config : ConfigurationManager
  /-- What has been shown. -/
  output : List StartOutput
  deriving DecidableEq

/-- What comes before the end of the program in its output. -/
def Stop.after (output : List StartOutput) : Stop → Stop
  | .exit out => .exit (output ++ out)
  | stop => stop

/-- Sets the log level from the configuration, unless the command line has set it. -/
def configureLevel (o : Options) (config : ConfigurationManager) (g : LogSettings) :
    Except Stop LogSettings :=
  if o.logLevelSet = false ∧ config.getLogVerbosity ≠ [] then parseLogLevel g config.getLogVerbosity
  else .ok g

/-- Sets the log sinks from the configuration, unless the command line has set them. -/
def configureSinks (o : Options) (config : ConfigurationManager) (g : LogSettings) :
    Except Stop LogSettings :=
  if o.logSinksSet = false ∧ config.getLogSinks ≠ [] then parseLogSinks g config.getLogSinks
  else .ok g

/-- Sets the level first, then the sinks. -/
def configureLog (o : Options) (config : ConfigurationManager) : Except Stop LogSettings := do
  let g ← configureLevel o config o.log
  configureSinks o config g

/-- `main` up to `log_start`. -/
def startUp (files : Files) (argv : List Str) : Except Stop Started := do
  let o ← parseOptions argv
  if o.configSet ∨ files.fileExists o.configFile then
    let result := ConfigurationManager.new.openFile o.configFile (files.read o.configFile)
    let output := (result.log.flatMap (LogCall.output o.log)).map .log
    if result.valid then
      match configureLog o result.manager with
      | .ok log => pure ⟨{ o with log := log }, result.manager, output⟩
      | .error stop => .error (stop.after output)
    else .error (.exit (output ++ errorOutput o.log (lit "Could not load configuration file.")))
  else pure ⟨o, .new, []⟩

/-! ## The requested sinks -/

/-- The names in a comma-separated list of log sinks. -/
def sinkNames (list : Str) : List Str := (list.splitOn 44).map strToLower

/-- The mask of a sink. -/
def sinkMask (name : Str) : BitVec 32 :=
  if name = lit "stdout" then logSinkStd
  else if name = lit "syslog" then logSinkSyslog
  else logSinkNone

/-- The mask of a list of sinks. -/
def unionMask (names : List Str) : BitVec 32 := names.foldr (fun name mask => sinkMask name ||| mask) 0

/-- The arguments of the options `-L`; every option but `-f` has one argument. -/
def sinkLists : List Str → List Str
  | opt :: arg :: args =>
    if opt = lit "-f" then sinkLists (arg :: args)
    else if opt = lit "-L" then arg :: sinkLists args
    else sinkLists args
  | _ => []

/-- The sinks that are asked for: in the lists of the command line if there are any, else in the
    configured list if it is not empty, else the standard one. -/
def requestedSinks (lists : List Str) (configured : Str) : List Str :=
  if lists ≠ [] then lists.flatMap sinkNames
  else if configured ≠ [] then sinkNames configured
  else [lit "stdout"]

end Ipvshttpd
