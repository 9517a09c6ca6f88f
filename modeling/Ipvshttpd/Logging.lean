import Ipvshttpd.CLib.CString

/-!
# Logging

The functions of `logging.cpp`. What they write depends on the globals `logging_level` and
`active_log_sinks`, here a `LogSettings`.
-/

namespace Ipvshttpd

open CLib

/-! ## Log levels and log sinks -/

/-- `LOG_LEVEL_NONE` -/
def logLevelNone : Int := 0

/-- `LOG_LEVEL_ERROR` -/
def logLevelError : Int := 1

/-- `LOG_LEVEL_INFO` -/
def logLevelInfo : Int := 2

/-- `LOG_LEVEL_DEBUG` -/
def logLevelDebug : Int := 3

/-- `LOG_SINK_NONE` -/
def logSinkNone : BitVec 32 := 0

/-- `LOG_SINK_STD` -/
def logSinkStd : BitVec 32 := 1

/-- `LOG_SINK_SYSLOG` -/
def logSinkSyslog : BitVec 32 := 2

/-- The globals `logging_level` and `active_log_sinks`. -/
structure LogSettings where
  /-- How much is logged. -/
  loggingLevel : Int
  /-- The mask of the sinks. -/
  activeLogSinks : BitVec 32
  deriving DecidableEq

/-- The priorities of syslog. -/
inductive Priority where
  /-- `LOG_WARNING` -/
  | logWarning
  /-- `LOG_INFO` -/
  | logInfo
  /-- `LOG_DEBUG` -/
  | logDebug
  deriving DecidableEq

/-- One message on one sink. The second argument of `syslog` is a `printf` format. -/
inductive LogOutput where
  /-- A line of the standard output. -/
  | stdout (line : Str)
  /-- A line of the standard error. -/
  | stderr (line : Str)
  /-- A call of `syslog`. -/
  | syslog (priority : Priority) (format : Str)
  deriving DecidableEq

/-- Logs an error message. The test for the syslog sink compares the truth value of a conjunction
    with the mask of the sink. -/
def logError (g : LogSettings) (message : Str) : List LogOutput :=
  if g.loggingLevel < logLevelError then []
  else if g.activeLogSinks = logSinkNone then []
  else
    (if g.activeLogSinks &&& logSinkStd = logSinkStd then [.stderr message] else []) ++
    (if (if g.activeLogSinks ≠ 0 ∧ logSinkSyslog ≠ 0 then 1 else 0) = logSinkSyslog then
      [.syslog .logWarning (cStr message)] else [])

/-- Logs an informational message. -/
def logMessage (g : LogSettings) (message : Str) : List LogOutput :=
  if g.loggingLevel < logLevelInfo then []
  else if g.activeLogSinks = logSinkNone then []
  else
    (if g.activeLogSinks &&& logSinkStd = logSinkStd then [.stdout message] else []) ++
    (if g.activeLogSinks &&& logSinkSyslog = logSinkSyslog then
      [.syslog .logInfo (cStr message)] else [])

/-- Logs a debug message. -/
def logDebug (g : LogSettings) (message : Str) : List LogOutput :=
  if g.loggingLevel < logLevelDebug then []
  else if g.activeLogSinks = logSinkNone then []
  else
    (if g.activeLogSinks &&& logSinkStd = logSinkStd then [.stdout message] else []) ++
    (if g.activeLogSinks &&& logSinkSyslog = logSinkSyslog then
      [.syslog .logDebug (cStr message)] else [])

/-- A call of one of the three functions, by code that does not know the settings. -/
inductive LogCall where
  /-- `log_error` -/
  | error (message : Str)
  /-- `log_message` -/
  | message (message : Str)
  /-- `log_debug` -/
  | debug (message : Str)
  deriving DecidableEq

/-- What a call writes. -/
def LogCall.output (g : LogSettings) : LogCall → List LogOutput
  | .error m => logError g m
  | .message m => logMessage g m
  | .debug m => logDebug g m

end Ipvshttpd
