import Ipvshttpd.Logging
import Ipvshttpd.StringTools

/-!
# Configuration

The class `configuration_manager` of `configuration.cpp`.
-/

namespace Ipvshttpd

open CLib

/-- The settings, under the names of the members. -/
structure ConfigurationManager where
  /-- The port to listen on. -/
  mPort : Int
  /-- The number of threads that serve requests. -/
  mServerThreads : Int
  /-- Requests come in over SSL. -/
  mUseSsl : Bool
  /-- The address to listen on. -/
  mListenAddress : Str
  /-- The log level, as it is written. -/
  mLogVerbosity : Str
  /-- The list of log sinks, as it is written. -/
  mLogSinks : Str
  /-- The key that requests have to give. -/
  mApiKey : Str
  /-- The virtual IP host and port. -/
  mVip : Str
  /-- The file with the private key. -/
  mSslKeyFile : Str
  /-- The file with the certificates. -/
  mSslCertChainFile : Str
  /-- The file with the Diffie-Hellman parameters. -/
  mSslDhFile : Str
  deriving DecidableEq

namespace ConfigurationManager

/-- The constructor, with the default values. -/
def new : ConfigurationManager where
  mPort := 8080
  mListenAddress := lit "0.0.0.0"
  mServerThreads := 2
  mUseSsl := false
  mLogVerbosity := []
  mLogSinks := []
  mApiKey := []
  mVip := []
  mSslKeyFile := []
  mSslCertChainFile := []
  mSslDhFile := []

/-- `get_port` -/
def getPort (m : ConfigurationManager) : Int := m.mPort

/-- `get_threads` -/
def getThreads (m : ConfigurationManager) : Int := m.mServerThreads

/-- `get_listen_address` -/
def getListenAddress (m : ConfigurationManager) : Str := m.mListenAddress

/-- `get_log_verbosity` -/
def getLogVerbosity (m : ConfigurationManager) : Str := m.mLogVerbosity

/-- `get_log_sinks` -/
def getLogSinks (m : ConfigurationManager) : Str := m.mLogSinks

/-- `get_api_key` -/
def getApiKey (m : ConfigurationManager) : Str := m.mApiKey

/-- `get_vip` -/
def getVip (m : ConfigurationManager) : Str := m.mVip

/-- `get_ssl_key_file` -/
def getSslKeyFile (m : ConfigurationManager) : Str := m.mSslKeyFile

/-- `get_ssl_cert_chain_file` -/
def getSslCertChainFile (m : ConfigurationManager) : Str := m.mSslCertChainFile

/-- `get_ssl_dh_file` -/
def getSslDhFile (m : ConfigurationManager) : Str := m.mSslDhFile

/-- `get_ssl` -/
def getSsl (m : ConfigurationManager) : Bool := m.mUseSsl

/-- The dispatch on the key of a line; `none` for an unknown key. A value of `use_ssl` that is neither
    yes nor true leaves the setting as it is. -/
def setOption (m : ConfigurationManager) (key value : Str) : Option ConfigurationManager :=
  if key = lit "port" then some { m with mPort := atoi (cStr value) }
  else if key = lit "listen_address" then some { m with mListenAddress := value }
  else if key = lit "log_verbosity" then some { m with mLogVerbosity := value }
  else if key = lit "log_sinks" then some { m with mLogSinks := value }
  else if key = lit "threads" then some { m with mServerThreads := atoi (cStr value) }
  else if key = lit "api_key" then some { m with mApiKey := value }
  else if key = lit "vip" then some { m with mVip := value }
  else if key = lit "use_ssl" then
    if strToLower value = lit "yes" ∨ strToLower value = lit "true" then
      some { m with mUseSsl := true }
    else some m
  else if key = lit "ssl_key_file" then some { m with mSslKeyFile := value }
  else if key = lit "ssl_cert_chain_file" then some { m with mSslCertChainFile := value }
  else if key = lit "ssl_dh_file" then some { m with mSslDhFile := value }
  else none

end ConfigurationManager

/-- What one line of a configuration file says. -/
inductive ConfigLine where
  /-- A blank line or a comment. -/
  | skip
  /-- A key in lower case, and its value. -/
  | setting (key value : Str)
  /-- A line without a colon. -/
  | malformed
  deriving DecidableEq

/-- Trims a line, skips blank lines and comments and splits the others in a key-value pair. -/
def parseLine (line : Str) : ConfigLine :=
  if strTrim line = [] then .skip
  else if strStartsWith (lit "#") (strTrim line) then .skip
  else
    match strSplit (strTrim line) (lit ":") 2 with
    | some [key, value] => .setting (strToLower key) (strTrim value)
    | _ => .malformed

/-- The result of `open`, the object after it and the log calls it made. -/
structure OpenResult where
  /-- The file is a valid configuration. -/
  valid : Bool
  /-- The object, with the settings up to the first error. -/
  manager : ConfigurationManager
  /-- The messages. -/
  log : List LogCall
  deriving DecidableEq

/-- The message for a line that is not accepted; lines are counted from 1. -/
def invalidLine (filename : Str) (lineNr : Int) : LogCall :=
  .error (lit "Invalid configuration in " ++ filename ++ lit " line " ++ strFromNumber lineNr)

/-- The line loop of `open`, with `lineNr` lines already read. -/
def openLoop (filename : Str) : List Str → Int → ConfigurationManager → OpenResult
  | [], _, m => ⟨true, m, []⟩
  | line :: lines, lineNr, m =>
    match parseLine line with
    | .skip => openLoop filename lines (lineNr + 1) m
    | .setting key value =>
      match m.setOption key value with
      | some m' => openLoop filename lines (lineNr + 1) m'
      | none => ⟨false, m, [invalidLine filename (lineNr + 1)]⟩
    | .malformed => ⟨false, m, [invalidLine filename (lineNr + 1)]⟩

/-- Loads configuration from file; `fin` is the contents of the file, if it can be opened. -/
def ConfigurationManager.openFile (m : ConfigurationManager) (filename : Str) (fin : Option Str) :
    OpenResult :=
  match fin with
  | none =>
    ⟨false, m, [.message (lit "Reading configuration..."),
      .error (lit "Could not open configuration file: " ++ filename)]⟩
  | some contents =>
    let result := openLoop filename (getLines contents) 0 m
    { result with log := .message (lit "Reading configuration...") :: result.log }

end Ipvshttpd
