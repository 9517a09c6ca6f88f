import Ipvshttpd.CommandLine
import Ipvshttpd.Verdict

/-!
# The api key at start-up

What the options and the configuration file say about the api key, and the requests that are accepted
without one.
-/

namespace Ipvshttpd

open CLib

/-- The value of a line that sets the api key. -/
def apiKeyLine (line : Str) : Option Str :=
  match parseLine line with
  | .setting key value => if key = lit "api_key" then some value else none
  | _ => none

/-- The value of the last line of a file that sets the api key. -/
def lastApiKey (contents : Str) : Option Str := ((getLines contents).filterMap apiKeyLine).getLast?

/-- The options name a configuration file or the default one exists, and its last line for the api key
    gives one that is not empty. -/
def ConfiguresKey (files : Files) (argv : List Str) : Prop :=
  ∃ o, parseOptions argv = .ok o ∧ (o.configSet = true ∨ files.fileExists o.configFile = true) ∧
    ∃ contents key, files.read o.configFile = some contents ∧ lastApiKey contents = some key ∧
      key ≠ []

/-- A request with an empty string as api key that is otherwise complete. -/
def EmptyKeyRequest (jc : Jsoncpp) (body : Str) : Prop :=
  ∃ ms, jc.parse body = some (.object ms) ∧ Admits [] ms ∧ (field ms "host").hasString = true

end Ipvshttpd
