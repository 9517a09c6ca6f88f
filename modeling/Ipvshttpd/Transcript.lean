import Ipvshttpd.Logging

/-!
# Transcripts

What the sinks receive from a sequence of log calls: which of the calls have an entry, and the text
of an entry.
-/

namespace Ipvshttpd

open CLib

/-- Standard output and error together, and syslog. -/
inductive Sink where
  /-- Standard output and error. -/
  | std
  /-- Syslog. -/
  | syslog
  deriving DecidableEq

/-- The sink that an entry is on. -/
def LogOutput.sink : LogOutput → Sink
  | .stdout _ => .std
  | .stderr _ => .std
  | .syslog _ _ => .syslog

/-- The text of an entry, as far as it is defined. -/
def LogOutput.text : LogOutput → Option Str
  | .stdout line => some line
  | .stderr line => some line
  | .syslog _ format => printf format

/-- The position of the bit of a sink in `active_log_sinks`. -/
def Sink.bit : Sink → Nat
  | .std => 0
  | .syslog => 1

/-- The bit of the sink is set. -/
def Active (g : LogSettings) (sink : Sink) : Prop := g.activeLogSinks.getLsbD sink.bit = true

instance (g : LogSettings) (sink : Sink) : Decidable (Active g sink) :=
  inferInstanceAs (Decidable (_ = _))

namespace LogCall

/-- The message. -/
def text : LogCall → Str
  | error m => m
  | message m => m
  | debug m => m

/-- The level from which on a call is logged. -/
def severity : LogCall → Int
  | error _ => logLevelError
  | message _ => logLevelInfo
  | debug _ => logLevelDebug

/-- It is an error. -/
def isError : LogCall → Bool
  | error _ => true
  | _ => false

/-- The level admits the call. -/
def Admitted (g : LogSettings) (c : LogCall) : Prop := c.severity ≤ g.loggingLevel

instance (g : LogSettings) (c : LogCall) : Decidable (Admitted g c) :=
  inferInstanceAs (Decidable (_ ≤ _))

/-- Every entry that the call makes has the text of its message. -/
def Verbatim (g : LogSettings) (c : LogCall) : Prop :=
  ∀ entry ∈ c.output g, entry.text = some c.text

end LogCall

/-- The calls with an entry on the sink, in the order of the entries. -/
def transcript (g : LogSettings) (sink : Sink) (calls : List LogCall) : List LogCall :=
  calls.flatMap fun c => ((c.output g).filter fun entry => entry.sink = sink).map fun _ => c

/-- Every admitted message reaches every active sink once, and no other message a sink. The two sinks
    then have entries for the same calls, and a higher level takes none away. -/
structure FullTranscripts (g : LogSettings) (calls : List LogCall) : Prop where
  /-- A sink has the admitted calls, if it is active. -/
  entries : ∀ sink, transcript g sink calls =
    if Active g sink then calls.filter fun c => c.Admitted g else []
  /-- Two active sinks have the same calls. -/
  agree : Active g .std → Active g .syslog → transcript g .std calls = transcript g .syslog calls
  /-- A higher level takes no call away. -/
  monotone : ∀ level, g.loggingLevel ≤ level → ∀ sink,
    (transcript g sink calls).Sublist (transcript { g with loggingLevel := level } sink calls)

end Ipvshttpd
